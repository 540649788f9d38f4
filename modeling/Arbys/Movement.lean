import Arbys.PaperBroker

/-!
# What one operation does to an account

Every mutation of an account, whether a buy, a sale, a settlement or the
closing of a paid position, moves one outcome on one venue. `Movement` says
all of what changed: the cash of the venue, quantity, average, carried fees
and realized P&L of the outcome, and nothing off it. Each operation of
`AccountState` is shown to be one movement (`movement_buy`, `movement_sell`,
`movement_settle`, `movement_closeOut`), and the account's totals are read off
a movement by the one-key rule.
-/

namespace Arbys

namespace AccountState

/-- `st'` is `st` with outcome `o` moved on venue `v`. -/
structure Movement (v : VenueId) (o : OutcomeId) (st st' : AccountState)
    (dCash dRealized qty' avg' fees' : ℚ) : Prop where
  cash : st'.cash v = st.cash v + dCash
  cash_off : ∀ w, w ≠ v → st'.cash w = st.cash w
  qty : st'.qty o = qty'
  avg : st'.avg o = avg'
  openFees : st'.openFees o = fees'
  realizedPnl : st'.realizedPnl = st.realizedPnl + dRealized
  realizedOn : st'.realizedOn o = st.realizedOn o + dRealized
  qty_off : ∀ j, j ≠ o → st'.qty j = st.qty j
  avg_off : ∀ j, j ≠ o → st'.avg j = st.avg j
  openFees_off : ∀ j, j ≠ o → st'.openFees j = st.openFees j
  realizedOn_off : ∀ j, j ≠ o → st'.realizedOn j = st.realizedOn j

/-! ## The fee share -/

/-- The part of `carried` that leaves with `released` out of `held`. -/
def feeShare (carried released held : ℚ) : ℚ :=
  if carried = 0 ∨ held ≤ 0 then 0
  else if held ≤ released then carried else carried * (released / held)

theorem consumeFees_fst (st : AccountState) (o : OutcomeId) (released held : ℚ) :
    (st.consumeFees o released held).1 = feeShare (st.openFees o) released held := by
  simp only [consumeFees, feeShare]
  split <;> rfl

theorem consumeFees_snd_openFees (st : AccountState) (o j : OutcomeId) (released held : ℚ) :
    (st.consumeFees o released held).2.openFees j =
      if j = o then st.openFees o - feeShare (st.openFees o) released held
      else st.openFees j := by
  simp only [consumeFees, feeShare]
  split
  · split
    · rename_i h
      rw [h, sub_zero]
    · rfl
  · simp only [openFees, Dict.getD_set]

/-- Consuming fees touches the carried fees only. -/
theorem consumeFees_snd (st : AccountState) (o : OutcomeId) (released held : ℚ) :
    ∃ fees, (st.consumeFees o released held).2 = { st with openFeesByOutcome := fees } := by
  simp only [consumeFees]
  split
  · exact ⟨_, rfl⟩
  · exact ⟨_, rfl⟩

/-- A position that closes whole takes all its fees with it. -/
theorem feeShare_whole {carried released held : ℚ} (hh : 0 < held) (hr : held ≤ released) :
    feeShare carried released held = carried := by
  unfold feeShare
  split
  · rename_i h
    rcases h with h | h
    · exact h.symm
    · exact absurd h (not_le.mpr hh)
  · rfl

/-! ## The operations are movements -/

theorem movement_buy (st : AccountState) (v : VenueId) (o : OutcomeId) (qty px fee : ℚ) :
    Movement v o st (st.bookFill v o true qty px fee) (-(px * qty + fee)) 0 (st.qty o + qty)
      (if 0 < st.qty o + qty then (st.qty o * st.avg o + qty * px) / (st.qty o + qty) else 0)
      (st.openFees o + fee) := by
  simp only [bookFill, acquire, if_true]
  constructor
  · simp [cash, sub_eq_add_neg]
  · intro w hw
    simp [cash, Dict.getD_set_ne _ hw]
  · simp [AccountState.qty]
  · simp only [AccountState.qty, avg, Dict.getD_set_self]
    rfl
  · simp [openFees]
  · simp
  · simp [realizedOn]
  · intro j hj
    simp [AccountState.qty, Dict.getD_set_ne _ hj]
  · intro j hj
    simp [avg, Dict.getD_set_ne _ hj]
  · intro j hj
    simp [openFees, Dict.getD_set_ne _ hj]
  · intro j _
    simp [realizedOn]

/-- A release consumes fees, books the gain and lowers the position. -/
theorem movement_release (st : AccountState) (v : VenueId) (o : OutcomeId) (qty px : ℚ) :
    Movement v o st (st.release o qty px) 0
      ((px - st.avg o) * min qty (st.qty o) - feeShare (st.openFees o) qty (st.qty o))
      (st.qty o - qty) (st.avg o)
      (st.openFees o - feeShare (st.openFees o) qty (st.qty o)) := by
  obtain ⟨fees, hst⟩ := consumeFees_snd st o qty (st.qty o)
  have hfees := fun j => consumeFees_snd_openFees st o j qty (st.qty o)
  simp only [hst, openFees] at hfees
  simp only [release, consumeFees_fst, hst, realize]
  constructor
  · simp [cash]
  · intro w _
    rfl
  · simp [AccountState.qty]
  · rfl
  · simpa [openFees] using hfees o
  · rfl
  · simp [realizedOn]
  · intro j hj
    simp [AccountState.qty, Dict.getD_set_ne _ hj]
  · intro j _
    rfl
  · intro j hj
    simpa [openFees, hj] using hfees j
  · intro j hj
    simp [realizedOn, Dict.getD_set_ne _ hj]

theorem movement_sell (st : AccountState) (v : VenueId) (o : OutcomeId) (qty px fee : ℚ) :
    Movement v o st (st.bookFill v o false qty px fee) (px * qty - fee)
      ((px - st.avg o) * min qty (st.qty o) - feeShare (st.openFees o + fee) qty (st.qty o))
      (st.qty o - qty) (st.avg o)
      (st.openFees o + fee - feeShare (st.openFees o + fee) qty (st.qty o)) := by
  -- fees and cash move first, then the release runs on the result
  let st₁ : AccountState := { st with
    openFeesByOutcome := st.openFeesByOutcome.set o (st.openFees o + fee)
    balances := st.balances.set v (st.cash v + (px * qty - fee)) }
  have hfee : st₁.openFees o = st.openFees o + fee := by simp [st₁, openFees]
  have hrel := movement_release st₁ v o qty px
  have hbook : st.bookFill v o false qty px fee = st₁.release o qty px := rfl
  rw [hfee] at hrel
  rw [hbook]
  constructor
  · rw [hrel.cash]
    simp [st₁, cash]
  · intro w hw
    rw [hrel.cash_off w hw]
    simp [st₁, cash, Dict.getD_set_ne _ hw]
  · exact hrel.qty
  · exact hrel.avg
  · exact hrel.openFees
  · exact hrel.realizedPnl
  · exact hrel.realizedOn
  · exact hrel.qty_off
  · exact hrel.avg_off
  · intro j hj
    rw [hrel.openFees_off j hj]
    simp [st₁, openFees, Dict.getD_set_ne _ hj]
  · exact hrel.realizedOn_off

theorem movement_settle (st : AccountState) (v : VenueId) (o : OutcomeId) (value : ℚ)
    (h : st.qty o ≠ 0) :
    Movement v o st (st.settle v o value) (value * st.qty o)
      ((value - st.avg o) * st.qty o - feeShare (st.openFees o) (st.qty o) (st.qty o))
      0 0 (st.openFees o - feeShare (st.openFees o) (st.qty o) (st.qty o)) := by
  obtain ⟨fees, hst⟩ := consumeFees_snd st o (st.qty o) (st.qty o)
  have hfees := fun j => consumeFees_snd_openFees st o j (st.qty o) (st.qty o)
  simp only [hst, openFees] at hfees
  simp only [settle, if_neg h, consumeFees_fst, hst, realize]
  constructor
  · simp [cash]
  · intro w hw
    simp [cash, Dict.getD_set_ne _ hw]
  · simp [AccountState.qty]
  · simp [avg]
  · simpa [openFees] using hfees o
  · rfl
  · simp [realizedOn]
  · intro j hj
    simp [AccountState.qty, Dict.getD_set_ne _ hj]
  · intro j hj
    simp [avg, Dict.getD_set_ne _ hj]
  · intro j hj
    simpa [openFees, hj] using hfees j
  · intro j hj
    simp [realizedOn, Dict.getD_set_ne _ hj]

theorem settle_of_qty_zero {st : AccountState} {v : VenueId} {o : OutcomeId} {value : ℚ}
    (h : st.qty o = 0) : st.settle v o value = st := by
  simp only [settle, if_pos h]

/-- A fill, either way, is a movement. -/
theorem movement_bookFill (st : AccountState) (v : VenueId) (o : OutcomeId) (isBuy : Bool)
    (qty px fee : ℚ) :
    ∃ dCash dRealized qty' avg' fees',
      Movement v o st (st.bookFill v o isBuy qty px fee) dCash dRealized qty' avg' fees' := by
  cases isBuy with
  | true => exact ⟨_, _, _, _, _, movement_buy st v o qty px fee⟩
  | false => exact ⟨_, _, _, _, _, movement_sell st v o qty px fee⟩

/-- What a settlement pays into the cash of an account. -/
theorem cash_settle (st : AccountState) (v : VenueId) (o : OutcomeId) (value : ℚ) :
    (st.settle v o value).cash v = st.cash v + value * st.qty o := by
  by_cases hq : st.qty o = 0
  · rw [settle_of_qty_zero hq, hq, mul_zero, add_zero]
  · exact (movement_settle st v o value hq).cash

/-- A settlement closes its own outcome and no other. -/
theorem qty_settle (st : AccountState) (v : VenueId) (o j : OutcomeId) (value : ℚ) :
    (st.settle v o value).qty j = if j = o then 0 else st.qty j := by
  by_cases hq : st.qty o = 0
  · rw [settle_of_qty_zero hq]
    split
    · rename_i h
      rw [h, hq]
    · rfl
  · have m := movement_settle st v o value hq
    split
    · rename_i h
      rw [h, m.qty]
    · rename_i h
      exact m.qty_off j h

theorem movement_closeOut (st : AccountState) (v : VenueId) (o : OutcomeId) :
    Movement v o st (st.closeOut o) 0 0 0 0 0 := by
  constructor
  · simp [closeOut, cash]
  · intro w _
    rfl
  · simp [closeOut, AccountState.qty]
  · simp [closeOut, avg]
  · simp [closeOut, openFees]
  · simp [closeOut]
  · simp [closeOut, realizedOn]
  · intro j hj
    simp [closeOut, AccountState.qty, Dict.getD_set_ne _ hj]
  · intro j hj
    simp [closeOut, avg, Dict.getD_set_ne _ hj]
  · intro j hj
    simp [closeOut, openFees, Dict.getD_set_ne _ hj]
  · intro j _
    rfl

/-! ## Totals over the outcomes -/

/-- Sum over outcomes of `qty * avg_price`. -/
def costBasis (st : AccountState) : ℚ := st.positions.sumBy fun o q => q * st.avg o

/-- Sum of the carried fees. -/
def carriedFees (st : AccountState) : ℚ := st.openFeesByOutcome.sumBy fun _ f => f

/-- Sum of `realized_by_outcome`. -/
def realizedSum (st : AccountState) : ℚ := st.realizedByOutcome.sumBy fun _ r => r

/-- What the positions are worth at a price for each outcome. -/
def holdings (price : OutcomeId → ℚ) (st : AccountState) : ℚ :=
  st.positions.sumBy fun o q => price o * q

theorem contrib_holdings (price : OutcomeId → ℚ) (st : AccountState) (o : OutcomeId) :
    st.positions.contrib (fun o q => price o * q) o = price o * st.qty o :=
  Dict.contrib_eq_getD (mul_zero _)

theorem contrib_costBasis (st : AccountState) (o : OutcomeId) :
    st.positions.contrib (fun o q => q * st.avg o) o = st.qty o * st.avg o :=
  Dict.contrib_eq_getD (zero_mul _)

theorem contrib_carriedFees (st : AccountState) (o : OutcomeId) :
    st.openFeesByOutcome.contrib (fun _ f => f) o = st.openFees o :=
  Dict.contrib_eq_getD rfl

theorem contrib_realizedSum (st : AccountState) (o : OutcomeId) :
    st.realizedByOutcome.contrib (fun _ r => r) o = st.realizedOn o :=
  Dict.contrib_eq_getD rfl

/-- Settling an outcome at the price it is worth moves its worth into cash. -/
theorem cash_add_holdings_settle (price : OutcomeId → ℚ) (st : AccountState) (v : VenueId)
    (o : OutcomeId) :
    (st.settle v o (price o)).cash v + (st.settle v o (price o)).holdings price =
      st.cash v + st.holdings price := by
  have h := Dict.sumBy_sub_sumBy (d := (st.settle v o (price o)).positions) (e := st.positions)
    (f := fun o q => price o * q) (g := fun o q => price o * q) o (fun j hj => by
      rw [contrib_holdings, contrib_holdings, qty_settle, if_neg hj])
  rw [contrib_holdings, contrib_holdings, qty_settle, if_pos rfl] at h
  rw [cash_settle]
  simp only [holdings]
  linarith

section Totals

variable {v : VenueId} {o : OutcomeId} {st st' : AccountState}
  {dCash dRealized qty' avg' fees' : ℚ}

theorem Movement.costBasis (m : Movement v o st st' dCash dRealized qty' avg' fees') :
    st'.costBasis = st.costBasis + (qty' * avg' - st.qty o * st.avg o) := by
  have h := Dict.sumBy_sub_sumBy (d := st'.positions) (e := st.positions)
    (f := fun o q => q * st'.avg o) (g := fun o q => q * st.avg o) o (fun j hj => by
      rw [contrib_costBasis, contrib_costBasis, m.qty_off j hj, m.avg_off j hj])
  rw [contrib_costBasis, contrib_costBasis, m.qty, m.avg] at h
  simp only [AccountState.costBasis]
  linarith

theorem Movement.holdings (price : OutcomeId → ℚ)
    (m : Movement v o st st' dCash dRealized qty' avg' fees') :
    st'.holdings price = st.holdings price + price o * (qty' - st.qty o) := by
  have h := Dict.sumBy_sub_sumBy (d := st'.positions) (e := st.positions)
    (f := fun o q => price o * q) (g := fun o q => price o * q) o (fun j hj => by
      rw [contrib_holdings, contrib_holdings, m.qty_off j hj])
  rw [contrib_holdings, contrib_holdings, m.qty] at h
  simp only [AccountState.holdings]
  linarith

theorem Movement.carriedFees (m : Movement v o st st' dCash dRealized qty' avg' fees') :
    st'.carriedFees = st.carriedFees + (fees' - st.openFees o) := by
  have h := Dict.sumBy_sub_sumBy (d := st'.openFeesByOutcome) (e := st.openFeesByOutcome)
    (f := fun _ f => f) (g := fun _ f => f) o (fun j hj => by
      rw [contrib_carriedFees, contrib_carriedFees, m.openFees_off j hj])
  rw [contrib_carriedFees, contrib_carriedFees, m.openFees] at h
  simp only [AccountState.carriedFees]
  linarith

theorem Movement.realizedSum (m : Movement v o st st' dCash dRealized qty' avg' fees') :
    st'.realizedSum = st.realizedSum + dRealized := by
  have h := Dict.sumBy_sub_sumBy (d := st'.realizedByOutcome) (e := st.realizedByOutcome)
    (f := fun _ r => r) (g := fun _ r => r) o (fun j hj => by
      rw [contrib_realizedSum, contrib_realizedSum, m.realizedOn_off j hj])
  rw [contrib_realizedSum, contrib_realizedSum, m.realizedOn] at h
  simp only [AccountState.realizedSum]
  linarith

end Totals

end AccountState

end Arbys
