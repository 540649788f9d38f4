import Arbys.DecimalContext
import Arbys.PaperBroker

/-!
# The account arithmetic of the paper broker, as Python's decimals do it

`AccountState` computes on exact rationals. The code computes on
`decimal.Decimal`: each operation is exact and its result is then rounded by
the context, in the default one to 28 digits. Here the mutations of an account
are written out once more, operation by operation, over the context they run
in. In `Context.exact` they are those of `AccountState` (`settleIn_exact`,
`bookFillIn_exact`); in `Context.default` they are the code's.
-/

namespace Arbys

namespace AccountState

variable (ctx : Context)

/-- `_acquire`. -/
def acquireIn (st : AccountState) (o : OutcomeId) (qty price : ℚ) : AccountState :=
  let curQty := st.qty o
  let curAvg := st.avg o
  let newQty := ctx (curQty + qty)
  { st with
    avgPrice := st.avgPrice.set o
      (if 0 < newQty then ctx (ctx (ctx (curQty * curAvg) + ctx (qty * price)) / newQty) else 0)
    positions := st.positions.set o newQty }

/-- The part of the carried fees that leaves with `released` out of `held`. -/
def feeShareIn (carried released held : ℚ) : ℚ :=
  if carried = 0 ∨ held ≤ 0 then 0
  else if held ≤ released then carried else ctx (carried * ctx (released / held))

/-- `_consume_fees`: the share, and the state with it removed. -/
def consumeFeesIn (st : AccountState) (o : OutcomeId) (released held : ℚ) :
    ℚ × AccountState :=
  let carried := st.openFees o
  if carried = 0 ∨ held ≤ 0 then (0, st)
  else
    let share := if held ≤ released then carried else ctx (carried * ctx (released / held))
    (share, { st with openFeesByOutcome := st.openFeesByOutcome.set o (ctx (carried - share)) })

/-- Book `realized` against an outcome and in total. -/
def realizeIn (st : AccountState) (o : OutcomeId) (realized : ℚ) : AccountState :=
  { st with
    realizedPnl := ctx (st.realizedPnl + realized)
    realizedByOutcome := st.realizedByOutcome.set o (ctx (st.realizedOn o + realized)) }

/-- What `_release` books. -/
def releasedGain (st : AccountState) (o : OutcomeId) (qty price : ℚ) : ℚ :=
  ctx (ctx (ctx (price - st.avg o) * min qty (st.qty o)) -
    feeShareIn ctx (st.openFees o) qty (st.qty o))

/-- `_release`. -/
def releaseIn (st : AccountState) (o : OutcomeId) (qty price : ℚ) : AccountState :=
  let curQty := st.qty o
  let curAvg := st.avg o
  let realized := ctx (ctx (price - curAvg) * min qty curQty)
  let (share, st) := st.consumeFeesIn ctx o qty curQty
  let st := st.realizeIn ctx o (ctx (realized - share))
  { st with positions := st.positions.set o (ctx (curQty - qty)) }

/-- What `apply_fill` does to the account once the order is accepted. -/
def bookFillIn (st : AccountState) (v : VenueId) (o : OutcomeId) (isBuy : Bool)
    (qty px fee : ℚ) : AccountState :=
  let cash := st.cash v
  let st := { st with
    openFeesByOutcome := st.openFeesByOutcome.set o (ctx (st.openFees o + fee)) }
  if isBuy then
    { st with
      balances := st.balances.set v (ctx (cash - ctx (ctx (px * qty) + fee))) }.acquireIn ctx o
        qty px
  else
    { st with
      balances := st.balances.set v (ctx (cash + ctx (ctx (px * qty) - fee))) }.releaseIn ctx o
        qty px

/-- What a settlement at `value` books, net of the fees carried. -/
def settledGain (st : AccountState) (o : OutcomeId) (value : ℚ) : ℚ :=
  ctx (ctx (ctx (value - st.avg o) * st.qty o) -
    feeShareIn ctx (st.openFees o) (st.qty o) (st.qty o))

/-- What a settlement does to one account: nothing unless it holds the
outcome. -/
def settleIn (st : AccountState) (v : VenueId) (o : OutcomeId) (resolvedValue : ℚ) :
    AccountState :=
  let qty := st.qty o
  if qty = 0 then st
  else
    let avg := st.avg o
    let realized := ctx (ctx (resolvedValue - avg) * qty)
    let (share, st) := st.consumeFeesIn ctx o qty qty
    let st := st.realizeIn ctx o (ctx (realized - share))
    { st with
      balances := st.balances.set v (ctx (st.cash v + ctx (resolvedValue * qty)))
      positions := st.positions.set o 0
      avgPrice := st.avgPrice.set o 0 }

/-! ## Without rounding -/

theorem consumeFeesIn_exact (st : AccountState) (o : OutcomeId) (released held : ℚ) :
    st.consumeFeesIn .exact o released held = st.consumeFees o released held := rfl

/-- **The exact context is the broker's model.** -/
theorem settleIn_exact (st : AccountState) (v : VenueId) (o : OutcomeId) (value : ℚ) :
    st.settleIn .exact v o value = st.settle v o value := rfl

theorem bookFillIn_exact (st : AccountState) (v : VenueId) (o : OutcomeId) (isBuy : Bool)
    (qty px fee : ℚ) :
    st.bookFillIn .exact v o isBuy qty px fee = st.bookFill v o isBuy qty px fee := by
  cases isBuy with
  | true => rfl
  | false => rfl

/-! ## What the fees leave alone -/

theorem consumeFeesIn_fst (st : AccountState) (o : OutcomeId) (released held : ℚ) :
    (st.consumeFeesIn ctx o released held).1 = feeShareIn ctx (st.openFees o) released held := by
  simp only [consumeFeesIn, feeShareIn]
  split
  · rfl
  · rfl

/-- Consuming fees touches the carried fees of the outcome only. -/
theorem consumeFeesIn_snd (st : AccountState) (o : OutcomeId) (released held : ℚ) :
    ∃ fees, (st.consumeFeesIn ctx o released held).2 = { st with openFeesByOutcome := fees } ∧
      ∀ j, j ≠ o → fees.get? j = st.openFeesByOutcome.get? j := by
  simp only [consumeFeesIn]
  split
  · exact ⟨_, rfl, fun _ _ => rfl⟩
  · exact ⟨_, rfl, fun _ hj => Dict.get?_set_ne _ hj _⟩

theorem settleIn_of_qty_zero {st : AccountState} {v : VenueId} {o : OutcomeId} {value : ℚ}
    (h : st.qty o = 0) : st.settleIn ctx v o value = st :=
  if_pos h

/-- The carried fees of the account once the outcome has closed. -/
def feesAfterSettle (st : AccountState) (o : OutcomeId) : Dict OutcomeId ℚ :=
  (st.consumeFeesIn ctx o (st.qty o) (st.qty o)).2.openFeesByOutcome

/-- **What a settlement writes**: everything it does to an account that holds
the outcome. -/
theorem settleIn_of_held {st : AccountState} (v : VenueId) {o : OutcomeId} (value : ℚ)
    (h : st.qty o ≠ 0) :
    st.settleIn ctx v o value =
      { balances := st.balances.set v (ctx (st.cash v + ctx (value * st.qty o)))
        positions := st.positions.set o 0
        avgPrice := st.avgPrice.set o 0
        realizedPnl := ctx (st.realizedPnl + st.settledGain ctx o value)
        realizedByOutcome := st.realizedByOutcome.set o
          (ctx (st.realizedOn o + st.settledGain ctx o value))
        openFeesByOutcome := st.feesAfterSettle ctx o } := by
  obtain ⟨fees, hst, -⟩ := consumeFeesIn_snd ctx st o (st.qty o) (st.qty o)
  simp only [settleIn, if_neg h, consumeFeesIn_fst, hst, realizeIn, feesAfterSettle, settledGain,
    cash, realizedOn]

end AccountState

end Arbys
