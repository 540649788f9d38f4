import Arbys.DecimalBroker

/-!
# The algebra of settlement

`shared/paper_broker.py` settles an outcome twice over: `settle_outcome_async`,
which the services call, and the synchronous `settle_outcome`, kept for older
callers. The two loops are copies of one another. Both are written out here
statement by statement (`settleOutcomeLoop`, `settleOutcomeAsyncLoop`), in the
decimal context they run in, and shown to leave the broker in one state, that
of `AccountState.settleIn` on every account. What a settlement clears and what
it leaves alone is then said once of an account, and the laws of the broker
follow: settling again changes nothing, nothing off the outcome moves, and
settlements of distinct outcomes commute, on each outcome always and on the two
running sums (`SameSums`) wherever neither amount is rounded when added alone.
-/

namespace Arbys

/-! ## The two loops -/

namespace AccountState

variable (ctx : Context)

/-- The body of the loop of `settle_outcome`. -/
def settleOutcomeTurn (st : AccountState) (venueId : VenueId) (outcomeId : OutcomeId)
    (resolvedValue : ℚ) : AccountState :=
  let qty := st.positions.getD outcomeId 0
  if qty = 0 then st
  else
    let avg := st.avgPrice.getD outcomeId 0
    let realized := ctx (ctx (resolvedValue - avg) * qty)
    let (consumed, st) := st.consumeFeesIn ctx outcomeId qty qty
    let realized := ctx (realized - consumed)
    let st := { st with realizedPnl := ctx (st.realizedPnl + realized) }
    let st := { st with
      realizedByOutcome := st.realizedByOutcome.set outcomeId
        (ctx (st.realizedByOutcome.getD outcomeId 0 + realized)) }
    let st := { st with
      balances := st.balances.set venueId
        (ctx (st.balances.getD venueId 0 + ctx (resolvedValue * qty))) }
    let st := { st with positions := st.positions.set outcomeId 0 }
    { st with avgPrice := st.avgPrice.set outcomeId 0 }

/-- The body of the loop of `settle_outcome_async`: the account, and the line
appended to `closed` if it held the outcome. -/
def settleOutcomeAsyncTurn (accountId : AccountId) (st : AccountState) (venueId : VenueId)
    (outcomeId : OutcomeId) (resolvedValue : ℚ) :
    AccountState × List (AccountId × ℚ × ℚ × ℚ) :=
  let qty := st.positions.getD outcomeId 0
  if qty = 0 then (st, [])
  else
    let avg := st.avgPrice.getD outcomeId 0
    let realized := ctx (ctx (resolvedValue - avg) * qty)
    let (consumed, st) := st.consumeFeesIn ctx outcomeId qty qty
    let realized := ctx (realized - consumed)
    let st := { st with realizedPnl := ctx (st.realizedPnl + realized) }
    let st := { st with
      realizedByOutcome := st.realizedByOutcome.set outcomeId
        (ctx (st.realizedByOutcome.getD outcomeId 0 + realized)) }
    let st := { st with
      balances := st.balances.set venueId
        (ctx (st.balances.getD venueId 0 + ctx (resolvedValue * qty))) }
    let st := { st with positions := st.positions.set outcomeId 0 }
    let st := { st with avgPrice := st.avgPrice.set outcomeId 0 }
    (st, [(accountId, st.balances.getD venueId 0, st.realizedByOutcome.getD outcomeId 0,
      st.openFeesByOutcome.getD outcomeId 0)])

end AccountState

namespace PaperExecutionAdapter

variable (ctx : Context)

/-- `settle_outcome`: the loop over the accounts, each changed in place. -/
def settleOutcomeLoop (a : PaperExecutionAdapter) (outcomeId : OutcomeId)
    (resolvedValue : ℚ) : PaperExecutionAdapter :=
  { a with accounts := a.accounts.entries.foldl (fun accounts e =>
      accounts.set e.1 (e.2.settleOutcomeTurn ctx a.venueId outcomeId resolvedValue)) a.accounts }

/-- `settle_outcome_async` up to its first `await`: the loop over the accounts,
and the list `closed` it hands to the sink. Past this point it touches nothing
in memory. -/
def settleOutcomeAsyncLoop (a : PaperExecutionAdapter) (outcomeId : OutcomeId)
    (resolvedValue : ℚ) : PaperExecutionAdapter × List (AccountId × ℚ × ℚ × ℚ) :=
  let done := a.accounts.entries.foldl (fun (acc : Dict AccountId AccountState ×
      List (AccountId × ℚ × ℚ × ℚ)) e =>
    let turn := AccountState.settleOutcomeAsyncTurn ctx e.1 e.2 a.venueId outcomeId resolvedValue
    (acc.1.set e.1 turn.1, acc.2 ++ turn.2)) (a.accounts, [])
  ({ a with accounts := done.1 }, done.2)

/-- Both at once: every account settled. -/
def settleAllIn (a : PaperExecutionAdapter) (o : OutcomeId) (value : ℚ) :
    PaperExecutionAdapter :=
  { a with accounts := a.accounts.mapVal fun _ st => st.settleIn ctx a.venueId o value }

/-- The accounts a settlement closes: cash after, realized on the outcome and
fees left on it. -/
def closedByIn (a : PaperExecutionAdapter) (o : OutcomeId) (value : ℚ) :
    List (AccountId × ℚ × ℚ × ℚ) :=
  (a.accounts.entries.filter fun e => e.2.qty o ≠ 0).map fun e =>
    let st := e.2.settleIn ctx a.venueId o value
    (e.1, st.cash a.venueId, st.realizedOn o, st.openFees o)

/-- Without rounding this is the settlement of the broker's exact model. -/
theorem settleAllIn_exact (a : PaperExecutionAdapter) (o : OutcomeId) (value : ℚ) :
    a.settleAllIn .exact o value = a.settleOutcome o value ∧
      a.closedByIn .exact o value = a.closedBy o value :=
  ⟨rfl, rfl⟩

end PaperExecutionAdapter

/-! ## One account -/

namespace AccountState

variable (ctx : Context)

/-- The synchronous copy is the settlement of the account. -/
theorem settleOutcomeTurn_eq_settleIn (st : AccountState) (v : VenueId) (o : OutcomeId)
    (value : ℚ) : st.settleOutcomeTurn ctx v o value = st.settleIn ctx v o value := by
  by_cases h : st.qty o = 0
  · rw [settleIn_of_qty_zero ctx h]
    exact if_pos h
  · obtain ⟨fees, hst, -⟩ := consumeFeesIn_snd ctx st o (st.qty o) (st.qty o)
    rw [settleIn_of_held ctx v value h]
    simp only [AccountState.qty] at h hst
    simp only [settleOutcomeTurn, if_neg h, hst, feesAfterSettle, settledGain,
      AccountState.qty, avg, cash, realizedOn, ← consumeFeesIn_fst]

/-- So is the other one, and its line of `closed` reads the account after it. -/
theorem settleOutcomeAsyncTurn_eq (acct : AccountId) (st : AccountState) (v : VenueId)
    (o : OutcomeId) (value : ℚ) :
    settleOutcomeAsyncTurn ctx acct st v o value =
      (st.settleIn ctx v o value, if st.qty o = 0 then [] else
        [(acct, (st.settleIn ctx v o value).cash v, (st.settleIn ctx v o value).realizedOn o,
          (st.settleIn ctx v o value).openFees o)]) := by
  rw [← settleOutcomeTurn_eq_settleIn]
  by_cases h : st.qty o = 0
  · rw [if_pos h]
    simp only [AccountState.qty] at h
    simp only [settleOutcomeAsyncTurn, settleOutcomeTurn, if_pos h]
  · rw [if_neg h]
    simp only [AccountState.qty] at h
    simp only [settleOutcomeAsyncTurn, settleOutcomeTurn, if_neg h, cash, realizedOn, openFees]

/-! ## What stays, and what a second settlement finds -/

/-- `st'` is `st` off the cash of one venue and the fields of one outcome: the
same key holds the same value, or is absent from both. -/
structure Elsewhere (v : VenueId) (o : OutcomeId) (st st' : AccountState) : Prop where
  balances : ∀ w, w ≠ v → st'.balances.get? w = st.balances.get? w
  positions : ∀ j, j ≠ o → st'.positions.get? j = st.positions.get? j
  avgPrice : ∀ j, j ≠ o → st'.avgPrice.get? j = st.avgPrice.get? j
  realizedByOutcome : ∀ j, j ≠ o →
    st'.realizedByOutcome.get? j = st.realizedByOutcome.get? j
  openFeesByOutcome : ∀ j, j ≠ o →
    st'.openFeesByOutcome.get? j = st.openFeesByOutcome.get? j

theorem Elsewhere.refl (v : VenueId) (o : OutcomeId) (st : AccountState) :
    Elsewhere v o st st :=
  ⟨fun _ _ => rfl, fun _ _ => rfl, fun _ _ => rfl, fun _ _ => rfl, fun _ _ => rfl⟩

/-- The carried fees afterwards: the outcome's own entry is written exactly
when there was something to consume. -/
theorem get?_feesAfterSettle (st : AccountState) (o j : OutcomeId) :
    (st.feesAfterSettle ctx o).get? j =
      if j = o ∧ ¬ (st.openFees o = 0 ∨ st.qty o ≤ 0) then
        some (ctx (st.openFees o - feeShareIn ctx (st.openFees o) (st.qty o) (st.qty o)))
      else st.openFeesByOutcome.get? j := by
  simp only [feesAfterSettle, consumeFeesIn, feeShareIn]
  by_cases h : st.openFees o = 0 ∨ st.qty o ≤ 0
  · simp only [h, if_true, not_true_eq_false, and_false, if_false]
  · simp only [h, if_false, not_false_eq_true, and_true, Dict.get?_set]

/-- **A settlement touches its own outcome and venue only.** -/
theorem elsewhere_settleIn (st : AccountState) (v : VenueId) (o : OutcomeId) (value : ℚ) :
    Elsewhere v o st (st.settleIn ctx v o value) := by
  by_cases h : st.qty o = 0
  · rw [settleIn_of_qty_zero ctx h]
    exact Elsewhere.refl v o st
  · rw [settleIn_of_held ctx v value h]
    constructor
    · intro w hw
      exact Dict.get?_set_ne _ hw _
    · intro j hj
      exact Dict.get?_set_ne _ hj _
    · intro j hj
      exact Dict.get?_set_ne _ hj _
    · intro j hj
      exact Dict.get?_set_ne _ hj _
    · intro j hj
      show (st.feesAfterSettle ctx o).get? j = _
      rw [get?_feesAfterSettle, if_neg fun hc => hj hc.1]

theorem qty_settleIn_self (st : AccountState) (v : VenueId) (o : OutcomeId) (value : ℚ) :
    (st.settleIn ctx v o value).qty o = 0 := by
  by_cases h : st.qty o = 0
  · rw [settleIn_of_qty_zero ctx h, h]
  · rw [settleIn_of_held ctx v value h]
    exact Dict.getD_set_self ..

/-- **Settling again changes nothing**, whatever value the second call brings:
the first one left no position. -/
theorem settleIn_settleIn (st : AccountState) (v : VenueId) (o : OutcomeId) (x y : ℚ) :
    (st.settleIn ctx v o x).settleIn ctx v o y = st.settleIn ctx v o x :=
  settleIn_of_qty_zero ctx (qty_settleIn_self ctx st v o x)

/-- The running sums a settlement of a held outcome moves. -/
theorem cash_settleIn (st : AccountState) (v : VenueId) {o : OutcomeId} (value : ℚ)
    (h : st.qty o ≠ 0) :
    (st.settleIn ctx v o value).cash v = ctx (st.cash v + ctx (value * st.qty o)) := by
  rw [settleIn_of_held ctx v value h]
  exact Dict.getD_set_self ..

theorem realizedPnl_settleIn (st : AccountState) (v : VenueId) {o : OutcomeId} (value : ℚ)
    (h : st.qty o ≠ 0) :
    (st.settleIn ctx v o value).realizedPnl =
      ctx (st.realizedPnl + st.settledGain ctx o value) := by
  rw [settleIn_of_held ctx v value h]

section Commute

variable {v : VenueId} {o p : OutcomeId} {st st' : AccountState}

/-- What an outcome's settlement reads is untouched by a change elsewhere. -/
theorem Elsewhere.reads (h : Elsewhere v p st st') (hne : o ≠ p) :
    st'.qty o = st.qty o ∧ st'.avg o = st.avg o ∧ st'.openFees o = st.openFees o ∧
      st'.realizedOn o = st.realizedOn o := by
  simp only [AccountState.qty, avg, openFees, realizedOn, Dict.getD, h.positions o hne,
    h.avgPrice o hne, h.openFeesByOutcome o hne, h.realizedByOutcome o hne, and_self]

theorem Elsewhere.settledGain_eq (h : Elsewhere v p st st') (hne : o ≠ p) (value : ℚ) :
    st'.settledGain ctx o value = st.settledGain ctx o value := by
  obtain ⟨hqty, havg, hfees, -⟩ := h.reads hne
  rw [settledGain, settledGain, hqty, havg, hfees]

/-- Two account records with the same content off the two running sums: the
cash of a venue and the total realized P&L. Dictionaries are equal in the
language's sense, which does not ask for the order of the keys. -/
structure SameOutcomes (v : VenueId) (st st' : AccountState) : Prop where
  balances : ∀ w, w ≠ v → st'.balances.get? w = st.balances.get? w
  funded : (st'.balances.get? v).isSome = (st.balances.get? v).isSome
  positions : ∀ j, st'.positions.get? j = st.positions.get? j
  avgPrice : ∀ j, st'.avgPrice.get? j = st.avgPrice.get? j
  realizedByOutcome : ∀ j, st'.realizedByOutcome.get? j = st.realizedByOutcome.get? j
  openFeesByOutcome : ∀ j, st'.openFeesByOutcome.get? j = st.openFeesByOutcome.get? j

theorem SameOutcomes.refl (v : VenueId) (st : AccountState) : SameOutcomes v st st :=
  ⟨fun _ _ => rfl, rfl, fun _ => rfl, fun _ => rfl, fun _ => rfl, fun _ => rfl⟩

/-- With the same cash on the venue and the same total. -/
structure SameSums (v : VenueId) (st st' : AccountState) : Prop where
  cash : st'.balances.get? v = st.balances.get? v
  realizedPnl : st'.realizedPnl = st.realizedPnl

/-- Two settlements of one account whose amounts are each added exactly: an
account that does not hold both outcomes has nothing to add twice. -/
structure AddsExactly (v : VenueId) (o : OutcomeId) (x : ℚ) (p : OutcomeId) (y : ℚ)
    (st : AccountState) : Prop where
  cash : st.qty o ≠ 0 → st.qty p ≠ 0 →
    ctx.Adds (st.cash v) (ctx (x * st.qty o)) (ctx (y * st.qty p))
  realizedPnl : st.qty o ≠ 0 → st.qty p ≠ 0 →
    ctx.Adds st.realizedPnl (st.settledGain ctx o x) (st.settledGain ctx p y)

/-- Two writes to distinct keys may be read in either order. -/
theorem get?_set_set {d : Dict OutcomeId ℚ} (hne : o ≠ p) (x y : ℚ) (j : OutcomeId) :
    ((d.set p y).set o x).get? j = ((d.set o x).set p y).get? j := by
  simp only [Dict.get?_set]
  by_cases hjo : j = o
  · rw [if_pos hjo, if_neg (hjo ▸ hne), if_pos hjo]
  · rw [if_neg hjo, if_neg hjo]

/-- The carried fees after two settlements, in either order. -/
theorem get?_feesAfterSettle_settleIn (st : AccountState) (v : VenueId) (hne : o ≠ p)
    (y : ℚ) (j : OutcomeId) :
    ((st.settleIn ctx v p y).feesAfterSettle ctx o).get? j =
      if j = o then (st.feesAfterSettle ctx o).get? j
      else (st.settleIn ctx v p y).openFeesByOutcome.get? j := by
  have helse := elsewhere_settleIn ctx st v p y
  obtain ⟨hqty, -, hfees, -⟩ := helse.reads hne
  rw [get?_feesAfterSettle, get?_feesAfterSettle, hqty, hfees]
  by_cases hj : j = o
  · subst hj
    simp only [true_and, if_true, helse.openFeesByOutcome j hne]
  · simp only [hj, false_and, if_false]

/-- **Settlements of distinct outcomes commute** on every outcome of an
account: where it holds both, each outcome's entries are its own. -/
theorem settleIn_comm (st : AccountState) (v : VenueId) (hne : o ≠ p) (x y : ℚ) :
    SameOutcomes v ((st.settleIn ctx v o x).settleIn ctx v p y)
      ((st.settleIn ctx v p y).settleIn ctx v o x) := by
  have ho := (elsewhere_settleIn ctx st v p y).reads hne
  have hp := (elsewhere_settleIn ctx st v o x).reads hne.symm
  -- an outcome not held is not settled, in either order
  by_cases hqo : st.qty o = 0
  · rw [settleIn_of_qty_zero ctx (ho.1.trans hqo), settleIn_of_qty_zero ctx hqo]
    exact SameOutcomes.refl v _
  by_cases hqp : st.qty p = 0
  · rw [settleIn_of_qty_zero ctx (hp.1.trans hqp), settleIn_of_qty_zero ctx hqp]
    exact SameOutcomes.refl v _
  have hgo := (elsewhere_settleIn ctx st v p y).settledGain_eq ctx hne x
  have hgp := (elsewhere_settleIn ctx st v o x).settledGain_eq ctx hne.symm y
  have hfo := get?_feesAfterSettle_settleIn ctx st v hne y
  have hfp := get?_feesAfterSettle_settleIn ctx st v hne.symm x
  have hheldp : (st.settleIn ctx v o x).qty p ≠ 0 := by rwa [hp.1]
  have hheldo : (st.settleIn ctx v p y).qty o ≠ 0 := by rwa [ho.1]
  rw [settleIn_of_held ctx v y hheldp, settleIn_of_held ctx v x hheldo, hgo, hgp, ho.2.2.2,
    hp.2.2.2]
  constructor
  · intro w hw
    simp only [settleIn_of_held ctx v x hqo, settleIn_of_held ctx v y hqp,
      Dict.get?_set_ne _ hw]
  · simp only [Dict.get?_set_self, Option.isSome_some]
  · intro j
    simp only [settleIn_of_held ctx v x hqo, settleIn_of_held ctx v y hqp]
    exact get?_set_set hne 0 0 j
  · intro j
    simp only [settleIn_of_held ctx v x hqo, settleIn_of_held ctx v y hqp]
    exact get?_set_set hne 0 0 j
  · intro j
    simp only [settleIn_of_held ctx v x hqo, settleIn_of_held ctx v y hqp]
    exact get?_set_set hne _ _ j
  · intro j
    simp only [hfo, hfp]
    simp only [settleIn_of_held ctx v x hqo, settleIn_of_held ctx v y hqp, get?_feesAfterSettle]
    by_cases hjo : j = o
    · subst hjo
      simp [hne]
    · by_cases hjp : j = p
      · subst hjp
        simp [hjo]
      · simp [hjo, hjp]

/-- **And on the running sums**, where neither amount is rounded on its own. -/
theorem settleIn_comm_sums (st : AccountState) (v : VenueId) (hne : o ≠ p) (x y : ℚ)
    (hadds : AddsExactly ctx v o x p y st) :
    SameSums v ((st.settleIn ctx v o x).settleIn ctx v p y)
      ((st.settleIn ctx v p y).settleIn ctx v o x) := by
  have ho := (elsewhere_settleIn ctx st v p y).reads hne
  have hp := (elsewhere_settleIn ctx st v o x).reads hne.symm
  by_cases hqo : st.qty o = 0
  · rw [settleIn_of_qty_zero ctx (ho.1.trans hqo), settleIn_of_qty_zero ctx hqo]
    exact ⟨rfl, rfl⟩
  by_cases hqp : st.qty p = 0
  · rw [settleIn_of_qty_zero ctx (hp.1.trans hqp), settleIn_of_qty_zero ctx hqp]
    exact ⟨rfl, rfl⟩
  have hgo := (elsewhere_settleIn ctx st v p y).settledGain_eq ctx hne x
  have hgp := (elsewhere_settleIn ctx st v o x).settledGain_eq ctx hne.symm y
  have hheldp : (st.settleIn ctx v o x).qty p ≠ 0 := by rwa [hp.1]
  have hheldo : (st.settleIn ctx v p y).qty o ≠ 0 := by rwa [ho.1]
  constructor
  · -- both orders write the cash of the venue
    simp only [settleIn_of_held ctx v y hheldp, settleIn_of_held ctx v x hheldo,
      Dict.get?_set_self, ho.1, hp.1, cash_settleIn ctx st v x hqo, cash_settleIn ctx st v y hqp,
      (hadds.cash hqo hqp).comm]
  · rw [realizedPnl_settleIn ctx _ v y hheldp, realizedPnl_settleIn ctx _ v x hheldo,
      realizedPnl_settleIn ctx st v x hqo, realizedPnl_settleIn ctx st v y hqp, hgo, hgp]
    exact ((hadds.realizedPnl hqo hqp).comm).symm

end Commute

end AccountState

/-! ## The broker -/

namespace PaperExecutionAdapter

variable (ctx : Context)

/-- The synchronous loop settles every account. -/
theorem settleOutcomeLoop_eq (a : PaperExecutionAdapter) (o : OutcomeId) (value : ℚ) :
    a.settleOutcomeLoop ctx o value = a.settleAllIn ctx o value := by
  have hset := Dict.foldl_set_entries (fun _ st => st.settleIn ctx a.venueId o value) a.accounts
  simp only [settleOutcomeLoop, AccountState.settleOutcomeTurn_eq_settleIn, settleAllIn]
  exact congrArg (fun accounts => { a with accounts := accounts }) hset

/-- The other loop does too, and `closed` lists the accounts that held the
outcome, in the order of the accounts. -/
theorem settleOutcomeAsyncLoop_eq (a : PaperExecutionAdapter) (o : OutcomeId) (value : ℚ) :
    a.settleOutcomeAsyncLoop ctx o value = (a.settleAllIn ctx o value, a.closedByIn ctx o value) := by
  have hrun : ∀ (todo : List (AccountId × AccountState)) (accounts : Dict AccountId AccountState)
      (closed : List (AccountId × ℚ × ℚ × ℚ)),
      todo.foldl (fun acc e =>
          (acc.1.set e.1 (e.2.settleIn ctx a.venueId o value),
            acc.2 ++ if e.2.qty o = 0 then [] else
              [(e.1, (e.2.settleIn ctx a.venueId o value).cash a.venueId,
                (e.2.settleIn ctx a.venueId o value).realizedOn o,
                (e.2.settleIn ctx a.venueId o value).openFees o)])) (accounts, closed) =
        (todo.foldl (fun acc e => acc.set e.1 (e.2.settleIn ctx a.venueId o value)) accounts,
          closed ++ (todo.filter fun e => e.2.qty o ≠ 0).map fun e =>
            (e.1, (e.2.settleIn ctx a.venueId o value).cash a.venueId,
              (e.2.settleIn ctx a.venueId o value).realizedOn o,
              (e.2.settleIn ctx a.venueId o value).openFees o)) := by
    intro todo
    induction todo with
    | nil => intro accounts closed; simp
    | cons e todo ih =>
        intro accounts closed
        rw [List.foldl_cons, ih]
        by_cases hq : e.2.qty o = 0
        · simp [hq]
        · simp [hq]
  have hset := Dict.foldl_set_entries (fun _ st => st.settleIn ctx a.venueId o value) a.accounts
  simp only [settleOutcomeAsyncLoop, AccountState.settleOutcomeAsyncTurn_eq, hrun,
    List.nil_append, settleAllIn, closedByIn]
  exact congrArg (fun accounts => ({ a with accounts := accounts }, _)) hset

/-- Without rounding, and with the database sink, the call then hands over one
`on_settled`: the settlement of the exact model. -/
theorem settleOutcomeAsync_eq_loop (a : PaperExecutionAdapter) (o : OutcomeId) (value : ℚ)
    (source : String) :
    a.settleOutcomeAsync o value source =
      ((a.settleOutcomeAsyncLoop .exact o value).1,
        [.onSettled o value a.venueId source (a.settleOutcomeAsyncLoop .exact o value).2]) := by
  rw [settleOutcomeAsyncLoop_eq]
  rfl

/-- Two brokers in the same in-memory state, account by account, as far as a
relation between accounts goes. -/
structure SameState (R : AccountState → AccountState → Prop) (a a' : PaperExecutionAdapter) :
    Prop where
  venueId : a'.venueId = a.venueId
  fees : a'.fees = a.fees
  slippageBps : a'.slippageBps = a.slippageBps
  log : a'.log = a.log
  keys : a'.accounts.keys = a.accounts.keys
  accounts : ∀ acct, Option.Rel R (a.accounts.get? acct) (a'.accounts.get? acct)

theorem settleAllIn_settleAllIn (a : PaperExecutionAdapter) (o p : OutcomeId) (x y : ℚ) :
    (a.settleAllIn ctx o x).settleAllIn ctx p y =
      { a with accounts := a.accounts.mapVal fun _ st =>
          (st.settleIn ctx a.venueId o x).settleIn ctx a.venueId p y } := by
  simp [settleAllIn, Dict.mapVal, List.map_map, Function.comp_def]

/-- Settling an outcome again leaves the broker as it is. -/
theorem settleAllIn_twice (a : PaperExecutionAdapter) (o : OutcomeId) (x y : ℚ) :
    (a.settleAllIn ctx o x).settleAllIn ctx o y = a.settleAllIn ctx o x := by
  rw [settleAllIn_settleAllIn]
  simp only [AccountState.settleIn_settleIn]
  rfl

/-- What is true of every account in two orders is true of the broker. -/
theorem settleAllIn_comm {R : AccountState → AccountState → Prop} (a : PaperExecutionAdapter)
    (o p : OutcomeId) (x y : ℚ)
    (h : ∀ acct st, a.accounts.get? acct = some st →
      R ((st.settleIn ctx a.venueId o x).settleIn ctx a.venueId p y)
        ((st.settleIn ctx a.venueId p y).settleIn ctx a.venueId o x)) :
    SameState R ((a.settleAllIn ctx o x).settleAllIn ctx p y)
      ((a.settleAllIn ctx p y).settleAllIn ctx o x) := by
  rw [settleAllIn_settleAllIn, settleAllIn_settleAllIn]
  refine ⟨rfl, rfl, rfl, rfl, by simp, fun acct => ?_⟩
  simp only [Dict.get?_mapVal]
  cases hacct : a.accounts.get? acct with
  | none => exact .none
  | some st => exact .some (h acct st hacct)

theorem elsewhere_settleAllIn (a : PaperExecutionAdapter) (o : OutcomeId) (x : ℚ) :
    SameState (AccountState.Elsewhere a.venueId o) a (a.settleAllIn ctx o x) := by
  refine ⟨rfl, rfl, rfl, rfl, Dict.keys_mapVal _ _, fun acct => ?_⟩
  simp only [settleAllIn, Dict.get?_mapVal]
  cases a.accounts.get? acct with
  | none => exact .none
  | some st => exact .some (AccountState.elsewhere_settleIn ctx st a.venueId o x)

theorem account_settleAllIn (a : PaperExecutionAdapter) (o : OutcomeId) (x : ℚ)
    (acct : AccountId) :
    (a.settleAllIn ctx o x).account acct = (a.account acct).settleIn ctx a.venueId o x :=
  getD_mapVal rfl a.accounts acct

/-- An account's running sums do not depend on the order of two settlements
that it adds exactly. -/
theorem sameSums_settleAllIn (a : PaperExecutionAdapter) {o p : OutcomeId} (hne : o ≠ p)
    (x y : ℚ) {acct : AccountId}
    (hadds : (a.account acct).AddsExactly ctx a.venueId o x p y) :
    AccountState.SameSums a.venueId
      (((a.settleAllIn ctx o x).settleAllIn ctx p y).account acct)
      (((a.settleAllIn ctx p y).settleAllIn ctx o x).account acct) := by
  rw [account_settleAllIn, account_settleAllIn, account_settleAllIn, account_settleAllIn]
  exact AccountState.settleIn_comm_sums ctx (a.account acct) a.venueId hne x y hadds

/-- **The algebra of settlement**, whatever the context rounds: the two loops
leave one state; a second settlement of the outcome, by either and at any
value, changes nothing; settlements of distinct outcomes commute on every
outcome, and on the cash and the total realized P&L of every account where
each amount alone is added exactly; and a settlement moves nothing but the
outcome, the account's total, and the cash of the broker's own venue. -/
theorem settlement_algebra (a : PaperExecutionAdapter) (o : OutcomeId) (x : ℚ) :
    (a.settleOutcomeAsyncLoop ctx o x).1 = a.settleOutcomeLoop ctx o x ∧
    (∀ y, (a.settleOutcomeLoop ctx o x).settleOutcomeLoop ctx o y = a.settleOutcomeLoop ctx o x ∧
      ((a.settleOutcomeAsyncLoop ctx o x).1.settleOutcomeAsyncLoop ctx o y).1 =
        (a.settleOutcomeAsyncLoop ctx o x).1) ∧
    (∀ p y, o ≠ p →
      let first := (a.settleOutcomeLoop ctx o x).settleOutcomeLoop ctx p y
      let last := (a.settleOutcomeLoop ctx p y).settleOutcomeLoop ctx o x
      let firstAsync := ((a.settleOutcomeAsyncLoop ctx o x).1.settleOutcomeAsyncLoop ctx p y).1
      let lastAsync := ((a.settleOutcomeAsyncLoop ctx p y).1.settleOutcomeAsyncLoop ctx o x).1
      SameState (AccountState.SameOutcomes a.venueId) first last ∧
      SameState (AccountState.SameOutcomes a.venueId) firstAsync lastAsync ∧
      ∀ acct, (a.account acct).AddsExactly ctx a.venueId o x p y →
        AccountState.SameSums a.venueId (first.account acct) (last.account acct) ∧
        AccountState.SameSums a.venueId (firstAsync.account acct) (lastAsync.account acct)) ∧
    SameState (AccountState.Elsewhere a.venueId o) a (a.settleOutcomeLoop ctx o x) ∧
    SameState (AccountState.Elsewhere a.venueId o) a (a.settleOutcomeAsyncLoop ctx o x).1 := by
  simp only [settleOutcomeAsyncLoop_eq, settleOutcomeLoop_eq]
  refine ⟨trivial, fun y => ?_, fun p y hne => ?_, ?_, ?_⟩
  · exact ⟨settleAllIn_twice ctx a o x y, settleAllIn_twice ctx a o x y⟩
  · have houtcomes := settleAllIn_comm ctx (R := AccountState.SameOutcomes a.venueId) a o p x y
      fun _ st _ => AccountState.settleIn_comm ctx st a.venueId hne x y
    refine ⟨houtcomes, houtcomes, fun acct hadds => ?_⟩
    have hsums := sameSums_settleAllIn ctx a hne x y hadds
    exact ⟨hsums, hsums⟩
  · exact elsewhere_settleAllIn ctx a o x
  · exact elsewhere_settleAllIn ctx a o x

/-- An account holding two outcomes, settled in either order. -/
theorem settlement_algebra_two :
    let a := (((new "kalshi" .kalshi 0).deposit "default" 100
      |>.hydratePosition "default" "A:YES" 10 (2 / 5) 0 (1 / 10))
      |>.hydratePosition "default" "B:NO" 5 (1 / 2) 0 0)
    let first := (a.settleOutcomeLoop .default "A:YES" 1).settleOutcomeLoop .default "B:NO" 0
    let last := (a.settleOutcomeLoop .default "B:NO" 0).settleOutcomeLoop .default "A:YES" 1
    SameState (AccountState.SameOutcomes "kalshi") first last ∧
      AccountState.SameSums "kalshi" (first.account "default") (last.account "default") := by
  intro a first last
  obtain ⟨houtcomes, -, hsums⟩ :=
    (settlement_algebra .default a "A:YES" 1).2.2.1 "B:NO" 0 (by decide)
  have hadds : (a.account "default").AddsExactly .default a.venueId "A:YES" 1 "B:NO" 0 :=
    ⟨fun _ _ => ⟨by decide +kernel, by decide +kernel⟩,
      fun _ _ => ⟨by decide +kernel, by decide +kernel⟩⟩
  exact ⟨houtcomes, (hsums "default" hadds).1⟩

/-! ## Where the sums round -/

/-- Five buys in whole cents, and one of the three markets settled. What `A`
cost on average, 47/150, is cut off at 28 digits. -/
def centBuys : PaperExecutionAdapter :=
  let buy (st : AccountState) (order : OutcomeId × ℚ × ℚ) :=
    st.bookFillIn .default "kalshi" order.1 true order.2.1 order.2.2
      (FeeModel.kalshi.fee order.2.2 order.2.1 true)
  let orders : List (OutcomeId × ℚ × ℚ) :=
    [("C", 1, 1 / 2), ("A", 10, 3 / 10), ("A", 20, 8 / 25), ("B", 3, 13 / 25), ("B", 7, 3 / 5)]
  let opened : AccountState := { balances := Dict.empty.set "kalshi" 4000 }
  (new "kalshi" .kalshi 0).setAccount "default"
    ((orders.foldl buy opened).settleIn .default "kalshi" "C" 0)

/-- **Settlements of distinct outcomes do not commute** there: the two orders
leave different totals, in the last of 28 digits. -/
theorem settlements_do_not_commute :
    let first := (centBuys.settleOutcomeLoop .default "A" 0).settleOutcomeLoop .default "B" 1
    let last := (centBuys.settleOutcomeLoop .default "B" 1).settleOutcomeLoop .default "A" 0
    first.realizedPnl "default" = -6299156 / 10 ^ 6 ∧
      last.realizedPnl "default" = -6299155999999999999999999999 / 10 ^ 27 ∧
      ¬ AccountState.SameSums "kalshi" (first.account "default") (last.account "default") := by
  intro first last
  have hfirst : first.realizedPnl "default" = -6299156 / 10 ^ 6 := by decide +kernel
  have hlast : last.realizedPnl "default" = -6299155999999999999999999999 / 10 ^ 27 := by
    decide +kernel
  refine ⟨hfirst, hlast, fun hsame => ?_⟩
  have heq : last.realizedPnl "default" = first.realizedPnl "default" := hsame.realizedPnl
  rw [hfirst, hlast] at heq
  norm_num at heq

end PaperExecutionAdapter

end Arbys
