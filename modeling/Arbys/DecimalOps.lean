import Arbys.Persistence
import Arbys.SettlementAlgebra

/-!
# The broker's operations, as Python's decimals do them

One awaited operation of the paper brokers with the sink attached, over the
context its arithmetic runs in: an order from the slipped price to the position
it leaves, a settlement, a sweep, and the hydration of a start. What the sink
is told of an order, what it writes of an event, and `close_already_settled`
compute nothing, and are those of the exact model. In `Context.exact` every
operation is that of `PaperSystem.step` (`stepIn_exact`).
-/

namespace Arbys

open AccountState RelativeError

/-! ## One broker -/

namespace PaperExecutionAdapter

variable (ctx : Context)

/-- `_apply_slippage`. -/
def applySlippageIn (a : PaperExecutionAdapter) (price : ℚ) (isBuy : Bool) : ℚ :=
  let adj := ctx (ctx (price * a.slippageBps) / 10000)
  let p := if isBuy then ctx (price + adj) else ctx (price - adj)
  if p < 0 then 0 else if 1 < p then 1 else p

/-- `_preview_fill`. The sign of a rounded product costs no digit. -/
def previewFillIn (a : PaperExecutionAdapter) (book : QuoteBook) (now : ℚ) (o : OutcomeId)
    (isBuy : Bool) (qty limitPrice : ℚ) : Except RejectReason (ℚ × ℚ) :=
  match book.get now o with
  | none => .error .noQuote
  | some quote =>
      let resting := if isBuy then quote.askSize else quote.bidSize
      if resting.any (· ≤ 0) then .error .noLiquidity
      else if resting.any (· < qty) then .error .insufficientLiquidity
      else
        let px := a.applySlippageIn ctx (if isBuy then quote.ask else quote.bid) isBuy
        if isBuy ∧ limitPrice < px then .error .limitExceeded
        else if ¬ isBuy ∧ px < limitPrice then .error .limitExceeded
        else
          let fee := a.fees.fee px qty isBuy
          .ok (px, if isBuy then ctx (ctx (px * qty) + fee) else ctx (-ctx (px * qty) + fee))

/-- An accepted order. -/
def acceptIn (a : PaperExecutionAdapter) (acct : AccountId) (o : OutcomeId) (isBuy : Bool)
    (qty limitPrice : ℚ) (ticketId : Option TicketId) (px : ℚ) : Applied :=
  { a.accept acct o isBuy qty limitPrice ticketId px with
    adapter := { (a.accept acct o isBuy qty limitPrice ticketId px).adapter with
      accounts := a.accounts.set acct
        ((a.account acct).bookFillIn ctx a.venueId o isBuy qty px (a.fees.fee px qty isBuy)) } }

/-- `apply_fill`. -/
def applyFillIn (a : PaperExecutionAdapter) (book : QuoteBook) (now : ℚ) (acct : AccountId)
    (o : OutcomeId) (isBuy : Bool) (qty limitPrice : ℚ) (ticketId : Option TicketId) :
    Applied :=
  match a.previewFillIn ctx book now o isBuy qty limitPrice with
  | .error reason => a.reject o isBuy qty limitPrice ticketId reason
  | .ok (px, cost) =>
      if isBuy ∧ a.cash acct < cost then
        a.reject o isBuy qty limitPrice ticketId .insufficientFunds
      else a.acceptIn ctx acct o isBuy qty limitPrice ticketId px

/-- `place_order`. -/
def placeOrderIn (a : PaperExecutionAdapter) (book : QuoteBook) (now : ℚ) (acct : AccountId)
    (o : OutcomeId) (isBuy : Bool) (qty limitPrice : ℚ) (ticketId : Option TicketId) :
    PaperExecutionAdapter × List SinkEvent :=
  let r := a.applyFillIn ctx book now acct o isBuy qty limitPrice ticketId
  (r.adapter, r.adapter.emitOrderEvents acct r.order r.fill r.reason)

/-- `settle_outcome_async` with the database sink. -/
def settleOutcomeAsyncIn (a : PaperExecutionAdapter) (o : OutcomeId) (resolvedValue : ℚ)
    (source : String) : PaperExecutionAdapter × List SinkEvent :=
  (a.settleAllIn ctx o resolvedValue,
    [.onSettled o resolvedValue a.venueId source (a.closedByIn ctx o resolvedValue)])

/-- `deposit`. -/
def depositIn (a : PaperExecutionAdapter) (acct : AccountId) (amount : ℚ) :
    PaperExecutionAdapter :=
  let st := a.account acct
  a.setAccount acct { st with
    balances := st.balances.set a.venueId (ctx (st.cash a.venueId + amount)) }

/-- `withdraw`. -/
def withdrawIn (a : PaperExecutionAdapter) (acct : AccountId) (amount : ℚ) :
    PaperExecutionAdapter × Bool :=
  let st := a.account acct
  let cash := st.cash a.venueId
  if amount ≤ 0 ∨ cash < amount then (a, false)
  else
    (a.setAccount acct { st with
      balances := st.balances.set a.venueId (ctx (cash - amount)) }, true)

/-- `hydrate_position`: the realized P&L of the row is added to the total. -/
def hydratePositionIn (a : PaperExecutionAdapter) (acct : AccountId) (o : OutcomeId)
    (qty avgPrice realizedPnl openFees : ℚ) : PaperExecutionAdapter :=
  let st := a.account acct
  a.setAccount acct { st with
    positions := st.positions.set o qty
    avgPrice := st.avgPrice.set o avgPrice
    realizedByOutcome := st.realizedByOutcome.set o realizedPnl
    realizedPnl := ctx (st.realizedPnl + realizedPnl)
    openFeesByOutcome := st.openFeesByOutcome.set o openFees }

/-! ### Reading it back -/

theorem account_acceptIn (a : PaperExecutionAdapter) (acct acct' : AccountId) (o : OutcomeId)
    (isBuy : Bool) (qty limit : ℚ) (ticketId : Option TicketId) (px : ℚ) :
    (a.acceptIn ctx acct o isBuy qty limit ticketId px).adapter.account acct' =
      if acct' = acct then
        (a.account acct).bookFillIn ctx a.venueId o isBuy qty px (a.fees.fee px qty isBuy)
      else a.account acct' :=
  Dict.getD_set ..

/-- The three ends of an order. -/
theorem applyFillIn_cases (a : PaperExecutionAdapter) (book : QuoteBook) (now : ℚ)
    (acct : AccountId) (o : OutcomeId) (isBuy : Bool) (qty limit : ℚ)
    (ticketId : Option TicketId) :
    (∃ reason, a.applyFillIn ctx book now acct o isBuy qty limit ticketId =
        a.reject o isBuy qty limit ticketId reason) ∨
    (∃ px cost, a.previewFillIn ctx book now o isBuy qty limit = .ok (px, cost) ∧
      a.applyFillIn ctx book now acct o isBuy qty limit ticketId =
        a.acceptIn ctx acct o isBuy qty limit ticketId px) := by
  unfold applyFillIn
  cases h : a.previewFillIn ctx book now o isBuy qty limit with
  | error reason => exact .inl ⟨reason, rfl⟩
  | ok r =>
      obtain ⟨px, cost⟩ := r
      by_cases hc : isBuy ∧ a.cash acct < cost
      · exact .inl ⟨.insufficientFunds, by simp only [if_pos hc]⟩
      · exact .inr ⟨px, cost, rfl, by simp only [if_neg hc]⟩

theorem placeOrderIn_exact (a : PaperExecutionAdapter) (book : QuoteBook) (now : ℚ)
    (acct : AccountId) (o : OutcomeId) (isBuy : Bool) (qty limit : ℚ)
    (ticketId : Option TicketId) :
    a.placeOrderIn .exact book now acct o isBuy qty limit ticketId =
      a.placeOrder book now acct o isBuy qty limit ticketId := by
  have haccept : ∀ px, a.acceptIn .exact acct o isBuy qty limit ticketId px =
      a.accept acct o isBuy qty limit ticketId px := fun px => by
    rw [acceptIn, bookFillIn_exact]
    rfl
  have hpreview : a.previewFillIn .exact book now o isBuy qty limit =
      a.previewFill book now o isBuy qty limit := rfl
  have happly : a.applyFillIn .exact book now acct o isBuy qty limit ticketId =
      a.applyFill book now acct o isBuy qty limit ticketId := by
    rw [applyFillIn, applyFill, hpreview]
    cases a.previewFill book now o isBuy qty limit with
    | error reason => rfl
    | ok filled =>
        obtain ⟨px, cost⟩ := filled
        simp only [haccept]
  rw [placeOrderIn, placeOrder, happly]

end PaperExecutionAdapter

/-! ## What an order does off its outcome -/

namespace AccountState

variable (ctx : Context)

/-- What a sale books, its own fee among those carried. -/
def saleGain (st : AccountState) (o : OutcomeId) (qty px fee : ℚ) : ℚ :=
  AccountState.releasedGain ctx
    { st with openFeesByOutcome := st.openFeesByOutcome.set o (ctx (st.openFees o + fee)) }
    o qty px

/-- What `_release` writes: the position, the fees of the outcome, and what it
books in total and on the outcome. -/
theorem releaseIn_eq (st : AccountState) (o : OutcomeId) (qty price : ℚ) :
    ∃ fees, (∀ j, j ≠ o → fees.get? j = st.openFeesByOutcome.get? j) ∧
      st.releaseIn ctx o qty price =
        { st with
          positions := st.positions.set o (ctx (st.qty o - qty))
          realizedPnl := ctx (st.realizedPnl + st.releasedGain ctx o qty price)
          realizedByOutcome := st.realizedByOutcome.set o
            (ctx (st.realizedOn o + st.releasedGain ctx o qty price))
          openFeesByOutcome := fees } := by
  obtain ⟨fees, hst, hfees⟩ := consumeFeesIn_snd ctx st o qty (st.qty o)
  refine ⟨fees, hfees, ?_⟩
  simp only [releaseIn, realizeIn, releasedGain, consumeFeesIn_fst, hst]
  rfl

/-- A sale adds what it books to the total and to its outcome. -/
theorem bookFillIn_sell (st : AccountState) (v : VenueId) (o : OutcomeId) (qty px fee : ℚ) :
    (st.bookFillIn ctx v o false qty px fee).realizedPnl =
        ctx (st.realizedPnl + st.saleGain ctx o qty px fee) ∧
      (st.bookFillIn ctx v o false qty px fee).realizedByOutcome =
        st.realizedByOutcome.set o (ctx (st.realizedOn o + st.saleGain ctx o qty px fee)) := by
  simp only [bookFillIn, Bool.false_eq_true, if_false]
  obtain ⟨fees, -, hst⟩ := releaseIn_eq ctx
    { st with
      balances := st.balances.set v (ctx (st.cash v + ctx (ctx (px * qty) - fee)))
      openFeesByOutcome := st.openFeesByOutcome.set o (ctx (st.openFees o + fee)) } o qty px
  rw [hst]
  exact ⟨rfl, rfl⟩

/-- **An order touches its own outcome and venue only.** -/
theorem elsewhere_bookFillIn (st : AccountState) (v : VenueId) (o : OutcomeId) (isBuy : Bool)
    (qty px fee : ℚ) : Elsewhere v o st (st.bookFillIn ctx v o isBuy qty px fee) := by
  cases isBuy with
  | true =>
      constructor
      · exact fun w hw => Dict.get?_set_ne _ hw _
      · exact fun j hj => Dict.get?_set_ne _ hj _
      · exact fun j hj => Dict.get?_set_ne _ hj _
      · exact fun j _ => rfl
      · exact fun j hj => Dict.get?_set_ne _ hj _
  | false =>
      simp only [bookFillIn, Bool.false_eq_true, if_false]
      obtain ⟨fees, hfees, hst⟩ := releaseIn_eq ctx
        { st with
          balances := st.balances.set v (ctx (st.cash v + ctx (ctx (px * qty) - fee)))
          openFeesByOutcome := st.openFeesByOutcome.set o (ctx (st.openFees o + fee)) } o qty px
      rw [hst]
      constructor
      · exact fun w hw => Dict.get?_set_ne _ hw _
      · exact fun j hj => Dict.get?_set_ne _ hj _
      · exact fun j _ => rfl
      · exact fun j hj => Dict.get?_set_ne _ hj _
      · exact fun j hj => (hfees j hj).trans (Dict.get?_set_ne _ hj _)

theorem elsewhere_closeOut (st : AccountState) (v : VenueId) (o : OutcomeId) :
    Elsewhere v o st (st.closeOut o) := by
  constructor
  · exact fun w _ => rfl
  · exact fun j hj => Dict.get?_set_ne _ hj _
  · exact fun j hj => Dict.get?_set_ne _ hj _
  · exact fun j _ => rfl
  · exact fun j hj => Dict.get?_set_ne _ hj _

end AccountState

/-! ## The sweep -/

section Sweep

variable (ctx : Context)

/-- The inner loop of `plan_transfers`. What is equal leaves nothing, whatever
the context. -/
def meetDeficitIn (minTransfer : ℚ) (toVenue : VenueId) :
    ℚ → List (VenueId × ℚ) → List CashTransfer × List (VenueId × ℚ)
  | _, [] => ([], [])
  | remaining, (fromVenue, spare) :: surplus =>
      if remaining ≤ 0 then ([], (fromVenue, spare) :: surplus)
      else
        let move := min remaining spare
        let amount := floorCent move
        let planned := if minTransfer ≤ amount then [⟨fromVenue, toVenue, amount⟩] else []
        if ctx (spare - move) ≤ 0 then
          let rest := meetDeficitIn minTransfer toVenue (ctx (remaining - move)) surplus
          (planned ++ rest.1, rest.2)
        else (planned, (fromVenue, ctx (spare - move)) :: surplus)

/-- `plan_transfers`. -/
def planTransfersIn (balances : Dict VenueId ℚ) (minTransfer : ℚ) : List CashTransfer :=
  if balances.entries.length < 2 then []
  else
    let total := sumUp ctx 0 balances.values
    if total ≤ 0 then []
    else
      let target := ctx (total / balances.entries.length)
      let surplus := ((balances.entries.filter fun e => target < e.2).map fun e =>
        (e.1, ctx (e.2 - target))).mergeSort dearerFirst
      let deficit := ((balances.entries.filter fun e => e.2 < target).map fun e =>
        (e.1, ctx (target - e.2))).mergeSort dearerFirst
      (deficit.foldl (fun (plan : List CashTransfer × List (VenueId × ℚ)) d =>
        let met := meetDeficitIn ctx minTransfer d.1 d.2 plan.2
        (plan.1 ++ met.1, met.2)) ([], surplus)).1

/-- `apply_transfers`. -/
def applyTransfersIn (acct : AccountId) :
    Brokers → List CashTransfer → Brokers × List CashTransfer
  | b, [] => (b, [])
  | b, t :: plan =>
      match b.get? t.fromVenue, b.get? t.toVenue with
      | some src, some _ =>
          let paid := src.withdrawIn ctx acct t.amount
          if paid.2 then
            let rest := applyTransfersIn acct
              ((b.put paid.1).modify t.toVenue fun dst => dst.depositIn ctx acct t.amount) plan
            (rest.1, t :: rest.2)
          else applyTransfersIn acct b plan
      | _, _ => applyTransfersIn acct b plan

/-- `sweep_once` for one account, before it is persisted. -/
def sweepAccountIn (b : Brokers) (acct : AccountId) (minTransfer : ℚ) :
    Brokers × List CashTransfer :=
  applyTransfersIn ctx acct b
    (planTransfersIn ctx (b.adapters.mapVal fun _ a => a.cash acct) minTransfer)

theorem cashMoved_depositIn (acct : AccountId) (a : PaperExecutionAdapter) (amount : ℚ) :
    CashMoved acct a (a.depositIn ctx acct amount) :=
  .setBalances acct a _

theorem cashMoved_withdrawIn (acct : AccountId) (a : PaperExecutionAdapter) (amount : ℚ) :
    CashMoved acct a (a.withdrawIn ctx acct amount).1 := by
  unfold PaperExecutionAdapter.withdrawIn
  simp only
  split
  · exact .refl acct a
  · exact .setBalances acct a _

/-- Applying a plan moves cash of the account, on the venues it touched. -/
theorem applyTransfersIn_cashMoved (acct : AccountId) (b : Brokers) (plan : List CashTransfer) :
    b.CashMoved acct (touched (applyTransfersIn ctx acct b plan).2)
      (applyTransfersIn ctx acct b plan).1 := by
  induction plan generalizing b with
  | nil => exact .refl acct b
  | cons t plan ih =>
      unfold applyTransfersIn
      cases hs : b.get? t.fromVenue with
      | none => exact ih b
      | some src =>
      cases hd : b.get? t.toVenue with
      | none => exact ih b
      | some dst =>
          simp only
          by_cases hpaid : (src.withdrawIn ctx acct t.amount).2 = true
          · rw [if_pos hpaid]
            exact Brokers.cashMoved_transfer hs (cashMoved_withdrawIn ctx acct src t.amount)
              (fun a => cashMoved_depositIn ctx acct a t.amount) (ih _)
          · rw [if_neg hpaid]
            exact ih b

theorem meetDeficitIn_exact (minTransfer : ℚ) (toVenue : VenueId) (remaining : ℚ)
    (surplus : List (VenueId × ℚ)) :
    meetDeficitIn .exact minTransfer toVenue remaining surplus =
      meetDeficit minTransfer toVenue remaining surplus := by
  induction surplus generalizing remaining with
  | nil => rfl
  | cons s surplus ih =>
      simp only [meetDeficitIn, meetDeficit, ih]
      rfl

theorem applyTransfersIn_exact (acct : AccountId) (b : Brokers) (plan : List CashTransfer) :
    applyTransfersIn .exact acct b plan = applyTransfers acct b plan := by
  induction plan generalizing b with
  | nil => rfl
  | cons t plan ih =>
      simp only [applyTransfersIn, applyTransfers, ih]
      rfl

theorem planTransfersIn_exact (balances : Dict VenueId ℚ) (minTransfer : ℚ) :
    planTransfersIn .exact balances minTransfer = planTransfers balances minTransfer := by
  have hsum : sumUp Context.exact 0 balances.values = balances.values.sum :=
    List.sum_eq_foldl.symm
  simp only [planTransfersIn, planTransfers, meetDeficitIn_exact, hsum]
  rfl

theorem sweepAccountIn_exact (b : Brokers) (acct : AccountId) (minTransfer : ℚ) :
    sweepAccountIn .exact b acct minTransfer = sweepAccount b acct minTransfer := by
  rw [sweepAccountIn, sweepAccount, applyTransfersIn_exact, planTransfersIn_exact]

end Sweep

/-! ## A start, and a step -/

section Step

variable (ctx : Context)

/-- Hydrate the positions of `acct`, each on the broker of its venue. -/
def hydratePositionsIn (acct : AccountId) (b : Brokers)
    (rows : List ((AccountId × VenueId × OutcomeId) × PositionRow)) : Brokers :=
  rows.foldl (fun b row =>
    if row.1.1 = acct then
      b.modify row.1.2.1 fun a => a.hydratePositionIn ctx acct row.1.2.2 row.2.qty
        row.2.avgPrice row.2.realizedPnl row.2.openFees
    else b) b

/-- The hydration of `bootstrap` from the position rows in the order the query
lists them. -/
def bootstrapIn (acct : AccountId) (b : Brokers) (db : Db)
    (rows : List ((AccountId × VenueId × OutcomeId) × PositionRow)) : Brokers × Db :=
  let b := hydrateBalances acct b db.balances.entries
  let b := hydratePositionsIn ctx acct b rows
  seedBalances acct db.balances b.adapters.keys (b, db)

/-- Without rounding, and in the order of the table, this is the exact one. -/
theorem bootstrapIn_exact (acct : AccountId) (b : Brokers) (db : Db) :
    bootstrapIn .exact acct b db db.positions.entries = bootstrap acct b db := rfl

namespace PaperSystem

/-- `sweep_once` for one account, persisted if anything moved. -/
def sweepOneIn (minTransfer : ℚ) (s : PaperSystem) (acct : AccountId) : PaperSystem :=
  let swept := sweepAccountIn ctx s.brokers acct minTransfer
  ⟨swept.1, if swept.2 = [] then s.db else s.db.persistSweep acct swept.1 swept.2⟩

/-- One awaited operation, its writes landed. -/
def stepIn (scope : AccountId) (s : PaperSystem) : PaperOp → PaperSystem
  | .placeOrder v book now acct o isBuy qty limitPrice ticketId =>
      s.onBroker scope v fun a =>
        a.placeOrderIn ctx book now acct o isBuy qty limitPrice ticketId
  | .settleOutcomeAsync v o resolvedValue source =>
      s.onBroker scope v fun a => a.settleOutcomeAsyncIn ctx o resolvedValue source
  | .closeAlreadySettled v o => s.onBroker scope v fun a => a.closeAlreadySettled o
  | .sweepOnce accountIds minTransfer => accountIds.foldl (sweepOneIn ctx minTransfer) s

/-- **Without rounding a step is the exact model's.** -/
theorem stepIn_exact (scope : AccountId) (s : PaperSystem) (op : PaperOp) :
    stepIn .exact scope s op = step scope s op := by
  cases op with
  | placeOrder v book now acct o isBuy qty limit ticketId =>
      simp only [stepIn, step, PaperExecutionAdapter.placeOrderIn_exact]
  | settleOutcomeAsync v o value source => rfl
  | closeAlreadySettled v o => rfl
  | sweepOnce accountIds minTransfer =>
      have hsweep : sweepOneIn .exact minTransfer = sweepOne minTransfer := by
        funext s acct
        simp only [sweepOneIn, sweepOne, sweepAccountIn_exact]
      simp only [stepIn, step, hsweep]

end PaperSystem

end Step

end Arbys
