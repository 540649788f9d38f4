import Arbys.Fees
import Arbys.QuoteBook

/-!
# The per-venue paper broker

`shared/paper_broker.py`: real quotes, simulated fills. `AccountState` is the
mutable record a broker keeps per account; its `defaultdict`s are read with
`getD · 0`, so a key that a read would have created reads as zero here.
`applyFill` is the synchronous decision and application of one order;
`settleOutcomeAsync`, `closeAlreadySettled` and `emitOrderEvents` return,
beside the new broker, the events they hand to the persistence sink, in order.
-/

namespace Arbys

/-- The reasons `_preview_fill`, `apply_fill` and the router reject with. -/
inductive RejectReason where
  | noAdapter
  | noQuote
  | noLiquidity
  | insufficientLiquidity
  | limitExceeded
  | insufficientFunds
  deriving DecidableEq

/-- The reason as the code spells it. -/
def RejectReason.text : RejectReason → String
  | .noAdapter => "no_adapter"
  | .noQuote => "no_quote"
  | .noLiquidity => "no_liquidity"
  | .insufficientLiquidity => "insufficient_liquidity"
  | .limitExceeded => "limit_exceeded"
  | .insufficientFunds => "insufficient_funds"

/-! ## Account state -/

/-- `_AccountState`. `openFeesByOutcome` holds the taker fees paid on the
quantity still open, until that quantity closes. -/
structure AccountState where
  balances : Dict VenueId ℚ := Dict.empty
  positions : Dict OutcomeId ℚ := Dict.empty
  avgPrice : Dict OutcomeId ℚ := Dict.empty
  realizedPnl : ℚ := 0
  realizedByOutcome : Dict OutcomeId ℚ := Dict.empty
  openFeesByOutcome : Dict OutcomeId ℚ := Dict.empty
  deriving DecidableEq

namespace AccountState

def cash (st : AccountState) (v : VenueId) : ℚ := st.balances.getD v 0
def qty (st : AccountState) (o : OutcomeId) : ℚ := st.positions.getD o 0
def avg (st : AccountState) (o : OutcomeId) : ℚ := st.avgPrice.getD o 0
def realizedOn (st : AccountState) (o : OutcomeId) : ℚ := st.realizedByOutcome.getD o 0
def openFees (st : AccountState) (o : OutcomeId) : ℚ := st.openFeesByOutcome.getD o 0

/-- `_acquire`: the weighted average over the pooled quantity. -/
def acquire (st : AccountState) (o : OutcomeId) (qty price : ℚ) : AccountState :=
  let newQty := st.qty o + qty
  { st with
    avgPrice := st.avgPrice.set o
      (if 0 < newQty then (st.qty o * st.avg o + qty * price) / newQty else 0)
    positions := st.positions.set o newQty }

/-- `_consume_fees`: the carried fees attributable to the quantity being
closed, and the state with them removed. -/
def consumeFees (st : AccountState) (o : OutcomeId) (released held : ℚ) :
    ℚ × AccountState :=
  let carried := st.openFees o
  if carried = 0 ∨ held ≤ 0 then (0, st)
  else
    let share := if held ≤ released then carried else carried * (released / held)
    (share, { st with openFeesByOutcome := st.openFeesByOutcome.set o (carried - share) })

/-- Book `realized` against an outcome and in total. -/
def realize (st : AccountState) (o : OutcomeId) (realized : ℚ) : AccountState :=
  { st with
    realizedPnl := st.realizedPnl + realized
    realizedByOutcome := st.realizedByOutcome.set o (st.realizedOn o + realized) }

/-- `_release`. -/
def release (st : AccountState) (o : OutcomeId) (qty price : ℚ) : AccountState :=
  let curQty := st.qty o
  let curAvg := st.avg o
  let (share, st) := st.consumeFees o qty curQty
  let st := st.realize o ((price - curAvg) * min qty curQty - share)
  { st with positions := st.positions.set o (curQty - qty) }

/-- What `apply_fill` does to the account once the order is accepted. -/
def bookFill (st : AccountState) (v : VenueId) (o : OutcomeId) (isBuy : Bool)
    (qty px fee : ℚ) : AccountState :=
  let cash := st.cash v
  let st := { st with openFeesByOutcome := st.openFeesByOutcome.set o (st.openFees o + fee) }
  if isBuy then
    { st with balances := st.balances.set v (cash - (px * qty + fee)) }.acquire o qty px
  else
    { st with balances := st.balances.set v (cash + (px * qty - fee)) }.release o qty px

/-- What a settlement does to one account: nothing unless it holds the
outcome. -/
def settle (st : AccountState) (v : VenueId) (o : OutcomeId) (resolvedValue : ℚ) :
    AccountState :=
  let qty := st.qty o
  if qty = 0 then st
  else
    let avg := st.avg o
    let (share, st) := st.consumeFees o qty qty
    let st := st.realize o ((resolvedValue - avg) * qty - share)
    { st with
      balances := st.balances.set v (st.cash v + resolvedValue * qty)
      positions := st.positions.set o 0
      avgPrice := st.avgPrice.set o 0 }

/-- What `close_already_settled` does to one account that holds the outcome. -/
def closeOut (st : AccountState) (o : OutcomeId) : AccountState :=
  { st with
    positions := st.positions.set o 0
    avgPrice := st.avgPrice.set o 0
    openFeesByOutcome := st.openFeesByOutcome.set o 0 }

end AccountState

/-- The part of an account `snapshot_account` copies. -/
structure AccountSnapshot where
  balances : Dict VenueId ℚ
  positions : Dict OutcomeId ℚ
  avgPrice : Dict OutcomeId ℚ
  realizedPnl : ℚ
  realizedByOutcome : Dict OutcomeId ℚ

namespace AccountState

def snapshot (st : AccountState) : AccountSnapshot :=
  ⟨st.balances, st.positions, st.avgPrice, st.realizedPnl, st.realizedByOutcome⟩

def restore (st : AccountState) (snap : AccountSnapshot) : AccountState :=
  { st with
    balances := snap.balances
    positions := snap.positions
    avgPrice := snap.avgPrice
    realizedPnl := snap.realizedPnl
    realizedByOutcome := snap.realizedByOutcome }

end AccountState

/-! ## Recorded orders and fills -/

/-- `_orders` and `_fills`, and how many ids this broker has drawn. An id not
yet drawn names no order. -/
structure OrderLog where
  drawn : ℕ
  orders : Dict OrderId Order
  fills : Dict OrderId (List Fill)
  fresh : ∀ v n, drawn ≤ n → orders.get? ⟨v, n⟩ = none ∧ fills.get? ⟨v, n⟩ = none

namespace OrderLog

def empty : OrderLog :=
  ⟨0, Dict.empty, Dict.empty, fun _ _ _ => ⟨rfl, rfl⟩⟩

/-- Record an order, and its fill if it has one, under the next id. -/
def record (log : OrderLog) (v : VenueId) (order : OrderId → Order)
    (fill : Option (OrderId → Fill)) : OrderLog where
  drawn := log.drawn + 1
  orders := log.orders.set ⟨v, log.drawn⟩ (order ⟨v, log.drawn⟩)
  fills :=
    match fill with
    | none => log.fills
    | some f => log.fills.set ⟨v, log.drawn⟩ [f ⟨v, log.drawn⟩]
  fresh := by
    intro w n hn
    have hne : (⟨w, n⟩ : OrderId) ≠ ⟨v, log.drawn⟩ := by
      intro h
      have : n = log.drawn := congrArg OrderId.serial h
      omega
    obtain ⟨ho, hf⟩ := log.fresh w n (by omega)
    refine ⟨by rw [Dict.get?_set_ne _ hne, ho], ?_⟩
    cases fill with
    | none => exact hf
    | some f => simp only; rw [Dict.get?_set_ne _ hne, hf]

/-- `forget_order`. -/
def forget (log : OrderLog) (id : OrderId) : OrderLog where
  drawn := log.drawn
  orders := log.orders.erase id
  fills := log.fills.erase id
  fresh := by
    intro v n hn
    obtain ⟨ho, hf⟩ := log.fresh v n hn
    exact ⟨by rw [Dict.get?_erase, ho]; split <;> rfl,
      by rw [Dict.get?_erase, hf]; split <;> rfl⟩

end OrderLog

/-! ## The broker -/

structure PaperExecutionAdapter where
  venueId : VenueId
  fees : FeeModel
  slippageBps : ℚ
  log : OrderLog
  accounts : Dict AccountId AccountState

/-- What the persistence sink is told. -/
inductive SinkEvent where
  | onOrder (order : Order) (rejectionReason : Option RejectReason)
  | onFill (order : Order) (fill : Fill)
  | onBalance (accountId : AccountId) (venueId : VenueId) (amount : ℚ)
  | onPosition (accountId : AccountId) (outcomeId : OutcomeId)
      (qty avgPrice realizedPnl : ℚ) (venueId : VenueId) (openFees : ℚ)
  | onSettled (outcomeId : OutcomeId) (resolvedValue : ℚ) (venueId : VenueId)
      (source : String) (closed : List (AccountId × ℚ × ℚ × ℚ))
  deriving DecidableEq

namespace PaperExecutionAdapter

/-- `PaperExecutionAdapter(venue_id=..., ...)`: no account, no order. -/
def new (venueId : VenueId) (fees : FeeModel) (slippageBps : ℚ) : PaperExecutionAdapter :=
  ⟨venueId, fees, slippageBps, OrderLog.empty, Dict.empty⟩

/-- `self._accounts[account_id]`. -/
def account (a : PaperExecutionAdapter) (acct : AccountId) : AccountState :=
  a.accounts.getD acct {}

def setAccount (a : PaperExecutionAdapter) (acct : AccountId) (st : AccountState) :
    PaperExecutionAdapter :=
  { a with accounts := a.accounts.set acct st }

/-- Free cash on this venue. -/
def cash (a : PaperExecutionAdapter) (acct : AccountId) : ℚ :=
  (a.account acct).cash a.venueId

def realizedPnl (a : PaperExecutionAdapter) (acct : AccountId) : ℚ :=
  (a.account acct).realizedPnl

def deposit (a : PaperExecutionAdapter) (acct : AccountId) (amount : ℚ) :
    PaperExecutionAdapter :=
  let st := a.account acct
  a.setAccount acct { st with balances := st.balances.set a.venueId (st.cash a.venueId + amount) }

/-- Debit free cash; refuses, and moves nothing, if it cannot. -/
def withdraw (a : PaperExecutionAdapter) (acct : AccountId) (amount : ℚ) :
    PaperExecutionAdapter × Bool :=
  let st := a.account acct
  let cash := st.cash a.venueId
  if amount ≤ 0 ∨ cash < amount then (a, false)
  else (a.setAccount acct { st with balances := st.balances.set a.venueId (cash - amount) }, true)

def hydrateBalance (a : PaperExecutionAdapter) (acct : AccountId) (amount : ℚ) :
    PaperExecutionAdapter :=
  let st := a.account acct
  a.setAccount acct { st with balances := st.balances.set a.venueId amount }

def hydratePosition (a : PaperExecutionAdapter) (acct : AccountId) (o : OutcomeId)
    (qty avgPrice realizedPnl openFees : ℚ) : PaperExecutionAdapter :=
  let st := a.account acct
  a.setAccount acct { st with
    positions := st.positions.set o qty
    avgPrice := st.avgPrice.set o avgPrice
    realizedByOutcome := st.realizedByOutcome.set o realizedPnl
    realizedPnl := st.realizedPnl + realizedPnl
    openFeesByOutcome := st.openFeesByOutcome.set o openFees }

/-- Cash, and quantity, average price and realized P&L of every outcome held. -/
def accountSnapshot (a : PaperExecutionAdapter) (acct : AccountId) :
    ℚ × List (OutcomeId × ℚ × ℚ × ℚ) :=
  let st := a.account acct
  (st.cash a.venueId,
    (st.positions.entries.filter fun e => e.2 ≠ 0).map fun e =>
      (e.1, e.2, st.avg e.1, st.realizedOn e.1))

/-- `_apply_slippage`: adverse to the taker, clamped to `[0, 1]`. -/
def applySlippage (a : PaperExecutionAdapter) (price : ℚ) (isBuy : Bool) : ℚ :=
  let adj := price * a.slippageBps / 10000
  let p := if isBuy then price + adj else price - adj
  if p < 0 then 0 else if 1 < p then 1 else p

/-- `_preview_fill`: the fill price and the cost, or why the order is refused.
It reads the book and the fee model, never the account. -/
def previewFill (a : PaperExecutionAdapter) (book : QuoteBook) (now : ℚ) (o : OutcomeId)
    (isBuy : Bool) (qty limitPrice : ℚ) : Except RejectReason (ℚ × ℚ) :=
  match book.get now o with
  | none => .error .noQuote
  | some quote =>
      let resting := if isBuy then quote.askSize else quote.bidSize
      if resting.any (· ≤ 0) then .error .noLiquidity
      else if resting.any (· < qty) then .error .insufficientLiquidity
      else
        let px := a.applySlippage (if isBuy then quote.ask else quote.bid) isBuy
        if isBuy ∧ limitPrice < px then .error .limitExceeded
        else if ¬ isBuy ∧ px < limitPrice then .error .limitExceeded
        else
          let fee := a.fees.fee px qty isBuy
          .ok (px, if isBuy then px * qty + fee else -(px * qty) + fee)

/-- `(order, fill, rejection_reason)` and the broker afterwards. -/
structure Applied where
  adapter : PaperExecutionAdapter
  order : Order
  fill : Option Fill
  reason : Option RejectReason

/-- The order a submission records under `id`. -/
def orderOf (a : PaperExecutionAdapter) (o : OutcomeId) (isBuy : Bool) (qty limitPrice : ℚ)
    (ticketId : Option TicketId) (status : OrderStatus) (id : OrderId) : Order :=
  ⟨id, a.venueId, o, isBuy, qty, limitPrice, status, ticketId⟩

/-- The id the next order of this broker gets. -/
def nextId (a : PaperExecutionAdapter) : OrderId := ⟨a.venueId, a.log.drawn⟩

/-- A refused order is recorded and changes nothing else. -/
def reject (a : PaperExecutionAdapter) (o : OutcomeId) (isBuy : Bool) (qty limitPrice : ℚ)
    (ticketId : Option TicketId) (reason : RejectReason) : Applied where
  adapter := { a with
    log := a.log.record a.venueId (a.orderOf o isBuy qty limitPrice ticketId .rejected) none }
  order := a.orderOf o isBuy qty limitPrice ticketId .rejected a.nextId
  fill := none
  reason := some reason

/-- An accepted order: the account books the fill, and both are recorded. -/
def accept (a : PaperExecutionAdapter) (acct : AccountId) (o : OutcomeId) (isBuy : Bool)
    (qty limitPrice : ℚ) (ticketId : Option TicketId) (px : ℚ) : Applied where
  adapter := { a with
    log := a.log.record a.venueId (a.orderOf o isBuy qty limitPrice ticketId .filled)
      (some fun id => ⟨id, qty, px, a.fees.fee px qty isBuy⟩)
    accounts := a.accounts.set acct
      ((a.account acct).bookFill a.venueId o isBuy qty px (a.fees.fee px qty isBuy)) }
  order := a.orderOf o isBuy qty limitPrice ticketId .filled a.nextId
  fill := some ⟨a.nextId, qty, px, a.fees.fee px qty isBuy⟩
  reason := none

/-- `apply_fill`: decide and apply one order without awaiting. -/
def applyFill (a : PaperExecutionAdapter) (book : QuoteBook) (now : ℚ) (acct : AccountId)
    (o : OutcomeId) (isBuy : Bool) (qty limitPrice : ℚ) (ticketId : Option TicketId) :
    Applied :=
  match a.previewFill book now o isBuy qty limitPrice with
  | .error reason => a.reject o isBuy qty limitPrice ticketId reason
  | .ok (px, cost) =>
      if isBuy ∧ a.cash acct < cost then
        a.reject o isBuy qty limitPrice ticketId .insufficientFunds
      else a.accept acct o isBuy qty limitPrice ticketId px

def snapshotAccount (a : PaperExecutionAdapter) (acct : AccountId) : AccountSnapshot :=
  (a.account acct).snapshot

def restoreAccount (a : PaperExecutionAdapter) (acct : AccountId) (snap : AccountSnapshot) :
    PaperExecutionAdapter :=
  a.setAccount acct ((a.account acct).restore snap)

def forgetOrder (a : PaperExecutionAdapter) (id : OrderId) : PaperExecutionAdapter :=
  { a with log := a.log.forget id }

/-- `emit_order_events`: what the sink is told of an applied order. -/
def emitOrderEvents (a : PaperExecutionAdapter) (acct : AccountId) (order : Order)
    (fill : Option Fill) (rejectionReason : Option RejectReason) : List SinkEvent :=
  match fill with
  | none => [.onOrder order rejectionReason]
  | some fill =>
      let st := a.account acct
      [.onOrder order none, .onFill order fill,
        .onBalance acct a.venueId (st.cash a.venueId),
        .onPosition acct order.outcomeId (st.qty order.outcomeId) (st.avg order.outcomeId)
          (st.realizedOn order.outcomeId) a.venueId (st.openFees order.outcomeId)]

/-- `place_order`: apply, then notify. -/
def placeOrder (a : PaperExecutionAdapter) (book : QuoteBook) (now : ℚ) (acct : AccountId)
    (o : OutcomeId) (isBuy : Bool) (qty limitPrice : ℚ) (ticketId : Option TicketId) :
    PaperExecutionAdapter × List SinkEvent :=
  let r := a.applyFill book now acct o isBuy qty limitPrice ticketId
  (r.adapter, r.adapter.emitOrderEvents acct r.order r.fill r.reason)

/-- `settle_outcome`: every account that holds the outcome is paid and closed. -/
def settleOutcome (a : PaperExecutionAdapter) (o : OutcomeId) (resolvedValue : ℚ) :
    PaperExecutionAdapter :=
  { a with accounts := a.accounts.mapVal fun _ st => st.settle a.venueId o resolvedValue }

/-- The accounts a settlement closes: cash after, realized on the outcome and
fees left on it. -/
def closedBy (a : PaperExecutionAdapter) (o : OutcomeId) (resolvedValue : ℚ) :
    List (AccountId × ℚ × ℚ × ℚ) :=
  (a.accounts.entries.filter fun e => e.2.qty o ≠ 0).map fun e =>
    let st := e.2.settle a.venueId o resolvedValue
    (e.1, st.cash a.venueId, st.realizedOn o, st.openFees o)

/-- `settle_outcome_async` with the database sink: the same mutation, then one
`on_settled` transaction, written whether or not anyone held the outcome. -/
def settleOutcomeAsync (a : PaperExecutionAdapter) (o : OutcomeId) (resolvedValue : ℚ)
    (source : String) : PaperExecutionAdapter × List SinkEvent :=
  ({ a with accounts := a.accounts.mapVal fun _ st => st.settle a.venueId o resolvedValue },
    [.onSettled o resolvedValue a.venueId source (a.closedBy o resolvedValue)])

/-- `close_already_settled`: zero the position, pay nothing. -/
def closeAlreadySettled (a : PaperExecutionAdapter) (o : OutcomeId) :
    PaperExecutionAdapter × List SinkEvent :=
  ({ a with accounts := a.accounts.mapVal fun _ st =>
      if st.qty o = 0 then st else st.closeOut o },
    (a.accounts.entries.filter fun e => e.2.qty o ≠ 0).map fun e =>
      .onPosition e.1 o 0 0 (e.2.realizedOn o) a.venueId 0)

/-! ## Reading an account back -/

@[simp] theorem account_new (v : VenueId) (fees : FeeModel) (slip : ℚ) (acct : AccountId) :
    (new v fees slip).account acct = {} := rfl

theorem account_setAccount (a : PaperExecutionAdapter) (acct acct' : AccountId)
    (st : AccountState) :
    (a.setAccount acct st).account acct' = if acct' = acct then st else a.account acct' :=
  Dict.getD_set ..

theorem cash_deposit (a : PaperExecutionAdapter) (acct : AccountId) (amount : ℚ) :
    (a.deposit acct amount).cash acct = a.cash acct + amount := by
  rw [cash, deposit, account_setAccount, if_pos rfl]
  exact Dict.getD_set_self ..

/-- A rewrite of every account that leaves the empty account alone acts on the
account read back. -/
theorem getD_mapVal {f : AccountState → AccountState} (h : f {} = {})
    (accounts : Dict AccountId AccountState) (acct : AccountId) :
    (accounts.mapVal fun _ st => f st).getD acct {} = f (accounts.getD acct {}) := by
  rw [Dict.getD, Dict.getD, Dict.get?_mapVal]
  cases accounts.get? acct with
  | none => exact h.symm
  | some st => rfl

theorem account_settleOutcome (a : PaperExecutionAdapter) (o : OutcomeId) (value : ℚ)
    (acct : AccountId) :
    (a.settleOutcome o value).account acct = (a.account acct).settle a.venueId o value :=
  getD_mapVal rfl a.accounts acct

theorem account_settleOutcomeAsync (a : PaperExecutionAdapter) (o : OutcomeId) (value : ℚ)
    (source : String) (acct : AccountId) :
    (a.settleOutcomeAsync o value source).1.account acct =
      (a.account acct).settle a.venueId o value :=
  getD_mapVal rfl a.accounts acct

theorem account_closeAlreadySettled (a : PaperExecutionAdapter) (o : OutcomeId)
    (acct : AccountId) :
    (a.closeAlreadySettled o).1.account acct =
      if (a.account acct).qty o = 0 then a.account acct else (a.account acct).closeOut o :=
  getD_mapVal (f := fun st => if st.qty o = 0 then st else st.closeOut o) rfl a.accounts acct

theorem account_accept (a : PaperExecutionAdapter) (acct acct' : AccountId) (o : OutcomeId)
    (isBuy : Bool) (qty limit : ℚ) (ticketId : Option TicketId) (px : ℚ) :
    (a.accept acct o isBuy qty limit ticketId px).adapter.account acct' =
      if acct' = acct then
        (a.account acct).bookFill a.venueId o isBuy qty px (a.fees.fee px qty isBuy)
      else a.account acct' :=
  Dict.getD_set ..

/-! ## What an order can do -/

/-- A fill price is a probability. -/
theorem applySlippage_mem (a : PaperExecutionAdapter) (price : ℚ) (isBuy : Bool) :
    0 ≤ a.applySlippage price isBuy ∧ a.applySlippage price isBuy ≤ 1 := by
  unfold applySlippage
  simp only
  split_ifs <;> constructor <;> linarith

/-- Slippage is adverse: a buy pays the ask or more. -/
theorem le_applySlippage {a : PaperExecutionAdapter} (hs : 0 ≤ a.slippageBps) {ask : ℚ}
    (h0 : 0 ≤ ask) (h1 : ask ≤ 1) : ask ≤ a.applySlippage ask true := by
  have hadj : 0 ≤ ask * a.slippageBps / 10000 := by positivity
  simp only [applySlippage, if_true]
  split_ifs with hneg
  · linarith
  · exact h1
  · linarith

/-- The preview reads the fee model and the slippage of a broker, nothing else
of it. -/
theorem previewFill_congr {a a' : PaperExecutionAdapter} (hf : a'.fees = a.fees)
    (hs : a'.slippageBps = a.slippageBps) : a'.previewFill = a.previewFill := by
  cases a
  cases a'
  cases hf
  cases hs
  rfl

section Orders

variable {a : PaperExecutionAdapter} {book : QuoteBook} {now : ℚ} {acct : AccountId}
  {o : OutcomeId} {isBuy : Bool} {qty limit : ℚ} {ticketId : Option TicketId}

/-- The two depth checks, read back. -/
theorem size_of_checks {resting : Option ℚ} (hempty : ¬ resting.any (· ≤ 0) = true)
    (hthin : ¬ resting.any (· < qty) = true) {size : ℚ} (hs : resting = some size) :
    0 < size ∧ qty ≤ size := by
  subst hs
  simp only [Option.any_some, decide_eq_true_eq, not_le, not_lt] at hempty hthin
  exact ⟨hempty, hthin⟩

/-- **When a preview succeeds**: there is a live quote, its touched side is
not known to be empty or thinner than the order, and the slipped price is
within the limit. The cost is price times quantity, signed, and the fee. -/
theorem previewFill_eq_ok {px cost : ℚ}
    (h : a.previewFill book now o isBuy qty limit = .ok (px, cost)) :
    ∃ quote, book.get now o = some quote ∧
      (∀ size, (if isBuy then quote.askSize else quote.bidSize) = some size →
        0 < size ∧ qty ≤ size) ∧
      px = a.applySlippage (if isBuy then quote.ask else quote.bid) isBuy ∧
      (if isBuy then px ≤ limit else limit ≤ px) ∧
      cost = if isBuy then px * qty + a.fees.fee px qty isBuy
        else -(px * qty) + a.fees.fee px qty isBuy := by
  unfold previewFill at h
  cases hq : book.get now o with
  | none => rw [hq] at h; cases h
  | some quote =>
      refine ⟨quote, rfl, ?_⟩
      cases isBuy with
      | true =>
          simp only [hq, if_true, true_and, not_true_eq_false, false_and, if_false] at h ⊢
          split_ifs at h with hempty hthin hlimit
          cases h
          exact ⟨fun size hs => size_of_checks hempty hthin hs, rfl, not_lt.mp hlimit, rfl⟩
      | false =>
          simp only [hq, Bool.false_eq_true, if_false, false_and, not_false_eq_true,
            true_and] at h ⊢
          split_ifs at h with hempty hthin hlimit
          cases h
          exact ⟨fun size hs => size_of_checks hempty hthin hs, rfl, not_lt.mp hlimit, rfl⟩

/-- The two depth checks pass. -/
theorem checks_of_size {resting : Option ℚ}
    (hsize : ∀ size, resting = some size → 0 < size ∧ qty ≤ size) :
    ¬ resting.any (· ≤ 0) = true ∧ ¬ resting.any (· < qty) = true := by
  cases resting with
  | none => simp
  | some size => simpa using hsize size rfl

/-- A buy that the quote can serve within its limit previews at the slipped
ask. -/
theorem previewFill_buy {quote : Quote} (hq : book.get now o = some quote)
    (hsize : ∀ size, quote.askSize = some size → 0 < size ∧ qty ≤ size)
    (hlimit : a.applySlippage quote.ask true ≤ limit) :
    a.previewFill book now o true qty limit =
      .ok (a.applySlippage quote.ask true, a.applySlippage quote.ask true * qty +
        a.fees.fee (a.applySlippage quote.ask true) qty true) := by
  obtain ⟨hempty, hthin⟩ := checks_of_size hsize
  simp only [previewFill, hq, if_true, if_neg hempty, if_neg hthin, true_and,
    if_neg (not_lt.mpr hlimit), not_true_eq_false, false_and, if_false]

/-- A sale, at the slipped bid. -/
theorem previewFill_sell {quote : Quote} (hq : book.get now o = some quote)
    (hsize : ∀ size, quote.bidSize = some size → 0 < size ∧ qty ≤ size)
    (hlimit : limit ≤ a.applySlippage quote.bid false) :
    a.previewFill book now o false qty limit =
      .ok (a.applySlippage quote.bid false, -(a.applySlippage quote.bid false * qty) +
        a.fees.fee (a.applySlippage quote.bid false) qty false) := by
  obtain ⟨hempty, hthin⟩ := checks_of_size hsize
  simp only [previewFill, hq, Bool.false_eq_true, if_false, if_neg hempty, if_neg hthin,
    false_and, not_false_eq_true, true_and, if_neg (not_lt.mpr hlimit)]

theorem previewFill_cost {px cost : ℚ}
    (h : a.previewFill book now o isBuy qty limit = .ok (px, cost)) :
    cost = if isBuy then px * qty + a.fees.fee px qty isBuy
      else -(px * qty) + a.fees.fee px qty isBuy := by
  obtain ⟨_, _, _, _, _, hcost⟩ := previewFill_eq_ok h
  exact hcost

/-- **An order has three ends**: refused by the preview, refused for want of
cash, or accepted at the previewed price. -/
theorem applyFill_cases (a : PaperExecutionAdapter) (book : QuoteBook) (now : ℚ)
    (acct : AccountId) (o : OutcomeId) (isBuy : Bool) (qty limit : ℚ)
    (ticketId : Option TicketId) :
    (∃ reason, a.previewFill book now o isBuy qty limit = .error reason ∧
      a.applyFill book now acct o isBuy qty limit ticketId =
        a.reject o isBuy qty limit ticketId reason) ∨
    (∃ px cost, a.previewFill book now o isBuy qty limit = .ok (px, cost) ∧
      isBuy = true ∧ a.cash acct < cost ∧
      a.applyFill book now acct o isBuy qty limit ticketId =
        a.reject o isBuy qty limit ticketId .insufficientFunds) ∨
    (∃ px cost, a.previewFill book now o isBuy qty limit = .ok (px, cost) ∧
      (isBuy = true → cost ≤ a.cash acct) ∧
      a.applyFill book now acct o isBuy qty limit ticketId =
        a.accept acct o isBuy qty limit ticketId px) := by
  unfold applyFill
  cases h : a.previewFill book now o isBuy qty limit with
  | error reason => exact .inl ⟨reason, rfl, rfl⟩
  | ok r =>
      obtain ⟨px, cost⟩ := r
      by_cases hc : isBuy ∧ a.cash acct < cost
      · exact .inr (.inl ⟨px, cost, rfl, hc.1, hc.2, by simp only [if_pos hc]⟩)
      · refine .inr (.inr ⟨px, cost, rfl, fun hb => ?_, by simp only [if_neg hc]⟩)
        exact not_lt.mp fun hlt => hc ⟨hb, hlt⟩

/-- An order leaves the broker on its venue. -/
theorem venueId_applyFill (a : PaperExecutionAdapter) (book : QuoteBook) (now : ℚ)
    (acct : AccountId) (o : OutcomeId) (isBuy : Bool) (qty limit : ℚ)
    (ticketId : Option TicketId) :
    (a.applyFill book now acct o isBuy qty limit ticketId).adapter.venueId = a.venueId := by
  rcases applyFill_cases a book now acct o isBuy qty limit ticketId with
    ⟨_, _, hr⟩ | ⟨_, _, _, _, _, hr⟩ | ⟨_, _, _, _, hr⟩
  · rw [hr]
    rfl
  · rw [hr]
    rfl
  · rw [hr]
    rfl

end Orders

end PaperExecutionAdapter

end Arbys
