import Arbys.LedgerQueries
import Arbys.Lib.Tally
import Arbys.Restart

/-!
# The voided outage window

Migration `0011_exclude_outage_window`. It flags the tickets of the window and
takes them out of the books with arithmetic on what is stored: cash is handed
back fill by fill, less what the earliest settlement at or after the fill paid,
and every open position is rebuilt from the fills that survive. What that leaves
is what a history without those buys leaves. `downgrade` runs it backwards, and
restores the books whatever was traded in between, but for the positions that
only voided fills are behind: `upgrade` deleted them, and nothing is left to
rebuild.
-/

namespace Arbys

/-! ## The tables -/

/-- `paper_fill`, with its `ts`. -/
structure StampedFill extends PaperFill where
  ts : ℚ
  deriving DecidableEq

abbrev BalanceKey := AccountId × VenueId

abbrev PositionKey := AccountId × VenueId × OutcomeId

/-- The paper tables the migration reads and writes. Of a P&L snapshot it reads
`ts` alone. -/
structure PaperTables where
  tickets : List PaperTicket := []
  orders : List PaperOrder := []
  fills : List StampedFill := []
  settlements : List PaperSettlement := []
  balances : Dict BalanceKey ℚ := Dict.empty
  positions : Dict PositionKey PositionRow := Dict.empty
  pnlSnapshots : List ℚ := []

/-- A fill beside its order. -/
abbrev BookedFill := PaperOrder × StampedFill

namespace BookedFill

def balanceKey (r : BookedFill) : BalanceKey := (r.1.accountId, r.1.venueId)

def positionKey (r : BookedFill) : PositionKey := (r.1.accountId, r.1.venueId, r.1.outcomeId)

/-- What the fill spent: `qty * price + fee`. -/
def spent (r : BookedFill) : ℚ := r.2.qty * r.2.price + r.2.fee

end BookedFill

namespace PaperTables

/-! ## The queries -/

/-- `paper_fill` joined to `paper_order`. -/
def bookedFills (db : PaperTables) : List BookedFill :=
  db.fills.flatMap fun f => (db.orders.filter fun o => o.id = f.orderId).map fun o => (o, f)

/-- The order was placed for the ticket. -/
def placedFor (r : BookedFill) (t : PaperTicket) : Bool := decide (r.1.ticketId = some t.id)

/-- `_VOIDED_FILLS`. -/
def voidedFills (db : PaperTables) : List BookedFill :=
  db.bookedFills.flatMap fun r =>
    (db.tickets.filter fun t =>
      placedFor r t && (t.excludedReason.isSome && decide (t.status = "filled"))).map fun _ => r

/-- `_SURVIVING_FILLS`. -/
def survivingFills (db : PaperTables) : List BookedFill :=
  ((OuterJoin.leftJoin placedFor db.bookedFills db.tickets).filter fun row =>
    row.2.all fun t => t.excludedReason.isNone).map Prod.fst

/-- `_settlement_map`, from `_SETTLEMENTS`. -/
def settlementMap (db : PaperTables) : Dict OutcomeId (List (ℚ × ℚ)) :=
  Dict.gather (·.outcomeId) (fun row => (row.ts, row.resolvedValue))
    (db.settlements.mergeSort fun a b => decide (a.ts ≤ b.ts))

/-- `_payout_for`: what one contract of a fill was paid. -/
def payoutFor (settlements : Dict OutcomeId (List (ℚ × ℚ))) (o : OutcomeId) (fillTs : ℚ) :
    Option ℚ :=
  ((settlements.getD o []).find? fun entry => decide (fillTs ≤ entry.1)).map Prod.snd

/-- The cash a voided fill hands back. -/
def cashDelta (settlements : Dict OutcomeId (List (ℚ × ℚ))) (r : BookedFill) : ℚ :=
  let delta := r.spent
  match payoutFor settlements r.1.outcomeId r.2.ts with
  | some payout => delta - payout * r.2.qty
  | none => delta

/-- `_cash_deltas`. -/
def cashDeltas (db : PaperTables) (settlements : Dict OutcomeId (List (ℚ × ℚ))) :
    Dict BalanceKey ℚ :=
  Dict.totals BookedFill.balanceKey (cashDelta settlements) db.voidedFills

/-! ## The updates -/

/-- One `UPDATE paper_balance`: a key that has no row is left without one. -/
def addToBalance (balances : Dict BalanceKey ℚ) (k : BalanceKey) (d : ℚ) : Dict BalanceKey ℚ :=
  match balances.get? k with
  | some amount => balances.set k (amount + d)
  | none => balances

/-- `_apply_cash`. -/
def applyCash (db : PaperTables) (deltas : Dict BalanceKey ℚ) (sign : ℚ) : PaperTables :=
  { db with
    balances := deltas.entries.foldl (fun b entry => addToBalance b entry.1 (sign * entry.2))
      db.balances }

/-- One turn of `_rebuild_open_positions`, from the quantities and prices of
the fills that survive. -/
def rebuildPosition (surviving : Dict PositionKey (List (ℚ × ℚ)))
    (positions : Dict PositionKey PositionRow) (k : PositionKey) : Dict PositionKey PositionRow :=
  let fills := surviving.getD k []
  let totalQty := (fills.map Prod.fst).sum
  if totalQty ≤ 0 then positions.erase k
  else
    let cost := (fills.map fun f => f.1 * f.2).sum
    match positions.get? k with
    | some row => positions.set k { row with qty := totalQty, avgPrice := cost / totalQty }
    | none => positions

/-- `_rebuild_open_positions`. -/
def rebuildOpenPositions (db : PaperTables) : PaperTables :=
  let surviving := Dict.gather BookedFill.positionKey (fun r => (r.2.qty, r.2.price))
    db.survivingFills
  let openPositions := (db.positions.entries.filter fun e => e.2.qty ≠ 0).map Prod.fst
  { db with positions := openPositions.foldl (rebuildPosition surviving) db.positions }

/-- `UPDATE paper_ticket SET excluded_reason = NULL`. -/
def clearExcluded (db : PaperTables) : PaperTables :=
  { db with tickets := db.tickets.map fun t => { t with excludedReason := none } }

end PaperTables

namespace OutageWindow

/-- `REASON`. -/
def reason : String := "polymarket_outage_2026-09-05"

/-- `WINDOW_START`, 2026-09-05 17:00:00 UTC. -/
def windowStart : ℚ := 1788627600

/-- `WINDOW_END`, 2026-09-05 23:00:00 UTC. -/
def windowEnd : ℚ := 1788649200

/-- The tickets the window takes in. -/
def inWindow (t : PaperTicket) : Bool :=
  decide (windowStart ≤ t.submittedAt) && decide (t.submittedAt < windowEnd)

/-- The `UPDATE` that flags them. -/
def flag (db : PaperTables) : PaperTables :=
  { db with
    tickets := db.tickets.map fun t =>
      if inWindow t then { t with excludedReason := some reason } else t }

/-- `upgrade`. The column it adds is null in every row. -/
def upgrade (db : PaperTables) : PaperTables :=
  let db := flag db.clearExcluded
  let db := db.applyCash (db.cashDeltas db.settlementMap) 1
  let db := db.rebuildOpenPositions
  { db with pnlSnapshots := db.pnlSnapshots.filter fun ts => ts < windowStart }

/-- `downgrade`. The column it drops has just been set to null. -/
def downgrade (db : PaperTables) : PaperTables :=
  let db := db.applyCash (db.cashDeltas db.settlementMap) (-1)
  db.clearExcluded.rebuildOpenPositions

end OutageWindow

/-! ## A history -/

namespace PositionRow

/-- A position after a buy: `_acquire`, and the fee carried. -/
def bought (row : PositionRow) (qty price fee : ℚ) : PositionRow :=
  let newQty := row.qty + qty
  { row with
    qty := newQty
    avgPrice := if 0 < newQty then (row.qty * row.avgPrice + qty * price) / newQty else 0
    openFees := row.openFees + fee }

/-- A position after its outcome settles. -/
def settled (row : PositionRow) (resolvedValue : ℚ) : PositionRow :=
  if row.qty = 0 then row
  else
    let share := AccountState.feeShare row.openFees row.qty row.qty
    { qty := 0
      avgPrice := 0
      realizedPnl := row.realizedPnl + ((resolvedValue - row.avgPrice) * row.qty - share)
      openFees := row.openFees - share }

end PositionRow

section Broker

variable (st : AccountState) (v : VenueId) (o : OutcomeId)

/-- A buy does to the stored row what it does to the broker's account. -/
theorem AccountState.row_bookFill (qty px fee : ℚ) :
    (st.bookFill v o true qty px fee).row o = (st.row o).bought qty px fee ∧
      (st.bookFill v o true qty px fee).cash v = st.cash v - (px * qty + fee) := by
  have m := movement_buy st v o qty px fee
  constructor
  · rw [row, m.qty, m.avg, m.realizedOn, m.openFees, add_zero]
    rfl
  · rw [m.cash, sub_eq_add_neg]

/-- So does a settlement. -/
theorem AccountState.row_settle (value : ℚ) :
    (st.settle v o value).row o = (st.row o).settled value ∧
      (st.settle v o value).cash v = st.cash v + value * st.qty o := by
  refine ⟨?_, cash_settle st v o value⟩
  by_cases hqty : st.qty o = 0
  · rw [settle_of_qty_zero hqty, PositionRow.settled, if_pos (show (st.row o).qty = 0 from hqty)]
  · have m := movement_settle st v o value hqty
    rw [PositionRow.settled, if_neg (show (st.row o).qty ≠ 0 from hqty), row, m.qty, m.avg,
      m.realizedOn, m.openFees]
    rfl

end Broker

/-- What is written to the paper tables. A settlement row has no venue: an
outcome is one venue's. A `credit` is a funding or a side of a sweep. -/
inductive LedgerEvent where
  | ticket (t : PaperTicket)
  | reject (o : PaperOrder)
  | buy (o : PaperOrder) (f : StampedFill)
  | settle (row : PaperSettlement)
  | credit (k : BalanceKey) (amount : ℚ)

namespace LedgerEvent

def tickets : LedgerEvent → List PaperTicket
  | .ticket t => [t]
  | _ => []

def orders : LedgerEvent → List PaperOrder
  | .reject o => [o]
  | .buy o _ => [o]
  | _ => []

def booked : LedgerEvent → List BookedFill
  | .buy o f => [(o, f)]
  | _ => []

def settlements : LedgerEvent → List PaperSettlement
  | .settle row => [row]
  | _ => []

/-- What an event adds to a balance beside the trading. -/
def credited : LedgerEvent → BalanceKey → ℚ
  | .credit k amount, j => if j = k then amount else 0
  | _, _ => 0

end LedgerEvent

namespace PaperTables

/-- The positions a settlement closes. -/
def holders (db : PaperTables) (o : OutcomeId) : List (PositionKey × PositionRow) :=
  db.positions.entries.filter fun e => decide (e.1.2.2 = o) && decide (e.2.qty ≠ 0)

def step (db : PaperTables) : LedgerEvent → PaperTables
  | .ticket t => { db with tickets := db.tickets ++ [t] }
  | .reject o => { db with orders := db.orders ++ [o] }
  | .buy o f =>
      let k := (o.accountId, o.venueId)
      let pk := (o.accountId, o.venueId, o.outcomeId)
      { db with
        orders := db.orders ++ [o]
        fills := db.fills ++ [f]
        balances := db.balances.set k (db.balances.getD k 0 - (f.price * f.qty + f.fee))
        positions := db.positions.set pk ((db.positions.getD pk {}).bought f.qty f.price f.fee) }
  | .settle row =>
      { db with
        settlements := db.settlements ++ [row]
        -- paid to whoever holds the outcome when its row comes
        balances := (db.holders row.outcomeId).foldl (fun b e =>
          b.set (e.1.1, e.1.2.1) (b.getD (e.1.1, e.1.2.1) 0 + row.resolvedValue * e.2.qty))
          db.balances
        positions := db.positions.mapVal fun k held =>
          if k.2.2 = row.outcomeId then held.settled row.resolvedValue else held }
  | .credit k amount =>
      { db with balances := db.balances.set k (db.balances.getD k 0 + amount) }

abbrev run (db : PaperTables) (es : List LedgerEvent) : PaperTables := Runs.run step db es

/-- The tables of accounts that have been funded and have not traded. -/
def opened (balances : Dict BalanceKey ℚ) : PaperTables := { balances := balances }

end PaperTables

/-! ### What a history is -/

namespace LedgerEvent

/-- A fill is of its order, and of something; a ticket is counted when it is
written. -/
def Sound (e : LedgerEvent) : Prop :=
  (∀ r ∈ e.booked, r.2.orderId = r.1.id ∧ 0 < r.2.qty) ∧
    ∀ t ∈ e.tickets, t.excludedReason = none

/-- The keys are primary, the settlements come in the order of their `ts`, and
a fill comes after the settlements of its outcome that are before it. -/
structure Precedes (e e' : LedgerEvent) : Prop where
  tickets : ∀ t ∈ e.tickets, ∀ t' ∈ e'.tickets, t.id ≠ t'.id
  orders : ∀ o ∈ e.orders, ∀ o' ∈ e'.orders, o.id ≠ o'.id
  settled : ∀ row ∈ e.settlements, ∀ row' ∈ e'.settlements, row.ts ≤ row'.ts
  bought : ∀ r ∈ e.booked, ∀ row ∈ e'.settlements, r.1.outcomeId = row.outcomeId →
    r.2.ts ≤ row.ts
  reopened : ∀ row ∈ e.settlements, ∀ r ∈ e'.booked, r.1.outcomeId = row.outcomeId →
    row.ts < r.2.ts

instance (e : LedgerEvent) : Decidable e.Sound :=
  inferInstanceAs (Decidable (_ ∧ _))

instance : DecidableRel Precedes := fun _ _ =>
  decidable_of_iff (_ ∧ _ ∧ _ ∧ _ ∧ _)
    ⟨fun h => ⟨h.1, h.2.1, h.2.2.1, h.2.2.2.1, h.2.2.2.2⟩,
      fun h => ⟨h.tickets, h.orders, h.settled, h.bought, h.reopened⟩⟩

end LedgerEvent

/-- The events of a ledger, in the order they were written. -/
structure History (es : List LedgerEvent) : Prop where
  sound : ∀ e ∈ es, e.Sound
  order : es.Pairwise LedgerEvent.Precedes

instance (es : List LedgerEvent) : Decidable (History es) :=
  decidable_of_iff (_ ∧ _) ⟨fun h => ⟨h.1, h.2⟩, fun h => ⟨h.sound, h.order⟩⟩

namespace History

variable {es es' : List LedgerEvent} {e : LedgerEvent}

theorem sublist (h : History es) (hsub : es'.Sublist es) : History es' :=
  ⟨fun e he => h.sound e (hsub.subset he), h.order.sublist hsub⟩

theorem left (h : History (es ++ es')) : History es := h.sublist (List.sublist_append_left ..)

/-- What the last event of a history comes after. -/
theorem last (h : History (es ++ [e])) : e.Sound ∧ ∀ e' ∈ es, e'.Precedes e :=
  ⟨h.sound e (by simp), fun e' he' =>
    (List.pairwise_append.mp h.order).2.2 e' he' e List.mem_cons_self⟩

end History

abbrev bookedIn (es : List LedgerEvent) : List BookedFill := es.flatMap LedgerEvent.booked

abbrev settlementsIn (es : List LedgerEvent) : List PaperSettlement :=
  es.flatMap LedgerEvent.settlements

abbrev ticketsIn (es : List LedgerEvent) : List PaperTicket := es.flatMap LedgerEvent.tickets

abbrev ordersIn (es : List LedgerEvent) : List PaperOrder := es.flatMap LedgerEvent.orders

theorem bookedIn_append (es es' : List LedgerEvent) :
    bookedIn (es ++ es') = bookedIn es ++ bookedIn es' := List.flatMap_append

theorem ordersIn_append (es es' : List LedgerEvent) :
    ordersIn (es ++ es') = ordersIn es ++ ordersIn es' := List.flatMap_append

theorem ticketsIn_append (es es' : List LedgerEvent) :
    ticketsIn (es ++ es') = ticketsIn es ++ ticketsIn es' := List.flatMap_append

namespace PaperTables

/-- The rows a run appends. -/
theorem rows_run (db : PaperTables) (es : List LedgerEvent) :
    (db.run es).tickets = db.tickets ++ ticketsIn es ∧
      (db.run es).orders = db.orders ++ ordersIn es ∧
      (db.run es).fills = db.fills ++ (bookedIn es).map Prod.snd ∧
      (db.run es).settlements = db.settlements ++ settlementsIn es := by
  induction es generalizing db with
  | nil => simp
  | cons e es ih =>
      obtain ⟨htickets, horders, hfills, hsettlements⟩ := ih (db.step e)
      rw [run, Runs.run_cons]
      rw [run] at htickets horders hfills hsettlements
      rw [htickets, horders, hfills, hsettlements]
      cases e <;> simp [step, LedgerEvent.tickets, LedgerEvent.orders, LedgerEvent.booked,
        LedgerEvent.settlements]

/-- Payouts only depend on the settlements in the order of their `ts`. -/
def payoutOf (settlements : List PaperSettlement) (r : BookedFill) : Option ℚ :=
  ((settlements.filter fun row => row.outcomeId = r.1.outcomeId).find? fun row =>
    decide (r.2.ts ≤ row.ts)).map (·.resolvedValue)

/-- What a fill has cost so far, less what it was paid. -/
def netCost (settlements : List PaperSettlement) (r : BookedFill) : ℚ :=
  r.spent - (payoutOf settlements r).elim 0 (· * r.2.qty)

theorem cashDelta_settlementMap {db : PaperTables}
    (hsorted : db.settlements.Pairwise fun a b => a.ts ≤ b.ts) (r : BookedFill) :
    cashDelta db.settlementMap r = netCost db.settlements r := by
  have hsort : (db.settlements.mergeSort fun a b => decide (a.ts ≤ b.ts)) = db.settlements :=
    List.mergeSort_of_pairwise (hsorted.imp fun h => decide_eq_true h)
  have hpayout : payoutFor db.settlementMap r.1.outcomeId r.2.ts = payoutOf db.settlements r := by
    rw [payoutFor, settlementMap, Dict.getD_gather, hsort, List.find?_map, Option.map_map]
    rfl
  rw [cashDelta, hpayout, netCost]
  cases payoutOf db.settlements r with
  | none => simp
  | some payout => rfl

theorem payoutOf_concat (settlements : List PaperSettlement) (row : PaperSettlement)
    (r : BookedFill) :
    payoutOf (settlements ++ [row]) r = (payoutOf settlements r).or
      (if row.outcomeId = r.1.outcomeId ∧ r.2.ts ≤ row.ts then some row.resolvedValue
      else none) := by
  rw [payoutOf, List.filter_append, List.find?_append, Option.map_or, ← payoutOf]
  congr 1
  by_cases ho : row.outcomeId = r.1.outcomeId
  · by_cases ht : r.2.ts ≤ row.ts <;> simp [ho, ht]
  · simp [ho]

/-- A fill is open as long as no settlement has paid it. -/
def isOpen (settlements : List PaperSettlement) (r : BookedFill) : Bool :=
  (payoutOf settlements r).isNone

/-- The open fills of a position. -/
def openFills (settlements : List PaperSettlement) (live : List BookedFill) (k : PositionKey) :
    List BookedFill :=
  live.filter fun r => decide (r.positionKey = k) && isOpen settlements r

def totalQty (fills : List BookedFill) : ℚ := (fills.map fun r => r.2.qty).sum

def totalCost (fills : List BookedFill) : ℚ := (fills.map fun r => r.2.qty * r.2.price).sum

/-- The balances are what the fills in `live` leave of what was put in. -/
def CashFrom (base : BalanceKey → ℚ) (live : List BookedFill) (db : PaperTables) : Prop :=
  ∀ k, db.balances.getD k 0 = base k -
    ((live.filter fun r => r.balanceKey = k).map (netCost db.settlements)).sum

/-- A position is the open fills in `live`, at their average price. -/
structure HeldFrom (live : List BookedFill) (db : PaperTables) (k : PositionKey) : Prop where
  qty : (db.positions.getD k {}).qty = totalQty (openFills db.settlements live k)
  avg : (db.positions.getD k {}).avgPrice =
    totalCost (openFills db.settlements live k) / totalQty (openFills db.settlements live k)

/-! ### What a settlement does to the open fills -/

theorem isOpen_concat {settlements : List PaperSettlement} {row : PaperSettlement}
    {r : BookedFill} (hts : r.1.outcomeId = row.outcomeId → r.2.ts ≤ row.ts) :
    isOpen (settlements ++ [row]) r =
      (isOpen settlements r && decide (r.1.outcomeId ≠ row.outcomeId)) := by
  rw [isOpen, payoutOf_concat, isOpen]
  by_cases ho : r.1.outcomeId = row.outcomeId
  · have hcond : row.outcomeId = r.1.outcomeId ∧ r.2.ts ≤ row.ts := ⟨ho.symm, hts ho⟩
    rw [if_pos hcond]
    cases payoutOf settlements r <;> simp [ho]
  · rw [if_neg fun h => ho h.1.symm]
    cases payoutOf settlements r <;> simp [ho]

theorem netCost_concat (settlements : List PaperSettlement) {row : PaperSettlement}
    {r : BookedFill} (hts : r.1.outcomeId = row.outcomeId → r.2.ts ≤ row.ts) :
    netCost (settlements ++ [row]) r = netCost settlements r -
      if isOpen settlements r = true ∧ r.1.outcomeId = row.outcomeId then
        row.resolvedValue * r.2.qty
      else 0 := by
  rw [netCost, netCost, payoutOf_concat, isOpen]
  by_cases ho : r.1.outcomeId = row.outcomeId
  · have hcond : row.outcomeId = r.1.outcomeId ∧ r.2.ts ≤ row.ts := ⟨ho.symm, hts ho⟩
    rw [if_pos hcond]
    cases payoutOf settlements r <;> simp [ho]
  · rw [if_neg fun h => ho h.1.symm]
    cases payoutOf settlements r <;> simp [ho]

theorem openFills_concat {settlements : List PaperSettlement} {row : PaperSettlement}
    {live : List BookedFill}
    (hts : ∀ r ∈ live, r.1.outcomeId = row.outcomeId → r.2.ts ≤ row.ts) (k : PositionKey) :
    openFills (settlements ++ [row]) live k =
      if k.2.2 = row.outcomeId then [] else openFills settlements live k := by
  split
  · rename_i hk
    apply List.filter_eq_nil_iff.mpr
    intro r hr h
    obtain ⟨hkey, hopen⟩ := Bool.and_eq_true_iff.mp h
    rw [isOpen_concat (hts r hr)] at hopen
    have ho : r.1.outcomeId = k.2.2 := congrArg (·.2.2) (of_decide_eq_true hkey)
    simp [ho, hk] at hopen
  · rename_i hk
    apply List.filter_congr
    intro r hr
    rw [isOpen_concat (hts r hr)]
    by_cases hkey : r.positionKey = k
    · have ho : r.1.outcomeId ≠ row.outcomeId := by
        rw [show r.1.outcomeId = k.2.2 from congrArg (·.2.2) hkey]
        exact hk
      simp [ho]
    · simp [hkey]

/-- What a settlement pays into a balance is the value of the open fills of the
position it closes there. -/
theorem sum_netCost_concat {settlements : List PaperSettlement} {row : PaperSettlement}
    {live : List BookedFill}
    (hts : ∀ r ∈ live, r.1.outcomeId = row.outcomeId → r.2.ts ≤ row.ts) (k : BalanceKey) :
    ((live.filter fun r => r.balanceKey = k).map (netCost (settlements ++ [row]))).sum =
      ((live.filter fun r => r.balanceKey = k).map (netCost settlements)).sum -
        row.resolvedValue *
          totalQty (openFills settlements live (k.1, k.2, row.outcomeId)) := by
  induction live with
  | nil => simp [totalQty, openFills]
  | cons r live ih =>
      have hrest := ih fun r' hr' => hts r' (List.mem_cons_of_mem _ hr')
      have hr := netCost_concat settlements (hts r List.mem_cons_self)
      have hkey : r.positionKey = (k.1, k.2, row.outcomeId) ↔
          r.balanceKey = k ∧ r.1.outcomeId = row.outcomeId := by
        simp [BookedFill.positionKey, BookedFill.balanceKey, Prod.ext_iff, and_assoc]
      rw [openFills, List.filter_cons, List.filter_cons, ← openFills]
      by_cases hk : r.balanceKey = k
      · by_cases hopen : isOpen settlements r = true ∧ r.1.outcomeId = row.outcomeId
        · rw [if_pos hopen] at hr
          simp only [hk, hkey, hopen.1, hopen.2, decide_true, Bool.and_true, if_true, and_self,
            List.map_cons, List.sum_cons, hrest, hr, totalQty]
          ring
        · rw [if_neg hopen] at hr
          have hclosed : ¬ (decide (r.positionKey = (k.1, k.2, row.outcomeId)) &&
              isOpen settlements r) = true := by
            rw [Bool.and_eq_true, decide_eq_true_eq, hkey]
            exact fun h => hopen ⟨h.2, h.1.2⟩
          rw [if_neg hclosed]
          simp only [hk, decide_true, if_true, List.map_cons, List.sum_cons, hrest, hr]
          ring
      · have hother : ¬ r.positionKey = (k.1, k.2, row.outcomeId) := fun h => hk (hkey.mp h).1
        simp only [hk, hother, decide_false, Bool.false_and, Bool.false_eq_true, if_false, hrest]

/-! ### The invariant -/

theorem mem_settlementsIn {es : List LedgerEvent} {row : PaperSettlement} :
    row ∈ settlementsIn es ↔ ∃ e ∈ es, row ∈ e.settlements := List.mem_flatMap

theorem mem_bookedIn {es : List LedgerEvent} {r : BookedFill} :
    r ∈ bookedIn es ↔ ∃ e ∈ es, r ∈ e.booked := List.mem_flatMap

/-- The tables after `past`, where the fills that count are those in `live`. -/
structure LedgerOf (base : BalanceKey → ℚ) (past : List LedgerEvent) (live : List BookedFill)
    (db : PaperTables) : Prop where
  settlements : db.settlements = settlementsIn past
  booked : ∀ r ∈ live, r ∈ bookedIn past
  funded : ∀ r ∈ bookedIn past, (db.balances.get? r.balanceKey).isSome = true
  cash : CashFrom base live db
  held : ∀ k, HeldFrom live db k

variable {base : BalanceKey → ℚ} {past : List LedgerEvent} {live : List BookedFill}
  {db : PaperTables} {e : LedgerEvent} {k : PositionKey}

theorem totalQty_append (a b : List BookedFill) : totalQty (a ++ b) = totalQty a + totalQty b := by
  simp [totalQty]

theorem totalCost_append (a b : List BookedFill) :
    totalCost (a ++ b) = totalCost a + totalCost b := by
  simp [totalCost]

/-- No fills, no quantity, and no cost either. -/
theorem totalQty_pos_or {fills : List BookedFill} (h : ∀ r ∈ fills, 0 < r.2.qty) :
    fills = [] ∨ 0 < totalQty fills := by
  cases fills with
  | nil => exact .inl rfl
  | cons r fills =>
      right
      rw [totalQty, List.map_cons, List.sum_cons]
      have hrest : 0 ≤ (fills.map fun r => r.2.qty).sum := by
        apply List.sum_nonneg
        intro q hq
        obtain ⟨r', hr', rfl⟩ := List.mem_map.mp hq
        exact (h r' (List.mem_cons_of_mem _ hr')).le
      have hr := h r List.mem_cons_self
      linarith

theorem totalQty_openFills_nonneg (hsound : ∀ r ∈ live, 0 < r.2.qty)
    (settlements : List PaperSettlement) (k : PositionKey) :
    0 ≤ totalQty (openFills settlements live k) := by
  have hopen : ∀ r ∈ openFills settlements live k, 0 < r.2.qty := fun r hr =>
    hsound r (List.mem_filter.mp hr).1
  rcases totalQty_pos_or hopen with hnone | hpos
  · rw [hnone]
    exact le_rfl
  · exact hpos.le

/-- A position that holds nothing has no average. -/
theorem HeldFrom.avg_zero (h : HeldFrom live db k) (hqty : (db.positions.getD k {}).qty = 0) :
    (db.positions.getD k {}).avgPrice = 0 := by
  rw [h.avg, ← h.qty, hqty, div_zero]

theorem qty_pos_of_booked {es : List LedgerEvent} (h : History es) {r : BookedFill}
    (hr : r ∈ bookedIn es) : 0 < r.2.qty := by
  obtain ⟨e, he, hre⟩ := mem_bookedIn.mp hr
  exact ((h.sound e he).1 r hre).2

/-- A buy has not been paid when it is booked. -/
theorem payoutOf_new (hes : History (past ++ [e])) {r : BookedFill} (hr : r ∈ e.booked) :
    payoutOf (settlementsIn past) r = none := by
  rw [payoutOf, Option.map_eq_none_iff]
  apply List.find?_eq_none.mpr
  intro row hrow hpaid
  obtain ⟨hmem, ho⟩ := List.mem_filter.mp hrow
  obtain ⟨e', he', hrow'⟩ := mem_settlementsIn.mp hmem
  have hlate := (hes.last.2 e' he').reopened row hrow' r hr (of_decide_eq_true ho).symm
  exact absurd (of_decide_eq_true hpaid) (not_le.mpr hlate)

/-- A settlement is no earlier than the fills of its outcome. -/
theorem ts_le_of_settle {row : PaperSettlement} (hes : History (past ++ [.settle row]))
    {r : BookedFill} (hr : r ∈ bookedIn past) (ho : r.1.outcomeId = row.outcomeId) :
    r.2.ts ≤ row.ts := by
  obtain ⟨e', he', hre⟩ := mem_bookedIn.mp hr
  exact (hes.last.2 e' he').bought r hre row List.mem_cons_self ho

theorem sorted_settlementsIn {es : List LedgerEvent} (hes : History es) :
    (settlementsIn es).Pairwise fun a b => a.ts ≤ b.ts := by
  apply List.pairwise_flatMap.mpr
  constructor
  · intro e _
    cases e <;> simp [LedgerEvent.settlements]
  · exact hes.order.imp fun h => h.settled

theorem openFills_append (settlements : List PaperSettlement) (a b : List BookedFill) :
    openFills settlements (a ++ b) k = openFills settlements a k ++ openFills settlements b k :=
  List.filter_append ..

/-- Events that neither trade nor settle leave the positions. -/
theorem HeldFrom.congr {db' : PaperTables} (h : HeldFrom live db k)
    (hsett : db'.settlements = db.settlements) (hpos : db'.positions = db.positions) :
    HeldFrom live db' k := by
  constructor
  · rw [hpos, hsett, h.qty]
  · rw [hpos, hsett, h.avg]

theorem HeldFrom.buy {o : PaperOrder} {f : StampedFill} (hes : History (past ++ [.buy o f]))
    (hsett : db.settlements = settlementsIn past) (hlive : ∀ r ∈ live, r ∈ bookedIn past)
    (h : HeldFrom live db k) : HeldFrom (live ++ [(o, f)]) (db.step (.buy o f)) k := by
  let r : BookedFill := (o, f)
  -- a fill is open when it comes: no settlement of its outcome follows it yet
  have hopen : isOpen db.settlements r = true := by
    rw [isOpen, hsett, payoutOf_new hes List.mem_cons_self, Option.isNone_none]
  have hqty : 0 < f.qty := (hes.last.1.1 r List.mem_cons_self).2
  have hpositive : ∀ r' ∈ openFills db.settlements live k, 0 < r'.2.qty := fun r' hr' =>
    qty_pos_of_booked hes.left (hlive r' (List.mem_filter.mp hr').1)
  by_cases hk : k = r.positionKey
  · have hfills : openFills db.settlements (live ++ [r]) k =
        openFills db.settlements live k ++ [r] := by
      rw [openFills_append]
      congr 1
      exact List.filter_cons_of_pos (by simp [hk, hopen])
    have hrow : (db.step (.buy o f)).positions.getD k {} =
        (db.positions.getD k {}).bought f.qty f.price f.fee := by
      rw [hk]
      exact Dict.getD_set_self ..
    have hnonneg : 0 ≤ totalQty (openFills db.settlements live k) :=
      totalQty_openFills_nonneg (fun r' hr' => qty_pos_of_booked hes.left (hlive r' hr')) _ k
    -- quantity times average is the cost of the open fills, also of none
    have hcost : (db.positions.getD k {}).qty * (db.positions.getD k {}).avgPrice =
        totalCost (openFills db.settlements live k) := by
      rw [h.avg, h.qty]
      rcases totalQty_pos_or hpositive with hnone | hpos
      · rw [hnone]
        simp [totalQty, totalCost]
      · exact mul_div_cancel₀ _ hpos.ne'
    have hnew : 0 < (db.positions.getD k {}).qty + f.qty := by
      rw [h.qty]
      linarith
    constructor
    · rw [hrow]
      show (db.positions.getD k {}).qty + f.qty = totalQty (openFills db.settlements _ k)
      rw [hfills, totalQty_append, h.qty]
      simp [totalQty, r]
    · rw [hrow]
      show (if 0 < (db.positions.getD k {}).qty + f.qty then _ else (0 : ℚ)) =
        totalCost (openFills db.settlements _ k) / totalQty (openFills db.settlements _ k)
      rw [if_pos hnew, hfills, hcost, totalCost_append, totalQty_append, h.qty]
      simp [totalQty, totalCost, r]
  · have hfills : openFills db.settlements (live ++ [r]) k = openFills db.settlements live k := by
      rw [openFills_append]
      have hnone : openFills db.settlements [r] k = [] :=
        List.filter_cons_of_neg (by simp [Ne.symm hk])
      rw [hnone, List.append_nil]
    have hrow : (db.step (.buy o f)).positions.getD k {} = db.positions.getD k {} :=
      Dict.getD_set_ne _ hk _ _
    constructor
    · rw [hrow, h.qty]
      exact congrArg totalQty hfills.symm
    · rw [hrow, h.avg]
      exact congrArg (fun fills => totalCost fills / totalQty fills) hfills.symm

/-- A row after its outcome settles. -/
theorem getD_settle (row : PaperSettlement) :
    (db.step (.settle row)).positions.getD k {} =
      if k.2.2 = row.outcomeId then (db.positions.getD k {}).settled row.resolvedValue
      else db.positions.getD k {} := by
  show (Dict.mapVal _ db.positions).getD k ({} : PositionRow) = _
  rw [Dict.getD, Dict.getD, Dict.get?_mapVal]
  cases db.positions.get? k with
  | none =>
      have hempty : ({} : PositionRow).settled row.resolvedValue = {} := if_pos rfl
      simp [hempty]
  | some held => rfl

theorem HeldFrom.settle {row : PaperSettlement} (hes : History (past ++ [.settle row]))
    (hlive : ∀ r ∈ live, r ∈ bookedIn past) (h : HeldFrom live db k) :
    HeldFrom live (db.step (.settle row)) k := by
  have hfills : openFills (db.step (.settle row)).settlements live k =
      if k.2.2 = row.outcomeId then [] else openFills db.settlements live k :=
    openFills_concat (fun r hr => ts_le_of_settle hes (hlive r hr)) k
  by_cases hk : k.2.2 = row.outcomeId
  · rw [if_pos hk] at hfills
    by_cases hqty : (db.positions.getD k {}).qty = 0
    · have hrow : (db.step (.settle row)).positions.getD k {} = db.positions.getD k {} := by
        rw [getD_settle, if_pos hk, PositionRow.settled, if_pos hqty]
      constructor
      · rw [hrow, hfills, hqty]
        rfl
      · rw [hrow, hfills, h.avg_zero hqty]
        exact (div_zero _).symm
    · have hrow : (db.step (.settle row)).positions.getD k {} =
          (db.positions.getD k {}).settled row.resolvedValue := by
        rw [getD_settle, if_pos hk]
      rw [PositionRow.settled, if_neg hqty] at hrow
      constructor
      · rw [hrow, hfills]
        rfl
      · rw [hrow, hfills]
        exact (div_zero _).symm
  · rw [if_neg hk] at hfills
    have hrow : (db.step (.settle row)).positions.getD k {} = db.positions.getD k {} := by
      rw [getD_settle, if_neg hk]
    constructor
    · rw [hrow, hfills, h.qty]
    · rw [hrow, hfills, h.avg]

/-- **A position over one event.** -/
theorem HeldFrom.step (hes : History (past ++ [e])) (hsett : db.settlements = settlementsIn past)
    (hlive : ∀ r ∈ live, r ∈ bookedIn past) (h : HeldFrom live db k) :
    HeldFrom (live ++ e.booked) (db.step e) k := by
  cases e with
  | buy o f => exact h.buy hes hsett hlive
  | settle row =>
      rw [show live ++ (LedgerEvent.settle row).booked = live from List.append_nil live]
      exact h.settle hes hlive
  | ticket t =>
      rw [show live ++ (LedgerEvent.ticket t).booked = live from List.append_nil live]
      exact h.congr rfl rfl
  | reject o =>
      rw [show live ++ (LedgerEvent.reject o).booked = live from List.append_nil live]
      exact h.congr rfl rfl
  | credit j amount =>
      rw [show live ++ (LedgerEvent.credit j amount).booked = live from List.append_nil live]
      exact h.congr rfl rfl

/-- What a settlement pays into a balance. -/
theorem getD_paid (row : PaperSettlement) (k : BalanceKey) :
    (db.step (.settle row)).balances.getD k 0 = db.balances.getD k 0 +
      row.resolvedValue * (db.positions.getD (k.1, k.2, row.outcomeId) {}).qty := by
  let pk : PositionKey := (k.1, k.2, row.outcomeId)
  let paid : PositionKey → PositionRow → ℚ := fun _ held => row.resolvedValue * held.qty
  have hsum : (((db.holders row.outcomeId).filter fun e => (e.1.1, e.1.2.1) = k).map
      fun e => paid e.1 e.2).sum = Dict.contrib paid db.positions pk := by
    rw [holders, List.filter_filter]
    apply Dict.sum_filter_entries
    · intro e _ he
      simp only [Bool.and_eq_true, decide_eq_true_eq] at he
      obtain ⟨rfl, ho, -⟩ := he
      exact Prod.ext rfl (Prod.ext rfl ho)
    · intro held _ hclosed
      have hqty : held.qty = 0 := by simpa [pk] using hclosed
      simp [paid, hqty]
  have hone : Dict.contrib paid db.positions pk = row.resolvedValue *
      (db.positions.getD pk {}).qty := Dict.contrib_eq_getD (mul_zero _)
  rw [← hone, ← hsum]
  exact Dict.getD_foldl_add (fun e : PositionKey × PositionRow => (e.1.1, e.1.2.1))
    (fun e => row.resolvedValue * e.2.qty) db.balances (db.holders row.outcomeId) k

/-- **The balances over one event.** -/
theorem CashFrom.step (hes : History (past ++ [e])) (hsett : db.settlements = settlementsIn past)
    (hlive : ∀ r ∈ live, r ∈ bookedIn past) (hheld : ∀ k, HeldFrom live db k)
    (h : CashFrom base live db) :
    CashFrom (fun k => base k + e.credited k) (live ++ e.booked) (db.step e) := by
  intro k
  cases e with
  | buy o f =>
      -- a new fill costs in full, having no payout yet
      have hcost : netCost db.settlements (o, f) = f.qty * f.price + f.fee := by
        rw [netCost, hsett, payoutOf_new hes List.mem_cons_self]
        exact sub_zero _
      show (db.balances.set (o.accountId, o.venueId) _).getD k 0 = _
      rw [Dict.getD_set, LedgerEvent.booked, List.filter_append, List.map_append, List.sum_append]
      show _ = base k + 0 - (((live.filter _).map (netCost db.settlements)).sum +
        ((List.filter _ [(o, f)]).map (netCost db.settlements)).sum)
      by_cases hk : k = (o.accountId, o.venueId)
      · have hmine : List.filter (fun r : BookedFill => r.balanceKey = k) [(o, f)] = [(o, f)] :=
          List.filter_cons_of_pos (by simp [BookedFill.balanceKey, hk])
        rw [if_pos hk, ← hk, h k, hmine, List.map_singleton, List.sum_singleton, hcost]
        ring
      · have hmine : List.filter (fun r : BookedFill => r.balanceKey = k) [(o, f)] = [] :=
          List.filter_cons_of_neg (by simp [BookedFill.balanceKey, Ne.symm hk])
        rw [if_neg hk, h k, hmine, List.map_nil, List.sum_nil]
        ring
  | settle row =>
      rw [getD_paid, h k, (hheld _).qty,
        show live ++ (LedgerEvent.settle row).booked = live from List.append_nil live]
      show _ = base k + 0 - ((live.filter _).map (netCost (db.settlements ++ [row]))).sum
      rw [sum_netCost_concat (fun r hr => ts_le_of_settle hes (hlive r hr)) k]
      ring
  | ticket t =>
      rw [show live ++ (LedgerEvent.ticket t).booked = live from List.append_nil live]
      show _ = base k + 0 - _
      rw [add_zero]
      exact h k
  | reject o =>
      rw [show live ++ (LedgerEvent.reject o).booked = live from List.append_nil live]
      show _ = base k + 0 - _
      rw [add_zero]
      exact h k
  | credit j amount =>
      rw [show live ++ (LedgerEvent.credit j amount).booked = live from List.append_nil live]
      show (db.balances.set j _).getD k 0 = base k + (if k = j then amount else 0) - _
      rw [Dict.getD_set]
      by_cases hk : k = j
      · rw [if_pos hk, if_pos hk, ← hk, h k]
        show _ = base k + amount - ((live.filter _).map (netCost db.settlements)).sum
        ring
      · rw [if_neg hk, if_neg hk, h k, add_zero]
        rfl

/-- No event takes a balance row away. -/
theorem mem_keys_step {k : BalanceKey} (h : k ∈ db.balances.keys) (e : LedgerEvent) :
    k ∈ (db.step e).balances.keys := by
  cases e with
  | ticket t => exact h
  | reject o => exact h
  | buy o f => exact Dict.mem_keys_set.mpr (.inr h)
  | credit j amount => exact Dict.mem_keys_set.mpr (.inr h)
  | settle row =>
      apply (Dict.mem_keys_foldl_set (fun e : PositionKey × PositionRow => (e.1.1, e.1.2.1))
        (fun total e => total + row.resolvedValue * e.2.qty) 0).mpr
      exact .inl h

/-- **The tables over one event.** -/
theorem LedgerOf.step (hes : History (past ++ [e])) (h : LedgerOf base past live db) :
    LedgerOf (fun k => base k + e.credited k) (past ++ [e]) (live ++ e.booked) (db.step e) := by
  have hpast : bookedIn (past ++ [e]) = bookedIn past ++ e.booked := by
    rw [bookedIn_append, bookedIn, bookedIn, List.flatMap_singleton]
  constructor
  · rw [show (db.step e).settlements = db.settlements ++ settlementsIn [e] from
      (rows_run db [e]).2.2.2, h.settlements]
    exact List.flatMap_append.symm
  · intro r hr
    rw [hpast]
    rcases List.mem_append.mp hr with hr | hr
    · exact List.mem_append_left _ (h.booked r hr)
    · exact List.mem_append_right _ hr
  · intro r hr
    rw [hpast] at hr
    apply Dict.mem_keys_iff.mp
    rcases List.mem_append.mp hr with hr | hr
    · exact mem_keys_step (Dict.mem_keys_iff.mpr (h.funded r hr)) e
    · cases e with
      | buy o f =>
          rw [List.mem_singleton.mp hr]
          exact Dict.mem_keys_set.mpr (.inl rfl)
      | _ => cases hr
  · exact h.cash.step hes h.settlements h.booked h.held
  · exact fun k => (h.held k).step hes h.settlements h.booked

/-- What the events put into a balance. -/
def creditedIn (es : List LedgerEvent) (k : BalanceKey) : ℚ := (es.map (·.credited k)).sum

/-- **The tables over a run.** -/
theorem LedgerOf.run {es : List LedgerEvent} (hes : History (past ++ es))
    (h : LedgerOf base past live db) :
    LedgerOf (fun k => base k + creditedIn es k) (past ++ es) (live ++ bookedIn es)
      (db.run es) := by
  induction es generalizing base past live db with
  | nil => simpa [creditedIn, run] using h
  | cons e es ih =>
      rw [List.append_cons] at hes ⊢
      have hrest := ih hes (h.step hes.left)
      have hbase : (fun k => base k + e.credited k + creditedIn es k) =
          fun k => base k + creditedIn (e :: es) k := by
        funext k
        rw [creditedIn, creditedIn, List.map_cons, List.sum_cons, add_assoc]
      rw [hbase, List.append_assoc live, ← List.flatMap_cons] at hrest
      exact hrest

theorem ledgerOf_opened (balances : Dict BalanceKey ℚ) :
    LedgerOf (fun k => balances.getD k 0) [] [] (opened balances) where
  settlements := rfl
  booked := fun _ hr => by cases hr
  funded := fun _ hr => by cases hr
  cash := fun k => by simp [opened]
  held := fun k => ⟨rfl, (div_zero _).symm⟩

/-- **The tables of a history.** -/
theorem ledgerOf_run (balances : Dict BalanceKey ℚ) {es : List LedgerEvent} (hes : History es) :
    LedgerOf (fun k => balances.getD k 0 + creditedIn es k) es (bookedIn es)
      ((opened balances).run es) :=
  (ledgerOf_opened balances).run (show History ([] ++ es) from hes)

theorem mem_openFills {settlements : List PaperSettlement} {live : List BookedFill}
    {k : PositionKey} {r : BookedFill} :
    r ∈ openFills settlements live k ↔
      r ∈ live ∧ r.positionKey = k ∧ isOpen settlements r = true := by
  rw [openFills, List.mem_filter, Bool.and_eq_true, decide_eq_true_eq]

/-- A position holds nothing exactly if no fill behind it is open. -/
theorem LedgerOf.qty_eq_zero_iff (hes : History past) (h : LedgerOf base past live db) :
    (db.positions.getD k {}).qty = 0 ↔ openFills (settlementsIn past) live k = [] := by
  have hpositive : ∀ r ∈ openFills (settlementsIn past) live k, 0 < r.2.qty := fun r hr =>
    qty_pos_of_booked hes (h.booked r (mem_openFills.mp hr).1)
  rw [(h.held k).qty, h.settlements]
  constructor
  · intro hzero
    rcases totalQty_pos_or hpositive with hnone | hpos
    · exact hnone
    · exact absurd hzero hpos.ne'
  · intro hnone
    rw [hnone]
    rfl

/-- Tables with the same fills behind a position hold the same. -/
theorem HeldFrom.agree {db db' : PaperTables} {live : List BookedFill} {k : PositionKey}
    (h : HeldFrom live db k) (h' : HeldFrom live db' k)
    (hsett : db.settlements = db'.settlements) :
    (db.positions.getD k {}).qty = (db'.positions.getD k {}).qty ∧
      (db.positions.getD k {}).avgPrice = (db'.positions.getD k {}).avgPrice := by
  rw [h.qty, h.avg, h'.qty, h'.avg, hsett]
  exact ⟨rfl, rfl⟩

/-! ## The queries over a history -/

variable {es : List LedgerEvent}

theorem nodup_orderIds (hes : History es) : ((ordersIn es).map (·.id)).Nodup := by
  apply List.pairwise_map.mpr
  apply List.pairwise_flatMap.mpr
  constructor
  · intro e _
    cases e <;> simp [LedgerEvent.orders]
  · exact hes.order.imp fun h => h.orders

theorem nodup_ticketIds (hes : History es) : ((ticketsIn es).map (·.id)).Nodup := by
  apply List.pairwise_map.mpr
  apply List.pairwise_flatMap.mpr
  constructor
  · intro e _
    cases e <;> simp [LedgerEvent.tickets]
  · exact hes.order.imp fun h => h.tickets

/-- The fills joined to their orders are what was bought. -/
theorem bookedFills_eq (hes : History es) (horders : db.orders = ordersIn es)
    (hfills : db.fills = (bookedIn es).map Prod.snd) : db.bookedFills = bookedIn es := by
  have hone : ∀ r ∈ bookedIn es,
      ((ordersIn es).filter fun o => o.id = r.2.orderId).map (fun o => (o, r.2)) = [r] := by
    intro r hr
    obtain ⟨e, he, hre⟩ := mem_bookedIn.mp hr
    have hid := ((hes.sound e he).1 r hre).1
    have hmem : r.1 ∈ ordersIn es := by
      apply List.mem_flatMap.mpr
      refine ⟨e, he, ?_⟩
      cases e with
      | buy o f => rw [List.mem_singleton.mp hre]; exact List.mem_cons_self
      | _ => cases hre
    have huniq : ∀ o ∈ ordersIn es, o.id = r.2.orderId → o = r.1 := fun o ho heq =>
      List.inj_on_of_nodup_map (nodup_orderIds hes) ho hmem (heq.trans hid)
    have hfind : (ordersIn es).find? (fun o => o.id = r.2.orderId) = some r.1 := by
      cases hf : (ordersIn es).find? fun o => o.id = r.2.orderId with
      | none => exact absurd (decide_eq_true hid.symm) (List.find?_eq_none.mp hf r.1 hmem)
      | some o =>
          have heq : o.id = r.2.orderId := by simpa using List.find?_some hf
          rw [huniq o (List.mem_of_find?_eq_some hf) heq]
    rw [OuterJoin.filter_eq_find? (nodup_orderIds hes).of_map, hfind]
    · rfl
    · intro o ho o' ho' h h'
      rw [huniq o ho (of_decide_eq_true h), huniq o' ho' (of_decide_eq_true h')]
  rw [bookedFills, hfills, horders, List.flatMap_map]
  calc (bookedIn es).flatMap (fun r =>
        ((ordersIn es).filter fun o => o.id = r.2.orderId).map fun o => (o, r.2))
      = (bookedIn es).flatMap fun r => [r] := List.flatMap_congr hone
    _ = bookedIn es := List.flatMap_singleton' _

section Tickets

variable (hids : (db.tickets.map (·.id)).Nodup)

include hids

theorem placedFor_unique (r : BookedFill) : ∀ t ∈ db.tickets, ∀ t' ∈ db.tickets,
    placedFor r t = true → placedFor r t' = true → t = t' := by
  intro t ht t' ht' h h'
  apply List.inj_on_of_nodup_map hids ht ht'
  exact Option.some.inj ((of_decide_eq_true h).symm.trans (of_decide_eq_true h'))

theorem voidedFills_eq : db.voidedFills = db.bookedFills.filter fun r =>
    db.tickets.any fun t =>
      placedFor r t && (t.excludedReason.isSome && decide (t.status = "filled")) :=
  OuterJoin.innerJoin_eq_filter hids.of_map (placedFor_unique hids)

theorem survivingFills_eq : db.survivingFills = db.bookedFills.filter fun r =>
    !(db.tickets.any fun t => placedFor r t && !t.excludedReason.isNone) :=
  OuterJoin.leftJoin_eq_filter (p := fun t : PaperTicket => t.excludedReason.isNone) hids.of_map
    (placedFor_unique hids)

end Tickets

/-! ## The updates, key by key -/

theorem get?_addToBalance (balances : Dict BalanceKey ℚ) (k j : BalanceKey) (d : ℚ) :
    (addToBalance balances k d).get? j =
      if j = k then (balances.get? j).map (· + d) else balances.get? j := by
  rw [addToBalance]
  by_cases hj : j = k
  · rw [if_pos hj, hj]
    cases h : balances.get? k with
    | none => simp [h]
    | some amount => simp
  · rw [if_neg hj]
    cases balances.get? k with
    | none => rfl
    | some amount => exact Dict.get?_set_ne _ hj _

theorem get?_applyCash (deltas : Dict BalanceKey ℚ) (sign : ℚ) (k : BalanceKey) :
    (db.applyCash deltas sign).balances.get? k =
      (db.balances.get? k).map (· + sign * deltas.getD k 0) := by
  obtain ⟨hin, hout⟩ := Dict.get?_foldl_local Prod.fst
    (fun (entry : BalanceKey × ℚ) old => old.map (· + sign * entry.2))
    (f := fun b entry => addToBalance b entry.1 (sign * entry.2))
    (fun b entry j => get?_addToBalance b entry.1 j _) deltas.nodup db.balances
  show (deltas.entries.foldl _ db.balances).get? k = _
  cases hk : deltas.get? k with
  | none =>
      have habsent : k ∉ deltas.entries.map Prod.fst := by
        intro h
        have hsome := Dict.mem_keys_iff.mp h
        rw [hk] at hsome
        cases hsome
      rw [hout k habsent, Dict.getD_of_get?_none hk]
      cases db.balances.get? k <;> simp
  | some d =>
      rw [hin (k, d) (Dict.mem_entries_iff.mpr hk), Dict.getD_of_get? hk]

/-- What the loop that rebuilds makes of an open position. -/
def rebuilt (surviving : Dict PositionKey (List (ℚ × ℚ))) (k : PositionKey)
    (old : Option PositionRow) : Option PositionRow :=
  let fills := surviving.getD k []
  if (fills.map Prod.fst).sum ≤ 0 then none
  else old.map fun row =>
    { row with
      qty := (fills.map Prod.fst).sum
      avgPrice := (fills.map fun f => f.1 * f.2).sum / (fills.map Prod.fst).sum }

theorem get?_rebuildPosition (surviving : Dict PositionKey (List (ℚ × ℚ)))
    (positions : Dict PositionKey PositionRow) (k j : PositionKey) :
    (rebuildPosition surviving positions k).get? j =
      if j = k then rebuilt surviving k (positions.get? j) else positions.get? j := by
  rw [rebuildPosition, rebuilt]
  by_cases hq : ((surviving.getD k []).map Prod.fst).sum ≤ 0
  · rw [if_pos hq, if_pos hq, Dict.get?_erase]
  · rw [if_neg hq, if_neg hq]
    by_cases hj : j = k
    · subst hj
      cases h : positions.get? j with
      | none => simp [h]
      | some row => simp
    · rw [if_neg hj]
      cases positions.get? k with
      | none => rfl
      | some row => exact Dict.get?_set_ne _ hj _

/-- **What is rebuilt**: the positions that hold something. -/
theorem get?_rebuild (db : PaperTables) (k : PositionKey) :
    db.rebuildOpenPositions.positions.get? k =
      if (db.positions.getD k {}).qty = 0 then db.positions.get? k
      else rebuilt (Dict.gather BookedFill.positionKey (fun r => (r.2.qty, r.2.price))
        db.survivingFills) k (db.positions.get? k) := by
  have hkeys : ((db.positions.entries.filter fun e => e.2.qty ≠ 0).map Prod.fst).Nodup :=
    db.positions.nodup.sublist (List.filter_sublist.map _)
  obtain ⟨hin, hout⟩ := Dict.get?_foldl_local id
    (rebuilt (Dict.gather BookedFill.positionKey (fun r => (r.2.qty, r.2.price))
      db.survivingFills))
    (fun positions k j => get?_rebuildPosition _ positions k j) (by rwa [List.map_id])
    db.positions
  have hopen : k ∈ (db.positions.entries.filter fun e => e.2.qty ≠ 0).map Prod.fst ↔
      (db.positions.getD k {}).qty ≠ 0 := by
    constructor
    · intro h
      obtain ⟨e, he, rfl⟩ := List.mem_map.mp h
      obtain ⟨hmem, hqty⟩ := List.mem_filter.mp he
      rw [Dict.getD_of_get? (Dict.mem_entries_iff.mp hmem)]
      exact of_decide_eq_true hqty
    · intro h
      cases hrow : db.positions.get? k with
      | none =>
          rw [Dict.getD_of_get?_none hrow] at h
          exact absurd rfl h
      | some row =>
          rw [Dict.getD_of_get? hrow] at h
          exact List.mem_map.mpr ⟨(k, row), List.mem_filter.mpr
            ⟨Dict.mem_entries_iff.mpr hrow, decide_eq_true h⟩, rfl⟩
  by_cases hqty : (db.positions.getD k {}).qty = 0
  · rw [if_pos hqty]
    exact hout k (by rw [List.map_id, hopen]; exact not_not_intro hqty)
  · rw [if_neg hqty]
    exact hin k (hopen.mpr hqty)

/-- A position that holds nothing is left alone. -/
theorem getD_rebuild_closed (h : (db.positions.getD k {}).qty = 0) :
    db.rebuildOpenPositions.positions.getD k {} = db.positions.getD k {} := by
  rw [Dict.getD, get?_rebuild, if_pos h, ← Dict.getD]

/-- One that holds something is what survives behind it, if none of that has
settled. -/
theorem heldFrom_rebuild (hsound : ∀ r ∈ db.survivingFills, 0 < r.2.qty)
    (hqty : (db.positions.getD k {}).qty ≠ 0)
    (hopen : ∀ r ∈ db.survivingFills, r.positionKey = k → isOpen db.settlements r = true) :
    HeldFrom db.survivingFills db.rebuildOpenPositions k := by
  have hfills : openFills db.settlements db.survivingFills k =
      db.survivingFills.filter fun r => r.positionKey = k := by
    apply List.filter_congr
    intro r hr
    by_cases hk : r.positionKey = k
    · simp [hk, hopen r hr hk]
    · simp [hk]
  have hpositive : ∀ r ∈ openFills db.settlements db.survivingFills k, 0 < r.2.qty :=
    fun r hr => hsound r (List.mem_filter.mp hr).1
  -- the query gathers by position, settled or not; here none is settled
  have hgather : (Dict.gather BookedFill.positionKey (fun r => (r.2.qty, r.2.price))
      db.survivingFills).getD k [] =
        (openFills db.settlements db.survivingFills k).map fun r => (r.2.qty, r.2.price) := by
    rw [Dict.getD_gather, hfills]
  obtain ⟨row, hrow⟩ : ∃ row, db.positions.get? k = some row := by
    cases hrow : db.positions.get? k with
    | none => exact absurd (by rw [Dict.getD_of_get?_none hrow]) hqty
    | some row => exact ⟨row, rfl⟩
  have hget := get?_rebuild db k
  rw [if_neg hqty, rebuilt, hgather, List.map_map, List.map_map, hrow] at hget
  change _ = if totalQty (openFills db.settlements db.survivingFills k) ≤ 0 then none
    else some { row with
      qty := totalQty (openFills db.settlements db.survivingFills k)
      avgPrice := totalCost (openFills db.settlements db.survivingFills k) /
        totalQty (openFills db.settlements db.survivingFills k) } at hget
  -- with nothing behind it the row goes, which reads as holding nothing
  rcases totalQty_pos_or hpositive with hnone | hpos
  · have hzero : totalQty (openFills db.settlements db.survivingFills k) = 0 := by
      rw [hnone]
      rfl
    rw [if_pos hzero.le] at hget
    constructor
    · rw [Dict.getD_of_get?_none hget]
      exact hzero.symm
    · rw [Dict.getD_of_get?_none hget]
      show 0 = _ / totalQty (openFills db.settlements db.survivingFills k)
      rw [hzero, div_zero]
  · rw [if_neg (not_le.mpr hpos)] at hget
    exact ⟨by rw [Dict.getD_of_get? hget]; rfl, by rw [Dict.getD_of_get? hget]; rfl⟩

/-- **What is handed back**: the net cost of the voided fills of each key. -/
theorem getD_applyCash {sign : ℚ} (hsorted : db.settlements.Pairwise fun a b => a.ts ≤ b.ts)
    (hfunded : ∀ r ∈ db.voidedFills, (db.balances.get? r.balanceKey).isSome = true)
    (k : BalanceKey) :
    (db.applyCash (db.cashDeltas db.settlementMap) sign).balances.getD k 0 =
      db.balances.getD k 0 + sign *
        ((db.voidedFills.filter fun r => r.balanceKey = k).map (netCost db.settlements)).sum := by
  have hdelta : (db.cashDeltas db.settlementMap).getD k 0 =
      ((db.voidedFills.filter fun r => r.balanceKey = k).map (netCost db.settlements)).sum := by
    rw [cashDeltas, Dict.getD_totals]
    exact congrArg List.sum (List.map_congr_left fun r _ => cashDelta_settlementMap hsorted r)
  rw [Dict.getD, get?_applyCash, hdelta, Dict.getD]
  cases hk : db.balances.get? k with
  | some amount => rfl
  | none =>
      have hnone : (db.voidedFills.filter fun r => r.balanceKey = k) = [] := by
        apply List.filter_eq_nil_iff.mpr
        intro r hr h
        have hsome := hfunded r hr
        rw [of_decide_eq_true h, hk] at hsome
        cases hsome
      rw [hnone]
      simp

end PaperTables

namespace OutageWindow

open PaperTables

/-! ## Taking the window out -/

/-- The buy was for a ticket of the window. -/
def voids (tickets : List PaperTicket) (r : BookedFill) : Bool :=
  tickets.any fun t => placedFor r t && inWindow t

/-- The tickets of the window that have fills are filled: what `_VOIDED_FILLS`
leaves out of the flagged ones has no fills. -/
def FilledTickets (es : List LedgerEvent) : Prop :=
  ∀ r ∈ bookedIn es, ∀ t ∈ ticketsIn es, placedFor r t = true → inWindow t = true →
    t.status = "filled"

/-- Once it settles, an outcome is not bought again. -/
def NotRebought (o : OutcomeId) (es : List LedgerEvent) : Prop :=
  es.Pairwise fun e e' => ∀ row ∈ e.settlements, row.outcomeId = o →
    ∀ r ∈ e'.booked, r.1.outcomeId ≠ o

/-- No outcome is. -/
def NoneRebought (es : List LedgerEvent) : Prop :=
  es.Pairwise fun e e' => ∀ row ∈ e.settlements, ∀ r ∈ e'.booked,
    r.1.outcomeId ≠ row.outcomeId

theorem NoneRebought.notRebought {es : List LedgerEvent} (h : NoneRebought es) (o : OutcomeId) :
    NotRebought o es :=
  h.imp fun hnone row hrow ho r hr => ho ▸ hnone row hrow r hr

instance (es : List LedgerEvent) : Decidable (FilledTickets es) :=
  inferInstanceAs (Decidable (∀ r ∈ bookedIn es, _))

instance (o : OutcomeId) (es : List LedgerEvent) : Decidable (NotRebought o es) :=
  inferInstanceAs (Decidable (es.Pairwise _))

instance (es : List LedgerEvent) : Decidable (NoneRebought es) :=
  inferInstanceAs (Decidable (es.Pairwise _))

variable {base : BalanceKey → ℚ} {es es' : List LedgerEvent} {db : PaperTables}
  {k : PositionKey}

/-- Where no outcome is bought again, a settlement of it pays every fill. -/
theorem ts_le_of_notRebought {o : OutcomeId} (hes : History es) (honce : NotRebought o es)
    {r : BookedFill} (hr : r ∈ bookedIn es) {row : PaperSettlement}
    (hrow : row ∈ settlementsIn es) (hro : r.1.outcomeId = o) (hrowo : row.outcomeId = o) :
    r.2.ts ≤ row.ts := by
  obtain ⟨e₁, he₁, hre⟩ := mem_bookedIn.mp hr
  obtain ⟨e₂, he₂, hrowe⟩ := mem_settlementsIn.mp hrow
  have hall : ∀ e₁ ∈ es, ∀ e₂ ∈ es, ∀ r ∈ e₁.booked, ∀ row ∈ e₂.settlements,
      r.1.outcomeId = o → row.outcomeId = o → r.2.ts ≤ row.ts := by
    apply List.Pairwise.forall_of_forall_of_flip
    · intro e _ r hr row hrow
      cases e with
      | buy o f => cases hrow
      | _ => cases hr
    · exact hes.order.imp fun h r hr row hrow ho hrowo => h.bought r hr row hrow (ho.trans hrowo.symm)
    · exact honce.imp fun h r hr row hrow ho hrowo => absurd ho (h row hrow hrowo r hr)
  exact hall e₁ he₁ e₂ he₂ r hre row hrowe hro hrowo

/-- So the fills of a position are all open or all paid. -/
theorem isOpen_of_isOpen (hes : History es) (honce : NotRebought k.2.2 es) {r r' : BookedFill}
    (hr : r ∈ bookedIn es) (hk : r.positionKey = k) (hk' : r'.positionKey = k) (hopen : isOpen (settlementsIn es) r = true) :
    isOpen (settlementsIn es) r' = true := by
  have ho : r.1.outcomeId = k.2.2 := congrArg (·.2.2) hk
  have ho' : r'.1.outcomeId = k.2.2 := congrArg (·.2.2) hk'
  rw [isOpen, Option.isNone_iff_eq_none, payoutOf, Option.map_eq_none_iff] at hopen ⊢
  apply List.find?_eq_none.mpr
  intro row hrow _
  obtain ⟨hmem, hrowo⟩ := List.mem_filter.mp hrow
  have hrowo : row.outcomeId = k.2.2 := (of_decide_eq_true hrowo).trans ho'
  have hpaid := List.find?_eq_none.mp hopen row
    (List.mem_filter.mpr ⟨hmem, decide_eq_true (hrowo.trans ho.symm)⟩)
  exact hpaid (decide_eq_true (ts_le_of_notRebought hes honce hr hmem ho hrowo))

/-- A position that holds something is rebuilt from all that survives behind it:
one of its fills is open, so all are. -/
theorem heldFrom_open {rows : PaperTables} {live : List BookedFill} (hes : History es)
    (honce : NotRebought k.2.2 es) (h : LedgerOf base es live db)
    (hqty : (db.positions.getD k {}).qty ≠ 0) (hpositions : rows.positions = db.positions)
    (hsett : rows.settlements = db.settlements)
    (hsurviving : ∀ r ∈ rows.survivingFills, r ∈ bookedIn es) :
    HeldFrom rows.survivingFills rows.rebuildOpenPositions k := by
  obtain ⟨r, hr⟩ := List.exists_mem_of_ne_nil _ (mt (h.qty_eq_zero_iff hes).mpr hqty)
  obtain ⟨hmem, hk, hopen⟩ := mem_openFills.mp hr
  apply heldFrom_rebuild
  · intro r' hr'
    exact qty_pos_of_booked hes (hsurviving r' hr')
  · rw [hpositions]
    exact hqty
  · intro r' _ hk'
    rw [hsett, h.settlements]
    exact isOpen_of_isOpen hes honce (h.booked r hmem) hk hk' hopen

/-- Behind a closed position a fill that counts is paid, and so is every other,
whichever of them count. -/
theorem qty_eq_zero_of_closed {base' : BalanceKey → ℚ} {db' : PaperTables}
    {live live' : List BookedFill} (hes : History es) (honce : NotRebought k.2.2 es)
    (h : LedgerOf base es live db) (h' : LedgerOf base' es live' db')
    (hqty : (db.positions.getD k {}).qty = 0) {r : BookedFill} (hr : r ∈ live)
    (hk : r.positionKey = k) : (db'.positions.getD k {}).qty = 0 := by
  apply (h'.qty_eq_zero_iff hes).mpr
  apply List.eq_nil_iff_forall_not_mem.mpr
  intro r' hr'
  obtain ⟨hmem, hk', hopen⟩ := mem_openFills.mp hr'
  have hopen' := isOpen_of_isOpen hes honce (h'.booked r' hmem) hk' hk hopen
  have hnone := (h.qty_eq_zero_iff hes).mp hqty
  exact List.eq_nil_iff_forall_not_mem.mp hnone r (mem_openFills.mpr ⟨hr, hk, hopen'⟩)

/-- What a balance lost to the fills is what it lost to the voided ones and to
the others. -/
theorem sum_voids (tickets : List PaperTicket) (f : BookedFill → ℚ) (fills : List BookedFill)
    (k : BalanceKey) :
    (((fills.filter (voids tickets)).filter fun r => r.balanceKey = k).map f).sum +
        (((fills.filter fun r => !voids tickets r).filter fun r => r.balanceKey = k).map f).sum =
      ((fills.filter fun r => r.balanceKey = k).map f).sum := by
  have hsplit := List.sum_map_filter_add_sum_map_filter_not (fun r => voids tickets r = true) f
    (fills.filter fun r => r.balanceKey = k)
  rw [← hsplit, List.filter_filter, List.filter_filter, List.filter_filter, List.filter_filter]
  simp [Bool.and_comm]

/-- The tables that `upgrade` has flagged. -/
structure Flagged (es : List LedgerEvent) (db : PaperTables) : Prop where
  tickets : db.tickets = (ticketsIn es).map fun t =>
    { t with excludedReason := if inWindow t then some reason else none }
  booked : db.bookedFills = bookedIn es

namespace Flagged

theorem nodup_ids (hes : History es) (h : Flagged es db) : (db.tickets.map (·.id)).Nodup := by
  rw [h.tickets, List.map_map]
  exact nodup_ticketIds hes

theorem voidedFills (hes : History es) (hfilled : FilledTickets es) (h : Flagged es db) :
    db.voidedFills = (bookedIn es).filter (voids (ticketsIn es)) := by
  rw [voidedFills_eq (h.nodup_ids hes), h.booked, h.tickets]
  apply List.filter_congr
  intro r hr
  rw [List.any_map, voids, Bool.eq_iff_iff, List.any_eq_true, List.any_eq_true]
  apply exists_congr
  intro t
  apply and_congr_right
  intro ht
  show (placedFor r t && (_ && decide (t.status = "filled"))) = true ↔ _
  by_cases hplaced : placedFor r t = true
  · by_cases hwindow : inWindow t = true
    · simp [hplaced, hwindow, hfilled r hr t ht hplaced hwindow]
    · simp [hwindow]
  · simp [hplaced]

theorem survivingFills (hes : History es) (h : Flagged es db) :
    db.survivingFills = (bookedIn es).filter fun r => !voids (ticketsIn es) r := by
  rw [survivingFills_eq (h.nodup_ids hes), h.booked, h.tickets]
  apply List.filter_congr
  intro r _
  rw [List.any_map, voids]
  congr 2
  funext t
  show (placedFor r t && !Option.isNone (if inWindow t then some reason else none)) = _
  by_cases hwindow : inWindow t = true
  · simp [hwindow]
  · simp [hwindow]

end Flagged

/-- The tables of a history, with their rows. -/
structure Recorded (es : List LedgerEvent) (db : PaperTables) : Prop where
  tickets : db.tickets = ticketsIn es
  orders : db.orders = ordersIn es
  fills : db.fills = (bookedIn es).map Prod.snd

theorem recorded_run (balances : Dict BalanceKey ℚ) (es : List LedgerEvent) :
    Recorded es ((opened balances).run es) := by
  obtain ⟨htickets, horders, hfills, -⟩ := rows_run (opened balances) es
  exact ⟨htickets, horders, hfills⟩

theorem flagged_flag (hes : History es) (h : Recorded es db) :
    Flagged es (flag db.clearExcluded) := by
  constructor
  · show ((db.tickets.map _).map _) = _
    rw [h.tickets, List.map_map]
    apply List.map_congr_left
    intro t _
    show (if inWindow t then _ else _) = _
    by_cases hwindow : inWindow t = true
    · rw [if_pos hwindow, if_pos hwindow]
    · rw [if_neg hwindow, if_neg hwindow]
  · show (flag db.clearExcluded).bookedFills = _
    exact bookedFills_eq hes h.orders h.fills

/-- What either direction does to a balance, where the voided fills are those
of the window. -/
theorem getD_applyWindow (hes : History es) (hsett : db.settlements = settlementsIn es)
    {tickets : List PaperTicket} {fills : List BookedFill}
    (hfunded : ∀ r ∈ fills, (db.balances.get? r.balanceKey).isSome = true)
    (hvoided : db.voidedFills = fills.filter (voids tickets)) (sign : ℚ) (k : BalanceKey) :
    (db.applyCash (db.cashDeltas db.settlementMap) sign).balances.getD k 0 =
      db.balances.getD k 0 + sign *
        (((fills.filter (voids tickets)).filter fun r => r.balanceKey = k).map
          (netCost db.settlements)).sum := by
  rw [getD_applyCash, hvoided]
  · rw [hsett]
    exact sorted_settlementsIn hes
  · rw [hvoided]
    exact fun r hr => hfunded r (List.mem_filter.mp hr).1

/-- **The upgrade of a balance**: what counts from here on are the fills
outside the window. -/
theorem cashFrom_upgrade (hes : History es) (hfilled : FilledTickets es) (hrec : Recorded es db)
    (h : LedgerOf base es (bookedIn es) db) :
    CashFrom base ((bookedIn es).filter fun r => !voids (ticketsIn es) r) (upgrade db) := by
  intro k
  have hvoided := (flagged_flag hes hrec).voidedFills hes hfilled
  have hsett : (flag db.clearExcluded).settlements = settlementsIn es := h.settlements
  have hback : (upgrade db).balances.getD k 0 = db.balances.getD k 0 + 1 *
      ((((bookedIn es).filter (voids (ticketsIn es))).filter fun r => r.balanceKey = k).map
        (netCost db.settlements)).sum :=
    getD_applyWindow hes hsett h.funded hvoided 1 k
  have hcash := h.cash k
  rw [← sum_voids (ticketsIn es)] at hcash
  rw [hback, hcash]
  show _ = base k - ((List.filter _ _).map (netCost db.settlements)).sum
  ring

/-- **The upgrade of a position**, where its outcome is not bought again. -/
theorem heldFrom_upgrade (hes : History es) (honce : NotRebought k.2.2 es)
    (hrec : Recorded es db) (h : LedgerOf base es (bookedIn es) db) :
    HeldFrom ((bookedIn es).filter fun r => !voids (ticketsIn es) r) (upgrade db) k := by
  have hsurviving := (flagged_flag hes hrec).survivingFills hes
  let db' : PaperTables := (flag db.clearExcluded).applyCash
    ((flag db.clearExcluded).cashDeltas (flag db.clearExcluded).settlementMap) 1
  have hsurviving' : db'.survivingFills = (bookedIn es).filter fun r => !voids (ticketsIn es) r :=
    hsurviving
  by_cases hqty : (db.positions.getD k {}).qty = 0
  · have hrow : (upgrade db).positions.getD k {} = db.positions.getD k {} :=
      getD_rebuild_closed (show (db'.positions.getD k {}).qty = 0 from hqty)
    have hnone : openFills db.settlements
        ((bookedIn es).filter fun r => !voids (ticketsIn es) r) k = [] := by
      rw [h.settlements]
      apply List.filter_eq_nil_iff.mpr
      intro r hr
      exact List.filter_eq_nil_iff.mp ((h.qty_eq_zero_iff hes).mp hqty) r (List.mem_filter.mp hr).1
    constructor
    · show _ = totalQty (openFills db.settlements _ k)
      rw [hrow, hqty, hnone]
      rfl
    · show _ = totalCost (openFills db.settlements _ k) / totalQty (openFills db.settlements _ k)
      rw [hrow, (h.held k).avg_zero hqty, hnone]
      exact (div_zero _).symm
  · have hbooked : ∀ r ∈ db'.survivingFills, r ∈ bookedIn es := by
      intro r hr
      rw [hsurviving'] at hr
      exact (List.mem_filter.mp hr).1
    have hrebuilt : HeldFrom db'.survivingFills db'.rebuildOpenPositions k :=
      heldFrom_open hes honce h hqty rfl rfl hbooked
    rw [← hsurviving']
    exact hrebuilt.congr rfl rfl

/-! ### The history without the window's buys -/

/-- The history less the buys for the tickets of its window. -/
def unbought (es : List LedgerEvent) : List LedgerEvent :=
  es.filter fun e => !(e.booked.any (voids (ticketsIn es)))

section Unbought

variable (tickets : List PaperTicket) (es : List LedgerEvent)

/-- What is dropped is a buy. -/
theorem eq_buy_of_voids {tickets : List PaperTicket} {e : LedgerEvent}
    (h : e.booked.any (voids tickets) = true) :
    ∃ o f, e = .buy o f ∧ voids tickets (o, f) = true := by
  cases e with
  | buy o f => exact ⟨o, f, rfl, by simpa [LedgerEvent.booked] using h⟩
  | _ => cases h

theorem bookedIn_filter : bookedIn (es.filter fun e => !(e.booked.any (voids tickets))) =
    (bookedIn es).filter fun r => !voids tickets r := by
  induction es with
  | nil => rfl
  | cons e es ih =>
      have hcons : bookedIn (e :: es) = e.booked ++ bookedIn es := List.flatMap_cons
      rw [hcons, List.filter_append, ← ih]
      by_cases h : e.booked.any (voids tickets) = true
      · obtain ⟨o, f, rfl, hv⟩ := eq_buy_of_voids h
        rw [List.filter_cons_of_neg (by simp [h])]
        simp [LedgerEvent.booked, hv]
      · have hkept : e.booked.filter (fun r => !voids tickets r) = e.booked := by
          apply List.filter_eq_self.mpr
          intro r hr
          rw [Bool.not_eq_true', ← Bool.not_eq_true]
          exact fun hv => h (List.any_eq_true.mpr ⟨r, hr, hv⟩)
        rw [List.filter_cons_of_pos (by simp [h]), hkept]
        exact List.flatMap_cons

theorem settlementsIn_filter :
    settlementsIn (es.filter fun e => !(e.booked.any (voids tickets))) = settlementsIn es := by
  induction es with
  | nil => rfl
  | cons e es ih =>
      have hcons : settlementsIn (e :: es) = e.settlements ++ settlementsIn es := List.flatMap_cons
      rw [hcons, ← ih]
      by_cases h : e.booked.any (voids tickets) = true
      · obtain ⟨o, f, rfl, -⟩ := eq_buy_of_voids h
        rw [List.filter_cons_of_neg (by simp [h])]
        rfl
      · rw [List.filter_cons_of_pos (by simp [h])]
        exact List.flatMap_cons

theorem creditedIn_filter (k : BalanceKey) :
    creditedIn (es.filter fun e => !(e.booked.any (voids tickets))) k = creditedIn es k := by
  induction es with
  | nil => rfl
  | cons e es ih =>
      have hcons : creditedIn (e :: es) k = e.credited k + creditedIn es k := List.sum_cons
      rw [hcons, ← ih]
      by_cases h : e.booked.any (voids tickets) = true
      · obtain ⟨o, f, rfl, -⟩ := eq_buy_of_voids h
        rw [List.filter_cons_of_neg (by simp [h])]
        exact (zero_add _).symm
      · rw [List.filter_cons_of_pos (by simp [h])]
        exact List.sum_cons

end Unbought

/-- **The upgrade leaves what was never bought.** -/
theorem upgrade_unbuys (balances : Dict BalanceKey ℚ) (es : List LedgerEvent) (hes : History es)
    (hfilled : FilledTickets es) :
    let db := upgrade ((opened balances).run es)
    let db' := (opened balances).run (unbought es)
    (∀ k, db.balances.getD k 0 = db'.balances.getD k 0) ∧
      ∀ k : PositionKey, NotRebought k.2.2 es →
        (db.positions.getD k {}).qty = (db'.positions.getD k {}).qty ∧
          (db.positions.getD k {}).avgPrice = (db'.positions.getD k {}).avgPrice := by
  intro db db'
  have hrec := recorded_run balances es
  have hrun := ledgerOf_run balances hes
  have hrun' : LedgerOf _ (unbought es) (bookedIn (unbought es)) db' :=
    ledgerOf_run balances (hes.sublist List.filter_sublist)
  have hlive : bookedIn (unbought es) = (bookedIn es).filter fun r => !voids (ticketsIn es) r :=
    bookedIn_filter _ es
  have hcredited : ∀ k, creditedIn (unbought es) k = creditedIn es k :=
    creditedIn_filter _ es
  have hsett : db.settlements = db'.settlements := by
    rw [hrun'.settlements, unbought, settlementsIn_filter]
    exact hrun.settlements
  constructor
  · intro k
    rw [cashFrom_upgrade hes hfilled hrec hrun k, hrun'.cash k, hlive]
    show balances.getD k 0 + creditedIn es k -
      ((List.filter _ _).map (netCost db.settlements)).sum = _
    rw [hsett, ← hcredited]
  · intro k honce
    have hheld := hrun'.held k
    rw [hlive] at hheld
    exact (heldFrom_upgrade hes honce hrec hrun).agree hheld hsett

/-! ### A pair of the window, beside an older position -/

namespace Voided

def ticket (id : TicketId) (submittedAt : ℚ) : PaperTicket where
  id := id
  accountId := "default"
  eventGroupId := "ncaaf-AUB-BAY"
  titleSnapshot := "AUB @ BAY"
  startsAt := none
  source := "manual"
  status := "filled"
  rejectionReason := none
  excludedReason := none
  totalStake := none
  expectedProfit := none
  expectedEdgeBps := none
  submittedAt := submittedAt

def buy (id : String) (v : VenueId) (o : OutcomeId) (ticketId : TicketId) (qty price ts : ℚ) :
    LedgerEvent :=
  .buy ⟨id, "default", v, o, true, qty, price, "filled", ts, some ticketId, none⟩
    ⟨⟨id, qty, price, 1 / 100⟩, ts⟩

def funds : Dict BalanceKey ℚ :=
  Dict.ofList [(("default", "kalshi"), 4000), (("default", "polymarket_us"), 4000)]

/-- An over bought before the window, and a pair inside it: the over again and
the under, which pays. -/
def traded : List LedgerEvent :=
  [.ticket (ticket "t1" 1788620000), buy "o1" "kalshi" "over" "t1" 10 (1 / 2) 1788620000,
    .ticket (ticket "t2" 1788630000), buy "o2" "kalshi" "over" "t2" 30 (1 / 4) 1788630000,
    buy "o3" "polymarket_us" "under" "t2" 30 (1 / 10) 1788630000,
    .settle ⟨"under", 1, 1788640000, "venue"⟩]

/-- What is traded after the upgrade. -/
def later : List LedgerEvent :=
  [.ticket (ticket "t3" 1788700000), buy "o4" "kalshi" "other" "t3" 5 (1 / 2) 1788700000]

end Voided

open Voided

theorem upgrade_unbuys_pair :
    let db := upgrade ((opened funds).run traded)
    let db' := (opened funds).run (unbought traded)
    db.balances.getD ("default", "polymarket_us") 0 =
        db'.balances.getD ("default", "polymarket_us") 0 ∧
      (db.positions.getD ("default", "kalshi", "over") {}).qty =
        (db'.positions.getD ("default", "kalshi", "over") {}).qty := by
  intro db db'
  have h := upgrade_unbuys funds traded (by decide +kernel) (by decide +kernel)
  exact ⟨h.1 _, (h.2 _ (by decide +kernel)).1⟩

/-! ## Putting it back -/

/-- The tables of a history whose beginning was upgraded. -/
theorem ledgerOf_upgrade (hes : History es) (hfilled : FilledTickets es)
    (honce : ∀ o, NotRebought o es) (hrec : Recorded es db)
    (h : LedgerOf base es (bookedIn es) db) :
    LedgerOf base es ((bookedIn es).filter fun r => !voids (ticketsIn es) r) (upgrade db) where
  settlements := h.settlements
  booked := fun _ hr => (List.mem_filter.mp hr).1
  funded := by
    intro r hr
    have hget : (upgrade db).balances.get? r.balanceKey = _ :=
      get?_applyCash _ 1 r.balanceKey
    rw [hget, Option.isSome_map]
    exact h.funded r hr
  cash := cashFrom_upgrade hes hfilled hrec h
  held := fun k => heldFrom_upgrade hes (honce k.2.2) hrec h

/-- The tables when `downgrade` runs. -/
structure Ran (es es' : List LedgerEvent) (db : PaperTables) : Prop where
  tickets : db.tickets = ((ticketsIn es).map fun t =>
    { t with excludedReason := if inWindow t then some reason else none }) ++ ticketsIn es'
  orders : db.orders = ordersIn (es ++ es')
  fills : db.fills = (bookedIn (es ++ es')).map Prod.snd

theorem ran_run (hes : History es) (hrec : Recorded es db) :
    Ran es es' ((upgrade db).run es') := by
  obtain ⟨htickets, horders, hfills, -⟩ := rows_run (upgrade db) es'
  constructor
  · rw [htickets]
    exact congrArg (· ++ _) (flagged_flag hes hrec).tickets
  · rw [horders, ordersIn_append]
    exact congrArg (· ++ _) hrec.orders
  · rw [hfills, bookedIn_append, List.map_append]
    exact congrArg (· ++ _) hrec.fills

namespace Ran

variable (hes : History (es ++ es')) (h : Ran es es' db)

include hes h

theorem nodup_ids : (db.tickets.map (·.id)).Nodup := by
  have hids := nodup_ticketIds hes
  rw [ticketsIn_append, List.map_append] at hids
  rw [h.tickets, List.map_append, List.map_map]
  exact hids

theorem voidedFills (hfilled : FilledTickets es)
    (hnew : ∀ r ∈ bookedIn es', voids (ticketsIn es) r = false) :
    db.voidedFills = (bookedIn (es ++ es')).filter (voids (ticketsIn es)) := by
  rw [voidedFills_eq (h.nodup_ids hes), bookedFills_eq hes h.orders h.fills, h.tickets]
  apply List.filter_congr
  intro r hr
  have hcounted : (ticketsIn es').any (fun t =>
      placedFor r t && (t.excludedReason.isSome && decide (t.status = "filled"))) = false := by
    apply List.any_eq_false.mpr
    intro t ht
    obtain ⟨e, he, hte⟩ := List.mem_flatMap.mp ht
    simp [(hes.sound e (List.mem_append_right _ he)).2 t hte]
  rw [List.any_append, hcounted, Bool.or_false, List.any_map, voids, Bool.eq_iff_iff,
    List.any_eq_true, List.any_eq_true]
  apply exists_congr
  intro t
  apply and_congr_right
  intro ht
  show (placedFor r t && (Option.isSome (if inWindow t then some reason else none) &&
    decide (t.status = "filled"))) = true ↔ _
  by_cases hplaced : placedFor r t = true
  · by_cases hwindow : inWindow t = true
    · have hold : r ∈ bookedIn es := by
        rw [bookedIn_append] at hr
        refine (List.mem_append.mp hr).resolve_right fun hr => ?_
        have hvoid := hnew r hr
        rw [voids, List.any_eq_false] at hvoid
        exact hvoid t ht (by simp [hplaced, hwindow])
      simp [hplaced, hwindow, hfilled r hold t ht hplaced hwindow]
    · simp [hwindow]
  · simp [hplaced]

/-- With the flags gone, every fill survives. -/
theorem survivingFills_cleared : db.clearExcluded.survivingFills = bookedIn (es ++ es') := by
  have hids : (db.clearExcluded.tickets.map (·.id)).Nodup := by
    show ((db.tickets.map _).map _).Nodup
    rw [List.map_map]
    exact h.nodup_ids hes
  have hbooked : db.clearExcluded.bookedFills = bookedIn (es ++ es') :=
    bookedFills_eq hes h.orders h.fills
  rw [survivingFills_eq hids, hbooked]
  apply List.filter_eq_self.mpr
  intro r _
  rw [Bool.not_eq_true', List.any_eq_false]
  intro t ht
  obtain ⟨t', -, rfl⟩ := List.mem_map.mp ht
  simp

end Ran

/-- What a ledger without the voided fills lacks in cash is what the downgrade
takes again. -/
theorem getD_repaid {base : BalanceKey → ℚ} {db db' : PaperTables} {tickets : List PaperTicket}
    (hes : History es)
    (h : LedgerOf base es ((bookedIn es).filter fun r => !voids tickets r) db)
    (h' : LedgerOf base es (bookedIn es) db')
    (hvoided : db.voidedFills = (bookedIn es).filter (voids tickets)) (k : BalanceKey) :
    (db.applyCash (db.cashDeltas db.settlementMap) (-1)).balances.getD k 0 =
      db'.balances.getD k 0 := by
  have hsett : db.settlements = db'.settlements := h.settlements.trans h'.settlements.symm
  have hcash := h'.cash k
  rw [← sum_voids tickets, ← hsett] at hcash
  rw [getD_applyWindow hes h.settlements h.funded hvoided (-1) k, hcash, h.cash k]
  ring

/-- Rebuilt from every fill, a position is that of the whole ledger, unless that
one is open with nothing but voided fills behind it. -/
theorem rebuilt_iff {base base' : BalanceKey → ℚ} {db db' rows : PaperTables}
    {tickets : List PaperTicket} {k : PositionKey} (hes : History es)
    (honce : NotRebought k.2.2 es)
    (h : LedgerOf base es ((bookedIn es).filter fun r => !voids tickets r) db)
    (h' : LedgerOf base' es (bookedIn es) db') (hpositions : rows.positions = db.positions)
    (hsett : rows.settlements = db.settlements) (hsurviving : rows.survivingFills = bookedIn es) :
    ((rows.rebuildOpenPositions.positions.getD k {}).qty = (db'.positions.getD k {}).qty ∧
        (rows.rebuildOpenPositions.positions.getD k {}).avgPrice =
          (db'.positions.getD k {}).avgPrice) ↔
      ((db'.positions.getD k {}).qty = 0 ∨ ∃ r ∈ bookedIn es,
        r.positionKey = k ∧ voids tickets r = false) := by
  by_cases hqty : (db.positions.getD k {}).qty = 0
  · have hrow : rows.rebuildOpenPositions.positions.getD k {} = db.positions.getD k {} := by
      rw [getD_rebuild_closed (by rw [hpositions, hqty]), hpositions]
    rw [hrow, hqty, (h.held k).avg_zero hqty]
    constructor
    · intro hsame
      exact .inl hsame.1.symm
    · intro hclosed
      have hzero : (db'.positions.getD k {}).qty = 0 := by
        rcases hclosed with hzero | ⟨r, hr, hk, hkept⟩
        · exact hzero
        · exact qty_eq_zero_of_closed hes honce h h' hqty
            (List.mem_filter.mpr ⟨hr, by rw [hkept]; rfl⟩) hk
      exact ⟨hzero.symm, ((h'.held k).avg_zero hzero).symm⟩
  · have hrebuilt := heldFrom_open hes honce h hqty hpositions hsett
      fun r hr => hsurviving ▸ hr
    rw [hsurviving] at hrebuilt
    have hsame := hrebuilt.agree (h'.held k)
      (hsett.trans (h.settlements.trans h'.settlements.symm))
    -- an open position has a fill that counts behind it
    obtain ⟨r, hr⟩ := List.exists_mem_of_ne_nil _ (mt (h.qty_eq_zero_iff hes).mpr hqty)
    obtain ⟨hmem, hk, -⟩ := mem_openFills.mp hr
    obtain ⟨hbooked, hkept⟩ := List.mem_filter.mp hmem
    exact iff_of_true hsame (.inr ⟨r, hbooked, hk, by simpa using hkept⟩)

/-- **The downgrade undoes the upgrade**, whatever was traded in between: every
balance is what it would have been, and so is every position but those that are
still open with nothing but voided fills behind them. -/
theorem downgrade_restores (balances : Dict BalanceKey ℚ) (es es' : List LedgerEvent)
    (hes : History (es ++ es')) (hfilled : FilledTickets es)
    (honce : NoneRebought (es ++ es'))
    (hnew : ∀ r ∈ bookedIn es', voids (ticketsIn es) r = false) :
    let db := downgrade ((upgrade ((opened balances).run es)).run es')
    let db' := (opened balances).run (es ++ es')
    (∀ k, db.balances.getD k 0 = db'.balances.getD k 0) ∧
      ∀ k, ((db.positions.getD k {}).qty = (db'.positions.getD k {}).qty ∧
          (db.positions.getD k {}).avgPrice = (db'.positions.getD k {}).avgPrice) ↔
        ((db'.positions.getD k {}).qty = 0 ∨ ∃ r ∈ bookedIn (es ++ es'),
          r.positionKey = k ∧ voids (ticketsIn es) r = false) := by
  intro db db'
  have hrec := recorded_run balances es
  have honce' : NoneRebought es := (List.pairwise_append.mp honce).1
  have hmid := (ledgerOf_upgrade hes.left hfilled honce'.notRebought hrec
    (ledgerOf_run balances hes.left)).run hes
  have hran : Ran es es' ((upgrade ((opened balances).run es)).run es') := ran_run hes.left hrec
  generalize hm : (upgrade ((opened balances).run es)).run es' = mid at hmid hran
  have hnever : LedgerOf _ (es ++ es') (bookedIn (es ++ es')) db' := ledgerOf_run balances hes
  -- the fills that count after the upgrade: the window's are out, later ones are in
  have hlive : ((bookedIn es).filter fun r => !voids (ticketsIn es) r) ++ bookedIn es' =
      (bookedIn (es ++ es')).filter fun r => !voids (ticketsIn es) r := by
    rw [bookedIn_append, List.filter_append]
    congr 1
    exact (List.filter_eq_self.mpr fun r hr => by rw [hnew r hr]; rfl).symm
  rw [hlive] at hmid
  have hcredited : (fun k => balances.getD k 0 + creditedIn es k + creditedIn es' k) =
      fun k => balances.getD k 0 + creditedIn (es ++ es') k := by
    funext k
    rw [creditedIn, creditedIn, creditedIn, List.map_append, List.sum_append, add_assoc]
  rw [hcredited] at hmid
  have hvoided := hran.voidedFills hes hfilled hnew
  let paid : PaperTables := mid.applyCash (mid.cashDeltas mid.settlementMap) (-1)
  -- the downgrade pays the voided fills again, clears the flags and rebuilds
  have hdb : db = paid.clearExcluded.rebuildOpenPositions := by
    show downgrade ((upgrade ((opened balances).run es)).run es') = _
    rw [hm]
    rfl
  have hpaid : Ran es es' paid := ⟨hran.tickets, hran.orders, hran.fills⟩
  rw [hdb]
  constructor
  · intro k
    exact getD_repaid hes hmid hnever hvoided k
  · intro k
    exact rebuilt_iff hes (honce.notRebought _) hmid hnever rfl rfl
      (hpaid.survivingFills_cleared hes)

theorem downgrade_restores_pair :
    let db := downgrade ((upgrade ((opened funds).run traded)).run later)
    let db' := (opened funds).run (traded ++ later)
    ∀ k, db.balances.getD k 0 = db'.balances.getD k 0 :=
  (downgrade_restores funds traded later (by decide +kernel) (by decide +kernel)
    (by decide +kernel) (by decide +kernel)).1

end OutageWindow

end Arbys
