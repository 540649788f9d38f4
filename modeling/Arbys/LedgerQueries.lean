import Arbys.Lib.OuterJoin
import Arbys.Types

/-!
# The ticket ledger and its queries

The tables of `db/models.py` that hold a ticket's history and the functions of
`db/repositories.py` that read them: the shared clauses of `_ticket_filters`,
`ticket_outcomes`, `count_paper_tickets`, `count_open_paper_tickets`,
`list_paper_settlements`, `list_paper_tickets` and `_score_ticket`. A table is
the list of its rows in the order they are stored, which is what a `SELECT`
without `ORDER BY` returns them in; timestamps are seconds.
-/

namespace Arbys

/-! ## The tables -/

/-- `paper_ticket`. A ticket with an `excludedReason` is kept and withheld. -/
structure PaperTicket where
  id : TicketId
  accountId : AccountId
  eventGroupId : GroupId
  titleSnapshot : String
  startsAt : Option ℚ
  source : String
  status : String
  rejectionReason : Option String
  excludedReason : Option String
  totalStake : Option ℚ
  expectedProfit : Option ℚ
  expectedEdgeBps : Option ℚ
  submittedAt : ℚ
  deriving DecidableEq

/-- `paper_order`. -/
structure PaperOrder where
  id : String
  accountId : AccountId
  venueId : VenueId
  outcomeId : OutcomeId
  isBuy : Bool
  qty : ℚ
  limitPrice : ℚ
  status : String
  submittedAt : ℚ
  ticketId : Option TicketId
  rejectionReason : Option String
  deriving DecidableEq

/-- `paper_fill`. -/
structure PaperFill where
  orderId : String
  qty : ℚ
  price : ℚ
  fee : ℚ
  deriving DecidableEq

/-- `paper_settlement`. -/
structure PaperSettlement where
  outcomeId : OutcomeId
  resolvedValue : ℚ
  ts : ℚ
  source : String
  deriving DecidableEq

/-- The ledger's tables, under their primary keys. -/
structure LedgerDb where
  tickets : List PaperTicket
  orders : List PaperOrder
  fills : List PaperFill
  settlements : List PaperSettlement
  tickets_nodup : (tickets.map (·.id)).Nodup
  orders_nodup : (orders.map (·.id)).Nodup

/-- What the ledger can be filtered on; `none` is a ticket that never traded. -/
inductive TicketOutcome where
  | none
  | open
  | won
  | lost
  | flat
  deriving DecidableEq

/-- `_NEVER_TRADED`. -/
def neverTraded : List String := ["rejected", "missed"]

/-- `Decimal("1") if is_buy else Decimal("-1")`. -/
def PaperOrder.direction (o : PaperOrder) : ℚ := if o.isBuy then 1 else -1

/-- Whether a ticket's status is one of those asked for. -/
def statusIn (status : Option (List String)) (t : PaperTicket) : Bool :=
  status.all fun l => l.contains t.status

/-- `_ticket_filters`: the `WHERE` clauses every ticket query shares. -/
def ticketFilters (accountId : AccountId) (since : Option ℚ) (status : Option (List String))
    (source : Option String) (t : PaperTicket) : Bool :=
  decide (t.accountId = accountId) && t.excludedReason.isNone &&
    since.all (fun s => decide (s ≤ t.submittedAt)) && statusIn status t &&
    source.all fun s => decide (t.source = s)

namespace LedgerDb

/-! ## The join -/

/-- A ticket beside one of its orders and one of that order's fills, or what
there is of them. -/
abbrev JoinedRow := (PaperTicket × Option PaperOrder) × Option PaperFill

/-- `PaperOrder.ticket_id == PaperTicket.id`. -/
def orderOf (t : PaperTicket) (o : PaperOrder) : Bool := decide (o.ticketId = some t.id)

/-- `PaperFill.order_id == PaperOrder.id`; no fill is of no order. -/
def fillOf (row : PaperTicket × Option PaperOrder) (f : PaperFill) : Bool :=
  row.2.any fun o => decide (f.orderId = o.id)

/-- `paper_ticket` joined outward to its orders and their fills. -/
def joinedOn (db : LedgerDb) (tickets : List PaperTicket) : List JoinedRow :=
  OuterJoin.leftJoin fillOf (OuterJoin.leftJoin orderOf tickets db.orders) db.fills

/-- The joined rows of the tickets that meet `where_`. -/
def joinedRows (db : LedgerDb) (where_ : PaperTicket → Bool) : List JoinedRow :=
  (db.joinedOn db.tickets).filter fun row => where_ row.1.1

/-! ## `ticket_outcomes` -/

/-- `settled` of `ticket_outcomes`: the rows of `paper_settlement` as they are
stored, each written over the one before. -/
def storedValues (db : LedgerDb) : Dict OutcomeId ℚ :=
  Dict.ofList (db.settlements.map fun row => (row.outcomeId, row.resolvedValue))

/-- `profit`, `is_open` and `seen`. -/
structure OutcomeTally where
  profit : Dict TicketId ℚ := Dict.empty
  isOpen : List TicketId := []
  seen : List TicketId := []

/-- The gain of a filled leg at a value: `direction * (resolved - price) * qty`
less the fee. -/
def legGain (o : PaperOrder) (f : PaperFill) (resolved : ℚ) : ℚ :=
  o.direction * (resolved - f.price) * o.qty - f.fee

/-- What a joined row adds to its ticket's profit; `none` where the row leaves
the ticket open. -/
def rowGain (settled : Dict OutcomeId ℚ) (row : JoinedRow) : Option ℚ := do
  let o ← row.1.2
  let f ← row.2
  let resolved ← settled.get? o.outcomeId
  pure (legGain o f resolved)

/-- One turn of the loop over the joined rows. -/
def OutcomeTally.add (settled : Dict OutcomeId ℚ) (s : OutcomeTally) (row : JoinedRow) :
    OutcomeTally :=
  let ticketId := row.1.1.id
  let s := { s with seen := s.seen.insert ticketId }
  match rowGain settled row with
  | none => { s with isOpen := s.isOpen.insert ticketId }
  | some gain => { s with profit := s.profit.set ticketId (s.profit.getD ticketId 0 + gain) }

/-- `"won" if total > 0 else "lost" if total < 0 else "flat"`. -/
def outcomeOfTotal (total : ℚ) : TicketOutcome :=
  if 0 < total then .won else if total < 0 then .lost else .flat

/-- What the tally says of a ticket. -/
def OutcomeTally.outcome (s : OutcomeTally) (ticketId : TicketId) : TicketOutcome :=
  if ticketId ∈ s.isOpen then .open else outcomeOfTotal (s.profit.getD ticketId 0)

/-- `ticket_outcomes`. -/
def ticketOutcomes (db : LedgerDb) (accountId : AccountId) (since : Option ℚ) :
    Dict TicketId TicketOutcome :=
  let rows := db.joinedRows (ticketFilters accountId since (some ["filled"]) none)
  if rows = [] then Dict.empty
  else
    let tally := rows.foldl (OutcomeTally.add db.storedValues) {}
    Dict.ofList (tally.seen.map fun id => (id, tally.outcome id))

/-- `_ids_for_outcome`. -/
def idsForOutcome (db : LedgerDb) (accountId : AccountId) (since : Option ℚ)
    (outcome : TicketOutcome) : List TicketId :=
  ((db.ticketOutcomes accountId since).entries.filter fun e => e.2 = outcome).map (·.1)

/-! ## The counts -/

/-- `count_paper_tickets`. -/
def countPaperTickets (db : LedgerDb) (accountId : AccountId) (since : Option ℚ)
    (status : Option (List String)) (source : Option String)
    (outcome : Option TicketOutcome) : ℕ :=
  let clauses := ticketFilters accountId since status source
  match outcome with
  | none => (db.tickets.filter clauses).length
  | some .none =>
      (db.tickets.filter fun t => clauses t && neverTraded.contains t.status).length
  | some outcome =>
      let ids := db.idsForOutcome accountId since outcome
      if ids = [] then 0
      else (db.tickets.filter fun t => clauses t && ids.contains t.id).length

/-- The clauses of `count_open_paper_tickets`, its own two. -/
def openCountFilters (accountId : AccountId) (t : PaperTicket) : Bool :=
  decide (t.accountId = accountId) && decide (t.status = "filled")

/-- The test of `count_open_paper_tickets` on a joined row. -/
def rowOpen (settledOutcomes : List OutcomeId) (row : JoinedRow) : Bool :=
  match row.1.2, row.2 with
  | some o, some _ => !settledOutcomes.contains o.outcomeId
  | _, _ => true

/-- `count_open_paper_tickets`. -/
def countOpenPaperTickets (db : LedgerDb) (accountId : AccountId) : ℕ :=
  let rows := db.joinedRows (openCountFilters accountId)
  if rows = [] then 0
  else
    let settledOutcomes := (db.settlements.map (·.outcomeId)).dedup
    (rows.foldl (fun openIds row =>
      if rowOpen settledOutcomes row then openIds.insert row.1.1.id else openIds)
      ([] : List TicketId)).length

/-! ## `list_paper_tickets` -/

/-- `list_paper_settlements`: the latest row of each outcome, newest first. -/
def listPaperSettlements (db : LedgerDb) : List PaperSettlement :=
  ((db.settlements.mergeSort fun r s => decide (s.ts ≤ r.ts)).foldl
    (fun (acc : List OutcomeId × List PaperSettlement) r =>
      if r.outcomeId ∈ acc.1 then acc else (r.outcomeId :: acc.1, acc.2 ++ [r]))
    ([], [])).2

/-- `settled` of `list_paper_tickets`. -/
def latestValues (db : LedgerDb) : Dict OutcomeId ℚ :=
  Dict.ofList (db.listPaperSettlements.map fun row => (row.outcomeId, row.resolvedValue))

/-- A leg as `list_paper_tickets` hands it on. -/
structure Leg where
  order : PaperOrder
  fillPrice : Option ℚ
  fee : ℚ
  resolvedValue : Option ℚ

/-- `_score_ticket`: realized profit, or `none` while a leg is unsettled. -/
def scoreLegs (legs : List Leg) (settled : Dict OutcomeId ℚ) : Option ℚ :=
  if legs.isEmpty then none
  else
    legs.foldlM (fun total leg => do
      let fillPrice ← leg.fillPrice
      let resolved ← settled.get? leg.order.outcomeId
      pure (total +
        (leg.order.direction * (resolved - fillPrice) * leg.order.qty - leg.fee))) 0

/-- `fills_by_order`: the price of an order's last fill, and its fees. -/
def fillsByOrder (fills : List PaperFill) : Dict String (ℚ × ℚ) :=
  fills.foldl (fun d f => d.set f.orderId (f.price, (d.getD f.orderId (0, 0)).2 + f.fee))
    Dict.empty

/-- `order_by(PaperOrder.submitted_at, PaperOrder.id)`. -/
def orderBefore (o p : PaperOrder) : Bool :=
  decide (o.submittedAt < p.submittedAt ∨ o.submittedAt = p.submittedAt ∧ o.id ≤ p.id)

/-- `order_by(PaperTicket.submitted_at.desc(), PaperTicket.id.desc())`. -/
def ticketAfter (t u : PaperTicket) : Bool :=
  decide (u.submittedAt < t.submittedAt ∨ u.submittedAt = t.submittedAt ∧ u.id ≤ t.id)

/-- `tuple_(submitted_at, id) < cursor`. -/
def beforeCursor (cursor : ℚ × TicketId) (t : PaperTicket) : Bool :=
  decide (t.submittedAt < cursor.1 ∨ t.submittedAt = cursor.1 ∧ t.id < cursor.2)

/-- The leg of an order row. -/
def legOf (settled : Dict OutcomeId ℚ) (fills : Dict String (ℚ × ℚ)) (o : PaperOrder) : Leg :=
  let fill := fills.get? o.id
  { order := o
    fillPrice := fill.map (·.1)
    fee := (fill.map (·.2)).getD 0
    resolvedValue := settled.get? o.outcomeId }

/-- A row of the ledger as `list_paper_tickets` returns it. -/
structure TicketEntry where
  ticket : PaperTicket
  realizedProfit : Option ℚ
  legs : List Leg

/-- The clause `outcome` adds; `none` where no ticket can meet it. -/
def outcomeClause (db : LedgerDb) (accountId : AccountId) (since : Option ℚ) :
    Option TicketOutcome → Option (PaperTicket → Bool)
  | none => some fun _ => true
  | some .none => some fun t => neverTraded.contains t.status
  | some outcome =>
      let ids := db.idsForOutcome accountId since outcome
      if ids = [] then none else some fun t => ids.contains t.id

/-- `list_paper_tickets`. -/
def listPaperTickets (db : LedgerDb) (accountId : AccountId) (limit : ℕ)
    (status : Option (List String)) (source : Option String) (since : Option ℚ)
    (outcome : Option TicketOutcome) (cursor : Option (ℚ × TicketId)) : List TicketEntry :=
  match db.outcomeClause accountId since outcome with
  | none => []
  | some clause =>
      let tickets := ((db.tickets.filter fun t =>
        ticketFilters accountId since status source t && clause t &&
          cursor.all fun c => beforeCursor c t).mergeSort ticketAfter).take limit
      -- the legs of the whole page in one read, and their fills in one
      let orders := (db.orders.filter fun o =>
        o.ticketId.any fun id => (tickets.map (·.id)).contains id).mergeSort orderBefore
      let fills := fillsByOrder (db.fills.filter fun f => (orders.map (·.id)).contains f.orderId)
      let settled := db.latestValues
      tickets.map fun t =>
        let legs := (orders.filter fun o => o.ticketId = some t.id).map (legOf settled fills)
        { ticket := t, realizedProfit := scoreLegs legs settled, legs := legs }

end LedgerDb

end Arbys
