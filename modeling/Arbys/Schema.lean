import Arbys.Lib.Runs
import Arbys.Lib.Tables
import Arbys.GroupTable
import Arbys.LedgerQueries
import Arbys.Persistence

/-!
# The schema and the writes

The tables of `db/models.py` with their primary keys, unique constraints and
foreign keys, and the functions of `db/repositories.py` that write them, each
a chain of statements on a `Tables.Store`. A row goes in where the code adds
it, which is the order the session flushes it in: an outcome is flushed before
the leg that points at it. Ids that the database or `uuid4` draws and that
nothing refers to are left out, and so are the columns that no query here
reads back.
-/

namespace Arbys

open Tables

namespace Schema

/-! ## The rows -/

/-- `venue`. The `kind` is an exchange or a sportsbook. -/
structure VenueRow where
  id : VenueId
  name : String
  kind : String
  deriving DecidableEq

/-- `market`, known to its venue as `venueMarketId`. -/
structure MarketRow where
  id : String
  venueId : VenueId
  venueMarketId : String
  title : String
  kind : String
  deriving DecidableEq

/-- `outcome`, one side of a market. -/
structure OutcomeRow where
  id : OutcomeId
  marketId : String
  label : String
  deriving DecidableEq

/-- `event_group`, which ties the outcomes of one real event together. A group
that was registered by hand, or whose venues tell no time, has no start time. -/
structure EventGroupRow where
  id : GroupId
  title : String
  startTime : Option ℚ
  source : String
  deriving DecidableEq

/-- `event_group_leg`. Nothing points at a leg, so its own id is left out. -/
structure EventGroupLegRow where
  eventGroupId : GroupId
  leg : GroupLegRow
  deriving DecidableEq

/-- `quote`, one point of an append-only tape. -/
structure QuoteRow where
  outcomeId : OutcomeId
  bid : ℚ
  ask : ℚ
  bidSize : Option ℚ
  askSize : Option ℚ
  deriving DecidableEq

/-- `paper_account`. -/
structure PaperAccountRow where
  id : AccountId
  name : String
  deriving DecidableEq

/-- `paper_balance`. Every row is in the one currency there is. -/
structure PaperBalanceRow where
  accountId : AccountId
  venueId : VenueId
  amount : ℚ
  deriving DecidableEq

/-- `paper_position`. The venue is part of the key: each venue has its own
broker, which hydrates only its own rows. -/
structure PaperPositionRow where
  accountId : AccountId
  venueId : VenueId
  outcomeId : OutcomeId
  position : PositionRow
  deriving DecidableEq

/-- `paper_transfer`, cash moved between an account's books at two venues. -/
structure PaperTransferRow where
  accountId : AccountId
  transfer : CashTransfer
  deriving DecidableEq

/-- `paper_pnl_snapshot`, a point of an account's equity curve. -/
structure PaperPnlSnapshotRow where
  accountId : AccountId
  ts : ℚ
  cash : ℚ
  mtmPositions : ℚ
  totalEquity : ℚ
  deriving DecidableEq

/-- A row of any table. One type for all of them, so that a statement can be
checked against every constraint at once. -/
inductive Row where
  | venue (r : VenueRow)
  | market (r : MarketRow)
  | outcome (r : OutcomeRow)
  | eventGroup (r : EventGroupRow)
  | eventGroupLeg (r : EventGroupLegRow)
  | quote (r : QuoteRow)
  | arbOpportunity (opp : ArbOpportunity)
  | paperAccount (r : PaperAccountRow)
  | paperBalance (r : PaperBalanceRow)
  | paperOrder (r : PaperOrder)
  | paperTicket (r : PaperTicket)
  | paperSettlement (r : PaperSettlement)
  | paperFill (r : PaperFill)
  | paperPosition (r : PaperPositionRow)
  | paperTransfer (r : PaperTransferRow)
  | paperPnlSnapshot (r : PaperPnlSnapshotRow)
  deriving DecidableEq

/-- The primary keys that something refers to. -/
inductive RowId where
  | venue (id : VenueId)
  | market (id : String)
  | outcome (id : OutcomeId)
  | eventGroup (id : GroupId)
  | paperAccount (id : AccountId)
  | paperOrder (id : String)
  | paperTicket (id : TicketId)
  deriving DecidableEq

/-- The unique constraints. -/
inductive UniqueKey where
  | marketVenueNativeId (venueId : VenueId) (venueMarketId : String)
  | outcomeMarketLabel (marketId label : String)
  | eglegGroupOutcome (eventGroupId : GroupId) (outcomeId : OutcomeId)
  | paperAccountName (name : String)
  | paperBalance (accountId : AccountId) (venueId : VenueId)
  | paperPosition (accountId : AccountId) (venueId : VenueId) (outcomeId : OutcomeId)
  deriving DecidableEq

namespace Row

/-- The primary key of a row. A table that nothing refers to has none here: its
ids are drawn by the database and clash with nothing. An order could refer to an
opportunity, but no caller has it do so. -/
@[simp] def key : Row → Option RowId
  | venue r => some (.venue r.id)
  | market r => some (.market r.id)
  | outcome r => some (.outcome r.id)
  | eventGroup r => some (.eventGroup r.id)
  | paperAccount r => some (.paperAccount r.id)
  | paperOrder r => some (.paperOrder r.id)
  | paperTicket r => some (.paperTicket r.id)
  | eventGroupLeg _ | quote _ | arbOpportunity _ | paperBalance _ | paperSettlement _
  | paperFill _ | paperPosition _ | paperTransfer _ | paperPnlSnapshot _ => none

/-- What a row takes under the unique constraints: no second row may take it. -/
@[simp] def uniques : Row → List UniqueKey
  | market r => [.marketVenueNativeId r.venueId r.venueMarketId]
  | outcome r => [.outcomeMarketLabel r.marketId r.label]
  | eventGroupLeg r => [.eglegGroupOutcome r.eventGroupId r.leg.outcomeId]
  | paperAccount r => [.paperAccountName r.name]
  | paperBalance r => [.paperBalance r.accountId r.venueId]
  | paperPosition r => [.paperPosition r.accountId r.venueId r.outcomeId]
  | venue _ | eventGroup _ | quote _ | arbOpportunity _ | paperOrder _ | paperTicket _
  | paperSettlement _ | paperFill _ | paperTransfer _ | paperPnlSnapshot _ => []

/-- The foreign keys. A ticket and an opportunity name their group without one,
so that retiring a group takes no history with it. -/
@[simp] def refs : Row → List RowId
  | market r => [.venue r.venueId]
  | outcome r => [.market r.marketId]
  | eventGroupLeg r => [.eventGroup r.eventGroupId, .outcome r.leg.outcomeId]
  | quote r => [.outcome r.outcomeId]
  | paperBalance r => [.paperAccount r.accountId, .venue r.venueId]
  | paperOrder r =>
      [.paperAccount r.accountId, .venue r.venueId, .outcome r.outcomeId] ++
        (r.ticketId.map .paperTicket).toList
  | paperTicket r => [.paperAccount r.accountId]
  | paperSettlement r => [.outcome r.outcomeId]
  | paperFill r => [.paperOrder r.orderId]
  | paperPosition r =>
      [.paperAccount r.accountId, .venue r.venueId, .outcome r.outcomeId]
  | paperTransfer r =>
      [.paperAccount r.accountId, .venue r.transfer.fromVenue, .venue r.transfer.toVenue]
  | paperPnlSnapshot r => [.paperAccount r.accountId]
  | venue _ | eventGroup _ | arbOpportunity _ | paperAccount _ => []

end Row

/-- The constraints of `db/models.py`, as the hosted database enforces them on
every statement. -/
def constraints : Constraints Row RowId UniqueKey where
  key := Row.key
  uniques := Row.uniques
  refs := Row.refs
  uniques_nodup r := by cases r <;> simp

@[simp] theorem constraints_key (r : Row) : constraints.key r = r.key := rfl

@[simp] theorem constraints_uniques (r : Row) : constraints.uniques r = r.uniques := rfl

@[simp] theorem constraints_refs (r : Row) : constraints.refs r = r.refs := rfl

/-- A database under the schema. It carries the proof that its rows satisfy the
constraints, so a statement that would break one gives none. -/
abbrev Database := Store constraints

/-! ## `db/repositories.py` -/

/-- `ensure_venue`. A venue that is there keeps its name and kind. -/
def ensureVenue (id : VenueId) (name kind : String) (db : Database) : Option Database :=
  match db.get? (.venue id) with
  | some _ => some db
  | none => db.insert (.venue ⟨id, name, kind⟩)

/-- The id of the market an outcome is placed under. -/
def placeholderMarketId (outcomeId : OutcomeId) : String := "placeholder:" ++ outcomeId

/-- The market and the outcome that are made up for an outcome id. -/
def placeholderMarket (outcomeId : OutcomeId) (venueId : VenueId) : MarketRow where
  id := placeholderMarketId outcomeId
  venueId := venueId
  venueMarketId := outcomeId
  title := "auto-placeholder for " ++ outcomeId
  kind := "binary"

def placeholderOutcome (outcomeId : OutcomeId) : OutcomeRow where
  id := outcomeId
  marketId := placeholderMarketId outcomeId
  label := outcomeId

/-- `ensure_outcome_placeholder`. The first time an outcome is named, a market and
the outcome are made up for it, so that what points at it has a row to point at.
It fails where the venue has no row. -/
def ensureOutcomePlaceholder (outcomeId : OutcomeId) (venueId : VenueId) (db : Database) :
    Option Database :=
  match db.get? (.outcome outcomeId) with
  | some _ => some db
  | none => do
      -- the market is flushed before the outcome that refers to it
      let db ← match db.get? (.market (placeholderMarketId outcomeId)) with
        | some _ => some db
        | none => db.insert (.market (placeholderMarket outcomeId venueId))
      db.insert (.outcome (placeholderOutcome outcomeId))

/-- An existing group takes the title and the source of the one that is
registered, and its start time if it has one. -/
def refreshGroup (group : EventGroup) : Row → Row
  | .eventGroup r =>
      if r.id = group.id then
        .eventGroup { r with
          title := group.title
          source := group.source
          -- a known start time is not clobbered by a pass that has none
          startTime := match group.startTime with
            | some start => some start
            | none => r.startTime }
      else .eventGroup r
  | r => r

/-- `EventGroupLeg.event_group_id == group_id`. -/
def isLegOf (groupId : GroupId) : Row → Bool
  | .eventGroupLeg r => decide (r.eventGroupId = groupId)
  | _ => false

/-- `EventGroup.id == group_id`. -/
def isGroup (groupId : GroupId) : Row → Bool
  | .eventGroup r => decide (r.id = groupId)
  | _ => false

theorem keeps_refreshGroup (group : EventGroup) : constraints.Keeps (refreshGroup group) :=
  .of_forall fun r => by
    cases r with
    | eventGroup r =>
        rw [refreshGroup]
        split <;> exact ⟨rfl, rfl, rfl⟩
    | _ => exact ⟨rfl, rfl, rfl⟩

/-- The row of a leg. -/
def legRow (group : EventGroup) (leg : EventGroupLeg) : EventGroupLegRow where
  eventGroupId := group.id
  leg :=
    { outcomeId := leg.outcomeId, isYesSide := leg.isYesSide,
      resolutionSource := group.resolutionSourceByVenue.get? leg.venueId }

/-- One turn of the loop over the legs. A group that lists an outcome twice fails
here, by the unique constraint. -/
def addLeg (group : EventGroup) (db : Database) (leg : EventGroupLeg) : Option Database := do
  let db ← ensureOutcomePlaceholder leg.outcomeId leg.venueId db
  db.insert (.eventGroupLeg (legRow group leg))

/-- `upsert_event_group`. The legs are replaced wholesale, so a leg that the
group no longer has goes. -/
def upsertEventGroup (group : EventGroup) (db : Database) : Option Database := do
  let db ← match db.get? (.eventGroup group.id) with
    | none => db.insert (.eventGroup ⟨group.id, group.title, group.startTime, group.source⟩)
    | some _ => some (db.update (refreshGroup group) (keeps_refreshGroup group))
  let db ← db.delete (isLegOf group.id)
  group.legs.foldlM (addLeg group) db

/-- `delete_event_group`. The legs go first, since they refer to the group; the
outcomes they named stay. -/
def deleteEventGroup (groupId : GroupId) (db : Database) : Option Database := do
  let db ← db.delete (isLegOf groupId)
  db.delete (isGroup groupId)

/-- `insert_quote`. -/
def insertQuote (r : QuoteRow) (db : Database) : Option Database := db.insert (.quote r)

/-- `insert_opportunity`. It names outcomes in its legs, which are one JSON column
and refer to nothing. -/
def insertOpportunity (opp : ArbOpportunity) (db : Database) : Option Database :=
  db.insert (.arbOpportunity opp)

/-- `ensure_paper_account`, whose callers name an account by its id. -/
def ensurePaperAccount (accountId : AccountId) (db : Database) : Option Database :=
  match db.get? (.paperAccount accountId) with
  | some _ => some db
  | none => db.insert (.paperAccount ⟨accountId, accountId⟩)

/-- The row of an account at a venue. -/
def isBalance (accountId : AccountId) (venueId : VenueId) : Row → Bool
  | .paperBalance r => decide (r.accountId = accountId ∧ r.venueId = venueId)
  | _ => false

/-- `row.amount = amount`, on that row. -/
def setAmount (accountId : AccountId) (venueId : VenueId) (amount : ℚ) : Row → Row
  | .paperBalance r =>
      if r.accountId = accountId ∧ r.venueId = venueId then .paperBalance { r with amount }
      else .paperBalance r
  | r => r

theorem keeps_setAmount (accountId : AccountId) (venueId : VenueId) (amount : ℚ) :
    constraints.Keeps (setAmount accountId venueId amount) :=
  .of_forall fun r => by
    cases r with
    | paperBalance r =>
        rw [setAmount]
        split <;> exact ⟨rfl, rfl, rfl⟩
    | _ => exact ⟨rfl, rfl, rfl⟩

/-- `upsert_paper_balance`. The column keeps twelve decimals. -/
def upsertPaperBalance (accountId : AccountId) (venueId : VenueId) (amount : ℚ)
    (db : Database) : Option Database :=
  if db.rows.any (isBalance accountId venueId) then
    some (db.update (setAmount accountId venueId (numeric amount)) (keeps_setAmount ..))
  else db.insert (.paperBalance ⟨accountId, venueId, numeric amount⟩)

/-- `insert_paper_order`. The account and the ticket, if there is one, must have
their rows; the outcome is placed if it has none. -/
def insertPaperOrder (r : PaperOrder) (db : Database) : Option Database := do
  let db ← ensureOutcomePlaceholder r.outcomeId r.venueId db
  db.insert (.paperOrder r)

/-- `insert_paper_fill`. -/
def insertPaperFill (r : PaperFill) (db : Database) : Option Database := db.insert (.paperFill r)

/-- `insert_paper_ticket`. -/
def insertPaperTicket (r : PaperTicket) (db : Database) : Option Database :=
  db.insert (.paperTicket r)

/-- `insert_paper_settlement`. A resolution is appended: an outcome that resolves
again has two rows. -/
def insertPaperSettlement (r : PaperSettlement) (venueId : VenueId) (db : Database) :
    Option Database := do
  let db ← ensureOutcomePlaceholder r.outcomeId venueId db
  db.insert (.paperSettlement r)

/-- The row of an outcome an account holds at a venue. -/
def isPosition (accountId : AccountId) (venueId : VenueId) (outcomeId : OutcomeId) : Row → Bool
  | .paperPosition r =>
      decide (r.accountId = accountId ∧ r.venueId = venueId ∧ r.outcomeId = outcomeId)
  | _ => false

/-- The columns of that row, assigned. -/
def setPosition (accountId : AccountId) (venueId : VenueId) (outcomeId : OutcomeId)
    (position : PositionRow) : Row → Row
  | .paperPosition r =>
      if r.accountId = accountId ∧ r.venueId = venueId ∧ r.outcomeId = outcomeId then
        .paperPosition { r with position }
      else .paperPosition r
  | r => r

theorem keeps_setPosition (accountId : AccountId) (venueId : VenueId) (outcomeId : OutcomeId)
    (position : PositionRow) :
    constraints.Keeps (setPosition accountId venueId outcomeId position) :=
  .of_forall fun r => by
    cases r with
    | paperPosition r =>
        rw [setPosition]
        split <;> exact ⟨rfl, rfl, rfl⟩
    | _ => exact ⟨rfl, rfl, rfl⟩

/-- A position as its columns keep it. -/
def inColumns (position : PositionRow) : PositionRow where
  qty := numeric position.qty
  avgPrice := numeric position.avgPrice
  realizedPnl := numeric position.realizedPnl
  openFees := numeric position.openFees

/-- `upsert_paper_position`. An outcome whose row is not written yet gets its
placeholder under the broker's venue. -/
def upsertPaperPosition (accountId : AccountId) (venueId : VenueId) (outcomeId : OutcomeId)
    (position : PositionRow) (db : Database) : Option Database := do
  let db ← ensureOutcomePlaceholder outcomeId venueId db
  if db.rows.any (isPosition accountId venueId outcomeId) then
    some (db.update (setPosition accountId venueId outcomeId (inColumns position))
      (keeps_setPosition ..))
  else db.insert (.paperPosition ⟨accountId, venueId, outcomeId, inColumns position⟩)

/-- `insert_paper_transfer`. -/
def insertPaperTransfer (r : PaperTransferRow) (db : Database) : Option Database :=
  db.insert (.paperTransfer r)

/-- `insert_paper_pnl_snapshot`. -/
def insertPaperPnlSnapshot (r : PaperPnlSnapshotRow) (db : Database) : Option Database :=
  db.insert (.paperPnlSnapshot r)

/-- `row.status = status; row.rejection_reason = rejection_reason`, on the row
of a ticket. -/
def setStatus (ticketId : TicketId) (status : String) (rejectionReason : Option String) :
    Row → Row
  | .paperTicket r =>
      if r.id = ticketId then .paperTicket { r with status, rejectionReason }
      else .paperTicket r
  | r => r

theorem keeps_setStatus (ticketId : TicketId) (status : String)
    (rejectionReason : Option String) :
    constraints.Keeps (setStatus ticketId status rejectionReason) :=
  .of_forall fun r => by
    cases r with
    | paperTicket r =>
        rw [setStatus]
        split <;> exact ⟨rfl, rfl, rfl⟩
    | _ => exact ⟨rfl, rfl, rfl⟩

/-- `update_paper_ticket_status`. A ticket that a reset has deleted meanwhile is
passed over. -/
def updatePaperTicketStatus (ticketId : TicketId) (status : String)
    (rejectionReason : Option String) (db : Database) : Option Database :=
  match db.get? (.paperTicket ticketId) with
  | none => some db
  | some _ => some (db.update (setStatus ticketId status rejectionReason) (keeps_setStatus ..))

/-- The ids of an account's orders. -/
def orderIds (accountId : AccountId) (db : Database) : List String :=
  db.rows.filterMap fun
    | .paperOrder r => if r.accountId = accountId then some r.id else none
    | _ => none

/-- `PaperFill.order_id.in_(order_ids)`. A fill knows no account but that of its
order. -/
def isFillOf (orderIds : List String) : Row → Bool
  | .paperFill r => orderIds.contains r.orderId
  | _ => false

def isOrderOf (accountId : AccountId) : Row → Bool
  | .paperOrder r => decide (r.accountId = accountId)
  | _ => false

def isTicketOf (accountId : AccountId) : Row → Bool
  | .paperTicket r => decide (r.accountId = accountId)
  | _ => false

/-- Every account's: `paper_settlement` is keyed by its outcome, since on a real
exchange a settlement is nobody's own. -/
def isSettlement : Row → Bool
  | .paperSettlement _ => true
  | _ => false

def isSnapshotOf (accountId : AccountId) : Row → Bool
  | .paperPnlSnapshot r => decide (r.accountId = accountId)
  | _ => false

def isPositionOf (accountId : AccountId) : Row → Bool
  | .paperPosition r => decide (r.accountId = accountId)
  | _ => false

def isTransferOf (accountId : AccountId) : Row → Bool
  | .paperTransfer r => decide (r.accountId = accountId)
  | _ => false

def isBalanceOf (accountId : AccountId) : Row → Bool
  | .paperBalance r => decide (r.accountId = accountId)
  | _ => false

/-- What `delete_paper_history` deletes, statement by statement: fills before
their orders, and orders before the tickets they refer to. -/
def historyDeletes (accountId : AccountId) (orderIds : List String) : List (Row → Bool) :=
  [isFillOf orderIds, isOrderOf accountId, isTicketOf accountId, isSettlement,
    isSnapshotOf accountId, isPositionOf accountId, isTransferOf accountId,
    isBalanceOf accountId]

/-- `delete_paper_history`. The order ids are read before anything is deleted, and
the row of the account itself stays. -/
def deletePaperHistory (accountId : AccountId) (db : Database) : Option Database :=
  (historyDeletes accountId (orderIds accountId db)).foldlM Store.delete db

end Schema

end Arbys
