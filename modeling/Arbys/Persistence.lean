import Arbys.Cash
import Arbys.Lib.Runs

/-!
# What is stored, and what a restart reads back

`shared/persistence.py`, the paper tables of `db/repositories.py` and the
hydration in `AppState.bootstrap`. A balance or a position row is written
whole, under the unique key of its table; orders, fills, settlements and
transfers are appended. Hydration reads the balances and positions of one
account and nothing else.
-/

namespace Arbys

open AccountState PaperExecutionAdapter

/-! ## The tables -/

/-- `paper_position`, less its key. -/
structure PositionRow where
  qty : ℚ := 0
  avgPrice : ℚ := 0
  realizedPnl : ℚ := 0
  openFees : ℚ := 0
  deriving DecidableEq

/-- `paper_settlement`. -/
structure SettlementRow where
  outcomeId : OutcomeId
  resolvedValue : ℚ
  source : String
  deriving DecidableEq

/-- `Numeric(28, 12)`: to the nearest 12th decimal, halves away from zero. -/
def numeric (x : ℚ) : ℚ :=
  (if 0 ≤ x then ⌊x * 10 ^ 12 + 1 / 2⌋ else ⌈x * 10 ^ 12 - 1 / 2⌉) / 10 ^ 12

/-- An average of 100 at 0.45 and 50 at 0.46 is cut off. -/
example : numeric (34 / 75) = 453333333333 / 10 ^ 12 := by decide +kernel

structure Db where
  balances : Dict (AccountId × VenueId) ℚ := Dict.empty
  positions : Dict (AccountId × VenueId × OutcomeId) PositionRow := Dict.empty
  orders : List (AccountId × Order × Option RejectReason) := []
  fills : List Fill := []
  settlements : List SettlementRow := []
  transfers : List (AccountId × CashTransfer) := []

namespace Db

def upsertPaperBalance (db : Db) (acct : AccountId) (v : VenueId) (amount : ℚ) : Db :=
  { db with balances := db.balances.set (acct, v) amount }

def upsertPaperPosition (db : Db) (acct : AccountId) (v : VenueId) (o : OutcomeId)
    (row : PositionRow) : Db :=
  { db with positions := db.positions.set (acct, v, o) row }

def insertPaperSettlement (db : Db) (o : OutcomeId) (resolvedValue : ℚ) (source : String) : Db :=
  { db with settlements := db.settlements ++ [⟨o, resolvedValue, source⟩] }

/-- `on_settled`: balances, closed positions and the record, in one
transaction. -/
def onSettled (db : Db) (o : OutcomeId) (resolvedValue : ℚ) (v : VenueId) (source : String)
    (closed : List (AccountId × ℚ × ℚ × ℚ)) : Db :=
  (closed.foldl (fun db (acct, balance, realized, fees) =>
    (db.upsertPaperBalance acct v balance).upsertPaperPosition acct v o
      ⟨0, 0, realized, fees⟩) db).insertPaperSettlement o resolvedValue source

/-- What the sink writes for an event. The account of an order row is the one
the sink is scoped to. -/
def write (scope : AccountId) (db : Db) : SinkEvent → Db
  | .onOrder order reason => { db with orders := db.orders ++ [(scope, order, reason)] }
  | .onFill _ fill => { db with fills := db.fills ++ [fill] }
  | .onBalance acct v amount => db.upsertPaperBalance acct v amount
  | .onPosition acct o qty avg realized v fees =>
      db.upsertPaperPosition acct v o ⟨qty, avg, realized, fees⟩
  | .onSettled o resolvedValue v source closed => db.onSettled o resolvedValue v source closed

def writeAll (scope : AccountId) (db : Db) (events : List SinkEvent) : Db :=
  events.foldl (write scope) db

/-- `CashSweepService._persist`: the transfers, and the balance of every venue
they touched. -/
def persistSweep (db : Db) (acct : AccountId) (b : Brokers) (moved : List CashTransfer) : Db :=
  (touched moved).foldl (fun db v =>
      match b.get? v with
      | some a => db.upsertPaperBalance acct v (a.cash acct)
      | none => db)
    { db with transfers := db.transfers ++ moved.map fun t => (acct, t) }

/-- `_has_settlement_row`. -/
def hasSettlementRow (db : Db) (o : OutcomeId) : Bool :=
  db.settlements.any fun row => row.outcomeId = o

end Db

/-! ## Hydration -/

/-- `DEFAULT_STARTING_BALANCE`. -/
def defaultStartingBalance : ℚ := 4000

/-- The brokers as a new process builds them. -/
def Brokers.fresh (b : Brokers) : Brokers where
  adapters := b.adapters.mapVal fun v a => PaperExecutionAdapter.new v a.fees a.slippageBps
  keyed := by
    intro v a h
    rw [Dict.get?_mapVal] at h
    obtain ⟨_, _, rfl⟩ := Option.map_eq_some_iff.mp h
    rfl

/-- Hydrate the balances of `acct`, each on the broker of its venue. -/
def hydrateBalances (acct : AccountId) (b : Brokers)
    (rows : List ((AccountId × VenueId) × ℚ)) : Brokers :=
  rows.foldl (fun b row =>
    if row.1.1 = acct then b.modify row.1.2 fun a => a.hydrateBalance acct row.2 else b) b

/-- Hydrate the positions of `acct`, each on the broker of its venue. -/
def hydratePositions (acct : AccountId) (b : Brokers)
    (rows : List ((AccountId × VenueId × OutcomeId) × PositionRow)) : Brokers :=
  rows.foldl (fun b row =>
    if row.1.1 = acct then
      b.modify row.1.2.1 fun a => a.hydratePosition acct row.1.2.2 row.2.qty row.2.avgPrice
        row.2.realizedPnl row.2.openFees
    else b) b

/-- Seed the venues that no balance row funds, in memory and in the table. -/
def seedBalances (acct : AccountId) (stored : Dict (AccountId × VenueId) ℚ) :
    List VenueId → Brokers × Db → Brokers × Db
  | [], s => s
  | v :: venues, s =>
      seedBalances acct stored venues
        (if (stored.get? (acct, v)).isSome then s
        else (s.1.modify v fun a => a.hydrateBalance acct defaultStartingBalance,
          s.2.upsertPaperBalance acct v defaultStartingBalance))

/-- `default_account_id`, which `bootstrap` serves and the sinks of the brokers
are scoped to. -/
def defaultAccountId : AccountId := "default"

/-- The hydration of `bootstrap`, for the account it serves. -/
def bootstrap (acct : AccountId) (b : Brokers) (db : Db) : Brokers × Db :=
  let b := hydrateBalances acct b db.balances.entries
  let b := hydratePositions acct b db.positions.entries
  seedBalances acct db.balances b.adapters.keys (b, db)

/-! ## Running with the sink attached -/

structure PaperSystem where
  brokers : Brokers
  db : Db

/-- One awaited operation. The book and the clock may be different at every
order; a sweep levels the accounts it is configured with. -/
inductive PaperOp where
  | placeOrder (v : VenueId) (book : QuoteBook) (now : ℚ) (acct : AccountId) (o : OutcomeId)
      (isBuy : Bool) (qty limitPrice : ℚ) (ticketId : Option TicketId)
  | settleOutcomeAsync (v : VenueId) (o : OutcomeId) (resolvedValue : ℚ) (source : String)
  | closeAlreadySettled (v : VenueId) (o : OutcomeId)
  | sweepOnce (accountIds : List AccountId) (minTransfer : ℚ)

namespace PaperSystem

/-- Run an operation of one broker and write the events it emits. -/
def onBroker (scope : AccountId) (s : PaperSystem) (v : VenueId)
    (op : PaperExecutionAdapter → PaperExecutionAdapter × List SinkEvent) : PaperSystem :=
  match s.brokers.get? v with
  | none => s
  | some a =>
      let r := op a
      ⟨s.brokers.put r.1, s.db.writeAll scope r.2⟩

/-- `sweep_once` for one account, persisted if anything moved. -/
def sweepOne (minTransfer : ℚ) (s : PaperSystem) (acct : AccountId) : PaperSystem :=
  let swept := sweepAccount s.brokers acct minTransfer
  ⟨swept.1, if swept.2 = [] then s.db else s.db.persistSweep acct swept.1 swept.2⟩

def step (scope : AccountId) (s : PaperSystem) : PaperOp → PaperSystem
  | .placeOrder v book now acct o isBuy qty limitPrice ticketId =>
      s.onBroker scope v fun a => a.placeOrder book now acct o isBuy qty limitPrice ticketId
  | .settleOutcomeAsync v o resolvedValue source =>
      s.onBroker scope v fun a => a.settleOutcomeAsync o resolvedValue source
  | .closeAlreadySettled v o => s.onBroker scope v fun a => a.closeAlreadySettled o
  | .sweepOnce accountIds minTransfer => accountIds.foldl (sweepOne minTransfer) s

end PaperSystem

end Arbys
