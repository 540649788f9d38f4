import Arbys.Lib.WriteBehind
import Arbys.Restart
import Arbys.TicketAtomicity
import Arbys.TwoLegTicket

/-!
# The order in which writes land

Fills, settlements and cash sweeps that run concurrently, each awaiting its own
writes. `run_write` is given values read from memory before it; a transient
failure is tried again after a back-off, while other tasks change the same
account and write it too. A row then holds what landed last, as its columns
keep it. This is a `WriteBehind` of the brokers and the tables (`paperWrites`),
whose keys are a stored balance and a stored position.

A task runs callbacks: `emit_order_events` reads each value as it comes to it,
a settlement is paid and written in one stretch, a sweep levels one account and
writes it before the next.
-/

namespace Arbys

open AccountState PaperExecutionAdapter

/-! ## Rows and what they read as -/

/-- A row of `paper_balance` or of `paper_position`. -/
inductive RowKey where
  | balance (acct : AccountId) (v : VenueId)
  | position (acct : AccountId) (v : VenueId) (o : OutcomeId)
  deriving DecidableEq

inductive RowValue where
  | balance (amount : ℚ)
  | position (row : PositionRow)
  deriving DecidableEq

/-- An account on a venue; none is held where there is no broker. -/
def Brokers.accountOn (b : Brokers) (acct : AccountId) (v : VenueId) : AccountState :=
  ((b.get? v).map fun a => a.account acct).getD {}

def Brokers.readRow (b : Brokers) : RowKey → RowValue
  | .balance acct v => .balance ((b.accountOn acct v).cash v)
  | .position acct v o => .position ((b.accountOn acct v).row o)

def Db.readRow (db : Db) : RowKey → RowValue
  | .balance acct v => .balance (db.balances.getD (acct, v) 0)
  | .position acct v o => .position (db.positions.getD (acct, v, o) {})

/-! ## Writes -/

/-- A write under way, with the values it was given. A sweep is given the
amounts it read off the brokers. -/
inductive RowWrite where
  | sink (e : SinkEvent)
  | sweep (acct : AccountId) (b : Brokers) (moved : List CashTransfer)

namespace RowWrite

def land (scope : AccountId) (db : Db) : RowWrite → Db
  | .sink e => db.write scope e
  | .sweep acct b moved => db.persistSweep acct b moved

def keys : RowWrite → List RowKey
  | .sink (.onBalance acct v _) => [.balance acct v]
  | .sink (.onPosition acct o _ _ _ v _) => [.position acct v o]
  | .sink (.onSettled o _ v _ closed) =>
      closed.flatMap fun c => [.balance c.1 v, .position c.1 v o]
  | .sink (.onOrder _ _) => []
  | .sink (.onFill _ _) => []
  | .sweep acct b moved =>
      ((touched moved).filter fun v => (b.get? v).isSome).map fun v => .balance acct v

/-- What the write stores under a key: what it leaves of an empty database. -/
def value (w : RowWrite) (k : RowKey) : RowValue := (w.land "" {}).readRow k

end RowWrite

/-! ## What the columns keep

A `Numeric(28, 12)` column rounds what is written to it, so the tables hold of
a write what the column makes of its amounts. -/

/-- The event as the balance and position columns take it. Order and fill rows
are read by no broker. -/
def SinkEvent.inColumns (column : ℚ → ℚ) : SinkEvent → SinkEvent
  | .onBalance acct v amount => .onBalance acct v (column amount)
  | .onPosition acct o qty avgPx gain v fees =>
      .onPosition acct o (column qty) (column avgPx) (column gain) v (column fees)
  | .onSettled o resolvedValue v source closed =>
      .onSettled o resolvedValue v source
        (closed.map fun c => (c.1, column c.2.1, column c.2.2.1, column c.2.2.2))
  | .onOrder order rejectionReason => .onOrder order rejectionReason
  | .onFill order fill => .onFill order fill

/-- `CashSweepService._persist`, as the balance column takes it. -/
def Db.persistSweepIn (column : ℚ → ℚ) (db : Db) (acct : AccountId) (b : Brokers)
    (moved : List CashTransfer) : Db :=
  (touched moved).foldl (fun db v =>
      match b.get? v with
      | some a => db.upsertPaperBalance acct v (column (a.cash acct))
      | none => db)
    { db with transfers := db.transfers ++ moved.map fun t => (acct, t) }

namespace RowWrite

/-- A write commits: the tables hold what the columns make of it. -/
def landIn (column : ℚ → ℚ) (scope : AccountId) (db : Db) : RowWrite → Db
  | .sink e => db.write scope (e.inColumns column)
  | .sweep acct b moved => db.persistSweepIn column acct b moved

/-- The columns hold every amount of the write as it was given. -/
def HeldBy (column : ℚ → ℚ) : RowWrite → Prop
  | .sink e => e.inColumns column = e
  | .sweep acct b moved =>
      ∀ v ∈ touched moved, ∀ a ∈ b.get? v, column (a.cash acct) = a.cash acct

instance (column : ℚ → ℚ) : ∀ w : RowWrite, Decidable (w.HeldBy column)
  | .sink e => inferInstanceAs (Decidable (e.inColumns column = e))
  | .sweep acct b moved => inferInstanceAs (Decidable
      (∀ v ∈ touched moved, ∀ a ∈ b.get? v, column (a.cash acct) = a.cash acct))

/-- Then the write lands whole. -/
theorem landIn_of_heldBy {column : ℚ → ℚ} {w : RowWrite} (h : w.HeldBy column)
    (scope : AccountId) (db : Db) : w.landIn column scope db = w.land scope db := by
  cases w with
  | sink e => exact congrArg (db.write scope) h
  | sweep acct b moved =>
      refine List.foldl_ext _ _ _ fun db v hv => ?_
      cases ha : b.get? v with
      | none => rfl
      | some a =>
          show db.upsertPaperBalance acct v (column (a.cash acct)) = _
          rw [h v hv a ha]

end RowWrite

/-! ## Callbacks -/

inductive SinkCall where
  | onOrder (order : Order) (rejectionReason : Option RejectReason)
  | onFill (order : Order) (fill : Fill)
  | onBalance (acct : AccountId) (v : VenueId)
  | onPosition (acct : AccountId) (v : VenueId) (o : OutcomeId)
  /-- `settle_outcome_async`: the payout, and its `on_settled`. -/
  | settle (v : VenueId) (o : OutcomeId) (resolvedValue : ℚ) (source : String)
  /-- One turn of `close_already_settled`. -/
  | close (v : VenueId) (o : OutcomeId) (acct : AccountId)
  /-- One turn of `sweep_once`. -/
  | sweep (minTransfer : ℚ) (acct : AccountId)

namespace SinkCall

/-- A callback up to its await. -/
def call (b : Brokers) : SinkCall → Brokers × Option RowWrite
  | .onOrder order reason => (b, some (.sink (.onOrder order reason)))
  | .onFill order fill => (b, some (.sink (.onFill order fill)))
  | .onBalance acct v => (b, some (.sink (.onBalance acct v ((b.accountOn acct v).cash v))))
  | .onPosition acct v o =>
      let st := b.accountOn acct v
      (b, some (.sink (.onPosition acct o (st.qty o) (st.avg o) (st.realizedOn o) v
        (st.openFees o))))
  | .settle v o resolvedValue source =>
      match b.get? v with
      | none => (b, none)
      | some a =>
          let r := a.settleOutcomeAsync o resolvedValue source
          (b.put r.1, r.2.head?.map .sink)
  | .close v o acct =>
      match b.get? v with
      | none => (b, none)
      | some a =>
          let st := a.account acct
          if st.qty o = 0 then (b, none)
          else
            (b.put (a.setAccount acct (st.closeOut o)),
              some (.sink (.onPosition acct o 0 0 (st.realizedOn o) v 0)))
  | .sweep minTransfer acct =>
      let swept := sweepAccount b acct minTransfer
      (swept.1, if swept.2 = [] then none else some (.sweep acct swept.1 swept.2))

/-- The rows a callback is certain to write. -/
def owes : SinkCall → List RowKey
  | .onBalance acct v => [.balance acct v]
  | .onPosition acct v o => [.position acct v o]
  | _ => []

end SinkCall

/-! ## Operations -/

/-- `emit_order_events`. -/
def emitCalls (acct : AccountId) (v : VenueId) (order : Order) (fill : Option Fill)
    (rejectionReason : Option RejectReason) : List SinkCall :=
  match fill with
  | none => [.onOrder order rejectionReason]
  | some fill => [.onOrder order none, .onFill order fill, .onBalance acct v,
      .onPosition acct v order.outcomeId]

inductive PaperStart where
  | placeOrder (v : VenueId) (book : QuoteBook) (now : ℚ) (acct : AccountId) (o : OutcomeId)
      (isBuy : Bool) (qty limitPrice : ℚ) (ticketId : Option TicketId)
  | commitAtomically (book : QuoteBook) (clock : ℕ → ℚ) (intent : ExecutionIntent)
  | settleOutcomeAsync (v : VenueId) (o : OutcomeId) (resolvedValue : ℚ) (source : String)
  | closeAlreadySettled (v : VenueId) (o : OutcomeId)
  | sweepOnce (accountIds : List AccountId) (minTransfer : ℚ)

namespace PaperStart

/-- What an operation changes before its first callback, and its callbacks. -/
def start (b : Brokers) : PaperStart → Brokers × List SinkCall
  | .placeOrder v book now acct o isBuy qty limitPrice ticketId =>
      match b.get? v with
      | none => (b, [])
      | some a =>
          let r := a.applyFill book now acct o isBuy qty limitPrice ticketId
          (b.put r.adapter, emitCalls acct v r.order r.fill r.reason)
  | .commitAtomically book clock intent =>
      let c := Router.commitLegs book clock intent.accountId intent.ticketId 0 b intent.legs
      ((Router.commitAtomically b book clock intent).1,
        if c.failure = none then
          c.applied.flatMap fun e => emitCalls intent.accountId e.1 e.2.1 (some e.2.2) none
        else [])
  | .settleOutcomeAsync v o resolvedValue source => (b, [.settle v o resolvedValue source])
  | .closeAlreadySettled v o =>
      (b, ((b.get? v).map fun a => a.accounts.keys.map (.close v o)).getD [])
  | .sweepOnce accountIds minTransfer => (b, accountIds.map (.sweep minTransfer))

/-- A ticket that is rolled back leaves the fees carried on its outcomes where
they were. -/
def KeepsFees (b : Brokers) : PaperStart → Prop
  | .commitAtomically book clock intent =>
      ∀ p ∈ Purse.firstRefusal (fun n leg => Router.priceLeg b book (clock n) leg) 0
          (Purse.read b intent.accountId) intent.legs,
        ∀ leg ∈ intent.legs, p.carried leg.venueId leg.outcomeId =
          (Purse.read b intent.accountId).carried leg.venueId leg.outcomeId
  | _ => True

instance (b : Brokers) : ∀ op : PaperStart, Decidable (op.KeepsFees b)
  | .commitAtomically .. => by unfold KeepsFees; infer_instance
  | .placeOrder .. => isTrue trivial
  | .settleOutcomeAsync .. => isTrue trivial
  | .closeAlreadySettled .. => isTrue trivial
  | .sweepOnce .. => isTrue trivial

end PaperStart

/-- The legs before a refusal carry their fees, each on its own outcome. -/
theorem Purse.carried_firstRefusal_off {price : ℕ → IntentLeg → Except RejectReason (ℚ × ℚ)}
    {n : ℕ} {p p' : Purse} {legs : List IntentLeg} (h : p' ∈ firstRefusal price n p legs)
    {v : VenueId} {o : OutcomeId} (hoff : ∀ leg ∈ legs, ¬(v = leg.venueId ∧ o = leg.outcomeId)) :
    p'.carried v o = p.carried v o := by
  induction legs generalizing n p with
  | nil => cases h
  | cons leg legs ih =>
      rw [firstRefusal] at h
      split at h
      · cases h
        rfl
      · split at h
        · cases h
          rfl
        · rw [ih h fun leg' hleg' => hoff leg' (List.mem_cons_of_mem _ hleg')]
          exact if_neg (hoff leg List.mem_cons_self)

/-! ## What lands -/

theorem mem_keys_onSettled_balance {o : OutcomeId} {x : ℚ} {v w : VenueId} {source : String}
    {closed : List (AccountId × ℚ × ℚ × ℚ)} {acct : AccountId} :
    RowKey.balance acct w ∈ (RowWrite.sink (.onSettled o x v source closed)).keys ↔
      w = v ∧ acct ∈ closed.map Prod.fst := by
  simp only [RowWrite.keys, List.mem_flatMap, List.mem_cons, List.not_mem_nil, or_false,
    RowKey.balance.injEq, reduceCtorEq, List.mem_map]
  constructor
  · rintro ⟨c, hc, rfl, rfl⟩
    exact ⟨rfl, c, hc, rfl⟩
  · rintro ⟨rfl, c, hc, rfl⟩
    exact ⟨c, hc, rfl, rfl⟩

theorem mem_keys_onSettled_position {o o' : OutcomeId} {x : ℚ} {v w : VenueId} {source : String}
    {closed : List (AccountId × ℚ × ℚ × ℚ)} {acct : AccountId} :
    RowKey.position acct w o' ∈ (RowWrite.sink (.onSettled o x v source closed)).keys ↔
      w = v ∧ o' = o ∧ acct ∈ closed.map Prod.fst := by
  simp only [RowWrite.keys, List.mem_flatMap, List.mem_cons, List.not_mem_nil, or_false,
    RowKey.position.injEq, reduceCtorEq, false_or, List.mem_map]
  constructor
  · rintro ⟨c, hc, rfl, rfl, rfl⟩
    exact ⟨rfl, rfl, c, hc, rfl⟩
  · rintro ⟨rfl, rfl, c, hc, rfl⟩
    exact ⟨c, hc, rfl, rfl, rfl⟩

theorem mem_keys_sweep {acct j : AccountId} {b : Brokers} {moved : List CashTransfer}
    {w : VenueId} : RowKey.balance j w ∈ (RowWrite.sweep acct b moved).keys ↔
      j = acct ∧ w ∈ touched moved ∧ (b.get? w).isSome = true := by
  simp only [RowWrite.keys, List.mem_map, List.mem_filter, RowKey.balance.injEq]
  constructor
  · rintro ⟨v, ⟨hv, hb⟩, rfl, rfl⟩
    exact ⟨rfl, hv, hb⟩
  · rintro ⟨rfl, hv, hb⟩
    exact ⟨w, ⟨hv, hb⟩, rfl, rfl⟩

/-- A row that two tables share reads alike in both. -/
theorem readRow_congr {db db' : Db} {k : RowKey}
    (hbal : ∀ acct v, k = .balance acct v →
      db'.balances.get? (acct, v) = db.balances.get? (acct, v))
    (hpos : ∀ acct v o, k = .position acct v o →
      db'.positions.get? (acct, v, o) = db.positions.get? (acct, v, o)) :
    db'.readRow k = db.readRow k := by
  cases k with
  | balance acct v => rw [Db.readRow, Db.readRow, Dict.getD, hbal acct v rfl, ← Dict.getD]
  | position acct v o => rw [Db.readRow, Db.readRow, Dict.getD, hpos acct v o rfl, ← Dict.getD]

namespace RowWrite

variable {scope : AccountId} {db : Db}

/-- **A write stores what it carries**, whatever was there. -/
theorem readRow_land (w : RowWrite) (scope : AccountId) (db : Db) {k : RowKey} (hk : k ∈ w.keys) :
    (w.land scope db).readRow k = w.value k := by
  unfold value
  cases w with
  | sweep acct b moved =>
      obtain ⟨hpos, _, hbal⟩ := persistSweep_tables db acct b moved
      obtain ⟨_, _, hbal'⟩ := persistSweep_tables {} acct b moved
      cases k with
      | position j v o => simp [keys] at hk
      | balance j v =>
          have hmem := mem_keys_sweep.mp hk
          refine readRow_congr (fun _ _ he => ?_) fun _ _ _ he => by cases he
          cases he
          rw [land, land, hbal, hbal', if_pos hmem, if_pos hmem]
  | sink e =>
      cases e with
      | onOrder order reason => cases hk
      | onFill order fill => cases hk
      | onBalance acct v amount =>
          rcases List.mem_singleton.mp hk with rfl
          simp [land, Db.write, Db.upsertPaperBalance, Db.readRow]
      | onPosition acct o qty avg realized v fees =>
          rcases List.mem_singleton.mp hk with rfl
          simp [land, Db.write, Db.upsertPaperPosition, Db.readRow]
      | onSettled o x v source closed =>
          obtain ⟨hbal, hpos, _⟩ := onSettled_tables db o x v source closed
          obtain ⟨hbal', hpos', _⟩ := onSettled_tables {} o x v source closed
          refine readRow_congr (fun acct w he => ?_) fun acct w o' he => ?_
          · subst he
            obtain ⟨rfl, hmem⟩ := mem_keys_onSettled_balance.mp hk
            simp only [land, Db.write, hbal, hbal']
            refine Dict.get?_setAll_congr ?_ _ _
            rw [List.map_map]
            obtain ⟨c, hc, rfl⟩ := List.mem_map.mp hmem
            exact List.mem_map.mpr ⟨c, hc, rfl⟩
          · subst he
            obtain ⟨rfl, rfl, hmem⟩ := mem_keys_onSettled_position.mp hk
            simp only [land, Db.write, hpos, hpos']
            refine Dict.get?_setAll_congr ?_ _ _
            rw [List.map_map]
            obtain ⟨c, hc, rfl⟩ := List.mem_map.mp hmem
            exact List.mem_map.mpr ⟨c, hc, rfl⟩

/-- And leaves every other row alone. -/
theorem readRow_land_off (w : RowWrite) (scope : AccountId) (db : Db) {k : RowKey}
    (hk : k ∉ w.keys) : (w.land scope db).readRow k = db.readRow k := by
  cases w with
  | sweep acct b moved =>
      obtain ⟨hpos, _, hbal⟩ := persistSweep_tables db acct b moved
      refine readRow_congr (fun j v he => ?_) fun j v o _ => by rw [land, hpos]
      subst he
      rw [land, hbal, if_neg fun h => hk (mem_keys_sweep.mpr h)]
  | sink e =>
      cases e with
      | onOrder order reason => exact readRow_congr (fun _ _ _ => rfl) fun _ _ _ _ => rfl
      | onFill order fill => exact readRow_congr (fun _ _ _ => rfl) fun _ _ _ _ => rfl
      | onBalance acct v amount =>
          refine readRow_congr (fun j w he => ?_) fun _ _ _ _ => rfl
          subst he
          exact Dict.get?_set_ne _ (by rintro ⟨⟩; exact hk List.mem_cons_self) _
      | onPosition acct o qty avg realized v fees =>
          refine readRow_congr (fun _ _ _ => rfl) fun j w o' he => ?_
          subst he
          exact Dict.get?_set_ne _ (by rintro ⟨⟩; exact hk List.mem_cons_self) _
      | onSettled o x v source closed =>
          obtain ⟨hbal, hpos, _⟩ := onSettled_tables db o x v source closed
          refine readRow_congr (fun j w he => ?_) fun j w o' he => ?_
          · subst he
            simp only [land, Db.write, hbal]
            refine Dict.get?_setAll_of_notMem fun hmem => hk ?_
            rw [List.map_map] at hmem
            obtain ⟨c, hc, he⟩ := List.mem_map.mp hmem
            cases he
            exact mem_keys_onSettled_balance.mpr ⟨rfl, List.mem_map_of_mem hc⟩
          · subst he
            simp only [land, Db.write, hpos]
            refine Dict.get?_setAll_of_notMem fun hmem => hk ?_
            rw [List.map_map] at hmem
            obtain ⟨c, hc, he⟩ := List.mem_map.mp hmem
            cases he
            exact mem_keys_onSettled_position.mpr ⟨rfl, rfl, List.mem_map_of_mem hc⟩

end RowWrite

/-! ## What a callback changes -/

namespace Brokers

variable {b : Brokers} {a a' : PaperExecutionAdapter} {v : VenueId}

theorem accountOn_of_get? (ha : b.get? v = some a) (acct : AccountId) :
    b.accountOn acct v = a.account acct := by
  rw [accountOn, ha]
  rfl

theorem accountOn_put (hv : a'.venueId = v) (acct : AccountId) (w : VenueId) :
    (b.put a').accountOn acct w = if w = v then a'.account acct else b.accountOn acct w := by
  rw [accountOn, get?_put, hv]
  split
  · rfl
  · rfl

/-- A broker replaced by one with the same accounts. -/
theorem accountOn_put_same (ha : b.get? a'.venueId = some a)
    (hacct : ∀ j, a'.account j = a.account j) (acct : AccountId) (w : VenueId) :
    (b.put a').accountOn acct w = b.accountOn acct w := by
  rw [accountOn_put rfl]
  split
  · rename_i hw
    rw [hw, hacct, accountOn_of_get? ha]
  · rfl

/-- A row is read off one account. -/
theorem readRow_congr {b' : Brokers} {k : RowKey}
    (hbal : ∀ acct v, k = .balance acct v →
      (b'.accountOn acct v).cash v = (b.accountOn acct v).cash v)
    (hpos : ∀ acct v o, k = .position acct v o →
      (b'.accountOn acct v).row o = (b.accountOn acct v).row o) :
    b'.readRow k = b.readRow k := by
  cases k with
  | balance acct v => rw [readRow, readRow, hbal acct v rfl]
  | position acct v o => rw [readRow, readRow, hpos acct v o rfl]

/-- Only the rows of its own venue can tell a replaced broker from the one before. -/
theorem readRow_put_congr (a' : PaperExecutionAdapter) (ha : b.get? a'.venueId = some a)
    {k : RowKey}
    (hbal : ∀ acct, k = .balance acct a'.venueId →
      (a'.account acct).cash a'.venueId = (a.account acct).cash a'.venueId)
    (hpos : ∀ acct o, k = .position acct a'.venueId o →
      (a'.account acct).row o = (a.account acct).row o) :
    (b.put a').readRow k = b.readRow k := by
  refine readRow_congr (fun j w he => ?_) fun j w o he => ?_
  · rw [accountOn_put rfl]
    split
    · rename_i hw
      subst hw
      rw [accountOn_of_get? ha, hbal j he]
    · rfl
  · rw [accountOn_put rfl]
    split
    · rename_i hw
      subst hw
      rw [accountOn_of_get? ha, hpos j o he]
    · rfl

/-- Where one account changes, only the rows of that account can. -/
theorem readRow_put_account (a' : PaperExecutionAdapter) (ha : b.get? a'.venueId = some a)
    (acct : AccountId) (hothers : ∀ j, j ≠ acct → a'.account j = a.account j) {k : RowKey}
    (hbal : k = .balance acct a'.venueId →
      (a'.account acct).cash a'.venueId = (a.account acct).cash a'.venueId)
    (hpos : ∀ o, k = .position acct a'.venueId o →
      (a'.account acct).row o = (a.account acct).row o) :
    (b.put a').readRow k = b.readRow k := by
  refine readRow_put_congr a' ha (fun j he => ?_) fun j o he => ?_
  · by_cases hj : j = acct
    · subst hj
      exact hbal he
    · rw [hothers j hj]
  · by_cases hj : j = acct
    · subst hj
      exact hpos o he
    · rw [hothers j hj]

end Brokers

/-- The cash a settled broker leaves on its venue. -/
theorem settled_account (a : PaperExecutionAdapter) (o : OutcomeId) (x : ℚ) (j : AccountId) :
    ((a.account j).qty o = 0 → (a.account j).settle a.venueId o x = a.account j) ∧
      ∀ o', o' ≠ o → ((a.account j).settle a.venueId o x).row o' = (a.account j).row o' := by
  refine ⟨settle_of_qty_zero, fun o' ho => ?_⟩
  by_cases hq : (a.account j).qty o = 0
  · rw [settle_of_qty_zero hq]
  · exact (movement_settle (a.account j) a.venueId o x hq).row_off ho

/-- The accounts a settlement closes are those that hold the outcome. -/
theorem mem_closedBy (a : PaperExecutionAdapter) (o : OutcomeId) (x : ℚ) (j : AccountId) :
    j ∈ (a.closedBy o x).map Prod.fst ↔ (a.account j).qty o ≠ 0 := by
  obtain ⟨_, hheld, hflat⟩ := mem_holders a o (fun st =>
    ((st.settle a.venueId o x).cash a.venueId, (st.settle a.venueId o x).realizedOn o,
      (st.settle a.venueId o x).openFees o)) j
  constructor
  · intro hmem hq
    exact hflat hq hmem
  · intro hq
    exact List.mem_map.mpr ⟨_, hheld hq, rfl⟩

namespace SinkCall

/-- A settlement changes the rows it writes only. -/
theorem settle_off (v : VenueId) (o : OutcomeId) (x : ℚ) (source : String) (b : Brokers)
    (k : RowKey) (hk : ∀ w, ((settle v o x source).call b).2 = some w → k ∉ w.keys) :
    ((settle v o x source).call b).1.readRow k = b.readRow k := by
  simp only [call] at hk ⊢
  cases ha : b.get? v with
  | none => simp only
  | some a =>
      have hv := Brokers.venueId_of_get? ha
      subst hv
      simp only [ha] at hk ⊢
      have hwrite := hk _ rfl
      refine Brokers.readRow_put_congr (a.settleOutcomeAsync o x source).1 ha (fun j he => ?_)
        fun j o' he => ?_
      · subst he
        rw [mem_keys_onSettled_balance, mem_closedBy] at hwrite
        have hflat : (a.account j).qty o = 0 := by_contra fun hq => hwrite ⟨rfl, hq⟩
        rw [account_settleOutcomeAsync, (settled_account a o x j).1 hflat]
      · subst he
        rw [mem_keys_onSettled_position, mem_closedBy] at hwrite
        rw [account_settleOutcomeAsync]
        by_cases ho : o' = o
        · have hflat : (a.account j).qty o = 0 := by_contra fun hq => hwrite ⟨rfl, ho, hq⟩
          rw [(settled_account a o x j).1 hflat]
        · exact (settled_account a o x j).2 o' ho

/-- A write-off changes the row it writes only. -/
theorem close_off (v : VenueId) (o : OutcomeId) (acct : AccountId) (b : Brokers)
    (k : RowKey) (hk : ∀ w, ((close v o acct).call b).2 = some w → k ∉ w.keys) :
    ((close v o acct).call b).1.readRow k = b.readRow k := by
  simp only [call] at hk ⊢
  cases ha : b.get? v with
  | none => simp only
  | some a =>
      have hv := Brokers.venueId_of_get? ha
      subst hv
      simp only [ha] at hk ⊢
      by_cases hq : (a.account acct).qty o = 0
      · rw [if_pos hq]
      · simp only [if_neg hq] at hk ⊢
        have hwrite := hk _ rfl
        have m := movement_closeOut (a.account acct) a.venueId o
        refine Brokers.readRow_put_account (a.setAccount acct ((a.account acct).closeOut o)) ha
          acct (fun j hj => ?_) (fun _ => ?_) fun o' he => ?_
        · rw [account_setAccount, if_neg hj]
        · rw [account_setAccount, if_pos rfl]
          exact m.cash.trans (add_zero _)
        · rw [account_setAccount, if_pos rfl]
          refine m.row_off fun ho => hwrite ?_
          rw [he, ho]
          exact List.mem_cons_self

/-- A sweep changes the balances it writes only. -/
theorem sweep_off (minTransfer : ℚ) (acct : AccountId) (b : Brokers)
    (k : RowKey) (hk : ∀ w, ((sweep minTransfer acct).call b).2 = some w → k ∉ w.keys) :
    ((sweep minTransfer acct).call b).1.readRow k = b.readRow k := by
  simp only [call] at hk ⊢
  have hmoved := applyTransfers_cashMoved acct b
    (planTransfers (b.adapters.mapVal fun _ a => a.cash acct) minTransfer)
  rw [← sweepAccount] at hmoved
  generalize sweepAccount b acct minTransfer = swept at hmoved hk ⊢
  obtain ⟨b', moved⟩ := swept
  simp only at hmoved hk ⊢
  refine Brokers.readRow_congr (fun j w he => ?_) fun j w o he => ?_
  · subst he
    obtain ⟨hoff, hrel⟩ := hmoved w
    -- a venue the sweep touches is written for the swept account only
    by_cases hw : w ∈ touched moved
    · have hne : moved ≠ [] := by
        rintro rfl
        simp [touched] at hw
      rw [if_neg hne] at hk
      have hwrite := hk _ rfl
      rw [mem_keys_sweep] at hwrite
      unfold Brokers.accountOn
      revert hrel hwrite
      generalize b.get? w = x, b'.get? w = y
      rintro (hc | _) hwrite
      · rename_i a a'
        have hj : j ≠ acct := fun hj => hwrite ⟨hj, hw, rfl⟩
        exact congrArg (fun st : AccountState => st.cash w) (hc.others j hj)
      · rfl
    · unfold Brokers.accountOn
      rw [hoff hw]
  · subst he
    obtain ⟨_, hrel⟩ := hmoved w
    unfold Brokers.accountOn
    revert hrel
    generalize b.get? w = x, b'.get? w = y
    rintro (hc | _)
    · rename_i a a'
      by_cases hj : j = acct
      · subst hj
        obtain ⟨balances, hheld⟩ := hc.held
        change (a'.account j).row o = (a.account j).row o
        rw [hheld]
        rfl
      · exact congrArg (fun st : AccountState => st.row o) (hc.others j hj)
    · rfl

/-- **A callback changes the rows it writes**, and no others. -/
theorem call_off (c : SinkCall) (b : Brokers) (k : RowKey)
    (hk : ∀ w, (c.call b).2 = some w → k ∉ w.keys) : (c.call b).1.readRow k = b.readRow k := by
  cases c with
  | onOrder order reason => rfl
  | onFill order fill => rfl
  | onBalance acct v => rfl
  | onPosition acct v o => rfl
  | settle v o x source => exact settle_off v o x source b k hk
  | close v o acct => exact close_off v o acct b k hk
  | sweep minTransfer acct => exact sweep_off minTransfer acct b k hk

/-- A settlement writes what memory reads after it. -/
theorem settle_value (v : VenueId) (o : OutcomeId) (x : ℚ) (source : String) (b : Brokers)
    (w : RowWrite) (hw : ((settle v o x source).call b).2 = some w) (k : RowKey) (hk : k ∈ w.keys) :
    w.value k = ((settle v o x source).call b).1.readRow k := by
  simp only [call] at hw ⊢
  cases ha : b.get? v with
  | none => rw [ha] at hw; cases hw
  | some a =>
      have hv := Brokers.venueId_of_get? ha
      subst hv
      simp only [ha] at hw ⊢
      cases hw
      have hput : ∀ j, (b.put (a.settleOutcomeAsync o x source).1).accountOn j a.venueId =
          (a.account j).settle a.venueId o x := by
        intro j
        rw [Brokers.accountOn_put
          (show (a.settleOutcomeAsync o x source).1.venueId = a.venueId from rfl), if_pos rfl,
          account_settleOutcomeAsync]
      obtain ⟨hbal, hpos, _⟩ := onSettled_tables {} o x a.venueId source (a.closedBy o x)
      cases k with
      | balance j w =>
          obtain ⟨rfl, hmem⟩ := mem_keys_onSettled_balance.mp hk
          obtain ⟨hnodup, hheld, _⟩ := mem_holders a o (fun st =>
            ((st.settle a.venueId o x).cash a.venueId, (st.settle a.venueId o x).realizedOn o,
              (st.settle a.venueId o x).openFees o)) j
          obtain ⟨hset, _⟩ := setAll_by_account (fun j => (j, a.venueId))
            (fun _ _ he => congrArg Prod.fst he) hnodup (fun c => c.2.1) Dict.empty j
          have hread := hset _ (hheld ((mem_closedBy a o x j).mp hmem))
          rw [RowWrite.value, Db.readRow, RowWrite.land, Db.write, hbal, Brokers.readRow, hput]
          exact congrArg RowValue.balance (Dict.getD_of_get? hread 0)
      | position j w o' =>
          obtain ⟨rfl, rfl, hmem⟩ := mem_keys_onSettled_position.mp hk
          have hq := (mem_closedBy a o' x j).mp hmem
          have m := movement_settle (a.account j) a.venueId o' x hq
          obtain ⟨hnodup, hheld, _⟩ := mem_holders a o' (fun st =>
            ((st.settle a.venueId o' x).cash a.venueId,
              (st.settle a.venueId o' x).realizedOn o',
              (st.settle a.venueId o' x).openFees o')) j
          obtain ⟨hset, _⟩ := setAll_by_account (fun j => (j, a.venueId, o'))
            (fun _ _ he => congrArg Prod.fst he) hnodup
            (fun c => (⟨0, 0, c.2.2.1, c.2.2.2⟩ : PositionRow)) Dict.empty j
          have hread := hset _ (hheld hq)
          rw [RowWrite.value, Db.readRow, RowWrite.land, Db.write, hpos, Brokers.readRow, hput]
          refine congrArg RowValue.position ((Dict.getD_of_get? hread {}).trans ?_)
          rw [AccountState.row, m.qty, m.avg]

/-- A write-off writes what memory reads after it. -/
theorem close_value (v : VenueId) (o : OutcomeId) (acct : AccountId) (b : Brokers)
    (w : RowWrite) (hw : ((close v o acct).call b).2 = some w) (k : RowKey) (hk : k ∈ w.keys) :
    w.value k = ((close v o acct).call b).1.readRow k := by
  simp only [call] at hw ⊢
  cases ha : b.get? v with
  | none => rw [ha] at hw; cases hw
  | some a =>
      have hv := Brokers.venueId_of_get? ha
      subst hv
      simp only [ha] at hw ⊢
      by_cases hq : (a.account acct).qty o = 0
      · rw [if_pos hq] at hw
        cases hw
      · simp only [if_neg hq] at hw ⊢
        cases hw
        rcases List.mem_singleton.mp hk with rfl
        have m := movement_closeOut (a.account acct) a.venueId o
        rw [Brokers.readRow, Brokers.accountOn_put
          (show (a.setAccount acct ((a.account acct).closeOut o)).venueId = a.venueId from rfl),
          if_pos rfl, account_setAccount, if_pos rfl, AccountState.row, m.qty, m.avg,
          m.realizedOn, m.openFees, add_zero]
        simp [RowWrite.value, RowWrite.land, Db.write, Db.upsertPaperPosition, Db.readRow]

/-- A sweep writes what memory reads after it. -/
theorem sweep_value (minTransfer : ℚ) (acct : AccountId) (b : Brokers)
    (w : RowWrite) (hw : ((sweep minTransfer acct).call b).2 = some w) (k : RowKey) (hk : k ∈ w.keys) :
    w.value k = ((sweep minTransfer acct).call b).1.readRow k := by
  simp only [call] at hw ⊢
  generalize sweepAccount b acct minTransfer = swept at hw ⊢
  obtain ⟨b', moved⟩ := swept
  simp only at hw ⊢
  split at hw
  · cases hw
  · cases hw
    cases k with
    | position j w o => simp [RowWrite.keys] at hk
    | balance j w =>
        obtain ⟨rfl, ht, hb⟩ := mem_keys_sweep.mp hk
        obtain ⟨_, _, hbal⟩ := persistSweep_tables {} j b' moved
        obtain ⟨a, ha⟩ := Option.isSome_iff_exists.mp hb
        have hv := Brokers.venueId_of_get? ha
        have hread := hbal j w
        rw [if_pos ⟨rfl, ht, hb⟩, ha] at hread
        rw [RowWrite.value, RowWrite.land, Db.readRow, Brokers.readRow,
          Brokers.accountOn_of_get? ha]
        refine congrArg RowValue.balance ((Dict.getD_of_get? hread 0).trans ?_)
        change (a.account j).cash a.venueId = (a.account j).cash w
        rw [hv]

/-- **A write carries what memory reads** once the callback has run. -/
theorem call_value (c : SinkCall) (b : Brokers) (w : RowWrite) (hw : (c.call b).2 = some w)
    (k : RowKey) (hk : k ∈ w.keys) : w.value k = (c.call b).1.readRow k := by
  cases c with
  | onOrder order reason => cases hw; cases hk
  | onFill order fill => cases hw; cases hk
  | onBalance acct v =>
      cases hw
      rcases List.mem_singleton.mp hk with rfl
      simp [call, RowWrite.value, RowWrite.land, Db.write, Db.upsertPaperBalance, Db.readRow,
        Brokers.readRow]
  | onPosition acct v o =>
      cases hw
      rcases List.mem_singleton.mp hk with rfl
      simp [call, RowWrite.value, RowWrite.land, Db.write, Db.upsertPaperPosition, Db.readRow,
        Brokers.readRow, AccountState.row]
  | settle v o x source => exact settle_value v o x source b w hw k hk
  | close v o acct => exact close_value v o acct b w hw k hk
  | sweep minTransfer acct => exact sweep_value minTransfer acct b w hw k hk

/-- A callback that owes a row writes it. -/
theorem call_owes (c : SinkCall) (b : Brokers) (k : RowKey) (hk : k ∈ c.owes) :
    ∃ w, (c.call b).2 = some w ∧ k ∈ w.keys := by
  cases c with
  | onBalance acct v => exact ⟨_, rfl, hk⟩
  | onPosition acct v o => exact ⟨_, rfl, hk⟩
  | onOrder _ _ => cases hk
  | onFill _ _ => cases hk
  | settle _ _ _ _ => cases hk
  | close _ _ _ => cases hk
  | sweep _ _ => cases hk

end SinkCall

/-- **The brokers, and the tables behind them.** -/
def paperWrites (scope : AccountId) :
    WriteBehind Brokers Db PaperStart SinkCall RowWrite RowKey RowValue where
  start op b := op.start b
  call c b := c.call b
  land w db := w.land scope db
  keys := RowWrite.keys
  value := RowWrite.value
  owes := SinkCall.owes
  read := Brokers.readRow
  stored := Db.readRow
  stored_land w db _ hk := w.readRow_land scope db hk
  stored_land_off w db _ hk := w.readRow_land_off scope db hk
  call_value := SinkCall.call_value
  call_off := SinkCall.call_off
  call_owes := SinkCall.call_owes

/-! ## What an operation changes -/

section Start

variable {b : Brokers} {a : PaperExecutionAdapter}

/-- An account that a replaced broker keeps reads as it did. -/
theorem readRow_put_same (a' : PaperExecutionAdapter) (ha : b.get? a'.venueId = some a)
    (hacct : ∀ j, a'.account j = a.account j) (k : RowKey) :
    (b.put a').readRow k = b.readRow k := by
  exact Brokers.readRow_put_congr a' ha (fun j _ => by rw [hacct]) fun j o _ => by rw [hacct]

/-- A fill changes the balance it is paid from and the row of its outcome. -/
theorem readRow_accept (ha : b.get? a.venueId = some a) (acct : AccountId) (o : OutcomeId)
    (isBuy : Bool) (qty limit : ℚ) (ticketId : Option TicketId) (px : ℚ) {k : RowKey}
    (hk : k ∉ [RowKey.balance acct a.venueId, .position acct a.venueId o]) :
    (b.put (a.accept acct o isBuy qty limit ticketId px).adapter).readRow k = b.readRow k := by
  obtain ⟨_, _, _, _, _, m⟩ := movement_bookFill (a.account acct) a.venueId o isBuy qty px
    (a.fees.fee px qty isBuy)
  refine Brokers.readRow_put_account (a.accept acct o isBuy qty limit ticketId px).adapter ha
    acct (fun j hj => ?_) (fun he => ?_) fun o' he => ?_
  · rw [account_accept, if_neg hj]
  · refine absurd ?_ hk
    rw [he]
    exact List.mem_cons_self
  · rw [account_accept, if_pos rfl]
    refine m.row_off fun ho => hk ?_
    rw [he, ho]
    exact List.mem_cons_of_mem _ List.mem_cons_self

theorem owes_emitCalls (acct : AccountId) (v : VenueId) (order : Order) (fill : Fill) :
    (emitCalls acct v order (some fill) none).flatMap SinkCall.owes =
      [.balance acct v, .position acct v order.outcomeId] := rfl

/-- A commit changes the balances and rows of the legs it applied. -/
theorem readRow_commitLegs (book : QuoteBook) (clock : ℕ → ℚ) (acct : AccountId)
    (ticketId : Option TicketId) (n : ℕ) (b : Brokers) (legs : List IntentLeg) {k : RowKey}
    (hk : k ∉ ((Router.commitLegs book clock acct ticketId n b legs).applied.flatMap fun e =>
      emitCalls acct e.1 e.2.1 (some e.2.2) none).flatMap SinkCall.owes) :
    (Router.commitLegs book clock acct ticketId n b legs).brokers.readRow k = b.readRow k := by
  induction legs generalizing n b with
  | nil => rfl
  | cons leg legs ih =>
      rcases Router.commitLegs_cons b book clock acct ticketId n leg legs with
        ⟨_, hc⟩ | ⟨a, reason, ha, _, hc⟩ | ⟨a, px, cost, ha, _, _, hc⟩ <;> rw [hc] at hk ⊢
      · have hv := Brokers.venueId_of_get? ha
        have hread : b.get? a.venueId = some a := by rw [hv]; exact ha
        exact readRow_put_same (a.refused leg ticketId reason) hread (fun _ => rfl) k
      · have hv := Brokers.venueId_of_get? ha
        simp only [List.flatMap_cons, List.flatMap_append, List.mem_append, not_or,
          owes_emitCalls] at hk
        rw [ih (n + 1) _ hk.2]
        refine readRow_accept (by rw [hv]; exact ha) acct leg.outcomeId leg.isBuy leg.qty
          leg.limitPrice ticketId px ?_
        rw [hv]
        exact hk.1

theorem readRow_of_unchanged {b' : Brokers} (h : b.Unchanged b') (k : RowKey) :
    b'.readRow k = b.readRow k := by
  have hsame : ∀ j w, (b.accountOn j w).Same (b'.accountOn j w) := by
    intro j w
    have hw := h w
    unfold Brokers.accountOn
    revert hw
    generalize b.get? w = x, b'.get? w = y
    rintro (hu | _)
    · exact hu.account j
    · exact .refl _
  refine Brokers.readRow_congr (fun j w _ => (hsame j w).cash w) fun j w o _ => ?_
  have h := hsame j w
  rw [AccountState.row, h.qty, h.avg, h.realizedOn, h.openFees, ← AccountState.row]

/-- **An operation owes what it changes**, a ticket that is rolled back if it
keeps the fees. -/
theorem PaperStart.owed {op : PaperStart} (scope : AccountId) (h : op.KeepsFees b) :
    (paperWrites scope).Owed op b := by
  intro k hk
  change (op.start b).1.readRow k = b.readRow k
  change k ∉ (op.start b).2.flatMap SinkCall.owes at hk
  cases op with
  | settleOutcomeAsync v o x source => rfl
  | closeAlreadySettled v o => rfl
  | sweepOnce accountIds minTransfer => rfl
  | placeOrder v book now acct o isBuy qty limit ticketId =>
      simp only [start] at hk ⊢
      cases ha : b.get? v with
      | none => simp only
      | some a =>
          have hv := Brokers.venueId_of_get? ha
          subst hv
          simp only [ha] at hk ⊢
          rcases applyFill_cases a book now acct o isBuy qty limit ticketId with
            ⟨reason, _, hr⟩ | ⟨_, _, _, _, _, hr⟩ | ⟨px, _, _, _, hr⟩ <;> rw [hr] at hk ⊢
          · exact readRow_put_same (a.reject o isBuy qty limit ticketId reason).adapter ha
              (fun _ => rfl) k
          · exact readRow_put_same (a.reject o isBuy qty limit ticketId .insufficientFunds).adapter
              ha (fun _ => rfl) k
          · exact readRow_accept ha acct o isBuy qty limit ticketId px hk
  | commitAtomically book clock intent =>
      simp only [start] at hk ⊢
      simp only [KeepsFees] at h
      cases hf : (Router.commitLegs book clock intent.accountId intent.ticketId 0 b
          intent.legs).failure with
      | none =>
          rw [if_pos hf] at hk
          have hcommitted : (Router.commitAtomically b book clock intent).1 =
              (Router.commitLegs book clock intent.accountId intent.ticketId 0 b
                intent.legs).brokers := by
            simp only [Router.commitAtomically, hf]
          rw [hcommitted]
          exact readRow_commitLegs book clock intent.accountId intent.ticketId 0 b intent.legs hk
      | some failure =>
          have hrolled : (Router.commitAtomically b book clock intent).1 =
              rolledBack b book clock intent := by
            simp only [Router.commitAtomically, hf]
            rfl
          rw [hrolled]
          -- the legs rolled back leave the fees they carried, which are those they had
          refine readRow_of_unchanged ((rolledBack_unchanged_iff b book clock intent).mpr ?_) k
          have hp : (Purse.read (Router.commitLegs book clock intent.accountId intent.ticketId 0 b
              intent.legs).brokers intent.accountId) ∈ Purse.firstRefusal
                (fun n leg => Router.priceLeg b book (clock n) leg) 0
                (Purse.read b intent.accountId) intent.legs := by
            rw [Purse.firstRefusal_read intent.ticketId 0
              (Brokers.Advance.refl intent.accountId b) intent.legs, hf]
            rfl
          funext v o
          by_cases hleg : ∃ leg ∈ intent.legs, v = leg.venueId ∧ o = leg.outcomeId
          · obtain ⟨leg, hmem, rfl, rfl⟩ := hleg
            exact h _ hp leg hmem
          · push Not at hleg
            refine Purse.carried_firstRefusal_off hp fun leg hmem hvo => ?_
            exact hleg leg hmem hvo.1 hvo.2

end Start

/-! ## Runs -/

/-- `_WRITE_ATTEMPTS`. -/
def writeAttempts : ℕ := 3

abbrev PaperWriting := WriteBehind.State ℕ Brokers Db SinkCall RowWrite RowKey

/-- Nothing written yet. -/
def PaperWriting.idle (b : Brokers) (db : Db) : PaperWriting := { mem := b, store := db }

/-- One turn of the event loop, or one commit. -/
def PaperWriting.step (column : ℚ → ℚ) (scope : AccountId) :
    PaperWriting → WriteBehind.Event ℕ PaperStart → PaperWriting :=
  (paperWrites scope).stepOver writeAttempts fun w db => w.landIn column scope db

/-- No `run_write` is under way. -/
def PaperWriting.Quiet (s : PaperWriting) : Prop := ∀ i, s.tasks.get? i = none

/-- The columns hold the amounts of the write that is about to commit. -/
def PaperWriting.LandsWhole (column : ℚ → ℚ) (s : PaperWriting) (i : ℕ) : Prop :=
  ∀ task ∈ s.tasks.get? i, ∀ f ∈ task.flight, f.write.HeldBy column

instance (column : ℚ → ℚ) (s : PaperWriting) (i : ℕ) : Decidable (s.LandsWhole column i) :=
  inferInstanceAs (Decidable
    (∀ task ∈ s.tasks.get? i, ∀ f ∈ task.flight, f.write.HeldBy column))

/-- No write commits once the newest write of one of its rows has, none
carries an amount that its column would round, and no ticket is rolled back
with a fee left carried. -/
def PaperWriting.InOrder (column : ℚ → ℚ) (scope : AccountId) (s : PaperWriting) :
    WriteBehind.Event ℕ PaperStart → Prop
  | .start _ op => op.KeepsFees s.mem
  | .land i => (paperWrites scope).LandsInOrder s i ∧ s.LandsWhole column i
  | _ => True

instance (column : ℚ → ℚ) (scope : AccountId) (s : PaperWriting) :
    ∀ e, Decidable (PaperWriting.InOrder column scope s e)
  | .start _ op => inferInstanceAs (Decidable (op.KeepsFees s.mem))
  | .land i => inferInstanceAs (Decidable
      ((paperWrites scope).LandsInOrder s i ∧ s.LandsWhole column i))
  | .retry _ => isTrue trivial
  | .resume _ => isTrue trivial

/-- In order, the columns make no difference to a step. -/
theorem PaperWriting.step_eq {column : ℚ → ℚ} {scope : AccountId} {s : PaperWriting}
    {e : WriteBehind.Event ℕ PaperStart} (h : PaperWriting.InOrder column scope s e) :
    PaperWriting.step column scope s e = (paperWrites scope).step writeAttempts s e := by
  cases e with
  | start i op => rfl
  | retry i => rfl
  | resume i => rfl
  | land i =>
      refine (paperWrites scope).stepOver_land writeAttempts fun task htask f hf => ?_
      exact RowWrite.landIn_of_heldBy (h.2 task htask f hf) scope s.store

theorem PaperWriting.quiet_iff {s : PaperWriting} : s.Quiet ↔ s.tasks.keys = [] := by
  rw [List.eq_nil_iff_forall_not_mem]
  refine forall_congr' fun i => ?_
  rw [Dict.mem_keys_iff, Option.not_isSome_iff_eq_none]

/-- The stored balance and the stored rows of an account on a venue are what
the broker holds. -/
structure Stored (acct : AccountId) (v : VenueId) (b : Brokers) (db : Db) : Prop where
  balance : db.balances.getD (acct, v) 0 = (b.accountOn acct v).cash v
  position : ∀ o, db.positions.getD (acct, v, o) {} = (b.accountOn acct v).row o

theorem stored_iff {acct : AccountId} {v : VenueId} {b : Brokers} {db : Db} :
    Stored acct v b db ↔ db.readRow (.balance acct v) = b.readRow (.balance acct v) ∧
      ∀ o, db.readRow (.position acct v o) = b.readRow (.position acct v o) := by
  simp only [Db.readRow, Brokers.readRow, RowValue.balance.injEq, RowValue.position.injEq]
  constructor
  · intro h
    exact ⟨h.balance, h.position⟩
  · rintro ⟨hbal, hpos⟩
    exact ⟨hbal, hpos⟩

/-- A start leaves the account it serves stored. -/
theorem Stored.bootstrap (acct : AccountId) (b : Brokers) (db : Db) {v : VenueId}
    (hv : (b.get? v).isSome) : Stored acct v (bootstrap acct b.fresh db).1
      (bootstrap acct b.fresh db).2 := by
  have m : Mirror acct (Arbys.bootstrap acct b.fresh db).1 (Arbys.bootstrap acct b.fresh db).2 :=
    mirror_bootstrap b db
  have hsome : ∃ a, (Arbys.bootstrap acct b.fresh db).1.get? v = some a := by
    rw [← Option.isSome_iff_exists, Option.isSome_iff_ne_none, ne_eq, bootstrap_eq_none,
      get?_fresh, Option.map_eq_none_iff]
    simpa [Option.isSome_iff_ne_none] using hv
  obtain ⟨a, ha⟩ := hsome
  have hvenue := Brokers.venueId_of_get? ha
  refine ⟨?_, fun o => ?_⟩
  · rw [Dict.getD_of_get? (m.cash v a ha), Brokers.accountOn_of_get? ha, ← hvenue]
    rfl
  · rw [m.row v a ha o, Brokers.accountOn_of_get? ha]

namespace TwoVenues

/-- Both brokers and the tables, as a first start leaves them. -/
def started : PaperWriting :=
  .idle (bootstrap "default" brokers.fresh {}).1 (bootstrap "default" brokers.fresh {}).2

def ticket : PaperStart :=
  .commitAtomically book (fun _ => 0) (opportunity.toIntent "default" none)

/-- A task gets through its next writes. -/
def writes (i n : ℕ) : List (WriteBehind.Event ℕ PaperStart) :=
  (List.replicate n [.land i, .resume i]).flatten

/-- The first ticket's balance fails once, and lands before the second ticket
writes its own. A settlement and a sweep follow. -/
def inTurn : List (WriteBehind.Event ℕ PaperStart) :=
  .start 0 ticket :: writes 0 2 ++ [.retry 0, .start 1 ticket] ++ writes 0 6 ++ writes 1 8 ++
    [.start 0 (.settleOutcomeAsync "kalshi" "k-no" 1 "manual"),
      .start 1 (.sweepOnce ["default"] 1)] ++ writes 0 1 ++ writes 1 1

/-- The first ticket's balance fails once, and lands after the second ticket
has written its own. -/
def overtaken : List (WriteBehind.Event ℕ PaperStart) :=
  .start 0 ticket :: writes 0 2 ++ [.retry 0, .start 1 ticket] ++ writes 1 8 ++ writes 0 6

end TwoVenues

end Arbys
