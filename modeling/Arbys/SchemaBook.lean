import Arbys.AccountReset
import Arbys.SchemaListing

/-!
# What a restart hydrates

The balances and positions of a process that starts are those of the tables.
`bookDb` reads the tables of the broker's book as `Db`, which has no
constraints, and every write does to it what the operations of `Db` do. So a
restart finds an account as its own last writes left it since its last reset,
whatever was written for others, and whatever was refused.
-/

namespace Arbys

open Tables

namespace Schema

/-! ## Reading the book off the rows -/

def balanceOf : Row → Option ((AccountId × VenueId) × ℚ)
  | .paperBalance r => some ((r.accountId, r.venueId), r.amount)
  | _ => none

def positionOf : Row → Option ((AccountId × VenueId × OutcomeId) × PositionRow)
  | .paperPosition r => some ((r.accountId, r.venueId, r.outcomeId), r.position)
  | _ => none

def settlementOf : Row → Option SettlementRow
  | .paperSettlement r => some ⟨r.outcomeId, r.resolvedValue, r.source⟩
  | _ => none

def transferOf : Row → Option (AccountId × CashTransfer)
  | .paperTransfer r => some (r.accountId, r.transfer)
  | _ => none

theorem balanceOf_eq_some {r : Row} {e : (AccountId × VenueId) × ℚ} (h : balanceOf r = some e) :
    r = .paperBalance ⟨e.1.1, e.1.2, e.2⟩ := by
  cases r with
  | paperBalance b =>
      cases h
      rfl
  | _ => cases h

theorem positionOf_eq_some {r : Row} {e : (AccountId × VenueId × OutcomeId) × PositionRow}
    (h : positionOf r = some e) : r = .paperPosition ⟨e.1.1, e.1.2.1, e.1.2.2, e.2⟩ := by
  cases r with
  | paperPosition b =>
      cases h
      rfl
  | _ => cases h

theorem transferOf_eq_some {r : Row} {e : AccountId × CashTransfer} (h : transferOf r = some e) :
    r = .paperTransfer ⟨e.1, e.2⟩ := by
  cases r with
  | paperTransfer b =>
      cases h
      rfl
  | _ => cases h

theorem indexes_balanceOf : Store.Indexes constraints balanceOf := by
  intro r r' e e' h h' heq
  rw [balanceOf_eq_some h, balanceOf_eq_some h', heq]
  exact .inr ⟨.paperBalance e'.1.1 e'.1.2, by simp, by simp⟩

theorem indexes_positionOf : Store.Indexes constraints positionOf := by
  intro r r' e e' h h' heq
  rw [positionOf_eq_some h, positionOf_eq_some h', heq]
  exact .inr ⟨.paperPosition e'.1.1 e'.1.2.1 e'.1.2.2, by simp, by simp⟩

/-- The book of a database. Its orders and fills, which no restart reads, are
left out. -/
def bookDb (db : Database) : Db where
  balances := db.view balanceOf indexes_balanceOf
  positions := db.view positionOf indexes_positionOf
  settlements := db.rows.filterMap settlementOf
  transfers := db.rows.filterMap transferOf

theorem bookDb_ext {db : Database} {d : Db}
    (hbalances : (bookDb db).balances = d.balances)
    (hpositions : (bookDb db).positions = d.positions)
    (hsettlements : (bookDb db).settlements = d.settlements)
    (htransfers : (bookDb db).transfers = d.transfers)
    (horders : d.orders = []) (hfills : d.fills = []) : bookDb db = d := by
  cases d
  cases hbalances
  cases hpositions
  cases hsettlements
  cases htransfers
  cases horders
  cases hfills
  rfl

/-! ## What a write does to it -/

/-- The rows the book is read off. -/
def Row.booked : Row → Bool
  | .paperBalance _ | .paperPosition _ | .paperSettlement _ | .paperTransfer _ => true
  | _ => false

section Unwritten

variable {p : Row → Bool} {tx : Store.Tx constraints} {db db' : Database}

theorem balances_of_confined (h : Store.Confined p tx) (hp : ∀ r, p (.paperBalance r) = false)
    (htx : tx db = some db') : (bookDb db').balances = (bookDb db).balances := by
  refine Dict.ext (h.filterMap (fun r hr => ?_) htx)
  cases r with
  | paperBalance b => exact absurd hr (by rw [hp]; decide)
  | _ => rfl

theorem positions_of_confined (h : Store.Confined p tx) (hp : ∀ r, p (.paperPosition r) = false)
    (htx : tx db = some db') : (bookDb db').positions = (bookDb db).positions := by
  refine Dict.ext (h.filterMap (fun r hr => ?_) htx)
  cases r with
  | paperPosition b => exact absurd hr (by rw [hp]; decide)
  | _ => rfl

theorem settlements_of_confined (h : Store.Confined p tx)
    (hp : ∀ r, p (.paperSettlement r) = false) (htx : tx db = some db') :
    (bookDb db').settlements = (bookDb db).settlements := by
  refine h.filterMap (fun r hr => ?_) htx
  cases r with
  | paperSettlement b => exact absurd hr (by rw [hp]; decide)
  | _ => rfl

theorem transfers_of_confined (h : Store.Confined p tx) (hp : ∀ r, p (.paperTransfer r) = false)
    (htx : tx db = some db') : (bookDb db').transfers = (bookDb db).transfers := by
  refine h.filterMap (fun r hr => ?_) htx
  cases r with
  | paperTransfer b => exact absurd hr (by rw [hp]; decide)
  | _ => rfl

/-- A write to other tables does nothing to the book. -/
theorem bookDb_of_confined (h : Store.Confined p tx) (hp : ∀ r, p r = true → r.booked = false)
    (htx : tx db = some db') : bookDb db' = bookDb db := by
  have hnot : ∀ r, r.booked = true → p r = false := by
    intro r hr
    rw [← Bool.not_eq_true]
    intro hpr
    rw [hp r hpr] at hr
    cases hr
  exact bookDb_ext (balances_of_confined h (fun _ => hnot _ rfl) htx)
    (positions_of_confined h (fun _ => hnot _ rfl) htx)
    (settlements_of_confined h (fun _ => hnot _ rfl) htx)
    (transfers_of_confined h (fun _ => hnot _ rfl) htx) rfl rfl

end Unwritten

theorem bookDb_upsertPaperBalance {db db' : Database} {a : AccountId} {v : VenueId} {amount : ℚ}
    (h : upsertPaperBalance a v amount db = some db') :
    bookDb db' = (bookDb db).upsertPaperBalance a v (numeric amount) := by
  have hframe := confined_tx (.balance a v amount)
  refine bookDb_ext ?_ (positions_of_confined hframe (fun _ => rfl) h)
    (settlements_of_confined hframe (fun _ => rfl) h)
    (transfers_of_confined hframe (fun _ => rfl) h) rfl rfl
  unfold upsertPaperBalance at h
  split at h
  · rename_i hany
    cases h
    obtain ⟨r, hr, hrow⟩ := List.any_eq_true.mp hany
    cases r with
    | paperBalance b =>
        obtain ⟨rfl, rfl⟩ : b.accountId = a ∧ b.venueId = v := by simpa [isBalance] using hrow
        refine Store.view_update indexes_balanceOf rfl ⟨_, hr, b.amount, rfl⟩ fun r' _ => ?_
        cases r' with
        | paperBalance c =>
            by_cases hc : c.accountId = b.accountId ∧ c.venueId = b.venueId
            · simp [setAmount, balanceOf, hc]
            · simp [setAmount, balanceOf, hc]
        | _ => rfl
    | _ => cases hrow
  · exact Store.view_insert indexes_balanceOf (Store.rows_of_insert h) rfl

theorem bookDb_ensureOutcomePlaceholder {db db' : Database} {o : OutcomeId} {v : VenueId}
    (h : ensureOutcomePlaceholder o v db = some db') : bookDb db' = bookDb db :=
  bookDb_of_confined (confined_ensureOutcomePlaceholder (p := fun r => !r.booked)
    (fun _ => rfl) (fun _ => rfl) o v) (fun r hr => by simpa using hr) h

theorem bookDb_upsertPaperPosition {db db' : Database} {a : AccountId} {v : VenueId}
    {o : OutcomeId} {position : PositionRow}
    (h : upsertPaperPosition a v o position db = some db') :
    bookDb db' = (bookDb db).upsertPaperPosition a v o (inColumns position) := by
  have hframe := confined_tx (.position a v o position)
  refine bookDb_ext (balances_of_confined hframe (fun _ => rfl) h) ?_
    (settlements_of_confined hframe (fun _ => rfl) h)
    (transfers_of_confined hframe (fun _ => rfl) h) rfl rfl
  obtain ⟨mid, hmid, hlast⟩ := Option.bind_eq_some_iff.mp h
  rw [← bookDb_ensureOutcomePlaceholder hmid]
  split at hlast
  · rename_i hany
    cases hlast
    obtain ⟨r, hr, hrow⟩ := List.any_eq_true.mp hany
    cases r with
    | paperPosition b =>
        obtain ⟨rfl, rfl, rfl⟩ : b.accountId = a ∧ b.venueId = v ∧ b.outcomeId = o := by
          simpa [isPosition] using hrow
        refine Store.view_update indexes_positionOf rfl ⟨_, hr, b.position, rfl⟩ fun r' _ => ?_
        cases r' with
        | paperPosition c =>
            by_cases hc : c.accountId = b.accountId ∧ c.venueId = b.venueId ∧
                c.outcomeId = b.outcomeId
            · simp [setPosition, positionOf, hc]
            · simp [setPosition, positionOf, hc]
        | _ => rfl
    | _ => cases hrow
  · exact Store.view_insert indexes_positionOf (Store.rows_of_insert hlast) rfl

theorem bookDb_insertPaperSettlement {db db' : Database} {r : PaperSettlement} {v : VenueId}
    (h : insertPaperSettlement r v db = some db') :
    bookDb db' = (bookDb db).insertPaperSettlement r.outcomeId r.resolvedValue r.source := by
  obtain ⟨mid, hmid, hlast⟩ := Option.bind_eq_some_iff.mp h
  have hrows := Store.rows_of_insert hlast
  rw [← bookDb_ensureOutcomePlaceholder hmid]
  refine bookDb_ext (Store.view_append indexes_balanceOf hrows (by simp [balanceOf]))
    (Store.view_append indexes_positionOf hrows (by simp [positionOf])) ?_ ?_ rfl rfl
  · show db'.rows.filterMap settlementOf = mid.rows.filterMap settlementOf ++ _
    rw [hrows, List.filterMap_append]
    rfl
  · show db'.rows.filterMap transferOf = mid.rows.filterMap transferOf
    rw [hrows, List.filterMap_append]
    exact List.append_nil _

/-- A transfer joins the transfers. -/
def addTransfer (a : AccountId) (db : Db) (t : CashTransfer) : Db :=
  { db with transfers := db.transfers ++ [(a, t)] }

theorem bookDb_insertPaperTransfer {db db' : Database} {a : AccountId} {t : CashTransfer}
    (h : insertPaperTransfer ⟨a, t⟩ db = some db') :
    bookDb db' = addTransfer a (bookDb db) t := by
  have hrows := Store.rows_of_insert h
  refine bookDb_ext (Store.view_append indexes_balanceOf hrows (by simp [balanceOf]))
    (Store.view_append indexes_positionOf hrows (by simp [positionOf])) ?_ ?_ rfl rfl
  · show db'.rows.filterMap settlementOf = db.rows.filterMap settlementOf
    rw [hrows, List.filterMap_append]
    exact List.append_nil _
  · show db'.rows.filterMap transferOf = db.rows.filterMap transferOf ++ _
    rw [hrows, List.filterMap_append]
    rfl

theorem foldl_addTransfer (a : AccountId) (moved : List CashTransfer) (db : Db) :
    moved.foldl (addTransfer a) db =
      { db with transfers := db.transfers ++ moved.map fun t => (a, t) } := by
  induction moved generalizing db with
  | nil => simp
  | cons t moved ih => simp [ih, addTransfer]

/-- A closed position, as its columns keep it. -/
theorem inColumns_closed (realized fees : ℚ) :
    inColumns ⟨0, 0, realized, fees⟩ = ⟨0, 0, numeric realized, numeric fees⟩ := by
  have hzero : numeric 0 = 0 := by norm_num [numeric]
  rw [inColumns, hzero]

/-- What a settlement stores of an account it closes. -/
def closedInColumns (c : AccountId × ℚ × ℚ × ℚ) : AccountId × ℚ × ℚ × ℚ :=
  (c.1, numeric c.2.1, numeric c.2.2.1, numeric c.2.2.2)

theorem bookDb_closeAccount {db db' : Database} {o : OutcomeId} {v : VenueId}
    {c : AccountId × ℚ × ℚ × ℚ} (h : closeAccount o v db c = some db') :
    bookDb db' = ((bookDb db).upsertPaperBalance c.1 v (closedInColumns c).2.1).upsertPaperPosition
      c.1 v o ⟨0, 0, (closedInColumns c).2.2.1, (closedInColumns c).2.2.2⟩ := by
  obtain ⟨mid, hmid, hlast⟩ := Option.bind_eq_some_iff.mp h
  rw [bookDb_upsertPaperPosition hlast, bookDb_upsertPaperBalance hmid, inColumns_closed]
  rfl

theorem bookDb_onSettled {db db' : Database} {r : PaperSettlement} {v : VenueId}
    {closed : List (AccountId × ℚ × ℚ × ℚ)} (h : onSettled r v closed db = some db') :
    bookDb db' = (bookDb db).onSettled r.outcomeId r.resolvedValue v r.source
      (closed.map closedInColumns) := by
  obtain ⟨mid, hmid, hlast⟩ := Option.bind_eq_some_iff.mp h
  rw [bookDb_insertPaperSettlement hlast, Db.onSettled, List.foldl_map]
  -- The settlement goes last, after the accounts it closes.
  refine congrArg (fun db : Db => db.insertPaperSettlement _ _ _) ?_
  exact Store.foldlM_read (I := fun _ => True)
    (fun _ _ _ _ hstep => ⟨trivial, bookDb_closeAccount hstep⟩) trivial hmid

/-- The transfers of a sweep, and the balances it leaves. -/
def sweepDb (a : AccountId) (moved : List CashTransfer) (cash : VenueId → ℚ) (db : Db) : Db :=
  (touched moved).foldl (fun db v => db.upsertPaperBalance a v (numeric (cash v)))
    { db with transfers := db.transfers ++ moved.map fun t => (a, t) }

theorem bookDb_persistSweep {db db' : Database} {a : AccountId} {moved : List CashTransfer}
    {cash : VenueId → ℚ} (h : persistSweep a moved cash db = some db') :
    bookDb db' = sweepDb a moved cash (bookDb db) := by
  obtain ⟨mid, hmid, hlast⟩ := Option.bind_eq_some_iff.mp h
  have hmoved : bookDb mid = moved.foldl (addTransfer a) (bookDb db) :=
    Store.foldlM_read (I := fun _ => True)
      (fun _ _ _ _ hstep => ⟨trivial, bookDb_insertPaperTransfer hstep⟩) trivial hmid
  rw [sweepDb, ← foldl_addTransfer, ← hmoved]
  exact Store.foldlM_read (I := fun _ => True)
    (fun _ _ _ _ hstep => ⟨trivial, bookDb_upsertPaperBalance hstep⟩) trivial hlast

/-- What is left of a table that is deleted from. -/
theorem filterMap_deleted {β : Type*} {f : Row → Option β} {p : Row → Bool} {q : β → Bool}
    (h : ∀ r e, f r = some e → p r = !q e) (rows : List Row) :
    (rows.filter fun r => !p r).filterMap f = (rows.filterMap f).filter q := by
  rw [List.filterMap_filter, List.filter_filterMap]
  refine List.filterMap_congr fun r _ => ?_
  cases hr : f r with
  | none => simp
  | some e => cases hq : q e <;> simp [h r e hr, hq, Option.filter]

theorem bookDb_deletePaperHistory {db db' : Database} {a : AccountId}
    (h : deletePaperHistory a db = some db') :
    bookDb db' = (bookDb db).deletePaperHistory a := by
  have hrows := rows_of_deletePaperHistory h
  refine bookDb_ext (Dict.ext ?_) (Dict.ext ?_) ?_ ?_ rfl rfl
  · show db'.rows.filterMap balanceOf =
      (db.rows.filterMap balanceOf).filter fun e => decide (e.1.1 ≠ a)
    rw [hrows]
    refine filterMap_deleted (fun r e he => ?_) _
    rw [balanceOf_eq_some he, inHistory_of_owner rfl]
    simp
  · show db'.rows.filterMap positionOf =
      (db.rows.filterMap positionOf).filter fun e => decide (e.1.1 ≠ a)
    rw [hrows]
    refine filterMap_deleted (fun r e he => ?_) _
    rw [positionOf_eq_some he, inHistory_of_owner rfl]
    simp
  · refine filterMap_settlements_eq_nil (fun r hr => ?_) h
    cases r with
    | paperSettlement s => cases hr
    | _ => rfl
  · show db'.rows.filterMap transferOf =
      (db.rows.filterMap transferOf).filter fun e => decide (e.1 ≠ a)
    rw [hrows]
    refine filterMap_deleted (fun r e he => ?_) _
    rw [transferOf_eq_some he, inHistory_of_owner rfl]
    simp

/-- A write to the book without constraints. -/
def applyBook (db : Db) : Write → Db
  | .balance a v amount => db.upsertPaperBalance a v (numeric amount)
  | .position a v o position => db.upsertPaperPosition a v o (inColumns position)
  | .settled r v closed =>
      db.onSettled r.outcomeId r.resolvedValue v r.source (closed.map closedInColumns)
  | .sweep a moved cash => sweepDb a moved cash db
  | .reset a => db.deletePaperHistory a
  | _ => db

/-- **Refinement, one write.** -/
theorem bookDb_tx {db db' : Database} {w : Write} (h : w.tx db = some db') :
    bookDb db' = applyBook (bookDb db) w := by
  cases w with
  | balance a v amount => exact bookDb_upsertPaperBalance h
  | position a v o position => exact bookDb_upsertPaperPosition h
  | settled r v closed => exact bookDb_onSettled h
  | sweep a moved cash => exact bookDb_persistSweep h
  | reset a => exact bookDb_deletePaperHistory h
  | _ =>
      refine bookDb_of_confined (confined_tx _) (fun r hr => ?_) h
      cases r <;> first | rfl | cases hr

/-- **Refinement, a run.** -/
theorem bookDb_run (ws : List Write) :
    bookDb (run ws) = Runs.run applyBook {} (accepted ws) :=
  read_runFrom (I := fun _ => True) (fun _ _ _ _ h => ⟨trivial, bookDb_tx h⟩) trivial ws

/-! ## The book of a run -/

/-- The balance of an account at a venue, as stored, after a write. -/
def balanceAfter (a : AccountId) (v : VenueId) (row : Option ℚ) : Write → Option ℚ
  | .balance a' v' amount => if a' = a ∧ v' = v then some (numeric amount) else row
  | .settled _ v' closed =>
      closed.foldl (fun row c => if c.1 = a ∧ v' = v then some (numeric c.2.1) else row) row
  | .sweep a' moved cash => if a' = a ∧ v ∈ touched moved then some (numeric (cash v)) else row
  | .reset a' => if a' = a then none else row
  | _ => row

/-- The position of an account in an outcome at a venue, as stored, after a
write. -/
def positionAfter (a : AccountId) (v : VenueId) (o : OutcomeId) (row : Option PositionRow) :
    Write → Option PositionRow
  | .position a' v' o' position =>
      if a' = a ∧ v' = v ∧ o' = o then some (inColumns position) else row
  | .settled r v' closed =>
      closed.foldl (fun row c => if c.1 = a ∧ v' = v ∧ r.outcomeId = o then
        some ⟨0, 0, numeric c.2.2.1, numeric c.2.2.2⟩ else row) row
  | .reset a' => if a' = a then none else row
  | _ => row

def storedBalance (a : AccountId) (v : VenueId) (ws : List Write) : Option ℚ :=
  ws.foldl (balanceAfter a v) none

def storedPosition (a : AccountId) (v : VenueId) (o : OutcomeId) (ws : List Write) :
    Option PositionRow :=
  ws.foldl (positionAfter a v o) none

theorem balances_get?_upsertPaperBalance (db : Db) (a a' : AccountId) (v v' : VenueId)
    (amount : ℚ) : (db.upsertPaperBalance a' v' amount).balances.get? (a, v) =
      if a' = a ∧ v' = v then some amount else db.balances.get? (a, v) := by
  rw [Db.upsertPaperBalance, Dict.get?_set]
  simp only [Prod.mk.injEq, eq_comm]

theorem positions_get?_upsertPaperPosition (db : Db) (a a' : AccountId) (v v' : VenueId)
    (o o' : OutcomeId) (position : PositionRow) :
    (db.upsertPaperPosition a' v' o' position).positions.get? (a, v, o) =
      if a' = a ∧ v' = v ∧ o' = o then some position else db.positions.get? (a, v, o) := by
  rw [Db.upsertPaperPosition, Dict.get?_set]
  simp only [Prod.mk.injEq, eq_comm]

theorem balances_get?_closed (o : OutcomeId) (a : AccountId) (v v' : VenueId)
    (closed : List (AccountId × ℚ × ℚ × ℚ)) (db : Db) :
    (closed.foldl (fun db (acct, balance, realized, fees) =>
      (db.upsertPaperBalance acct v' balance).upsertPaperPosition acct v' o
        ⟨0, 0, realized, fees⟩) db).balances.get? (a, v) =
      closed.foldl (fun row c => if c.1 = a ∧ v' = v then some c.2.1 else row)
        (db.balances.get? (a, v)) := by
  induction closed generalizing db with
  | nil => rfl
  | cons c closed ih =>
      rw [List.foldl_cons, List.foldl_cons, ih]
      refine congrArg (fun row => List.foldl _ row closed) ?_
      exact balances_get?_upsertPaperBalance db a c.1 v v' c.2.1

theorem positions_get?_closed (o o' : OutcomeId) (a : AccountId) (v v' : VenueId)
    (closed : List (AccountId × ℚ × ℚ × ℚ)) (db : Db) :
    (closed.foldl (fun db (acct, balance, realized, fees) =>
      (db.upsertPaperBalance acct v' balance).upsertPaperPosition acct v' o'
        ⟨0, 0, realized, fees⟩) db).positions.get? (a, v, o) =
      closed.foldl (fun row c =>
        if c.1 = a ∧ v' = v ∧ o' = o then some ⟨0, 0, c.2.2.1, c.2.2.2⟩ else row)
        (db.positions.get? (a, v, o)) := by
  induction closed generalizing db with
  | nil => rfl
  | cons c closed ih =>
      rw [List.foldl_cons, List.foldl_cons, ih]
      refine congrArg (fun row => List.foldl _ row closed) ?_
      exact positions_get?_upsertPaperPosition (db.upsertPaperBalance c.1 v' c.2.1) a c.1 v v' o o' _

theorem balances_get?_swept (a a' : AccountId) (v : VenueId) (cash : VenueId → ℚ)
    (venues : List VenueId) (db : Db) :
    (venues.foldl (fun db v => db.upsertPaperBalance a' v (cash v)) db).balances.get? (a, v) =
      if a' = a ∧ v ∈ venues then some (cash v) else db.balances.get? (a, v) := by
  induction venues generalizing db with
  | nil => simp
  | cons w venues ih =>
      rw [List.foldl_cons, ih, balances_get?_upsertPaperBalance]
      by_cases ha : a' = a
      · by_cases hv : v ∈ venues
        · simp [ha, hv]
        · by_cases hw : w = v
          · simp [ha, hv, hw]
          · simp [ha, hv, hw, Ne.symm hw]
      · simp [ha]

theorem positions_swept (a : AccountId) (cash : VenueId → ℚ) (venues : List VenueId) (db : Db) :
    (venues.foldl (fun db v => db.upsertPaperBalance a v (cash v)) db).positions =
      db.positions := by
  induction venues generalizing db with
  | nil => rfl
  | cons v venues ih => exact ih _

theorem balances_get?_applyBook (db : Db) (w : Write) (a : AccountId) (v : VenueId) :
    (applyBook db w).balances.get? (a, v) = balanceAfter a v (db.balances.get? (a, v)) w := by
  cases w with
  | balance a' v' amount => exact balances_get?_upsertPaperBalance db a a' v v' _
  | settled r v' closed =>
      refine (balances_get?_closed r.outcomeId a v v' (closed.map closedInColumns) db).trans ?_
      rw [List.foldl_map]
      rfl
  | sweep a' moved cash => exact balances_get?_swept a a' v (fun v => numeric (cash v)) _ _
  | reset a' =>
      show (db.balances.filterKeys _).get? (a, v) = if a' = a then none else _
      rw [Dict.get?_filterKeys]
      by_cases ha : a' = a
      · simp [ha]
      · simp [ha, Ne.symm ha]
  | _ => rfl

theorem positions_get?_applyBook (db : Db) (w : Write) (a : AccountId) (v : VenueId)
    (o : OutcomeId) : (applyBook db w).positions.get? (a, v, o) =
      positionAfter a v o (db.positions.get? (a, v, o)) w := by
  cases w with
  | position a' v' o' position =>
      exact positions_get?_upsertPaperPosition db a a' v v' o o' _
  | settled r v' closed =>
      refine (positions_get?_closed o r.outcomeId a v v' (closed.map closedInColumns) db).trans ?_
      rw [List.foldl_map]
      rfl
  | sweep a' moved cash =>
      exact congrArg (Dict.get? · (a, v, o))
        (positions_swept a' (fun v => numeric (cash v)) (touched moved) _)
  | reset a' =>
      show (db.positions.filterKeys _).get? (a, v, o) = if a' = a then none else _
      rw [Dict.get?_filterKeys]
      by_cases ha : a' = a
      · simp [ha]
      · simp [ha, Ne.symm ha]
  | _ => rfl

theorem get?_run_applyBook (ws : List Write) (db : Db) (a : AccountId) (v : VenueId) :
    (Runs.run applyBook db ws).balances.get? (a, v) =
        ws.foldl (balanceAfter a v) (db.balances.get? (a, v)) ∧
      ∀ o, (Runs.run applyBook db ws).positions.get? (a, v, o) =
        ws.foldl (positionAfter a v o) (db.positions.get? (a, v, o)) := by
  induction ws generalizing db with
  | nil => exact ⟨rfl, fun _ => rfl⟩
  | cons w ws ih =>
      obtain ⟨hbalance, hposition⟩ := ih (applyBook db w)
      refine ⟨?_, fun o => ?_⟩
      · rw [Runs.run_cons, hbalance, balances_get?_applyBook, List.foldl_cons]
      · rw [Runs.run_cons, hposition, positions_get?_applyBook, List.foldl_cons]

end Schema

end Arbys
