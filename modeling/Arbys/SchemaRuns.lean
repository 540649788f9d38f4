import Arbys.SchemaWrites

/-!
# The database over a run

`Write` is every transaction the program makes, from `bootstrap` on, and a run
is any sequence of them; one that is refused rolls back. The databases such
runs reach are `Reached`, and there `Accepts` says of each write what it needs.
-/

namespace Arbys

open Tables

namespace Schema

/-! ## The transactions -/

/-- `REFERENCE_VENUES`, under the names `bootstrap` gives them. -/
def referenceVenues : List (VenueId × String) :=
  [("polymarket_us", "Polymarket_Us"), ("kalshi", "Kalshi"), ("draftkings", "Draftkings")]

/-- The reference data of `bootstrap`. -/
def seedReference (accountId : AccountId) (db : Database) : Option Database := do
  let db ← referenceVenues.foldlM (fun db v => ensureVenue v.1 v.2 "exchange" db) db
  ensurePaperAccount accountId db

/-- `push_quote`, which does not know the venue of an outcome. -/
def pushQuote (r : QuoteRow) (db : Database) : Option Database := do
  let db ← ensureOutcomePlaceholder r.outcomeId "unknown" db
  insertQuote r db

/-- A transaction of the program. An order comes alone from the sink and with
its siblings from `_write_rejected_legs`; a group comes alone from
`POST /event-groups` and in a batch from discovery. -/
inductive Write where
  | bootstrap (accountId : AccountId)
  | upsertGroups (groups : List EventGroup)
  | deleteGroup (groupId : GroupId)
  | quote (r : QuoteRow)
  | opportunity (opp : ArbOpportunity)
  | orders (rs : List PaperOrder)
  | fill (r : PaperFill)
  | balance (accountId : AccountId) (venueId : VenueId) (amount : ℚ)
  | position (accountId : AccountId) (venueId : VenueId) (outcomeId : OutcomeId)
      (position : PositionRow)
  | settled (r : PaperSettlement) (venueId : VenueId) (closed : List (AccountId × ℚ × ℚ × ℚ))
  | ticket (r : PaperTicket)
  | status (ticketId : TicketId) (status : String) (rejectionReason : Option String)
  | sweep (accountId : AccountId) (moved : List CashTransfer) (cash : VenueId → ℚ)
  | snapshot (r : PaperPnlSnapshotRow)
  | reset (accountId : AccountId)

def Write.tx : Write → Store.Tx constraints
  | bootstrap a => seedReference a
  | upsertGroups groups => upsertEventGroups groups
  | deleteGroup gid => deleteEventGroup gid
  | quote r => pushQuote r
  | opportunity opp => insertOpportunity opp
  | orders rs => insertPaperOrders rs
  | fill r => insertPaperFill r
  | balance a v amount => upsertPaperBalance a v amount
  | position a v o p => upsertPaperPosition a v o p
  | settled r v closed => onSettled r v closed
  | ticket r => writeTicket r
  | status t st reason => updatePaperTicketStatus t st reason
  | sweep a moved cash => persistSweep a moved cash
  | snapshot r => insertPaperPnlSnapshot r
  | reset a => deletePaperHistory a

/-- The database after a run, from an empty one. -/
def run (ws : List Write) : Database :=
  Runs.run (fun db w => Store.commit w.tx db) Store.empty ws

/-- No order of another account is on a ticket of this one. -/
def OwnOrders (a : AccountId) (db : Database) : Prop :=
  ∀ o t, .paperOrder o ∈ db.rows → .paperTicket t ∈ db.rows → o.ticketId = some t.id →
    t.accountId = a → o.accountId = a

/-- What a write needs of the database it meets. -/
def Accepts (db : Database) : Write → Prop
  | .bootstrap _ | .deleteGroup _ | .opportunity _ | .status .. => True
  | .upsertGroups groups =>
      Placeable db (groups.flatMap (·.legs)) ∧
        ∀ group ∈ groups, (group.legs.map (·.outcomeId)).Nodup
  | .quote r => db.Has (.outcome r.outcomeId)
  | .orders rs => (rs.map (·.id)).Nodup ∧ ∀ r ∈ rs, OrderFits db r
  | .fill r => db.Has (.paperOrder r.orderId)
  | .balance a v _ => db.Has (.paperAccount a) ∧ db.Has (.venue v)
  | .position a v _ _ => db.Has (.paperAccount a) ∧ db.Has (.venue v)
  | .settled r v closed =>
      (∀ c ∈ closed, db.Has (.paperAccount c.1) ∧ db.Has (.venue v)) ∧
        (db.Has (.outcome r.outcomeId) ∨ db.Has (.venue v))
  | .ticket r => ¬db.Has (.paperTicket r.id)
  | .sweep a moved _ => ∀ t ∈ moved, db.Has (.paperAccount a) ∧ db.Has (.venue t.fromVenue) ∧
      db.Has (.venue t.toVenue)
  | .snapshot r => db.Has (.paperAccount r.accountId)
  | .reset a => OwnOrders a db

/-! ## What every run keeps -/

/-- The databases of this program. -/
structure Reached (db : Database) : Prop where
  placed : Placed db
  venue : ∀ v, db.Has (.venue v) → v ∈ referenceVenues.map Prod.fst

theorem Reached.of_placing_eq {db db' : Database} (hdb : Reached db)
    (h : db'.rows.filter Row.placing = db.rows.filter Row.placing) : Reached db' where
  placed := hdb.placed.of_placing_eq h
  venue v hv := hdb.venue v ((has_of_placing_eq h (placing_of_key_venue v)).mp hv)

theorem Reached.extends {db db' : Database} (hdb : Reached db) (h : Extends db db') :
    Reached db' where
  placed := h.placed
  venue v hv := hdb.venue v ((h.has_venue v).mp hv)

theorem ensureVenue_spec {db : Database} (hdb : Placed db) (id : VenueId) (name kind : String) :
    ∃ db', ensureVenue id name kind db = some db' ∧ Placed db' ∧
      ∀ k, db'.Has k ↔ db.Has k ∨ k = .venue id := by
  unfold ensureVenue
  by_cases hthere : db.Has (.venue id)
  · obtain ⟨r, hr⟩ := Option.isSome_iff_exists.mp (Store.get?_isSome_iff.mpr hthere)
    rw [hr]
    refine ⟨db, rfl, hdb, fun k => ⟨.inl, ?_⟩⟩
    rintro (hk | rfl)
    · exact hk
    · exact hthere
  · have hadmits : constraints.Admits db.rows (.venue ⟨id, name, kind⟩) := by
      have hfresh : RowId.venue id ∉ constraints.keys db.rows := hthere
      simp [Constraints.Admits, hfresh]
    obtain ⟨db', hdb', hrows⟩ := Store.exists_insert hadmits
    rw [Store.get?_eq_none_iff.mpr hthere]
    have hhas : ∀ k, db'.Has k ↔ db.Has k ∨ k = .venue id := by
      intro k
      rw [Store.has_of_rows_append hrows]
      simp [Constraints.keys]
    refine ⟨db', hdb', hdb.insert_root hrows ?_ ?_ ?_, hhas⟩
    · intro m h
      cases h
    · intro o h
      cases h
    · intro a h
      cases h

/-- **Seeding is never refused**, a second time no more than the first. -/
theorem exists_seedReference {db : Database} (hdb : Reached db) (a : AccountId) :
    ∃ db', seedReference a db = some db' ∧ Reached db' := by
  obtain ⟨db1, h1, hp1, hhas1⟩ := ensureVenue_spec hdb.placed "polymarket_us" "Polymarket_Us"
    "exchange"
  obtain ⟨db2, h2, hp2, hhas2⟩ := ensureVenue_spec hp1 "kalshi" "Kalshi" "exchange"
  obtain ⟨db3, h3, hp3, hhas3⟩ := ensureVenue_spec hp2 "draftkings" "Draftkings" "exchange"
  obtain ⟨db', h', hp', hhas'⟩ := exists_ensurePaperAccount hp3 a
  refine ⟨db', ?_, hp', fun v hv => ?_⟩
  · simp only [seedReference, referenceVenues, List.foldlM_cons, List.foldlM_nil, h1, h2, h3, h',
      Option.bind_eq_bind, Option.bind_some, Option.pure_def]
  · rw [hhas', hhas3, hhas2, hhas1] at hv
    simp only [RowId.venue.injEq, reduceCtorEq, or_false] at hv
    rcases hv with ((hv | rfl) | rfl) | rfl
    · exact hdb.venue v hv
    · simp [referenceVenues]
    · simp [referenceVenues]
    · simp [referenceVenues]

theorem pushQuote_isSome_iff {db : Database} (hdb : Reached db) {r : QuoteRow} :
    (pushQuote r db).isSome ↔ db.Has (.outcome r.outcomeId) := by
  have hunknown : ¬db.Has (.venue "unknown") := by
    intro hv
    have := hdb.venue _ hv
    revert this
    decide
  have hensure := ensureOutcomePlaceholder_isSome_iff hdb.placed (o := r.outcomeId) (v := "unknown")
  rw [or_iff_left hunknown] at hensure
  rw [← hensure, pushQuote]
  cases hmid : ensureOutcomePlaceholder r.outcomeId "unknown" db with
  | none => exact Iff.rfl
  | some mid =>
      refine iff_of_true (Store.insert_isSome_iff.mpr ?_) rfl
      have hout := has_of_ensured hdb.placed hmid
      simpa [Constraints.Admits, Store.Has] using hout

theorem extends_pushQuote {db db' : Database} (hdb : Placed db) {r : QuoteRow}
    (h : pushQuote r db = some db') : Extends db db' := by
  obtain ⟨mid, hmid, hlast⟩ := Option.bind_eq_some_iff.mp h
  have hext := extends_ensured hdb hmid
  exact hext.trans (extends_insert hext.placed hlast rfl rfl)

theorem updatePaperTicketStatus_isSome (t : TicketId) (status : String) (reason : Option String)
    (db : Database) : (updatePaperTicketStatus t status reason db).isSome := by
  unfold updatePaperTicketStatus
  cases db.get? (.paperTicket t) <;> rfl

/-! ### The reset -/

/-- The rows `delete_paper_history` takes. -/
def inHistory (a : AccountId) (db : Database) (r : Row) : Bool :=
  (historyDeletes a (orderIds a db)).any fun p => p r

theorem mem_orderIds {a : AccountId} {db : Database} {id : String} :
    id ∈ orderIds a db ↔ ∃ o, .paperOrder o ∈ db.rows ∧ o.accountId = a ∧ o.id = id := by
  rw [orderIds, List.mem_filterMap]
  constructor
  · rintro ⟨r, hr, hid⟩
    cases r with
    | paperOrder o =>
        obtain ⟨ha, hid⟩ := Option.ite_none_right_eq_some.mp hid
        exact ⟨o, hr, ha, Option.some.inj hid⟩
    | _ => cases hid
  · rintro ⟨o, ho, ha, rfl⟩
    exact ⟨_, ho, if_pos ha⟩

/-- The fills of an account's orders and then the orders: nothing else refers
to either. -/
theorem exists_delete_orders (a : AccountId) (db : Database) :
    ∃ mid, [isFillOf (orderIds a db), isOrderOf a].foldlM Store.delete db = some mid ∧
      mid.rows = db.rows.filter fun r => !(isFillOf (orderIds a db) r || isOrderOf a r) := by
  obtain ⟨top, htop, htoprows⟩ := Store.exists_delete_of_keyless (s := db)
    (p := isFillOf (orderIds a db)) fun r hr => by
      cases r with
      | paperFill f => rfl
      | _ => cases hr
  have horders : ∃ mid, top.delete (isOrderOf a) = some mid ∧
      mid.rows = top.rows.filter fun r => !isOrderOf a r := by
    refine Store.exists_delete fun r hr _ k hk r' hr' hk' => ?_
    rw [htoprows] at hr hr'
    obtain ⟨hr, hkept⟩ := List.mem_filter.mp hr
    obtain ⟨hr', -⟩ := List.mem_filter.mp hr'
    cases r' with
    | paperOrder o =>
        simp only [constraints_key, Row.key, Option.some.injEq] at hk'
        subst hk'
        -- What refers to an order is a fill of it, and the account's have gone.
        cases r with
        | paperFill f =>
            have hid : o.id = f.orderId := by simpa using hk
            have hnot : f.orderId ∉ orderIds a db := by simpa [isFillOf] using hkept
            have hother : o.accountId ≠ a := fun ha => hnot (mem_orderIds.mpr ⟨o, hr', ha, hid⟩)
            simpa [isOrderOf] using hother
        | paperOrder p => cases ht : p.ticketId <;> simp [ht] at hk
        | _ => simp at hk
    | _ => rfl
  obtain ⟨mid, hmid, hrows⟩ := horders
  refine ⟨mid, ?_, ?_⟩
  · simp only [List.foldlM_cons, List.foldlM_nil, htop, hmid, Option.bind_eq_bind,
      Option.bind_some, Option.pure_def]
  · rw [hrows, htoprows, List.filter_filter]
    refine List.filter_congr fun r _ => ?_
    rw [Bool.not_or, Bool.and_comm]

/-- The tickets can go exactly if every order left is on another account's. -/
theorem delete_tickets_isSome_iff {a : AccountId} {db mid : Database}
    (hmid : mid.rows = db.rows.filter fun r => !(isFillOf (orderIds a db) r || isOrderOf a r)) :
    (mid.delete (isTicketOf a)).isSome ↔ OwnOrders a db := by
  rw [Store.delete_isSome_iff]
  constructor
  · intro hfrees o t ho ht hot hta
    by_contra hoa
    -- an order of another account survives the deletes before
    have hleft : Row.paperOrder o ∈ mid.rows := by
      rw [hmid, List.mem_filter]
      exact ⟨ho, by simp [isFillOf, isOrderOf, hoa]⟩
    have hkept := hfrees _ hleft rfl (.paperTicket t.id) (by simp [hot])
    obtain ⟨r, hr, hk⟩ := Constraints.mem_keys.mp hkept
    obtain ⟨hrmid, hstays⟩ := List.mem_filter.mp hr
    have hrdb : r ∈ db.rows := by
      rw [hmid] at hrmid
      exact (List.mem_filter.mp hrmid).1
    have hrt : r = .paperTicket t := Store.eq_of_key_eq hrdb ht hk rfl
    rw [hrt] at hstays
    simp [isTicketOf, hta] at hstays
  · intro hown
    refine Store.delete_isSome_iff.mp ?_
    obtain ⟨db', hdb', _⟩ := Store.exists_delete (s := mid) (p := isTicketOf a)
      fun r hr _ k hk r' hr' hk' => by
        rw [hmid] at hr hr'
        obtain ⟨hr, hkept⟩ := List.mem_filter.mp hr
        obtain ⟨hr', -⟩ := List.mem_filter.mp hr'
        cases r' with
        | paperTicket t =>
            simp only [constraints_key, Row.key, Option.some.injEq] at hk'
            subst hk'
            cases r with
            | paperOrder o =>
                have hot : o.ticketId = some t.id := by
                  cases ht : o.ticketId with
                  | none => simp [ht] at hk
                  | some t' =>
                      have heq : t.id = t' := by simpa [ht] using hk
                      rw [heq]
                have hother : o.accountId ≠ a := by simpa [isFillOf, isOrderOf] using hkept
                have : t.accountId ≠ a := fun hta => hother (hown o t hr hr' hot hta)
                simpa [isTicketOf] using this
            | _ => simp at hk
        | _ => rfl
    rw [hdb']
    rfl

/-- The deletes of `delete_paper_history` after the tickets. -/
def unreferredDeletes (a : AccountId) : List (Row → Bool) :=
  [isSettlement, isSnapshotOf a, isPositionOf a, isTransferOf a, isBalanceOf a]

theorem key_of_unreferred {a : AccountId} {p : Row → Bool} (hp : p ∈ unreferredDeletes a)
    {r : Row} (hr : p r = true) : r.key = none := by
  simp only [unreferredDeletes, List.mem_cons, List.not_mem_nil, or_false] at hp
  rcases hp with rfl | rfl | rfl | rfl | rfl
  all_goals
    cases r <;> first | rfl | cases hr

theorem deletePaperHistory_eq (a : AccountId) (db : Database) :
    deletePaperHistory a db =
      ([isFillOf (orderIds a db), isOrderOf a].foldlM Store.delete db).bind fun mid =>
        (mid.delete (isTicketOf a)).bind fun top => (unreferredDeletes a).foldlM Store.delete top := by
  rw [deletePaperHistory,
    show historyDeletes a (orderIds a db) =
      [isFillOf (orderIds a db), isOrderOf a] ++ isTicketOf a :: unreferredDeletes a from rfl,
    List.foldlM_append]
  rfl

/-- **A reset is refused** exactly if another account has an order on one of
this account's tickets. -/
theorem deletePaperHistory_isSome_iff (a : AccountId) (db : Database) :
    (deletePaperHistory a db).isSome ↔ OwnOrders a db := by
  obtain ⟨mid, hmid, hrows⟩ := exists_delete_orders a db
  rw [deletePaperHistory_eq, hmid, ← delete_tickets_isSome_iff hrows, Option.bind_some]
  cases htop : mid.delete (isTicketOf a) with
  | none => exact Iff.rfl
  | some top =>
      obtain ⟨db', hdb', _⟩ := Store.exists_deletes_of_keyless
        (fun p hp r hr => key_of_unreferred hp hr) top
      refine iff_of_true ?_ rfl
      rw [Option.bind_some, hdb']
      rfl

theorem rows_of_deletePaperHistory {a : AccountId} {db db' : Database}
    (h : deletePaperHistory a db = some db') :
    db'.rows = db.rows.filter fun r => !inHistory a db r := by
  obtain ⟨mid, hmid, hmidrows⟩ := exists_delete_orders a db
  rw [deletePaperHistory_eq, hmid, Option.bind_some] at h
  obtain ⟨top, htop, hlast⟩ := Option.bind_eq_some_iff.mp h
  obtain ⟨last, hlast', hrows⟩ := Store.exists_deletes_of_keyless
    (fun p hp r hr => key_of_unreferred hp hr) top
  rw [hlast, Option.some.injEq] at hlast'
  rw [hlast', hrows, Store.rows_of_delete htop, hmidrows, List.filter_filter, List.filter_filter]
  refine List.filter_congr fun r _ => ?_
  rw [inHistory, show historyDeletes a (orderIds a db) =
    [isFillOf (orderIds a db), isOrderOf a, isTicketOf a] ++ unreferredDeletes a from rfl,
    List.any_append]
  simp only [List.any_cons, List.any_nil, Bool.or_false, Bool.not_or, Bool.and_assoc,
    Bool.and_comm, Bool.and_left_comm]

/-- The account a row is of. -/
def Row.owner : Row → Option AccountId
  | .paperOrder r => some r.accountId
  | .paperTicket r => some r.accountId
  | .paperBalance r => some r.accountId
  | .paperPosition r => some r.accountId
  | .paperTransfer r => some r.accountId
  | .paperPnlSnapshot r => some r.accountId
  | _ => none

theorem inHistory_of_owner {r : Row} {b : AccountId} (h : r.owner = some b) (a : AccountId)
    (db : Database) : inHistory a db r = decide (b = a) := by
  cases r <;> cases h <;>
    simp [inHistory, historyDeletes, isFillOf, isOrderOf, isTicketOf, isSettlement, isSnapshotOf,
      isPositionOf, isTransferOf, isBalanceOf]

/-- No settlement is left, of whatever account it paid. -/
theorem filterMap_settlements_eq_nil {β : Type*} {f : Row → Option β}
    (hf : ∀ r, isSettlement r = false → f r = none) {a : AccountId} {db db' : Database}
    (h : deletePaperHistory a db = some db') : db'.rows.filterMap f = [] := by
  rw [rows_of_deletePaperHistory h, List.filterMap_eq_nil_iff]
  intro r hr
  refine hf r ?_
  obtain ⟨-, hkept⟩ := List.mem_filter.mp hr
  by_contra hset
  rw [inHistory, List.any_eq_true.mpr
    ⟨isSettlement, by simp [historyDeletes], by simpa using hset⟩] at hkept
  cases hkept

/-! ### What a write does not touch -/

/-- The tables a transaction writes to. -/
def Write.touches : Write → Row → Bool
  | .bootstrap _ => fun
      | .venue _ | .paperAccount _ => true
      | _ => false
  | .upsertGroups _ => fun
      | .market _ | .outcome _ | .eventGroup _ | .eventGroupLeg _ => true
      | _ => false
  | .deleteGroup _ => fun
      | .eventGroup _ | .eventGroupLeg _ => true
      | _ => false
  | .quote _ => fun
      | .market _ | .outcome _ | .quote _ => true
      | _ => false
  | .opportunity _ => fun
      | .arbOpportunity _ => true
      | _ => false
  | .orders _ => fun
      | .market _ | .outcome _ | .paperOrder _ => true
      | _ => false
  | .fill _ => fun
      | .paperFill _ => true
      | _ => false
  | .balance .. => fun
      | .paperBalance _ => true
      | _ => false
  | .position .. => fun
      | .market _ | .outcome _ | .paperPosition _ => true
      | _ => false
  | .settled .. => fun
      | .market _ | .outcome _ | .paperBalance _ | .paperPosition _ | .paperSettlement _ => true
      | _ => false
  | .ticket _ => fun
      | .paperAccount _ | .paperTicket _ => true
      | _ => false
  | .status .. => fun
      | .paperTicket _ => true
      | _ => false
  | .sweep .. => fun
      | .paperTransfer _ | .paperBalance _ => true
      | _ => false
  | .snapshot _ => fun
      | .paperPnlSnapshot _ => true
      | _ => false
  | .reset _ => fun
      | .paperFill _ | .paperOrder _ | .paperTicket _ | .paperSettlement _ | .paperPnlSnapshot _
      | .paperPosition _ | .paperTransfer _ | .paperBalance _ => true
      | _ => false

section Frames

variable {p : Row → Bool}

theorem confined_ensureVenue (hvenue : ∀ r, p (.venue r) = true) (id : VenueId)
    (name kind : String) : Store.Confined p (ensureVenue id name kind) := by
  intro db db' h
  unfold ensureVenue at h
  split at h
  · cases h
    rfl
  · exact Store.confined_insert (hvenue _) db db' h

theorem confined_ensurePaperAccount (haccount : ∀ r, p (.paperAccount r) = true) (a : AccountId) :
    Store.Confined p (ensurePaperAccount a) := by
  intro db db' h
  unfold ensurePaperAccount at h
  split at h
  · cases h
    rfl
  · exact Store.confined_insert (haccount _) db db' h

theorem confined_ensureOutcomePlaceholder (hmarket : ∀ r, p (.market r) = true)
    (houtcome : ∀ r, p (.outcome r) = true) (o : OutcomeId) (v : VenueId) :
    Store.Confined p (ensureOutcomePlaceholder o v) := by
  intro db db' h
  unfold ensureOutcomePlaceholder at h
  split at h
  · cases h
    rfl
  · split at h
    · exact Store.confined_insert (houtcome _) db db' h
    · exact (Store.confined_insert (hmarket _)).bind (Store.confined_insert (houtcome _)) db db' h

theorem confined_upsertEventGroup (hmarket : ∀ r, p (.market r) = true)
    (houtcome : ∀ r, p (.outcome r) = true) (hgroup : ∀ r, p (.eventGroup r) = true)
    (hleg : ∀ r, p (.eventGroupLeg r) = true) (group : EventGroup) :
    Store.Confined p (upsertEventGroup group) := by
  have hwrite : Store.Confined p (writeGroup group) := by
    intro db db' h
    unfold writeGroup at h
    split at h
    · exact Store.confined_insert (hgroup _) db db' h
    · exact Store.confined_update _ (refreshGroup_cases hgroup group) db db' h
  have hclear : Store.Confined p fun db : Database => db.delete (isLegOf group.id) :=
    Store.confined_delete fun r hr => by
      cases r with
      | eventGroupLeg l => exact hleg l
      | _ => cases hr
  have hlegs : Store.Confined p fun db : Database => group.legs.foldlM (addLeg group) db :=
    .foldlM (fun leg => (confined_ensureOutcomePlaceholder hmarket houtcome _ _).bind
      (Store.confined_insert (hleg _))) _
  intro db db' h
  rw [upsertEventGroup_eq] at h
  exact ((hwrite.bind hclear).bind hlegs) db db' h

theorem confined_upsertPaperBalance (hbalance : ∀ r, p (.paperBalance r) = true) (a : AccountId)
    (v : VenueId) (amount : ℚ) : Store.Confined p (upsertPaperBalance a v amount) := by
  intro db db' h
  unfold upsertPaperBalance at h
  split at h
  · exact Store.confined_update _ (setAmount_cases hbalance a v _) db db' h
  · exact Store.confined_insert (hbalance _) db db' h

theorem confined_upsertPaperPosition (hmarket : ∀ r, p (.market r) = true)
    (houtcome : ∀ r, p (.outcome r) = true) (hposition : ∀ r, p (.paperPosition r) = true)
    (a : AccountId) (v : VenueId) (o : OutcomeId) (position : PositionRow) :
    Store.Confined p (upsertPaperPosition a v o position) := by
  intro db db' h
  obtain ⟨mid, hmid, hlast⟩ := Option.bind_eq_some_iff.mp h
  rw [← confined_ensureOutcomePlaceholder hmarket houtcome o v db mid hmid]
  split at hlast
  · exact Store.confined_update _ (setPosition_cases hposition a v o _) mid db' hlast
  · exact Store.confined_insert (hposition _) mid db' hlast

theorem confined_updatePaperTicketStatus (hticket : ∀ r, p (.paperTicket r) = true)
    (t : TicketId) (status : String) (reason : Option String) :
    Store.Confined p (updatePaperTicketStatus t status reason) := by
  intro db db' h
  unfold updatePaperTicketStatus at h
  split at h
  · cases h
    rfl
  · exact Store.confined_update _ (setStatus_cases hticket t status reason) db db' h

end Frames

/-- **The frame of every write**: the rows of all other tables are as they
were. -/
theorem confined_tx (w : Write) : Store.Confined w.touches w.tx := by
  cases w with
  | bootstrap a =>
      exact Store.Confined.bind
        (.foldlM (fun v => confined_ensureVenue (fun _ => rfl) v.1 v.2 _) referenceVenues)
        (confined_ensurePaperAccount (fun _ => rfl) a)
  | upsertGroups groups =>
      exact .foldlM (fun group => confined_upsertEventGroup (fun _ => rfl) (fun _ => rfl)
        (fun _ => rfl) (fun _ => rfl) group) groups
  | deleteGroup gid =>
      refine Store.Confined.bind (Store.confined_delete fun r hr => ?_)
        (Store.confined_delete fun r hr => ?_)
      · cases r <;> first | rfl | cases hr
      · cases r <;> first | rfl | cases hr
  | quote r =>
      exact (confined_ensureOutcomePlaceholder (fun _ => rfl) (fun _ => rfl) _ _).bind
        (Store.confined_insert rfl)
  | opportunity opp => exact Store.confined_insert (r := Row.arbOpportunity opp) rfl
  | orders rs =>
      exact .foldlM (fun r => (confined_ensureOutcomePlaceholder (fun _ => rfl) (fun _ => rfl) _
        _).bind (Store.confined_insert rfl)) rs
  | fill r => exact Store.confined_insert (r := Row.paperFill r) rfl
  | balance a v amount => exact confined_upsertPaperBalance (fun _ => rfl) a v amount
  | position a v o position =>
      exact confined_upsertPaperPosition (fun _ => rfl) (fun _ => rfl) (fun _ => rfl) a v o position
  | settled r v closed =>
      refine Store.Confined.bind (.foldlM (fun c => ?_) closed)
        ((confined_ensureOutcomePlaceholder (fun _ => rfl) (fun _ => rfl) _ _).bind
          (Store.confined_insert rfl))
      exact (confined_upsertPaperBalance (fun _ => rfl) _ _ _).bind
        (confined_upsertPaperPosition (fun _ => rfl) (fun _ => rfl) (fun _ => rfl) _ _ _ _)
  | ticket r =>
      exact (confined_ensurePaperAccount (fun _ => rfl) _).bind (Store.confined_insert rfl)
  | status t st reason => exact confined_updatePaperTicketStatus (fun _ => rfl) t st reason
  | sweep a moved cash =>
      exact (Store.Confined.foldlM (fun t => Store.confined_insert rfl) moved).bind
        (.foldlM (fun v => confined_upsertPaperBalance (fun _ => rfl) a v _) (touched moved))
  | snapshot r => exact Store.confined_insert (r := Row.paperPnlSnapshot r) rfl
  | reset a =>
      intro db db' h
      rw [rows_of_deletePaperHistory h, List.filter_filter]
      refine List.filter_congr fun r _ => ?_
      cases hr : inHistory a db r with
      | false => simp
      | true => cases r <;> first | rfl | cases hr

/-! ### Every write -/

theorem insertPaperFill_isSome_iff {db : Database} {r : PaperFill} :
    (insertPaperFill r db).isSome ↔ db.Has (.paperOrder r.orderId) := by
  rw [insertPaperFill, Store.insert_isSome_iff]
  simp [Constraints.Admits, Store.Has]

theorem insertPaperPnlSnapshot_isSome_iff {db : Database} {r : PaperPnlSnapshotRow} :
    (insertPaperPnlSnapshot r db).isSome ↔ db.Has (.paperAccount r.accountId) := by
  rw [insertPaperPnlSnapshot, Store.insert_isSome_iff]
  simp [Constraints.Admits, Store.Has]

theorem insertOpportunity_isSome (opp : ArbOpportunity) (db : Database) :
    (insertOpportunity opp db).isSome := by
  rw [insertOpportunity, Store.insert_isSome_iff]
  simp [Constraints.Admits]

/-- What each transaction needs. -/
theorem Reached.tx_isSome_iff {db : Database} (hdb : Reached db) (w : Write) :
    (w.tx db).isSome ↔ Accepts db w := by
  cases w with
  | bootstrap a =>
      obtain ⟨db', hdb', _⟩ := exists_seedReference hdb a
      exact iff_of_true (Option.isSome_of_eq_some hdb') trivial
  | upsertGroups groups => exact upsertEventGroups_isSome_iff hdb.placed
  | deleteGroup gid =>
      obtain ⟨db', hdb', _⟩ := exists_deleteEventGroup db gid
      exact iff_of_true (Option.isSome_of_eq_some hdb') trivial
  | quote r => exact pushQuote_isSome_iff hdb
  | opportunity opp => exact iff_of_true (insertOpportunity_isSome opp db) trivial
  | orders rs => exact insertPaperOrders_isSome_iff hdb.placed
  | fill r => exact insertPaperFill_isSome_iff
  | balance a v amount => exact upsertPaperBalance_isSome_iff
  | position a v o p => exact upsertPaperPosition_isSome_iff hdb.placed
  | settled r v closed => exact onSettled_isSome_iff hdb.placed
  | ticket r => exact writeTicket_isSome_iff hdb.placed
  | status t st reason =>
      exact iff_of_true (updatePaperTicketStatus_isSome t st reason db) trivial
  | sweep a moved cash => exact persistSweep_isSome_iff hdb.placed
  | snapshot r => exact insertPaperPnlSnapshot_isSome_iff
  | reset a => exact deletePaperHistory_isSome_iff a db

theorem LegsAdded.reached {legs : List EventGroupLeg} {db db' : Database} (hdb : Reached db)
    (h : LegsAdded legs db db') : Reached db' :=
  ⟨h.placed, fun v hv => hdb.venue v ((h.has_venue v).mp hv)⟩

/-- **The step lemma**: a transaction that is not refused leaves the tables of
reference data as this program makes them. -/
theorem Reached.tx {db db' : Database} (hdb : Reached db) {w : Write}
    (h : w.tx db = some db') : Reached db' := by
  cases w with
  | bootstrap a =>
      obtain ⟨db'', hdb'', hreached⟩ := exists_seedReference hdb a
      rw [show seedReference a db = some db' from h, Option.some.injEq] at hdb''
      exact hdb'' ▸ hreached
  | upsertGroups groups =>
      exact Store.foldlM_inv
        (fun _ _ _ hs hstep => (legsAdded_upsertEventGroup hs.placed hstep).reached hs) hdb h
  | quote r => exact hdb.extends (extends_pushQuote hdb.placed h)
  | orders rs =>
      refine Store.foldlM_inv (fun s r s' hs hstep => ?_) hdb h
      have hadded := orderAdded hs.placed hstep
      exact ⟨hadded.placed, fun v hv => hs.venue v ((hadded.has_venue v).mp hv)⟩
  | position a v o p => exact hdb.extends (extends_position hdb.placed h)
  | settled r v closed => exact hdb.extends (extends_onSettled hdb.placed h)
  | ticket r =>
      obtain ⟨mid, hmid, hlast⟩ := Option.bind_eq_some_iff.mp h
      obtain ⟨mid', hmid', hplaced, hhas⟩ := exists_ensurePaperAccount hdb.placed r.accountId
      rw [hmid, Option.some.injEq] at hmid'
      subst hmid'
      have hreached : Reached mid :=
        ⟨hplaced, fun v hv => hdb.venue v (((hhas _).mp hv).resolve_right nofun)⟩
      exact hreached.of_placing_eq (placing_insert (Store.rows_of_insert hlast) rfl)
  | _ =>
      -- The rest write to none of the reference tables.
      exact hdb.of_placing_eq ((confined_tx _).filter
        (fun r hr => by cases r <;> first | rfl | cases hr) h)

theorem reached_empty : Reached Store.empty where
  placed := ⟨nofun, nofun, nofun⟩
  venue _ hv := absurd hv List.not_mem_nil

/-- **The run lemma.** -/
theorem reached_run (ws : List Write) : Reached (run ws) :=
  Runs.run_inv (fun _ _ hs => Store.commit_inv hs fun _ h => hs.tx h) ws reached_empty

/-- **Which writes are refused**: in every database the program can have
written, exactly those that find something they name missing, or an id of
theirs taken. -/
theorem tx_run_isSome_iff (ws : List Write) (w : Write) :
    (w.tx (run ws)).isSome ↔ Accepts (run ws) w :=
  (reached_run ws).tx_isSome_iff w

end Schema

end Arbys
