import Arbys.SchemaGroups

/-!
# What is listed after a run

`list_event_groups` is what a restart takes the groups from. After any run it
returns the groups the writes that were not refused leave: each as it was last
registered, unless it was retired since, with every one of its legs, at the
venue where the outcome was first placed by any write.
-/

namespace Arbys

open Tables

namespace Schema

/-! ## Writes that place an outcome -/

theorem groupDb_insert {db db' : Database} {r : Row} (h : db.insert r = some db')
    (hr : r.grouping = false) : groupDb db' = groupDb db :=
  groupDb_of_confined (Store.confined_insert (p := fun q => !q.grouping) (by simp [hr]))
    (fun q hq => by simp [hq]) h

theorem groupDb_placed_insert {db db' : Database} (hdb : Placed db) {o : OutcomeId} {v : VenueId}
    {r : Row} (h : ((ensureOutcomePlaceholder o v db).bind fun db => db.insert r) = some db')
    (hr : r.grouping = false) :
    groupDb db' = (groupDb db).ensureOutcomePlaceholder o v := by
  obtain ⟨mid, hmid, hlast⟩ := Option.bind_eq_some_iff.mp h
  rw [groupDb_insert hlast hr, groupDb_ensureOutcomePlaceholder hdb hmid]

theorem groupDb_upsertPaperPosition {db db' : Database} (hdb : Placed db) {a : AccountId}
    {v : VenueId} {o : OutcomeId} {position : PositionRow}
    (h : upsertPaperPosition a v o position db = some db') :
    groupDb db' = (groupDb db).ensureOutcomePlaceholder o v := by
  obtain ⟨mid, hmid, hlast⟩ := Option.bind_eq_some_iff.mp h
  rw [← groupDb_ensureOutcomePlaceholder hdb hmid]
  split at hlast
  · exact groupDb_of_confined
      (Store.confined_update (p := fun r => !r.grouping) _
        (setPosition_cases (fun _ => rfl) a v o _)) (fun r hr => by simp [hr]) hlast
  · exact groupDb_insert hlast rfl

theorem groupDb_closeAccount {db db' : Database} (hdb : Placed db) {o : OutcomeId} {v : VenueId}
    {c : AccountId × ℚ × ℚ × ℚ} (h : closeAccount o v db c = some db') :
    groupDb db' = (groupDb db).ensureOutcomePlaceholder o v := by
  obtain ⟨mid, hmid, hlast⟩ := Option.bind_eq_some_iff.mp h
  have hbalance : groupDb mid = groupDb db :=
    groupDb_of_confined (confined_tx (.balance c.1 v c.2.1))
      (fun r hr => by cases r <;> first | rfl | cases hr) hmid
  rw [groupDb_upsertPaperPosition (extends_balance hdb hmid).placed hlast, hbalance]

/-! ## Every write -/

/-- Where a write places outcomes, one after another. -/
def placements : Write → List (OutcomeId × VenueId)
  | .upsertGroups groups =>
      groups.flatMap fun group => group.legs.map fun leg => (leg.outcomeId, leg.venueId)
  | .quote r => [(r.outcomeId, "unknown")]
  | .orders rs => rs.map fun r => (r.outcomeId, r.venueId)
  | .position _ v o _ => [(o, v)]
  | .settled r v closed => closed.map (fun _ => (r.outcomeId, v)) ++ [(r.outcomeId, v)]
  | _ => []

/-- A write to the group tables without constraints. -/
def applyGroups (g : GroupDb) : Write → GroupDb
  | .upsertGroups groups => groups.foldl GroupDb.upsertEventGroup g
  | .deleteGroup gid => g.deleteEventGroup gid
  | w => placeAll (placements w) g

theorem placeAll_map {α : Type*} (l : List α) (f : α → OutcomeId × VenueId) (g : GroupDb) :
    placeAll (l.map f) g =
      l.foldl (fun g a => g.ensureOutcomePlaceholder (f a).1 (f a).2) g :=
  List.foldl_map ..

theorem placeAll_append (l l' : List (OutcomeId × VenueId)) (g : GroupDb) :
    placeAll (l ++ l') g = placeAll l' (placeAll l g) :=
  List.foldl_append ..

/-- **Refinement, one write**: a transaction that is not refused does to what
is read of the tables what it does without constraints. -/
theorem Reached.groupDb_tx {db db' : Database} (hdb : Reached db) {w : Write}
    (h : w.tx db = some db') : groupDb db' = applyGroups (groupDb db) w := by
  cases w with
  | upsertGroups groups =>
      refine Store.foldlM_read (I := Placed) (fun s group s' hs hstep => ?_) hdb.placed h
      exact ⟨(legsAdded_upsertEventGroup hs hstep).placed, groupDb_upsertEventGroup hs hstep⟩
  | deleteGroup gid => exact groupDb_deleteEventGroup h
  | quote r => exact groupDb_placed_insert hdb.placed h rfl
  | orders rs =>
      refine (Store.foldlM_read (I := Placed) (fun s r s' hs hstep => ?_) hdb.placed h).trans
        (placeAll_map rs (fun r => (r.outcomeId, r.venueId)) _).symm
      exact ⟨(orderAdded hs hstep).placed, groupDb_placed_insert hs hstep rfl⟩
  | position a v o p => exact groupDb_upsertPaperPosition hdb.placed h
  | settled r v closed =>
      obtain ⟨mid, hmid, hlast⟩ := Option.bind_eq_some_iff.mp h
      have hclosed : groupDb mid = placeAll (closed.map fun _ => (r.outcomeId, v)) (groupDb db) :=
        (Store.foldlM_read (I := Placed) (fun s c s' hs hstep =>
          ⟨(extends_closeAccount hs hstep).placed, groupDb_closeAccount hs hstep⟩)
          hdb.placed hmid).trans (placeAll_map closed (fun _ => (r.outcomeId, v)) _).symm
      have hplaced : Placed mid := Store.foldlM_inv (I := Placed)
        (fun s c s' hs hstep => (extends_closeAccount hs hstep).placed) hdb.placed hmid
      rw [groupDb_placed_insert hplaced hlast rfl, hclosed]
      exact (placeAll_append _ [(r.outcomeId, v)] _).symm
  | _ =>
      -- No other write touches a table that is read here.
      exact groupDb_of_confined (confined_tx _)
        (fun r hr => by cases r <;> first | rfl | cases hr) h

/-- The writes of a run that are not refused. -/
def acceptedFrom : Database → List Write → List Write
  | _, [] => []
  | db, w :: ws =>
      match w.tx db with
      | some db' => w :: acceptedFrom db' ws
      | none => acceptedFrom db ws

def accepted (ws : List Write) : List Write := acceptedFrom Store.empty ws

/-- What each write does to what is read of the tables, a run does. -/
theorem read_runFrom {γ : Type*} {I : Database → Prop} {read : Database → γ}
    {apply : γ → Write → γ}
    (hstep : ∀ db w db', I db → w.tx db = some db' → I db' ∧ read db' = apply (read db) w)
    {db : Database} (hdb : I db) (ws : List Write) :
    read (Runs.run (fun db w => Store.commit w.tx db) db ws) =
      Runs.run apply (read db) (acceptedFrom db ws) := by
  induction ws generalizing db with
  | nil => rfl
  | cons w ws ih =>
      rw [Runs.run_cons, acceptedFrom]
      cases htx : w.tx db with
      | none =>
          -- A refused write rolls back, and is not among the accepted ones.
          rw [Store.commit_of_eq_none htx]
          exact ih hdb
      | some db' =>
          obtain ⟨hinv, hread⟩ := hstep db w db' hdb htx
          rw [Store.commit_of_eq_some htx, ih hinv, hread]
          rfl

/-- **Refinement, a run**: what is read of the tables after it is what its
accepted writes leave without constraints. -/
theorem groupDb_run (ws : List Write) :
    groupDb (run ws) = Runs.run applyGroups {} (accepted ws) :=
  read_runFrom (fun _ _ _ hdb h => ⟨hdb.tx h, hdb.groupDb_tx h⟩) reached_empty ws

/-! ## The groups of a run -/

/-- A group's row after a registration: a start time that is known is not
overwritten by none. -/
def registered (row : Option GroupRow) (group : EventGroup) : GroupRow where
  title := group.title
  startTime := group.startTime.or (row.bind (·.startTime))
  source := group.source
  legs := group.legs.map fun leg => (legRow group leg).leg

/-- A group's row after a write. -/
def rowAfter (gid : GroupId) (row : Option GroupRow) : Write → Option GroupRow
  | .upsertGroups groups =>
      groups.foldl (fun row group => if group.id = gid then some (registered row group) else row)
        row
  | .deleteGroup j => if j = gid then none else row
  | _ => row

/-- A group's row after a run. -/
def rowOf (gid : GroupId) (ws : List Write) : Option GroupRow := ws.foldl (rowAfter gid) none

/-- Where an outcome is placed first. -/
def firstPlaced (l : List (OutcomeId × VenueId)) (o : OutcomeId) : Option VenueId :=
  (l.find? fun e => e.1 = o).map Prod.snd

def firstVenue (ws : List Write) : OutcomeId → Option VenueId :=
  firstPlaced (ws.flatMap placements)

theorem rowFor_eq_registered (g : GroupDb) (group : EventGroup) :
    g.rowFor group = registered (g.groups.get? group.id) group := by
  have hstart : g.mergedStart group =
      group.startTime.or ((g.groups.get? group.id).bind (·.startTime)) := by
    unfold GroupDb.mergedStart
    cases g.groups.get? group.id with
    | none => cases group.startTime <;> rfl
    | some row => cases group.startTime <;> rfl
  unfold GroupDb.rowFor registered
  rw [hstart]
  rfl

theorem get?_groups_applyGroups (g : GroupDb) (w : Write) (gid : GroupId) :
    (applyGroups g w).groups.get? gid = rowAfter gid (g.groups.get? gid) w := by
  have hplace : ∀ l, (placeAll l g).groups.get? gid = g.groups.get? gid := by
    intro l
    rw [groups_placeAll]
  cases w with
  | upsertGroups groups =>
      rw [applyGroups, rowAfter]
      induction groups generalizing g with
      | nil => rfl
      | cons group groups ih =>
          rw [List.foldl_cons, List.foldl_cons, ih _ fun l => by rw [groups_placeAll],
            GroupDb.get?_upsertEventGroup]
          refine congrArg (fun row => List.foldl _ row groups) ?_
          by_cases hg : group.id = gid
          · rw [if_pos hg, if_pos hg.symm, rowFor_eq_registered, hg]
          · rw [if_neg hg, if_neg (Ne.symm hg)]
  | deleteGroup j =>
      rw [applyGroups, rowAfter, GroupDb.get?_deleteEventGroup]
      by_cases hj : j = gid
      · rw [if_pos hj, if_pos hj.symm]
      · rw [if_neg hj, if_neg (Ne.symm hj)]
  | _ => exact hplace _

theorem get?_groups_run (ws : List Write) (g : GroupDb) (gid : GroupId) :
    (Runs.run applyGroups g ws).groups.get? gid =
      ws.foldl (rowAfter gid) (g.groups.get? gid) := by
  induction ws generalizing g with
  | nil => rfl
  | cons w ws ih => rw [Runs.run_cons, ih, get?_groups_applyGroups, List.foldl_cons]

theorem outcomes_upsertEventGroup (g : GroupDb) (group : EventGroup) :
    (g.upsertEventGroup group).outcomes =
      (placeAll (group.legs.map fun leg => (leg.outcomeId, leg.venueId)) g).outcomes := by
  rw [placeAll_map]
  rfl

theorem outcomes_applyGroups (g : GroupDb) (w : Write) :
    (applyGroups g w).outcomes = (placeAll (placements w) g).outcomes := by
  cases w with
  | upsertGroups groups =>
      rw [applyGroups, placements]
      induction groups generalizing g with
      | nil => rfl
      | cons group groups ih =>
          rw [List.foldl_cons, ih, List.flatMap_cons, placeAll_append]
          exact outcomes_placeAll_congr (outcomes_upsertEventGroup g group)
  | _ => rfl

theorem firstPlaced_append (l l' : List (OutcomeId × VenueId)) (o : OutcomeId) :
    firstPlaced (l ++ l') o = (firstPlaced l o).or (firstPlaced l' o) := by
  rw [firstPlaced, List.find?_append, Option.map_or]
  rfl

/-- An outcome stays where it is, and is else where it is placed first. -/
theorem get?_outcomes_placeAll (l : List (OutcomeId × VenueId)) (g : GroupDb) (o : OutcomeId) :
    (placeAll l g).outcomes.get? o = (g.outcomes.get? o).or (firstPlaced l o) := by
  induction l generalizing g with
  | nil => exact (Option.or_none).symm
  | cons e l ih =>
      have hfirst : (g.ensureOutcomePlaceholder e.1 e.2).outcomes.get? o =
          (g.outcomes.get? o).or (firstPlaced [e] o) := by
        unfold GroupDb.ensureOutcomePlaceholder
        by_cases ho : e.1 = o
        · cases hget : g.outcomes.get? e.1 <;> simp [firstPlaced, ← ho, hget]
        · have hother : (g.outcomes.set e.1 e.2).get? o = g.outcomes.get? o :=
            Dict.get?_set_ne _ (Ne.symm ho) _
          cases hget : g.outcomes.get? e.1 <;> simp [firstPlaced, ho, hother]
      rw [show e :: l = [e] ++ l from rfl, firstPlaced_append, ← Option.or_assoc, ← hfirst]
      exact ih _

theorem get?_outcomes_run (ws : List Write) (g : GroupDb) (o : OutcomeId) :
    (Runs.run applyGroups g ws).outcomes.get? o = (g.outcomes.get? o).or (firstVenue ws o) := by
  induction ws generalizing g with
  | nil => exact (Option.or_none).symm
  | cons w ws ih =>
      rw [Runs.run_cons, ih, outcomes_applyGroups, get?_outcomes_placeAll, Option.or_assoc,
        firstVenue, firstVenue, List.flatMap_cons, firstPlaced_append]

/-- A leg that is listed for a stored one. -/
structure LegAt (venue : OutcomeId → Option VenueId) (leg : EventGroupLeg) (stored : GroupLegRow) :
    Prop where
  outcomeId : leg.outcomeId = stored.outcomeId
  isYesSide : leg.isYesSide = stored.isYesSide
  venueId : venue stored.outcomeId = some leg.venueId

/-- A group as the tables list it: every leg of its row, in some order, each at
the venue of its outcome. -/
structure Lists (venue : OutcomeId → Option VenueId) (row : GroupRow) (g : EventGroup) :
    Prop where
  header : g = { id := g.id, title := row.title, startTime := row.startTime,
                 source := row.source, legs := g.legs }
  legs : ∃ stored, stored.Perm row.legs ∧ List.Forall₂ (LegAt venue) g.legs stored

/-- The join loses no leg whose outcome has a venue. -/
theorem eq_join_iff {venue : OutcomeId → Option VenueId} {stored : List GroupLegRow}
    (h : ∀ leg ∈ stored, (venue leg.outcomeId).isSome) {legs : List EventGroupLeg} :
    (stored.filterMap fun leg => (venue leg.outcomeId).map fun venueId =>
        ({ outcomeId := leg.outcomeId, venueId, isYesSide := leg.isYesSide } : EventGroupLeg)) =
      legs ↔ List.Forall₂ (LegAt venue) legs stored := by
  induction stored generalizing legs with
  | nil =>
      rw [List.forall₂_nil_right_iff]
      exact eq_comm
  | cons leg stored ih =>
      obtain ⟨hleg, hstored⟩ := List.forall_mem_cons.mp h
      obtain ⟨v, hv⟩ := Option.isSome_iff_exists.mp hleg
      rw [List.filterMap_cons, hv, List.forall₂_cons_right_iff]
      constructor
      · rintro rfl
        exact ⟨_, _, ⟨rfl, rfl, hv⟩, (ih hstored).mp rfl, rfl⟩
      · -- A leg listed for this one can only be the one the join makes.
        rintro ⟨first, rest, hfirst, hrest, rfl⟩
        obtain ⟨o, w, side⟩ := first
        obtain ⟨rfl, rfl, hw⟩ := hfirst
        rw [hv, Option.some.injEq] at hw
        rw [(ih hstored).mpr hrest, hw]
        rfl

/-- A stored leg refers to its outcome, which has a venue. -/
theorem isSome_outcomes_of_leg {db : Database} {gid : GroupId} {row : GroupRow}
    (h : (groupDb db).groups.get? gid = some row) {leg : GroupLegRow} (hleg : leg ∈ row.legs) :
    ((groupDb db).outcomes.get? leg.outcomeId).isSome := by
  rw [get?_groupDb_groups, Option.map_eq_some_iff] at h
  obtain ⟨g, _, rfl⟩ := h
  obtain ⟨r, hr, hread⟩ := List.mem_filterMap.mp hleg
  rw [outcomes_get?_isSome]
  cases r with
  | eventGroupLeg l =>
      obtain ⟨_, hl⟩ := Option.ite_none_right_eq_some.mp hread
      obtain rfl := Option.some.inj hl
      exact Store.has_of_ref hr (by simp)
  | _ => cases hread

/-- A listed group is the group of a row. -/
theorem lists_of_mem {order : QueryOrder} {db : Database} {g : EventGroup}
    (hg : g ∈ listEventGroups order db) : ∃ row, (groupDb db).groups.get? g.id = some row ∧
      Lists (groupDb db).outcomes.get? row g := by
  rw [listEventGroups_eq] at hg
  obtain ⟨r, hr, rfl⟩ := List.mem_map.mp hg
  have hget := get?_groupRows_of_mem ((order.groups_perm _).mem_iff.mp hr)
  have hrow : (groupDb db).groups.get? r.id =
      some ({ title := r.title, startTime := r.startTime, source := r.source
              legs := legsUnder db r.id } : GroupRow) := by
    rw [groups_groupDb, Dict.get?_mapVal, hget]
    rfl
  refine ⟨_, hrow, rfl, _, order.legs_perm r.id (legsUnder db r.id), ?_⟩
  refine (eq_join_iff fun leg hleg => ?_).mp rfl
  exact isSome_outcomes_of_leg hrow ((order.legs_perm _ _).mem_iff.mp hleg)

/-- And every row is listed. -/
theorem exists_mem_of_row (order : QueryOrder) {db : Database} {gid : GroupId} {row : GroupRow}
    (h : (groupDb db).groups.get? gid = some row) : ∃ g ∈ listEventGroups order db, g.id = gid := by
  rw [groups_groupDb, Dict.get?_mapVal, Option.map_eq_some_iff] at h
  obtain ⟨r, hget, -⟩ := h
  have hmem : r ∈ (groupRows db).values :=
    List.mem_map.mpr ⟨_, Dict.mem_entries_iff.mpr hget, rfl⟩
  have hid : r.id = gid := by
    obtain ⟨q, -, hq⟩ := List.mem_filterMap.mp (Dict.mem_entries_iff.mpr hget)
    exact (eventGroupOf_eq_some hq).2.symm
  rw [listEventGroups_eq]
  exact ⟨_, List.mem_map.mpr ⟨r, (order.groups_perm _).mem_iff.mpr hmem, rfl⟩, hid⟩

/-- No id is listed twice. -/
theorem nodup_listEventGroups (order : QueryOrder) (db : Database) :
    ((listEventGroups order db).map (·.id)).Nodup := by
  rw [listEventGroups_eq, List.map_map]
  have hids : (groupRows db).values.map (·.id) = (groupRows db).keys := by
    rw [Dict.values, Dict.keys, List.map_map]
    refine List.map_congr_left fun e he => ?_
    obtain ⟨r, -, hr⟩ := List.mem_filterMap.mp he
    exact (eventGroupOf_eq_some hr).2.symm
  refine ((order.groups_perm (groupRows db).values).map (·.id)).nodup_iff.mpr ?_
  rw [hids]
  exact (groupRows db).nodup

/-- **What a restart finds**, in whatever order the queries answer: after any
run each group that was registered since it was last retired, once, and no
other; with the title, the source and every leg of its last registration, the
last start time that was known, and each leg at the venue where its outcome was
first placed. -/
theorem listEventGroups_run (order : QueryOrder) (ws : List Write) :
    ((listEventGroups order (run ws)).map (·.id)).Nodup ∧
      (∀ g ∈ listEventGroups order (run ws), ∃ row, rowOf g.id (accepted ws) = some row ∧
        Lists (firstVenue (accepted ws)) row g) ∧
      ∀ gid row, rowOf gid (accepted ws) = some row →
        ∃ g ∈ listEventGroups order (run ws), g.id = gid := by
  -- Both halves of the abstraction, each folded over the accepted writes.
  have hrows : ∀ gid, (groupDb (run ws)).groups.get? gid = rowOf gid (accepted ws) := by
    intro gid
    rw [groupDb_run, get?_groups_run]
    rfl
  have hvenues : (groupDb (run ws)).outcomes.get? = firstVenue (accepted ws) := by
    funext o
    rw [groupDb_run, get?_outcomes_run]
    rfl
  refine ⟨nodup_listEventGroups order _, fun g hg => ?_, fun gid row hrow => ?_⟩
  · obtain ⟨row, hget, hlists⟩ := lists_of_mem hg
    rw [hrows] at hget
    rw [hvenues] at hlists
    exact ⟨row, hget, hlists⟩
  · rw [← hrows] at hrow
    exact exists_mem_of_row order hrow

end Schema

end Arbys
