import Arbys.SchemaRuns

/-!
# The group tables, with and without constraints

`GroupDb` is what the group tables are for: a dictionary of groups and the
venue of every outcome. `groupDb` reads it off the rows, an outcome's venue
through its market, and each transaction that is not refused does to it what
`applyGroups` says. What is proved of the stored groups over `GroupDb` is so
far as refusals go proved of the tables.
-/

namespace Arbys

open Tables

namespace Schema

/-! ## Reading the groups off the rows -/

def eventGroupOf : Row → Option (GroupId × EventGroupRow)
  | .eventGroup g => some (g.id, g)
  | _ => none

def outcomeOf : Row → Option (OutcomeId × OutcomeRow)
  | .outcome o => some (o.id, o)
  | _ => none

theorem eventGroupOf_eq_some {r : Row} {e : GroupId × EventGroupRow}
    (h : eventGroupOf r = some e) : r = .eventGroup e.2 ∧ e.1 = e.2.id := by
  cases r with
  | eventGroup g =>
      cases h
      exact ⟨rfl, rfl⟩
  | _ => cases h

theorem outcomeOf_eq_some {r : Row} {e : OutcomeId × OutcomeRow}
    (h : outcomeOf r = some e) : r = .outcome e.2 ∧ e.1 = e.2.id := by
  cases r with
  | outcome o =>
      cases h
      exact ⟨rfl, rfl⟩
  | _ => cases h

theorem indexes_eventGroupOf : Store.Indexes constraints eventGroupOf := by
  intro r r' e e' h h' heq
  obtain ⟨rfl, hid⟩ := eventGroupOf_eq_some h
  obtain ⟨rfl, hid'⟩ := eventGroupOf_eq_some h'
  exact .inl ⟨.eventGroup e.2.id, rfl, by simp [← hid, ← hid', heq]⟩

theorem indexes_outcomeOf : Store.Indexes constraints outcomeOf := by
  intro r r' e e' h h' heq
  obtain ⟨rfl, hid⟩ := outcomeOf_eq_some h
  obtain ⟨rfl, hid'⟩ := outcomeOf_eq_some h'
  exact .inl ⟨.outcome e.2.id, rfl, by simp [← hid, ← hid', heq]⟩

/-- The legs of a group, in the order they were stored. -/
def legsUnder (db : Database) (gid : GroupId) : List GroupLegRow :=
  db.rows.filterMap fun
    | .eventGroupLeg l => if l.eventGroupId = gid then some l.leg else none
    | _ => none

/-- The venue of a market. -/
def venueOf (db : Database) (marketId : String) : Option VenueId :=
  match db.get? (.market marketId) with
  | some (.market m) => some m.venueId
  | _ => none

abbrev groupRows (db : Database) : Dict GroupId EventGroupRow :=
  db.view eventGroupOf indexes_eventGroupOf

abbrev outcomeRows (db : Database) : Dict OutcomeId OutcomeRow :=
  db.view outcomeOf indexes_outcomeOf

/-- The group tables of a database. -/
def groupDb (db : Database) : GroupDb where
  groups := (groupRows db).mapVal fun gid g =>
    { title := g.title, startTime := g.startTime, source := g.source, legs := legsUnder db gid }
  outcomes := (outcomeRows db).filterMapVal fun _ o => venueOf db o.marketId

theorem groups_groupDb (db : Database) : (groupDb db).groups = (groupRows db).mapVal fun gid g =>
    { title := g.title, startTime := g.startTime, source := g.source, legs := legsUnder db gid } :=
  rfl

theorem outcomes_groupDb (db : Database) :
    (groupDb db).outcomes = (outcomeRows db).filterMapVal fun _ o => venueOf db o.marketId :=
  rfl

theorem groupDb_ext {g g' : GroupDb} (hgroups : g.groups = g'.groups)
    (houtcomes : g.outcomes = g'.outcomes) : g = g' := by
  cases g
  cases g'
  cases hgroups
  cases houtcomes
  rfl

/-- The order in which the two queries of `list_event_groups` answer. Neither
has an `ORDER BY`, so it is the database's to choose. -/
structure QueryOrder where
  groups : List EventGroupRow → List EventGroupRow
  groups_perm : ∀ rows, (groups rows).Perm rows
  legs : GroupId → List GroupLegRow → List GroupLegRow
  legs_perm : ∀ gid rows, (legs gid rows).Perm rows

/-- `list_event_groups`: the legs of every group, joined to their outcomes and
the markets of those. -/
def listEventGroups (order : QueryOrder) (db : Database) : List EventGroup :=
  (order.groups (groupRows db).values).map fun g =>
    { id := g.id, title := g.title, startTime := g.startTime, source := g.source
      legs := (order.legs g.id (legsUnder db g.id)).filterMap fun leg =>
        match db.get? (.outcome leg.outcomeId) with
        | some (.outcome o) => (venueOf db o.marketId).map fun venueId =>
            { outcomeId := leg.outcomeId, venueId, isYesSide := leg.isYesSide }
        | _ => none }

theorem get?_outcomeRows {db : Database} {o : OutcomeId} {p : OutcomeRow} :
    (outcomeRows db).get? o = some p ↔ db.get? (.outcome o) = some (.outcome p) := by
  rw [Store.get?_view, Store.get?_eq_some_iff]
  constructor
  · rintro ⟨r, hr, h⟩
    obtain ⟨rfl, hid⟩ := outcomeOf_eq_some h
    exact ⟨hr, by simpa using hid.symm⟩
  · rintro ⟨hr, hk⟩
    have hid : p.id = o := by simpa using hk
    exact ⟨_, hr, by rw [outcomeOf, hid]⟩

theorem get?_outcome_cases (db : Database) (o : OutcomeId) :
    db.get? (.outcome o) = none ∨ ∃ p, db.get? (.outcome o) = some (.outcome p) := by
  cases h : db.get? (.outcome o) with
  | none => exact .inl rfl
  | some r =>
      have hk := (Store.get?_eq_some_iff.mp h).2
      cases r with
      | outcome p => exact .inr ⟨p, rfl⟩
      | _ => simp at hk

theorem get?_groupDb_outcomes {db : Database} (o : OutcomeId) :
    (groupDb db).outcomes.get? o =
      match db.get? (.outcome o) with
      | some (.outcome p) => venueOf db p.marketId
      | _ => none := by
  rw [groupDb, Dict.get?_filterMapVal]
  rcases get?_outcome_cases db o with hnone | ⟨p, hp⟩
  · have : (outcomeRows db).get? o = none := by
      rw [Option.eq_none_iff_forall_ne_some]
      intro p hp
      rw [get?_outcomeRows, hnone] at hp
      cases hp
    rw [this, hnone]
    rfl
  · rw [get?_outcomeRows.mpr hp, hp]
    rfl

/-- A row of the group table stands under its own id. -/
theorem get?_groupRows_of_mem {db : Database} {g : EventGroupRow}
    (hg : g ∈ (groupRows db).values) : (groupRows db).get? g.id = some g := by
  obtain ⟨⟨gid, g⟩, hentry, rfl⟩ := List.mem_map.mp hg
  obtain ⟨r, -, hr⟩ := List.mem_filterMap.mp hentry
  obtain ⟨-, hid⟩ := eventGroupOf_eq_some hr
  rw [← hid]
  exact Dict.mem_entries_iff.mp hentry

/-- The join over the rows is the join over what is read off them. -/
theorem listEventGroups_eq (order : QueryOrder) (db : Database) :
    listEventGroups order db = (order.groups (groupRows db).values).map fun g =>
      { id := g.id, title := g.title, startTime := g.startTime, source := g.source
        legs := (order.legs g.id (legsUnder db g.id)).filterMap fun leg =>
          ((groupDb db).outcomes.get? leg.outcomeId).map fun venueId =>
            { outcomeId := leg.outcomeId, venueId, isYesSide := leg.isYesSide } } := by
  have hjoin : ∀ leg : GroupLegRow,
      (match db.get? (.outcome leg.outcomeId) with
        | some (.outcome o) => (venueOf db o.marketId).map fun venueId =>
            ({ outcomeId := leg.outcomeId, venueId, isYesSide := leg.isYesSide } : EventGroupLeg)
        | _ => none) =
      ((groupDb db).outcomes.get? leg.outcomeId).map fun venueId =>
        { outcomeId := leg.outcomeId, venueId, isYesSide := leg.isYesSide } := by
    intro leg
    rw [get?_groupDb_outcomes]
    rcases get?_outcome_cases db leg.outcomeId with h | ⟨p, h⟩
    · rw [h]
      rfl
    · rw [h]
  unfold listEventGroups
  simp only [hjoin]

/-! ## What a write does to them -/

/-- The rows the group tables are read off. -/
def Row.grouping : Row → Bool
  | .market _ | .outcome _ | .eventGroup _ | .eventGroupLeg _ => true
  | _ => false

theorem venueOf_of_grouping {db db' : Database}
    (h : db'.rows.filter Row.grouping = db.rows.filter Row.grouping) (id : String) :
    venueOf db' id = venueOf db id := by
  have hget : db'.get? (.market id) = db.get? (.market id) := by
    ext r
    rw [Store.get?_eq_some_iff, Store.get?_eq_some_iff]
    refine and_congr_left fun hk => ?_
    cases r with
    | market m =>
        have hmem : Row.market m ∈ db'.rows.filter Row.grouping ↔
            Row.market m ∈ db.rows.filter Row.grouping := by rw [h]
        simpa [Row.grouping] using hmem
    | _ => simp at hk
  rw [venueOf, venueOf, hget]

theorem legsUnder_of_grouping {db db' : Database}
    (h : db'.rows.filter Row.grouping = db.rows.filter Row.grouping) (gid : GroupId) :
    legsUnder db' gid = legsUnder db gid := by
  refine Store.filterMap_of_told (fun r hr => ?_) h
  cases r with
  | eventGroupLeg l => cases hr
  | _ => rfl

/-- A write to other tables does nothing to the groups. -/
theorem groupDb_of_grouping {db db' : Database}
    (h : db'.rows.filter Row.grouping = db.rows.filter Row.grouping) :
    groupDb db' = groupDb db := by
  have hgroups : groupRows db' = groupRows db := by
    refine Dict.ext (Store.filterMap_of_told (fun r hr => ?_) h)
    cases r with
    | eventGroup g => cases hr
    | _ => rfl
  have houtcomes : outcomeRows db' = outcomeRows db := by
    refine Dict.ext (Store.filterMap_of_told (fun r hr => ?_) h)
    cases r with
    | outcome g => cases hr
    | _ => rfl
  unfold groupDb
  rw [hgroups, houtcomes]
  simp only [legsUnder_of_grouping h, venueOf_of_grouping h]

theorem groupDb_of_confined {p : Row → Bool} {tx : Store.Tx constraints} {db db' : Database}
    (h : Store.Confined p tx) (hp : ∀ r, r.grouping = true → p r = false)
    (htx : tx db = some db') : groupDb db' = groupDb db :=
  groupDb_of_grouping (h.filter hp htx)

theorem venueOf_append {db db' : Database} {more : List Row} (h : db'.rows = db.rows ++ more)
    {id : String} (hid : db.Has (.market id)) : venueOf db' id = venueOf db id := by
  rw [venueOf, venueOf, Store.get?_append h hid]

/-- The market of a stored outcome is stored, and has a venue. -/
theorem exists_venueOf {db : Database} {p : OutcomeRow} (hp : .outcome p ∈ db.rows) :
    db.Has (.market p.marketId) ∧ ∃ v, venueOf db p.marketId = some v := by
  have hhas : db.Has (.market p.marketId) := Store.has_of_ref hp (by simp)
  obtain ⟨m, hm, hid⟩ := has_iff_market.mp hhas
  have hget : db.get? (.market p.marketId) = some (.market m) :=
    Store.get?_eq_some_iff.mpr ⟨hm, by simp [hid]⟩
  exact ⟨hhas, m.venueId, by rw [venueOf, hget]⟩

theorem outcomes_get?_isSome {db : Database} {o : OutcomeId} :
    ((groupDb db).outcomes.get? o).isSome ↔ db.Has (.outcome o) := by
  rw [get?_groupDb_outcomes, ← Store.get?_isSome_iff]
  rcases get?_outcome_cases db o with h | ⟨p, h⟩
  · rw [h]
    rfl
  · obtain ⟨_, v, hv⟩ := exists_venueOf (Store.get?_eq_some_iff.mp h).1
    rw [h]
    simp [hv]

/-- What is read of the outcomes after rows that place at most one more. -/
theorem outcomes_of_append {db db' : Database} {more : List Row}
    (h : db'.rows = db.rows ++ more) (hmore : ∀ r ∈ more, outcomeOf r = none) :
    (groupDb db').outcomes = (groupDb db).outcomes := by
  rw [outcomes_groupDb, outcomes_groupDb,
    show outcomeRows db' = outcomeRows db from Store.view_append _ h hmore]
  refine Dict.filterMapVal_congr fun o p hp => ?_
  have hmem := (Store.get?_eq_some_iff.mp (get?_outcomeRows.mp hp)).1
  exact venueOf_append h (exists_venueOf hmem).1

theorem outcomes_placeholderRows {db db' : Database} {o : OutcomeId} {v : VenueId}
    {more : List Row}
    (h : db'.rows = db.rows ++ placeholderRows db o v ++ more)
    (hmore : ∀ r ∈ more, outcomeOf r = none) :
    (groupDb db').outcomes = ((groupDb db).ensureOutcomePlaceholder o v).outcomes := by
  unfold GroupDb.ensureOutcomePlaceholder
  by_cases ho : db.Has (.outcome o)
  · obtain ⟨w, hw⟩ := Option.isSome_iff_exists.mp (outcomes_get?_isSome.mpr ho)
    rw [hw]
    rw [placeholderRows, if_pos ho, List.append_nil] at h
    exact outcomes_of_append h hmore
  · have hnone : (groupDb db).outcomes.get? o = none := by
      rw [← Option.not_isSome_iff_eq_none, outcomes_get?_isSome]
      exact ho
    rw [hnone]
    rw [placeholderRows, if_neg ho] at h
    -- The outcome is new, and so is its market: the rows before are read as before.
    have hview : outcomeRows db' = (outcomeRows db).set o (placeholderOutcome o) := by
      have hrows : (outcomeRows db').entries =
          (outcomeRows db).entries ++ [(o, placeholderOutcome o)] := by
        show db'.rows.filterMap outcomeOf = db.rows.filterMap outcomeOf ++ _
        rw [h, List.filterMap_append, List.filterMap_append,
          List.filterMap_eq_nil_iff.mpr hmore, List.append_nil]
        rfl
      have hfresh : (outcomeRows db).get? o = none := by
        rw [Option.eq_none_iff_forall_ne_some]
        intro p hp
        rw [get?_outcomeRows, Store.get?_eq_none_iff.mpr ho] at hp
        cases hp
      exact Dict.ext (hrows.trans (Dict.entries_set_of_get?_none hfresh _).symm)
    rw [List.append_assoc] at h
    rw [outcomes_groupDb, hview]
    refine Dict.filterMapVal_set ?_ (fun p q hq => ?_) ?_
    · rw [Option.eq_none_iff_forall_ne_some]
      intro p hp
      rw [get?_outcomeRows, Store.get?_eq_none_iff.mpr ho] at hp
      cases hp
    · have hmem := (Store.get?_eq_some_iff.mp (get?_outcomeRows.mp hq)).1
      exact venueOf_append h (exists_venueOf hmem).1
    · have hget : db'.get? (.market (placeholderMarketId o)) =
          some (.market (placeholderMarket o v)) := by
        rw [Store.get?_eq_some_iff, h]
        exact ⟨by simp, rfl⟩
      show venueOf db' (placeholderMarketId o) = some v
      rw [venueOf, hget]
      rfl

theorem notGroup_of_mem_placeholderRows {db : Database} {o : OutcomeId} {v : VenueId} {r : Row}
    (hr : r ∈ placeholderRows db o v) : eventGroupOf r = none ∧ ∀ l, r ≠ .eventGroupLeg l := by
  unfold placeholderRows at hr
  split at hr
  · cases hr
  · rcases List.mem_cons.mp hr with rfl | hr
    · exact ⟨rfl, fun _ h => by cases h⟩
    · obtain rfl := List.mem_singleton.mp hr
      exact ⟨rfl, fun _ h => by cases h⟩

theorem legsUnder_append {db db' : Database} {more : List Row} (h : db'.rows = db.rows ++ more)
    (hmore : ∀ r ∈ more, ∀ l, r ≠ .eventGroupLeg l) (gid : GroupId) :
    legsUnder db' gid = legsUnder db gid := by
  rw [legsUnder, h, List.filterMap_append]
  refine (congrArg (_ ++ ·) (List.filterMap_eq_nil_iff.mpr fun r hr => ?_)).trans
    (List.append_nil _)
  cases r with
  | eventGroupLeg l => exact absurd rfl (hmore _ hr l)
  | _ => rfl

/-- **An outcome is placed** in the tables as it is without constraints. -/
theorem groupDb_ensureOutcomePlaceholder {db db' : Database} (hdb : Placed db) {o : OutcomeId}
    {v : VenueId} (h : ensureOutcomePlaceholder o v db = some db') :
    groupDb db' = (groupDb db).ensureOutcomePlaceholder o v := by
  have hrows := rows_of_ensureOutcomePlaceholder hdb h
  have hlegs := legsUnder_append hrows fun r hr => (notGroup_of_mem_placeholderRows hr).2
  have hgroups : (groupDb db').groups = (groupDb db).groups := by
    rw [groups_groupDb, groups_groupDb, show groupRows db' = groupRows db from
      Store.view_append _ hrows fun r hr => (notGroup_of_mem_placeholderRows hr).1]
    simp only [hlegs]
  have houtcomes := outcomes_placeholderRows (hrows.trans (List.append_nil _).symm)
    (fun r hr => absurd hr List.not_mem_nil)
  have hsame : ((groupDb db).ensureOutcomePlaceholder o v).groups = (groupDb db).groups :=
    GroupDb.groups_ensureOutcomePlaceholder ..
  exact groupDb_ext (hgroups.trans hsame.symm) houtcomes

/-- One placement after another, without constraints. -/
def placeAll (l : List (OutcomeId × VenueId)) (g : GroupDb) : GroupDb :=
  l.foldl (fun g e => g.ensureOutcomePlaceholder e.1 e.2) g

theorem outcomes_placeAll_congr {l : List (OutcomeId × VenueId)} {g g' : GroupDb}
    (h : g.outcomes = g'.outcomes) : (placeAll l g).outcomes = (placeAll l g').outcomes := by
  induction l generalizing g g' with
  | nil => exact h
  | cons e l ih =>
      refine ih ?_
      show (g.ensureOutcomePlaceholder e.1 e.2).outcomes =
        (g'.ensureOutcomePlaceholder e.1 e.2).outcomes
      unfold GroupDb.ensureOutcomePlaceholder
      rw [h]
      split
      · exact h
      · rfl

/-- What adding legs to a group does to what is read of it. -/
structure LegsRead (group : EventGroup) (legs : List EventGroupLeg) (db db' : Database) :
    Prop where
  groups : groupRows db' = groupRows db
  under : ∀ gid, legsUnder db' gid = legsUnder db gid ++
    if gid = group.id then legs.map fun leg => (legRow group leg).leg else []
  outcomes : (groupDb db').outcomes =
    (placeAll (legs.map fun leg => (leg.outcomeId, leg.venueId)) (groupDb db)).outcomes

theorem LegAdded.read {group : EventGroup} {leg : EventGroupLeg} {db db' : Database}
    (h : LegAdded group leg db db') : LegsRead group [leg] db db' where
  groups := by
    have hrows := h.rows
    rw [List.append_assoc] at hrows
    refine Store.view_append _ hrows fun r hr => ?_
    rcases List.mem_append.mp hr with hr | hr
    · exact (notGroup_of_mem_placeholderRows hr).1
    · obtain rfl := List.mem_singleton.mp hr
      rfl
  under gid := by
    have hplaced : (placeholderRows db leg.outcomeId leg.venueId).filterMap (fun
        | .eventGroupLeg l => if l.eventGroupId = gid then some l.leg else none
        | _ => none) = [] := by
      refine List.filterMap_eq_nil_iff.mpr fun r hr => ?_
      cases r with
      | eventGroupLeg l => exact absurd rfl ((notGroup_of_mem_placeholderRows hr).2 l)
      | _ => rfl
    rw [legsUnder, h.rows, List.filterMap_append, List.filterMap_append, hplaced,
      List.append_nil]
    refine congrArg (_ ++ ·) ?_
    by_cases hgid : gid = group.id
    · rw [if_pos hgid, hgid]
      simp [legRow]
    · rw [if_neg hgid]
      simp [legRow, Ne.symm hgid]
  outcomes := by
    refine outcomes_placeholderRows h.rows fun r hr => ?_
    obtain rfl := List.mem_singleton.mp hr
    rfl

theorem legsRead {group : EventGroup} {legs : List EventGroupLeg} {db db' : Database}
    (hdb : Placed db) (h : legs.foldlM (addLeg group) db = some db') :
    LegsRead group legs db db' := by
  induction legs generalizing db with
  | nil =>
      cases h
      exact ⟨rfl, fun gid => by split <;> exact (List.append_nil _).symm, rfl⟩
  | cons leg legs ih =>
      obtain ⟨mid, hmid, hrest⟩ := Option.bind_eq_some_iff.mp h
      have hadded := legAdded hdb hmid
      have hfirst := hadded.read
      have hlater := ih hadded.placed hrest
      refine ⟨hlater.groups.trans hfirst.groups, fun gid => ?_, ?_⟩
      · rw [hlater.under, hfirst.under, List.append_assoc]
        refine congrArg (_ ++ ·) ?_
        split <;> rfl
      · rw [hlater.outcomes]
        exact outcomes_placeAll_congr hfirst.outcomes

/-- What the tables have under a group's id before it is registered. -/
theorem get?_groupDb_groups (db : Database) (gid : GroupId) :
    (groupDb db).groups.get? gid = ((groupRows db).get? gid).map fun g =>
      { title := g.title, startTime := g.startTime, source := g.source
        legs := legsUnder db gid } :=
  Dict.get?_mapVal ..

/-- The group row a registration leaves. -/
def writtenRow (group : EventGroup) (db : Database) : EventGroupRow where
  id := group.id
  title := group.title
  startTime := (groupDb db).mergedStart group
  source := group.source

theorem get?_groupRows {db : Database} {gid : GroupId} {g : EventGroupRow} :
    (groupRows db).get? gid = some g ↔ .eventGroup g ∈ db.rows ∧ g.id = gid := by
  rw [Store.get?_view]
  constructor
  · rintro ⟨r, hr, h⟩
    obtain ⟨rfl, hid⟩ := eventGroupOf_eq_some h
    exact ⟨hr, hid.symm⟩
  · rintro ⟨hr, rfl⟩
    exact ⟨_, hr, rfl⟩

/-- The row is written under its id, and nothing else that is read changes. -/
theorem groupRows_writeGroup {group : EventGroup} {db top : Database}
    (h : writeGroup group db = some top) :
    groupRows top = (groupRows db).set group.id (writtenRow group db) := by
  have hstart := get?_groupDb_groups db group.id
  unfold writeGroup at h
  cases hget : db.get? (.eventGroup group.id) with
  | none =>
      rw [hget] at h
      have hnone : (groupRows db).get? group.id = none := by
        rw [Option.eq_none_iff_forall_ne_some]
        intro g hg
        obtain ⟨hr, hid⟩ := get?_groupRows.mp hg
        exact Store.get?_eq_none_iff.mp hget (has_iff_eventGroup.mpr ⟨g, hr, hid⟩)
      rw [hnone] at hstart
      refine Store.view_insert _ (Store.rows_of_insert h) ?_
      simp only [eventGroupOf, writtenRow, GroupDb.mergedStart, hstart, Option.map_none]
  | some r =>
      rw [hget] at h
      cases h
      obtain ⟨hr, hk⟩ := Store.get?_eq_some_iff.mp hget
      cases r with
      | eventGroup old =>
          have hid : old.id = group.id := by simpa using hk
          rw [get?_groupRows.mpr ⟨hr, hid⟩, Option.map_some] at hstart
          refine Store.view_update _ rfl ⟨_, hr, old, by rw [eventGroupOf, hid]⟩ fun r' hr' => ?_
          cases r' with
          | eventGroup g =>
              by_cases hg : g.id = group.id
              · -- Ids are unique, so this is the row that was found.
                have hold : g = old := by
                  have := Store.eq_of_key_eq hr' hr (k := .eventGroup group.id)
                    (by simp [hg]) (by simp [hid])
                  exact Row.eventGroup.inj this
                subst hold
                cases hs : group.startTime <;>
                  simp [refreshGroup, hg, eventGroupOf, writtenRow, GroupDb.mergedStart, hstart, hs]
              · simp only [refreshGroup, hg, if_false, eventGroupOf, Option.map_some]
          | _ => rfl
      | _ => simp at hk

theorem legsUnder_cleared {group : EventGroup} {db top mid : Database}
    (h : LegsCleared group db top mid) (gid : GroupId) :
    legsUnder mid gid = if gid = group.id then [] else legsUnder db gid := by
  -- writing the group itself moves no leg
  have htop : legsUnder top gid = legsUnder db gid := by
    have hw := h.written
    unfold writeGroup at hw
    split at hw
    · refine legsUnder_append (Store.rows_of_insert hw) (fun r hr l => ?_) gid
      obtain rfl := List.mem_singleton.mp hr
      exact nofun
    · cases hw
      rw [legsUnder, Store.rows_update, List.filterMap_map]
      refine List.filterMap_congr fun r _ => ?_
      cases r with
      | eventGroup g =>
          by_cases hg : g.id = group.id
          · simp [refreshGroup, hg]
          · simp [refreshGroup, hg]
      | _ => rfl
  rw [← htop, legsUnder, h.rows, List.filterMap_filter]
  by_cases hgid : gid = group.id
  · rw [if_pos hgid, List.filterMap_eq_nil_iff]
    intro r _
    cases r with
    | eventGroupLeg l =>
        by_cases hl : l.eventGroupId = group.id
        · simp [isLegOf, hl]
        · simp [isLegOf, hl, hgid]
    | _ => rfl
  · rw [if_neg hgid]
    refine List.filterMap_congr fun r _ => ?_
    cases r with
    | eventGroupLeg l =>
        by_cases hl : l.eventGroupId = group.id
        · simp [isLegOf, hl, Ne.symm hgid]
        · simp [isLegOf, hl]
    | _ => rfl

/-- The outcomes are read off the reference tables alone. -/
theorem outcomes_of_placing {db db' : Database}
    (h : db'.rows.filter Row.placing = db.rows.filter Row.placing) :
    (groupDb db').outcomes = (groupDb db).outcomes := by
  have houtcomes : outcomeRows db' = outcomeRows db := by
    refine Dict.ext (Store.filterMap_of_told (fun r hr => ?_) h)
    cases r with
    | outcome p => cases hr
    | _ => rfl
  have hvenue : ∀ id, venueOf db' id = venueOf db id := by
    intro id
    have hget : db'.get? (.market id) = db.get? (.market id) := by
      ext r
      rw [Store.get?_eq_some_iff, Store.get?_eq_some_iff]
      refine and_congr_left fun hk => ?_
      cases r with
      | market m => exact mem_of_placing_eq h rfl
      | _ => simp at hk
    rw [venueOf, venueOf, hget]
  rw [outcomes_groupDb, outcomes_groupDb, houtcomes]
  simp only [hvenue]

theorem groups_placeAll (l : List (OutcomeId × VenueId)) (g : GroupDb) :
    (placeAll l g).groups = g.groups := by
  induction l generalizing g with
  | nil => rfl
  | cons e l ih => exact (ih _).trans (GroupDb.groups_ensureOutcomePlaceholder ..)

theorem placeAll_legs (legs : List EventGroupLeg) (g : GroupDb) :
    placeAll (legs.map fun leg => (leg.outcomeId, leg.venueId)) g =
      legs.foldl (fun g leg => g.ensureOutcomePlaceholder leg.outcomeId leg.venueId) g :=
  List.foldl_map ..

/-- How a group row is read. -/
def groupRowOf (db : Database) (gid : GroupId) (g : EventGroupRow) : GroupRow :=
  { title := g.title, startTime := g.startTime, source := g.source, legs := legsUnder db gid }

theorem groups_eq_mapVal (db : Database) :
    (groupDb db).groups = (groupRows db).mapVal (groupRowOf db) :=
  rfl

theorem groupRowOf_congr {db db' : Database} {gid : GroupId}
    (h : legsUnder db' gid = legsUnder db gid) (g : EventGroupRow) :
    groupRowOf db' gid g = groupRowOf db gid g := by
  rw [groupRowOf, groupRowOf, h]

/-- **A registration** does to the tables what it does without constraints. -/
theorem groupDb_upsertEventGroup {db db' : Database} (hdb : Placed db) {group : EventGroup}
    (h : upsertEventGroup group db = some db') :
    groupDb db' = (groupDb db).upsertEventGroup group := by
  obtain ⟨top, mid, hmid, hcleared⟩ := exists_legsCleared group db
  rw [upsertEventGroup_eq, hmid, Option.bind_some] at h
  have hread := legsRead (hdb.of_placing_eq hcleared.placing) h
  have hrows : groupRows db' = (groupRows db).set group.id (writtenRow group db) := by
    rw [hread.groups, ← groupRows_writeGroup hcleared.written]
    refine Store.view_filter _ hcleared.rows fun r hr => ?_
    cases r with
    | eventGroupLeg l => rfl
    | _ => cases hr
  have hunder : ∀ gid, legsUnder db' gid =
      if gid = group.id then group.legs.map fun leg => (legRow group leg).leg
      else legsUnder db gid := by
    intro gid
    rw [hread.under, legsUnder_cleared hcleared]
    split
    · rfl
    · exact List.append_nil _
  have hothers : ∀ gid g, gid ≠ group.id → groupRowOf db' gid g = groupRowOf db gid g :=
    fun gid g hgid => groupRowOf_congr (by rw [hunder, if_neg hgid]) g
  have hwritten : groupRowOf db' group.id (writtenRow group db) = (groupDb db).rowFor group := by
    rw [groupRowOf, hunder, if_pos rfl]
    rfl
  refine groupDb_ext ?_ ?_
  · show (groupDb db').groups = (GroupDb.groups _).set group.id _
    rw [GroupDb.groups_placed, groups_eq_mapVal, groups_eq_mapVal, hrows,
      Dict.mapVal_set hothers, hwritten]
  · show (groupDb db').outcomes = GroupDb.outcomes _
    rw [hread.outcomes, outcomes_placeAll_congr (outcomes_of_placing hcleared.placing),
      placeAll_legs]
    rfl

/-- **A retirement** does to the tables what it does without constraints. -/
theorem groupDb_deleteEventGroup {db db' : Database} {gid : GroupId}
    (h : deleteEventGroup gid db = some db') :
    groupDb db' = (groupDb db).deleteEventGroup gid := by
  obtain ⟨db'', hdb'', hrows⟩ := exists_deleteEventGroup db gid
  rw [h, Option.some.injEq] at hdb''
  subst hdb''
  have hgroups : groupRows db' = (groupRows db).erase gid := by
    refine Store.view_delete _ hrows fun r => ?_
    cases r with
    | eventGroup g => simp [eventGroupOf, isLegOf, isGroup]
    | _ => simp [eventGroupOf]
  have hunder : ∀ j, j ≠ gid → legsUnder db' j = legsUnder db j := by
    intro j hj
    rw [legsUnder, hrows, List.filterMap_filter]
    refine List.filterMap_congr fun r _ => ?_
    cases r with
    | eventGroupLeg l =>
        by_cases hl : l.eventGroupId = gid
        · simp [isLegOf, hl, Ne.symm hj]
        · simp [isLegOf, isGroup, hl]
    | _ => simp
  refine groupDb_ext ?_ (outcomes_of_placing (placing_delete hrows fun r => placing_of_retired))
  show (groupDb db').groups = (groupDb db).groups.erase gid
  rw [groups_eq_mapVal, groups_eq_mapVal, hgroups]
  exact Dict.mapVal_erase fun j g hj => groupRowOf_congr (hunder j hj) g

end Schema

end Arbys
