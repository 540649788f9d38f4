import Arbys.Publication

/-!
# The stored groups

The tables `event_group`, `event_group_leg` and `outcome` of `db/models.py`
under `upsert_event_group`, `delete_event_group` and `list_event_groups`, and
`Stores`: the tables beside the memory of the process. A group is registered
by `POST /event-groups` or by a pass of discovery, and retired by a pass; each
writes the tables first, and memory once that has committed.
-/

namespace Arbys

/-- A row of `event_group_leg`. -/
structure GroupLegRow where
  outcomeId : OutcomeId
  isYesSide : Bool
  resolutionSource : Option String
  deriving DecidableEq

/-- A row of `event_group`, with its legs. -/
structure GroupRow where
  title : String
  startTime : Option ℚ
  source : String
  legs : List GroupLegRow
  deriving DecidableEq

/-- The tables. An outcome is at the venue of its market, and a leg at the
venue of its outcome. -/
structure GroupDb where
  groups : Dict GroupId GroupRow := Dict.empty
  outcomes : Dict OutcomeId VenueId := Dict.empty

namespace GroupDb

/-- `ensure_outcome_placeholder`: an outcome that is there stays where it is. -/
def ensureOutcomePlaceholder (db : GroupDb) (outcomeId : OutcomeId) (venueId : VenueId) :
    GroupDb :=
  match db.outcomes.get? outcomeId with
  | some _ => db
  | none => { db with outcomes := db.outcomes.set outcomeId venueId }

/-- The start time a row is left with: a known one is not overwritten by none. -/
def mergedStart (db : GroupDb) (group : EventGroup) : Option ℚ :=
  match db.groups.get? group.id with
  | none => group.startTime
  | some existing =>
      match group.startTime with
      | some start => some start
      | none => existing.startTime

/-- The row a group is written as. -/
def rowFor (db : GroupDb) (group : EventGroup) : GroupRow where
  title := group.title
  startTime := db.mergedStart group
  source := group.source
  legs := group.legs.map fun leg =>
    { outcomeId := leg.outcomeId, isYesSide := leg.isYesSide,
      resolutionSource := group.resolutionSourceByVenue.get? leg.venueId }

/-- `upsert_event_group`: the legs are replaced as a whole. -/
def upsertEventGroup (db : GroupDb) (group : EventGroup) : GroupDb :=
  let placed := group.legs.foldl
    (fun db leg => db.ensureOutcomePlaceholder leg.outcomeId leg.venueId) db
  { placed with groups := placed.groups.set group.id (db.rowFor group) }

/-- `delete_event_group`. -/
def deleteEventGroup (db : GroupDb) (gid : GroupId) : GroupDb :=
  { db with groups := db.groups.erase gid }

theorem groups_ensureOutcomePlaceholder (db : GroupDb) (o : OutcomeId) (v : VenueId) :
    (db.ensureOutcomePlaceholder o v).groups = db.groups := by
  unfold ensureOutcomePlaceholder
  split <;> rfl

/-- Placing the outcomes of a group leaves the groups alone. -/
theorem groups_placed (legs : List EventGroupLeg) (db : GroupDb) :
    (legs.foldl (fun db leg => db.ensureOutcomePlaceholder leg.outcomeId leg.venueId)
      db).groups = db.groups := by
  induction legs generalizing db with
  | nil => rfl
  | cons leg legs ih => rw [List.foldl_cons, ih, groups_ensureOutcomePlaceholder]

theorem get?_upsertEventGroup (db : GroupDb) (group : EventGroup) (j : GroupId) :
    (db.upsertEventGroup group).groups.get? j =
      if j = group.id then some (db.rowFor group) else db.groups.get? j := by
  rw [upsertEventGroup, Dict.get?_set, groups_placed]

theorem get?_deleteEventGroup (db : GroupDb) (gid j : GroupId) :
    (db.deleteEventGroup gid).groups.get? j = if j = gid then none else db.groups.get? j :=
  Dict.get?_erase ..

end GroupDb

/-! ## The tables beside the memory -/

/-- The body of `POST /event-groups`. -/
structure EventGroupIn where
  id : GroupId
  title : String
  legs : List EventGroupLeg

/-- The group the endpoint builds of it. -/
def EventGroupIn.group (body : EventGroupIn) : EventGroup :=
  { id := body.id, title := body.title, legs := body.legs }

/-- A registration whose write has committed: by the endpoint, or by a pass of
discovery that had read `existing`. -/
inductive Registration where
  | post (body : EventGroupIn)
  | discovered (group : EventGroup) (existing : Option EventGroup)

/-- The group that is registered. -/
def Registration.group : Registration → EventGroup
  | .post body => body.group
  | .discovered group _ => group

structure Stores where
  app : AppState
  db : GroupDb

namespace Stores

def register (s : Stores) : Registration → Stores
  | .post body => ⟨s.app.registerGroup body.group, s.db.upsertEventGroup body.group⟩
  | .discovered group existing =>
      ⟨s.app.upsertGroup (group, existing), s.db.upsertEventGroup group⟩

/-- A retirement whose delete has committed. -/
def retire (s : Stores) (gid : GroupId) : Stores :=
  ⟨(s.app.retireGroup gid).clearGroupOpportunities gid, s.db.deleteEventGroup gid⟩

/-- What the three stores have under an id. -/
structure Entry where
  memory : Option EventGroup
  engine : Option EventGroup
  row : Option GroupRow

/-- The entry of an id. -/
def entry (s : Stores) (gid : GroupId) : Entry where
  memory := s.app.eventGroups.get? gid
  engine := s.app.engine.groups.get? gid
  row := s.db.groups.get? gid

theorem get?_groups_upsertGroup (s : AppState) (group : EventGroup) (existing : Option EventGroup)
    (j : GroupId) : (s.upsertGroup (group, existing)).engine.groups.get? j =
      if j = group.id then some group else s.engine.groups.get? j := by
  cases existing with
  | none => exact Dict.get?_set ..
  | some old =>
      refine (Dict.get?_set ..).trans ?_
      rw [AppState.get?_groups_unregisterGroup]
      split <;> rfl

/-- **A registration** writes its group under its id in all three, and nothing else. -/
theorem entry_register (s : Stores) (r : Registration) (j : GroupId) :
    (s.register r).entry j =
      if j = r.group.id then ⟨some r.group, some r.group, some (s.db.rowFor r.group)⟩
      else s.entry j := by
  have hmemory : (s.register r).app.eventGroups.get? j =
      if j = r.group.id then some r.group else s.app.eventGroups.get? j := by
    cases r with
    | post body => exact Dict.get?_set ..
    | discovered group existing => cases existing <;> exact Dict.get?_set ..
  have hengine : (s.register r).app.engine.groups.get? j =
      if j = r.group.id then some r.group else s.app.engine.groups.get? j := by
    cases r with
    | post body => exact Dict.get?_set ..
    | discovered group existing => exact get?_groups_upsertGroup s.app group existing j
  have hrow : (s.register r).db.groups.get? j =
      if j = r.group.id then some (s.db.rowFor r.group) else s.db.groups.get? j := by
    cases r <;> exact GroupDb.get?_upsertEventGroup ..
  rw [entry, hmemory, hengine, hrow]
  by_cases hj : j = r.group.id
  · simp only [if_pos hj]
  · simp only [if_neg hj]
    rfl

/-- **A retirement** takes its id out of all three, and nothing else. -/
theorem entry_retire (s : Stores) (gid j : GroupId) :
    (s.retire gid).entry j = if j = gid then ⟨none, none, none⟩ else s.entry j := by
  have hmemory : (s.retire gid).app.eventGroups.get? j =
      if j = gid then none else s.app.eventGroups.get? j := Dict.get?_erase ..
  have hengine : (s.retire gid).app.engine.groups.get? j =
      if j = gid then none else s.app.engine.groups.get? j :=
    AppState.get?_groups_unregisterGroup ..
  have hrow : (s.retire gid).db.groups.get? j =
      if j = gid then none else s.db.groups.get? j := GroupDb.get?_deleteEventGroup ..
  rw [entry, hmemory, hengine, hrow]
  by_cases hj : j = gid
  · simp only [if_pos hj]
  · simp only [if_neg hj]
    rfl

end Stores

end Arbys
