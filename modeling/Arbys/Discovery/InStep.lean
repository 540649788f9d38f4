import Arbys.GroupTable

/-!
# Memory, engine and tables in step

A pass of discovery with the tables it writes. Its batches of upserts and its
deletes each commit or are dropped, and memory follows what has committed, so
a pass is a run of registrations and retirements of the three stores at once,
whatever is dropped. The three then agree after it where they did before.
-/

namespace Arbys

/-- The batches of a pass, numbered. -/
def AppState.batches (s : AppState) (groups : List EventGroup) :
    List (ℕ × List (EventGroup × Option EventGroup)) :=
  (batch (s.pendingGroups groups) groupWriteBatch).zipIdx.map Prod.swap

/-- The loop over the batches, in the tables. -/
def GroupDb.writeBatches (db : GroupDb) (writes : PassWrites)
    (batches : List (ℕ × List (EventGroup × Option EventGroup))) : GroupDb :=
  batches.foldl (fun db b =>
    if writes.upserts b.1 then b.2.foldl (fun db e => db.upsertEventGroup e.1) db else db) db

namespace Stores

/-- `run_once`, with what it writes. -/
def runOnce (s : Stores) (found : Discovered) (writes : PassWrites) : Stores :=
  let batches := s.app.batches found.groups
  let db := s.db.writeBatches writes batches
  let stale := (s.app.upsertBatches writes batches).state.staleGroups (found.groups.map (·.id))
  { app := (s.app.runOnce found writes).state
    db := if found.complete then (stale.filter writes.deletes).foldl GroupDb.deleteEventGroup db
      else db }

/-! ## A pass as a run -/

/-- The registrations of the batches that commit. -/
def registrations (writes : PassWrites)
    (batches : List (ℕ × List (EventGroup × Option EventGroup))) : List Registration :=
  (batches.filter fun b => writes.upserts b.1).flatMap fun b =>
    b.2.map fun e => .discovered e.1 e.2

/-- The registrations a pass commits. -/
def committed (s : Stores) (found : Discovered) (writes : PassWrites) : List Registration :=
  registrations writes (s.app.batches found.groups)

/-- The groups a pass retires. -/
def retired (s : Stores) (found : Discovered) (writes : PassWrites) : List GroupId :=
  if found.complete then
    ((Runs.run register s (s.committed found writes)).app.staleGroups
      (found.groups.map (·.id))).filter writes.deletes
  else []

theorem run_discovered (s : Stores) (l : List (EventGroup × Option EventGroup)) :
    Runs.run register s (l.map fun e => .discovered e.1 e.2) =
      ⟨l.foldl AppState.upsertGroup s.app,
        l.foldl (fun db e => db.upsertEventGroup e.1) s.db⟩ := by
  induction l generalizing s with
  | nil => rfl
  | cons e l ih => exact ih (s.register (.discovered e.1 e.2))

/-- What commits is registered in memory and in the tables alike. -/
theorem run_registrations (s : Stores) (writes : PassWrites)
    (batches : List (ℕ × List (EventGroup × Option EventGroup))) :
    Runs.run register s (registrations writes batches) =
      ⟨(s.app.upsertBatches writes batches).state, s.db.writeBatches writes batches⟩ := by
  induction batches using List.reverseRecOn with
  | nil => rfl
  | append_singleton batches b ih =>
      rw [registrations, List.filter_append, List.flatMap_append, Runs.run_append,
        ← registrations, ih]
      unfold AppState.upsertBatches GroupDb.writeBatches
      rw [List.foldl_concat, List.foldl_concat]
      by_cases hb : writes.upserts b.1 = true
      · have hkeep : [b].filter (fun b => writes.upserts b.1) = [b] := by simp [hb]
        rw [hkeep, List.flatMap_singleton, if_pos hb, if_pos hb, run_discovered]
      · have hdrop : [b].filter (fun b => writes.upserts b.1) = [] := by simp [hb]
        rw [hdrop, List.flatMap_nil, if_neg hb, if_neg hb]
        rfl

theorem foldl_retire (gids : List GroupId) (s : Stores) :
    gids.foldl retire s =
      ⟨gids.foldl (fun app gid => (app.retireGroup gid).clearGroupOpportunities gid) s.app,
        gids.foldl GroupDb.deleteEventGroup s.db⟩ := by
  induction gids generalizing s with
  | nil => rfl
  | cons gid gids ih => exact ih (s.retire gid)

/-- **A pass** registers what it commits and retires what it deletes. -/
theorem runOnce_eq (s : Stores) (found : Discovered) (writes : PassWrites) :
    s.runOnce found writes =
      (s.retired found writes).foldl retire (Runs.run register s (s.committed found writes)) := by
  rw [foldl_retire, retired, committed, run_registrations]
  cases hcomplete : found.complete with
  | true =>
      simp only [runOnce, AppState.runOnce, AppState.retireMissing, hcomplete, if_true]
      rfl
  | false =>
      simp only [runOnce, AppState.runOnce, hcomplete, Bool.false_eq_true, if_false]
      rfl

/-! ## What a pass leaves of an entry -/

variable {s : Stores} {found : Discovered} {writes : PassWrites} {gid : GroupId}

theorem entry_registers {rs : List Registration} (h : ∀ r ∈ rs, r.group.id ≠ gid) :
    (Runs.run register s rs).entry gid = s.entry gid := by
  refine Runs.run_inv_mem (I := fun t : Stores => t.entry gid = s.entry gid) (fun t r hr ht => ?_) rfl
  rw [entry_register, if_neg (Ne.symm (h r hr)), ht]

theorem entry_retires (gids : List GroupId) (s : Stores) :
    (gids.foldl retire s).entry gid =
      if gid ∈ gids then ⟨none, none, none⟩ else s.entry gid := by
  induction gids generalizing s with
  | nil => rw [if_neg List.not_mem_nil]; rfl
  | cons j gids ih =>
      rw [List.foldl_cons, ih, entry_retire]
      by_cases hmem : gid ∈ gids
      · rw [if_pos hmem, if_pos (List.mem_cons_of_mem _ hmem)]
      · rw [if_neg hmem]
        by_cases hj : gid = j
        · rw [if_pos hj, if_pos (hj ▸ List.mem_cons_self)]
        · rw [if_neg hj, if_neg (by simp [hj, hmem])]

/-- Nothing is registered that was not found. -/
theorem found_of_committed {r : Registration} (h : r ∈ s.committed found writes) :
    r.group ∈ found.groups := by
  obtain ⟨b, hb, hr⟩ := List.mem_flatMap.mp h
  obtain ⟨e, he, rfl⟩ := List.mem_map.mp hr
  obtain ⟨⟨l, i⟩, hbatch, rfl⟩ := List.mem_map.mp (List.mem_of_mem_filter hb)
  obtain ⟨i', -, hl⟩ := List.mem_map.mp (List.fst_mem_of_mem_zipIdx hbatch)
  have hl' : l = ((s.app.pendingGroups found.groups).drop (i' * groupWriteBatch)).take
      groupWriteBatch := hl.symm
  have hpending : e ∈ s.app.pendingGroups found.groups := by
    have hmem : e ∈ l := he
    rw [hl'] at hmem
    exact List.mem_of_mem_drop (List.mem_of_mem_take hmem)
  obtain ⟨g, hg, rfl⟩ := List.mem_map.mp (List.mem_of_mem_filter hpending)
  exact hg

/-- What a pass retires it did not find, it was its own to retire, and its
delete committed. -/
theorem of_mem_retired (h : gid ∈ s.retired found writes) :
    found.complete = true ∧ gid ∉ found.groups.map (·.id) ∧ writes.deletes gid = true ∧
      ∃ g, s.app.eventGroups.get? gid = some g ∧ g.source = "discovery" := by
  unfold retired at h
  split at h
  · rename_i hcomplete
    obtain ⟨hstale, hdelete⟩ := List.mem_filter.mp h
    obtain ⟨⟨j, g⟩, he, rfl⟩ := List.mem_map.mp hstale
    obtain ⟨hentry, hcond⟩ := List.mem_filter.mp he
    rw [decide_eq_true_eq] at hcond
    -- stale groups are looked up after the upserts, which leave this one alone
    have hsame : (Runs.run register s (s.committed found writes)).entry j = s.entry j := by
      refine entry_registers fun r hr hid => hcond.1 ?_
      exact hid ▸ List.mem_map_of_mem (found_of_committed hr)
    have hget : s.app.eventGroups.get? j = some g := by
      have hmemory := congrArg Entry.memory hsame
      exact hmemory.symm.trans (Dict.mem_entries_iff.mp hentry)
    exact ⟨hcomplete, hcond.1, hdelete, g, hget, hcond.2⟩
  · cases h

/-- **An entry a pass leaves alone**: no batch with its id commits, and it is
not retired. -/
theorem entry_runOnce_of_untouched
    (hbatches : ∀ r ∈ s.committed found writes, r.group.id ≠ gid)
    (hretired : gid ∉ s.retired found writes) :
    (s.runOnce found writes).entry gid = s.entry gid := by
  rw [runOnce_eq, entry_retires, if_neg hretired, entry_registers hbatches]

/-! ## Agreement -/

/-- A leg without its venue. -/
def side (leg : EventGroupLeg) : OutcomeId × Bool := (leg.outcomeId, leg.isYesSide)

/-- The same of a stored leg. -/
def rowSide (leg : GroupLegRow) : OutcomeId × Bool := (leg.outcomeId, leg.isYesSide)

/-- The three stores have an id together, and with the same legs. -/
structure Entry.Agrees (e : Entry) : Prop where
  engine : e.engine.map (·.legs) = e.memory.map (·.legs)
  row : e.row.map (fun row => row.legs.map rowSide) =
    e.memory.map fun group => group.legs.map side

/-- The three stores agree on ids and legs. -/
def InStep (s : Stores) : Prop := ∀ gid, (s.entry gid).Agrees

theorem inStep_register (h : s.InStep) (r : Registration) : (s.register r).InStep := by
  intro gid
  rw [entry_register]
  split
  · refine ⟨rfl, ?_⟩
    simp only [Option.map_some, GroupDb.rowFor, List.map_map]
    rfl
  · exact h gid

theorem inStep_retire (h : s.InStep) (j : GroupId) : (s.retire j).InStep := by
  intro gid
  rw [entry_retire]
  split
  · exact ⟨rfl, rfl⟩
  · exact h gid

/-- **One pass** keeps the three in step, whatever is dropped. -/
theorem inStep_runOnce (h : s.InStep) (found : Discovered) (writes : PassWrites) :
    (s.runOnce found writes).InStep := by
  rw [runOnce_eq]
  have hregistered : (Runs.run register s (s.committed found writes)).InStep :=
    Runs.run_inv (I := InStep) (fun _ r hi => inStep_register hi r) _ h
  exact Runs.run_inv (I := InStep) (fun _ j hi => inStep_retire hi j) _ hregistered

/-- What one pass leaves unchanged in the three stores. -/
structure LeavesAlone (s : Stores) (found : Discovered) (writes : PassWrites) : Prop where
  /-- The groups that are found, but in no batch that commits. -/
  droppedBatches : ∀ gid ∈ found.groups.map (·.id),
    (∀ b ∈ s.app.batches found.groups, writes.upserts b.1 = true →
      ∀ e ∈ b.2, e.1.id ≠ gid) →
    (s.runOnce found writes).entry gid = s.entry gid
  /-- The groups that are not found, and whose delete is dropped. -/
  droppedDeletes : ∀ gid ∉ found.groups.map (·.id), writes.deletes gid = false →
    (s.runOnce found writes).entry gid = s.entry gid
  /-- All that is not found, where the pass is not complete. -/
  incomplete : found.complete = false → (s.app.runOnce found writes).retired = [] ∧
    ∀ gid ∉ found.groups.map (·.id), (s.runOnce found writes).entry gid = s.entry gid

theorem retired_upsertBatches (app : AppState) (writes : PassWrites)
    (batches : List (ℕ × List (EventGroup × Option EventGroup))) :
    (app.upsertBatches writes batches).retired = [] := by
  induction batches using List.reverseRecOn with
  | nil => rfl
  | append_singleton batches b ih =>
      unfold AppState.upsertBatches at ih ⊢
      rw [List.foldl_concat]
      split
      · rfl
      · exact ih

/-- A group that is not found is in no batch. -/
theorem not_committed (hgid : gid ∉ found.groups.map (·.id)) :
    ∀ r ∈ s.committed found writes, r.group.id ≠ gid :=
  fun _ hr hid => hgid (hid ▸ List.mem_map_of_mem (found_of_committed hr))

theorem leavesAlone (s : Stores) (found : Discovered) (writes : PassWrites) :
    s.LeavesAlone found writes := by
  constructor
  · intro gid hgid hdropped
    refine entry_runOnce_of_untouched (fun r hr hid => ?_) fun h => (of_mem_retired h).2.1 hgid
    obtain ⟨b, hb, hr⟩ := List.mem_flatMap.mp hr
    obtain ⟨e, he, rfl⟩ := List.mem_map.mp hr
    obtain ⟨hb, hcommits⟩ := List.mem_filter.mp hb
    exact hdropped b hb hcommits e he hid
  · intro gid hgid hdropped
    refine entry_runOnce_of_untouched (not_committed hgid) fun h => ?_
    rw [(of_mem_retired h).2.2.1] at hdropped
    cases hdropped
  · intro hincomplete
    refine ⟨?_, fun gid hgid => entry_runOnce_of_untouched (not_committed hgid) fun h => ?_⟩
    · simp only [AppState.runOnce, hincomplete, Bool.false_eq_true, if_false]
      exact retired_upsertBatches ..
    · rw [(of_mem_retired h).1] at hincomplete
      cases hincomplete

/-- A group that was registered by hand stays, where no pass finds its id. -/
theorem entry_runOnce_of_manual {g : EventGroup} (hget : s.app.eventGroups.get? gid = some g)
    (hmanual : g.source ≠ "discovery") (hgid : gid ∉ found.groups.map (·.id)) :
    (s.runOnce found writes).entry gid = s.entry gid := by
  refine entry_runOnce_of_untouched (not_committed hgid) fun h => ?_
  obtain ⟨-, -, -, g', hget', hsource⟩ := of_mem_retired h
  rw [hget] at hget'
  cases hget'
  exact hmanual hsource

/-- One pass of a run. -/
def pass (s : Stores) (p : Discovered × PassWrites) : Stores := s.runOnce p.1 p.2

/-- **Discovery keeps memory, engine and tables in step**, over every sequence
of passes. -/
theorem discovery_in_step (h : s.InStep) (passes : List (Discovered × PassWrites)) :
    (∀ n, (Runs.run pass s (passes.take n)).InStep) ∧
      (∀ before found writes after, passes = before ++ (found, writes) :: after →
        (Runs.run pass s before).LeavesAlone found writes) ∧
      ∀ gid g, s.app.eventGroups.get? gid = some g → g.source ≠ "discovery" →
        (∀ p ∈ passes, gid ∉ p.1.groups.map (·.id)) →
        (Runs.run pass s passes).entry gid = s.entry gid := by
  refine ⟨fun n => ?_, fun before found writes after _ => leavesAlone _ found writes, ?_⟩
  · exact Runs.run_inv (I := InStep) (fun _ p hi => inStep_runOnce hi p.1 p.2) _ h
  · intro gid g hget hmanual hpasses
    refine Runs.run_inv_mem (I := fun t : Stores => t.entry gid = s.entry gid) (fun t p hp ht => ?_) rfl
    have hget' : t.app.eventGroups.get? gid = some g := (congrArg Entry.memory ht).trans hget
    exact (entry_runOnce_of_manual hget' hmanual (hpasses p hp)).trans ht

/-! ## A group found twice, and one whose delete is dropped -/

namespace TwoPasses

open TwoVenues in
/-- The group of `TwoVenues`, in memory and in the tables. -/
def start : Stores :=
  register ⟨{ brokers := brokers, book := book, engine := { fees := fees } }, {}⟩
    (.discovered { group with source := "discovery" } none)

/-- The same group, found without its second leg. -/
def oneLeg : EventGroup :=
  { TwoVenues.group with legs := TwoVenues.group.legs.take 1, source := "discovery" }

def passes : List (Discovered × PassWrites) :=
  [(⟨[oneLeg, { oneLeg with title := "again" }], true, []⟩, ⟨fun _ => true, fun _ => true⟩),
    (⟨[], true, []⟩, ⟨fun _ => true, fun _ => false⟩)]

theorem inStep_start : start.InStep :=
  inStep_register (fun _ => ⟨rfl, rfl⟩) _

end TwoPasses

open TwoPasses in
theorem discovery_in_step_twoPasses : (Runs.run pass start passes).InStep :=
  (discovery_in_step inStep_start passes).1 2

end Stores

end Arbys
