import Mathlib.Data.List.Dedup
import Arbys.Lib.Clusters
import Arbys.Lib.Runs
import Arbys.Types

/-!
# The live subscriptions

`_start_ingest`, `_stop_ingest`, `sync_ingest` and `restart_ingest` of
`backend/state.py`. An adapter is the list of outcomes it was built for, and
`trace` is what was done to the adapters, in order. What `sync_ingest` wants is
every registered leg, at whatever venue; what `_start_ingest` subscribes is the
legs of the venues that have an adapter factory. The two agree, and a further
call leaves the adapters alone, exactly when every registered leg is of such a
venue.
-/

namespace Arbys

/-- What is done to an adapter. -/
inductive IngestEvent where
  | built (venueId : VenueId) (outcomeIds : List OutcomeId)
  | stopped (venueId : VenueId) (outcomeIds : List OutcomeId)
  deriving DecidableEq

/-- The part of `AppState` that ingest reads and writes. `factories` are the
venues of `adapter_factories`. -/
structure Ingest where
  enabled : Bool := true
  factories : List VenueId
  eventGroups : Dict GroupId EventGroup
  adapters : List (VenueId × List OutcomeId) := []
  subscribed : Dict VenueId (List OutcomeId) := Dict.empty
  worker : Bool := false
  trace : List IngestEvent := []

namespace Ingest

/-- The legs of the registered groups. -/
def legs (i : Ingest) : List EventGroupLeg := i.eventGroups.values.flatMap (·.legs)

/-- `outcomes_by_venue`. -/
def outcomesByVenue (i : Ingest) : Dict VenueId (List OutcomeId) :=
  (Dict.groupBy (·.venueId) i.legs).mapVal fun _ legs => legs.map (·.outcomeId)

/-- `sorted(set(outcome_ids))`. -/
def sortedSet (outcomeIds : List OutcomeId) : List OutcomeId :=
  outcomeIds.dedup.mergeSort fun o p => decide (o ≤ p)

/-- The adapters `_start_ingest` builds, by venue. -/
def buildAdapters (i : Ingest) : Dict VenueId (List OutcomeId) :=
  i.outcomesByVenue.filterMapVal fun venueId outcomeIds =>
    if venueId ∈ i.factories then some (sortedSet outcomeIds) else none

/-- `_start_ingest`. -/
def startIngest (i : Ingest) : Ingest :=
  let built := i.buildAdapters
  if built.entries = [] then i
  else
    { i with
      adapters := built.entries
      subscribed := built
      worker := true
      trace := i.trace ++ built.entries.map fun e => .built e.1 e.2 }

/-- `_stop_ingest`. -/
def stopIngest (i : Ingest) : Ingest :=
  { i with
    adapters := []
    subscribed := Dict.empty
    worker := false
    trace := i.trace ++ i.adapters.map fun e => .stopped e.1 e.2 }

/-- `restart_ingest`. -/
def restartIngest (i : Ingest) : Ingest :=
  if i.enabled then i.stopIngest.startIngest else i

/-- `added`: what is wanted and not subscribed, by venue. -/
def added (i : Ingest) : List (VenueId × List OutcomeId) :=
  (i.outcomesByVenue.entries.map fun e =>
    (e.1, e.2.dedup.filter fun o => o ∉ i.subscribed.getD e.1 [])).filter fun e => e.2 ≠ []

/-- `sync_ingest`. -/
def syncIngest (i : Ingest) : Ingest :=
  if i.enabled then
    if i.added = [] ∧ i.worker = true then i else i.restartIngest
  else i

/-! ## What is wanted, and what is subscribed -/

variable {i : Ingest}

theorem mem_outcomesByVenue {v : VenueId} {o : OutcomeId} :
    o ∈ i.outcomesByVenue.getD v [] ↔ ∃ leg ∈ i.legs, leg.venueId = v ∧ leg.outcomeId = o := by
  have hget : i.outcomesByVenue.getD v [] =
      (i.legs.filter fun leg => leg.venueId = v).map (·.outcomeId) := by
    rw [← Dict.getD_groupBy, outcomesByVenue, Dict.getD, Dict.get?_mapVal, Dict.getD]
    cases (Dict.groupBy (·.venueId) i.legs).get? v <;> rfl
  rw [hget]
  simp [and_assoc]

theorem mem_sortedSet {l : List OutcomeId} {o : OutcomeId} : o ∈ sortedSet l ↔ o ∈ l := by
  rw [sortedSet, List.mem_mergeSort, List.mem_dedup]

/-- Nothing is added exactly when every registered leg is subscribed. -/
theorem added_eq_nil_iff :
    i.added = [] ↔ ∀ leg ∈ i.legs, leg.outcomeId ∈ i.subscribed.getD leg.venueId [] := by
  rw [added, List.filter_eq_nil_iff]
  constructor
  · intro h leg hleg
    have hwanted : leg.outcomeId ∈ i.outcomesByVenue.getD leg.venueId [] :=
      mem_outcomesByVenue.mpr ⟨leg, hleg, rfl, rfl⟩
    cases hget : i.outcomesByVenue.get? leg.venueId with
    | none =>
        rw [Dict.getD_of_get?_none hget] at hwanted
        cases hwanted
    | some oids =>
        rw [Dict.getD_of_get? hget] at hwanted
        have hnone := h _ (List.mem_map.mpr ⟨_, Dict.mem_entries_iff.mpr hget, rfl⟩)
        simp only [ne_eq, decide_not, Bool.not_eq_true', decide_eq_false_iff_not,
          not_not, List.filter_eq_nil_iff, List.mem_dedup] at hnone
        simpa using hnone _ hwanted
  · -- what a venue would add is an outcome of some leg, and that is subscribed
    intro h e he hne
    obtain ⟨⟨v, oids⟩, hentry, rfl⟩ := List.mem_map.mp he
    obtain ⟨o, ho⟩ := List.exists_mem_of_ne_nil _ (of_decide_eq_true hne)
    obtain ⟨hmem, hmissing⟩ := List.mem_filter.mp ho
    have hwanted : o ∈ i.outcomesByVenue.getD v [] := by
      rw [Dict.getD_of_get? (Dict.mem_entries_iff.mp hentry)]
      exact List.mem_dedup.mp hmem
    obtain ⟨leg, hleg, rfl, rfl⟩ := mem_outcomesByVenue.mp hwanted
    exact of_decide_eq_true hmissing (h leg hleg)

/-- An adapter is built for the registered outcomes of a venue that has a
factory, and for no others. -/
theorem mem_buildAdapters {v : VenueId} {o : OutcomeId} :
    o ∈ i.buildAdapters.getD v [] ↔
      v ∈ i.factories ∧ ∃ leg ∈ i.legs, leg.venueId = v ∧ leg.outcomeId = o := by
  rw [← mem_outcomesByVenue, buildAdapters, Dict.getD, Dict.get?_filterMapVal, Dict.getD]
  cases hget : i.outcomesByVenue.get? v with
  | none => simp
  | some oids =>
      by_cases hv : v ∈ i.factories
      · simp [hv, mem_sortedSet]
      · simp [hv]

/-! ## What a call does -/

/-- Some venue that has an adapter factory needs an outcome it is not
subscribed to. -/
def Needs (i : Ingest) : Prop :=
  ∃ leg ∈ i.legs, leg.venueId ∈ i.factories ∧ leg.outcomeId ∉ i.subscribed.getD leg.venueId []

/-- Every registered leg is of a venue that has an adapter factory. -/
def AllServed (i : Ingest) : Prop := ∀ leg ∈ i.legs, leg.venueId ∈ i.factories

instance : DecidablePred AllServed := fun i =>
  inferInstanceAs (Decidable (∀ leg ∈ i.legs, leg.venueId ∈ i.factories))

/-- Only venues with a factory are subscribed, and a worker has adapters. -/
structure Wired (i : Ingest) : Prop where
  enabled : i.enabled = true
  served : ∀ v, v ∉ i.factories → i.subscribed.getD v [] = []
  adapters : i.worker = true → i.adapters ≠ []

theorem wired_stopIngest (h : Wired i) : Wired i.stopIngest :=
  ⟨h.enabled, fun _ _ => rfl, fun hworker => by cases hworker⟩

theorem wired_startIngest (h : Wired i) : Wired i.startIngest := by
  unfold startIngest
  simp only
  split
  · exact h
  · rename_i hbuilt
    refine ⟨h.enabled, fun v hv => ?_, fun _ => hbuilt⟩
    rw [List.eq_nil_iff_forall_not_mem]
    intro o ho
    exact hv (mem_buildAdapters.mp ho).1

theorem Wired.syncIngest (h : Wired i) : Wired i.syncIngest := by
  unfold Ingest.syncIngest restartIngest
  rw [if_pos h.enabled, if_pos h.enabled]
  split
  · exact h
  · exact wired_startIngest (wired_stopIngest h)

/-- A call finds nothing to do, or stops every adapter and starts again. -/
theorem syncIngest_cases (h : Wired i) :
    (i.added = [] ∧ i.worker = true ∧ i.syncIngest = i) ∨
      (¬ (i.added = [] ∧ i.worker = true) ∧ i.syncIngest = i.stopIngest.startIngest) := by
  unfold Ingest.syncIngest restartIngest
  rw [if_pos h.enabled, if_pos h.enabled]
  by_cases hquiet : i.added = [] ∧ i.worker = true
  · exact Or.inl ⟨hquiet.1, hquiet.2, if_pos hquiet⟩
  · exact Or.inr ⟨hquiet, if_neg hquiet⟩

/-- What is stopped stays in the trace. -/
theorem trace_stop_start (i : Ingest) : ∃ events, i.stopIngest.startIngest.trace =
    i.trace ++ ((i.adapters.map fun e => IngestEvent.stopped e.1 e.2) ++ events) := by
  unfold startIngest
  simp only
  split
  · exact ⟨[], by rw [List.append_nil]; rfl⟩
  · exact ⟨_, by rw [stopIngest, List.append_assoc]⟩

/-- **A call that has something to add touches the adapters**, while a worker
runs; one that has not leaves everything. -/
theorem trace_syncIngest_iff (h : Wired i) (hworker : i.worker = true) :
    i.syncIngest.trace = i.trace ↔ i.added = [] := by
  rcases syncIngest_cases h with ⟨hadded, -, hsync⟩ | ⟨hadded, hsync⟩
  · simp [hsync, hadded]
  · have hne : i.added ≠ [] := fun hnil => hadded ⟨hnil, hworker⟩
    obtain ⟨events, htrace⟩ := trace_stop_start i
    have hstopped : i.adapters.map (fun e => IngestEvent.stopped e.1 e.2) ≠ [] := by
      simpa using h.adapters hworker
    rw [hsync, htrace]
    constructor
    · intro heq
      have hnil := List.self_eq_append_right.mp heq.symm
      exact absurd (List.append_eq_nil_iff.mp hnil).1 hstopped
    · exact fun hnil => absurd hnil hne

/-- Something is to be added when a venue with a factory needs it, or when a
leg is of a venue that has none. -/
theorem added_ne_nil_iff (h : Wired i) : i.added ≠ [] ↔ i.Needs ∨ ¬ i.AllServed := by
  rw [ne_eq, added_eq_nil_iff]
  constructor
  · intro hmissing
    push Not at hmissing
    obtain ⟨leg, hleg, hnot⟩ := hmissing
    by_cases hv : leg.venueId ∈ i.factories
    · exact Or.inl ⟨leg, hleg, hv, hnot⟩
    · exact Or.inr fun hall => hv (hall leg hleg)
  · rintro (⟨leg, hleg, -, hnot⟩ | hall) hsub
    · exact hnot (hsub leg hleg)
    · refine hall fun leg hleg => ?_
      by_contra hv
      have := hsub leg hleg
      rw [h.served _ hv] at this
      cases this

/-- After a call that leaves a worker, every venue with a factory has what it
needs. -/
theorem not_needs_syncIngest (h : Wired i) (hworker : i.syncIngest.worker = true) :
    ¬ i.syncIngest.Needs := by
  rintro ⟨leg, hleg, hv, hnot⟩
  rcases syncIngest_cases h with ⟨hadded, -, hsync⟩ | ⟨-, hsync⟩
  · rw [hsync] at hleg hnot
    exact hnot (added_eq_nil_iff.mp hadded leg hleg)
  · rw [hsync] at hleg hv hnot hworker
    unfold startIngest at hleg hv hnot hworker
    simp only at hleg hv hnot hworker
    split at hworker
    · cases hworker
    · rename_i hbuilt
      rw [if_neg hbuilt] at hleg hv hnot
      exact hnot (mem_buildAdapters.mpr ⟨hv, leg, hleg, rfl, rfl⟩)

/-- What reaches ingest: a group is registered or retired, `sync_ingest` and
`restart_ingest`. -/
inductive Op where
  | register (group : EventGroup)
  | retire (gid : GroupId)
  | sync
  | restart

def step (i : Ingest) : Op → Ingest
  | .register group => { i with eventGroups := i.eventGroups.set group.id group }
  | .retire gid => { i with eventGroups := i.eventGroups.erase gid }
  | .sync => i.syncIngest
  | .restart => i.restartIngest

/-- Further calls, and retirements between them. -/
def Op.Quiet : Op → Prop
  | .register _ => False
  | .retire _ => True
  | .sync => True
  | .restart => False

/-- The process after `bootstrap`, ingest enabled, with the groups it hydrated. -/
def boot (factories : List VenueId) (groups : Dict GroupId EventGroup) : Ingest :=
  startIngest { factories := factories, eventGroups := groups }

theorem wired_boot (factories : List VenueId) (groups : Dict GroupId EventGroup) :
    Wired (boot factories groups) :=
  wired_startIngest ⟨rfl, fun _ _ => rfl, fun h => by cases h⟩

theorem Wired.step (h : Wired i) (op : Op) : Wired (i.step op) := by
  cases op with
  | register group => exact ⟨h.enabled, h.served, h.adapters⟩
  | retire gid => exact ⟨h.enabled, h.served, h.adapters⟩
  | sync => exact h.syncIngest
  | restart =>
      unfold Ingest.step restartIngest
      rw [if_pos h.enabled]
      exact wired_startIngest (wired_stopIngest h)

/-- Every state a process reaches is wired. -/
theorem wired_run (factories : List VenueId) (groups : Dict GroupId EventGroup) (ops : List Op) :
    Wired (Runs.run step (boot factories groups) ops) :=
  Runs.run_inv (fun _ op h => h.step op) ops (wired_boot factories groups)

theorem mem_legs_retire {gid : GroupId} {leg : EventGroupLeg}
    (h : leg ∈ (i.step (.retire gid)).legs) : leg ∈ i.legs := by
  obtain ⟨group, hgroup, hleg⟩ := List.mem_flatMap.mp h
  refine List.mem_flatMap.mpr ⟨group, ?_, hleg⟩
  obtain ⟨e, he, rfl⟩ := List.mem_map.mp hgroup
  exact List.mem_map.mpr ⟨e, List.mem_of_mem_filter he, rfl⟩

/-- A worker runs, and what is registered is subscribed. -/
structure Covered (i : Ingest) : Prop where
  wired : Wired i
  worker : i.worker = true
  served : i.AllServed
  enough : ¬ i.Needs

/-- **One quiet step** of a covered process leaves the adapters alone. -/
theorem Covered.step (h : Covered i) {op : Op} (hop : op.Quiet) :
    Covered (i.step op) ∧ (i.step op).trace = i.trace ∧
      (i.step op).adapters = i.adapters := by
  cases op with
  | register group => cases hop
  | retire gid =>
      refine ⟨⟨h.wired.step _, h.worker, fun leg hleg => h.served leg (mem_legs_retire hleg), ?_⟩,
        rfl, rfl⟩
      rintro ⟨leg, hleg, hv, hnot⟩
      exact h.enough ⟨leg, mem_legs_retire hleg, hv, hnot⟩
  | sync =>
      have hadded : i.added = [] := by
        by_contra hne
        rcases (added_ne_nil_iff h.wired).mp hne with hneeds | hserved
        · exact h.enough hneeds
        · exact hserved h.served
      have hsync : i.step .sync = i := by
        rcases syncIngest_cases h.wired with ⟨-, -, hsync⟩ | ⟨hnot, -⟩
        · exact hsync
        · exact absurd ⟨hadded, h.worker⟩ hnot
      rw [hsync]
      exact ⟨h, rfl, rfl⟩
  | restart => cases hop

theorem Covered.run (h : Covered i) {quiet : List Op} (hquiet : ∀ op ∈ quiet, op.Quiet) :
    (Runs.run Ingest.step i quiet).trace = i.trace ∧
      (Runs.run Ingest.step i quiet).adapters = i.adapters := by
  have hstep : ∀ j : Ingest, ∀ op ∈ quiet,
      Covered j ∧ j.trace = i.trace ∧ j.adapters = i.adapters →
      Covered (j.step op) ∧ (j.step op).trace = i.trace ∧ (j.step op).adapters = i.adapters := by
    rintro j op hop ⟨hj, htrace, hadapters⟩
    obtain ⟨hcovered, htrace', hadapters'⟩ := hj.step (hquiet op hop)
    exact ⟨hcovered, htrace'.trans htrace, hadapters'.trans hadapters⟩
  exact (Runs.run_inv_mem
    (I := fun j => Covered j ∧ j.trace = i.trace ∧ j.adapters = i.adapters) hstep
    ⟨h, rfl, rfl⟩).2

/-- **`sync_ingest` is idempotent** exactly when every registered leg is of a
venue that has an adapter factory. In any process with a worker, a call
rebuilds only for a venue with a factory that needs an outcome exactly when no
leg is of another venue, or such a venue does need one. -/
theorem sync_idempotent_iff (factories : List VenueId) (groups : Dict GroupId EventGroup)
    (ops : List Op) (i : Ingest) (hi : i = Runs.run step (boot factories groups) ops) :
    (i.syncIngest.worker = true →
      ((∀ quiet : List Op, (∀ op ∈ quiet, op.Quiet) →
        (Runs.run step i.syncIngest quiet).trace = i.syncIngest.trace ∧
          (Runs.run step i.syncIngest quiet).adapters = i.syncIngest.adapters) ↔
        i.syncIngest.AllServed)) ∧
    (i.worker = true →
      ((i.syncIngest.trace ≠ i.trace → i.Needs) ↔ i.AllServed ∨ i.Needs)) := by
  have hwired : Wired i := hi ▸ wired_run factories groups ops
  refine ⟨fun hworker => ⟨fun hquiet => ?_, fun hserved quiet hquiet => ?_⟩, fun hworker => ?_⟩
  · -- a single further call already tells
    have hagain := (hquiet [.sync] (by simp [Op.Quiet])).1
    have hadded := (trace_syncIngest_iff hwired.syncIngest hworker).mp hagain
    by_contra hserved
    exact (added_ne_nil_iff hwired.syncIngest).mpr (Or.inr hserved) hadded
  · have hcovered : Covered i.syncIngest :=
      ⟨hwired.syncIngest, hworker, hserved, not_needs_syncIngest hwired hworker⟩
    exact hcovered.run hquiet
  · rw [ne_eq, trace_syncIngest_iff hwired hworker, ← ne_eq, added_ne_nil_iff hwired]
    tauto

/-- A game both venues list. -/
def servedGroup : EventGroup where
  id := "nfl-CHI-DET-2026-09-13"
  legs := [⟨"KXNFL-CHI:YES", "kalshi", true⟩, ⟨"chi-det:DET", "polymarket_us", false⟩]

/-- A game registered by hand, one leg of it at a venue without an adapter. -/
def unservedGroup : EventGroup where
  id := "derby"
  legs := [⟨"KXDERBY:YES", "kalshi", true⟩, ⟨"derby-no", "betfair", false⟩]

/-- A process with the two adapter factories, and one group. -/
def bootWith (group : EventGroup) : Ingest :=
  boot ["kalshi", "polymarket_us"] (Dict.empty.set group.id group)

theorem sync_idempotent_iff_served :
    (Runs.run step (bootWith servedGroup).syncIngest
      [.sync, .retire servedGroup.id, .sync]).trace = (bootWith servedGroup).syncIngest.trace := by
  have hserved : (bootWith servedGroup).syncIngest.AllServed := by decide +kernel
  have hall := ((sync_idempotent_iff ["kalshi", "polymarket_us"]
    (Dict.empty.set servedGroup.id servedGroup) [] (bootWith servedGroup) rfl).1
    (by decide +kernel)).mpr hserved
  exact (hall [.sync, .retire servedGroup.id, .sync] (by simp [Op.Quiet])).1

/-- With a leg at a venue without an adapter, a further call with no change of
groups stops the one adapter there is and builds it again. -/
theorem sync_rebuilds_unserved :
    let i := (bootWith unservedGroup).syncIngest
    i.worker = true ∧ ¬ i.Needs ∧
      i.syncIngest.trace = i.trace ++
        [.stopped "kalshi" ["KXDERBY:YES"], .built "kalshi" ["KXDERBY:YES"]] := by
  refine ⟨by decide +kernel, ?_, by decide +kernel⟩
  exact not_needs_syncIngest (wired_boot _ _) (by decide +kernel)

end Ingest

end Arbys
