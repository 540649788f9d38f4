import Arbys.SettleServices
import Arbys.Lib.Runs

/-!
# Runs of `AutoSettleService`

The ticks of `ingest/auto_settle_service.py` taken apart: a tick begins with a
snapshot of the registry, judges the groups of its agenda one by one, and is
inside `_settle_group` in between. Anything else may change the registry, the
book and the brokers, and the other service may mark groups, at any point.
A history keeps each judgment with the state it was made in, and each mark;
no step reads it. `tick_run` says that the stretches of `AppState.tick` are
runs of these steps.

The results of this module are about every run: `_settle_group` is called at
most once for a group id, never once the id was marked, and never before the
kick-off of the group as it was last seen.
-/

namespace Arbys

namespace AppState.TickItem

def gid : TickItem → GroupId
  | .retired gid _ => gid
  | .registered gid _ => gid

def group : TickItem → EventGroup
  | .retired _ group => group
  | .registered _ group => group

/-- What `_seen` holds of the group afterwards. -/
def seenAs : TickItem → Option EventGroup
  | .retired _ _ => none
  | .registered _ group => some group

end AppState.TickItem

open AppState

/-- One turn of the loops of a tick, in the state it was made in. -/
structure Judgment where
  tickNo : ℕ
  t : Instant
  before : AppState
  item : TickItem

/-- The `_settle_group` call the turn ends in, if it does. -/
def Judgment.calls (j : Judgment) : Option Settling := (j.before.judge j.t j.item).2

inductive Seen where
  | judged (j : Judgment)
  | marked (gid : GroupId)

namespace Seen

/-- `_settle_group` is called for the group. -/
def Calls (x : Seen) (gid : GroupId) : Prop :=
  match x with
  | .judged j => ∃ st, j.calls = some st ∧ st.gid = gid
  | .marked _ => False

/-- The group the record shows registered under an id. -/
def registered (gid : GroupId) : Seen → Option EventGroup
  | .judged j =>
      match j.item with
      | .registered gid' group => if gid' = gid then some group else none
      | .retired _ _ => none
  | .marked _ => none

end Seen

/-- The group as the service last saw it registered. -/
def lastSeen (history : List Seen) (gid : GroupId) : Option EventGroup :=
  (history.filterMap (Seen.registered gid)).getLast?

/-- Every group of the registry is under its own id, as each writer of
`event_groups` puts it. -/
def Keyed (groups : Dict GroupId EventGroup) : Prop := ∀ e ∈ groups.entries, e.2.id = e.1

instance (groups : Dict GroupId EventGroup) : Decidable (Keyed groups) :=
  inferInstanceAs (Decidable (∀ e ∈ groups.entries, e.2.id = e.1))

/-- The application, the tick under way and what has happened. -/
structure AutoRun where
  app : AppState
  settling : Option Settling := none
  agenda : List TickItem := []
  ticks : ℕ := 0
  history : List Seen := []

inductive AutoMove where
  /-- A tick takes its snapshot. -/
  | begin
  /-- It judges the next group. -/
  | judge (t : Instant)
  /-- It settles the next leg, or comes back from the last. -/
  | settle
  /-- The rest of the application moves on. -/
  | world (app : AppState)
  | markSettled (gid : GroupId)

namespace AutoRun

/-- A new service, before any group is registered. -/
def start (app : AppState) : AutoRun where
  app := { app with autoSettle := {}, eventGroups := Dict.empty }

def step (w : AutoRun) : AutoMove → AutoRun
  | .begin =>
      match w.settling, w.agenda with
      | none, [] => { w with agenda := w.app.tickAgenda, ticks := w.ticks + 1 }
      | _, _ => w
  | .judge t =>
      match w.settling, w.agenda with
      | none, item :: agenda =>
          let r := w.app.judge t item
          { w with
            app := r.1
            settling := r.2
            agenda := agenda
            history := w.history ++ [.judged ⟨w.ticks, t, w.app, item⟩] }
      | _, _ => w
  | .settle =>
      match w.settling with
      | none => w
      | some st =>
          let r := w.app.settleNext st
          { w with app := r.1, settling := r.2.map Prod.fst }
  | .world app =>
      if Keyed app.eventGroups then { w with app := { app with autoSettle := w.app.autoSettle } }
      else w
  | .markSettled gid =>
      { w with
        app := { w.app with autoSettle := w.app.autoSettle.markSettled gid }
        history := w.history ++ [.marked gid] }

/-! ## The tick of the event loop -/

/-- Where a stretch of the event loop's tick left things. -/
def At (w : AutoRun) (r : Stretch TickAt) : Prop :=
  w.app = r.state ∧ w.settling = r.suspended.map TickAt.settling ∧
    w.agenda = (r.suspended.map TickAt.agenda).getD []

theorem step_judge {w : AutoRun} {t : Instant} {item : TickItem} {agenda : List TickItem}
    (hs : w.settling = none) (ha : w.agenda = item :: agenda) :
    w.step (.judge t) =
      { w with
        app := (w.app.judge t item).1
        settling := (w.app.judge t item).2
        agenda := agenda
        history := w.history ++ [.judged ⟨w.ticks, t, w.app, item⟩] } := by
  simp only [step, hs, ha]

/-- A judgement does nothing while a settlement is under way or when there is
nothing to judge. -/
theorem step_judge_cases (w : AutoRun) (t : Instant) :
    w.step (.judge t) = w ∨
      ∃ item agenda, w.settling = none ∧ w.agenda = item :: agenda := by
  cases hs : w.settling with
  | some st => exact .inl (by simp only [step, hs])
  | none =>
      cases ha : w.agenda with
      | nil => exact .inl (by simp only [step, hs, ha])
      | cons item agenda => exact .inr ⟨item, agenda, rfl, rfl⟩

theorem step_settle_cases (w : AutoRun) :
    w.step .settle = w ∨ ∃ st, w.settling = some st := by
  cases hs : w.settling with
  | none => exact .inl (by simp only [step, hs])
  | some st => exact .inr ⟨st, rfl⟩

theorem step_settle {w : AutoRun} {st : Settling} (hs : w.settling = some st) :
    w.step .settle =
      { w with
        app := (w.app.settleNext st).1
        settling := (w.app.settleNext st).2.map Prod.fst } := by
  simp only [step, hs]

/-- What a tick does by itself at an instant. -/
def Own (t : Instant) (m : AutoMove) : Prop := m = .begin ∨ m = .judge t ∨ m = .settle

theorem goTick_run (t : Instant) (agenda : List TickItem) (w : AutoRun)
    (hs : w.settling = none) (ha : w.agenda = agenda) :
    ∃ moves, (∀ m ∈ moves, Own t m) ∧ At (Runs.run step w moves) (goTick t w.app agenda) := by
  -- the induction is on what the tick has still to judge
  induction agenda generalizing w with
  | nil => exact ⟨[], fun _ h => (List.not_mem_nil h).elim, rfl, hs, ha⟩
  | cons item agenda ih =>
      have hjudge := step_judge (t := t) hs ha
      unfold goTick
      split
      · rename_i s₁ hj
        rw [hj] at hjudge
        obtain ⟨moves, hown, hat⟩ := ih (w.step (.judge t)) (by rw [hjudge]) (by rw [hjudge])
        refine ⟨.judge t :: moves, ?_, ?_⟩
        · exact List.forall_mem_cons.mpr ⟨.inr (.inl rfl), hown⟩
        · rw [hjudge] at hat
          rw [Runs.run_cons, hjudge]
          exact hat
      · rename_i s₁ st hj
        rw [hj] at hjudge
        have hsettling : (w.step (.judge t)).settling = some st := by rw [hjudge]
        have hsettle := step_settle hsettling
        rw [hjudge] at hsettle
        split
        · rename_i s₂ hn
          simp only [hn] at hsettle
          obtain ⟨moves, hown, hat⟩ := ih ((w.step (.judge t)).step .settle)
            (by rw [hjudge, hsettle]; rfl) (by rw [hjudge, hsettle])
          refine ⟨.judge t :: .settle :: moves, ?_, ?_⟩
          · exact List.forall_mem_cons.mpr ⟨.inr (.inl rfl),
              List.forall_mem_cons.mpr ⟨.inr (.inr rfl), hown⟩⟩
          · rw [hjudge, hsettle] at hat
            rw [Runs.run_cons, Runs.run_cons, hjudge, hsettle]
            exact hat
        · -- a venue is awaited: the run stops here, as the tick is suspended here
          rename_i s₂ st' v o hn
          simp only [hn] at hsettle
          refine ⟨[.judge t, .settle], ?_, ?_⟩
          · exact List.forall_mem_cons.mpr ⟨.inr (.inl rfl),
              List.forall_mem_cons.mpr ⟨.inr (.inr rfl), fun _ h => (List.not_mem_nil h).elim⟩⟩
          · rw [Runs.run_cons, Runs.run_cons, Runs.run_nil, hjudge, hsettle]
            exact ⟨rfl, rfl, rfl⟩

/-- **The tick of the event loop is a run of these steps**, from its start and
from wherever it is suspended. -/
theorem tick_run (t : Instant) (w : AutoRun) (at_ : Option TickAt)
    (hs : w.settling = at_.map TickAt.settling)
    (ha : w.agenda = (at_.map TickAt.agenda).getD []) :
    ∃ moves, (∀ m ∈ moves, Own t m) ∧ At (Runs.run step w moves) (w.app.tick t at_) := by
  cases at_ with
  | none =>
      have hbegin : w.step .begin =
          { w with agenda := w.app.tickAgenda, ticks := w.ticks + 1 } := by
        simp only [step, hs, ha, Option.map_none, Option.getD_none]
      obtain ⟨moves, hown, hat⟩ := goTick_run t w.app.tickAgenda (w.step .begin)
        (by rw [hbegin, hs]; rfl) (by rw [hbegin])
      refine ⟨.begin :: moves, List.forall_mem_cons.mpr ⟨.inl rfl, hown⟩, ?_⟩
      rw [hbegin] at hat
      rw [Runs.run_cons, hbegin]
      exact hat
  | some at_ =>
      have hsettling : w.settling = some at_.settling := hs
      have hsettle := step_settle hsettling
      simp only [Option.map_some, Option.getD_some] at ha
      unfold tick
      simp only
      split
      · rename_i s₁ hn
        simp only [hn] at hsettle
        obtain ⟨moves, hown, hat⟩ := goTick_run t at_.agenda (w.step .settle)
          (by rw [hsettle]; rfl) (by rw [hsettle, ha])
        refine ⟨.settle :: moves, List.forall_mem_cons.mpr ⟨.inr (.inr rfl), hown⟩, ?_⟩
        rw [hsettle] at hat
        rw [Runs.run_cons, hsettle]
        exact hat
      · rename_i s₁ st v o hn
        simp only [hn] at hsettle
        refine ⟨[.settle], ?_, ?_⟩
        · exact List.forall_mem_cons.mpr ⟨.inr (.inr rfl), fun _ h => (List.not_mem_nil h).elim⟩
        · rw [Runs.run_cons, Runs.run_nil, hsettle]
          exact ⟨rfl, rfl, ha⟩

end AutoRun

/-! ## What one turn does -/

namespace AppState

variable {s : AppState} {t : Instant}

/-- `_settle_final` touches `_unresolved` only, and calls `_settle_group` for a
group that has started and whose last book names a winner. -/
theorem settleFinal_spec (s : AppState) (t : Instant) (group : EventGroup) :
    (∃ unresolved, (s.settleFinal t group).1 =
      { s with autoSettle := { s.autoSettle with unresolved := unresolved } }) ∧
    ∀ st, (s.settleFinal t group).2 = some st → st.gid = group.id ∧ st.pinned = false ∧
      hasStarted t.utc group = true := by
  unfold settleFinal
  split
  · exact ⟨⟨_, rfl⟩, fun st h => by cases h⟩
  · rename_i hstarted
    split
    · exact ⟨⟨_, rfl⟩, fun st h => by cases h⟩
    · refine ⟨⟨_, rfl⟩, fun st h => ?_⟩
      cases h
      exact ⟨rfl, rfl, by simpa using hstarted⟩

/-- The price route counts a pinned side, or forgets the group's count; it
calls `_settle_group` at the third in a row. -/
theorem settlePinned_cases (s : AppState) (t : Instant) (gid : GroupId) (group : EventGroup) :
    (s.winningSide t.now group askThreshold false = none ∧ (s.settlePinned t gid group) =
      ({ s with autoSettle := { s.autoSettle with hits := s.autoSettle.hits.erase gid } },
        none)) ∨
    ∃ winner count, s.winningSide t.now group askThreshold false = some winner ∧
      count = (if (s.autoSettle.hits.getD gid (winner, 0)).1 = winner then
        (s.autoSettle.hits.getD gid (winner, 0)).2 else 0) + 1 ∧
      s.settlePinned t gid group =
        ({ s with autoSettle := { s.autoSettle with
            hits := s.autoSettle.hits.set gid (winner, count) } },
          if consecutiveHits ≤ count then some ⟨gid, winner, group.legs, true⟩ else none) := by
  unfold settlePinned
  split
  · rename_i hnone
    exact .inl ⟨hnone, rfl⟩
  · rename_i winner hsome
    exact .inr ⟨winner, _, hsome, rfl, rfl⟩

/-- The state once a retired group is out of the service's memory. -/
def forgotten (s : AppState) (gid : GroupId) : AppState :=
  { s with autoSettle := { s.autoSettle with
      seen := s.autoSettle.seen.erase gid
      hits := s.autoSettle.hits.erase gid } }

/-- The state once a registered group is noted. -/
def noted (s : AppState) (gid : GroupId) (group : EventGroup) : AppState :=
  { s with autoSettle := { s.autoSettle with seen := s.autoSettle.seen.set gid group } }

/-- The state without the group's count. -/
def uncounted (s : AppState) (gid : GroupId) : AppState :=
  { s with autoSettle := { s.autoSettle with hits := s.autoSettle.hits.erase gid } }

theorem judge_retired (s : AppState) (t : Instant) (gid : GroupId) (group : EventGroup) :
    s.judge t (.retired gid group) =
      if gid ∈ s.autoSettle.settled then (s.forgotten gid, none)
      else (s.forgotten gid).settleFinal t group := rfl

theorem judge_registered (s : AppState) (t : Instant) (gid : GroupId) (group : EventGroup) :
    s.judge t (.registered gid group) =
      if gid ∈ s.autoSettle.settled then (s.noted gid group, none)
      else if group.ended = some true then (s.noted gid group).settleFinal t group
      else if hasStarted t.utc group = false then ((s.noted gid group).uncounted gid, none)
      else (s.noted gid group).settlePinned t gid group := rfl

/-- What a turn of the tick does to the service's memory, and when it calls
`_settle_group`: `hits` is the count of the groups off the turn. -/
structure JudgeSpec (s : AppState) (t : Instant) (item : TickItem)
    (r : AppState × Option Settling) : Prop where
  settled : r.1.autoSettle.settled = s.autoSettle.settled
  hits_off : ∀ gid, gid ≠ item.gid →
    r.1.autoSettle.hits.get? gid = s.autoSettle.hits.get? gid
  seen_off : ∀ gid, gid ≠ item.gid →
    r.1.autoSettle.seen.get? gid = s.autoSettle.seen.get? gid
  seen : r.1.autoSettle.seen.get? item.gid = item.seenAs
  calls : ∀ st, r.2 = some st → item.gid ∉ s.autoSettle.settled ∧
    hasStarted t.utc item.group = true ∧ (item.group.id = item.gid → st.gid = item.gid)

theorem judgeSpec_noted (gid : GroupId) (group : EventGroup) :
    JudgeSpec s t (.registered gid group) (s.noted gid group, none) :=
  ⟨rfl, fun _ _ => rfl, fun _ h => Dict.get?_set_ne _ h _, Dict.get?_set_self _ _ _,
    fun _ h => by cases h⟩

theorem judgeSpec_forgotten (gid : GroupId) (group : EventGroup) :
    JudgeSpec s t (.retired gid group) (s.forgotten gid, none) :=
  ⟨rfl, fun _ h => (Dict.get?_erase _ _ _).trans (if_neg h),
    fun _ h => (Dict.get?_erase _ _ _).trans (if_neg h),
    (Dict.get?_erase _ _ _).trans (if_pos rfl), fun _ h => by cases h⟩

/-- A turn that ends in `_settle_final`. -/
theorem JudgeSpec.settleFinal {s₁ : AppState} {item : TickItem}
    (h : JudgeSpec s t item (s₁, none)) (hin : item.gid ∉ s.autoSettle.settled) :
    JudgeSpec s t item (s₁.settleFinal t item.group) := by
  obtain ⟨⟨unresolved, hs⟩, hcalls⟩ := settleFinal_spec s₁ t item.group
  refine ⟨by rw [hs]; exact h.settled, by rw [hs]; exact h.hits_off,
    by rw [hs]; exact h.seen_off, by rw [hs]; exact h.seen, fun st hst => ?_⟩
  obtain ⟨hid, -, hstarted⟩ := hcalls st hst
  exact ⟨hin, hstarted, hid.trans⟩

theorem judge_spec (s : AppState) (t : Instant) (item : TickItem) :
    JudgeSpec s t item (s.judge t item) := by
  cases item with
  | retired gid group =>
      rw [judge_retired]
      split
      · exact judgeSpec_forgotten gid group
      · rename_i hin
        exact (judgeSpec_forgotten gid group).settleFinal hin
  | registered gid group =>
      rw [judge_registered]
      split
      · exact judgeSpec_noted gid group
      rename_i hin
      split
      · exact (judgeSpec_noted gid group).settleFinal hin
      split
      · have h : JudgeSpec s t _ _ := judgeSpec_noted gid group
        exact ⟨h.settled, fun _ hg => (Dict.get?_erase _ _ _).trans (if_neg hg), h.seen_off,
          h.seen, fun _ hst => by cases hst⟩
      · rename_i hstarted
        have h : JudgeSpec s t _ _ := judgeSpec_noted gid group
        -- it has started and is pinned at this poll or not, which is counted or forgotten
        rcases settlePinned_cases (s.noted gid group) t gid group with
          ⟨-, hp⟩ | ⟨winner, count, -, -, hp⟩
        · rw [hp]
          exact ⟨h.settled, fun _ hg => (Dict.get?_erase _ _ _).trans (if_neg hg), h.seen_off,
            h.seen, fun _ hst => by cases hst⟩
        · rw [hp]
          refine ⟨h.settled, fun _ hg => Dict.get?_set_ne _ hg _, h.seen_off, h.seen,
            fun st hst => ⟨hin, (Bool.not_eq_false _).mp hstarted, fun _ => ?_⟩⟩
          by_cases hc : consecutiveHits ≤ count
          · simp only [if_pos hc, Option.some.injEq] at hst
            exact hst ▸ rfl
          · simp only [if_neg hc] at hst
            cases hst

/-- The stretch between two legs keeps the memory; coming back from the last
leg marks the group and forgets nothing but its count. -/
theorem settleNext_spec (s : AppState) (st : Settling) :
    (∃ st' v o, (s.settleNext st).2 = some (st', v, o) ∧ st'.gid = st.gid ∧
      st'.pinned = st.pinned ∧ (s.settleNext st).1.autoSettle = s.autoSettle) ∨
    ((s.settleNext st).2 = none ∧ (s.settleNext st).1 = s.settledGroup st) := by
  unfold settleNext
  split
  · exact .inr ⟨rfl, rfl⟩
  · exact .inl ⟨_, _, _, rfl, rfl, rfl, rfl⟩

end AppState

/-! ## The agenda of a tick -/

namespace AppState

variable {s : AppState}

theorem map_gid_tickAgenda (s : AppState) :
    s.tickAgenda.map TickItem.gid =
      (s.autoSettle.seen.keys.filter fun gid => (s.eventGroups.get? gid).isNone) ++
        s.eventGroups.keys := by
  simp [tickAgenda, TickItem.gid, Dict.keys, List.filter_map, Function.comp_def]

/-- A tick judges a group once: it is registered, or it is not. -/
theorem nodup_tickAgenda (s : AppState) : (s.tickAgenda.map TickItem.gid).Nodup := by
  rw [map_gid_tickAgenda, List.nodup_append]
  refine ⟨s.autoSettle.seen.nodup.filter _, s.eventGroups.nodup, fun g hg g' hg' heq => ?_⟩
  subst heq
  have hgone := (List.mem_filter.mp hg).2
  rw [Option.isNone_iff_eq_none] at hgone
  have hin := Dict.mem_keys_iff.mp hg'
  rw [hgone] at hin
  cases hin

theorem mem_tickAgenda_retired {gid : GroupId} {group : EventGroup}
    (h : .retired gid group ∈ s.tickAgenda) :
    s.autoSettle.seen.get? gid = some group := by
  rcases List.mem_append.mp h with h | h
  · obtain ⟨e, he, heq⟩ := List.mem_map.mp h
    cases heq
    exact Dict.mem_entries_iff.mp (List.mem_filter.mp he).1
  · obtain ⟨e, -, heq⟩ := List.mem_map.mp h
    cases heq

theorem mem_tickAgenda_registered {gid : GroupId} {group : EventGroup}
    (h : .registered gid group ∈ s.tickAgenda) : (gid, group) ∈ s.eventGroups.entries := by
  rcases List.mem_append.mp h with h | h
  · obtain ⟨e, -, heq⟩ := List.mem_map.mp h
    cases heq
  · obtain ⟨e, he, heq⟩ := List.mem_map.mp h
    cases heq
    exact he

end AppState

/-! ## What was last seen -/

theorem lastSeen_judged (history : List Seen) (j : Judgment) (gid : GroupId) :
    lastSeen (history ++ [.judged j]) gid =
      if gid = j.item.gid then j.item.seenAs.or (lastSeen history gid)
      else lastSeen history gid := by
  simp only [lastSeen, List.filterMap_append, List.getLast?_append]
  cases hj : j.item with
  | retired gid' group => simp [Seen.registered, hj, TickItem.seenAs]
  | registered gid' group =>
      by_cases h : gid' = gid
      · simp [Seen.registered, hj, TickItem.seenAs, TickItem.gid, h]
      · simp [Seen.registered, hj, TickItem.gid, h, Ne.symm h]

theorem lastSeen_marked (history : List Seen) (gid gid' : GroupId) :
    lastSeen (history ++ [.marked gid']) gid = lastSeen history gid := by
  simp [lastSeen, Seen.registered]

/-! ## At most once, and not before kick-off -/

/-- The group is settled, or marked by the other service. -/
def Seen.Ends (x : Seen) (gid : GroupId) : Prop := x.Calls gid ∨ x = .marked gid

/-- What every history of the service is like. -/
structure ActsOnce (history : List Seen) : Prop where
  /-- No `_settle_group` call follows a call or a mark of the same group. -/
  once : history.Pairwise fun x y => ∀ gid, x.Ends gid → ¬ y.Calls gid
  /-- A call is of a group that was seen registered, and not before its start
  time as it was last seen. -/
  started : ∀ before j after, history = before ++ .judged j :: after →
    ∀ st, j.calls = some st → ∃ group, lastSeen (before ++ [.judged j]) st.gid = some group ∧
      ∀ start ∈ group.startTime, start ≤ j.t.utc

/-- The invariant behind it: the groups are under their own ids wherever the
service keeps them, what ended is in `_settled` or is being settled, and
`_seen` and the agenda hold what was last seen. -/
structure Acting (w : AutoRun) : Prop where
  acts : ActsOnce w.history
  groups : Keyed w.app.eventGroups
  agenda : ∀ item ∈ w.agenda, item.group.id = item.gid
  nodup : (w.agenda.map TickItem.gid).Nodup
  ended : ∀ x ∈ w.history, ∀ gid, x.Ends gid →
    gid ∈ w.app.autoSettle.settled ∨ ∃ st, w.settling = some st ∧ st.gid = gid
  seen : ∀ gid group, w.app.autoSettle.seen.get? gid = some group →
    group.id = gid ∧ lastSeen w.history gid = some group
  retired : ∀ gid group, .retired gid group ∈ w.agenda → lastSeen w.history gid = some group

theorem hasStarted_iff {utc : ℚ} {group : EventGroup} :
    hasStarted utc group = true ↔ ∀ start ∈ group.startTime, start ≤ utc := by
  unfold hasStarted
  cases group.startTime <;> simp

/-- A history one record longer is cut inside the shorter one, or at the new
record. -/
theorem append_singleton_eq_append_cons {α : Type} {l before after : List α} {x y : α}
    (h : l ++ [x] = before ++ y :: after) :
    (after = [] ∧ before = l ∧ y = x) ∨ ∃ after', l = before ++ y :: after' := by
  rcases List.eq_nil_or_concat after with rfl | ⟨after', z, rfl⟩
  · obtain ⟨hl, hx⟩ := List.append_inj' h rfl
    exact .inl ⟨rfl, hl.symm, by simpa using hx.symm⟩
  · refine .inr ⟨after', ?_⟩
    have h' : l ++ [x] = (before ++ y :: after') ++ [z] := by simpa using h
    exact (List.append_inj' h' rfl).1

theorem ActsOnce.append {history : List Seen} {x : Seen} (h : ActsOnce history)
    (honce : ∀ y ∈ history, ∀ gid, y.Ends gid → ¬ x.Calls gid)
    (hstarted : ∀ j, x = .judged j → ∀ st, j.calls = some st →
      ∃ group, lastSeen (history ++ [x]) st.gid = some group ∧
        ∀ start ∈ group.startTime, start ≤ j.t.utc) : ActsOnce (history ++ [x]) where
  once := by
    rw [List.pairwise_append]
    refine ⟨h.once, List.pairwise_singleton _ _, fun y hy z hz => ?_⟩
    rw [List.mem_singleton.mp hz]
    exact honce y hy
  started := by
    intro before j after hsplit st hst
    rcases append_singleton_eq_append_cons hsplit with ⟨-, rfl, hj⟩ | ⟨after', hsplit'⟩
    · rw [hj]
      exact hstarted j hj.symm st hst
    · exact h.started before j after' hsplit' st hst

namespace Acting

variable {w : AutoRun}

theorem step_begin (h : Acting w) : Acting (w.step .begin) := by
  simp only [AutoRun.step]
  split
  · refine ⟨h.acts, h.groups, fun item hitem => ?_, nodup_tickAgenda w.app, h.ended, h.seen,
      fun gid group hmem => (h.seen gid group (mem_tickAgenda_retired hmem)).2⟩
    cases item with
    | retired gid group => exact (h.seen gid group (mem_tickAgenda_retired hitem)).1
    | registered gid group => exact h.groups _ (mem_tickAgenda_registered hitem)
  · exact h

/-- With no settlement under way, whatever ended is in `_settled`. -/
theorem settled_of_ends (h : Acting w) (hs : w.settling = none) {x : Seen} (hx : x ∈ w.history)
    {gid : GroupId} (hend : x.Ends gid) : gid ∈ w.app.autoSettle.settled := by
  rcases h.ended x hx gid hend with hin | ⟨st, hst, -⟩
  · exact hin
  · rw [hs] at hst
    cases hst

/-- The item to be judged is what was last seen of its group. -/
theorem lastSeen_item (h : Acting w) {t : Instant} {item : TickItem} {agenda : List TickItem}
    (ha : w.agenda = item :: agenda) :
    lastSeen (w.history ++ [.judged ⟨w.ticks, t, w.app, item⟩]) item.gid = some item.group := by
  rw [lastSeen_judged, if_pos rfl]
  cases item with
  | retired gid group => exact h.retired gid group (ha ▸ List.mem_cons_self)
  | registered gid group => rfl

/-- A judgement calls for no group that ended, and for none before its start. -/
theorem acts_judge (h : Acting w) {t : Instant} {item : TickItem} {agenda : List TickItem}
    (hs : w.settling = none) (ha : w.agenda = item :: agenda) :
    ActsOnce (w.history ++ [.judged ⟨w.ticks, t, w.app, item⟩]) := by
  have hspec := judge_spec w.app t item
  have hkey := h.agenda item (ha ▸ List.mem_cons_self)
  refine h.acts.append (fun x hx gid hend => ?_) fun j hj st hst => ?_
  · rintro ⟨st, hst, hgid⟩
    obtain ⟨hnot, -, hid⟩ := hspec.calls st hst
    have hin := h.settled_of_ends hs hx hend
    rw [← hgid, hid hkey] at hin
    exact hnot hin
  · cases hj
    obtain ⟨-, hstarted, hid⟩ := hspec.calls st hst
    exact ⟨item.group, by rw [hid hkey]; exact h.lastSeen_item ha, hasStarted_iff.mp hstarted⟩

theorem step_judge (h : Acting w) (t : Instant) : Acting (w.step (.judge t)) := by
  rcases w.step_judge_cases t with hidle | ⟨item, agenda, hs, ha⟩
  · rw [hidle]
    exact h
  have hspec := judge_spec w.app t item
  -- a group is on the agenda once, so judging it is no other item's turn
  have hkey := h.agenda item (ha ▸ List.mem_cons_self)
  have hnodup := h.nodup
  rw [ha, List.map_cons, List.nodup_cons] at hnodup
  rw [AutoRun.step_judge hs ha]
  constructor
  · exact h.acts_judge hs ha
  · rw [(serviced_judge w.app t item).eventGroups]
    exact h.groups
  · exact fun item' hitem' => h.agenda item' (ha ▸ List.mem_cons_of_mem _ hitem')
  · exact hnodup.2
  · intro x hx gid hend
    rw [hspec.settled]
    rcases List.mem_append.mp hx with hx | hx
    · exact .inl (h.settled_of_ends hs hx hend)
    · rw [List.mem_singleton.mp hx] at hend
      rcases hend with hcalls | hmark
      · exact .inr hcalls
      · cases hmark
  · intro gid group hseen
    by_cases hgid : gid = item.gid
    · subst hgid
      rw [hspec.seen] at hseen
      cases item with
      | retired gid group' => cases hseen
      | registered gid group' =>
          cases hseen
          exact ⟨hkey, h.lastSeen_item ha⟩
    · rw [hspec.seen_off gid hgid] at hseen
      rw [lastSeen_judged, if_neg hgid]
      exact h.seen gid group hseen
  · intro gid group hmem
    have hne : gid ≠ item.gid := by
      rintro rfl
      exact hnodup.1 (List.mem_map.mpr ⟨_, hmem, rfl⟩)
    rw [lastSeen_judged, if_neg hne]
    exact h.retired gid group (ha ▸ List.mem_cons_of_mem _ hmem)

theorem step_settle (h : Acting w) : Acting (w.step .settle) := by
  rcases w.step_settle_cases with hidle | ⟨st, hs⟩
  · rw [hidle]
    exact h
  have hgroups := (serviced_settleNext w.app st).eventGroups
  rw [AutoRun.step_settle hs]
  rcases settleNext_spec w.app st with ⟨st', v, o, hr, hgid, -, hauto⟩ | ⟨hr, hauto⟩
  · refine ⟨h.acts, by rw [hgroups]; exact h.groups, h.agenda, h.nodup, ?_, ?_, h.retired⟩
    · intro x hx gid hend
      rw [hauto, hr]
      rcases h.ended x hx gid hend with hin | ⟨st₀, hst₀, rfl⟩
      · exact .inl hin
      · rw [hs, Option.some.injEq] at hst₀
        exact .inr ⟨st', rfl, hst₀ ▸ hgid⟩
    · rw [hauto]
      exact h.seen
  · refine ⟨h.acts, by rw [hgroups]; exact h.groups, h.agenda, h.nodup, ?_, ?_, h.retired⟩
    · intro x hx gid hend
      rw [hauto]
      refine .inl (List.mem_insert_iff.mpr ?_)
      rcases h.ended x hx gid hend with hin | ⟨st₀, hst₀, rfl⟩
      · exact .inr hin
      · rw [hs, Option.some.injEq] at hst₀
        exact .inl (hst₀ ▸ rfl)
    · rw [hauto]
      exact h.seen

theorem step_world (h : Acting w) (app : AppState) : Acting (w.step (.world app)) := by
  simp only [AutoRun.step]
  split
  · rename_i hkeyed
    exact ⟨h.acts, hkeyed, h.agenda, h.nodup, h.ended, h.seen, h.retired⟩
  · exact h

theorem step_markSettled (h : Acting w) (gid : GroupId) :
    Acting (w.step (.markSettled gid)) := by
  simp only [AutoRun.step, AutoSettleService.markSettled]
  constructor
  · exact h.acts.append (fun _ _ _ _ => id) fun j hj => by cases hj
  · exact h.groups
  · exact h.agenda
  · exact h.nodup
  · intro x hx gid' hend
    rw [List.mem_insert_iff]
    rcases List.mem_append.mp hx with hx | hx
    · exact (h.ended x hx gid' hend).imp_left .inr
    · rw [List.mem_singleton.mp hx] at hend
      rcases hend with hcalls | hmark
      · exact hcalls.elim
      · cases hmark
        exact .inl (.inl rfl)
  · intro gid' group hseen
    rw [lastSeen_marked]
    exact h.seen gid' group hseen
  · intro gid' group hmem
    rw [lastSeen_marked]
    exact h.retired gid' group hmem

/-- **The step lemma.** -/
theorem step (h : Acting w) (m : AutoMove) : Acting (w.step m) := by
  cases m with
  | begin => exact h.step_begin
  | judge t => exact h.step_judge t
  | settle => exact h.step_settle
  | world app => exact h.step_world app
  | markSettled gid => exact h.step_markSettled gid

theorem start (app : AppState) : Acting (AutoRun.start app) := by
  refine ⟨⟨List.Pairwise.nil, fun before j after h => ?_⟩, fun _ h => ?_, fun _ h => ?_,
    List.nodup_nil, fun _ h => ?_, fun _ _ h => ?_, fun _ _ h => ?_⟩
  · simp [AutoRun.start] at h
  · cases h
  · cases h
  · cases h
  · cases h
  · cases h

end Acting

/-- **Auto-settlement acts at most once for a group, never once the group was
marked, and never before its kick-off**: in every run of the service, whatever
happens to the registry, the book and the brokers in between. -/
theorem auto_settle_acts_once (app : AppState) (moves : List AutoMove) :
    ActsOnce (Runs.run AutoRun.step (AutoRun.start app) moves).history :=
  (Runs.run_inv (I := Acting) (fun _ m h => h.step m) moves (Acting.start app)).acts

end Arbys
