import Arbys.Discovery.InStep
import Arbys.SettleServices

/-!
# Start times that are known

`upsert_event_group` keeps the start time of a row when a group is written
again without one; memory holds the group that was registered last, as it was
given. The two have the same start time exactly as long as no registration of
the id comes without one once another has carried one. `POST /event-groups`
never carries one.
-/

namespace Arbys.Stores

variable {s : Stores} {gid : GroupId}

/-- A registration of the id has carried a start time. -/
def Carried (gid : GroupId) (rs : List Registration) : Prop :=
  ∃ r ∈ rs, r.group.id = gid ∧ r.group.startTime ≠ none

/-- Memory has a start time for the id, the one the tables keep. -/
def Remembered (s : Stores) (gid : GroupId) : Prop :=
  ∃ start group row, s.app.eventGroups.get? gid = some group ∧ group.startTime = some start ∧
    s.db.groups.get? gid = some row ∧ row.startTime = some start

theorem startTime_post (body : EventGroupIn) : (Registration.post body).group.startTime = none :=
  rfl

theorem mergedStart_of_some (db : GroupDb) {group : EventGroup} {start : ℚ}
    (h : group.startTime = some start) : db.mergedStart group = some start := by
  unfold GroupDb.mergedStart
  cases db.groups.get? group.id with
  | none => exact h
  | some existing => rw [h]

/-! ## One registration -/

/-- **One registration** of the id: its start time is remembered exactly if it
carries one. -/
theorem remembered_register_iff (s : Stores) (r : Registration) :
    (s.register r).Remembered r.group.id ↔ r.group.startTime ≠ none := by
  have hentry := s.entry_register r r.group.id
  rw [if_pos rfl] at hentry
  have hmemory : (s.register r).app.eventGroups.get? r.group.id = some r.group :=
    congrArg Entry.memory hentry
  have hrow : (s.register r).db.groups.get? r.group.id = some (s.db.rowFor r.group) :=
    congrArg Entry.row hentry
  constructor
  · rintro ⟨start, group, row, hget, hstart, -, -⟩
    rw [hmemory] at hget
    cases hget
    rw [hstart]
    simp
  · intro hcarries
    obtain ⟨start, hstart⟩ := Option.ne_none_iff_exists'.mp hcarries
    exact ⟨start, r.group, _, hmemory, hstart, hrow, mergedStart_of_some s.db hstart⟩

/-- A registration of another id. -/
theorem remembered_register_of_ne {r : Registration} (h : r.group.id ≠ gid) :
    (s.register r).Remembered gid ↔ s.Remembered gid := by
  have hentry := s.entry_register r gid
  rw [if_neg (Ne.symm h)] at hentry
  have hmemory : (s.register r).app.eventGroups.get? gid = s.app.eventGroups.get? gid :=
    congrArg Entry.memory hentry
  have hrow : (s.register r).db.groups.get? gid = s.db.groups.get? gid :=
    congrArg Entry.row hentry
  rw [Remembered, Remembered, hmemory, hrow]

/-! ## A run of registrations -/

theorem carried_concat {rs : List Registration} {r : Registration} :
    Carried gid (rs ++ [r]) ↔
      Carried gid rs ∨ (r.group.id = gid ∧ r.group.startTime ≠ none) := by
  constructor
  · rintro ⟨r', hr', h⟩
    rcases List.mem_append.mp hr' with hr' | hr'
    · exact Or.inl ⟨r', hr', h⟩
    · rw [List.mem_singleton] at hr'
      exact Or.inr (hr' ▸ h)
  · rintro (⟨r', hr', h⟩ | h)
    · exact ⟨r', List.mem_append_left _ hr', h⟩
    · exact ⟨r, List.mem_append_right _ List.mem_cons_self, h⟩

/-- **A known start time is not forgotten** in a run of registrations exactly
where every registration of the id after one that carried a start time carries
one too. -/
theorem start_time_remembered_iff (s : Stores) (gid : GroupId) (rs : List Registration) :
    (∀ before after, rs = before ++ after → Carried gid before →
      (Runs.run register s before).Remembered gid) ↔
    ∀ before r after, rs = before ++ r :: after → Carried gid before → r.group.id = gid →
      r.group.startTime ≠ none := by
  constructor
  · intro h before r after hsplit hcarried hid
    have hlast := h (before ++ [r]) after (by rw [hsplit, List.append_assoc]; rfl)
      (carried_concat.mpr (Or.inl hcarried))
    rw [Runs.run_append, ← hid] at hlast
    exact (remembered_register_iff _ r).mp hlast
  · intro h before
    -- on the end of the run: the last registration of the id decides
    induction before using List.reverseRecOn with
    | nil =>
        rintro after - ⟨r, hr, -⟩
        cases hr
    | append_singleton before r ih =>
        intro after hsplit hcarried
        have hsplit' : rs = before ++ r :: after := by
          rw [hsplit, List.append_assoc]
          rfl
        rw [Runs.run_append]
        show ((Runs.run register s before).register r).Remembered gid
        by_cases hid : r.group.id = gid
        · have hcarries : r.group.startTime ≠ none := by
            rcases carried_concat.mp hcarried with hbefore | hlast
            · exact h before r after hsplit' hbefore hid
            · exact hlast.2
          rw [← hid]
          exact (remembered_register_iff _ r).mpr hcarries
        · rw [remembered_register_of_ne hid]
          rcases carried_concat.mp hcarried with hbefore | hlast
          · exact ih (r :: after) hsplit' hbefore
          · exact absurd hlast.1 hid

/-! ## Passes and posts as registrations -/

/-- What registers groups: the endpoint, and a pass. -/
inductive GroupOp where
  | post (body : EventGroupIn)
  | pass (found : Discovered) (writes : PassWrites)

namespace GroupOp

def step (s : Stores) : GroupOp → Stores
  | .post body => s.register (.post body)
  | .pass found writes => s.runOnce found writes

/-- The registrations an operation makes. -/
def registrations (s : Stores) : GroupOp → List Registration
  | .post body => [.post body]
  | .pass found writes => s.committed found writes

/-- The operation does not delete the group. -/
def Keeps (gid : GroupId) (s : Stores) : GroupOp → Prop
  | .post _ => True
  | .pass found writes => gid ∉ s.retired found writes

/-- The registrations of a run, in order. -/
def registrationsOf (s : Stores) : List GroupOp → List Registration
  | [] => []
  | op :: ops => op.registrations s ++ registrationsOf (op.step s) ops

end GroupOp

/-- What a run of registrations leaves under an id depends on what was there. -/
theorem entry_run_congr {s t : Stores} (h : s.entry gid = t.entry gid) (rs : List Registration) :
    (Runs.run register s rs).entry gid = (Runs.run register t rs).entry gid := by
  induction rs generalizing s t with
  | nil => exact h
  | cons r rs ih =>
      refine ih ?_
      rw [entry_register, entry_register]
      by_cases hid : gid = r.group.id
      · have hrow : s.db.groups.get? r.group.id = t.db.groups.get? r.group.id :=
          hid ▸ congrArg Entry.row h
        have hmerged : s.db.rowFor r.group = t.db.rowFor r.group := by
          rw [GroupDb.rowFor, GroupDb.rowFor, GroupDb.mergedStart, GroupDb.mergedStart, hrow]
        rw [if_pos hid, if_pos hid, hmerged]
      · rw [if_neg hid, if_neg hid, h]

/-- **Posts and passes** that do not delete a group leave it as their
registrations do. -/
theorem entry_run_groupOps {s t : Stores} (h : s.entry gid = t.entry gid) (ops : List GroupOp)
    (hkeeps : Runs.Guarded GroupOp.step (GroupOp.Keeps gid) s ops) :
    (Runs.run GroupOp.step s ops).entry gid =
      (Runs.run register t (GroupOp.registrationsOf s ops)).entry gid := by
  induction ops generalizing s t with
  | nil => exact h
  | cons op ops ih =>
      rw [GroupOp.registrationsOf, Runs.run_append]
      refine ih ?_ hkeeps.2
      rw [← entry_run_congr h]
      cases op with
      | post body => rfl
      | pass found writes =>
          show (s.runOnce found writes).entry gid = _
          rw [runOnce_eq, entry_retires, if_neg hkeeps.1]
          rfl

/-! ## What reads the start time -/

/-- A group that starts beyond the limit is refused while its start time is
remembered. -/
theorem startsTooFarOut_of_remembered {cfg : Settings} {utc limitDays : ℚ} {opp : ArbOpportunity}
    (h : s.Remembered (baseId opp.eventGroupId)) (hlimit : cfg.maxDaysToStart = some limitDays)
    {row : GroupRow} {start : ℚ} (hrow : s.db.groups.get? (baseId opp.eventGroupId) = some row)
    (hstart : row.startTime = some start) (hfar : limitDays < (start - utc) / 86400) :
    startsTooFarOut cfg s.app utc opp =
      some (.startsTooFarOut opp.eventGroupId ((start - utc) / 86400) limitDays) := by
  obtain ⟨start', group, row', hget, hmemory, hrow', hstart'⟩ := h
  rw [hrow] at hrow'
  cases hrow'
  rw [hstart] at hstart'
  cases hstart'
  rw [startsTooFarOut, hlimit, hget, Option.bind_some, hmemory]
  simp only
  rw [if_neg (not_le.mpr hfar)]

/-! ## A group that is posted after it was discovered -/

namespace PostedAgain

/-- Found by discovery, with a start time. -/
def found : EventGroup :=
  { TwoVenues.group with startTime := some 1000000, source := "discovery" }

/-- The same legs, by hand. -/
def body : EventGroupIn := ⟨"eg-1", "Red Sox vs Yankees", TwoVenues.group.legs⟩

def registered : List Registration := [.discovered found none, .post body]

end PostedAgain

open PostedAgain in
/-- The tables still know the start time; memory does not, and takes the game
for one that has started. -/
theorem start_time_forgotten :
    Carried "eg-1" [.discovered found none] ∧
      ¬ (Runs.run register TwoPasses.start registered).Remembered "eg-1" ∧
      (Runs.run register TwoPasses.start registered).app.eventGroups.get? "eg-1" =
        some body.group ∧
      ((Runs.run register TwoPasses.start registered).db.groups.get? "eg-1").map
        (·.startTime) = some (some 1000000) ∧
      ∀ utc, AppState.hasStarted utc body.group = true := by
  have hentry := (TwoPasses.start.register (.discovered found none)).entry_register (.post body)
    "eg-1"
  rw [if_pos (by decide)] at hentry
  have hmemory := congrArg Entry.memory hentry
  have hrow := congrArg Entry.row hentry
  refine ⟨⟨_, List.mem_singleton_self _, by decide, by decide⟩, fun h => ?_, hmemory, ?_,
    fun _ => rfl⟩
  · exact (remembered_register_iff _ (.post body)).mp h (startTime_post body)
  · refine (congrArg (Option.map GroupRow.startTime) hrow).trans ?_
    decide +kernel

end Arbys.Stores
