import Arbys.Lib.Dict

/-!
# Counting gates

A gate counts the tasks between their entry and their exit and raises a flag
while there is none. The count is kept beside the tasks, not read off them:
`Counts inside tasks g` says that it is nevertheless the number of tasks whose
state is `inside`, and that the flag says whether there is one. It is kept by
an entry, an exit and a change of state on either side of the gate, so a gate
that only ever does these never undercounts and reopens when the last task has
left (`Counts.inflight_eq_zero_iff`).

`exit` never takes the count below zero. While the gate counts, it does not
have to: a task that leaves was counted.
-/

universe u v

/-- How many tasks are inside, and whether none is. -/
structure Gate where
  inflight : ℤ := 0
  idle : Bool := true
  deriving DecidableEq

namespace Gate

def enter (g : Gate) : Gate := ⟨g.inflight + 1, false⟩

def exit (g : Gate) : Gate :=
  let inflight := max 0 (g.inflight - 1)
  ⟨inflight, if inflight = 0 then true else g.idle⟩

variable {κ : Type u} {ν : Type v} [DecidableEq κ]

/-- What one task adds to the count. -/
def weight (inside : ν → Bool) (x : ν) : ℤ := if inside x then 1 else 0

theorem weight_nonneg (inside : ν → Bool) (x : ν) : 0 ≤ weight inside x := by
  unfold weight
  split <;> omega

/-- The number of tasks inside. -/
def insiders (inside : ν → Bool) (tasks : Dict κ ν) : ℤ :=
  tasks.sumBy fun _ x => weight inside x

theorem contrib_nonneg (inside : ν → Bool) (tasks : Dict κ ν) (k : κ) :
    0 ≤ tasks.contrib (fun _ x => weight inside x) k := by
  cases h : tasks.get? k with
  | none => rw [Dict.contrib_of_get?_none h]
  | some x =>
      rw [Dict.contrib_of_get? h]
      exact weight_nonneg inside x

theorem insiders_nonneg (inside : ν → Bool) (tasks : Dict κ ν) : 0 ≤ insiders inside tasks := by
  unfold insiders
  rw [Dict.sumBy_eq_sum_contrib _ tasks fun k hk => List.mem_toFinset.mpr hk]
  exact Finset.sum_nonneg fun k _ => contrib_nonneg inside tasks k

theorem insiders_eq_zero_iff (inside : ν → Bool) (tasks : Dict κ ν) :
    insiders inside tasks = 0 ↔ ∀ k x, tasks.get? k = some x → inside x = false := by
  constructor
  · intro h k x hx
    unfold insiders at h
    rw [Dict.sumBy_eq_sum_contrib _ tasks fun k hk => List.mem_toFinset.mpr hk,
      Finset.sum_eq_zero_iff_of_nonneg fun k _ => contrib_nonneg inside tasks k] at h
    have hk : k ∈ tasks.keys.toFinset := by
      rw [List.mem_toFinset, Dict.mem_keys_iff, hx]
      rfl
    have hzero := h k hk
    rw [Dict.contrib_of_get? hx, weight] at hzero
    cases hin : inside x with
    | false => rfl
    | true => simp [hin] at hzero
  · intro h
    refine Dict.sumBy_eq_zero fun k => ?_
    cases hx : tasks.get? k with
    | none => rw [Dict.contrib_of_get?_none hx]
    | some x =>
        rw [Dict.contrib_of_get? hx, weight, h k x hx]
        rfl

theorem insiders_set (inside : ν → Bool) (tasks : Dict κ ν) (k : κ) (x : ν) :
    insiders inside (tasks.set k x) = insiders inside tasks +
      (weight inside x - tasks.contrib (fun _ x => weight inside x) k) :=
  Dict.sumBy_set ..

/-- A task outside the gate adds nothing. -/
theorem contrib_of_outside {inside : ν → Bool} {tasks : Dict κ ν} {k : κ}
    (hout : ∀ y, tasks.get? k = some y → inside y = false) :
    tasks.contrib (fun _ x => weight inside x) k = 0 := by
  cases hy : tasks.get? k with
  | none => rw [Dict.contrib_of_get?_none hy]
  | some y =>
      rw [Dict.contrib_of_get? hy, weight, hout y hy]
      rfl

/-- The gate is right about the tasks. -/
structure Counts (inside : ν → Bool) (tasks : Dict κ ν) (g : Gate) : Prop where
  inflight : g.inflight = insiders inside tasks
  idle : g.idle = true ↔ g.inflight = 0

namespace Counts

variable {inside : ν → Bool} {tasks : Dict κ ν} {g : Gate} {k : κ} {x y : ν}

omit [DecidableEq κ] in
theorem empty (inside : ν → Bool) : Counts inside (Dict.empty : Dict κ ν) {} := ⟨rfl, by simp⟩

theorem inflight_nonneg (h : Counts inside tasks g) : 0 ≤ g.inflight := by
  rw [h.inflight]
  exact insiders_nonneg inside tasks

/-- **The gate reopens** when no task is inside, and not before. -/
theorem inflight_eq_zero_iff (h : Counts inside tasks g) :
    g.inflight = 0 ↔ ∀ k x, tasks.get? k = some x → inside x = false := by
  rw [h.inflight]
  exact insiders_eq_zero_iff inside tasks

/-- **Entry** of a task that is new or outside. -/
theorem enter (h : Counts inside tasks g)
    (hout : ∀ y, tasks.get? k = some y → inside y = false) (hx : inside x = true) :
    Counts inside (tasks.set k x) g.enter := by
  have hnonneg := h.inflight_nonneg
  constructor
  · rw [insiders_set, contrib_of_outside hout, ← h.inflight, weight, hx]
    simp [Gate.enter]
  · simp only [Gate.enter, Bool.false_eq_true, false_iff]
    omega

/-- **Exit** of a task that is inside. -/
theorem exit (h : Counts inside tasks g) (hy : tasks.get? k = some y) (hin : inside y = true)
    (hx : inside x = false) : Counts inside (tasks.set k x) g.exit := by
  have hset := insiders_set inside tasks k x
  rw [Dict.contrib_of_get? hy, weight, weight, hin, hx, ← h.inflight] at hset
  simp only [Bool.false_eq_true, if_false, if_true] at hset
  have hnonneg := insiders_nonneg inside (tasks.set k x)
  have hexit : g.exit.inflight = insiders inside (tasks.set k x) := by
    change max 0 (g.inflight - 1) = _
    omega
  refine ⟨hexit, ?_⟩
  simp only [Gate.exit]
  split
  · rename_i hzero
    simp [hzero]
  · rename_i hpos
    have hbusy : g.inflight ≠ 0 := by omega
    simp only [h.idle, hbusy, hpos]

/-- **A change of state** on one side of the gate. -/
theorem stay (h : Counts inside tasks g) (hy : tasks.get? k = some y)
    (hx : inside x = inside y) : Counts inside (tasks.set k x) g := by
  refine ⟨?_, h.idle⟩
  rw [insiders_set, Dict.contrib_of_get? hy, weight, weight, hx, h.inflight]
  omega

/-- A task that is new or outside, and stays outside. -/
theorem outside (h : Counts inside tasks g)
    (hout : ∀ y, tasks.get? k = some y → inside y = false) (hx : inside x = false) :
    Counts inside (tasks.set k x) g := by
  refine ⟨?_, h.idle⟩
  rw [insiders_set, contrib_of_outside hout, weight, hx, h.inflight]
  simp

/-- A task that leaves as it comes leaves the gate as it was. -/
theorem exit_enter (h : Counts inside tasks g) : g.enter.exit = g := by
  have hnonneg := h.inflight_nonneg
  have hcount : max 0 (g.inflight + 1 - 1) = g.inflight := by omega
  have hidle := h.idle
  obtain ⟨inflight, idle⟩ := g
  simp only [Gate.exit, Gate.enter, hcount, Gate.mk.injEq, true_and]
  split
  · rename_i hzero
    exact (hidle.mpr hzero).symm
  · rename_i hpos
    cases idle with
    | false => rfl
    | true => exact absurd (hidle.mp rfl) hpos

end Counts

end Gate
