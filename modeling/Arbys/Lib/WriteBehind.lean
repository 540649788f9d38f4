import Arbys.Lib.Dict
import Arbys.Lib.Runs

/-!
# Writing behind a memory

A memory is changed at once, and what changed is written to a store later, by
tasks that run one callback after another. A callback may change the memory
and may issue a write, which carries whole values as they are in memory at
that moment; the task then waits until the write has landed. A write may fail
and be tried again, so writes of different tasks land in any order, and the
last to land stays.

A key is safe as long as it is owed by a callback still to come, or its newest
write is in flight, or the store agrees with the memory (`Safe`). The only step
that can break this is one where a write lands after a newer write of the same
key has. Where no write does (`InOrder`), the store agrees with the memory
whenever no task is left (`stored_eq_read`).
-/

universe u v w x y z t s

/-- A memory `μ` with a store `δ` behind it: operations `π`, callbacks `γ`,
writes `ω`, and what a key `κ` reads as in either. -/
structure WriteBehind (μ : Type u) (δ : Type v) (π : Type w) (γ : Type x) (ω : Type y)
    (κ : Type z) (α : Type t) where
  /-- What an operation changes at once, and the callbacks of its task. -/
  start : π → μ → μ × List γ
  call : γ → μ → μ × Option ω
  land : ω → δ → δ
  keys : ω → List κ
  value : ω → κ → α
  /-- The keys a callback writes, whatever the memory is by then. -/
  owes : γ → List κ
  read : μ → κ → α
  stored : δ → κ → α
  stored_land : ∀ w d k, k ∈ keys w → stored (land w d) k = value w k
  stored_land_off : ∀ w d k, k ∉ keys w → stored (land w d) k = stored d k
  call_value : ∀ c m w, (call c m).2 = some w → ∀ k ∈ keys w, value w k = read (call c m).1 k
  call_off : ∀ c m k, (∀ w, (call c m).2 = some w → k ∉ keys w) →
    read (call c m).1 k = read m k
  call_owes : ∀ c m, ∀ k ∈ owes c, ∃ w, (call c m).2 = some w ∧ k ∈ keys w

namespace WriteBehind

variable {μ : Type u} {δ : Type v} {π : Type w} {γ : Type x} {ω : Type y} {κ : Type z}
  {α : Type t} {ι : Type s}

/-- A write on its way, with its number in the order of issue. -/
structure Flight (ω : Type y) where
  seq : ℕ
  attempt : ℕ := 1
  write : ω

/-- A task waits for its write to land, or is about to go on. -/
structure Task (γ : Type x) (ω : Type y) where
  flight : Option (Flight ω)
  rest : List γ

structure State (ι : Type s) (μ : Type u) (δ : Type v) (γ : Type x) (ω : Type y)
    (κ : Type z) where
  mem : μ
  store : δ
  tasks : Dict ι (Task γ ω) := Dict.empty
  issued : ℕ := 0
  /-- The number of the newest write of a key. -/
  newest : κ → ℕ := fun _ => 0

inductive Event (ι : Type s) (π : Type w) where
  | start (i : ι) (op : π)
  /-- An attempt fails and will be repeated. -/
  | retry (i : ι)
  | land (i : ι)
  | resume (i : ι)

section Machine

variable [DecidableEq ι] [DecidableEq κ] (W : WriteBehind μ δ π γ ω κ α) (attempts : ℕ)

/-- Run callbacks up to the first that issues a write. -/
def advance (s : State ι μ δ γ ω κ) (i : ι) : List γ → State ι μ δ γ ω κ
  | [] => s
  | c :: rest =>
      match W.call c s.mem with
      | (m, none) => advance { s with mem := m } i rest
      | (m, some w) =>
          { s with
            mem := m
            tasks := s.tasks.set i ⟨some { seq := s.issued + 1, write := w }, rest⟩
            issued := s.issued + 1
            newest := fun k => if k ∈ W.keys w then s.issued + 1 else s.newest k }

def step (s : State ι μ δ γ ω κ) : Event ι π → State ι μ δ γ ω κ
  | .start i op =>
      if (s.tasks.get? i).isSome then s
      else
        let r := W.start op s.mem
        W.advance { s with mem := r.1 } i r.2
  | .retry i =>
      match s.tasks.get? i with
      | some ⟨some f, rest⟩ =>
          if f.attempt < attempts then
            { s with tasks := s.tasks.set i ⟨some { f with attempt := f.attempt + 1 }, rest⟩ }
          else s
      | _ => s
  | .land i =>
      match s.tasks.get? i with
      | some ⟨some f, rest⟩ =>
          { s with
            store := W.land f.write s.store
            tasks := s.tasks.set i ⟨none, rest⟩ }
      | _ => s
  | .resume i =>
      match s.tasks.get? i with
      | some ⟨none, rest⟩ => W.advance { s with tasks := s.tasks.erase i } i rest
      | _ => s

/-- A step over a store that may keep less of a write than it carries. -/
def stepOver (land : ω → δ → δ) (s : State ι μ δ γ ω κ) : Event ι π → State ι μ δ γ ω κ
  | .land i =>
      match s.tasks.get? i with
      | some ⟨some f, rest⟩ =>
          { s with
            store := land f.write s.store
            tasks := s.tasks.set i ⟨none, rest⟩ }
      | _ => s
  | e => W.step attempts s e

/-- The same step, where such a store keeps the write whole. -/
theorem stepOver_land {land : ω → δ → δ} {s : State ι μ δ γ ω κ} {i : ι}
    (h : ∀ task ∈ s.tasks.get? i, ∀ f ∈ task.flight, land f.write s.store = W.land f.write s.store) :
    W.stepOver attempts land s (.land i) = W.step attempts s (.land i) := by
  simp only [stepOver, step]
  split
  · rename_i f rest htask
    rw [h _ (Option.mem_def.mpr htask) f rfl]
  · rfl

/-- The write with this number is in flight. -/
def State.flying (s : State ι μ δ γ ω κ) (n : ℕ) : Bool :=
  s.tasks.values.any fun task => task.flight.any fun f => decide (f.seq = n)

/-- An operation owes every key it changes. -/
def Owed (op : π) (m : μ) : Prop :=
  ∀ k, k ∉ (W.start op m).2.flatMap W.owes → W.read (W.start op m).1 k = W.read m k

/-- The newest write of each key that a task is about to store is this one, or
has yet to land. -/
def LandsInOrder (s : State ι μ δ γ ω κ) (i : ι) : Prop :=
  ∀ task ∈ s.tasks.get? i, ∀ f ∈ task.flight, ∀ k ∈ W.keys f.write,
    s.newest k = f.seq ∨ s.flying (s.newest k) = true

instance (s : State ι μ δ γ ω κ) (i : ι) : Decidable (W.LandsInOrder s i) :=
  inferInstanceAs (Decidable (∀ task ∈ s.tasks.get? i, ∀ f ∈ task.flight, ∀ k ∈ W.keys f.write,
    s.newest k = f.seq ∨ s.flying (s.newest k) = true))

/-- No write lands after the newest write of one of its keys has, and no
operation changes a key it does not owe. -/
def InOrder (s : State ι μ δ γ ω κ) : Event ι π → Prop
  | .start _ op => W.Owed op s.mem
  | .land i => W.LandsInOrder s i
  | _ => True

end Machine

/-! ## What keeps a key safe -/

section Safe

variable [DecidableEq ι] [DecidableEq κ] {W : WriteBehind μ δ π γ ω κ α} {attempts : ℕ}
  {s : State ι μ δ γ ω κ} {i : ι}

omit [DecidableEq κ] in
theorem flying_iff {n : ℕ} :
    s.flying n = true ↔ ∃ i task f, s.tasks.get? i = some task ∧ task.flight = some f ∧ f.seq = n := by
  simp only [State.flying, List.any_eq_true, Option.any_eq_true, decide_eq_true_eq]
  constructor
  · rintro ⟨task, htask, f, hf, hn⟩
    obtain ⟨⟨j, task'⟩, he, rfl⟩ := List.mem_map.mp htask
    exact ⟨j, task', f, Dict.mem_entries_iff.mp he, hf, hn⟩
  · rintro ⟨j, task, f, hj, hf, hn⟩
    exact ⟨task, List.mem_map.mpr ⟨(j, task), Dict.mem_entries_iff.mpr hj, rfl⟩, f, hf, hn⟩

/-- The numbers of the writes in flight: no two alike, none beyond what was
issued, and the newest of a key is one that carries it. -/
structure Numbered (W : WriteBehind μ δ π γ ω κ α) (s : State ι μ δ γ ω κ) : Prop where
  issued : ∀ i task f, s.tasks.get? i = some task → task.flight = some f →
    0 < f.seq ∧ f.seq ≤ s.issued
  newest_le : ∀ k, s.newest k ≤ s.issued
  one : ∀ i j task task' f f', s.tasks.get? i = some task → s.tasks.get? j = some task' →
    task.flight = some f → task'.flight = some f' → f.seq = f'.seq → i = j
  carries : ∀ i task f k, s.tasks.get? i = some task → task.flight = some f →
    f.seq = s.newest k → k ∈ W.keys f.write

/-- Some task owes the key. -/
def Owing (W : WriteBehind μ δ π γ ω κ α) (s : State ι μ δ γ ω κ) (k : κ) : Prop :=
  ∃ i task, s.tasks.get? i = some task ∧ k ∈ task.rest.flatMap W.owes

/-- The key will agree when every write has landed: it is owed, or among the
keys in `owed`; or its newest write is in flight and carries its value; or no
such write is in flight and the store agrees. -/
def Safe (W : WriteBehind μ δ π γ ω κ α) (s : State ι μ δ γ ω κ) (owed : List κ) (k : κ) : Prop :=
  (k ∈ owed ∨ W.Owing s k) ∨
    (∃ i task f, s.tasks.get? i = some task ∧ task.flight = some f ∧ f.seq = s.newest k ∧
      W.value f.write k = W.read s.mem k) ∨
    (s.flying (s.newest k) = false ∧ W.stored s.store k = W.read s.mem k)

/-- The invariant of a run, for one key. -/
structure Sound (W : WriteBehind μ δ π γ ω κ α) (s : State ι μ δ γ ω κ) (owed : List κ) (k : κ) :
    Prop where
  numbered : W.Numbered s
  safe : W.Safe s owed k

omit [DecidableEq κ] in
/-- The key reads as it did. -/
theorem Safe.withMem {owed : List κ} {k : κ} (h : W.Safe s owed k) {m : μ}
    (hread : W.read m k = W.read s.mem k) : W.Safe { s with mem := m } owed k := by
  rcases h with hdue | ⟨i, task, f, htask, hf, hseq, hvalue⟩ | ⟨hfly, hstored⟩
  · exact .inl hdue
  · exact .inr (.inl ⟨i, task, f, htask, hf, hseq, hvalue.trans hread.symm⟩)
  · exact .inr (.inr ⟨hfly, hstored.trans hread.symm⟩)

/-! ## Writes in flight -/

/-- Every flight of `s'` is one of `s`, of the same task: the same write with
the same number. -/
def FlightsFrom (s' s : State ι μ δ γ ω κ) : Prop :=
  ∀ j task f, s'.tasks.get? j = some task → task.flight = some f →
    ∃ task' f', s.tasks.get? j = some task' ∧ task'.flight = some f' ∧ f'.seq = f.seq ∧
      f'.write = f.write

omit [DecidableEq κ] in
theorem FlightsFrom.numbered {s' : State ι μ δ γ ω κ} (h : FlightsFrom s' s)
    (hissued : s'.issued = s.issued) (hnewest : s'.newest = s.newest) (hn : W.Numbered s) :
    W.Numbered s' := by
  refine ⟨?_, ?_, ?_, ?_⟩
  · intro j task f hj hf
    obtain ⟨task', f', hj', hf', hseq, _⟩ := h j task f hj hf
    rw [← hseq, hissued]
    exact hn.issued j task' f' hj' hf'
  · intro k
    rw [hissued, hnewest]
    exact hn.newest_le k
  · intro j j' task task' f f' hj hj' hf hf' hseq
    obtain ⟨task₁, f₁, hj₁, hf₁, hseq₁, _⟩ := h j task f hj hf
    obtain ⟨task₂, f₂, hj₂, hf₂, hseq₂, _⟩ := h j' task' f' hj' hf'
    exact hn.one j j' task₁ task₂ f₁ f₂ hj₁ hj₂ hf₁ hf₂ (by rw [hseq₁, hseq₂, hseq])
  · intro j task f k hj hf hseq
    obtain ⟨task', f', hj', hf', hseq', hwrite⟩ := h j task f hj hf
    rw [← hwrite]
    exact hn.carries j task' f' k hj' hf' (by rw [hseq', hseq, hnewest])

omit [DecidableEq κ] in
/-- What was not in flight still is not. -/
theorem FlightsFrom.flying {s' : State ι μ δ γ ω κ} (h : FlightsFrom s' s) {n : ℕ}
    (hfly : s.flying n = false) : s'.flying n = false := by
  rw [← Bool.not_eq_true, flying_iff] at hfly ⊢
  rintro ⟨j, task, f, hj, hf, hseq⟩
  obtain ⟨task', f', hj', hf', hseq', _⟩ := h j task f hj hf
  exact hfly ⟨j, task', f', hj', hf', hseq'.trans hseq⟩

/-! ## Issuing a write -/

/-- The state once a callback has left the memory `m` and issued `w`. -/
def issue (W : WriteBehind μ δ π γ ω κ α) (s : State ι μ δ γ ω κ) (i : ι) (m : μ) (w : ω)
    (rest : List γ) : State ι μ δ γ ω κ :=
  { s with
    mem := m
    tasks := s.tasks.set i ⟨some { seq := s.issued + 1, write := w }, rest⟩
    issued := s.issued + 1
    newest := fun k => if k ∈ W.keys w then s.issued + 1 else s.newest k }

section Issue

variable {m : μ} {w : ω} {rest : List γ} {k : κ}

theorem advance_cons_none {c : γ} (hcall : W.call c s.mem = (m, none)) :
    W.advance s i (c :: rest) = W.advance { s with mem := m } i rest := by
  rw [WriteBehind.advance, hcall]

theorem advance_cons_some {c : γ} (hcall : W.call c s.mem = (m, some w)) :
    W.advance s i (c :: rest) = W.issue s i m w rest := by
  rw [WriteBehind.advance, hcall]
  rfl

theorem issue_get?_self : (W.issue s i m w rest).tasks.get? i =
    some ⟨some { seq := s.issued + 1, write := w }, rest⟩ :=
  Dict.get?_set_self ..

theorem issue_newest_of_mem (hk : k ∈ W.keys w) :
    (W.issue s i m w rest).newest k = s.issued + 1 :=
  if_pos hk

theorem issue_newest_of_notMem (hk : k ∉ W.keys w) :
    (W.issue s i m w rest).newest k = s.newest k :=
  if_neg hk

/-- The other tasks are as they were. -/
theorem issue_get?_of_get? (hi : s.tasks.get? i = none) {j : ι} {task : Task γ ω}
    (hj : s.tasks.get? j = some task) : (W.issue s i m w rest).tasks.get? j = some task := by
  have hji : j ≠ i := by
    rintro rfl
    rw [hi] at hj
    cases hj
  exact (Dict.get?_set_ne _ hji _).trans hj

/-- A write in flight is the new one, or was in flight before. -/
theorem flight_of_issue {j : ι} {task : Task γ ω} {f : Flight ω}
    (hj : (W.issue s i m w rest).tasks.get? j = some task) (hf : task.flight = some f) :
    (j = i ∧ f.seq = s.issued + 1 ∧ f.write = w) ∨ s.tasks.get? j = some task := by
  simp only [issue, Dict.get?_set] at hj
  split at hj
  · rename_i hji
    cases hj
    cases hf
    exact .inl ⟨hji, rfl, rfl⟩
  · exact .inr hj

theorem Numbered.issue (hn : W.Numbered s) : W.Numbered (W.issue s i m w rest) := by
  refine ⟨?_, ?_, ?_, ?_⟩
  · intro j task f hj hf
    change 0 < f.seq ∧ f.seq ≤ s.issued + 1
    rcases flight_of_issue hj hf with ⟨_, hseq, _⟩ | hold
    · omega
    · have := hn.issued j task f hold hf
      omega
  · intro k
    change _ ≤ s.issued + 1
    by_cases hk : k ∈ W.keys w
    · rw [issue_newest_of_mem hk]
    · rw [issue_newest_of_notMem hk]
      exact Nat.le_succ_of_le (hn.newest_le k)
  · intro j j' task task' f f' hj hj' hf hf' hsame
    rcases flight_of_issue hj hf with ⟨rfl, hseq, _⟩ | hold
    · rcases flight_of_issue hj' hf' with ⟨rfl, _, _⟩ | hold'
      · rfl
      · have := hn.issued j' task' f' hold' hf'
        omega
    · rcases flight_of_issue hj' hf' with ⟨rfl, hseq', _⟩ | hold'
      · have := hn.issued j task f hold hf
        omega
      · exact hn.one j j' task task' f f' hold hold' hf hf' hsame
  · intro j task f k hj hf hseq
    by_cases hk : k ∈ W.keys w
    · rw [issue_newest_of_mem hk] at hseq
      rcases flight_of_issue hj hf with ⟨_, _, hwrite⟩ | hold
      · rw [hwrite]
        exact hk
      · have := hn.issued j task f hold hf
        omega
    · rw [issue_newest_of_notMem hk] at hseq
      rcases flight_of_issue hj hf with ⟨_, hnew, _⟩ | hold
      · have := hn.newest_le k
        omega
      · exact hn.carries j task f k hold hf hseq

/-- A key the write carries: it is the newest of it, with the value in memory. -/
theorem Safe.issue_of_mem (hk : k ∈ W.keys w) (hvalue : W.value w k = W.read m k) :
    W.Safe (W.issue s i m w rest) [] k :=
  .inr (.inl ⟨i, _, _, issue_get?_self, rfl, (issue_newest_of_mem hk).symm, hvalue⟩)

/-- A key it does not carry is as safe as it was. -/
theorem Safe.issue_of_notMem (h : W.Safe s (rest.flatMap W.owes) k) (hn : W.Numbered s)
    (hi : s.tasks.get? i = none) (hk : k ∉ W.keys w) (hread : W.read m k = W.read s.mem k) :
    W.Safe (W.issue s i m w rest) [] k := by
  rcases h with (hdue | ⟨j, task, hj, hdue⟩) | ⟨j, task, f, hj, hf, hseq, hvalue⟩ |
    ⟨hfly, hstored⟩
  · exact .inl (.inr ⟨i, _, issue_get?_self, hdue⟩)
  · exact .inl (.inr ⟨j, task, issue_get?_of_get? hi hj, hdue⟩)
  · exact .inr (.inl ⟨j, task, f, issue_get?_of_get? hi hj, hf,
      hseq.trans (issue_newest_of_notMem hk).symm, hvalue.trans hread.symm⟩)
  · refine .inr (.inr ⟨?_, hstored.trans hread.symm⟩)
    rw [issue_newest_of_notMem hk]
    rw [← Bool.not_eq_true, flying_iff] at hfly ⊢
    rintro ⟨j, task, f, hj, hf, hseq⟩
    rcases flight_of_issue hj hf with ⟨_, hnew, _⟩ | hold
    · have := hn.newest_le k
      omega
    · exact hfly ⟨j, task, f, hold, hf, hseq⟩

end Issue

/-- **A task goes on**: the keys it owes are written, or still owed. -/
theorem Sound.advance {cs : List γ} {k : κ} (h : W.Sound s (cs.flatMap W.owes) k)
    (hi : s.tasks.get? i = none) : W.Sound (W.advance s i cs) [] k := by
  induction cs generalizing s with
  | nil => exact h
  | cons c rest ih =>
      have hn := h.numbered
      have howes := W.call_owes c s.mem k
      -- a key the callback does not write is owed by the others, if at all
      have hlater : (∀ w, (W.call c s.mem).2 = some w → k ∉ W.keys w) →
          W.Safe s (rest.flatMap W.owes) k := by
        intro hoff
        rcases h.safe with (hdue | hdue) | hsafe
        · rcases List.mem_append.mp hdue with hc | hrest
          · obtain ⟨w, hw, hk⟩ := howes hc
            exact absurd hk (hoff w hw)
          · exact .inl (.inl hrest)
        · exact .inl (.inr hdue)
        · exact .inr hsafe
      have hvalue := W.call_value c s.mem
      have hread := W.call_off c s.mem k
      generalize hcall : W.call c s.mem = r at hlater hvalue hread
      obtain ⟨m, _ | w⟩ := r
      · have hoff : ∀ w : ω, none = some w → k ∉ W.keys w := fun w hw => by cases hw
        rw [advance_cons_none hcall]
        exact ih ⟨⟨hn.issued, hn.newest_le, hn.one, hn.carries⟩,
          (hlater hoff).withMem (hread hoff)⟩ hi
      · rw [advance_cons_some hcall]
        refine ⟨hn.issue, ?_⟩
        by_cases hk : k ∈ W.keys w
        · exact Safe.issue_of_mem hk (hvalue w rfl k hk)
        · have hoff : ∀ w', some w = some w' → k ∉ W.keys w' := fun w' hw => by cases hw; exact hk
          exact (hlater hoff).issue_of_notMem hn hi hk (hread hoff)

/-- **An operation**: what it changes, it owes. -/
theorem Sound.start {op : π} {k : κ} (h : W.Sound s [] k) (howed : W.Owed op s.mem) :
    W.Sound (W.step attempts s (.start i op)) [] k := by
  simp only [WriteBehind.step]
  split
  · exact h
  · rename_i hi
    have hn := h.numbered
    refine Sound.advance ⟨⟨hn.issued, hn.newest_le, hn.one, hn.carries⟩, ?_⟩ (by simpa using hi)
    by_cases hk : k ∈ (W.start op s.mem).2.flatMap W.owes
    · exact .inl (.inl hk)
    · refine Safe.withMem ?_ (howed k hk)
      rcases h.safe with (hdue | hdue) | hsafe
      · cases hdue
      · exact .inl (.inr hdue)
      · exact .inr hsafe

/-- A task that waits has its write tried again. -/
theorem Sound.retry {k : κ} (h : W.Sound s [] k) :
    W.Sound (W.step attempts s (.retry i)) [] k := by
  simp only [WriteBehind.step]
  split
  · rename_i f rest hi
    split
    · -- each task has a flight with the same number and write as before
      have hback : FlightsFrom { s with
          tasks := s.tasks.set i ⟨some { f with attempt := f.attempt + 1 }, rest⟩ } s := by
        intro j task g hj hg
        rw [Dict.get?_set] at hj
        split at hj
        · rename_i he
          cases hj
          cases hg
          exact ⟨_, f, he ▸ hi, rfl, rfl, rfl⟩
        · exact ⟨task, g, hj, hg, rfl, rfl⟩
      have hforth : ∀ j task, s.tasks.get? j = some task →
          ∃ task', (s.tasks.set i ⟨some { f with attempt := f.attempt + 1 }, rest⟩).get? j =
            some task' ∧ task'.rest = task.rest ∧ ∀ g, task.flight = some g →
              ∃ g', task'.flight = some g' ∧ g'.seq = g.seq ∧ g'.write = g.write := by
        intro j task hj
        by_cases he : j = i
        · subst he
          rw [hi] at hj
          cases hj
          exact ⟨_, Dict.get?_set_self .., rfl, fun g hg => by cases hg; exact ⟨_, rfl, rfl, rfl⟩⟩
        · exact ⟨task, (Dict.get?_set_ne _ he _).trans hj, rfl, fun g hg => ⟨g, hg, rfl, rfl⟩⟩
      refine ⟨FlightsFrom.numbered hback rfl rfl h.numbered, ?_⟩
      rcases h.safe with (hdue | ⟨j, task, hj, hdue⟩) | ⟨j, task, g, hj, hg, hseq, hval⟩ |
        ⟨hfly, hstored⟩
      · cases hdue
      · obtain ⟨task', hj', hrest, _⟩ := hforth j task hj
        exact .inl (.inr ⟨j, task', hj', by rw [hrest]; exact hdue⟩)
      · obtain ⟨task', hj', _, hflight⟩ := hforth j task hj
        obtain ⟨g', hg', hseq', hwrite⟩ := hflight g hg
        exact .inr (.inl ⟨j, task', g', hj', hg', hseq'.trans hseq, by rw [hwrite]; exact hval⟩)
      · exact .inr (.inr ⟨FlightsFrom.flying hback hfly, hstored⟩)
    · exact h
  · exact h

/-! ### A write that lands -/

section Land

variable {f : Flight ω} {rest : List γ}

omit [DecidableEq κ] in
/-- The task whose write has landed has none in flight, the others are as they
were. -/
theorem flight_of_landed {j : ι} {task : Task γ ω} {g : Flight ω}
    (hj : (s.tasks.set i ⟨none, rest⟩).get? j = some task) (hg : task.flight = some g) :
    j ≠ i ∧ s.tasks.get? j = some task := by
  rw [Dict.get?_set] at hj
  split at hj
  · cases hj
    cases hg
  · rename_i he
    exact ⟨he, hj⟩

omit [DecidableEq κ] in
/-- What is in flight besides the write that lands still is. -/
theorem still_of_landed (hi : s.tasks.get? i = some ⟨some f, rest⟩) {j : ι} {task : Task γ ω}
    {g : Flight ω} (hj : s.tasks.get? j = some task) (hg : task.flight = some g)
    (hne : g.seq ≠ f.seq) : (s.tasks.set i ⟨none, rest⟩).get? j = some task := by
  rw [Dict.get?_set_ne _ _]
  · exact hj
  · rintro rfl
    rw [hi] at hj
    cases hj
    cases hg
    exact hne rfl

omit [DecidableEq κ] in
/-- A key whose newest write has landed is of no write that lands in order. -/
theorem notMem_keys_of_landed {k : κ} (hi : s.tasks.get? i = some ⟨some f, rest⟩)
    (hfly : s.flying (s.newest k) = false) (hok : W.LandsInOrder s i) : k ∉ W.keys f.write := by
  intro hk
  rcases hok _ hi f rfl k hk with hnew | hnew
  · rw [← Bool.not_eq_true, flying_iff] at hfly
    exact hfly ⟨i, _, f, hi, rfl, hnew.symm⟩
  · rw [hfly] at hnew
    cases hnew

end Land

/-- **A write lands**: it is the newest of each of its keys, or the newest is
still to land. -/
theorem Sound.land {k : κ} (h : W.Sound s [] k)
    (hok : W.InOrder s (.land i : Event ι π)) : W.Sound (W.step attempts s (.land i)) [] k := by
  simp only [WriteBehind.step]
  split
  · rename_i f rest hi
    have hn := h.numbered
    have hfrom : FlightsFrom { s with
        store := W.land f.write s.store
        tasks := s.tasks.set i ⟨none, rest⟩ } s :=
      fun j task g hj hg => ⟨task, g, (flight_of_landed hj hg).2, hg, rfl, rfl⟩
    refine ⟨hfrom.numbered rfl rfl hn, ?_⟩
    rcases h.safe with (hdue | ⟨j, task, hj, hdue⟩) | ⟨j, task, g, hj, hg, hseq, hval⟩ |
      ⟨hfly, hstored⟩
    · cases hdue
    · by_cases he : j = i
      · subst he
        rw [hi] at hj
        cases hj
        exact .inl (.inr ⟨j, _, Dict.get?_set_self .., hdue⟩)
      · exact .inl (.inr ⟨j, task, (Dict.get?_set_ne _ he _).trans hj, hdue⟩)
    · by_cases hsame : g.seq = f.seq
      · -- the newest write of the key lands
        have hji : j = i := hn.one j i task _ g f hj hi hg rfl hsame
        subst hji
        rw [hi] at hj
        cases hj
        cases hg
        refine .inr (.inr ⟨?_, ?_⟩)
        · rw [← Bool.not_eq_true, flying_iff]
          rintro ⟨j', task', g', hj', hg', hseq'⟩
          obtain ⟨hne, hold⟩ := flight_of_landed hj' hg'
          exact hne (hn.one j' j task' _ g' f hold hi hg' rfl (hseq'.trans hseq.symm))
        · rw [W.stored_land f.write s.store k (hn.carries j _ f k hi rfl hseq)]
          exact hval
      · exact .inr (.inl ⟨j, task, g, still_of_landed hi hj hg hsame, hg, hseq, hval⟩)
    · -- the newest write has landed before: this one does not carry the key
      have hk := notMem_keys_of_landed hi hfly hok
      exact .inr (.inr ⟨hfrom.flying hfly,
        (W.stored_land_off f.write s.store k hk).trans hstored⟩)
  · exact h

/-- A task whose write has landed goes on. -/
theorem Sound.resume {k : κ} (h : W.Sound s [] k) :
    W.Sound (W.step attempts s (.resume i)) [] k := by
  simp only [WriteBehind.step]
  split
  · rename_i rest hi
    -- the task that resumes had landed, so no flight is lost with it
    have hback : ∀ j task, (s.tasks.erase i).get? j = some task → s.tasks.get? j = some task := by
      intro j task hj
      rw [Dict.get?_erase] at hj
      split at hj
      · cases hj
      · exact hj
    have hforth : ∀ j task g, s.tasks.get? j = some task → task.flight = some g →
        (s.tasks.erase i).get? j = some task := by
      intro j task g hj hg
      rw [Dict.get?_erase, if_neg]
      · exact hj
      · rintro rfl
        rw [hi] at hj
        cases hj
        cases hg
    have hfrom : FlightsFrom { s with tasks := s.tasks.erase i } s :=
      fun j task g hj hg => ⟨task, g, hback j task hj, hg, rfl, rfl⟩
    refine Sound.advance ⟨hfrom.numbered rfl rfl h.numbered, ?_⟩ (by simp [Dict.get?_erase])
    rcases h.safe with (hdue | ⟨j, task, hj, hdue⟩) | ⟨j, task, g, hj, hg, hseq, hval⟩ |
      ⟨hfly, hstored⟩
    · cases hdue
    · by_cases he : j = i
      · subst he
        rw [hi] at hj
        cases hj
        exact .inl (.inl hdue)
      · refine .inl (.inr ⟨j, task, ?_, hdue⟩)
        rw [Dict.get?_erase, if_neg he]
        exact hj
    · exact .inr (.inl ⟨j, task, g, hforth j task g hj hg, hg, hseq, hval⟩)
    · exact .inr (.inr ⟨hfrom.flying hfly, hstored⟩)
  · exact h

/-- **The step rule.** -/
theorem Sound.step {k : κ} (h : W.Sound s [] k) (e : Event ι π) (hok : W.InOrder s e) :
    W.Sound (W.step attempts s e) [] k := by
  cases e with
  | start i op => exact h.start hok
  | retry i => exact h.retry
  | land i => exact h.land hok
  | resume i => exact h.resume

omit [DecidableEq κ] in
theorem sound_init {m : μ} {d : δ} {k : κ} (h : W.stored d k = W.read m k) :
    W.Sound ({ mem := m, store := d } : State ι μ δ γ ω κ) [] k := by
  refine ⟨⟨?_, fun _ => le_refl 0, ?_, ?_⟩, .inr (.inr ⟨rfl, h⟩)⟩
  · intro i task f hi
    cases hi
  · intro i j task task' f f' hi
    cases hi
  · intro i task f k' hi
    cases hi

/-- **The run rule**: in a run in which no write lands after a newer one, the
store agrees on the key whenever no task is left. -/
theorem stored_eq_read {m : μ} {d : δ} {k : κ} {es : List (Event ι π)}
    (hrun : Runs.Guarded (W.step attempts) W.InOrder
      ({ mem := m, store := d } : State ι μ δ γ ω κ) es)
    (h : W.stored d k = W.read m k)
    (hdone : ∀ i, (Runs.run (W.step attempts) ({ mem := m, store := d } : State ι μ δ γ ω κ)
      es).tasks.get? i = none) :
    let s := Runs.run (W.step attempts) ({ mem := m, store := d } : State ι μ δ γ ω κ) es
    W.stored s.store k = W.read s.mem k := by
  intro s
  have hsound : W.Sound s [] k :=
    hrun.inv (I := fun s => W.Sound s [] k) (fun s e h hok => h.step e hok) (sound_init h)
  rcases hsound.safe with (hdue | ⟨i, task, hi, _⟩) | ⟨i, task, f, hi, _⟩ | ⟨_, hstored⟩
  · cases hdue
  · rw [hdone i] at hi
    cases hi
  · rw [hdone i] at hi
    cases hi
  · exact hstored

end Safe

end WriteBehind
