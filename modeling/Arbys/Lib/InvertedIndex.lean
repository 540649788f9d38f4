import Arbys.Lib.Dict

/-!
# Inverted indexes

A collection of entries and, for each key, the set of the entries that have
it. The index is kept up by what is at hand: an entry that is put adds itself
under its own keys, one that is taken out leaves the keys of the entry that is
there. Putting over an entry that is already there leaves the index exact
exactly when the old keys are among the new ones (`exact_put_iff`).
-/

universe u v w

namespace InvertedIndex

variable {κ : Type u} {β : Type v} {ν : Type w} [DecidableEq κ] [DecidableEq β]

/-! ## Dictionaries of sets -/

/-- `index[b].add(k)`. -/
def add (index : Dict β (List κ)) (b : β) (k : κ) : Dict β (List κ) :=
  index.set b ((index.getD b []).insert k)

/-- `index[b].discard(k)`. -/
def discard (index : Dict β (List κ)) (b : β) (k : κ) : Dict β (List κ) :=
  index.set b ((index.getD b []).erase k)

/-- Add under each of some keys. -/
def addAll (index : Dict β (List κ)) (bs : List β) (k : κ) : Dict β (List κ) :=
  bs.foldl (fun index b => add index b k) index

/-- Discard under each of some keys. -/
def discardAll (index : Dict β (List κ)) (bs : List β) (k : κ) : Dict β (List κ) :=
  bs.foldl (fun index b => discard index b k) index

/-- The lists are sets. -/
def Sets (index : Dict β (List κ)) : Prop := ∀ b, (index.getD b []).Nodup

variable {index : Dict β (List κ)} {bs : List β} {b : β} {j k : κ}

theorem mem_add {c : β} :
    j ∈ (add index c k).getD b [] ↔ j ∈ index.getD b [] ∨ b = c ∧ j = k := by
  rw [add, Dict.getD_set]
  by_cases hb : b = c
  · rw [if_pos hb, List.mem_insert_iff, hb]
    simp [or_comm]
  · simp [hb]

theorem Sets.add (h : Sets index) (c : β) (k : κ) : Sets (add index c k) := by
  intro b
  rw [InvertedIndex.add, Dict.getD_set]
  split
  · exact List.Nodup.insert (h c)
  · exact h b

theorem mem_discard (h : Sets index) {c : β} :
    j ∈ (discard index c k).getD b [] ↔ j ∈ index.getD b [] ∧ ¬ (b = c ∧ j = k) := by
  rw [discard, Dict.getD_set]
  by_cases hb : b = c
  · rw [if_pos hb, (h c).mem_erase_iff, hb]
    simp [and_comm]
  · simp [hb]

theorem Sets.discard (h : Sets index) (c : β) (k : κ) : Sets (discard index c k) := by
  intro b
  rw [InvertedIndex.discard, Dict.getD_set]
  split
  · exact (h c).erase k
  · exact h b

theorem mem_addAll :
    j ∈ (addAll index bs k).getD b [] ↔ j ∈ index.getD b [] ∨ b ∈ bs ∧ j = k := by
  induction bs generalizing index with
  | nil => simp [addAll]
  | cons c bs ih =>
      rw [addAll, List.foldl_cons, ← addAll, ih, mem_add, List.mem_cons, or_and_right, or_assoc]

theorem Sets.addAll (h : Sets index) (bs : List β) (k : κ) : Sets (addAll index bs k) := by
  induction bs generalizing index with
  | nil => exact h
  | cons c bs ih => exact ih (h.add c k)

theorem mem_discardAll (h : Sets index) :
    j ∈ (discardAll index bs k).getD b [] ↔ j ∈ index.getD b [] ∧ ¬ (b ∈ bs ∧ j = k) := by
  induction bs generalizing index with
  | nil => simp [discardAll]
  | cons c bs ih =>
      have hrest := ih (h.discard c k)
      rw [discardAll, List.foldl_cons, ← discardAll, hrest, mem_discard h, List.mem_cons,
        or_and_right, not_or, and_assoc]

theorem Sets.discardAll (h : Sets index) (bs : List β) (k : κ) :
    Sets (discardAll index bs k) := by
  induction bs generalizing index with
  | nil => exact h
  | cons c bs ih => exact ih (h.discard c k)

/-! ## The index of a collection -/

/-- Under every key are the entries that have it, each once. -/
structure Exact (keysOf : ν → List β) (entries : Dict κ ν) (index : Dict β (List κ)) :
    Prop where
  sets : Sets index
  mem_iff : ∀ b k, k ∈ index.getD b [] ↔ ∃ x, entries.get? k = some x ∧ b ∈ keysOf x

section Collection

variable {keysOf : ν → List β} {entries : Dict κ ν} {x : ν}

theorem exact_empty :
    Exact keysOf (Dict.empty : Dict κ ν) (Dict.empty : Dict β (List κ)) :=
  ⟨fun _ => List.nodup_nil, fun _ _ => by simp⟩

/-- **Taking an entry out**, by its own keys. -/
theorem Exact.erase (h : Exact keysOf entries index) (hx : entries.get? k = some x) :
    Exact keysOf (entries.erase k) (InvertedIndex.discardAll index (keysOf x) k) := by
  refine ⟨h.sets.discardAll _ _, fun b j => ?_⟩
  rw [mem_discardAll h.sets, h.mem_iff, Dict.get?_erase]
  by_cases hj : j = k
  · rw [if_pos hj, hj, hx]
    simp
  · rw [if_neg hj]
    simp [hj]

/-- **Putting an entry** leaves the index exact exactly when the keys of the
entry it replaces, if any, are keys of it. -/
theorem exact_put_iff (h : Exact keysOf entries index) (k : κ) (x : ν) :
    Exact keysOf (entries.set k x) (addAll index (keysOf x) k) ↔
      ∀ old, entries.get? k = some old → ∀ b ∈ keysOf old, b ∈ keysOf x := by
  constructor
  · intro hput old hold b hb
    -- the old entry is still under its keys
    have hstale : k ∈ (addAll index (keysOf x) k).getD b [] :=
      mem_addAll.mpr (Or.inl ((h.mem_iff b k).mpr ⟨old, hold, hb⟩))
    obtain ⟨y, hy, hby⟩ := (hput.mem_iff b k).mp hstale
    rw [Dict.get?_set_self] at hy
    cases hy
    exact hby
  · intro hkeeps
    refine ⟨h.sets.addAll _ _, fun b j => ?_⟩
    rw [mem_addAll, h.mem_iff, Dict.get?_set]
    by_cases hj : j = k
    · rw [if_pos hj]
      constructor
      · rintro (⟨old, hold, hb⟩ | ⟨hb, -⟩)
        · exact ⟨x, rfl, hkeeps old (hj ▸ hold) b hb⟩
        · exact ⟨x, rfl, hb⟩
      · rintro ⟨y, hy, hb⟩
        cases hy
        exact Or.inr ⟨hb, hj⟩
    · rw [if_neg hj]
      simp [hj]

end Collection

end InvertedIndex
