import Mathlib.Data.List.Nodup
import Mathlib.Data.Rat.Defs
import Mathlib.Algebra.BigOperators.Group.Finset.Basic
import Mathlib.Algebra.BigOperators.Group.List.Basic
import Mathlib.Algebra.Order.BigOperators.Group.Finset
import Mathlib.Algebra.Group.Basic
import Mathlib.Tactic.Abel

/-!
# Insertion-ordered dictionaries

A `Dict κ ν` is an association list whose keys are pairwise distinct: the
reading of a scripting language's insertion-ordered dictionary. Writing an
existing key replaces its value in place, writing a new key appends, so the
order in which a loop visits the entries is the order of first insertion.

Two groups of facts carry the developments on top: the read-after-write
equations (`get?_set`, `get?_erase`, `get?_mapVal`), and the sums over a
dictionary's entries. A sum is compared key by key: `sumBy_sub_sumBy` says
that two dictionaries whose contributions agree off one key differ by what
that key contributes.
-/

universe u v w x

/-- An association list with pairwise distinct keys, in insertion order. -/
structure Dict (κ : Type u) (ν : Type v) where
  entries : List (κ × ν)
  nodup : (entries.map Prod.fst).Nodup

namespace Dict

variable {κ : Type u} {ν : Type v} {μ : Type w} [DecidableEq κ]

instance [DecidableEq ν] : DecidableEq (Dict κ ν) := fun d e =>
  decidable_of_iff (d.entries = e.entries)
    ⟨fun h => by cases d; cases e; cases h; rfl, fun h => by rw [h]⟩

/-! ## The entry-list operations -/

/-- First value stored under `k`. -/
def find (k : κ) : List (κ × ν) → Option ν
  | [] => none
  | (j, x) :: rest => if j = k then some x else find k rest

/-- Replace the value under `k` in place, or append. -/
def put (k : κ) (x : ν) : List (κ × ν) → List (κ × ν)
  | [] => [(k, x)]
  | (j, y) :: rest => if j = k then (k, x) :: rest else (j, y) :: put k x rest

/-- Remove the entry under `k`. -/
def drop (k : κ) (l : List (κ × ν)) : List (κ × ν) :=
  l.filter fun e => e.1 ≠ k

theorem mem_keys_put {k j : κ} {x : ν} {l : List (κ × ν)} :
    j ∈ (put k x l).map Prod.fst ↔ j = k ∨ j ∈ l.map Prod.fst := by
  induction l with
  | nil => simp [put]
  | cons e rest ih =>
      obtain ⟨i, y⟩ := e
      by_cases hi : i = k
      · simp [put, hi]
      · simp only [put, if_neg hi, List.map_cons, List.mem_cons, ih]
        tauto

theorem nodup_put {k : κ} {x : ν} {l : List (κ × ν)}
    (h : (l.map Prod.fst).Nodup) : ((put k x l).map Prod.fst).Nodup := by
  induction l with
  | nil => simp [put]
  | cons e rest ih =>
      obtain ⟨i, y⟩ := e
      obtain ⟨hi, hrest⟩ := List.nodup_cons.mp h
      by_cases hik : i = k
      · subst hik
        simpa [put] using h
      · simp only [put, if_neg hik, List.map_cons, List.nodup_cons]
        refine ⟨fun hmem => ?_, ih hrest⟩
        rcases mem_keys_put.mp hmem with h' | h'
        · exact hik h'
        · exact hi h'

theorem find_put (k j : κ) (x : ν) (l : List (κ × ν)) :
    find j (put k x l) = if j = k then some x else find j l := by
  induction l with
  | nil => by_cases h : j = k <;> simp [put, find, h, Ne.symm]
  | cons e rest ih =>
      obtain ⟨i, y⟩ := e
      by_cases hik : i = k
      · subst hik
        by_cases hij : j = i
        · simp [put, find, hij]
        · simp [put, find, hij, Ne.symm hij]
      · simp only [put, if_neg hik, find, ih]
        by_cases hij : i = j
        · subst hij
          simp [hik]
        · simp [hij]

theorem find_filter_ne (k j : κ) (l : List (κ × ν)) :
    find j (drop k l) = if j = k then none else find j l := by
  induction l with
  | nil => simp [drop, find]
  | cons e rest ih =>
      obtain ⟨i, y⟩ := e
      simp only [drop] at ih ⊢
      by_cases hik : i = k
      · subst hik
        simp only [ne_eq, not_true_eq_false, decide_false, Bool.false_eq_true,
          not_false_eq_true, List.filter_cons_of_neg, ih, find]
        by_cases hij : j = i
        · simp [hij]
        · simp [hij, Ne.symm hij]
      · rw [List.filter_cons_of_pos (by simpa using hik)]
        simp only [find, ih]
        by_cases hij : i = j
        · subst hij
          simp [hik]
        · simp [hij]

theorem find_isSome_iff {k : κ} {l : List (κ × ν)} :
    (find k l).isSome ↔ k ∈ l.map Prod.fst := by
  induction l with
  | nil => simp [find]
  | cons e rest ih =>
      obtain ⟨i, y⟩ := e
      by_cases hik : i = k
      · simp [find, hik]
      · simp [find, hik, ih, Ne.symm hik]

theorem find_eq_some_iff {k : κ} {x : ν} {l : List (κ × ν)}
    (h : (l.map Prod.fst).Nodup) : find k l = some x ↔ (k, x) ∈ l := by
  induction l with
  | nil => simp [find]
  | cons e rest ih =>
      obtain ⟨i, y⟩ := e
      obtain ⟨hi, hrest⟩ := List.nodup_cons.mp h
      by_cases hik : i = k
      · subst hik
        have hno : (i, x) ∉ rest := fun hm => hi (List.mem_map.mpr ⟨_, hm, rfl⟩)
        simp [find, hno, eq_comm]
      · simp [find, hik, Ne.symm hik, ih hrest]

omit [DecidableEq κ] in
theorem keys_filterMap_sublist (f : κ → ν → Option μ) (l : List (κ × ν)) :
    (l.filterMap fun e => ((f e.1 e.2).map fun x => (e.1, x)).map Prod.fst).Sublist
      (l.filterMap (some ∘ Prod.fst)) := by
  induction l with
  | nil => exact List.Sublist.slnil
  | cons e rest ih =>
      obtain ⟨i, y⟩ := e
      cases hf : f i y with
      | none => simpa [hf] using ih.cons i
      | some x => simpa [hf] using ih.cons_cons i

/-! ## The dictionary operations -/

/-- `{}`. -/
def empty : Dict κ ν := ⟨[], List.nodup_nil⟩

instance : Inhabited (Dict κ ν) := ⟨empty⟩

/-- `d.get(k)`. -/
def get? (d : Dict κ ν) (k : κ) : Option ν := find k d.entries

/-- `d.get(k, x)`. -/
def getD (d : Dict κ ν) (k : κ) (x : ν) : ν := (d.get? k).getD x

/-- `d[k] = x`. -/
def set (d : Dict κ ν) (k : κ) (x : ν) : Dict κ ν :=
  ⟨put k x d.entries, nodup_put d.nodup⟩

/-- `d.pop(k, None)`. -/
def erase (d : Dict κ ν) (k : κ) : Dict κ ν :=
  ⟨drop k d.entries, (List.filter_sublist.map Prod.fst).nodup d.nodup⟩

/-- `list(d)`. -/
def keys (d : Dict κ ν) : List κ := d.entries.map Prod.fst

/-- `list(d.values())`. -/
def values (d : Dict κ ν) : List ν := d.entries.map Prod.snd

/-- Rewrite every value, keeping the keys and their order. -/
def mapVal (f : κ → ν → μ) (d : Dict κ ν) : Dict κ μ :=
  ⟨d.entries.map fun e => (e.1, f e.1 e.2), by
    simpa [List.map_map, Function.comp_def] using d.nodup⟩

/-- A dictionary comprehension over `d.items()`: the keys `f` keeps, in their
order. -/
def filterMapVal (f : κ → ν → Option μ) (d : Dict κ ν) : Dict κ μ :=
  ⟨d.entries.filterMap fun e => (f e.1 e.2).map fun x => (e.1, x), by
    refine List.Nodup.sublist ?_ d.nodup
    rw [List.map_filterMap, ← List.filterMap_eq_map]
    exact keys_filterMap_sublist f d.entries⟩

/-- The entries whose keys satisfy `p`, in their order. -/
def filterKeys (p : κ → Bool) (d : Dict κ ν) : Dict κ ν :=
  ⟨d.entries.filter fun e => p e.1, (List.filter_sublist.map Prod.fst).nodup d.nodup⟩

/-- `for k in l: del d[k]`. -/
def eraseAll (d : Dict κ ν) (l : List κ) : Dict κ ν := l.foldl erase d

/-- `d.update(l)`: write a list of pairs left to right. -/
def setAll (d : Dict κ ν) (l : List (κ × ν)) : Dict κ ν :=
  l.foldl (fun d e => d.set e.1 e.2) d

/-- A dictionary display. -/
def ofList (l : List (κ × ν)) : Dict κ ν := empty.setAll l

@[simp] theorem get?_empty (k : κ) : (empty : Dict κ ν).get? k = none := rfl

omit [DecidableEq κ] in
@[simp] theorem keys_empty : (empty : Dict κ ν).keys = [] := rfl

theorem get?_set (d : Dict κ ν) (k j : κ) (x : ν) :
    (d.set k x).get? j = if j = k then some x else d.get? j :=
  find_put k j x d.entries

@[simp] theorem get?_set_self (d : Dict κ ν) (k : κ) (x : ν) :
    (d.set k x).get? k = some x := by
  rw [get?_set, if_pos rfl]

theorem get?_set_ne (d : Dict κ ν) {k j : κ} (h : j ≠ k) (x : ν) :
    (d.set k x).get? j = d.get? j := by
  rw [get?_set, if_neg h]

theorem get?_erase (d : Dict κ ν) (k j : κ) :
    (d.erase k).get? j = if j = k then none else d.get? j :=
  find_filter_ne k j d.entries

theorem getD_set (d : Dict κ ν) (k j : κ) (x y : ν) :
    (d.set k x).getD j y = if j = k then x else d.getD j y := by
  rw [getD, getD, get?_set]
  split <;> rfl

@[simp] theorem getD_set_self (d : Dict κ ν) (k : κ) (x y : ν) :
    (d.set k x).getD k y = x := by
  rw [getD_set, if_pos rfl]

theorem getD_set_ne (d : Dict κ ν) {k j : κ} (h : j ≠ k) (x y : ν) :
    (d.set k x).getD j y = d.getD j y := by
  rw [getD_set, if_neg h]

@[simp] theorem getD_empty (k : κ) (y : ν) : (empty : Dict κ ν).getD k y = y := rfl

theorem getD_of_get? {d : Dict κ ν} {k : κ} {x : ν} (h : d.get? k = some x) (y : ν) :
    d.getD k y = x := by
  rw [getD, h, Option.getD_some]

theorem getD_of_get?_none {d : Dict κ ν} {k : κ} (h : d.get? k = none) (y : ν) :
    d.getD k y = y := by
  rw [getD, h, Option.getD_none]

theorem mem_keys_iff {d : Dict κ ν} {k : κ} : k ∈ d.keys ↔ (d.get? k).isSome :=
  find_isSome_iff.symm

theorem mem_entries_iff {d : Dict κ ν} {k : κ} {x : ν} :
    (k, x) ∈ d.entries ↔ d.get? k = some x :=
  (find_eq_some_iff d.nodup).symm

theorem mem_keys_set {d : Dict κ ν} {k j : κ} {x : ν} :
    j ∈ (d.set k x).keys ↔ j = k ∨ j ∈ d.keys :=
  mem_keys_put

@[simp] theorem setAll_nil (d : Dict κ ν) : d.setAll [] = d := rfl

@[simp] theorem setAll_cons (d : Dict κ ν) (e : κ × ν) (l : List (κ × ν)) :
    d.setAll (e :: l) = (d.set e.1 e.2).setAll l := rfl

/-- A key that is not written keeps its value. -/
theorem get?_setAll_of_notMem {d : Dict κ ν} {l : List (κ × ν)} {k : κ}
    (h : k ∉ l.map Prod.fst) : (d.setAll l).get? k = d.get? k := by
  induction l generalizing d with
  | nil => rfl
  | cons e l ih =>
      obtain ⟨h1, h2⟩ := not_or.mp (mt List.mem_cons.mpr h)
      rw [setAll_cons, ih h2, get?_set_ne _ h1]

/-- Where the keys written are distinct, a key written has the value written. -/
theorem get?_setAll_of_mem {d : Dict κ ν} {l : List (κ × ν)} (hl : (l.map Prod.fst).Nodup)
    {k : κ} {x : ν} (h : (k, x) ∈ l) : (d.setAll l).get? k = some x := by
  induction l generalizing d with
  | nil => cases h
  | cons e l ih =>
      obtain ⟨he, hrest⟩ := List.nodup_cons.mp hl
      rw [setAll_cons]
      rcases List.mem_cons.mp h with rfl | h
      · rw [get?_setAll_of_notMem he, get?_set_self]
      · exact ih hrest h

/-- A key that is set reads the same whatever the dictionary was. -/
theorem get?_setAll_congr {l : List (κ × ν)} {k : κ} (h : k ∈ l.map Prod.fst) (d e : Dict κ ν) :
    (d.setAll l).get? k = (e.setAll l).get? k := by
  induction l generalizing d e with
  | nil => cases h
  | cons x l ih =>
      rw [setAll_cons, setAll_cons]
      by_cases hk : k ∈ l.map Prod.fst
      · exact ih hk _ _
      · rw [get?_setAll_of_notMem hk, get?_setAll_of_notMem hk]
        rcases List.mem_cons.mp h with rfl | h
        · rw [get?_set_self, get?_set_self]
        · exact absurd h hk

/-- What a list of writes leaves under a key. -/
def lastWritten (k : κ) (l : List (κ × ν)) : Option ν :=
  (l.filter fun e => e.1 = k).getLast?.map Prod.snd

theorem lastWritten_cons (k : κ) (e : κ × ν) (l : List (κ × ν)) :
    lastWritten k (e :: l) = (lastWritten k l).or (if e.1 = k then some e.2 else none) := by
  unfold lastWritten
  rw [List.filter_cons]
  by_cases he : e.1 = k
  · rw [if_pos (decide_eq_true he), if_pos he, List.getLast?_cons]
    cases (l.filter fun e => e.1 = k).getLast? <;> rfl
  · rw [if_neg (by simpa using he), if_neg he, Option.or_none]

theorem mem_of_lastWritten {k : κ} {x : ν} {l : List (κ × ν)} (h : lastWritten k l = some x) :
    (k, x) ∈ l := by
  obtain ⟨e, he, rfl⟩ := Option.map_eq_some_iff.mp h
  obtain ⟨hmem, hk⟩ := List.mem_filter.mp (List.mem_of_getLast? he)
  rw [← of_decide_eq_true hk]
  exact hmem

theorem lastWritten_eq_none_iff {k : κ} {l : List (κ × ν)} :
    lastWritten k l = none ↔ ∀ e ∈ l, e.1 ≠ k := by
  simp [lastWritten]

/-- **Written one over the other**, the last value of a key is what stays. -/
theorem get?_setAll (d : Dict κ ν) (l : List (κ × ν)) (k : κ) :
    (d.setAll l).get? k = (lastWritten k l).or (d.get? k) := by
  induction l generalizing d with
  | nil => rfl
  | cons e l ih =>
      rw [setAll_cons, ih, get?_set, lastWritten_cons]
      by_cases he : k = e.1
      · rw [if_pos he, if_pos he.symm]
        cases lastWritten k l <;> rfl
      · rw [if_neg he, if_neg (Ne.symm he), Option.or_none]

theorem get?_ofList (l : List (κ × ν)) (k : κ) : (ofList l).get? k = lastWritten k l := by
  rw [ofList, get?_setAll, get?_empty, Option.or_none]

theorem get?_mapVal (f : κ → ν → μ) (d : Dict κ ν) (k : κ) :
    (d.mapVal f).get? k = (d.get? k).map (f k) := by
  obtain ⟨l, hl⟩ := d
  simp only [get?, mapVal]
  clear hl
  induction l with
  | nil => rfl
  | cons e rest ih =>
      obtain ⟨i, y⟩ := e
      by_cases hik : i = k
      · subst hik
        simp [find]
      · simp [find, hik, ih]

/-- What a comprehension stores under a key is what it makes of the key's
value. -/
theorem get?_filterMapVal (f : κ → ν → Option μ) (d : Dict κ ν) (k : κ) :
    (d.filterMapVal f).get? k = (d.get? k).bind (f k) := by
  obtain ⟨l, hl⟩ := d
  simp only [get?, filterMapVal]
  induction l with
  | nil => rfl
  | cons e rest ih =>
      obtain ⟨i, y⟩ := e
      obtain ⟨hi, hrest⟩ := List.nodup_cons.mp hl
      have ih := ih hrest
      by_cases hik : i = k
      · subst hik
        have hnone : find i rest = none := by
          rw [← Option.not_isSome_iff_eq_none, find_isSome_iff]
          exact hi
        rw [hnone, Option.bind_none] at ih
        cases hf : f i y <;> simp [find, hf, ih]
      · cases hf : f i y <;> simp [find, hf, hik, ih]

theorem get?_filterKeys (p : κ → Bool) (d : Dict κ ν) (k : κ) :
    (d.filterKeys p).get? k = if p k then d.get? k else none := by
  obtain ⟨l, hl⟩ := d
  simp only [get?, filterKeys]
  clear hl
  induction l with
  | nil => simp [find]
  | cons e rest ih =>
      obtain ⟨i, y⟩ := e
      by_cases hik : i = k
      · subst hik
        cases hp : p i <;> simp [hp, find, ih]
      · cases hp : p i <;> simp [hp, find, hik, ih]

/-- A write under a key that is kept is a write to the entries kept; any other
leaves them alone. -/
theorem filterKeys_set (p : κ → Bool) (d : Dict κ ν) (k : κ) (x : ν) :
    (d.set k x).filterKeys p = if p k then (d.filterKeys p).set k x else d.filterKeys p := by
  have hput : ∀ l : List (κ × ν), ((put k x l).filter fun e => p e.1) =
      if p k then put k x (l.filter fun e => p e.1) else l.filter fun e => p e.1 := by
    intro l
    induction l with
    | nil => cases hp : p k <;> simp [put, hp]
    | cons e rest ih =>
        obtain ⟨i, y⟩ := e
        by_cases hik : i = k
        · subst hik
          cases hp : p i <;> simp [put, hp]
        · cases hp : p k <;> cases hi : p i <;> simp [put, hik, hi, ih, hp]
  have hentries := hput d.entries
  simp only [filterKeys, set]
  split at hentries
  · rename_i hp
    simp [hp, hentries]
  · rename_i hp
    simp [hp, hentries]

theorem filterKeys_erase (p : κ → Bool) (d : Dict κ ν) (k : κ) :
    (d.erase k).filterKeys p = (d.filterKeys p).erase k := by
  simp only [filterKeys, erase, drop, List.filter_filter, Bool.and_comm]

/-- Erasing an absent key changes nothing. -/
theorem erase_of_get?_none {d : Dict κ ν} {k : κ} (h : d.get? k = none) : d.erase k = d := by
  obtain ⟨l, hl⟩ := d
  have hnot : k ∉ l.map Prod.fst := by
    rw [← find_isSome_iff, show find k l = none from h]
    simp
  simp only [erase, drop, mk.injEq, List.filter_eq_self]
  intro e he
  simp only [ne_eq, decide_not, Bool.not_eq_eq_eq_not, Bool.not_true, decide_eq_false_iff_not]
  rintro rfl
  exact hnot (List.mem_map_of_mem he)

/-- A new key goes last. -/
theorem entries_set_of_get?_none {d : Dict κ ν} {k : κ} (h : d.get? k = none) (x : ν) :
    (d.set k x).entries = d.entries ++ [(k, x)] := by
  have hput : ∀ l : List (κ × ν), k ∉ l.map Prod.fst → put k x l = l ++ [(k, x)] := by
    intro l hl
    induction l with
    | nil => rfl
    | cons e rest ih =>
        obtain ⟨i, y⟩ := e
        obtain ⟨hi, hrest⟩ := not_or.mp (mt List.mem_cons.mpr hl)
        rw [put, if_neg (Ne.symm hi), ih hrest, List.cons_append]
  apply hput
  rw [← find_isSome_iff, show find k d.entries = none from h]
  exact Bool.false_ne_true

omit [DecidableEq κ] in
theorem ext {d e : Dict κ ν} (h : d.entries = e.entries) : d = e := by
  cases d
  cases e
  cases h
  rfl

/-- A key that is there keeps its place. -/
theorem entries_set_of_get? {d : Dict κ ν} {k : κ} {y : ν} (h : d.get? k = some y) (x : ν) :
    (d.set k x).entries = d.entries.map fun e => if e.1 = k then (k, x) else e := by
  have hput : ∀ l : List (κ × ν), (l.map Prod.fst).Nodup → k ∈ l.map Prod.fst →
      put k x l = l.map fun e => if e.1 = k then (k, x) else e := by
    intro l hl hk
    induction l with
    | nil => cases hk
    | cons e rest ih =>
        obtain ⟨i, z⟩ := e
        obtain ⟨hfirst, hrest⟩ := List.nodup_cons.mp hl
        by_cases hi : i = k
        · have hlater : (rest.map fun e => if e.1 = k then (k, x) else e) = rest := by
            refine (List.map_congr_left fun e he => if_neg ?_).trans (List.map_id' rest)
            intro hek
            exact hfirst (List.mem_map.mpr ⟨e, he, hek.trans hi.symm⟩)
          rw [put, if_pos hi, List.map_cons, if_pos hi, hlater]
        · rw [put, if_neg hi, List.map_cons, if_neg hi,
            ih hrest ((List.mem_cons.mp hk).resolve_left (Ne.symm hi))]
  exact hput d.entries d.nodup (find_isSome_iff.mp (by rw [show find k d.entries = _ from h]; rfl))

/-- A rewriting that has changed under one key only, after that key is set. -/
theorem mapVal_set {f f' : κ → ν → μ} {d : Dict κ ν} {k : κ}
    (h : ∀ j y, j ≠ k → f' j y = f j y) (x : ν) :
    (d.set k x).mapVal f' = (d.mapVal f).set k (f' k x) := by
  have hother : ∀ e ∈ d.entries, e.1 ≠ k → (e.1, f' e.1 e.2) = (e.1, f e.1 e.2) :=
    fun e _ he => by rw [h e.1 e.2 he]
  refine ext ?_
  cases hget : d.get? k with
  | none =>
      have hnone : (d.mapVal f).get? k = none := by rw [get?_mapVal, hget]; rfl
      rw [entries_set_of_get?_none hnone]
      show ((d.set k x).entries.map fun e => (e.1, f' e.1 e.2)) =
        d.entries.map (fun e => (e.1, f e.1 e.2)) ++ [(k, f' k x)]
      rw [entries_set_of_get?_none hget, List.map_append]
      refine congrArg (· ++ _) (List.map_congr_left fun e he => hother e he ?_)
      rintro rfl
      rw [mem_entries_iff.mp he] at hget
      cases hget
  | some y =>
      have hsome : (d.mapVal f).get? k = some (f k y) := by rw [get?_mapVal, hget]; rfl
      rw [entries_set_of_get? hsome]
      show ((d.set k x).entries.map fun e => (e.1, f' e.1 e.2)) =
        (d.entries.map fun e => (e.1, f e.1 e.2)).map _
      rw [entries_set_of_get? hget, List.map_map, List.map_map]
      refine List.map_congr_left fun e he => ?_
      by_cases hek : e.1 = k
      · simp [hek]
      · simp [hek, h e.1 e.2 hek]

theorem mapVal_erase {f f' : κ → ν → μ} {d : Dict κ ν} {k : κ}
    (h : ∀ j y, j ≠ k → f' j y = f j y) : (d.erase k).mapVal f' = (d.mapVal f).erase k := by
  refine ext ?_
  show ((d.entries.filter fun e => e.1 ≠ k).map fun e => (e.1, f' e.1 e.2)) =
    (d.entries.map fun e => (e.1, f e.1 e.2)).filter fun e => e.1 ≠ k
  rw [List.filter_map]
  refine List.map_congr_left fun e he => ?_
  rw [h e.1 e.2 (by simpa using (List.mem_filter.mp he).2)]

/-- A comprehension after a new key is set, where it still reads the others as
it did. -/
theorem filterMapVal_set {f f' : κ → ν → Option μ} {d : Dict κ ν} {k : κ}
    (hnew : d.get? k = none) (h : ∀ j y, d.get? j = some y → f' j y = f j y) {x : ν} {z : μ}
    (hz : f' k x = some z) : (d.set k x).filterMapVal f' = (d.filterMapVal f).set k z := by
  have hnone : (d.filterMapVal f).get? k = none := by rw [get?_filterMapVal, hnew]; rfl
  refine ext ?_
  rw [entries_set_of_get?_none hnone]
  show ((d.set k x).entries.filterMap fun e => (f' e.1 e.2).map fun x => (e.1, x)) =
    (d.entries.filterMap fun e => (f e.1 e.2).map fun x => (e.1, x)) ++ [(k, z)]
  rw [entries_set_of_get?_none hnew, List.filterMap_append, List.filterMap_cons, hz]
  refine congrArg (· ++ _) (List.filterMap_congr fun e he => ?_)
  rw [h e.1 e.2 (mem_entries_iff.mp he)]

theorem filterMapVal_congr {f f' : κ → ν → Option μ} {d : Dict κ ν}
    (h : ∀ j y, d.get? j = some y → f' j y = f j y) : d.filterMapVal f' = d.filterMapVal f := by
  refine ext (List.filterMap_congr fun e he => ?_)
  rw [h e.1 e.2 (mem_entries_iff.mp he)]

theorem get?_eraseAll (d : Dict κ ν) (l : List κ) (k : κ) :
    (d.eraseAll l).get? k = if k ∈ l then none else d.get? k := by
  induction l generalizing d with
  | nil => simp [eraseAll]
  | cons j l ih =>
      show ((d.erase j).eraseAll l).get? k = _
      rw [ih, get?_erase]
      by_cases hl : k ∈ l
      · simp [hl]
      · by_cases hj : k = j <;> simp [hl, hj]

omit [DecidableEq κ] in
@[simp] theorem keys_mapVal (f : κ → ν → μ) (d : Dict κ ν) :
    (d.mapVal f).keys = d.keys := by
  simp [keys, mapVal, List.map_map, Function.comp_def]

/-- Writing new keys, all distinct, appends them. -/
theorem entries_setAll {d : Dict κ ν} {l : List (κ × ν)} (hl : (l.map Prod.fst).Nodup)
    (hd : ∀ k ∈ l.map Prod.fst, d.get? k = none) : (d.setAll l).entries = d.entries ++ l := by
  induction l generalizing d with
  | nil => simp
  | cons e l ih =>
      obtain ⟨k, x⟩ := e
      obtain ⟨hk, hl⟩ := List.nodup_cons.mp hl
      rw [setAll_cons, ih hl, entries_set_of_get?_none (hd k List.mem_cons_self),
        List.append_assoc]
      · rfl
      · intro j hj
        have hne : j ≠ k := by rintro rfl; exact hk hj
        rw [get?_set_ne _ hne]
        exact hd j (List.mem_cons_of_mem _ hj)

/-- A dictionary display of distinct keys has its items for entries. -/
theorem entries_ofList {l : List (κ × ν)} (hl : (l.map Prod.fst).Nodup) :
    (ofList l).entries = l := by
  rw [ofList, entries_setAll hl fun k _ => get?_empty k]
  rfl

/-- Replacing the value of the key a list goes on with. -/
theorem put_append_cons {k : κ} {x y : ν} {l rest : List (κ × ν)}
    (h : k ∉ l.map Prod.fst) : put k x (l ++ (k, y) :: rest) = l ++ (k, x) :: rest := by
  induction l with
  | nil => simp [put]
  | cons e l ih =>
      obtain ⟨j, z⟩ := e
      simp only [List.map_cons, List.mem_cons, not_or] at h
      simp [put, Ne.symm h.1, ih h.2]

/-- A loop over the entries that writes each one back rewrites every value. -/
theorem foldl_set_entries (f : κ → ν → ν) (d : Dict κ ν) :
    d.entries.foldl (fun acc e => acc.set e.1 (f e.1 e.2)) d = d.mapVal f := by
  -- the entries behind the loop are rewritten, the ones ahead untouched
  have hrun : ∀ (todo done : List (κ × ν)) (acc : Dict κ ν), acc.entries = done ++ todo →
      (todo.foldl (fun acc e => acc.set e.1 (f e.1 e.2)) acc).entries =
        done ++ todo.map fun e => (e.1, f e.1 e.2) := by
    intro todo
    induction todo with
    | nil => intro done acc hacc; simpa using hacc
    | cons e todo ih =>
        intro done acc hacc
        obtain ⟨k, x⟩ := e
        have hk : k ∉ done.map Prod.fst := by
          have hnd := acc.nodup
          rw [hacc, List.map_append, List.map_cons] at hnd
          exact fun hmem => (List.nodup_append.mp hnd).2.2 k hmem k List.mem_cons_self rfl
        have hset : (acc.set k (f k x)).entries = (done ++ [(k, f k x)]) ++ todo := by
          simp [set, hacc, put_append_cons hk]
        simpa using ih (done ++ [(k, f k x)]) (acc.set k (f k x)) hset
  have h := hrun d.entries [] d rfl
  generalize d.entries.foldl (fun acc e => acc.set e.1 (f e.1 e.2)) d = r at h ⊢
  obtain ⟨entries, hr⟩ := r
  simp only [List.nil_append] at h
  subst h
  rfl

/-! ## Sums over the entries -/

section Sums

variable {α : Type x} [AddCommMonoid α]

/-- `sum(f(k, x) for k, x in d.items())`. -/
def sumBy (f : κ → ν → α) (d : Dict κ ν) : α :=
  (d.entries.map fun e => f e.1 e.2).sum

/-- What key `k` contributes to `sumBy f d`; an absent key contributes
nothing. -/
def contrib (f : κ → ν → α) (d : Dict κ ν) (k : κ) : α :=
  ((d.get? k).map (f k)).getD 0

omit [DecidableEq κ] in
@[simp] theorem sumBy_empty (f : κ → ν → α) : sumBy f (empty : Dict κ ν) = 0 := rfl

theorem contrib_of_get? {f : κ → ν → α} {d : Dict κ ν} {k : κ} {x : ν}
    (h : d.get? k = some x) : contrib f d k = f k x := by
  rw [contrib, h]
  rfl

theorem contrib_of_get?_none {f : κ → ν → α} {d : Dict κ ν} {k : κ}
    (h : d.get? k = none) : contrib f d k = 0 := by
  rw [contrib, h]
  rfl

theorem contrib_set_ne (f : κ → ν → α) (d : Dict κ ν) {k j : κ} (h : j ≠ k) (x : ν) :
    contrib f (d.set k x) j = contrib f d j := by
  rw [contrib, get?_set_ne d h, contrib]

@[simp] theorem contrib_set_self (f : κ → ν → α) (d : Dict κ ν) (k : κ) (x : ν) :
    contrib f (d.set k x) k = f k x :=
  contrib_of_get? (get?_set_self d k x)

/-- A read with a default whose contribution is zero is the contribution. -/
theorem contrib_eq_getD {f : κ → ν → α} {d : Dict κ ν} {k : κ} {z : ν} (hz : f k z = 0) :
    contrib f d k = f k (d.getD k z) := by
  cases h : d.get? k with
  | none => rw [contrib_of_get?_none h, getD_of_get?_none h, hz]
  | some x => rw [contrib_of_get? h, getD_of_get? h]

/-- The sum is the sum of the contributions over any finite set of keys that
covers the dictionary. -/
theorem sumBy_eq_sum_contrib (f : κ → ν → α) (d : Dict κ ν) {s : Finset κ}
    (hs : ∀ k ∈ d.keys, k ∈ s) : sumBy f d = ∑ k ∈ s, contrib f d k := by
  have hkeys : sumBy f d = ∑ k ∈ d.keys.toFinset, contrib f d k := by
    rw [keys, List.sum_toFinset _ d.nodup, sumBy, List.map_map]
    congr 1
    refine List.map_congr_left fun e he => ?_
    exact (contrib_of_get? (mem_entries_iff.mp he)).symm
  rw [hkeys]
  refine Finset.sum_subset (fun k hk => hs k (List.mem_toFinset.mp hk)) fun k _ hk => ?_
  refine contrib_of_get?_none ?_
  rw [List.mem_toFinset, mem_keys_iff, Option.not_isSome_iff_eq_none] at hk
  exact hk

/-- Dictionaries with the same contributions have the same sum. -/
theorem sumBy_congr {f : κ → ν → α} {g : κ → μ → α} {d : Dict κ ν} {e : Dict κ μ}
    (h : ∀ k, contrib f d k = contrib g e k) : sumBy f d = sumBy g e := by
  rw [sumBy_eq_sum_contrib f d (s := d.keys.toFinset ∪ e.keys.toFinset) (by simp +contextual),
    sumBy_eq_sum_contrib g e (s := d.keys.toFinset ∪ e.keys.toFinset) (by simp +contextual)]
  exact Finset.sum_congr rfl fun k _ => h k

theorem sumBy_eq_zero {f : κ → ν → α} {d : Dict κ ν} (h : ∀ k, contrib f d k = 0) :
    sumBy f d = 0 := by
  rw [sumBy_eq_sum_contrib f d (s := d.keys.toFinset) (by simp)]
  exact Finset.sum_eq_zero fun k _ => h k

omit [DecidableEq κ] in
theorem sumBy_add (f g : κ → ν → α) (d : Dict κ ν) :
    sumBy (fun k x => f k x + g k x) d = sumBy f d + sumBy g d := by
  simp only [sumBy, List.sum_map_add]

omit [DecidableEq κ] in
theorem sumBy_mapVal (f : κ → μ → α) (g : κ → ν → μ) (d : Dict κ ν) :
    sumBy f (d.mapVal g) = sumBy (fun k x => f k (g k x)) d := by
  simp only [sumBy, mapVal, List.map_map, Function.comp_def]

end Sums

omit [DecidableEq κ] in
theorem sumBy_sub {α : Type x} [AddCommGroup α] (f g : κ → ν → α) (d : Dict κ ν) :
    sumBy (fun k x => f k x - g k x) d = sumBy f d - sumBy g d := by
  rw [eq_sub_iff_add_eq, ← sumBy_add]
  simp

/-- **The one-key rule**: dictionaries whose contributions agree off `k`
differ in the sum by what `k` contributes. -/
theorem sumBy_sub_sumBy {α : Type x} [AddCommGroup α] {f : κ → ν → α} {g : κ → μ → α}
    {d : Dict κ ν} {e : Dict κ μ} (k : κ)
    (h : ∀ j, j ≠ k → contrib f d j = contrib g e j) :
    sumBy f d - sumBy g e = contrib f d k - contrib g e k := by
  classical
  let s := insert k (d.keys.toFinset ∪ e.keys.toFinset)
  have hk : k ∈ s := Finset.mem_insert_self k _
  rw [sumBy_eq_sum_contrib f d (s := s) (by simp +contextual [s]),
    sumBy_eq_sum_contrib g e (s := s) (by simp +contextual [s]),
    ← Finset.add_sum_erase s _ hk, ← Finset.add_sum_erase s (contrib g e) hk,
    Finset.sum_congr rfl fun j hj => h j (Finset.ne_of_mem_erase hj)]
  abel

/-- Erasing a key takes its contribution out of the sum. -/
theorem sumBy_erase {α : Type x} [AddCommGroup α] (f : κ → ν → α) (d : Dict κ ν) (k : κ) :
    sumBy f (d.erase k) = sumBy f d - contrib f d k := by
  have h := sumBy_sub_sumBy (f := f) (g := f) (d := d.erase k) (e := d) k fun j hj => by
    rw [contrib, get?_erase, if_neg hj, ← contrib]
  rw [contrib_of_get?_none (by rw [get?_erase, if_pos rfl]), zero_sub] at h
  rw [sub_eq_iff_eq_add] at h
  rw [h]
  abel

/-- Setting a key replaces its contribution. -/
theorem sumBy_set {α : Type x} [AddCommGroup α] (f : κ → ν → α) (d : Dict κ ν) (k : κ) (x : ν) :
    sumBy f (d.set k x) = sumBy f d + (f k x - contrib f d k) := by
  have h := sumBy_sub_sumBy (f := f) (g := f) (d := d.set k x) (e := d) k fun j hj =>
    contrib_set_ne f d hj x
  rw [contrib_set_self] at h
  rw [← h]
  abel

/-- A sum is monotone in its contributions. -/
theorem sumBy_le_sumBy {α : Type x} [AddCommMonoid α] [PartialOrder α] [IsOrderedAddMonoid α]
    {f : κ → ν → α} {g : κ → μ → α} {d : Dict κ ν} {e : Dict κ μ}
    (h : ∀ k, contrib f d k ≤ contrib g e k) : sumBy f d ≤ sumBy g e := by
  rw [sumBy_eq_sum_contrib f d (s := d.keys.toFinset ∪ e.keys.toFinset) (by simp +contextual),
    sumBy_eq_sum_contrib g e (s := d.keys.toFinset ∪ e.keys.toFinset) (by simp +contextual)]
  exact Finset.sum_le_sum fun k _ => h k

end Dict
