import Mathlib.Data.List.Basic
import Mathlib.Data.List.Flatten
import Mathlib.Data.List.Nodup
import Mathlib.Data.Option.Basic
import Arbys.Lib.Dict

/-!
# Tables under constraints

A database as the list of its rows, in the order they were stored. A row is
stored under a primary key, where another row may refer to it, takes unique
keys, and refers to rows by their primary keys. A `Store` is a list of rows in
which the keys are distinct and every reference is met; a statement is refused
when what it would leave is not one. A transaction is a chain of statements,
and a refusal anywhere in it leaves the store as it was.
-/

universe u v w

namespace Tables

variable {ρ : Type u} {κ : Type v} {υ : Type w}

/-- What a database checks of a row. A row that nothing can refer to has no
key: the database draws its id. -/
structure Constraints (ρ : Type u) (κ : Type v) (υ : Type w) where
  key : ρ → Option κ
  uniques : ρ → List υ
  refs : ρ → List κ
  uniques_nodup : ∀ r, (uniques r).Nodup

namespace Constraints

variable (C : Constraints ρ κ υ)

/-- The primary keys of some rows. -/
def keys (rows : List ρ) : List κ := rows.filterMap C.key

/-- The unique keys some rows take. -/
def taken (rows : List ρ) : List υ := rows.flatMap C.uniques

structure Sound (rows : List ρ) : Prop where
  keys_nodup : (C.keys rows).Nodup
  taken_nodup : (C.taken rows).Nodup
  refs_mem : ∀ r ∈ rows, ∀ k ∈ C.refs r, k ∈ C.keys rows

/-- The rows can take one more. -/
def Admits (rows : List ρ) (r : ρ) : Prop :=
  (∀ k ∈ C.key r, k ∉ C.keys rows) ∧ (∀ u ∈ C.uniques r, u ∉ C.taken rows) ∧
    ∀ k ∈ C.refs r, k ∈ C.keys rows

/-- No row that stays refers to one that goes. -/
def Frees (rows : List ρ) (p : ρ → Bool) : Prop :=
  ∀ r ∈ rows, p r = false → ∀ k ∈ C.refs r, k ∈ C.keys (rows.filter fun r => !p r)

/-- An update that touches no key and no reference. -/
structure Keeps (f : ρ → ρ) : Prop where
  key : ∀ r, C.key (f r) = C.key r
  uniques : ∀ r, C.uniques (f r) = C.uniques r
  refs : ∀ r, C.refs (f r) = C.refs r

/-- Two rows that cannot both be stored. -/
def Clash (r r' : ρ) : Prop :=
  (∃ k, C.key r = some k ∧ C.key r' = some k) ∨ ∃ u, u ∈ C.uniques r ∧ u ∈ C.uniques r'

variable {C}

theorem Clash.symm {r r' : ρ} (h : C.Clash r r') : C.Clash r' r := by
  rcases h with ⟨k, hk, hk'⟩ | ⟨u, hu, hu'⟩
  · exact .inl ⟨k, hk', hk⟩
  · exact .inr ⟨u, hu', hu⟩

instance [DecidableEq κ] [DecidableEq υ] (rows : List ρ) (r : ρ) :
    Decidable (C.Admits rows r) :=
  inferInstanceAs (Decidable (_ ∧ _ ∧ _))

instance [DecidableEq κ] (rows : List ρ) (p : ρ → Bool) : Decidable (C.Frees rows p) :=
  inferInstanceAs (Decidable (∀ r ∈ rows, _ → _))

theorem mem_keys {rows : List ρ} {k : κ} : k ∈ C.keys rows ↔ ∃ r ∈ rows, C.key r = some k :=
  List.mem_filterMap

theorem mem_taken {rows : List ρ} {u : υ} : u ∈ C.taken rows ↔ ∃ r ∈ rows, u ∈ C.uniques r :=
  List.mem_flatMap

theorem keys_append (rows more : List ρ) : C.keys (rows ++ more) = C.keys rows ++ C.keys more :=
  List.filterMap_append ..

theorem taken_append (rows more : List ρ) :
    C.taken (rows ++ more) = C.taken rows ++ C.taken more :=
  List.flatMap_append ..

theorem keys_map {f : ρ → ρ} (hf : C.Keeps f) (rows : List ρ) :
    C.keys (rows.map f) = C.keys rows := by
  rw [keys, List.filterMap_map]
  exact List.filterMap_congr fun r _ => hf.key r

theorem taken_map {f : ρ → ρ} (hf : C.Keeps f) (rows : List ρ) :
    C.taken (rows.map f) = C.taken rows := by
  rw [taken, List.flatMap_map]
  exact List.flatMap_congr fun r _ => hf.uniques r

/-- An update is checked one kind of row at a time. -/
theorem Keeps.of_forall {f : ρ → ρ}
    (h : ∀ r, C.key (f r) = C.key r ∧ C.uniques (f r) = C.uniques r ∧ C.refs (f r) = C.refs r) :
    C.Keeps f :=
  ⟨fun r => (h r).1, fun r => (h r).2.1, fun r => (h r).2.2⟩

theorem Sound.nil : C.Sound [] where
  keys_nodup := List.nodup_nil
  taken_nodup := List.nodup_nil
  refs_mem := by simp

theorem Sound.insert {rows : List ρ} {r : ρ} (h : C.Sound rows) (hr : C.Admits rows r) :
    C.Sound (rows ++ [r]) where
  keys_nodup := by
    rw [keys_append]
    refine List.nodup_append.mpr ⟨h.keys_nodup, ?_, ?_⟩
    · cases hk : C.key r <;> simp [keys, hk]
    · intro k hk j hj hkj
      obtain ⟨r', hr', hkey⟩ := mem_keys.mp hj
      obtain rfl := List.mem_singleton.mp hr'
      exact hr.1 j hkey (hkj ▸ hk)
  taken_nodup := by
    rw [taken_append]
    refine List.nodup_append.mpr ⟨h.taken_nodup, ?_, ?_⟩
    · simpa [taken] using C.uniques_nodup r
    · intro x hx y hy hxy
      obtain ⟨r', hr', hunique⟩ := mem_taken.mp hy
      obtain rfl := List.mem_singleton.mp hr'
      exact hr.2.1 y hunique (hxy ▸ hx)
  refs_mem := by
    intro r' hr' k hk
    rw [keys_append]
    refine List.mem_append_left _ ?_
    rcases List.mem_append.mp hr' with hold | hnew
    · exact h.refs_mem r' hold k hk
    · obtain rfl := List.mem_singleton.mp hnew
      exact hr.2.2 k hk

theorem Sound.delete {rows : List ρ} {p : ρ → Bool} (h : C.Sound rows) (hp : C.Frees rows p) :
    C.Sound (rows.filter fun r => !p r) where
  keys_nodup := h.keys_nodup.sublist (List.filter_sublist.filterMap _)
  taken_nodup := h.taken_nodup.sublist (List.filter_sublist.flatMap _)
  refs_mem := by
    intro r hr k hk
    obtain ⟨hmem, hstay⟩ := List.mem_filter.mp hr
    exact hp r hmem (by simpa using hstay) k hk

theorem Sound.update {rows : List ρ} {f : ρ → ρ} (h : C.Sound rows) (hf : C.Keeps f) :
    C.Sound (rows.map f) where
  keys_nodup := by
    rw [keys_map hf]
    exact h.keys_nodup
  taken_nodup := by
    rw [taken_map hf]
    exact h.taken_nodup
  refs_mem := by
    intro r hr k hk
    obtain ⟨r', hr', rfl⟩ := List.mem_map.mp hr
    rw [keys_map hf]
    exact h.refs_mem r' hr' k (hf.refs r' ▸ hk)

end Constraints

/-- The rows of a database, which meet its constraints. -/
structure Store (C : Constraints ρ κ υ) where
  rows : List ρ
  sound : C.Sound rows

namespace Store

variable {C : Constraints ρ κ υ}

theorem ext {s t : Store C} (h : s.rows = t.rows) : s = t := by
  cases s
  cases t
  cases h
  rfl

def empty : Store C := ⟨[], .nil⟩

/-- A row is stored under this key. -/
def Has (s : Store C) (k : κ) : Prop := k ∈ C.keys s.rows

instance [DecidableEq κ] (s : Store C) (k : κ) : Decidable (s.Has k) :=
  inferInstanceAs (Decidable (_ ∈ _))

/-- `session.get`. -/
def get? [DecidableEq κ] (s : Store C) (k : κ) : Option ρ :=
  s.rows.find? fun r => C.key r = some k

theorem has_iff {s : Store C} {k : κ} : s.Has k ↔ ∃ r ∈ s.rows, C.key r = some k :=
  Constraints.mem_keys

/-- A stored row refers to stored rows only. -/
theorem has_of_ref {s : Store C} {r : ρ} (hr : r ∈ s.rows) {k : κ} (hk : k ∈ C.refs r) :
    s.Has k :=
  s.sound.refs_mem r hr k hk

theorem has_of_mem {s : Store C} {r : ρ} (hr : r ∈ s.rows) {k : κ} (hk : C.key r = some k) :
    s.Has k :=
  has_iff.mpr ⟨r, hr, hk⟩

/-- Two rows of a store share no primary key and no unique key. -/
theorem pairwise_not_clash (s : Store C) : s.rows.Pairwise fun r r' => ¬C.Clash r r' := by
  have hkeys := List.pairwise_filterMap.mp s.sound.keys_nodup
  have htaken := (List.nodup_flatMap.mp s.sound.taken_nodup).2
  refine (hkeys.and htaken).imp ?_
  rintro r r' ⟨hkey, hunique⟩ (⟨k, hk, hk'⟩ | ⟨u, hu, hu'⟩)
  · exact hkey k hk k hk' rfl
  · exact hunique hu hu'

theorem eq_of_clash {s : Store C} {r r' : ρ} (hr : r ∈ s.rows) (hr' : r' ∈ s.rows)
    (h : C.Clash r r') : r = r' := by
  have : Std.Symm fun r r' => ¬C.Clash r r' := ⟨fun _ _ h h' => h h'.symm⟩
  by_contra hne
  exact s.pairwise_not_clash.forall hr hr' hne h

/-- No two rows are stored under one key. -/
theorem eq_of_key_eq {s : Store C} {r r' : ρ} (hr : r ∈ s.rows) (hr' : r' ∈ s.rows) {k : κ}
    (hk : C.key r = some k) (hk' : C.key r' = some k) : r = r' :=
  eq_of_clash hr hr' (.inl ⟨k, hk, hk'⟩)

/-- `UPDATE`, of every row, by a function that leaves most of them alone. -/
def update (s : Store C) (f : ρ → ρ) (hf : C.Keeps f) : Store C :=
  ⟨s.rows.map f, s.sound.update hf⟩

@[simp] theorem rows_update (s : Store C) (f : ρ → ρ) (hf : C.Keeps f) :
    (s.update f hf).rows = s.rows.map f := rfl

@[simp] theorem has_update (s : Store C) (f : ρ → ρ) (hf : C.Keeps f) (k : κ) :
    (s.update f hf).Has k ↔ s.Has k := by
  rw [Has, rows_update, Constraints.keys_map hf]
  exact Iff.rfl

theorem has_of_rows_append {s s' : Store C} {more : List ρ} (h : s'.rows = s.rows ++ more)
    {k : κ} : s'.Has k ↔ s.Has k ∨ k ∈ C.keys more := by
  rw [Has, h, Constraints.keys_append, List.mem_append]
  exact Iff.rfl

section Statements

variable [DecidableEq κ]

theorem get?_isSome_iff {s : Store C} {k : κ} : (s.get? k).isSome ↔ s.Has k := by
  rw [get?, List.find?_isSome, has_iff]
  simp

theorem get?_eq_some_iff {s : Store C} {k : κ} {r : ρ} :
    s.get? k = some r ↔ r ∈ s.rows ∧ C.key r = some k := by
  constructor
  · intro h
    exact ⟨List.mem_of_find?_eq_some h, by simpa using List.find?_some h⟩
  · rintro ⟨hr, hk⟩
    obtain ⟨r', hr'⟩ := Option.isSome_iff_exists.mp (get?_isSome_iff.mpr (has_of_mem hr hk))
    have hmem := List.mem_of_find?_eq_some hr'
    have hkey : C.key r' = some k := by simpa using List.find?_some hr'
    rw [hr', eq_of_key_eq hmem hr hkey hk]

/-- A row keeps its place when others are stored. -/
theorem get?_append {s s' : Store C} {more : List ρ} (h : s'.rows = s.rows ++ more) {k : κ}
    (hk : s.Has k) : s'.get? k = s.get? k := by
  obtain ⟨r, hr⟩ := Option.isSome_iff_exists.mp (get?_isSome_iff.mpr hk)
  obtain ⟨hmem, hkey⟩ := get?_eq_some_iff.mp hr
  rw [hr, get?_eq_some_iff, h]
  exact ⟨List.mem_append_left _ hmem, hkey⟩

theorem get?_eq_none_iff {s : Store C} {k : κ} : s.get? k = none ↔ ¬s.Has k := by
  rw [← get?_isSome_iff, Option.not_isSome_iff_eq_none]

/-- `DELETE`, of the rows that meet `p`. -/
def delete (s : Store C) (p : ρ → Bool) : Option (Store C) :=
  if h : C.Frees s.rows p then some ⟨s.rows.filter fun r => !p r, s.sound.delete h⟩ else none

theorem delete_isSome_iff {s : Store C} {p : ρ → Bool} :
    (s.delete p).isSome ↔ C.Frees s.rows p := by
  unfold delete
  split <;> simp [*]

theorem rows_of_delete {s s' : Store C} {p : ρ → Bool} (h : s.delete p = some s') :
    s'.rows = s.rows.filter fun r => !p r := by
  unfold delete at h
  split at h
  · cases h
    rfl
  · cases h

/-- Where what goes is referred to by nothing, the delete is not refused. -/
theorem exists_delete {s : Store C} {p : ρ → Bool}
    (hp : ∀ r ∈ s.rows, p r = false → ∀ k ∈ C.refs r, ∀ r' ∈ s.rows, C.key r' = some k →
      p r' = false) :
    ∃ s', s.delete p = some s' ∧ s'.rows = s.rows.filter fun r => !p r := by
  have hfrees : C.Frees s.rows p := by
    intro r hr hstay k hk
    obtain ⟨r', hr', hk'⟩ := has_iff.mp (has_of_ref hr hk)
    have hstay' := hp r hr hstay k hk r' hr' hk'
    exact Constraints.mem_keys.mpr ⟨r', List.mem_filter.mpr ⟨hr', by simp [hstay']⟩, hk'⟩
  obtain ⟨s', hs'⟩ := Option.isSome_iff_exists.mp (delete_isSome_iff.mpr hfrees)
  exact ⟨s', hs', rows_of_delete hs'⟩

variable [DecidableEq υ]

/-- `INSERT`. -/
def insert (s : Store C) (r : ρ) : Option (Store C) :=
  if h : C.Admits s.rows r then some ⟨s.rows ++ [r], s.sound.insert h⟩ else none

theorem insert_isSome_iff {s : Store C} {r : ρ} :
    (s.insert r).isSome ↔ C.Admits s.rows r := by
  unfold insert
  split <;> simp [*]

theorem rows_of_insert {s s' : Store C} {r : ρ} (h : s.insert r = some s') :
    s'.rows = s.rows ++ [r] := by
  unfold insert at h
  split at h
  · cases h
    rfl
  · cases h

theorem exists_insert {s : Store C} {r : ρ} (h : C.Admits s.rows r) :
    ∃ s', s.insert r = some s' ∧ s'.rows = s.rows ++ [r] :=
  ⟨⟨s.rows ++ [r], s.sound.insert h⟩, dif_pos h, rfl⟩

end Statements

/-! ## A table read as a dictionary -/

section View

variable {ι : Type*} {ν : Type*} {f : ρ → Option (ι × ν)}

/-- Rows that are read under one index clash. -/
def Indexes (C : Constraints ρ κ υ) (f : ρ → Option (ι × ν)) : Prop :=
  ∀ r r' e e', f r = some e → f r' = some e' → e.1 = e'.1 → C.Clash r r'

/-- The rows `f` reads, under their index, in the order they are stored. -/
def view (s : Store C) (f : ρ → Option (ι × ν)) (hf : Indexes C f) : Dict ι ν where
  entries := s.rows.filterMap f
  nodup := by
    refine List.pairwise_map.mpr (List.pairwise_filterMap.mpr ?_)
    refine s.pairwise_not_clash.imp ?_
    intro r r' hclash e he e' he' heq
    exact hclash (hf r r' e e' he he' heq)

variable (hf : Indexes C f)

/-- Rows that are not read do not show. -/
theorem view_append {s s' : Store C} {more : List ρ} (h : s'.rows = s.rows ++ more)
    (hmore : ∀ r ∈ more, f r = none) : s'.view f hf = s.view f hf := by
  refine Dict.ext ?_
  show s'.rows.filterMap f = s.rows.filterMap f
  rw [h, List.filterMap_append, List.filterMap_eq_nil_iff.mpr hmore, List.append_nil]

/-- Nor do they when they go. -/
theorem view_filter {s s' : Store C} {p : ρ → Bool} (h : s'.rows = s.rows.filter fun r => !p r)
    (hp : ∀ r, p r = true → f r = none) : s'.view f hf = s.view f hf := by
  refine Dict.ext ?_
  show s'.rows.filterMap f = s.rows.filterMap f
  rw [h, List.filterMap_filter]
  refine List.filterMap_congr fun r _ => ?_
  cases hr : p r with
  | false => rfl
  | true => exact (hp r hr).symm

variable [DecidableEq ι]

theorem get?_view {s : Store C} {i : ι} {x : ν} :
    (s.view f hf).get? i = some x ↔ ∃ r ∈ s.rows, f r = some (i, x) := by
  rw [← Dict.mem_entries_iff]
  exact List.mem_filterMap

theorem get?_view_eq_none {s : Store C} {i : ι} :
    (s.view f hf).get? i = none ↔ ∀ r ∈ s.rows, ∀ x, f r ≠ some (i, x) := by
  rw [Option.eq_none_iff_forall_ne_some]
  simp only [ne_eq, get?_view hf, not_exists, not_and]
  exact ⟨fun h r hr x => h x r hr, fun h x r hr => h r hr x⟩

/-- A new row that is read is a new entry. -/
theorem view_insert {s s' : Store C} {r : ρ} (h : s'.rows = s.rows ++ [r]) {i : ι} {x : ν}
    (hr : f r = some (i, x)) : s'.view f hf = (s.view f hf).set i x := by
  have hfresh : (s.view f hf).get? i = none := by
    refine (get?_view_eq_none hf).mpr fun r' hr' y hy => ?_
    have hpair := s'.pairwise_not_clash
    rw [h] at hpair
    exact (List.pairwise_append.mp hpair).2.2 r' hr' r (List.mem_singleton_self r)
      (hf r' r _ _ hy hr rfl)
  refine Dict.ext ?_
  rw [Dict.entries_set_of_get?_none hfresh]
  show s'.rows.filterMap f = s.rows.filterMap f ++ [(i, x)]
  rw [h, List.filterMap_append, List.filterMap_cons, hr, List.filterMap_nil]

/-- An update of the row under an index is an update of its entry. -/
theorem view_update {s s' : Store C} {g : ρ → ρ} (h : s'.rows = s.rows.map g) {i : ι} {x : ν}
    (hthere : ∃ r ∈ s.rows, ∃ y, f r = some (i, y))
    (hg : ∀ r ∈ s.rows, f (g r) = (f r).map fun e => if e.1 = i then (i, x) else e) :
    s'.view f hf = (s.view f hf).set i x := by
  obtain ⟨r, hr, y, hy⟩ := hthere
  refine Dict.ext ?_
  rw [Dict.entries_set_of_get? ((get?_view hf).mpr ⟨r, hr, hy⟩)]
  show s'.rows.filterMap f = (s.rows.filterMap f).map _
  rw [h, List.filterMap_map, List.map_filterMap]
  exact List.filterMap_congr hg

/-- A delete of the row under an index is a delete of its entry. -/
theorem view_delete {s s' : Store C} {p : ρ → Bool}
    (h : s'.rows = s.rows.filter fun r => !p r) {i : ι}
    (hp : ∀ r, (∃ x, f r = some (i, x)) ↔ p r = true ∧ (f r).isSome) :
    s'.view f hf = (s.view f hf).erase i := by
  refine Dict.ext ?_
  show s'.rows.filterMap f = (s.rows.filterMap f).filter fun e => e.1 ≠ i
  rw [h]
  induction s.rows with
  | nil => rfl
  | cons r rows ih =>
      have hr := hp r
      cases hf' : f r with
      | none =>
          rw [List.filterMap_cons, hf']
          cases hpr : p r <;> simp [hpr, hf', ih]
      | some e =>
          rw [hf'] at hr
          have hiff : e.1 = i ↔ p r = true := by
            constructor
            · rintro rfl
              exact (hr.mp ⟨e.2, rfl⟩).1
            · intro hpr
              obtain ⟨x, hx⟩ := hr.mpr ⟨hpr, rfl⟩
              cases hx
              rfl
          rw [List.filterMap_cons, hf']
          cases hpr : p r
          · have hne : e.1 ≠ i := fun he => by simp [hiff.mp he] at hpr
            simp [hpr, hf', ih, hne]
          · simp [hpr, ih, hiff.mpr hpr]

end View

/-! ## Transactions -/

/-- A chain of statements, or its refusal. -/
abbrev Tx (C : Constraints ρ κ υ) := Store C → Option (Store C)

section Deletes

variable [DecidableEq κ]

/-- Rows that nothing can refer to can always go. -/
theorem exists_delete_of_keyless {s : Store C} {p : ρ → Bool}
    (hp : ∀ r, p r = true → C.key r = none) :
    ∃ s', s.delete p = some s' ∧ s'.rows = s.rows.filter fun r => !p r := by
  refine exists_delete fun r _ _ k _ r' _ hk' => ?_
  cases h : p r' with
  | false => rfl
  | true =>
      rw [hp r' h] at hk'
      cases hk'

/-- Nor is a loop over such deletes refused. -/
theorem exists_deletes_of_keyless {ps : List (ρ → Bool)}
    (hps : ∀ p ∈ ps, ∀ r, p r = true → C.key r = none) (s : Store C) :
    ∃ s', ps.foldlM Store.delete s = some s' ∧
      s'.rows = s.rows.filter fun r => !ps.any fun p => p r := by
  induction ps generalizing s with
  | nil =>
      refine ⟨s, rfl, ?_⟩
      simp
  | cons p ps ih =>
      obtain ⟨mid, hmid, hrows⟩ := exists_delete_of_keyless (s := s) (hps p List.mem_cons_self)
      obtain ⟨s', hs', hrows'⟩ := ih (fun q hq => hps q (List.mem_cons_of_mem _ hq)) mid
      refine ⟨s', ?_, ?_⟩
      · rw [List.foldlM_cons, hmid]
        exact hs'
      · rw [hrows', hrows, List.filter_filter]
        refine List.filter_congr fun r _ => ?_
        rw [List.any_cons, Bool.not_or, Bool.and_comm]

end Deletes

section Folds

variable {α : Type*} {step : Store C → α → Option (Store C)} {I : Store C → Prop}

/-- What every statement of a loop keeps, the loop keeps. -/
theorem foldlM_inv (hstep : ∀ s a s', I s → step s a = some s' → I s') {as : List α}
    {s s' : Store C} (hs : I s) (h : as.foldlM step s = some s') : I s' := by
  induction as generalizing s with
  | nil =>
      cases h
      exact hs
  | cons a as ih =>
      obtain ⟨mid, hmid, hrest⟩ := Option.bind_eq_some_iff.mp h
      exact ih (hstep s a mid hs hmid) hrest

/-- A loop does to what is read of the tables what its statements do to it, one
after another. -/
theorem foldlM_read {γ : Type*} {read : Store C → γ} {f : γ → α → γ}
    (hstep : ∀ s a s', I s → step s a = some s' → I s' ∧ read s' = f (read s) a) {as : List α}
    {s s' : Store C} (hs : I s) (h : as.foldlM step s = some s') :
    read s' = as.foldl f (read s) := by
  induction as generalizing s with
  | nil =>
      cases h
      rfl
  | cons a as ih =>
      obtain ⟨mid, hmid, hrest⟩ := Option.bind_eq_some_iff.mp h
      obtain ⟨hinv, hread⟩ := hstep s a mid hs hmid
      rw [ih hinv hrest, hread, List.foldl_cons]

/-- Where no statement of a loop bears on whether another is refused, the loop
is refused exactly if one of them would be. -/
theorem foldlM_isSome_iff {ok : Store C → α → Prop}
    (hok : ∀ s a, I s → ((step s a).isSome ↔ ok s a))
    (hstep : ∀ s a s', I s → step s a = some s' → I s' ∧ ∀ b, ok s' b ↔ ok s b)
    (as : List α) {s : Store C} (hs : I s) :
    (as.foldlM step s).isSome ↔ ∀ a ∈ as, ok s a := by
  induction as generalizing s with
  | nil => simp
  | cons a as ih =>
      rw [List.foldlM_cons, List.forall_mem_cons, ← hok s a hs]
      cases ha : step s a with
      | none => simp
      | some mid =>
          obtain ⟨hmid, hstable⟩ := hstep s a mid hs ha
          show (as.foldlM step mid).isSome ↔ _
          rw [ih hmid]
          simp [hstable]

end Folds

/-- The store after a transaction: as it was, if that is refused. -/
def commit (t : Tx C) (s : Store C) : Store C := (t s).getD s

theorem commit_of_eq_some {t : Tx C} {s s' : Store C} (h : t s = some s') : commit t s = s' := by
  rw [commit, h, Option.getD_some]

theorem commit_of_eq_none {t : Tx C} {s : Store C} (h : t s = none) : commit t s = s := by
  rw [commit, h, Option.getD_none]

/-- What a transaction keeps where it is not refused, it keeps. -/
theorem commit_inv {P : Store C → Prop} {t : Tx C} {s : Store C} (h0 : P s)
    (h : ∀ s', t s = some s' → P s') : P (commit t s) := by
  cases ht : t s with
  | none =>
      rw [commit_of_eq_none ht]
      exact h0
  | some s' =>
      rw [commit_of_eq_some ht]
      exact h s' ht

/-! ## What a transaction does not write -/

section Told

variable {p t : ρ → Bool}

theorem filter_map_of_untold {f : ρ → ρ} (h : ∀ r, f r = r ∨ (t r = false ∧ t (f r) = false))
    (rows : List ρ) : (rows.map f).filter t = rows.filter t := by
  induction rows with
  | nil => rfl
  | cons r rows ih =>
      rw [List.map_cons]
      rcases h r with hr | ⟨hr, hfr⟩
      · simp only [hr, List.filter_cons, ih]
      · simp only [List.filter_cons, hr, hfr, ih, Bool.false_eq_true, if_false]

theorem filter_filter_of_untold (h : ∀ r, p r = true → t r = false) (rows : List ρ) :
    (rows.filter fun r => !p r).filter t = rows.filter t := by
  rw [List.filter_filter]
  refine List.filter_congr fun r _ => ?_
  cases hpr : p r with
  | false => simp
  | true => simp [h r hpr]

/-- What is read of some tables only depends on them only. -/
theorem filterMap_of_told {β : Type*} {f : ρ → Option β} (hf : ∀ r, t r = false → f r = none)
    {rows rows' : List ρ} (h : rows'.filter t = rows.filter t) :
    rows'.filterMap f = rows.filterMap f := by
  have hfilter : ∀ l : List ρ, l.filterMap f = (l.filter t).filterMap f := by
    intro l
    rw [List.filterMap_filter]
    refine List.filterMap_congr fun r _ => ?_
    cases hr : t r with
    | false => exact hf r hr
    | true => rfl
  rw [hfilter rows', hfilter rows, h]

end Told

section Confined

variable {p : ρ → Bool}

/-- The transaction writes no rows but those `p` tells. -/
def Confined (p : ρ → Bool) (t : Tx C) : Prop :=
  ∀ s s', t s = some s' → (s'.rows.filter fun r => !p r) = s.rows.filter fun r => !p r

theorem Confined.bind {t u : Tx C} (ht : Confined p t) (hu : Confined p u) :
    Confined p fun s => (t s).bind u := by
  intro s s' h
  obtain ⟨mid, hmid, hlast⟩ := Option.bind_eq_some_iff.mp h
  exact (hu mid s' hlast).trans (ht s mid hmid)

theorem Confined.foldlM {α : Type*} {step : Store C → α → Option (Store C)}
    (h : ∀ a, Confined p fun s => step s a) (as : List α) :
    Confined p fun s => as.foldlM step s := by
  intro s s' hfold
  exact foldlM_inv
    (I := fun mid => (mid.rows.filter fun r => !p r) = s.rows.filter fun r => !p r)
    (fun mid a next hmid hstep => (h a mid next hstep).trans hmid) rfl hfold

theorem confined_update {f : ρ → ρ} (hf : C.Keeps f)
    (h : ∀ r, f r = r ∨ (p r = true ∧ p (f r) = true)) :
    Confined p fun s : Store C => some (s.update f hf) := by
  intro s s' hs
  cases hs
  exact filter_map_of_untold (fun r => (h r).imp_right fun hr => by simp [hr.1, hr.2]) s.rows

/-- Rows that are not written are as they were. -/
theorem Confined.filter {t : Tx C} (h : Confined p t) {q : ρ → Bool}
    (hq : ∀ r, q r = true → p r = false) {s s' : Store C} (hs : t s = some s') :
    s'.rows.filter q = s.rows.filter q := by
  have hqp : ∀ r, p r = true → q r = false := by
    intro r hr
    by_contra hqr
    rw [hq r (by simpa using hqr)] at hr
    cases hr
  rw [← filter_filter_of_untold hqp s'.rows, h s s' hs, filter_filter_of_untold hqp]

/-- What is read of other rows only is as it was. -/
theorem Confined.filterMap {t : Tx C} (h : Confined p t) {β : Type*} {f : ρ → Option β}
    (hf : ∀ r, p r = true → f r = none) {s s' : Store C} (hs : t s = some s') :
    s'.rows.filterMap f = s.rows.filterMap f :=
  filterMap_of_told (fun r hr => hf r (by simpa using hr)) (h s s' hs)

variable [DecidableEq κ]

theorem confined_delete {q : ρ → Bool} (hq : ∀ r, q r = true → p r = true) :
    Confined p fun s : Store C => s.delete q := by
  intro s s' h
  rw [rows_of_delete h]
  exact filter_filter_of_untold (fun r hr => by simp [hq r hr]) s.rows

variable [DecidableEq υ]

theorem confined_insert {r : ρ} (hr : p r = true) :
    Confined p fun s : Store C => s.insert r := by
  intro s s' h
  rw [rows_of_insert h, List.filter_append, List.filter_singleton, hr]
  exact List.append_nil _

end Confined

end Store

end Tables
