import Mathlib.Data.List.Basic

/-!
# Outer joins

`l LEFT OUTER JOIN r ON on`: every row of `l` beside each row of `r` it
matches, or once beside nothing where it matches none. A consumer that groups
the joined rows by their left part needs two facts, and both are stated on
membership: a row of `l` is never lost (`exists_mem_leftJoin`), and what stands
beside it is a match or the mark that there is none (`mem_leftJoin`).
-/

universe u v w

namespace OuterJoin

variable {α : Type u} {β : Type v}

/-- The right-hand sides one left row appears with. -/
def partners (on : α → β → Bool) (r : List β) (a : α) : List (Option β) :=
  match r.filter (on a) with
  | [] => [none]
  | bs => bs.map some

/-- `l LEFT OUTER JOIN r ON on`. -/
def leftJoin (on : α → β → Bool) (l : List α) (r : List β) : List (α × Option β) :=
  l.flatMap fun a => (partners on r a).map fun b => (a, b)

variable {on : α → β → Bool} {l : List α} {r : List β}

theorem mem_partners_some {a : α} {b : β} :
    some b ∈ partners on r a ↔ b ∈ r ∧ on a b = true := by
  rw [← List.mem_filter, partners]
  cases hf : r.filter (on a) with
  | nil => simp
  | cons c cs => simp

theorem mem_partners_none {a : α} :
    none ∈ partners on r a ↔ ∀ b ∈ r, on a b = false := by
  rw [partners]
  cases hf : r.filter (on a) with
  | nil => simpa using List.filter_eq_nil_iff.mp hf
  | cons c cs =>
      have hc : c ∈ r.filter (on a) := by rw [hf]; exact List.mem_cons_self
      obtain ⟨hr, hon⟩ := List.mem_filter.mp hc
      refine iff_of_false (by simp) fun h => ?_
      rw [h c hr] at hon
      exact Bool.false_ne_true hon

/-- **What a row of a left join is**: a left row, beside one of its matches, or
beside nothing where it has none. -/
theorem mem_leftJoin {a : α} {ob : Option β} :
    (a, ob) ∈ leftJoin on l r ↔ a ∈ l ∧ ob ∈ partners on r a := by
  simp only [leftJoin, List.mem_flatMap, List.mem_map, Prod.mk.injEq]
  constructor
  · rintro ⟨a', ha', b, hb, rfl, rfl⟩
    exact ⟨ha', hb⟩
  · rintro ⟨ha, hb⟩
    exact ⟨a, ha, ob, hb, rfl, rfl⟩

theorem partners_ne_nil (on : α → β → Bool) (r : List β) (a : α) : partners on r a ≠ [] := by
  rw [partners]
  cases r.filter (on a) with
  | nil => simp
  | cons c cs => simp

/-- No left row is lost. -/
theorem exists_mem_leftJoin {a : α} (h : a ∈ l) : ∃ ob, (a, ob) ∈ leftJoin on l r := by
  obtain ⟨ob, hob⟩ := List.exists_mem_of_ne_nil _ (partners_ne_nil on r a)
  exact ⟨ob, mem_leftJoin.mpr ⟨h, hob⟩⟩

/-- A condition on the left part may be asked before the join. -/
theorem filter_leftJoin (p : α → Bool) (on : α → β → Bool) (l : List α) (r : List β) :
    (leftJoin on l r).filter (fun row => p row.1) = leftJoin on (l.filter p) r := by
  induction l with
  | nil => rfl
  | cons a l ih =>
      simp only [leftJoin, List.flatMap_cons, List.filter_append, List.filter_map,
        List.filter_cons] at ih ⊢
      cases h : p a <;> simp [Function.comp_def, h, ih]

/-! ### Joining on a key -/

/-- At most one row of a table meets a condition on its key. -/
theorem filter_eq_find? {q : β → Bool} {r : List β} (hnodup : r.Nodup)
    (huniq : ∀ b ∈ r, ∀ b' ∈ r, q b = true → q b' = true → b = b') :
    r.filter q = (r.find? q).toList := by
  induction r with
  | nil => rfl
  | cons b r ih =>
      obtain ⟨hb, hnodup⟩ := List.nodup_cons.mp hnodup
      cases hq : q b with
      | true =>
          have hrest : r.filter q = [] := by
            apply List.filter_eq_nil_iff.mpr
            intro b' hb' hq'
            apply hb
            rw [huniq b List.mem_cons_self b' (List.mem_cons_of_mem _ hb') hq hq']
            exact hb'
          rw [List.filter_cons_of_pos hq, hrest, List.find?_cons_of_pos hq]
          rfl
      | false =>
          rw [List.filter_cons_of_neg (by simp [hq]), List.find?_cons_of_neg (by simp [hq])]
          exact ih hnodup fun c hc c' hc' =>
            huniq c (List.mem_cons_of_mem _ hc) c' (List.mem_cons_of_mem _ hc')

section Keyed

variable {p : β → Bool} (hnodup : r.Nodup)
  (huniq : ∀ a, ∀ b ∈ r, ∀ b' ∈ r, on a b = true → on a b' = true → b = b')

include hnodup huniq

/-- An inner join on the key of the right side keeps a left row or drops it. -/
theorem innerJoin_eq_filter :
    l.flatMap (fun a => (r.filter fun b => on a b && p b).map fun _ => a) =
      l.filter fun a => r.any fun b => on a b && p b := by
  induction l with
  | nil => rfl
  | cons a l ih =>
      have hone : r.filter (fun b => on a b && p b) = (r.find? fun b => on a b && p b).toList := by
        apply filter_eq_find? hnodup
        intro b hb b' hb' h h'
        exact huniq a b hb b' hb' (Bool.and_eq_true_iff.mp h).1 (Bool.and_eq_true_iff.mp h').1
      have hany : (r.any fun b => on a b && p b) = (r.find? fun b => on a b && p b).isSome := by
        rw [Bool.eq_iff_iff, List.any_eq_true, List.find?_isSome]
      rw [List.flatMap_cons, ih, hone, List.filter_cons, hany]
      cases r.find? fun b => on a b && p b <;> simp

/-- A left join on the key of the right side, asked for the rows whose match,
if any, meets a condition. -/
theorem leftJoin_eq_filter :
    ((leftJoin on l r).filter fun row => row.2.all p).map Prod.fst =
      l.filter fun a => !(r.any fun b => on a b && !p b) := by
  have hpart : ∀ a, ((partners on r a).filter fun ob => ob.all p).map (fun _ => a) =
      if r.any (fun b => on a b && !p b) then [] else [a] := by
    intro a
    rw [partners, filter_eq_find? hnodup (huniq a)]
    cases hfind : r.find? (on a) with
    | none =>
        -- no partner: the row is kept, with nothing beside it
        have hany : r.any (fun b => on a b && !p b) = false := by
          have hnone := List.find?_eq_none.mp hfind
          rw [List.any_eq_false]
          intro b hb h
          exact hnone b hb (Bool.and_eq_true_iff.mp h).1
        simp [hany]
    | some b =>
        have hb := List.mem_of_find?_eq_some hfind
        have hon := List.find?_some hfind
        have hany : r.any (fun b => on a b && !p b) = !p b := by
          cases hp : p b with
          | true =>
              rw [List.any_eq_false.mpr]
              · rfl
              · intro b' hb' h
                obtain ⟨hon', hp'⟩ := Bool.and_eq_true_iff.mp h
                rw [huniq a b' hb' b hb hon' hon, hp] at hp'
                exact Bool.false_ne_true hp'
          | false => exact List.any_eq_true.mpr ⟨b, hb, by simp [hon, hp]⟩
        rw [hany]
        cases hp : p b <;> simp [hp]
  induction l with
  | nil => rfl
  | cons a l ih =>
      have hcons : leftJoin on (a :: l) r =
          (partners on r a).map (fun b => (a, b)) ++ leftJoin on l r := List.flatMap_cons
      rw [hcons, List.filter_append, List.map_append, ih, List.filter_map, List.map_map,
        List.filter_cons]
      simp only [Function.comp_def]
      rw [hpart a]
      cases r.any fun b => on a b && !p b <;> simp

end Keyed

end OuterJoin
