import Mathlib.Data.List.Nodup
import Mathlib.Data.Nat.Init
import Mathlib.Order.Lattice

/-!
# Keyset paging

A listing kept in descending order of a key is handed out in pages of at most
`limit` items. The cursor of a page is the key of its last item, and the next
page is the first `limit` items whose key is below it. `page_eq_take` says that
a page taken after a prefix of the listing is what follows that prefix; it
needs the keys to be distinct and nothing of how many items share a part of
their key.

`follow` asks for pages until one names no successor. `follow_eq` is the
induction over the pages: a source that hands out the listing chunk by chunk
is exhausted after `length / limit + 1` pages, and what was handed out is the
listing.
-/

universe u v w

namespace Keyset

/-! ## One page -/

section Page

variable {α : Type u} {κ : Type v} [LinearOrder κ] (key : α → κ)

/-- Items by their key, the greatest first. -/
def descending (l : List α) : List α := l.mergeSort fun a b => decide (key b ≤ key a)

/-- What a cursor leaves to be shown. -/
def below (cursor : Option κ) (a : α) : Bool := cursor.all fun c => decide (key a < c)

/-- The first items after the cursor. -/
def page (l : List α) (limit : ℕ) (cursor : Option κ) : List α :=
  (descending key (l.filter (below key cursor))).take limit

/-- No two items share a key. -/
def Distinct (l : List α) : Prop := (l.map key).Nodup

variable {key} {l : List α}

theorem descending_perm (l : List α) : (descending key l).Perm l := List.mergeSort_perm ..

/-- The listing runs strictly downward. -/
theorem pairwise_descending (h : Distinct key l) :
    (descending key l).Pairwise fun a b => key b < key a := by
  have hle : (descending key l).Pairwise fun a b => decide (key b ≤ key a) = true := by
    apply List.pairwise_mergeSort
    · intro a b c hab hbc
      rw [decide_eq_true_iff] at *
      exact le_trans hbc hab
    · intro a b
      rw [Bool.or_eq_true, decide_eq_true_iff, decide_eq_true_iff]
      exact le_total ..
  have hne : (descending key l).Pairwise fun a b => key a ≠ key b := by
    apply List.pairwise_map.mp
    exact ((descending_perm l).map key).nodup_iff.mpr h
  refine (hle.and hne).imp ?_
  rintro a b ⟨hle, hne⟩
  exact lt_of_le_of_ne (of_decide_eq_true hle) (Ne.symm hne)

/-- Two lists of the same items that run strictly downward are one list. -/
theorem eq_of_perm {r s : List α} (hr : r.Pairwise fun a b => key b < key a)
    (hs : s.Pairwise fun a b => key b < key a) (h : r.Perm s) : r = s :=
  h.eq_of_pairwise (fun _ _ _ _ hab hba => absurd (lt_trans hab hba) (lt_irrefl _)) hr hs

/-- Sorting what a cursor leaves leaves the listing below the cursor. -/
theorem descending_filter (h : Distinct key l) (cursor : Option κ) :
    descending key (l.filter (below key cursor)) =
      (descending key l).filter (below key cursor) := by
  have hsub : Distinct key (l.filter (below key cursor)) :=
    h.sublist (List.filter_sublist.map key)
  refine eq_of_perm (pairwise_descending hsub) ((pairwise_descending h).filter _) ?_
  exact (descending_perm _).trans ((descending_perm l).filter _).symm

/-- What lies below the last item of a prefix is what follows the prefix. -/
theorem filter_below {pre suf : List α} (h : (pre ++ suf).Pairwise fun a b => key b < key a) :
    (pre ++ suf).filter (below key (pre.getLast?.map key)) = suf := by
  rcases List.eq_nil_or_concat pre with rfl | ⟨init, a, rfl⟩
  · simp [below]
  · rw [List.concat_eq_append] at *
    obtain ⟨hpre, -, hcross⟩ := List.pairwise_append.mp h
    obtain ⟨-, -, hlast⟩ := List.pairwise_append.mp hpre
    have hinit : (init ++ [a]).filter (below key ((init ++ [a]).getLast?.map key)) = [] := by
      rw [List.filter_eq_nil_iff]
      intro b hb
      rcases List.mem_append.mp hb with hb | hb
      · have := hlast b hb a List.mem_cons_self
        simpa [below] using this.le
      · rw [List.mem_singleton.mp hb]
        simp [below]
    have hsuf : suf.filter (below key ((init ++ [a]).getLast?.map key)) = suf := by
      rw [List.filter_eq_self]
      intro b hb
      have := hcross a (List.mem_append_right _ List.mem_cons_self) b hb
      simpa [below] using this
    rw [List.filter_append, hinit, hsuf, List.nil_append]

/-- **A page after a prefix** of the listing is the start of what follows it. -/
theorem page_eq_take (h : Distinct key l) {pre suf : List α} (hl : descending key l = pre ++ suf)
    (limit : ℕ) : page key l limit (pre.getLast?.map key) = suf.take limit := by
  have hpairwise := pairwise_descending h
  rw [hl] at hpairwise
  rw [page, descending_filter h, hl, filter_below hpairwise]

end Page

/-! ## Following the pages -/

section Follow

variable {α : Type u} {β χ : Type v} {ε : Type w}

/-- Ask for pages until one names no successor: every item met, or `none`
while pages are left. -/
def follow (fetch : Option χ → Except ε (List β × Option χ)) :
    ℕ → Option χ → Except ε (Option (List β))
  | 0, _ => .ok none
  | fuel + 1, cursor => do
      let (items, next) ← fetch cursor
      match next with
      | none => pure (some items)
      | some c =>
          let rest ← follow fetch fuel (some c)
          pure (rest.map (items ++ ·))

/-- The source hands out `listing` in pages of `limit`: after a prefix comes
the start of what follows it, and a full page names its last item's cursor. -/
def HandsOut (fetch : Option χ → Except ε (List β × Option χ)) (item : β → α) (cursor : α → χ)
    (limit : ℕ) (listing : List α) : Prop :=
  ∀ pre suf, listing = pre ++ suf → ∃ items,
    fetch (pre.getLast?.map cursor) = .ok (items,
      if (suf.take limit).length = limit then (suf.take limit).getLast?.map cursor else none) ∧
    items.map item = suf.take limit

variable {fetch : Option χ → Except ε (List β × Option χ)} {item : β → α} {cursor : α → χ}
  {limit : ℕ} {listing : List α}

theorem getLast?_append_of_ne_nil {pre chunk : List α} (h : chunk ≠ []) :
    (pre ++ chunk).getLast? = chunk.getLast? := by
  rw [List.getLast?_append, List.getLast?_eq_some_getLast h, Option.some_or]

/-- What is left of the listing is handed out by the pages that are left. -/
theorem follow_suffix (hout : HandsOut fetch item cursor limit listing) (hlimit : 0 < limit)
    (fuel : ℕ) {pre suf : List α} (hsplit : listing = pre ++ suf)
    (hfuel : suf.length / limit < fuel) :
    ∃ items, follow fetch fuel (pre.getLast?.map cursor) = .ok (some items) ∧
      items.map item = suf := by
  induction fuel generalizing pre suf with
  | zero => exact absurd hfuel (Nat.not_lt_zero _)
  | succ fuel ih =>
      obtain ⟨items, hfetch, hitems⟩ := hout pre suf hsplit
      by_cases hfull : (suf.take limit).length = limit
      · -- a full page: its last item is the cursor of what follows it
        have hlen : limit ≤ suf.length := by
          rw [List.length_take] at hfull
          omega
        have hne : suf.take limit ≠ [] := by
          rw [← List.length_pos_iff, hfull]
          exact hlimit
        have hrest : listing = (pre ++ suf.take limit) ++ suf.drop limit := by
          rw [List.append_assoc, List.take_append_drop, hsplit]
        have hdrop : (suf.drop limit).length / limit < fuel := by
          rw [List.length_drop]
          have := Nat.div_eq_sub_div hlimit hlen
          omega
        obtain ⟨rest, hfollow, hmap⟩ := ih hrest hdrop
        rw [getLast?_append_of_ne_nil hne, List.getLast?_eq_some_getLast hne] at hfollow
        rw [if_pos hfull, List.getLast?_eq_some_getLast hne] at hfetch
        refine ⟨items ++ rest, ?_, ?_⟩
        · simp only [Option.map_some] at hfetch hfollow
          simp only [follow, hfetch, hfollow, bind, Except.bind, pure, Except.pure,
            Option.map_some]
        · rw [List.map_append, hitems, hmap, List.take_append_drop]
      · -- a short page names no successor, and is the last
        rw [if_neg hfull] at hfetch
        have hshort : suf.length ≤ limit := by
          rw [List.length_take] at hfull
          omega
        refine ⟨items, ?_, ?_⟩
        · simp only [follow, hfetch, bind, Except.bind, pure, Except.pure]
        · rw [hitems, List.take_of_length_le hshort]

/-- Allowing more pages than there are changes nothing. -/
theorem follow_succ {fuel : ℕ} {c : Option χ} {items : List β}
    (h : follow fetch fuel c = .ok (some items)) :
    follow fetch (fuel + 1) c = .ok (some items) := by
  induction fuel generalizing c items with
  | zero => cases h
  | succ fuel ih =>
      rw [follow] at h ⊢
      cases hfetch : fetch c with
      | error e =>
          rw [hfetch] at h
          cases h
      | ok page =>
          obtain ⟨met, next⟩ := page
          rw [hfetch] at h
          cases next with
          | none => exact h
          | some n =>
              simp only [bind, Except.bind] at h ⊢
              cases hrest : follow fetch fuel (some n) with
              | error e =>
                  rw [hrest] at h
                  cases h
              | ok rest =>
                  rw [hrest] at h
                  cases rest with
                  | none => cases h
                  | some rest =>
                      rw [ih hrest]
                      exact h

theorem follow_mono {fuel more : ℕ} (hle : fuel ≤ more) {c : Option χ} {items : List β}
    (h : follow fetch fuel c = .ok (some items)) : follow fetch more c = .ok (some items) := by
  induction more, hle using Nat.le_induction with
  | base => exact h
  | succ more hmore ih => exact follow_succ ih

/-- **Following the pages** of a listing from the start visits the listing. -/
theorem follow_eq (hout : HandsOut fetch item cursor limit listing) (hlimit : 0 < limit) :
    ∃ items, items.map item = listing ∧
      ∀ fuel, listing.length / limit < fuel → follow fetch fuel none = .ok (some items) := by
  obtain ⟨items, hfollow, hitems⟩ := follow_suffix hout hlimit (listing.length / limit + 1)
    (List.nil_append listing).symm (Nat.lt_succ_self _)
  exact ⟨items, hitems, fun fuel hfuel => follow_mono hfuel hfollow⟩

end Follow

end Keyset
