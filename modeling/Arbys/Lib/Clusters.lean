import Mathlib.Data.List.MinMax
import Mathlib.Data.List.Perm.Subperm
import Mathlib.Order.Basic
import Arbys.Lib.Dict

/-!
# Grouping by a key, and greedy clusters

Two ways of splitting a list. `Dict.groupBy` puts the items of one key in one
bucket. `Clusters.walk` goes through a list once: every item not yet claimed
becomes the anchor of a cluster, takes for each key the nearest unclaimed item
at or after it that is near enough, and claims what it took. Nearness need not
be transitive, so which items meet depends on the order of the list and on
nothing else.

Items are carried with their index, so an item that occurs twice is two items.
`walk_subperm` says that the clusters together use no item twice,
`of_mem_walk` what is true of one cluster, `walk_pairwise` what an earlier
cluster leaves to a later one, and `exists_cluster_of_mem` that no item near
itself is left out.
-/

universe u v w

namespace Dict

variable {α : Type u} {κ : Type v} [DecidableEq κ]

/-- `for x in l: buckets.setdefault(key(x), []).append(x)`. -/
def groupBy (key : α → κ) (l : List α) : Dict κ (List α) :=
  l.foldl (fun d x => d.set (key x) (d.getD (key x) [] ++ [x])) empty

theorem groupBy_concat (key : α → κ) (l : List α) (x : α) :
    groupBy key (l ++ [x]) =
      (groupBy key l).set (key x) ((groupBy key l).getD (key x) [] ++ [x]) := by
  rw [groupBy, List.foldl_concat, ← groupBy]

/-- The items of one bucket, in their order. -/
theorem getD_groupBy (key : α → κ) (l : List α) (k : κ) :
    (groupBy key l).getD k [] = l.filter fun x => key x = k := by
  induction l using List.reverseRecOn with
  | nil => rfl
  | append_singleton l x ih =>
      rw [groupBy_concat, List.filter_append, ← ih, getD_set]
      by_cases hk : key x = k
      · subst hk
        simp
      · simp [hk, Ne.symm hk]

theorem mem_keys_groupBy {key : α → κ} {l : List α} {k : κ} :
    k ∈ (groupBy key l).keys ↔ ∃ x ∈ l, key x = k := by
  induction l using List.reverseRecOn with
  | nil => simp [groupBy]
  | append_singleton l x ih =>
      rw [groupBy_concat, mem_keys_set, ih]
      constructor
      · rintro (rfl | ⟨y, hy, rfl⟩)
        · exact ⟨x, by simp, rfl⟩
        · exact ⟨y, by simp [hy], rfl⟩
      · rintro ⟨y, hy, rfl⟩
        rcases List.mem_append.mp hy with hy | hy
        · exact Or.inr ⟨y, hy, rfl⟩
        · exact Or.inl (by rw [List.mem_singleton.mp hy])

/-- **The buckets**: each key that occurs, with the items that have it. -/
theorem entries_groupBy (key : α → κ) (l : List α) :
    (groupBy key l).entries =
      (groupBy key l).keys.map fun k => (k, l.filter fun x => key x = k) := by
  rw [keys, List.map_map]
  refine (List.map_id _).symm.trans (List.map_congr_left fun e he => ?_)
  obtain ⟨k, games⟩ := e
  rw [Function.comp_apply, ← getD_groupBy, getD_of_get? (mem_entries_iff.mp he)]
  rfl

/-- The buckets of a rearrangement have the same keys. -/
theorem keys_groupBy_perm {key : α → κ} {l l' : List α} (h : l.Perm l') :
    (groupBy key l).keys.Perm (groupBy key l').keys := by
  refine (List.perm_ext_iff_of_nodup (groupBy key l).nodup (groupBy key l').nodup).mpr ?_
  intro k
  show k ∈ (groupBy key l).keys ↔ k ∈ (groupBy key l').keys
  simp only [mem_keys_groupBy, h.mem_iff]

/-- Filters for distinct keys take no item twice. -/
theorem flatMap_filter_subperm (key : α → κ) (l : List α) {ks : List κ} (hks : ks.Nodup) :
    (ks.flatMap fun k => l.filter fun x => key x = k).Subperm l := by
  induction ks generalizing l with
  | nil => simp
  | cons k ks ih =>
      obtain ⟨hk, hks⟩ := List.nodup_cons.mp hks
      -- the items of the other keys all survive the removal of those of `k`
      have hrest : (ks.flatMap fun j => l.filter fun x => key x = j) =
          ks.flatMap fun j => (l.filter fun x => ¬ key x = k).filter fun x => key x = j := by
        rw [List.flatMap_def, List.flatMap_def]
        congr 1
        refine List.map_congr_left fun j hj => ?_
        rw [List.filter_filter]
        refine List.filter_congr fun x _ => ?_
        by_cases hx : key x = j
        · have hne : j ≠ k := fun h => hk (h ▸ hj)
          simp [hx, hne]
        · simp [hx]
      rw [List.flatMap_cons, hrest]
      refine ((List.Subperm.refl _).append (ih _ hks)).trans ?_
      exact (List.filter_append_perm (fun x => decide (key x = k)) l |>.subperm_left.mp
        (by simp [List.Subperm.refl]))

end Dict

namespace Clusters

variable {α : Type u} {κ : Type v} {δ : Type w} [DecidableEq κ] [LinearOrder δ]
  (key : α → κ) (near : α → α → Bool) (dist : α → α → δ)

/-- An anchor and, per key, what it took with its index. -/
abbrev Cluster (α : Type u) (κ : Type v) := α × Dict κ (ℕ × α)

/-- One turn of the loop that gathers a cluster: an unclaimed item near enough
to the anchor is taken when its key has nothing yet or something farther. -/
def consider (claimed : List ℕ) (anchor : α) (chosen : Dict κ (ℕ × α)) (x : α × ℕ) :
    Dict κ (ℕ × α) :=
  if x.2 ∈ claimed then chosen
  else if near x.1 anchor then
    match chosen.get? (key x.1) with
    | none => chosen.set (key x.1) (x.2, x.1)
    | some existing =>
        if dist x.1 anchor < dist existing.2 anchor then chosen.set (key x.1) (x.2, x.1)
        else chosen
  else chosen

/-- What an anchor takes out of the items from it on. -/
def choose (claimed : List ℕ) (anchor : α) (items : List (α × ℕ)) : Dict κ (ℕ × α) :=
  items.foldl (consider key near dist claimed anchor) Dict.empty

/-- The indices a cluster claims. -/
def indices (c : Cluster α κ) : List ℕ := c.2.values.map Prod.fst

/-- The items of a cluster. -/
def members (c : Cluster α κ) : List α := c.2.values.map Prod.snd

/-- The clusters of the items not claimed, in the order of their anchors. -/
def walk (claimed : List ℕ) : List (α × ℕ) → List (Cluster α κ)
  | [] => []
  | (anchor, i) :: rest =>
      if i ∈ claimed then walk claimed rest
      else
        let chosen := choose key near dist claimed anchor ((anchor, i) :: rest)
        (anchor, chosen) :: walk (claimed ++ chosen.values.map Prod.fst) rest

/-! ## One cluster -/

/-- What an anchor may take for one key. -/
def candidates (claimed : List ℕ) (anchor : α) (items : List (α × ℕ)) (k : κ) : List (α × ℕ) :=
  items.filter fun x => x.2 ∉ claimed ∧ near x.1 anchor = true ∧ key x.1 = k

/-- **What an anchor takes**: for each key the candidate nearest to it, the
first of several. -/
theorem get?_choose (claimed : List ℕ) (anchor : α) (items : List (α × ℕ)) (k : κ) :
    (choose key near dist claimed anchor items).get? k =
      ((candidates key near claimed anchor items k).argmin fun x => dist x.1 anchor).map
        Prod.swap := by
  induction items using List.reverseRecOn with
  | nil => rfl
  | append_singleton items x ih =>
      rw [choose, List.foldl_concat, ← choose, candidates, List.filter_append, ← candidates]
      by_cases hcand : x.2 ∉ claimed ∧ near x.1 anchor = true ∧ key x.1 = k
      · obtain ⟨hclaimed, hnear, rfl⟩ := hcand
        rw [List.filter_cons_of_pos (by simp [hclaimed, hnear]), List.filter_nil,
          List.argmin_concat]
        rw [consider, if_neg hclaimed, if_pos hnear, ih]
        cases hmin : (candidates key near claimed anchor items (key x.1)).argmin
            (fun x => dist x.1 anchor) with
        | none =>
            simp
            rfl
        | some y =>
            by_cases hlt : dist x.1 anchor < dist y.1 anchor
            · simp [hlt]
              rfl
            · simp [hlt, ih, hmin]
      · -- an item that is no candidate for `k` leaves the entry of `k` alone
        have hnone : (consider key near dist claimed anchor
            (choose key near dist claimed anchor items) x).get? k =
            (choose key near dist claimed anchor items).get? k := by
          unfold consider
          split
          · rfl
          · rename_i hclaimed
            split
            · rename_i hnear
              have hk : k ≠ key x.1 := fun h => hcand ⟨hclaimed, hnear, h.symm⟩
              split
              · exact Dict.get?_set_ne _ hk _
              · split
                · exact Dict.get?_set_ne _ hk _
                · rfl
            · rfl
        have hfilter : [x].filter (fun x => x.2 ∉ claimed ∧ near x.1 anchor = true ∧ key x.1 = k) =
            [] := List.filter_cons_of_neg (mt of_decide_eq_true hcand)
        rw [hnone, ih, hfilter, List.append_nil]

variable {key near dist} {claimed : List ℕ} {anchor : α} {items : List (α × ℕ)}

/-- What is taken is unclaimed, near the anchor, and under its own key. -/
theorem of_get?_choose {k : κ} {j : ℕ} {x : α}
    (h : (choose key near dist claimed anchor items).get? k = some (j, x)) :
    (x, j) ∈ items ∧ j ∉ claimed ∧ near x anchor = true ∧ key x = k := by
  rw [get?_choose, Option.map_eq_some_iff] at h
  obtain ⟨⟨y, i⟩, hmin, heq⟩ := h
  cases heq
  simpa [candidates] using List.argmin_mem (Option.mem_def.mpr hmin)

/-- An anchor near itself, with nothing nearer to it than itself, is in its
own cluster. -/
theorem get?_choose_anchor {i : ℕ} (hi : i ∉ claimed) (hself : near anchor anchor = true)
    (hdist : ∀ x, ¬ dist x anchor < dist anchor anchor) :
    (choose key near dist claimed anchor ((anchor, i) :: items)).get? (key anchor) =
      some (i, anchor) := by
  have hcand : candidates key near claimed anchor ((anchor, i) :: items) (key anchor) =
      (anchor, i) :: candidates key near claimed anchor items (key anchor) := by
    rw [candidates, List.filter_cons_of_pos (by simp [hi, hself]), candidates]
  rw [get?_choose, hcand, List.argmin_cons]
  cases (candidates key near claimed anchor items (key anchor)).argmin
      (fun x => dist x.1 anchor) with
  | none => rfl
  | some y => simp [hdist y.1]

/-- Distinct keys took distinct items. -/
theorem nodup_indices_choose (hitems : (items.map Prod.snd).Nodup) :
    ((choose key near dist claimed anchor items).values.map Prod.fst).Nodup := by
  rw [Dict.values, List.map_map]
  refine List.Nodup.map_on ?_ (List.Nodup.of_map _ (choose key near dist claimed anchor items).nodup)
  rintro ⟨k, j, x⟩ he ⟨k', j', x'⟩ he' (hj : j = j')
  subst hj
  obtain ⟨hx, -, -, hk⟩ := of_get?_choose (Dict.mem_entries_iff.mp he)
  obtain ⟨hx', -, -, hk'⟩ := of_get?_choose (Dict.mem_entries_iff.mp he')
  have heq : (x, j) = (x', j) := List.inj_on_of_nodup_map hitems hx hx' rfl
  cases heq
  rw [← hk, ← hk']

/-! ## All clusters -/

theorem mem_indices_choose {j : ℕ}
    (h : j ∈ (choose key near dist claimed anchor items).values.map Prod.fst) :
    j ∉ claimed ∧ j ∈ items.map Prod.snd := by
  obtain ⟨⟨j', x⟩, hmem, rfl⟩ := List.mem_map.mp h
  obtain ⟨⟨k, v⟩, hentry, rfl⟩ := List.mem_map.mp hmem
  obtain ⟨hitem, hclaimed, -⟩ := of_get?_choose (Dict.mem_entries_iff.mp hentry)
  exact ⟨hclaimed, List.mem_map.mpr ⟨_, hitem, rfl⟩⟩

/-- **One cluster of a walk**: its anchor is an item that was not claimed, and
it holds what the anchor takes out of the items from it on. -/
theorem of_mem_walk {c : Cluster α κ} (h : c ∈ walk key near dist claimed items) :
    ∃ before rest claimed' i, items = before ++ (c.1, i) :: rest ∧ i ∉ claimed' ∧
      claimed ⊆ claimed' ∧
      c.2 = choose key near dist claimed' c.1 ((c.1, i) :: rest) := by
  induction items generalizing claimed with
  | nil => cases h
  | cons x items ih =>
      obtain ⟨anchor, i⟩ := x
      rw [walk] at h
      split at h
      · obtain ⟨before, rest, claimed', i', heq, hrest⟩ := ih h
        exact ⟨(anchor, i) :: before, rest, claimed', i', by rw [heq]; rfl, hrest⟩
      · rename_i hi
        rcases List.mem_cons.mp h with rfl | h
        · exact ⟨[], items, claimed, i, rfl, hi, List.Subset.refl _, rfl⟩
        · obtain ⟨before, rest, claimed', i', heq, hnot, hsub, hc⟩ := ih h
          exact ⟨(anchor, i) :: before, rest, claimed', i', by rw [heq]; rfl, hnot,
            fun j hj => hsub (List.mem_append_left _ hj), hc⟩

/-- No index is claimed twice, and none that was claimed at the start. -/
theorem nodup_indices_walk (claimed : List ℕ) (hitems : (items.map Prod.snd).Nodup) :
    ((walk key near dist claimed items).flatMap indices).Nodup ∧
      ∀ j ∈ (walk key near dist claimed items).flatMap indices,
        j ∉ claimed ∧ j ∈ items.map Prod.snd := by
  induction items generalizing claimed with
  | nil => simp [walk]
  | cons x items ih =>
      obtain ⟨anchor, i⟩ := x
      have htail : (items.map Prod.snd).Nodup := hitems.of_cons
      rw [walk]
      split
      · obtain ⟨hnodup, hmem⟩ := ih claimed htail
        exact ⟨hnodup, fun j hj => ⟨(hmem j hj).1, List.mem_cons_of_mem _ (hmem j hj).2⟩⟩
      · set chosen := choose key near dist claimed anchor ((anchor, i) :: items) with hchosen
        obtain ⟨hnodup, hmem⟩ := ih (claimed ++ chosen.values.map Prod.fst) htail
        rw [List.flatMap_cons, List.nodup_append]
        refine ⟨⟨nodup_indices_choose hitems, hnodup, ?_⟩, ?_⟩
        · rintro j hj j' hj' rfl
          exact (hmem j hj').1 (List.mem_append_right _ hj)
        · intro j hj
          rcases List.mem_append.mp hj with hj | hj
          · exact mem_indices_choose hj
          · exact ⟨fun hc => (hmem j hj).1 (List.mem_append_left _ hc),
              List.mem_cons_of_mem _ (hmem j hj).2⟩

/-- No item anchors twice. -/
theorem anchors_sublist (claimed : List ℕ) :
    ((walk key near dist claimed items).map Prod.fst).Sublist (items.map Prod.fst) := by
  induction items generalizing claimed with
  | nil => exact List.Sublist.refl _
  | cons x items ih =>
      obtain ⟨anchor, i⟩ := x
      rw [walk]
      split
      · exact (ih claimed).cons _
      · exact (ih _).cons_cons _

/-- An index of a cluster with its item. -/
theorem mem_items_of_mem_walk {c : Cluster α κ} (h : c ∈ walk key near dist claimed items)
    {j : ℕ} {x : α} (hx : (j, x) ∈ c.2.values) : (x, j) ∈ items := by
  obtain ⟨before, rest, claimed', i, rfl, -, -, hc⟩ := of_mem_walk h
  rw [hc] at hx
  obtain ⟨⟨k, v⟩, hentry, hv⟩ := List.mem_map.mp hx
  cases hv
  exact List.mem_append_right _ (of_get?_choose (Dict.mem_entries_iff.mp hentry)).1

variable (key near dist) in
/-- **No double use**: the clusters together hold no item twice. -/
theorem walk_subperm (l : List α) (claimed : List ℕ) :
    ((walk key near dist claimed l.zipIdx).flatMap members).Subperm l := by
  have hitems : (l.zipIdx.map Prod.snd).Nodup := by
    rw [List.zipIdx_map_snd]
    exact List.nodup_range' ..
  have hpairs : ((walk key near dist claimed l.zipIdx).flatMap fun c =>
      c.2.values.map Prod.swap).Subperm l.zipIdx := by
    refine List.subperm_of_subset ?_ fun p hp => ?_
    · refine List.Nodup.of_map Prod.snd ?_
      have hindices : (fun c : Cluster α κ => (c.2.values.map Prod.swap).map Prod.snd) = indices := by
        funext c
        simp [indices]
      rw [List.map_flatMap, hindices]
      exact (nodup_indices_walk claimed hitems).1
    · obtain ⟨c, hc, hp⟩ := List.mem_flatMap.mp hp
      obtain ⟨⟨j, x⟩, hx, rfl⟩ := List.mem_map.mp hp
      exact mem_items_of_mem_walk hc hx
  obtain ⟨used, hperm, hsub⟩ := hpairs
  have h : (((walk key near dist claimed l.zipIdx).flatMap fun c =>
      c.2.values.map Prod.swap).map Prod.fst).Subperm (l.zipIdx.map Prod.fst) :=
    ⟨used.map Prod.fst, hperm.map _, hsub.map _⟩
  have hmembers : (fun c : Cluster α κ => (c.2.values.map Prod.swap).map Prod.fst) = members := by
    funext c
    simp [members]
  rw [List.map_flatMap, List.zipIdx_map_fst, hmembers] at h
  exact h

/-! ## What the clusters leave each other -/

/-- A member of a cluster, with the place it had and that nobody had claimed. -/
theorem exists_place_of_mem_members {c : Cluster α κ} (hc : c ∈ walk key near dist claimed items)
    {x : α} (hx : x ∈ members c) : ∃ j, (x, j) ∈ items ∧ j ∉ claimed := by
  obtain ⟨before, rest, claimed', i, rfl, -, hsub, hchosen⟩ := of_mem_walk hc
  obtain ⟨⟨j, x⟩, hmem, rfl⟩ := List.mem_map.mp hx
  obtain ⟨⟨k, v⟩, hentry, rfl⟩ := List.mem_map.mp hmem
  rw [hchosen] at hentry
  obtain ⟨hitem, hfree, -⟩ := of_get?_choose (Dict.mem_entries_iff.mp hentry)
  exact ⟨j, List.mem_append_right _ hitem, mt (@hsub j) hfree⟩

/-- An anchor that leaves a candidate takes one of its key no farther off. -/
theorem exists_nearer_of_candidate {x : α} {j : ℕ} (hx : (x, j) ∈ items) (hj : j ∉ claimed)
    (hnear : near x anchor = true) :
    ∃ z ∈ members (anchor, choose key near dist claimed anchor items),
      key z = key x ∧ near z anchor = true ∧ dist z anchor ≤ dist x anchor := by
  have hcand : (x, j) ∈ candidates key near claimed anchor items (key x) := by
    simp [candidates, hx, hj, hnear]
  obtain ⟨⟨z, i⟩, hmin⟩ : ∃ m, m ∈ (candidates key near claimed anchor items (key x)).argmin
      fun y => dist y.1 anchor := by
    refine Option.ne_none_iff_exists'.mp fun hnone => ?_
    rw [List.argmin_eq_none] at hnone
    simp [hnone] at hcand
  have hget : (choose key near dist claimed anchor items).get? (key x) = some (i, z) := by
    rw [get?_choose, Option.mem_def.mp hmin]
    rfl
  obtain ⟨-, -, hz, hkey⟩ := of_get?_choose hget
  refine ⟨z, ?_, hkey, hz, not_lt.mp (List.not_lt_of_mem_argmin hcand hmin)⟩
  exact List.mem_map.mpr ⟨_, List.mem_map.mpr ⟨_, Dict.mem_entries_iff.mpr hget, rfl⟩, rfl⟩

variable (key near dist) in
/-- **Passing by**: a cluster leaves an item near its anchor to a later cluster
only for one of the same key that is no farther from the anchor. -/
theorem walk_pairwise (claimed : List ℕ) (items : List (α × ℕ)) :
    (walk key near dist claimed items).Pairwise fun c d => ∀ x ∈ members d, near x c.1 = true →
      ∃ z ∈ members c, key z = key x ∧ near z c.1 = true ∧ dist z c.1 ≤ dist x c.1 := by
  induction items generalizing claimed with
  | nil => exact List.Pairwise.nil
  | cons a items ih =>
      obtain ⟨anchor, i⟩ := a
      rw [walk]
      split
      · exact ih claimed
      · refine List.pairwise_cons.mpr ⟨fun d hd x hx hnear => ?_, ih _⟩
        obtain ⟨j, hitem, hfree⟩ := exists_place_of_mem_members hd hx
        exact exists_nearer_of_candidate (List.mem_cons_of_mem _ hitem)
          (fun hj => hfree (List.mem_append_left _ hj)) hnear

/-- An item near itself, with nothing nearer to it than itself, is in a cluster. -/
theorem exists_cluster_of_mem (hitems : (items.map Prod.snd).Nodup) {x : α} {i : ℕ}
    (hx : (x, i) ∈ items) (hi : i ∉ claimed) (hself : near x x = true)
    (hdist : ∀ y, ¬ dist y x < dist x x) :
    ∃ c ∈ walk key near dist claimed items, x ∈ members c := by
  induction items generalizing claimed with
  | nil => cases hx
  | cons a items ih =>
      obtain ⟨anchor, j⟩ := a
      rw [walk]
      split
      · rename_i hj
        rcases List.mem_cons.mp hx with heq | hx
        · cases heq
          exact absurd hj hi
        · exact ih hitems.of_cons hx hi
      · set chosen := choose key near dist claimed anchor ((anchor, j) :: items) with hchosen
        by_cases htaken : i ∈ chosen.values.map Prod.fst
        · obtain ⟨⟨i, y⟩, hmem, rfl⟩ := List.mem_map.mp htaken
          obtain ⟨⟨k, v⟩, hentry, hv⟩ := List.mem_map.mp hmem
          cases hv
          obtain ⟨hy, -⟩ := of_get?_choose (Dict.mem_entries_iff.mp hentry)
          cases List.inj_on_of_nodup_map hitems hy hx rfl
          exact ⟨_, List.mem_cons_self, List.mem_map.mpr ⟨_, hmem, rfl⟩⟩
        · rcases List.mem_cons.mp hx with heq | hx
          · -- the anchor itself takes itself
            cases heq
            have hget : chosen.get? (key x) = some (i, x) := get?_choose_anchor hi hself hdist
            exact ⟨_, List.mem_cons_self, List.mem_map.mpr
              ⟨_, List.mem_map.mpr ⟨_, Dict.mem_entries_iff.mpr hget, rfl⟩, rfl⟩⟩
          · obtain ⟨c, hc, hmem⟩ := ih hitems.of_cons hx
              fun h => (List.mem_append.mp h).elim hi htaken
            exact ⟨c, List.mem_cons_of_mem _ hc, hmem⟩

/-! ## Without indices -/

section Nearest

variable (key near dist)

/-- The item of key `k` nearest to `anchor`, the first of several. -/
def nearest (anchor : α) (left : List α) (k : κ) : Option α :=
  (left.filter fun x => near x anchor = true ∧ key x = k).argmin fun x => dist x anchor

/-- Taking the nearest with or without indices is the same. -/
theorem argmin_map_fst (f : α → δ) (l : List (α × ℕ)) :
    (l.map Prod.fst).argmin f = (l.argmin fun x => f x.1).map Prod.fst := by
  induction l with
  | nil => rfl
  | cons x l ih =>
      rw [List.map_cons, List.argmin_cons, ih, List.argmin_cons]
      cases l.argmin (fun x => f x.1) with
      | none => rfl
      | some y =>
          by_cases hlt : f y.1 < f x.1
          · simp [hlt]
          · simp [hlt]

end Nearest

end Clusters
