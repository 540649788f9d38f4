import Arbys.Lib.Clusters

/-!
# The turns of a walk

What a walk of greedy clusters does, one anchor after the other: `turns` lists
each anchor with the items nobody claimed before it, and the anchor takes the
nearest of them for each key (`took_eq_nearest`).

Two items of different keys that stand at one place are `Twins`. Alone they
would meet. `kept_together_iff` says when a walk keeps them together: no anchor
but the two finds one of them the nearest of its key without the other.
-/

universe u v w

namespace Clusters

variable {α : Type u} {κ : Type v} {δ : Type w} [DecidableEq κ] [LinearOrder δ]
  (key : α → κ) (near : α → α → Bool) (dist : α → α → δ)

/-- The turns of a walk: each anchor with the items not claimed before its
turn, itself the first. -/
def turns (claimed : List ℕ) : List (α × ℕ) → List (α × List α)
  | [] => []
  | (anchor, i) :: rest =>
      if i ∈ claimed then turns claimed rest
      else
        let chosen := choose key near dist claimed anchor ((anchor, i) :: rest)
        (anchor, (((anchor, i) :: rest).filter (·.2 ∉ claimed)).map Prod.fst) ::
          turns (claimed ++ chosen.values.map Prod.fst) rest

/-- What a cluster took for a key. -/
def took (c : Cluster α κ) (k : κ) : Option α := (c.2.get? k).map Prod.snd

/-- The cluster holds `x` with something else in the place of `y`. -/
def Separates (c : Cluster α κ) (x y : α) : Prop :=
  took c (key x) = some x ∧ ∃ z, took c (key y) = some z ∧ z ≠ y

/-- **A turn**: for each key the anchor takes the nearest item nobody
claimed. -/
theorem took_eq_nearest (claimed : List ℕ) (anchor : α) (items : List (α × ℕ)) (k : κ) :
    took (anchor, choose key near dist claimed anchor items) k =
      nearest key near dist anchor ((items.filter (·.2 ∉ claimed)).map Prod.fst) k := by
  have hcandidates : ((items.filter (·.2 ∉ claimed)).map Prod.fst).filter
      (fun x => near x anchor = true ∧ key x = k) =
        (candidates key near claimed anchor items k).map Prod.fst := by
    rw [candidates, List.filter_map, List.filter_filter]
    congr 1
    apply List.filter_congr
    intro x _
    by_cases hx : x.2 ∈ claimed
    · simp [hx]
    · simp [hx]
  rw [took, get?_choose, nearest, hcandidates, argmin_map_fst, Option.map_map]
  rfl

variable {key near dist} {claimed : List ℕ} {items : List (α × ℕ)} {a b : α}

/-- An item of a turn was there and not claimed. -/
theorem mem_items_of_mem_turns {t : α × List α} (h : t ∈ turns key near dist claimed items)
    {x : α} (hx : x ∈ t.2) : ∃ j, (x, j) ∈ items ∧ j ∉ claimed := by
  induction items generalizing claimed with
  | nil => cases h
  | cons y items ih =>
      obtain ⟨anchor, i⟩ := y
      rw [turns] at h
      split at h
      · obtain ⟨j, hj, hclaimed⟩ := ih h
        exact ⟨j, List.mem_cons_of_mem _ hj, hclaimed⟩
      · rcases List.mem_cons.mp h with rfl | h
        · obtain ⟨⟨x', j⟩, hmem, rfl⟩ := List.mem_map.mp hx
          obtain ⟨hmem, hclaimed⟩ := List.mem_filter.mp hmem
          exact ⟨j, hmem, of_decide_eq_true hclaimed⟩
        · obtain ⟨j, hj, hclaimed⟩ := ih h
          exact ⟨j, List.mem_cons_of_mem _ hj, fun hc => hclaimed (List.mem_append_left _ hc)⟩

/-- An item all of whose places are claimed is taken no more. -/
theorem took_ne_of_claimed {c : Cluster α κ} (h : c ∈ walk key near dist claimed items) {x : α}
    (hx : ∀ j, (x, j) ∈ items → j ∈ claimed) (k : κ) : took c k ≠ some x := by
  intro htook
  obtain ⟨⟨j, y⟩, hget, rfl⟩ := Option.map_eq_some_iff.mp htook
  obtain ⟨before, rest, claimed', i, rfl, -, hsub, hchosen⟩ := of_mem_walk h
  rw [hchosen] at hget
  obtain ⟨hmem, hnot, -, -⟩ := of_get?_choose hget
  exact hnot (hsub (hx j (List.mem_append_right _ hmem)))

/-! ## Twins -/

variable (key near dist) in
/-- Two items of different keys that stand at one place of the order: an item
before both is near both or neither, and each is the other's nearest, ahead of
what is as near. -/
structure Twins (le : α → α → Prop) (l : List α) (a b : α) : Prop where
  key_ne : key a ≠ key b
  meet : near b a = true ∧ near a b = true
  near_before : ∀ x ∈ l, le x a → le x b → near a x = near b x
  closest : ∀ y ∈ l, key y = key b → y ≠ b → dist b a ≤ dist y a ∧ (le y b → dist b a < dist y a)
  closest' : ∀ y ∈ l, key y = key a → y ≠ a → dist a b ≤ dist y b ∧ (le y a → dist a b < dist y b)

variable {le : α → α → Prop} {l : List α}

omit [DecidableEq κ] in
theorem Twins.symm (h : Twins key near dist le l a b) : Twins key near dist le l b a where
  key_ne := Ne.symm h.key_ne
  meet := ⟨h.meet.2, h.meet.1⟩
  near_before := fun x hx hb ha => (h.near_before x hx ha hb).symm
  closest := h.closest'
  closest' := h.closest

omit [DecidableEq κ] in
theorem Twins.mono (h : Twins key near dist le l a b) {l' : List α} (hsub : ∀ x ∈ l', x ∈ l) :
    Twins key near dist le l' a b where
  key_ne := h.key_ne
  meet := h.meet
  near_before := fun x hx => h.near_before x (hsub x hx)
  closest := fun y hy => h.closest y (hsub y hy)
  closest' := fun y hy => h.closest' y (hsub y hy)

theorem rel_of_idxOf_lt [DecidableEq α] (hl : l.Pairwise le) {x y : α} (hy : y ∈ l)
    (h : l.idxOf x < l.idxOf y) : le x y := by
  have hlast : l.idxOf y < l.length := List.idxOf_lt_length_of_mem hy
  have hrel := List.pairwise_iff_getElem.mp hl _ _ (lt_trans h hlast) hlast h
  rwa [List.getElem_idxOf, List.getElem_idxOf] at hrel

/-- In its own turn a twin takes the other. -/
theorem Twins.nearest_eq (h : Twins key near dist le l a b) (hl : l.Pairwise le) (hb : b ∈ l) :
    Clusters.nearest key near dist a l (key b) = some b := by
  classical
  have hsorted : (l.filter fun x => near x a = true ∧ key x = key b).Pairwise le :=
    hl.sublist List.filter_sublist
  have hmem : b ∈ l.filter fun x => near x a = true ∧ key x = key b :=
    List.mem_filter.mpr ⟨hb, decide_eq_true ⟨h.meet.1, rfl⟩⟩
  apply List.mem_argmin_iff.mpr
  refine ⟨hmem, ?_, ?_⟩
  · intro y hy
    obtain ⟨hyl, hykey⟩ := List.mem_filter.mp hy
    by_cases heq : y = b
    · rw [heq]
    · exact (h.closest y hyl (of_decide_eq_true hykey).2 heq).1
  · intro y hy hle
    obtain ⟨hyl, hykey⟩ := List.mem_filter.mp hy
    by_contra hlt
    have hbefore : le y b := rel_of_idxOf_lt hsorted hmem (not_le.mp hlt)
    have hne : y ≠ b := by
      rintro rfl
      exact hlt (le_refl _)
    exact absurd hle (not_le.mpr ((h.closest y hyl (of_decide_eq_true hykey).2 hne).2 hbefore))

/-- An item that the anchor takes is claimed after its turn. -/
theorem claimed_of_took {anchor x : α} {i : ℕ} {k : κ} (hx : ∀ j, (x, j) ∈ items → j = i)
    (htook : took (anchor, choose key near dist claimed anchor items) k = some x) :
    i ∈ claimed ++ (choose key near dist claimed anchor items).values.map Prod.fst := by
  obtain ⟨⟨j, y⟩, hget, rfl⟩ := Option.map_eq_some_iff.mp htook
  rw [← hx j (of_get?_choose hget).1]
  apply List.mem_append_right
  exact List.mem_map.mpr ⟨_, List.mem_map.mpr ⟨_, Dict.mem_entries_iff.mpr hget, rfl⟩, rfl⟩

/-- An item that it does not take is left. -/
theorem unclaimed_of_not_took {anchor x : α} {i : ℕ} (hitems : (items.map Prod.snd).Nodup)
    (hx : (x, i) ∈ items) (hi : i ∉ claimed)
    (hnot : took (anchor, choose key near dist claimed anchor items) (key x) ≠ some x) :
    i ∉ claimed ++ (choose key near dist claimed anchor items).values.map Prod.fst := by
  intro h
  rcases List.mem_append.mp h with h | h
  · exact hi h
  · obtain ⟨⟨i', y⟩, hmem, rfl⟩ := List.mem_map.mp h
    obtain ⟨⟨k, v⟩, hentry, hv⟩ := List.mem_map.mp hmem
    cases hv
    have hget := Dict.mem_entries_iff.mp hentry
    obtain ⟨hy, -, -, rfl⟩ := of_get?_choose hget
    have heq : (y, i') = (x, i') := List.inj_on_of_nodup_map hitems hy hx rfl
    cases heq
    apply hnot
    rw [took, hget]
    rfl

/-- No anchor but the two finds one of them nearest without the other. -/
def TakenTogether (key : α → κ) (near : α → α → Bool) (dist : α → α → δ) (a b : α)
    (t : α × List α) : Prop :=
  a ∈ t.2 → b ∈ t.2 → t.1 ≠ a → t.1 ≠ b →
    (Clusters.nearest key near dist t.1 t.2 (key a) = some a ↔
      Clusters.nearest key near dist t.1 t.2 (key b) = some b)

section Turn

variable {x : α} {n i j : ℕ}

theorem mem_left (ha : (a, i) ∈ items) (hi : i ∉ claimed) :
    a ∈ (items.filter (·.2 ∉ claimed)).map Prod.fst :=
  List.mem_map.mpr ⟨(a, i), List.mem_filter.mpr ⟨ha, decide_eq_true hi⟩, rfl⟩

theorem left_sublist (claimed : List ℕ) (items : List (α × ℕ)) :
    ((items.filter (·.2 ∉ claimed)).map Prod.fst).Sublist (items.map Prod.fst) :=
  List.filter_sublist.map Prod.fst

/-- A twin whose turn comes takes itself and the other. -/
theorem Twins.took_both (htwins : Twins key near dist le (((a, n) :: items).map Prod.fst) a b)
    (hself : ∀ x y, near x y = true → near y y = true)
    (hdist : ∀ x y : α, ¬ dist x y < dist y y)
    (hsorted : (((a, n) :: items).map Prod.fst).Pairwise le)
    (hb : (b, j) ∈ (a, n) :: items) (hn : n ∉ claimed) (hj : j ∉ claimed) :
    took (a, choose key near dist claimed a ((a, n) :: items)) (key a) = some a ∧
      took (a, choose key near dist claimed a ((a, n) :: items)) (key b) = some b := by
  constructor
  · have hanchor : (choose key near dist claimed a ((a, n) :: items)).get? (key a) = some (n, a) :=
      get?_choose_anchor hn (hself b a htwins.meet.1) fun x => hdist x a
    rw [took, hanchor]
    rfl
  · rw [took_eq_nearest]
    have hsub := left_sublist claimed ((a, n) :: items)
    exact (htwins.mono hsub.subset).nearest_eq (hsorted.sublist hsub) (mem_left hb hj)

/-- An anchor before both that takes one of the two, and not the other, takes
something else in its place. -/
theorem Twins.separates (htwins : Twins key near dist le (((x, n) :: items).map Prod.fst) a b)
    (hsorted : (((x, n) :: items).map Prod.fst).Pairwise le) (hxa : x ≠ a) (hxb : x ≠ b)
    (ha : (a, i) ∈ (x, n) :: items) (hb : (b, j) ∈ (x, n) :: items) (hj : j ∉ claimed)
    (htook : took (x, choose key near dist claimed x ((x, n) :: items)) (key a) = some a)
    (hnot : took (x, choose key near dist claimed x ((x, n) :: items)) (key b) ≠ some b) :
    Separates key (x, choose key near dist claimed x ((x, n) :: items)) a b := by
  have hbefore : ∀ z m, (z, m) ∈ (x, n) :: items → x ≠ z → le x z := by
    intro z m hz hne
    rcases List.mem_cons.mp hz with heq | hz
    · cases heq
      exact absurd rfl hne
    · exact List.rel_of_pairwise_cons hsorted (List.mem_map_of_mem (f := Prod.fst) hz)
  have hnear : near b x = true := by
    rw [← htwins.near_before x List.mem_cons_self (hbefore a i ha hxa) (hbefore b j hb hxb)]
    obtain ⟨⟨m, y⟩, hget, rfl⟩ := Option.map_eq_some_iff.mp htook
    exact (of_get?_choose hget).2.2.1
  -- `b` is a candidate, so its key is not left without an item
  refine ⟨htook, ?_⟩
  cases hother : took (x, choose key near dist claimed x ((x, n) :: items)) (key b) with
  | some z => exact ⟨z, rfl, fun heq => hnot (heq ▸ hother)⟩
  | none =>
      rw [took_eq_nearest, nearest, List.argmin_eq_none] at hother
      have hmem : b ∈ ((((x, n) :: items).filter (·.2 ∉ claimed)).map Prod.fst).filter
          fun y => near y x = true ∧ key y = key b :=
        List.mem_filter.mpr ⟨mem_left hb hj, decide_eq_true ⟨hnear, rfl⟩⟩
      rw [hother] at hmem
      cases hmem

/-- An anchor that is one of the two takes both. -/
theorem Twins.took_anchor (htwins : Twins key near dist le (((x, n) :: items).map Prod.fst) a b)
    (hself : ∀ x y, near x y = true → near y y = true)
    (hdist : ∀ x y : α, ¬ dist x y < dist y y)
    (hsorted : (((x, n) :: items).map Prod.fst).Pairwise le) (ha : (a, i) ∈ (x, n) :: items)
    (hb : (b, j) ∈ (x, n) :: items) (hn : n ∉ claimed) (hi : i ∉ claimed) (hj : j ∉ claimed)
    (hx : x = a ∨ x = b) :
    took (x, choose key near dist claimed x ((x, n) :: items)) (key a) = some a ∧
      took (x, choose key near dist claimed x ((x, n) :: items)) (key b) = some b := by
  rcases hx with rfl | rfl
  · exact htwins.took_both hself hdist hsorted hb hn hj
  · exact (htwins.symm.took_both hself hdist hsorted ha hn hi).symm

/-- An anchor that takes one of the two alone is neither, and separates them. -/
theorem Twins.parted (htwins : Twins key near dist le (((x, n) :: items).map Prod.fst) a b)
    (hself : ∀ x y, near x y = true → near y y = true)
    (hdist : ∀ x y : α, ¬ dist x y < dist y y)
    (hsorted : (((x, n) :: items).map Prod.fst).Pairwise le) (ha : (a, i) ∈ (x, n) :: items)
    (hb : (b, j) ∈ (x, n) :: items) (hn : n ∉ claimed) (hi : i ∉ claimed) (hj : j ∉ claimed)
    (htook : took (x, choose key near dist claimed x ((x, n) :: items)) (key a) = some a)
    (hnot : took (x, choose key near dist claimed x ((x, n) :: items)) (key b) ≠ some b) :
    x ≠ a ∧ x ≠ b ∧ Separates key (x, choose key near dist claimed x ((x, n) :: items)) a b := by
  have hne : ¬ (x = a ∨ x = b) := fun hx =>
    hnot (htwins.took_anchor hself hdist hsorted ha hb hn hi hj hx).2
  obtain ⟨hxa, hxb⟩ := not_or.mp hne
  exact ⟨hxa, hxb, htwins.separates hsorted hxa hxb ha hb hj htook hnot⟩

/-- After a turn that takes an item, all its places are claimed. -/
theorem claimed_tail (ha : ∀ k, (a, k) ∈ (x, n) :: items ↔ k = i)
    (htook : took (x, choose key near dist claimed x ((x, n) :: items)) (key a) = some a) (k : ℕ)
    (hk : (a, k) ∈ items) : k ∈ claimed ++
      (choose key near dist claimed x ((x, n) :: items)).values.map Prod.fst := by
  rw [(ha k).mp (List.mem_cons_of_mem _ hk)]
  exact claimed_of_took (fun m => (ha m).mp) htook

/-- Taken both by one anchor, the two are not separated by it. -/
theorem not_separates_of_took {c : Cluster α κ} {y : α} (h : took c (key y) = some y) (z : α) :
    ¬ Separates key c z y := by
  rintro ⟨-, w, hw, hne⟩
  rw [h] at hw
  exact hne (Option.some.inj hw).symm

/-- What is claimed is in no cluster and no turn after. -/
theorem kept_of_claimed (ha : ∀ k, (a, k) ∈ items → k ∈ claimed)
    (hb : ∀ k, (b, k) ∈ items → k ∈ claimed) :
    (∀ c ∈ walk key near dist claimed items, ¬ Separates key c a b ∧ ¬ Separates key c b a) ∧
      ∀ t ∈ turns key near dist claimed items, TakenTogether key near dist a b t := by
  constructor
  · intro c hc
    exact ⟨fun hsep => took_ne_of_claimed hc ha _ hsep.1,
      fun hsep => took_ne_of_claimed hc hb _ hsep.1⟩
  · intro t ht hat
    obtain ⟨k, hk, hclaimed⟩ := mem_items_of_mem_turns ht hat
    exact absurd (ha k hk) hclaimed

/-- A turn with both of them still there, by what its anchor took. -/
theorem takenTogether_iff (ha : (a, i) ∈ items) (hb : (b, j) ∈ items) (hi : i ∉ claimed)
    (hj : j ∉ claimed) :
    TakenTogether key near dist a b (x, (items.filter (·.2 ∉ claimed)).map Prod.fst) ↔
      (x ≠ a → x ≠ b → (took (x, choose key near dist claimed x items) (key a) = some a ↔
        took (x, choose key near dist claimed x items) (key b) = some b)) := by
  rw [took_eq_nearest, took_eq_nearest]
  constructor
  · intro h
    exact h (mem_left ha hi) (mem_left hb hj)
  · intro h _ _
    exact h

/-- An item that is not the head stands once among the rest. -/
theorem once_of_cons (ha : ∀ k, (a, k) ∈ (x, n) :: items ↔ k = i) (hne : (x, n) ≠ (a, i)) (k : ℕ) :
    (a, k) ∈ items ↔ k = i := by
  constructor
  · intro hk
    exact (ha k).mp (List.mem_cons_of_mem _ hk)
  · intro hk
    rw [hk]
    exact (List.mem_cons.mp ((ha i).mpr rfl)).resolve_left (Ne.symm hne)

end Turn

/-- **A walk keeps twins together** exactly if every turn does. -/
theorem kept_together_iff (hself : ∀ x y, near x y = true → near y y = true)
    (hdist : ∀ x y : α, ¬ dist x y < dist y y)
    (htwins : Twins key near dist le (items.map Prod.fst) a b)
    (hsorted : (items.map Prod.fst).Pairwise le) (hitems : (items.map Prod.snd).Nodup) {i j : ℕ}
    (ha : ∀ n, (a, n) ∈ items ↔ n = i) (hb : ∀ n, (b, n) ∈ items ↔ n = j) (hi : i ∉ claimed)
    (hj : j ∉ claimed) :
    (∀ c ∈ walk key near dist claimed items,
      ¬ Separates key c a b ∧ ¬ Separates key c b a) ↔
        ∀ t ∈ turns key near dist claimed items, TakenTogether key near dist a b t := by
  -- the induction is on the items; both stay among those left until a turn takes them
  induction items generalizing claimed with
  | nil => exact absurd ((ha i).mpr rfl) List.not_mem_nil
  | cons y items ih =>
      obtain ⟨x, n⟩ := y
      have hia : (a, i) ∈ (x, n) :: items := (ha i).mpr rfl
      have hjb : (b, j) ∈ (x, n) :: items := (hb j).mpr rfl
      have htail : Twins key near dist le (items.map Prod.fst) a b :=
        htwins.mono fun z hz => List.mem_cons_of_mem _ hz
      rw [walk, turns]
      by_cases hn : n ∈ claimed
      · rw [if_pos hn, if_pos hn]
        have hna : (x, n) ≠ (a, i) := fun heq => hi ((Prod.mk.inj heq).2 ▸ hn)
        have hnb : (x, n) ≠ (b, j) := fun heq => hj ((Prod.mk.inj heq).2 ▸ hn)
        exact ih htail hsorted.of_cons hitems.of_cons (once_of_cons ha hna) (once_of_cons hb hnb)
          hi hj
      rw [if_neg hn, if_neg hn, List.forall_mem_cons, List.forall_mem_cons,
        takenTogether_iff hia hjb hi hj]
      by_cases hA : took (x, choose key near dist claimed x ((x, n) :: items)) (key a) = some a
      · by_cases hB : took (x, choose key near dist claimed x ((x, n) :: items)) (key b) = some b
        · -- both are claimed here
          have hgone := claimed_tail ha hA
          have hgone' := claimed_tail hb hB
          constructor
          · intro _
            exact ⟨fun _ _ => iff_of_true hA hB, (kept_of_claimed hgone hgone').2⟩
          · intro _
            exact ⟨⟨not_separates_of_took hB a, not_separates_of_took hA b⟩,
              (kept_of_claimed hgone hgone').1⟩
        · obtain ⟨hxa, hxb, hsep⟩ :=
            htwins.parted hself hdist hsorted hia hjb hn hi hj hA hB
          constructor
          · intro h
            exact absurd hsep h.1.1
          · intro h
            exact absurd ((h.1 hxa hxb).mp hA) hB
      · by_cases hB : took (x, choose key near dist claimed x ((x, n) :: items)) (key b) = some b
        · obtain ⟨hxb, hxa, hsep⟩ :=
            htwins.symm.parted hself hdist hsorted hjb hia hn hj hi hB hA
          constructor
          · intro h
            exact absurd hsep h.1.2
          · intro h
            exact absurd ((h.1 hxa hxb).mpr hB) hA
        · -- neither is claimed here
          have hna : (x, n) ≠ (a, i) := fun heq => hA (htwins.took_anchor hself hdist hsorted hia
            hjb hn hi hj (.inl (congrArg Prod.fst heq))).1
          have hnb : (x, n) ≠ (b, j) := fun heq => hB (htwins.took_anchor hself hdist hsorted hia
            hjb hn hi hj (.inr (congrArg Prod.fst heq))).2
          rw [ih htail hsorted.of_cons hitems.of_cons (once_of_cons ha hna) (once_of_cons hb hnb)
            (unclaimed_of_not_took hitems hia hi hA) (unclaimed_of_not_took hitems hjb hj hB)]
          constructor
          · intro h
            exact ⟨fun _ _ => iff_of_false hA hB, h.2⟩
          · intro h
            exact ⟨⟨fun hsep => hA hsep.1, fun hsep => hB hsep.1⟩, h.2⟩

/-! ## Pairs that the walk takes together -/

/-- What is left of the items. -/
def left (claimed : List ℕ) (items : List (α × ℕ)) : List α :=
  (items.filter (·.2 ∉ claimed)).map Prod.fst

variable (key near dist le) in
/-- Twins that the items list alike: whatever of the one key an earlier item
finds no farther than a twin has a twin of the other key itself. -/
structure Balanced (l : List α) (P : α → α → Prop) : Prop where
  symm : ∀ {a b}, P a b → P b a
  twins : ∀ {a b}, P a b → Twins key near dist le l a b
  unique : ∀ {a b c}, P a b → P a c → key c = key b → c = b
  dist_eq : ∀ {a b x}, P a b → x ∈ l → le x a → le x b → dist a x = dist b x
  listed : ∀ {a b x y}, P a b → x ∈ l → y ∈ l → le x a → le x b → le x y → near b x = true →
    near y x = true → key y = key b → dist y x ≤ dist b x →
      y = b ∨ dist y x < dist b x ∧ ∃ y', P y' y ∧ key y' = key a

variable {P : α → α → Prop}

omit [DecidableEq κ] in
theorem Balanced.mono (h : Balanced key near dist le l P) {l' : List α}
    (hsub : ∀ x ∈ l', x ∈ l) : Balanced key near dist le l' P where
  symm := h.symm
  twins := fun hp => (h.twins hp).mono hsub
  unique := h.unique
  dist_eq := fun hp hx => h.dist_eq hp (hsub _ hx)
  listed := fun hp hx hy => h.listed hp (hsub _ hx) (hsub _ hy)

omit [DecidableEq κ] [LinearOrder δ] in
theorem mem_left_iff : a ∈ left claimed items ↔ ∃ i, (a, i) ∈ items ∧ i ∉ claimed := by
  simp [left]

/-- **One turn takes twins together**, where it found both or neither of every
pair. -/
theorem Balanced.took_together {x : α} {n : ℕ}
    (h : Balanced key near dist le (((x, n) :: items).map Prod.fst) P)
    (hfirst : ∀ y ∈ ((x, n) :: items).map Prod.fst, le x y)
    (hleft : ∀ {a b}, P a b → (a ∈ left claimed ((x, n) :: items) ↔
      b ∈ left claimed ((x, n) :: items)))
    (hab : P a b)
    (htook : took (x, choose key near dist claimed x ((x, n) :: items)) (key a) = some a) :
    took (x, choose key near dist claimed x ((x, n) :: items)) (key b) = some b := by
  have hitem : ∀ {y}, y ∈ left claimed ((x, n) :: items) → y ∈ ((x, n) :: items).map Prod.fst :=
    fun hy => (left_sublist claimed _).subset hy
  rw [took_eq_nearest] at htook ⊢
  have hmema := List.argmin_mem (Option.mem_def.mpr htook)
  have hbest := fun z hz => List.le_of_mem_argmin (a := z) hz (Option.mem_def.mpr htook)
  obtain ⟨haleft, hanear⟩ := List.mem_filter.mp hmema
  have hbleft := (hleft hab).mp haleft
  have hla := hfirst a (hitem haleft)
  have hlb := hfirst b (hitem hbleft)
  have hbnear : near b x = true := by
    rw [← (h.twins hab).near_before x List.mem_cons_self hla hlb]
    exact (of_decide_eq_true hanear).1
  have hmemb : b ∈ (left claimed ((x, n) :: items)).filter fun y =>
      near y x = true ∧ key y = key b := List.mem_filter.mpr ⟨hbleft, decide_eq_true ⟨hbnear, rfl⟩⟩
  cases hnearest : nearest key near dist x (left claimed ((x, n) :: items)) (key b) with
  | none =>
      rw [nearest, List.argmin_eq_none] at hnearest
      rw [hnearest] at hmemb
      cases hmemb
  | some y =>
      have hmemy := List.argmin_mem (Option.mem_def.mpr hnearest)
      have hbesty := List.le_of_mem_argmin hmemb (Option.mem_def.mpr hnearest)
      obtain ⟨hyleft, hynear⟩ := List.mem_filter.mp hmemy
      obtain ⟨hynear, hykey⟩ := of_decide_eq_true hynear
      have hly := hfirst y (hitem hyleft)
      rcases h.listed hab List.mem_cons_self (hitem hyleft) hla hlb hly hbnear hynear hykey
        hbesty with heq | ⟨hlt, y', hpair, hkey⟩
      · rw [← heq]
        rw [← heq] at hnearest
        exact hnearest
      · -- the twin of `y` is left as well, and nearer than `a`
        have hyleft' := (hleft hpair).mpr hyleft
        have hly' := hfirst y' (hitem hyleft')
        have hynear' : near y' x = true := by
          rw [(h.twins hpair).near_before x List.mem_cons_self hly' hly]
          exact hynear
        have hle := hbest y' (List.mem_filter.mpr ⟨hyleft', decide_eq_true ⟨hynear', hkey⟩⟩)
        rw [h.dist_eq hpair List.mem_cons_self hly' hly,
          h.dist_eq hab List.mem_cons_self hla hlb] at hle
        exact absurd hlt (not_lt.mpr hle)

/-- What is left after a turn: what was left and not taken. -/
theorem mem_left_after {x : α} {n : ℕ} (hitems : (((x, n) :: items).map Prod.snd).Nodup)
    (honce : ∀ i j, (a, i) ∈ (x, n) :: items → (a, j) ∈ (x, n) :: items → i = j)
    (hnear : near a a = true) (hdist : ∀ y, ¬ dist y a < dist a a) (hn : n ∉ claimed) :
    a ∈ left (claimed ++ (choose key near dist claimed x ((x, n) :: items)).values.map Prod.fst)
        items ↔
      a ∈ left claimed ((x, n) :: items) ∧
        took (x, choose key near dist claimed x ((x, n) :: items)) (key a) ≠ some a := by
  rw [mem_left_iff, mem_left_iff]
  constructor
  · rintro ⟨i, hi, hfree⟩
    have hi := List.mem_cons_of_mem (x, n) hi
    refine ⟨⟨i, hi, fun h => hfree (List.mem_append_left _ h)⟩, fun htook => hfree ?_⟩
    exact claimed_of_took (fun j hj => honce j i hj hi) htook
  · rintro ⟨⟨i, hi, hfree⟩, hnot⟩
    have hfree' := unclaimed_of_not_took hitems hi hfree hnot
    refine ⟨i, (List.mem_cons.mp hi).resolve_left fun heq => hnot ?_, hfree'⟩
    -- at the head it would have taken itself
    cases heq
    rw [took, get?_choose_anchor hn hnear hdist]
    rfl

/-- **A walk over items that are listed alike takes twins together.** -/
theorem Balanced.takenTogether (h : Balanced key near dist le (items.map Prod.fst) P)
    (hrefl : ∀ x, le x x) (hself : ∀ x y, near x y = true → near y y = true)
    (hdist : ∀ x y : α, ¬ dist x y < dist y y)
    (hsorted : (items.map Prod.fst).Pairwise le) (hitems : (items.map Prod.snd).Nodup)
    (honce : ∀ {a b}, P a b → ∀ i j, (a, i) ∈ items → (a, j) ∈ items → i = j)
    (hleft : ∀ {a b}, P a b → (a ∈ left claimed items ↔ b ∈ left claimed items))
    (hab : P a b) :
    ∀ t ∈ turns key near dist claimed items, TakenTogether key near dist a b t := by
  -- the induction is on the items; what is left of a pair is left of it whole
  induction items generalizing claimed with
  | nil =>
      intro t ht
      cases ht
  | cons y items ih =>
      obtain ⟨x, n⟩ := y
      have htail : Balanced key near dist le (items.map Prod.fst) P :=
        h.mono fun z hz => List.mem_cons_of_mem _ hz
      have honce' : ∀ {a b}, P a b → ∀ i j, (a, i) ∈ items → (a, j) ∈ items → i = j :=
        fun hp i j hi hj => honce hp i j (List.mem_cons_of_mem _ hi) (List.mem_cons_of_mem _ hj)
      rw [turns]
      by_cases hn : n ∈ claimed
      · rw [if_pos hn]
        refine ih htail hsorted.of_cons hitems.of_cons honce' fun hp => ?_
        have hskip : left claimed ((x, n) :: items) = left claimed items := by
          rw [left, List.filter_cons_of_neg (by simpa using hn), left]
        have hp' := hleft hp
        rwa [hskip] at hp'
      rw [if_neg hn]
      have hfirst : ∀ y ∈ ((x, n) :: items).map Prod.fst, le x y := by
        intro y hy
        rcases List.mem_cons.mp hy with rfl | hy
        · exact hrefl y
        · exact List.rel_of_pairwise_cons hsorted hy
      have htook : ∀ {a b}, P a b →
          (took (x, choose key near dist claimed x ((x, n) :: items)) (key a) = some a ↔
            took (x, choose key near dist claimed x ((x, n) :: items)) (key b) = some b) :=
        fun hp => ⟨h.took_together hfirst hleft hp, h.took_together hfirst hleft (h.symm hp)⟩
      refine List.forall_mem_cons.mpr ⟨fun _ _ _ _ => ?_, ?_⟩
      · have hiff := htook hab
        rw [took_eq_nearest, took_eq_nearest] at hiff
        exact hiff
      · refine ih htail hsorted.of_cons hitems.of_cons honce' fun hp => ?_
        have hnear := hself _ _ (h.twins hp).meet.2
        have hnear' := hself _ _ (h.twins hp).meet.1
        rw [mem_left_after hitems (honce hp) hnear' (fun z => hdist z _) hn,
          mem_left_after hitems (honce (h.symm hp)) hnear (fun z => hdist z _) hn]
        exact and_congr (hleft hp) (not_congr (htook hp))

end Clusters
