import Arbys.Discovery.Matcher

/-!
# Matching is a sound grouping

No game is used twice; a match holds games of one pair key from two venues or
more, one each, all accepted as the fixture of the game the match was anchored
on; and the order in which the games are listed does not matter where the
games of one pair and venue start at different times.

`matchGames_perm_buckets` reads the code as one pass over each pair key, and
the results are about one bucket first.
-/

namespace Arbys

/-- Two games with the same start, or the same date where neither has one. -/
def SameStart (g h : VenueGame) : Prop :=
  g.startTime = h.startTime ∧ (g.startTime = none → g.gameDate = h.gameDate)

instance (g h : VenueGame) : Decidable (SameStart g h) :=
  inferInstanceAs (Decidable (_ ∧ _))

/-- Within one pair key and venue the starts are distinct. -/
def DistinctStarts (games : List VenueGame) : Prop :=
  games.Pairwise fun g h => pairKey g = pairKey h → g.venueId = h.venueId → ¬ SameStart g h

/-- The same lists, permuted among themselves and each within itself. -/
def Rearranged (venueGames venueGames' : List (List VenueGame)) : Prop :=
  ∃ mid, venueGames.Perm mid ∧ List.Forall₂ List.Perm mid venueGames'

/-- What a match may hold. -/
structure SoundMatch (dateTol : ℤ) (m : CrossVenueMatch) : Prop where
  venues : 2 ≤ m.perVenue.entries.length
  venueId : ∀ v g, m.perVenue.get? v = some g → g.venueId = v
  anchored : ∃ anchor ∈ m.perVenue.values, m = matchOf anchor m.perVenue ∧
    ∀ g ∈ m.perVenue.values, pairKey g = pairKey anchor ∧ sameFixture dateTol g anchor = true

theorem Rearranged.perm {venueGames venueGames' : List (List VenueGame)}
    (h : Rearranged venueGames venueGames') : venueGames.flatten.Perm venueGames'.flatten := by
  obtain ⟨mid, hperm, hwithin⟩ := h
  exact hperm.flatten.trans (List.Perm.flatten_congr hwithin)

/-! ## The order of a bucket -/

theorem venueId_eq_of_orderKey {g h : VenueGame} (heq : orderKey g = orderKey h) :
    g.venueId = h.venueId ∧ SameStart g h := by
  unfold orderKey at heq
  cases hg : g.startTime <;> cases hh : h.startTime <;> rw [hg, hh] at heq <;>
    simp only [toLex_inj, Prod.mk.injEq, true_and, Nat.zero_ne_one, one_ne_zero, false_and] at heq
  · obtain ⟨hdate, hvenue⟩ := heq
    exact ⟨hvenue, hg.trans hh.symm, fun _ => Date.toordinal_injective (by exact_mod_cast hdate)⟩
  · exact ⟨heq.2, by rw [hg, hh, heq.1], fun hnone => by rw [hg] at hnone; cases hnone⟩

/-- Sorting forgets the order the games of one pair key were listed in. -/
theorem sortGames_eq_of_perm {games games' : List VenueGame} (h : games.Perm games')
    (hdistinct : DistinctStarts games) (hkey : ∀ g ∈ games, ∀ g' ∈ games, pairKey g = pairKey g') :
    sortGames games = sortGames games' := by
  have hsymm : Std.Symm fun g h : VenueGame =>
      pairKey g = pairKey h → g.venueId = h.venueId → ¬ SameStart g h := by
    refine ⟨fun g h hgh hk hv hs => hgh hk.symm hv.symm ?_⟩
    exact ⟨hs.1.symm, fun hnone => (hs.2 (hs.1.trans hnone)).symm⟩
  have hperm : (sortGames games).Perm (sortGames games') :=
    (List.perm_insertionSort _ _).trans (h.trans (List.perm_insertionSort _ _).symm)
  refine hperm.eq_of_pairwise (fun a b ha hb hab hba => ?_)
    (List.pairwise_insertionSort _ _) (List.pairwise_insertionSort _ _)
  -- equal order keys mean one game: two would share venue and start
  by_contra hne
  have hmem : a ∈ games := (List.perm_insertionSort _ _).mem_iff.mp ha
  have hmem' : b ∈ games := h.mem_iff.mpr ((List.perm_insertionSort _ _).mem_iff.mp hb)
  obtain ⟨hvenue, hstart⟩ := venueId_eq_of_orderKey (le_antisymm hab hba)
  exact hdistinct.forall hmem hmem' hne (hkey a hmem b hmem') hvenue hstart

/-! ## One bucket -/

/-- What the loop over one bucket makes of its clusters. -/
def matchesOf (clusters : List (Clusters.Cluster VenueGame VenueId)) : List CrossVenueMatch :=
  clusters.filterMap fun c =>
    if c.2.entries.length < 2 then none
    else some (matchOf c.1 (c.2.mapVal fun _ chosen => chosen.2))

/-- The games of a match are the members of its cluster. -/
theorem values_perVenue (c : Clusters.Cluster VenueGame VenueId) :
    (c.2.mapVal fun _ chosen => chosen.2).values = Clusters.members c := by
  simp [Dict.values, Dict.mapVal, Clusters.members]

variable {dateTol : ℤ} {games : List VenueGame} {m : CrossVenueMatch}

/-- A cluster of a bucket, as its anchor took it. -/
theorem of_mem_clusterGames {c : Clusters.Cluster VenueGame VenueId}
    (hc : c ∈ clusterGames dateTol games) :
    ∃ rest claimed i, (∀ x ∈ (c.1, i) :: rest, x.1 ∈ games) ∧ i ∉ claimed ∧
      c.2 = Clusters.choose (·.venueId) (sameFixture dateTol) distance claimed c.1
        ((c.1, i) :: rest) := by
  obtain ⟨before, rest, claimed, i, hitems, hi, -, hchosen⟩ := Clusters.of_mem_walk hc
  refine ⟨rest, claimed, i, fun x hx => ?_, hi, hchosen⟩
  have hmem : x ∈ (sortGames games).zipIdx := by
    rw [hitems]
    exact List.mem_append_right _ hx
  exact (List.perm_insertionSort _ _).mem_iff.mp (List.fst_mem_of_mem_zipIdx hmem)

/-- The games a cluster took: of the bucket, each under its venue, each near
the anchor. -/
theorem of_get?_cluster {c : Clusters.Cluster VenueGame VenueId}
    (hc : c ∈ clusterGames dateTol games) {v : VenueId} {j : ℕ} {g : VenueGame}
    (h : c.2.get? v = some (j, g)) :
    g ∈ games ∧ g.venueId = v ∧ sameFixture dateTol g c.1 = true := by
  obtain ⟨rest, claimed, i, hgames, -, hchosen⟩ := of_mem_clusterGames hc
  rw [hchosen] at h
  obtain ⟨hmem, -, hnear, hvenue⟩ := Clusters.of_get?_choose h
  exact ⟨hgames _ hmem, hvenue, hnear⟩

/-- A bucket of one venue makes no match, so the loop may skip it. -/
theorem matchBucket_eq (dateTol : ℤ) (games : List VenueGame) :
    matchBucket dateTol games = matchesOf (clusterGames dateTol games) := by
  unfold matchBucket
  split
  · rename_i hall
    symm
    refine List.filterMap_eq_nil_iff.mpr fun c hc => if_pos ?_
    have hone : ∀ v ∈ c.2.keys, some v = games.head?.map (·.venueId) := by
      intro v hv
      obtain ⟨⟨j, g⟩, hg⟩ := Option.isSome_iff_exists.mp (Dict.mem_keys_iff.mp hv)
      obtain ⟨hgames, hvenue, -⟩ := of_get?_cluster hc hg
      rw [← hvenue]
      exact of_decide_eq_true (List.all_eq_true.mp hall g hgames)
    have hlen : c.2.keys.length ≤ 1 := by
      rcases hkeys : c.2.keys with _ | ⟨v, _ | ⟨w, rest⟩⟩
      · simp
      · simp
      · have hnodup := c.2.nodup
        rw [← Dict.keys, hkeys] at hnodup
        have hvw : v = w := Option.some.inj ((hone v (by simp [hkeys])).trans
          (hone w (by simp [hkeys])).symm)
        simp [hvw] at hnodup
    have : c.2.keys.length = c.2.entries.length := List.length_map _
    omega
  · rfl

theorem sameFixture_comm (x y : VenueGame) :
    sameFixture dateTol x y = sameFixture dateTol y x := by
  unfold sameFixture
  cases x.startTime <;> cases y.startTime <;> simp only [abs_sub_comm]

/-- A tolerance that accepts a game as an anchor's fixture accepts the anchor. -/
theorem sameFixture_self {g anchor : VenueGame} (h : sameFixture dateTol g anchor = true) :
    sameFixture dateTol anchor anchor = true := by
  cases hs : anchor.startTime with
  | some s => simp [sameFixture, hs, startTimeTolerance]
  | none =>
      have hdate : |(g.gameDate.toordinal : ℤ) - anchor.gameDate.toordinal| ≤ dateTol := by
        cases hg : g.startTime <;> simpa [sameFixture, hs, hg] using h
      have := abs_nonneg ((g.gameDate.toordinal : ℤ) - anchor.gameDate.toordinal)
      simp only [sameFixture, hs, sub_self, abs_zero, decide_eq_true_eq]
      omega

/-- Nothing is nearer to an anchor than the anchor. -/
theorem not_distance_lt_self (x anchor : VenueGame) :
    ¬ distance x anchor < distance anchor anchor := by
  intro hx
  have hzero : distance anchor anchor = 0 := by
    cases hs : anchor.startTime <;> simp [distance, hs]
  have hnonneg : 0 ≤ distance x anchor := by
    unfold distance
    split
    · exact abs_nonneg _
    · exact mul_nonneg (abs_nonneg _) (by norm_num)
  rw [hzero] at hx
  exact absurd hx (not_lt.mpr hnonneg)

/-- The anchor of a match took itself. -/
theorem anchor_mem {c : Clusters.Cluster VenueGame VenueId}
    (hc : c ∈ clusterGames dateTol games) (hne : c.2.entries ≠ []) :
    ∃ i, c.2.get? c.1.venueId = some (i, c.1) := by
  obtain ⟨rest, claimed, i, hgames, hi, hchosen⟩ := of_mem_clusterGames hc
  obtain ⟨⟨v, j, g⟩, he⟩ := List.exists_mem_of_ne_nil _ hne
  obtain ⟨-, -, hnear⟩ := of_get?_cluster hc (Dict.mem_entries_iff.mp he)
  rw [hchosen]
  exact ⟨i, Clusters.get?_choose_anchor hi (sameFixture_self hnear)
    fun x => not_distance_lt_self x c.1⟩

theorem mem_matchesOf_clusterGames (h : m ∈ matchesOf (clusterGames dateTol games)) :
    ∃ c ∈ clusterGames dateTol games, 2 ≤ c.2.entries.length ∧
      m = matchOf c.1 (c.2.mapVal fun _ chosen => chosen.2) := by
  obtain ⟨c, hc, hsome⟩ := List.mem_filterMap.mp h
  split at hsome
  · cases hsome
  · rename_i hlen
    cases hsome
    exact ⟨c, hc, by omega, rfl⟩

/-- **A match of one bucket is sound.** -/
theorem soundMatch_of_mem (h : m ∈ matchesOf (clusterGames dateTol games))
    (hkey : ∀ g ∈ games, ∀ g' ∈ games, pairKey g = pairKey g') : SoundMatch dateTol m := by
  obtain ⟨c, hc, hlen, rfl⟩ := mem_matchesOf_clusterGames h
  have hne : c.2.entries ≠ [] := by
    intro he
    rw [he] at hlen
    simp at hlen
  obtain ⟨i, hanchor⟩ := anchor_mem hc hne
  have hvalue : ∀ g ∈ (c.2.mapVal fun _ chosen => chosen.2).values,
      ∃ v j, c.2.get? v = some (j, g) := by
    intro g hg
    obtain ⟨e, he, rfl⟩ := List.mem_map.mp hg
    obtain ⟨⟨v, j, g⟩, hentry, rfl⟩ := List.mem_map.mp he
    exact ⟨v, j, Dict.mem_entries_iff.mp hentry⟩
  constructor
  · simpa [matchOf, Dict.mapVal] using hlen
  · intro v g hg
    simp only [matchOf, Dict.get?_mapVal, Option.map_eq_some_iff] at hg
    obtain ⟨⟨j, g'⟩, hg, rfl⟩ := hg
    exact (of_get?_cluster hc hg).2.1
  · refine ⟨c.1, ?_, rfl, fun g hg => ?_⟩
    · refine List.mem_map.mpr ⟨(c.1.venueId, c.1), ?_, rfl⟩
      exact List.mem_map.mpr ⟨(c.1.venueId, i, c.1), Dict.mem_entries_iff.mpr hanchor, rfl⟩
    · obtain ⟨v, j, hg⟩ := hvalue g hg
      obtain ⟨hgames, -, hnear⟩ := of_get?_cluster hc hg
      exact ⟨hkey _ hgames _ (of_get?_cluster hc hanchor).1, hnear⟩

/-- The matches of a bucket hold no game of it twice. -/
theorem matchesOf_subperm (dateTol : ℤ) (games : List VenueGame) :
    ((matchesOf (clusterGames dateTol games)).flatMap (·.perVenue.values)).Subperm games := by
  have hwalk := (Clusters.walk_subperm (·.venueId) (sameFixture dateTol) distance
    (sortGames games) []).trans (List.perm_insertionSort _ games).subperm
  refine List.Subperm.trans (List.Sublist.subperm ?_) hwalk
  -- a cluster that is too small only drops its members
  rw [← clusterGames]
  induction clusterGames dateTol games with
  | nil => exact List.Sublist.refl _
  | cons c cs ih =>
      by_cases hlen : c.2.entries.length < 2
      · rw [matchesOf, List.filterMap_cons, if_pos hlen, List.flatMap_cons]
        exact ih.trans (List.sublist_append_right _ _)
      · rw [matchesOf, List.filterMap_cons, if_neg hlen, List.flatMap_cons, List.flatMap_cons]
        rw [matchOf, values_perVenue]
        exact ih.append_left _

/-! ## What the clusters of a bucket leave each other -/

section Members

variable {c d : Clusters.Cluster VenueGame VenueId}

/-- The game of a cluster with its venue. -/
theorem mem_members_iff {x : VenueGame} : x ∈ Clusters.members c ↔ ∃ v j, c.2.get? v = some (j, x) := by
  constructor
  · intro hx
    obtain ⟨⟨j, x⟩, hmem, rfl⟩ := List.mem_map.mp hx
    obtain ⟨⟨v, e⟩, hentry, rfl⟩ := List.mem_map.mp hmem
    exact ⟨v, j, Dict.mem_entries_iff.mp hentry⟩
  · rintro ⟨v, j, hget⟩
    exact List.mem_map.mpr ⟨_, List.mem_map.mpr ⟨_, Dict.mem_entries_iff.mpr hget, rfl⟩, rfl⟩

theorem pairwise_zipIdx_sortGames (games : List VenueGame) :
    ((sortGames games).zipIdx.map Prod.fst).Pairwise fun a b => orderKey a ≤ orderKey b := by
  rw [List.zipIdx_map_fst]
  exact List.pairwise_insertionSort _ _

theorem nodup_zipIdx_sortGames (games : List VenueGame) :
    ((sortGames games).zipIdx.map Prod.snd).Nodup := by
  rw [List.zipIdx_map_snd]
  exact List.nodup_range' ..

/-- A member of a cluster is listed no earlier than the anchor, and is its
fixture. -/
theorem of_mem_members (hc : c ∈ clusterGames dateTol games) {x : VenueGame}
    (hx : x ∈ Clusters.members c) :
    x ∈ games ∧ orderKey c.1 ≤ orderKey x ∧ sameFixture dateTol x c.1 = true := by
  obtain ⟨v, j, hget⟩ := mem_members_iff.mp hx
  obtain ⟨before, rest, claimed, i, hitems, -, -, hchosen⟩ := Clusters.of_mem_walk hc
  refine ⟨(of_get?_cluster hc hget).1, ?_, (of_get?_cluster hc hget).2.2⟩
  rw [hchosen] at hget
  have hplace := (Clusters.of_get?_choose hget).1
  have hsorted := pairwise_zipIdx_sortGames games
  rw [hitems, List.map_append, List.map_cons, List.pairwise_append, List.pairwise_cons] at hsorted
  rcases List.mem_cons.mp hplace with heq | hrest
  · cases heq
    exact le_refl _
  · exact hsorted.2.1.1 x (List.mem_map.mpr ⟨_, hrest, rfl⟩)

/-- A cluster is anchored on a game of its bucket. -/
theorem anchor_mem_games (hc : c ∈ clusterGames dateTol games) : c.1 ∈ games := by
  obtain ⟨rest, claimed, i, hgames, -⟩ := of_mem_clusterGames hc
  exact hgames (c.1, i) List.mem_cons_self

/-- A game that is its own fixture is in a cluster. -/
theorem exists_cluster_of_game {x : VenueGame} (hx : x ∈ games)
    (hself : sameFixture dateTol x x = true) :
    ∃ c ∈ clusterGames dateTol games, x ∈ Clusters.members c := by
  have hsorted : x ∈ sortGames games := (List.perm_insertionSort _ _).mem_iff.mpr hx
  rw [← List.zipIdx_map_fst 0 (sortGames games)] at hsorted
  obtain ⟨⟨y, i⟩, hi, rfl⟩ := List.mem_map.mp hsorted
  exact Clusters.exists_cluster_of_mem (nodup_zipIdx_sortGames games) hi List.not_mem_nil hself
    fun z => not_distance_lt_self z y

/-- What `c` leaves to `d` it took another game of the same venue for. -/
def LeavesFor (dateTol : ℤ) (c d : Clusters.Cluster VenueGame VenueId) : Prop :=
  ∀ x ∈ Clusters.members d, sameFixture dateTol x c.1 = true →
    ∃ z ∈ Clusters.members c, z.venueId = x.venueId ∧ sameFixture dateTol z c.1 = true ∧
      distance z c.1 ≤ distance x c.1

/-- Of two clusters one is made first, on a game listed no later. -/
theorem leavesFor_or (hc : c ∈ clusterGames dateTol games) (hd : d ∈ clusterGames dateTol games)
    (hne : c ≠ d) : orderKey c.1 ≤ orderKey d.1 ∧ LeavesFor dateTol c d ∨
      orderKey d.1 ≤ orderKey c.1 ∧ LeavesFor dateTol d c := by
  have hsorted : ((clusterGames dateTol games).map Prod.fst).Pairwise
      fun a b => orderKey a ≤ orderKey b :=
    (pairwise_zipIdx_sortGames games).sublist (Clusters.anchors_sublist [])
  have hanchors : (clusterGames dateTol games).Pairwise fun c d => orderKey c.1 ≤ orderKey d.1 := by
    rw [List.pairwise_map] at hsorted
    exact hsorted
  have hleaves : (clusterGames dateTol games).Pairwise (LeavesFor dateTol) :=
    Clusters.walk_pairwise (·.venueId) (sameFixture dateTol) distance [] _
  have hpair : (clusterGames dateTol games).Pairwise fun c d =>
      orderKey c.1 ≤ orderKey d.1 ∧ LeavesFor dateTol c d ∨
        orderKey d.1 ≤ orderKey c.1 ∧ LeavesFor dateTol d c :=
    (hanchors.and hleaves).imp Or.inl
  have hsymm : Std.Symm fun c d : Clusters.Cluster VenueGame VenueId =>
      orderKey c.1 ≤ orderKey d.1 ∧ LeavesFor dateTol c d ∨
        orderKey d.1 ≤ orderKey c.1 ∧ LeavesFor dateTol d c := ⟨fun _ _ h => h.symm⟩
  exact hpair.forall hc hd hne

end Members

/-! ## All buckets -/

/-- **`match_games`, bucket by bucket.** -/
theorem matchGames_perm_buckets (venueGames : List (List VenueGame)) (dateTol : ℤ) :
    (matchGames venueGames dateTol).Perm
      ((Dict.groupBy pairKey venueGames.flatten).keys.flatMap fun k =>
        matchesOf (clusterGames dateTol (venueGames.flatten.filter fun g => pairKey g = k))) := by
  refine (List.perm_insertionSort _ _).trans ?_
  rw [Dict.entries_groupBy, List.flatMap_map]
  simp only [matchBucket_eq]
  exact List.Perm.refl _

/-- **`match_games` is a sound grouping that does not depend on the order of
its input.** -/
theorem matchGames_sound (venueGames : List (List VenueGame)) (dateTol : ℤ) :
    ((matchGames venueGames dateTol).flatMap (·.perVenue.values)).Subperm venueGames.flatten ∧
    (∀ m ∈ matchGames venueGames dateTol, SoundMatch dateTol m) ∧
    ∀ venueGames', Rearranged venueGames venueGames' → DistinctStarts venueGames.flatten →
      (matchGames venueGames dateTol).Perm (matchGames venueGames' dateTol) := by
  have hbuckets := matchGames_perm_buckets venueGames dateTol
  set ks := (Dict.groupBy pairKey venueGames.flatten).keys with hks
  have hnodup : ks.Nodup := (Dict.groupBy pairKey venueGames.flatten).nodup
  refine ⟨?_, fun m hm => ?_, fun venueGames' hre hdistinct => ?_⟩
  · refine ((hbuckets.flatMap_right _).subperm_right.mpr ?_).trans
      (Dict.flatMap_filter_subperm pairKey venueGames.flatten hnodup)
    rw [List.flatMap_assoc]
    clear hbuckets hks hnodup
    induction ks with
    | nil => exact List.Subperm.refl _
    | cons k ks ih =>
        rw [List.flatMap_cons, List.flatMap_cons]
        exact (matchesOf_subperm dateTol _).append ih
  · obtain ⟨k, -, hm⟩ := List.mem_flatMap.mp (hbuckets.mem_iff.mp hm)
    refine soundMatch_of_mem hm fun g hg g' hg' => ?_
    rw [of_decide_eq_true (List.mem_filter.mp hg).2, of_decide_eq_true (List.mem_filter.mp hg').2]
  · have hperm := hre.perm
    refine hbuckets.trans (List.Perm.trans ?_ (matchGames_perm_buckets venueGames' dateTol).symm)
    refine List.Perm.flatMap (Dict.keys_groupBy_perm hperm) fun k _ => ?_
    have hsort : sortGames (venueGames.flatten.filter fun g => pairKey g = k) =
        sortGames (venueGames'.flatten.filter fun g => pairKey g = k) := by
      refine sortGames_eq_of_perm (hperm.filter _) (hdistinct.sublist List.filter_sublist)
        fun g hg g' hg' => ?_
      rw [of_decide_eq_true (List.mem_filter.mp hg).2, of_decide_eq_true (List.mem_filter.mp hg').2]
    rw [clusterGames, clusterGames, hsort]

/-! ## A doubleheader -/

namespace Doubleheader

/-- Two games of one pair on one day, four and a half hours apart. -/
def game (venueId : VenueId) (startTime : ℚ) : VenueGame where
  sport := "mlb"
  venueId := venueId
  gameDate := ⟨2026, 8, 11, by decide, by decide, by decide⟩
  teams := (⟨"NYM", "New York Mets"⟩, ⟨"ATL", "Atlanta Braves"⟩)
  outcomeIds := Dict.ofList [("NYM", venueId ++ "-a"), ("ATL", venueId ++ "-b")]
  ref := venueId
  startTime := some startTime

def first : ℚ := 1786468200

def second : ℚ := 1786484400

def venueGames : List (List VenueGame) :=
  [[game "kalshi" first, game "kalshi" second],
    [game "polymarket_us" first, game "polymarket_us" second]]

/-- The same lists, in another order. -/
def rearranged : List (List VenueGame) :=
  [[game "polymarket_us" second, game "polymarket_us" first],
    [game "kalshi" first, game "kalshi" second]]

end Doubleheader

open Doubleheader in
theorem matchGames_sound_doubleheader :
    (matchGames venueGames).length = 2 ∧ (matchGames venueGames).Perm (matchGames rearranged) :=
  ⟨by decide +kernel, (matchGames_sound venueGames 0).2.2 rearranged
    ⟨venueGames.reverse, (List.reverse_perm _).symm,
      .cons (List.Perm.swap _ _ _) (.cons (List.Perm.refl _) .nil)⟩ (by
        unfold DistinctStarts
        decide +kernel)⟩

end Arbys
