import Mathlib.Tactic.Linarith
import Mathlib.Tactic.MkIffOfInductiveProp
import Arbys.Lib.ClusterTurns
import Arbys.Discovery.MatchGrouping

/-!
# Exact counterparts

A game of each of two venues with the same start, which no other game of
either venue shares, is an `ExactPair`: the one fixture both venues list. The
greedy loop anchors on the earliest game left, so a neighbour that only one
venue lists may take the counterpart of a later game before its turn comes.

`exactPair_kept` says what the two venues must list for a pair to be kept:
what leads up to it `ListedAlike`. A `LoneNeighbour` before the pair loses it.
The first part goes by turns of the loop (`ExactPair.kept_iff`): where every
game that leads up to the pair has its counterpart, no turn finds one of two
counterparts nearest without the other.
-/

namespace Arbys

/-- `g` is played at the start of `a`: at its instant or, where `a` has none, on
its date. -/
def AtStartOf (a g : VenueGame) : Prop :=
  match a.startTime with
  | some start => g.startTime = some start
  | none => g.gameDate = a.gameDate

instance (a g : VenueGame) : Decidable (AtStartOf a g) := by
  unfold AtStartOf
  split <;> infer_instance

/-- The only game of its pair key and venue at its start. -/
def OnlyAtStart (games : List VenueGame) (a : VenueGame) : Prop :=
  (games.filter fun g => pairKey g = pairKey a ∧ g.venueId = a.venueId ∧ AtStartOf a g) = [a]

instance (games : List VenueGame) (a : VenueGame) : Decidable (OnlyAtStart games a) :=
  inferInstanceAs (Decidable (_ = _))

@[mk_iff]
structure ExactPair (games : List VenueGame) (a b : VenueGame) : Prop where
  venues : a.venueId ≠ b.venueId
  pair : pairKey a = pairKey b
  start : SameStart a b
  left : OnlyAtStart games a
  right : OnlyAtStart games b

instance (games : List VenueGame) (a b : VenueGame) : Decidable (ExactPair games a b) :=
  decidable_of_iff _ (exactPair_iff games a b).symm

/-- The match holds `x` with a different game of the venue of `y`. -/
def SplitsFrom (m : CrossVenueMatch) (x y : VenueGame) : Prop :=
  m.perVenue.get? x.venueId = some x ∧ ∃ g, m.perVenue.get? y.venueId = some g ∧ g ≠ y

/-- The turns of the loop over one bucket: each anchor with the games left. -/
def turnsOf (dateTol : ℤ) (games : List VenueGame) : List (VenueGame × List VenueGame) :=
  Clusters.turns (·.venueId) (sameFixture dateTol) distance [] (sortGames games).zipIdx

/-! ## One game at its start -/

section Starts

variable {games : List VenueGame} {a b g : VenueGame} {dateTol : ℤ}

theorem OnlyAtStart.mem (h : OnlyAtStart games a) : a ∈ games := by
  have hmem : a ∈ games.filter fun g =>
      pairKey g = pairKey a ∧ g.venueId = a.venueId ∧ AtStartOf a g := by
    rw [OnlyAtStart] at h
    rw [h]
    exact List.mem_singleton_self a
  exact (List.mem_filter.mp hmem).1

theorem OnlyAtStart.eq (h : OnlyAtStart games a) (hg : g ∈ games) (hpair : pairKey g = pairKey a)
    (hvenue : g.venueId = a.venueId) (hstart : AtStartOf a g) : g = a := by
  have hmem : g ∈ games.filter fun g =>
      pairKey g = pairKey a ∧ g.venueId = a.venueId ∧ AtStartOf a g :=
    List.mem_filter.mpr ⟨hg, decide_eq_true ⟨hpair, hvenue, hstart⟩⟩
  rw [OnlyAtStart] at h
  rw [h] at hmem
  exact List.mem_singleton.mp hmem

theorem atStartOf_self (a : VenueGame) : AtStartOf a a := by
  unfold AtStartOf
  split
  · assumption
  · rfl

/-- It is listed once. -/
theorem OnlyAtStart.count (h : OnlyAtStart games a) : games.count a = 1 := by
  have hcount : (games.filter fun g =>
      pairKey g = pairKey a ∧ g.venueId = a.venueId ∧ AtStartOf a g).count a = games.count a :=
    List.count_filter (decide_eq_true ⟨rfl, rfl, atStartOf_self a⟩)
  rw [OnlyAtStart] at h
  rw [← hcount, h]
  exact List.count_singleton_self

/-- Restricting the games to the pair key changes nothing. -/
theorem OnlyAtStart.bucket (h : OnlyAtStart games a) :
    OnlyAtStart (games.filter fun g => pairKey g = pairKey a) a := by
  unfold OnlyAtStart
  rw [List.filter_filter]
  refine Eq.trans ?_ h
  apply List.filter_congr
  intro g _
  by_cases hpair : pairKey g = pairKey a
  · simp [hpair]
  · simp [hpair]

theorem SameStart.symm (h : SameStart a b) : SameStart b a :=
  ⟨h.1.symm, fun hnone => (h.2 (h.1.trans hnone)).symm⟩

theorem ExactPair.symm (h : ExactPair games a b) : ExactPair games b a where
  venues := Ne.symm h.venues
  pair := h.pair.symm
  start := h.start.symm
  left := h.right
  right := h.left

/-! ## The two games of a pair are twins -/

theorem distance_nonneg (g anchor : VenueGame) : 0 ≤ distance g anchor := by
  unfold distance
  split
  · exact abs_nonneg _
  · exact mul_nonneg (abs_nonneg _) (by norm_num)

theorem distance_eq_zero (h : SameStart a b) : distance b a = 0 := by
  unfold distance
  rw [← h.1]
  cases hs : a.startTime with
  | some start => simp
  | none => simp [h.2 hs]

/-- What is as near to `a` as `a` itself, and not at its start, has no start
time where `a` has one. -/
theorem startTime_of_distance_eq_zero (h : distance g a = 0) (hnot : ¬ AtStartOf a g) :
    g.startTime = none ∧ a.startTime ≠ none := by
  unfold distance at h
  unfold AtStartOf at hnot
  cases hs : a.startTime with
  | some start =>
      rw [hs] at h hnot
      cases hg : g.startTime with
      | some other =>
          rw [hg] at h hnot
          simp only [abs_eq_zero, sub_eq_zero] at h
          exact absurd (congrArg some h) hnot
      | none => exact ⟨rfl, Option.some_ne_none _⟩
  | none =>
      rw [hs] at h hnot
      have hdate : |(g.gameDate.toordinal : ℚ) - a.gameDate.toordinal| * 86400 = 0 := by
        cases hg : g.startTime <;> simpa [hg] using h
      have hzero : (g.gameDate.toordinal : ℚ) - a.gameDate.toordinal = 0 := by
        rw [mul_eq_zero, abs_eq_zero] at hdate
        exact hdate.resolve_right (by norm_num)
      exact absurd (Date.toordinal_injective (by exact_mod_cast sub_eq_zero.mp hzero)) hnot

/-- A game without a start time comes after all that have one. -/
theorem not_orderKey_le (hg : g.startTime = none) (ha : a.startTime ≠ none) :
    ¬ orderKey g ≤ orderKey a := by
  obtain ⟨start, hs⟩ := Option.ne_none_iff_exists'.mp ha
  have hlt : orderKey a < orderKey g := by
    unfold orderKey
    rw [hs, hg]
    exact Prod.Lex.toLex_lt_toLex.mpr (.inl Nat.zero_lt_one)
  exact not_le.mpr hlt

/-- Before both of them, a game is as near to the one as to the other. -/
theorem sameFixture_eq (h : SameStart a b) (hle : orderKey g ≤ orderKey a) :
    sameFixture dateTol a g = sameFixture dateTol b g := by
  unfold sameFixture
  rw [← h.1]
  cases hs : a.startTime with
  | some start =>
      cases hg : g.startTime with
      | some other => rfl
      | none => exact absurd hle (not_orderKey_le hg (by simp [hs]))
  | none => simp only [h.2 hs]

/-- Another game of the venue of `b` is farther from `a` than `b`, or comes
after it. -/
theorem ExactPair.closest (h : ExactPair games a b) (hg : g ∈ games)
    (hpair : pairKey g = pairKey a) (hvenue : g.venueId = b.venueId) (hne : g ≠ b) :
    distance b a ≤ distance g a ∧
      (orderKey g ≤ orderKey b → distance b a < distance g a) := by
  rw [distance_eq_zero h.start]
  refine ⟨distance_nonneg g a, fun hle => ?_⟩
  apply lt_of_le_of_ne (distance_nonneg g a)
  intro hzero
  have hnot : ¬ AtStartOf a g := by
    intro hat
    apply hne
    apply h.right.eq hg (hpair.trans h.pair) hvenue
    unfold AtStartOf at hat ⊢
    rw [← h.start.1]
    cases hs : a.startTime with
    | some start => simpa [hs] using hat
    | none => simpa [hs, ← h.start.2 hs] using hat
  obtain ⟨hgnone, hasome⟩ := startTime_of_distance_eq_zero hzero.symm hnot
  exact not_orderKey_le hgnone (h.start.1 ▸ hasome) hle

/-- **An exact pair stands at one place** of its bucket. -/
theorem ExactPair.twins (h : ExactPair games a b) (hpair : ∀ g ∈ games, pairKey g = pairKey a)
    (hmeet : sameFixture dateTol b a = true) :
    Clusters.Twins (·.venueId) (sameFixture dateTol) distance
      (fun x y => orderKey x ≤ orderKey y) (sortGames games) a b where
  key_ne := h.venues
  meet := by
    refine ⟨hmeet, ?_⟩
    unfold sameFixture at hmeet ⊢
    rw [← h.start.1] at hmeet ⊢
    cases hs : a.startTime with
    | some start => simpa [hs] using hmeet
    | none => simpa [hs, h.start.2 hs] using hmeet
  near_before := fun x _ hle _ => sameFixture_eq h.start hle
  closest := by
    intro y hy hvenue hne
    have hmem := (List.perm_insertionSort _ games).mem_iff.mp hy
    exact h.closest hmem (hpair y hmem) hvenue hne
  closest' := by
    intro y hy hvenue hne
    have hmem := (List.perm_insertionSort _ games).mem_iff.mp hy
    exact h.symm.closest hmem ((hpair y hmem).trans h.pair) hvenue hne

/-- A pair that does not meet itself meets nothing: the tolerance in days is
negative and there are no start times. -/
theorem sameFixture_eq_false (h : SameStart a b) (hmeet : sameFixture dateTol b a ≠ true)
    (x : VenueGame) : sameFixture dateTol a x = false ∧ sameFixture dateTol b x = false := by
  unfold sameFixture at hmeet ⊢
  rw [← h.1] at hmeet ⊢
  cases hs : a.startTime with
  | some start =>
      rw [hs] at hmeet
      simp [startTimeTolerance] at hmeet
  | none =>
      have hneg : dateTol < 0 := by
        simpa [hs, h.2 hs] using hmeet
      have hfar : ∀ d : ℤ, ¬ |d| ≤ dateTol := by
        intro d hle
        have := abs_nonneg d
        omega
      constructor
      · simp [hfar]
      · simp [hfar]

/-- A game listed once stands at one place of the sorted bucket. -/
theorem once_zipIdx (hcount : games.count a = 1) :
    ∃ i, ∀ n, (a, n) ∈ (sortGames games).zipIdx ↔ n = i := by
  have hplace : ∀ l : List VenueGame, l.count a = 1 → ∃ i, ∀ n : ℕ, l[n]? = some a ↔ n = i := by
    intro l
    induction l with
    | nil =>
        intro hl
        simp at hl
    | cons g l ih =>
        intro hl
        by_cases hg : g = a
        · rw [hg, List.count_cons_self] at hl
          have hnot : a ∉ l := List.count_eq_zero.mp (by omega)
          refine ⟨0, fun n => ?_⟩
          cases n with
          | zero => simp [hg]
          | succ n =>
              simp only [List.getElem?_cons_succ, Nat.succ_ne_zero, iff_false]
              intro hget
              exact hnot (List.mem_of_getElem? hget)
        · rw [List.count_cons_of_ne hg] at hl
          obtain ⟨i, hi⟩ := ih hl
          refine ⟨i + 1, fun n => ?_⟩
          cases n with
          | zero => simp [hg]
          | succ n => simp [hi]
  have hsorted : (sortGames games).count a = 1 := by
    rw [← hcount]
    exact (List.perm_insertionSort _ games).count_eq a
  obtain ⟨i, hi⟩ := hplace _ hsorted
  exact ⟨i, fun n => List.mem_zipIdx_iff_getElem?.trans (hi n)⟩

end Starts

/-! ## Games of one pair key that are all timed, or all only dated -/

/-- `g` has a start time exactly if `a` has one. -/
def TimedLike (a g : VenueGame) : Prop := g.startTime = none ↔ a.startTime = none

instance (a g : VenueGame) : Decidable (TimedLike a g) := inferInstanceAs (Decidable (_ ↔ _))

/-- Where a game stands, in seconds. -/
def position (g : VenueGame) : ℚ :=
  match g.startTime with
  | some start => start
  | none => g.gameDate.toordinal * 86400

/-- How far apart one fixture may stand. -/
def reach (dateTol : ℤ) (a : VenueGame) : ℚ :=
  if a.startTime = none then dateTol * 86400 else startTimeTolerance

section Positions

variable {a g h : VenueGame} {dateTol : ℤ}

theorem distance_eq_position (hg : TimedLike a g) (hh : TimedLike a h) :
    distance g h = |position g - position h| := by
  have hgh : g.startTime = none ↔ h.startTime = none := hg.trans hh.symm
  unfold distance position
  cases hs : g.startTime with
  | some start =>
      cases ht : h.startTime with
      | some start' => rfl
      | none => exact absurd (hgh.mpr ht) (by simp [hs])
  | none =>
      rw [hgh.mp hs]
      simp only
      rw [← sub_mul, abs_mul, abs_of_pos (by norm_num : (0 : ℚ) < 86400)]

theorem sameFixture_iff_position (hg : TimedLike a g) (hh : TimedLike a h) :
    sameFixture dateTol g h = true ↔ |position g - position h| ≤ reach dateTol a := by
  have hgh : g.startTime = none ↔ h.startTime = none := hg.trans hh.symm
  unfold sameFixture position reach
  cases hs : g.startTime with
  | some start =>
      cases ht : h.startTime with
      | some start' =>
          rw [if_neg fun ha => by simp [hg.mpr ha] at hs]
          simp only [decide_eq_true_eq]
      | none => exact absurd (hgh.mpr ht) (by simp [hs])
  | none =>
      rw [hgh.mp hs, if_pos (hg.mp hs)]
      simp only [decide_eq_true_eq]
      rw [← sub_mul, abs_mul, abs_of_pos (by norm_num : (0 : ℚ) < 86400),
        mul_le_mul_iff_left₀ (by norm_num : (0 : ℚ) < 86400)]
      constructor
      · intro hle
        exact_mod_cast hle
      · intro hle
        exact_mod_cast hle

theorem position_le_of_orderKey (hg : TimedLike a g) (hh : TimedLike a h)
    (hle : orderKey g ≤ orderKey h) : position g ≤ position h := by
  have hgh : g.startTime = none ↔ h.startTime = none := hg.trans hh.symm
  unfold orderKey at hle
  unfold position
  cases hs : g.startTime with
  | some start =>
      cases ht : h.startTime with
      | some start' =>
          rw [hs, ht] at hle
          simp only [Prod.Lex.toLex_le_toLex, lt_irrefl, true_and, false_or] at hle
          exact hle.elim le_of_lt fun h => le_of_eq h.1
      | none => exact absurd (hgh.mpr ht) (by simp [hs])
  | none =>
      rw [hs, hgh.mp hs] at hle
      simp only [Prod.Lex.toLex_le_toLex, lt_irrefl, true_and, false_or] at hle
      rw [hgh.mp hs]
      have hdate := hle.elim le_of_lt fun h => le_of_eq h.1
      exact mul_le_mul_of_nonneg_right hdate (by norm_num)

theorem orderKey_le_of_position (hg : TimedLike a g) (hh : TimedLike a h)
    (hlt : position g < position h) : orderKey g ≤ orderKey h := by
  by_contra hle
  exact absurd (position_le_of_orderKey hh hg (le_of_lt (not_le.mp hle))) (not_le.mpr hlt)

theorem atStartOf_iff_position (hg : TimedLike a g) (hh : TimedLike a h) :
    AtStartOf g h ↔ position h = position g := by
  have hgh : g.startTime = none ↔ h.startTime = none := hg.trans hh.symm
  unfold AtStartOf position
  cases hs : g.startTime with
  | some start =>
      cases ht : h.startTime with
      | some start' => simp
      | none => exact absurd (hgh.mpr ht) (by simp [hs])
  | none =>
      rw [hgh.mp hs]
      simp only
      rw [mul_left_inj' (by norm_num : (86400 : ℚ) ≠ 0), Nat.cast_inj]
      exact ⟨fun heq => by rw [heq], fun heq => Date.toordinal_injective heq⟩

theorem position_eq_of_sameStart {h' : VenueGame} (h : SameStart g h') : position g = position h' := by
  unfold position
  rw [← h.1]
  cases hs : g.startTime with
  | some start => rfl
  | none => simp only [h.2 hs]

end Positions

/-- The games that lead up to `a`: `a`, and before a game that does every game
of the pair key that is its fixture. -/
inductive Linked (dateTol : ℤ) (games : List VenueGame) (a : VenueGame) : VenueGame → Prop
  | self : Linked dateTol games a a
  | step {y x : VenueGame} : Linked dateTol games a y → x ∈ games → pairKey x = pairKey a →
      orderKey x ≤ orderKey y → sameFixture dateTol y x = true → Linked dateTol games a x

/-- The venues of `a` and `b` list alike what leads up to them: every game of
the one has its exact counterpart at the other, and all games of the pair key
are timed, or all only dated. -/
structure ListedAlike (dateTol : ℤ) (games : List VenueGame) (a b : VenueGame) : Prop where
  timed : ∀ g ∈ games, pairKey g = pairKey a → TimedLike a g
  counterpart : ∀ x, Linked dateTol games a x → x.venueId = a.venueId →
    ∃ y, y.venueId = b.venueId ∧ ExactPair games x y
  counterpart' : ∀ x, Linked dateTol games a x → x.venueId = b.venueId →
    ∃ y, y.venueId = a.venueId ∧ ExactPair games x y

/-- `x` stands alone before the pair: a game of the venue of `a`, the first of
its pair key to be a fixture of itself or of `b`, with no game of the venue of
`b` as near to it as `b`. -/
structure LoneNeighbour (dateTol : ℤ) (games : List VenueGame) (a b x : VenueGame) : Prop where
  mem : x ∈ games
  pair : pairKey x = pairKey a
  venue : x.venueId = a.venueId
  ne : x ≠ a
  meets : sameFixture dateTol b x = true
  first : ∀ g ∈ games, pairKey g = pairKey a → orderKey g ≤ orderKey x → g ≠ x →
    sameFixture dateTol x g = false ∧ sameFixture dateTol b g = false
  closest : ∀ g ∈ games, pairKey g = pairKey a → g.venueId = b.venueId → g ≠ b →
    sameFixture dateTol g x = true → distance b x < distance g x

/-! ## One bucket -/

section Bucket

variable {games : List VenueGame} {a b : VenueGame} {dateTol : ℤ}

/-- A pair nothing is near is taken by no turn. -/
theorem ExactPair.takenTogether_of_far (h : ExactPair games a b)
    (hmeet : sameFixture dateTol b a ≠ true) (t : VenueGame × List VenueGame) :
    Clusters.TakenTogether (·.venueId) (sameFixture dateTol) distance a b t := by
  have hfar := sameFixture_eq_false h.start hmeet
  have hnone : ∀ x, (∀ y, sameFixture dateTol x y = false) →
      Clusters.nearest (·.venueId) (sameFixture dateTol) distance t.1 t.2 x.venueId ≠ some x := by
    intro x hx hnearest
    have hmem := (List.mem_filter.mp (List.argmin_mem (Option.mem_def.mpr hnearest))).2
    rw [hx t.1] at hmem
    simp at hmem
  intro _ _ _ _
  exact iff_of_false (hnone a fun y => (hfar y).1) (hnone b fun y => (hfar y).2)

/-- The loop over a bucket separates no pair, exactly if every turn takes both
or neither. -/
theorem ExactPair.separates_iff (h : ExactPair games a b)
    (hpair : ∀ g ∈ games, pairKey g = pairKey a) :
    (∀ c ∈ clusterGames dateTol games, ¬ Clusters.Separates (·.venueId) c a b ∧
      ¬ Clusters.Separates (·.venueId) c b a) ↔
        ∀ t ∈ turnsOf dateTol games,
          Clusters.TakenTogether (·.venueId) (sameFixture dateTol) distance a b t := by
  by_cases hmeet : sameFixture dateTol b a = true
  · obtain ⟨i, hi⟩ := once_zipIdx h.left.count
    obtain ⟨j, hj⟩ := once_zipIdx h.right.count
    have htwins : Clusters.Twins (·.venueId) (sameFixture dateTol) distance
        (fun x y => orderKey x ≤ orderKey y) ((sortGames games).zipIdx.map Prod.fst) a b := by
      rw [List.zipIdx_map_fst]
      exact h.twins hpair hmeet
    exact Clusters.kept_together_iff (fun x y hxy => sameFixture_self hxy)
      (fun x y => not_distance_lt_self x y) htwins (pairwise_zipIdx_sortGames games)
      (nodup_zipIdx_sortGames games) hi hj List.not_mem_nil List.not_mem_nil
  · -- nothing is near either of them
    have hfar := sameFixture_eq_false h.start hmeet
    have hnot : ∀ x c, (∀ y, sameFixture dateTol x y = false) → c ∈ clusterGames dateTol games →
        Clusters.took c x.venueId ≠ some x := by
      intro x c hx hc htook
      obtain ⟨⟨n, y⟩, hget, rfl⟩ := Option.map_eq_some_iff.mp htook
      have hnear := (of_get?_cluster hc hget).2.2
      rw [hx c.1] at hnear
      cases hnear
    constructor
    · intro _ t _
      exact h.takenTogether_of_far hmeet t
    · intro _ c hc
      exact ⟨fun hsep => hnot a c (fun y => (hfar y).1) hc hsep.1,
        fun hsep => hnot b c (fun y => (hfar y).2) hc hsep.1⟩

/-- A match splits a pair as its cluster separates it. -/
theorem splitsFrom_matchOf (c : Clusters.Cluster VenueGame VenueId) (x y : VenueGame) :
    SplitsFrom (matchOf c.1 (c.2.mapVal fun _ chosen => chosen.2)) x y ↔
      Clusters.Separates (·.venueId) c x y := by
  unfold SplitsFrom Clusters.Separates Clusters.took matchOf
  rw [Dict.get?_mapVal, Dict.get?_mapVal]

/-- A cluster that separates games of two venues makes a match. -/
theorem two_le_of_separates {c : Clusters.Cluster VenueGame VenueId} {x y : VenueGame}
    (hne : x.venueId ≠ y.venueId) (h : Clusters.Separates (·.venueId) c x y) :
    2 ≤ c.2.entries.length := by
  obtain ⟨hx, z, hz, -⟩ := h
  obtain ⟨⟨n, x'⟩, hgetx, -⟩ := Option.map_eq_some_iff.mp hx
  obtain ⟨⟨m, y'⟩, hgety, -⟩ := Option.map_eq_some_iff.mp hz
  have hkeys : [x.venueId, y.venueId].length ≤ c.2.keys.length := by
    apply List.Subperm.length_le
    apply List.subperm_of_subset
    · simp [hne]
    · intro v hv
      rcases List.mem_pair.mp hv with rfl | rfl
      · exact Dict.mem_keys_iff.mpr (by rw [hgetx]; rfl)
      · exact Dict.mem_keys_iff.mpr (by rw [hgety]; rfl)
  have hlength : c.2.keys.length = c.2.entries.length := List.length_map _
  rw [← hlength]
  exact hkeys

/-- The matches of a bucket split no pair exactly if its clusters separate
none. -/
theorem ExactPair.matchesOf_iff (h : ExactPair games a b) :
    (∀ m ∈ matchesOf (clusterGames dateTol games), ¬ SplitsFrom m a b ∧ ¬ SplitsFrom m b a) ↔
      ∀ c ∈ clusterGames dateTol games, ¬ Clusters.Separates (·.venueId) c a b ∧
        ¬ Clusters.Separates (·.venueId) c b a := by
  constructor
  · intro hm c hc
    have hmatch : ∀ x y : VenueGame, x.venueId ≠ y.venueId →
        Clusters.Separates (·.venueId) c x y →
          matchOf c.1 (c.2.mapVal fun _ chosen => chosen.2) ∈
            matchesOf (clusterGames dateTol games) := by
      intro x y hne hsep
      have htwo := two_le_of_separates hne hsep
      exact List.mem_filterMap.mpr ⟨c, hc, if_neg (by omega)⟩
    constructor
    · intro hsep
      exact (hm _ (hmatch a b h.venues hsep)).1 ((splitsFrom_matchOf c a b).mpr hsep)
    · intro hsep
      exact (hm _ (hmatch b a h.venues.symm hsep)).2 ((splitsFrom_matchOf c b a).mpr hsep)
  · intro hall m hm
    obtain ⟨c, hc, -, rfl⟩ := mem_matchesOf_clusterGames hm
    rw [splitsFrom_matchOf, splitsFrom_matchOf]
    exact hall c hc

end Bucket

/-! ## Venues that list a fixture alike -/

section Alike

variable {games : List VenueGame} {a b p q : VenueGame} {dateTol : ℤ}

/-- The exact pairs of the two venues among the games that lead up to `a`. -/
structure LinkedPair (dateTol : ℤ) (games : List VenueGame) (a b p q : VenueGame) : Prop where
  pair : ExactPair games p q
  venues : p.venueId = a.venueId ∧ q.venueId = b.venueId ∨
    p.venueId = b.venueId ∧ q.venueId = a.venueId
  linked : Linked dateTol games a p ∨ Linked dateTol games a q

theorem LinkedPair.symm (h : LinkedPair dateTol games a b p q) :
    LinkedPair dateTol games a b q p where
  pair := h.pair.symm
  venues := h.venues.symm.imp And.symm And.symm
  linked := h.linked.symm

theorem ExactPair.mem (h : ExactPair games p q) : p ∈ games := h.left.mem

theorem ExactPair.position_eq (h : ExactPair games p q) : position p = position q :=
  position_eq_of_sameStart h.start

/-- What stands where a linked pair stands, or before it, within reach of an
earlier game, leads up to `a` as well. -/
theorem LinkedPair.linked_of_le (h : LinkedPair dateTol games a b p q)
    (hpair : ∀ g ∈ games, pairKey g = pairKey a) (htimed : ∀ g ∈ games, TimedLike a g)
    {y : VenueGame} (hy : y ∈ games) (hlt : position y < position q)
    (hnear : |position q - position y| ≤ reach dateTol a) : Linked dateTol games a y := by
  have hstep : ∀ {r}, Linked dateTol games a r → r ∈ games → position r = position q →
      Linked dateTol games a y := by
    intro r hr hmem hpos
    refine hr.step hy (hpair y hy) (orderKey_le_of_position (htimed y hy) (htimed r hmem) ?_) ?_
    · rw [hpos]
      exact hlt
    · rw [sameFixture_iff_position (htimed r hmem) (htimed y hy), hpos]
      exact hnear
  rcases h.linked with hlinked | hlinked
  · exact hstep hlinked h.pair.mem h.pair.position_eq
  · exact hstep hlinked h.pair.symm.mem rfl

/-- **The pairs that lead up to `a` are listed alike.** -/
theorem ListedAlike.balanced (h : ListedAlike dateTol games a b)
    (hpair : ∀ g ∈ games, pairKey g = pairKey a) (hreach : 0 ≤ reach dateTol a) :
    Clusters.Balanced (·.venueId) (sameFixture dateTol) distance
      (fun x y => orderKey x ≤ orderKey y) (sortGames games)
      (LinkedPair dateTol games a b) where
  symm := LinkedPair.symm
  twins := by
    intro p q hp
    have htp := h.timed p hp.pair.mem (hpair p hp.pair.mem)
    have htq := h.timed q hp.pair.symm.mem (hpair q hp.pair.symm.mem)
    refine hp.pair.twins (fun g hg => (hpair g hg).trans (hpair p hp.pair.mem).symm) ?_
    rw [sameFixture_iff_position htq htp, hp.pair.position_eq, sub_self, abs_zero]
    exact hreach
  unique := by
    intro p q r hq hr hvenue
    have hmem := hr.pair.symm.mem
    have htq := h.timed q hq.pair.symm.mem (hpair q hq.pair.symm.mem)
    refine hq.pair.right.eq hmem (hr.pair.pair.symm.trans hq.pair.pair) hvenue ?_
    rw [atStartOf_iff_position htq (h.timed r hmem (hpair r hmem)), ← hr.pair.position_eq,
      hq.pair.position_eq]
  dist_eq := by
    intro p q x hp hx _ _
    have hx := (List.perm_insertionSort _ games).mem_iff.mp hx
    have htx := h.timed x hx (hpair x hx)
    have htp := h.timed p hp.pair.mem (hpair p hp.pair.mem)
    have htq := h.timed q hp.pair.symm.mem (hpair q hp.pair.symm.mem)
    rw [distance_eq_position htp htx, distance_eq_position htq htx, hp.pair.position_eq]
  listed := by
    intro p q x y hp hx hy hxp hxq hxy hnearq hneary hvenue hdist
    have htimed := fun g hg => h.timed g hg (hpair g hg)
    have hx := (List.perm_insertionSort _ games).mem_iff.mp hx
    have hy := (List.perm_insertionSort _ games).mem_iff.mp hy
    have hq := hp.pair.symm.mem
    rw [sameFixture_iff_position (htimed q hq) (htimed x hx)] at hnearq
    rw [distance_eq_position (htimed y hy) (htimed x hx),
      distance_eq_position (htimed q hq) (htimed x hx)] at hdist ⊢
    -- the anchor stands before both, so the nearer of the two stands earlier
    have hposy := position_le_of_orderKey (htimed x hx) (htimed y hy) hxy
    have hposq := position_le_of_orderKey (htimed x hx) (htimed q hq) hxq
    rw [abs_of_nonneg (sub_nonneg.mpr hposq)] at hnearq hdist ⊢
    rw [abs_of_nonneg (sub_nonneg.mpr hposy)] at hdist ⊢
    have hle : position y ≤ position q := by linarith
    rcases eq_or_lt_of_le hle with heq | hlt
    · left
      refine hp.pair.right.eq hy ((hpair y hy).trans (hpair q hq).symm) hvenue ?_
      rw [atStartOf_iff_position (htimed q hq) (htimed y hy), heq]
    · right
      refine ⟨by linarith, ?_⟩
      have hlinked : Linked dateTol games a y := by
        refine hp.linked_of_le hpair htimed hy hlt ?_
        rw [abs_of_nonneg (sub_nonneg.mpr hle)]
        linarith
      rcases hp.venues with ⟨hva, hvb⟩ | ⟨hva, hvb⟩
      · obtain ⟨y', hv, hy'⟩ := h.counterpart' y hlinked (hvenue.trans hvb)
        exact ⟨y', ⟨hy'.symm, .inl ⟨hv, hvenue.trans hvb⟩, .inr hlinked⟩, hv.trans hva.symm⟩
      · obtain ⟨y', hv, hy'⟩ := h.counterpart y hlinked (hvenue.trans hvb)
        exact ⟨y', ⟨hy'.symm, .inr ⟨hv, hvenue.trans hvb⟩, .inr hlinked⟩, hv.trans hva.symm⟩

/-- **A pair that is listed alike is taken together**, on every turn. -/
theorem ListedAlike.takenTogether (h : ListedAlike dateTol games a b) (hab : ExactPair games a b)
    (hpair : ∀ g ∈ games, pairKey g = pairKey a) (hmeet : sameFixture dateTol b a = true) :
    ∀ t ∈ turnsOf dateTol games,
      Clusters.TakenTogether (·.venueId) (sameFixture dateTol) distance a b t := by
  have hta : TimedLike a a := Iff.rfl
  have htb := h.timed b hab.symm.mem (hpair b hab.symm.mem)
  have hreach : 0 ≤ reach dateTol a := by
    rw [sameFixture_iff_position htb hta, ← hab.position_eq, sub_self, abs_zero] at hmeet
    exact hmeet
  have hbalanced := h.balanced hpair hreach
  rw [← List.zipIdx_map_fst 0 (sortGames games)] at hbalanced
  refine hbalanced.takenTogether (fun x => le_refl _) (fun x y hxy => sameFixture_self hxy)
    (fun x y => not_distance_lt_self x y) (pairwise_zipIdx_sortGames games)
    (nodup_zipIdx_sortGames games) ?_ ?_
    ⟨hab, .inl ⟨rfl, rfl⟩, .inl .self⟩
  · intro p q hp i j hi hj
    obtain ⟨n, hn⟩ := once_zipIdx hp.pair.left.count
    exact ((hn i).mp hi).trans ((hn j).mp hj).symm
  · -- at the start every game is left
    have hall : ∀ {p q}, LinkedPair dateTol games a b p q →
        p ∈ Clusters.left [] (sortGames games).zipIdx := by
      intro p q hp
      obtain ⟨n, hn⟩ := once_zipIdx hp.pair.left.count
      exact Clusters.mem_left_iff.mpr ⟨n, (hn n).mpr rfl, List.not_mem_nil⟩
    intro p q hp
    exact iff_of_true (hall hp) (hall hp.symm)

end Alike

/-! ## All buckets -/

theorem ExactPair.bucket {games : List VenueGame} {a p q : VenueGame} (h : ExactPair games p q)
    (hkey : pairKey p = pairKey a) :
    ExactPair (games.filter fun g => pairKey g = pairKey a) p q := by
  refine ⟨h.venues, h.pair, h.start, ?_, ?_⟩
  · rw [← hkey]
    exact h.left.bucket
  · rw [← hkey, h.pair]
    exact h.right.bucket

/-- A pair is kept exactly if, on every turn over the games of its pair key that
finds both of them left and is neither's own, one of them is the nearest game
left of its venue when the other is. -/
theorem ExactPair.kept_iff (venueGames : List (List VenueGame)) (dateTol : ℤ) (a b : VenueGame)
    (h : ExactPair venueGames.flatten a b) :
    (∀ m ∈ matchGames venueGames dateTol, ¬ SplitsFrom m a b ∧ ¬ SplitsFrom m b a) ↔
      ∀ t ∈ turnsOf dateTol (venueGames.flatten.filter fun g => pairKey g = pairKey a),
        Clusters.TakenTogether (·.venueId) (sameFixture dateTol) distance a b t := by
  have hbucket := h.bucket rfl
  rw [← hbucket.separates_iff fun g hg => of_decide_eq_true (List.mem_filter.mp hg).2,
    ← hbucket.matchesOf_iff]
  have hperm := matchGames_perm_buckets venueGames dateTol
  constructor
  · intro hall m hm
    apply hall m
    apply hperm.mem_iff.mpr
    apply List.mem_flatMap.mpr
    exact ⟨pairKey a, Dict.mem_keys_groupBy.mpr ⟨a, h.left.mem, rfl⟩, hm⟩
  · intro hall m hm
    obtain ⟨k, -, hmk⟩ := List.mem_flatMap.mp (hperm.mem_iff.mp hm)
    -- a match that holds one of the two is of their bucket
    have hkey : ∀ x : VenueGame, m.perVenue.get? x.venueId = some x → pairKey x = k := by
      intro x hx
      obtain ⟨c, hc, -, rfl⟩ := mem_matchesOf_clusterGames hmk
      rw [matchOf, Dict.get?_mapVal] at hx
      obtain ⟨⟨n, y⟩, hget, rfl⟩ := Option.map_eq_some_iff.mp hx
      exact of_decide_eq_true (List.mem_filter.mp (of_get?_cluster hc hget).1).2
    constructor
    · intro hsplit
      have hk := hkey a hsplit.1
      rw [← hk] at hmk
      exact (hall m hmk).1 hsplit
    · intro hsplit
      have hk := hkey b hsplit.1
      rw [← hk, ← h.pair] at hmk
      exact (hall m hmk).2 hsplit

/-- What leads up to `a` is of its pair key. -/
theorem Linked.pairKey_eq {dateTol : ℤ} {games : List VenueGame} {a x : VenueGame}
    (h : Linked dateTol games a x) : pairKey x = pairKey a := by
  cases h with
  | self => rfl
  | step _ _ hkey _ _ => exact hkey

/-- The same in the bucket of the pair key. -/
theorem ListedAlike.bucket {dateTol : ℤ} {games : List VenueGame} {a b : VenueGame}
    (h : ListedAlike dateTol games a b) :
    ListedAlike dateTol (games.filter fun g => pairKey g = pairKey a) a b := by
  have hlinked : ∀ {x}, Linked dateTol (games.filter fun g => pairKey g = pairKey a) a x →
      Linked dateTol games a x := by
    intro x hx
    induction hx with
    | self => exact .self
    | step _ hmem hkey hle hfixture ih =>
        exact .step ih (List.mem_filter.mp hmem).1 hkey hle hfixture
  refine ⟨fun g hg => h.timed g (List.mem_filter.mp hg).1, ?_, ?_⟩
  · intro x hx hvenue
    obtain ⟨y, hy, hpair⟩ := h.counterpart x (hlinked hx) hvenue
    exact ⟨y, hy, hpair.bucket (hlinked hx).pairKey_eq⟩
  · intro x hx hvenue
    obtain ⟨y, hy, hpair⟩ := h.counterpart' x (hlinked hx) hvenue
    exact ⟨y, hy, hpair.bucket (hlinked hx).pairKey_eq⟩

/-- **A lone neighbour takes the counterpart**: it anchors a cluster with `b`. -/
theorem LoneNeighbour.exists_cluster {dateTol : ℤ} {games : List VenueGame} {a b x : VenueGame}
    (h : LoneNeighbour dateTol games a b x) (hb : b ∈ games) (hkey : pairKey a = pairKey b)
    (hself : sameFixture dateTol b b = true) :
    ∃ c ∈ clusterGames dateTol (games.filter fun g => pairKey g = pairKey a),
      c.1 = x ∧ b ∈ Clusters.members c := by
  have hbmem : b ∈ games.filter fun g => pairKey g = pairKey a :=
    List.mem_filter.mpr ⟨hb, decide_eq_true hkey.symm⟩
  have hxmem : x ∈ games.filter fun g => pairKey g = pairKey a :=
    List.mem_filter.mpr ⟨h.mem, decide_eq_true h.pair⟩
  have hfirst : ∀ g ∈ games.filter fun g => pairKey g = pairKey a, orderKey g ≤ orderKey x →
      sameFixture dateTol x g = true ∨ sameFixture dateTol b g = true → g = x := by
    intro g hg hle hnear
    by_contra hne
    obtain ⟨hmem, hgk⟩ := List.mem_filter.mp hg
    obtain ⟨hx, hb⟩ := h.first g hmem (of_decide_eq_true hgk) hle hne
    rw [hx, hb] at hnear
    simp at hnear
  obtain ⟨c, hc, hxc⟩ := exists_cluster_of_game hxmem (sameFixture_self h.meets)
  obtain ⟨d, hd, hbd⟩ := exists_cluster_of_game hbmem hself
  obtain ⟨-, hlec, hnearc⟩ := of_mem_members hc hxc
  have hanchor := hfirst c.1 (anchor_mem_games hc) hlec (.inl hnearc)
  by_cases hcd : c = d
  · exact ⟨c, hc, hanchor, hcd ▸ hbd⟩
  rcases leavesFor_or hc hd hcd with ⟨-, hleft⟩ | ⟨hle, -⟩
  · -- the cluster of `x` came first, and found no game of that venue as near as `b`
    obtain ⟨z, hz, hvenue, hnear, hdist⟩ := hleft b hbd (hanchor ▸ h.meets)
    rw [hanchor] at hnear hdist
    refine ⟨c, hc, hanchor, ?_⟩
    by_cases heq : z = b
    · exact heq ▸ hz
    · obtain ⟨hmem, hzk⟩ := List.mem_filter.mp (of_mem_members hc hz).1
      exact absurd hdist (not_le.mpr
        (h.closest z hmem (of_decide_eq_true hzk) hvenue heq hnear))
  · -- the cluster of `b` came first, so it is anchored on a game equal to `x`
    rw [hanchor] at hle
    exact ⟨d, hd, hfirst d.1 (anchor_mem_games hd) hle (.inr (of_mem_members hd hbd).2.2), hbd⟩

namespace Series

/-- A game of the series by its date alone. -/
def game (venueId : VenueId) (gameDate : Date) : VenueGame :=
  { Doubleheader.game venueId 0 with gameDate := gameDate, startTime := none }

def tuesday : Date := (Doubleheader.game "kalshi" 0).gameDate

def monday : Date := { tuesday with day := 10, day_range := by decide }

/-- Both venues list both games. -/
def venueGames : List (List VenueGame) :=
  [[game "kalshi" monday, game "kalshi" tuesday],
    [game "polymarket_us" monday, game "polymarket_us" tuesday]]

/-- Polymarket US lists Tuesday's game only. -/
def lopsided : List (List VenueGame) :=
  [[game "kalshi" monday, game "kalshi" tuesday], [game "polymarket_us" tuesday]]

theorem exactPair_tuesday :
    ExactPair venueGames.flatten (game "kalshi" tuesday) (game "polymarket_us" tuesday) := by
  decide +kernel

theorem exactPair_lopsided :
    ExactPair lopsided.flatten (game "kalshi" tuesday) (game "polymarket_us" tuesday) := by
  decide +kernel

/-- The two venues list the series alike. -/
theorem listedAlike_tuesday :
    ListedAlike 1 venueGames.flatten (game "kalshi" tuesday) (game "polymarket_us" tuesday) := by
  have hmem : ∀ {x}, Linked 1 venueGames.flatten (game "kalshi" tuesday) x →
      x ∈ venueGames.flatten := by
    intro x hx
    cases hx with
    | self => exact exactPair_tuesday.mem
    | step _ hmem _ _ _ => exact hmem
  have hkalshi : ∀ x ∈ venueGames.flatten, x.venueId = "kalshi" →
      ∃ y ∈ venueGames.flatten, y.venueId = "polymarket_us" ∧ ExactPair venueGames.flatten x y := by
    decide +kernel
  have hpoly : ∀ x ∈ venueGames.flatten, x.venueId = "polymarket_us" →
      ∃ y ∈ venueGames.flatten, y.venueId = "kalshi" ∧ ExactPair venueGames.flatten x y := by
    decide +kernel
  refine ⟨by decide +kernel, fun x hx hvenue => ?_, fun x hx hvenue => ?_⟩
  · obtain ⟨y, -, hy⟩ := hkalshi x (hmem hx) hvenue
    exact ⟨y, hy⟩
  · obtain ⟨y, -, hy⟩ := hpoly x (hmem hx) hvenue
    exact ⟨y, hy⟩

/-- Monday's game stands alone before Tuesday's pair. -/
theorem loneNeighbour_lopsided : LoneNeighbour 1 lopsided.flatten (game "kalshi" tuesday)
    (game "polymarket_us" tuesday) (game "kalshi" monday) where
  mem := by decide +kernel
  pair := by decide +kernel
  venue := by decide +kernel
  ne := by decide +kernel
  meets := by decide +kernel
  first := by decide +kernel
  closest := by decide +kernel

end Series

end Arbys
