import Mathlib.Tactic.MkIffOfInductiveProp
import Arbys.Discovery.MatchGrouping

/-!
# The id of a match names its fixture up to the day

An event group id is written from the sport, the codes, the date, the market
type and the line of the game a match is anchored on. The loop of `match_games`
tells two fixtures of one pair and one day apart by their starts, and the id
does not: a doubleheader is two matches of one id.

`eventGroupId_injective` says what must hold of the listed games for the ids
to tell the matches apart: no `SameDay` fixtures, and no key whose texts run
together in an id. Where the fixtures are clear, `SameDay` fixtures do share
an id.
-/

namespace Arbys

/-- The id of a match anchored on `g`. -/
def anchoredId (g : VenueGame) : GroupId := (matchOf g Dict.empty).eventGroupId

/-- A game and one of another venue, listed no earlier, that is its fixture. -/
@[mk_iff]
structure Listed (dateTol : ℤ) (games : List VenueGame) (g g' : VenueGame) : Prop where
  mem : g ∈ games
  mem' : g' ∈ games
  pair : pairKey g' = pairKey g
  venue : g'.venueId ≠ g.venueId
  first : orderKey g ≤ orderKey g'
  fixture : sameFixture dateTol g' g = true

/-- `g` does not need `h`: `h` is not its fixture, or some other game of the
venue of `h` is and starts no farther from `g`. -/
def PassesBy (dateTol : ℤ) (games : List VenueGame) (g h : VenueGame) : Prop :=
  sameFixture dateTol h g = true → ∃ z ∈ games, pairKey z = pairKey g ∧ z.venueId = h.venueId ∧
    z ≠ h ∧ sameFixture dateTol z g = true ∧ distance z g ≤ distance h g

/-- Two fixtures of one pair key, each listed by two venues, on one date. -/
@[mk_iff]
structure SameDay (dateTol : ℤ) (games : List VenueGame) (g g' h h' : VenueGame) : Prop where
  early : Listed dateTol games g g'
  late : Listed dateTol games h h'
  pair : pairKey g = pairKey h
  date : g.gameDate = h.gameDate
  apart : [g, g', h, h'].Nodup
  passed : PassesBy dateTol games g h
  passed' : PassesBy dateTol games g h'

/-- The texts of the key of `g` do not run together in an id. -/
@[mk_iff]
structure WellKeyed (g : VenueGame) : Prop where
  sport : '-' ∉ g.sport.toList
  codeA : '-' ∉ g.teams.1.code.toList
  codeB : '-' ∉ g.teams.2.code.toList
  marketType : '-' ∉ g.marketType.toList
  line : g.marketType = "moneyline" → g.line = none
  anchor : if g.marketType = "spread" then
      orText g.anchor "" = g.teams.1.code ∨ orText g.anchor "" = g.teams.2.code
    else orText g.anchor "" = ""

/-- The fixtures of a pair key are clear: games of one fixture are told as one
whichever is asked, each venue lists it once, and all date it alike. -/
structure ClearFixtures (dateTol : ℤ) (games : List VenueGame) : Prop where
  trans : ∀ x ∈ games, ∀ y ∈ games, ∀ z ∈ games, pairKey x = pairKey y → pairKey y = pairKey z →
    sameFixture dateTol x y = true → sameFixture dateTol y z = true →
      sameFixture dateTol x z = true
  once : ∀ x ∈ games, ∀ y ∈ games, pairKey x = pairKey y → x.venueId = y.venueId →
    sameFixture dateTol x y = true → x = y
  date : ∀ x ∈ games, ∀ y ∈ games, pairKey x = pairKey y → sameFixture dateTol x y = true →
    x.gameDate = y.gameDate

instance (dateTol : ℤ) (games : List VenueGame) (g g' : VenueGame) :
    Decidable (Listed dateTol games g g') := decidable_of_iff _ (listed_iff dateTol games g g').symm

instance (dateTol : ℤ) (games : List VenueGame) (g h : VenueGame) :
    Decidable (PassesBy dateTol games g h) :=
  inferInstanceAs (Decidable (_ → ∃ z ∈ games, _))

instance (dateTol : ℤ) (games : List VenueGame) (g g' h h' : VenueGame) :
    Decidable (SameDay dateTol games g g' h h') :=
  decidable_of_iff _ (sameDay_iff dateTol games g g' h h').symm

instance (g : VenueGame) : Decidable (WellKeyed g) := decidable_of_iff _ (wellKeyed_iff g).symm

/-- No two matches share an id. -/
def DistinctIds (ms : List CrossVenueMatch) : Prop :=
  ∀ m ∈ ms, ∀ n ∈ ms, m ≠ n → m.eventGroupId ≠ n.eventGroupId

/-! ## What the id is written from -/

theorem eventGroupId_matchOf (g : VenueGame) (perVenue : Dict VenueId VenueGame) :
    (matchOf g perVenue).eventGroupId = anchoredId g := rfl

/-- The id a match writes before its market type. -/
def idBase (g : VenueGame) : String :=
  g.sport ++ "-" ++ (sortedTeams g.teams).1.code ++ "-" ++ (sortedTeams g.teams).2.code ++ "-" ++
    g.gameDate.isoformat

theorem anchoredId_eq (g : VenueGame) : anchoredId g =
    if g.marketType = "spread" then
      idBase g ++ "-spread-" ++ (matchOf g Dict.empty).anchorParticipant.code ++ "-" ++
        fmtLine g.line
    else if g.marketType ≠ "moneyline" then
      idBase g ++ "-" ++ g.marketType ++ "-" ++ fmtLine g.line
    else idBase g := rfl

theorem sortedTeams_le (teams : Participant × Participant) :
    (sortedTeams teams).1.code ≤ (sortedTeams teams).2.code := by
  unfold sortedTeams
  split
  · rename_i h
    exact le_of_lt h
  · rename_i h
    exact not_lt.mp h

theorem sortedTeams_codes (teams : Participant × Participant) :
    ({(sortedTeams teams).1.code, (sortedTeams teams).2.code} : Finset String) =
      {teams.1.code, teams.2.code} := by
  unfold sortedTeams
  split
  · exact Finset.pair_comm _ _
  · rfl

/-- The same two codes are sorted the same. -/
theorem pair_eq_of_le {a b c d : String} (hab : a ≤ b) (hcd : c ≤ d)
    (h : ({a, b} : Finset String) = {c, d}) : a = c ∧ b = d := by
  have ha : a ∈ ({c, d} : Finset String) := h ▸ Finset.mem_insert_self a {b}
  have hb : b ∈ ({c, d} : Finset String) := h ▸ by simp
  have hc : c ∈ ({a, b} : Finset String) := h ▸ Finset.mem_insert_self c {d}
  have hd : d ∈ ({a, b} : Finset String) := h ▸ by simp
  simp only [Finset.mem_insert, Finset.mem_singleton] at ha hb hc hd
  rcases ha with rfl | rfl
  · rcases hb with rfl | rfl
    · rcases hd with rfl | rfl <;> exact ⟨rfl, rfl⟩
    · exact ⟨rfl, rfl⟩
  · have hac : a = c := by
      rcases hc with rfl | rfl
      · rfl
      · exact le_antisymm hab hcd
    subst hac
    refine ⟨rfl, ?_⟩
    rcases hb with rfl | rfl <;> rfl

section PairKey

variable {g h : VenueGame} (hkey : pairKey g = pairKey h)

include hkey in
theorem codes_eq_of_pairKey : (sortedTeams g.teams).1.code = (sortedTeams h.teams).1.code ∧
    (sortedTeams g.teams).2.code = (sortedTeams h.teams).2.code := by
  simp only [pairKey, Prod.mk.injEq] at hkey
  refine pair_eq_of_le (sortedTeams_le _) (sortedTeams_le _) ?_
  rw [sortedTeams_codes, sortedTeams_codes, hkey.2.2.2.2]

/-- The code an id names as the anchor. -/
theorem anchorParticipant_code (g : VenueGame) (perVenue : Dict VenueId VenueGame) :
    (matchOf g perVenue).anchorParticipant.code =
      if orText g.anchor "" = (sortedTeams g.teams).2.code then (sortedTeams g.teams).2.code
      else (sortedTeams g.teams).1.code := by
  have hdef : (matchOf g perVenue).anchorParticipant =
      if g.anchor = some (sortedTeams g.teams).2.code then (sortedTeams g.teams).2
      else (sortedTeams g.teams).1 := rfl
  rw [hdef]
  split
  · rename_i hanchor
    have htext : orText g.anchor "" = (sortedTeams g.teams).2.code := by
      rw [hanchor, orText_some_empty]
    rw [if_pos htext]
  · rename_i hanchor
    split
    · rename_i htext
      -- only an absent anchor reads as the second code without naming it,
      -- and the empty text sorts before every code
      have hempty : (sortedTeams g.teams).2.code = "" := by
        rcases ha : g.anchor with _ | a
        · rw [← htext, ha]
          rfl
        · rw [ha] at htext hanchor
          rw [orText_some_empty] at htext
          exact absurd (congrArg some htext) hanchor
      have hle := sortedTeams_le g.teams
      rw [hempty] at hle ⊢
      exact eq_empty_of_le hle
    · rfl

include hkey in
/-- **Within one pair key the id tells the days apart, and nothing else.** -/
theorem anchoredId_eq_iff : anchoredId g = anchoredId h ↔ g.gameDate = h.gameDate := by
  obtain ⟨hfirst, hsecond⟩ := codes_eq_of_pairKey hkey
  have hanchor : (matchOf g Dict.empty).anchorParticipant.code =
      (matchOf h Dict.empty).anchorParticipant.code := by
    simp only [pairKey, Prod.mk.injEq] at hkey
    rw [anchorParticipant_code, anchorParticipant_code, hfirst, hsecond, hkey.2.2.2.1]
  simp only [pairKey, Prod.mk.injEq] at hkey
  obtain ⟨hsport, htype, hline, -, -⟩ := hkey
  have hbase : idBase g = idBase h ↔ g.gameDate = h.gameDate := by
    rw [idBase, idBase, hsport, hfirst, hsecond, String.append_right_inj]
    exact ⟨Date.isoformat_injective, fun hdate => by rw [hdate]⟩
  rw [anchoredId_eq, anchoredId_eq, hanchor, htype, hline]
  split
  · simp only [String.append_left_inj, hbase]
  · split
    · simp only [String.append_left_inj, hbase]
    · exact hbase

end PairKey

/-! ## What the id tells of the key -/

theorem toList_idBase (g : VenueGame) : (idBase g).toList =
    g.sport.toList ++ '-' :: ((sortedTeams g.teams).1.code.toList ++
      '-' :: ((sortedTeams g.teams).2.code.toList ++ '-' :: g.gameDate.isoformat.toList)) := by
  simp [idBase, String.toList_append]

/-- What an id writes behind the market type. -/
def idDetail (g : VenueGame) : List Char :=
  if g.marketType = "spread" then
    (matchOf g Dict.empty).anchorParticipant.code.toList ++ '-' :: (fmtLine g.line).toList
  else (fmtLine g.line).toList

/-- What an id writes behind the date. -/
def idRest (g : VenueGame) : List Char :=
  if g.marketType = "moneyline" then []
  else '-' :: (g.marketType.toList ++ '-' :: idDetail g)

theorem toList_anchoredId (g : VenueGame) :
    (anchoredId g).toList = (idBase g).toList ++ idRest g := by
  rw [anchoredId_eq, idRest, idDetail]
  split
  · rename_i hspread
    rw [hspread]
    simp [String.toList_append]
  · split
    · simp [String.toList_append]
    · rename_i htype
      rw [if_pos (not_not.mp htype), List.append_nil]

/-- Every date is written with ten characters. -/
theorem length_isoformat (d : Date) : d.isoformat.toList.length = 10 := by
  have hday : daysInMonth d.year d.month ≤ 31 := by
    unfold daysInMonth
    split <;> try split
    all_goals omega
  have hyear := length_zeroPadded (n := d.year) (w := 4) (by omega) (by have := d.year_range; omega)
  have hmonth := length_zeroPadded (n := d.month) (w := 2) (by omega)
    (by have := d.month_range; omega)
  have hdays := length_zeroPadded (n := d.day) (w := 2) (by omega) (by have := d.day_range; omega)
  rw [Date.isoformat, String.toList_ofList, List.length_append, List.length_cons,
    List.length_append, List.length_cons, hyear, hmonth, hdays]

section WellKeyed

variable {g h : VenueGame}

theorem WellKeyed.sorted (hg : WellKeyed g) :
    '-' ∉ (sortedTeams g.teams).1.code.toList ∧ '-' ∉ (sortedTeams g.teams).2.code.toList := by
  unfold sortedTeams
  split
  · exact ⟨hg.codeB, hg.codeA⟩
  · exact ⟨hg.codeA, hg.codeB⟩

theorem dash_notMem_anchorParticipant (hg : WellKeyed g) :
    '-' ∉ (matchOf g Dict.empty).anchorParticipant.code.toList := by
  rw [anchorParticipant_code]
  split
  · exact hg.sorted.2
  · exact hg.sorted.1

/-- A spread names its own anchor in its id. -/
theorem WellKeyed.anchorParticipant_eq (hg : WellKeyed g) (hspread : g.marketType = "spread") :
    (matchOf g Dict.empty).anchorParticipant.code = orText g.anchor "" := by
  have hanchor := hg.anchor
  rw [if_pos hspread] at hanchor
  rw [anchorParticipant_code]
  split
  · rename_i h
    exact h.symm
  · rename_i h
    unfold sortedTeams at h ⊢
    split at h <;> rename_i hlt
    · rw [if_pos hlt]
      exact (hanchor.resolve_left h).symm
    · rw [if_neg hlt]
      exact (hanchor.resolve_right h).symm

/-- Behind one market type the anchor and the line are read back. -/
theorem WellKeyed.of_idDetail (hg : WellKeyed g) (hh : WellKeyed h)
    (htype : g.marketType = h.marketType) (heq : idDetail g = idDetail h) :
    orText g.anchor "" = orText h.anchor "" ∧ g.line = h.line := by
  unfold idDetail at heq
  rw [← htype] at heq
  by_cases hspread : g.marketType = "spread"
  · rw [if_pos hspread, if_pos hspread] at heq
    obtain ⟨hanchor, hline⟩ := append_sep_inj (dash_notMem_anchorParticipant hg)
      (dash_notMem_anchorParticipant hh) heq
    rw [String.toList_inj, hg.anchorParticipant_eq hspread,
      hh.anchorParticipant_eq (htype ▸ hspread)] at hanchor
    exact ⟨hanchor, fmtLine_injective (String.toList_inj.mp hline)⟩
  · rw [if_neg hspread, if_neg hspread] at heq
    have hga := hg.anchor
    have hha := hh.anchor
    rw [if_neg hspread] at hga
    rw [if_neg (htype ▸ hspread)] at hha
    exact ⟨hga.trans hha.symm, fmtLine_injective (String.toList_inj.mp heq)⟩

/-- The market type, the anchor and the line are read back from behind the date. -/
theorem WellKeyed.of_idRest (hg : WellKeyed g) (hh : WellKeyed h) (heq : idRest g = idRest h) :
    g.marketType = h.marketType ∧ orText g.anchor "" = orText h.anchor "" ∧ g.line = h.line := by
  unfold idRest at heq
  by_cases hgm : g.marketType = "moneyline" <;> by_cases hhm : h.marketType = "moneyline"
  · have hplain : ∀ x : VenueGame, WellKeyed x → x.marketType = "moneyline" →
        orText x.anchor "" = "" ∧ x.line = none := by
      intro x hx hm
      have hanchor := hx.anchor
      rw [if_neg (by rw [hm]; decide)] at hanchor
      exact ⟨hanchor, hx.line hm⟩
    obtain ⟨hga, hgl⟩ := hplain g hg hgm
    obtain ⟨hha, hhl⟩ := hplain h hh hhm
    exact ⟨hgm.trans hhm.symm, hga.trans hha.symm, hgl.trans hhl.symm⟩
  · rw [if_pos hgm, if_neg hhm] at heq
    cases heq
  · rw [if_neg hgm, if_pos hhm] at heq
    cases heq
  · rw [if_neg hgm, if_neg hhm] at heq
    obtain ⟨htype, hdetail⟩ := append_sep_inj hg.marketType hh.marketType (List.cons.inj heq).2
    have htype := String.toList_inj.mp htype
    exact ⟨htype, hg.of_idDetail hh htype hdetail⟩

/-- **An id whose texts do not run together names one pair key.** -/
theorem WellKeyed.pairKey_eq (hg : WellKeyed g) (hh : WellKeyed h)
    (heq : anchoredId g = anchoredId h) : pairKey g = pairKey h := by
  have htext := congrArg String.toList heq
  rw [toList_anchoredId, toList_anchoredId, toList_idBase, toList_idBase] at htext
  simp only [List.append_assoc, List.cons_append] at htext
  obtain ⟨hsport, htext⟩ := append_sep_inj hg.sport hh.sport htext
  obtain ⟨hfirst, htext⟩ := append_sep_inj hg.sorted.1 hh.sorted.1 htext
  obtain ⟨hsecond, htext⟩ := append_sep_inj hg.sorted.2 hh.sorted.2 htext
  -- every date is written with ten characters
  obtain ⟨-, hrest⟩ := List.append_inj htext
    ((length_isoformat g.gameDate).trans (length_isoformat h.gameDate).symm)
  obtain ⟨htype, hanchor, hline⟩ := hg.of_idRest hh hrest
  have hcodes : ({g.teams.1.code, g.teams.2.code} : Finset String) =
      {h.teams.1.code, h.teams.2.code} := by
    rw [← sortedTeams_codes g.teams, ← sortedTeams_codes h.teams, String.toList_inj.mp hfirst,
      String.toList_inj.mp hsecond]
  simp only [pairKey, Prod.mk.injEq]
  exact ⟨String.toList_inj.mp hsport, htype, by rw [hline], hanchor, hcodes⟩

end WellKeyed

/-! ## Matches and the games that lead them -/

section Leads

variable {dateTol : ℤ} {games : List VenueGame} {g h : VenueGame}
  {k : String × String × String × String × Finset String}
  {c d : Clusters.Cluster VenueGame VenueId}

/-- One anchor makes one cluster. -/
theorem cluster_eq_of_anchor (hset : games.Nodup) (hc : c ∈ clusterGames dateTol games)
    (hd : d ∈ clusterGames dateTol games) (heq : c.1 = d.1) : c = d := by
  have hnodup : ((clusterGames dateTol games).map Prod.fst).Nodup := by
    refine (Clusters.anchors_sublist []).nodup ?_
    rw [List.zipIdx_map_fst]
    exact (List.perm_insertionSort _ _).nodup_iff.mpr hset
  exact List.inj_on_of_nodup_map hnodup hc hd heq

/-- Different clusters of a set of games share no game. -/
theorem disjoint_members (hset : games.Nodup) (hc : c ∈ clusterGames dateTol games)
    (hd : d ∈ clusterGames dateTol games) (hne : c ≠ d) :
    (Clusters.members c).Disjoint (Clusters.members d) := by
  have hnodup : ((clusterGames dateTol games).flatMap Clusters.members).Nodup := by
    obtain ⟨used, hperm, hsub⟩ := Clusters.walk_subperm (·.venueId) (sameFixture dateTol) distance
      (sortGames games) []
    refine hperm.nodup_iff.mp (hsub.nodup ?_)
    exact (List.perm_insertionSort _ _).nodup_iff.mpr hset
  have hpair := (List.nodup_flatMap.mp hnodup).2
  have hsymm : Std.Symm (Function.onFun List.Disjoint (Clusters.members (α := VenueGame)
      (κ := VenueId))) := ⟨fun _ _ h => h.symm⟩
  exact hpair.forall hc hd hne

/-- **A match and its cluster.** -/
theorem exists_cluster_of_match {venueGames : List (List VenueGame)} {m : CrossVenueMatch}
    (hm : m ∈ matchGames venueGames dateTol) :
    ∃ c ∈ clusterGames dateTol (venueGames.flatten.filter fun h => pairKey h = pairKey c.1),
      2 ≤ c.2.entries.length ∧ m = matchOf c.1 (c.2.mapVal fun _ chosen => chosen.2) := by
  obtain ⟨k, -, hm⟩ := List.mem_flatMap.mp ((matchGames_perm_buckets _ _).mem_iff.mp hm)
  obtain ⟨c, hc, hlen, rfl⟩ := mem_matchesOf_clusterGames hm
  obtain ⟨rest, claimed, i, hgames, -⟩ := of_mem_clusterGames hc
  obtain ⟨-, hk⟩ := List.mem_filter.mp (hgames (c.1, i) List.mem_cons_self)
  obtain rfl : pairKey c.1 = k := of_decide_eq_true hk
  exact ⟨c, hc, hlen, rfl⟩

/-- **A cluster of two venues and its match.** -/
theorem match_of_cluster {venueGames : List (List VenueGame)}
    (hc : c ∈ clusterGames dateTol (venueGames.flatten.filter fun h => pairKey h = pairKey g))
    (hg : g ∈ venueGames.flatten) (hlen : 2 ≤ c.2.entries.length) :
    matchOf c.1 (c.2.mapVal fun _ chosen => chosen.2) ∈ matchGames venueGames dateTol := by
  refine (matchGames_perm_buckets _ _).mem_iff.mpr (List.mem_flatMap.mpr
    ⟨pairKey g, Dict.mem_keys_groupBy.mpr ⟨g, hg, rfl⟩, ?_⟩)
  exact List.mem_filterMap.mpr ⟨c, hc, if_neg (by omega)⟩

/-- A cluster is anchored on a game of its pair key. -/
theorem of_anchor (hc : c ∈ clusterGames dateTol (games.filter fun h => pairKey h = k)) :
    c.1 ∈ games ∧ pairKey c.1 = k :=
  (List.mem_filter.mp (anchor_mem_games hc)).imp_right of_decide_eq_true

/-- A member of a cluster is a game of its pair key. -/
theorem of_member (hc : c ∈ clusterGames dateTol (games.filter fun h => pairKey h = k))
    {x : VenueGame} (hx : x ∈ Clusters.members c) : x ∈ games ∧ pairKey x = k :=
  (List.mem_filter.mp (of_mem_members hc hx).1).imp_right of_decide_eq_true

/-- **The games that list a fixture**: a cluster of two venues holds its anchor
and a game of another venue. -/
theorem exists_listed (hlen : 2 ≤ c.2.entries.length)
    (hc : c ∈ clusterGames dateTol (games.filter fun h => pairKey h = pairKey c.1)) :
    c.1 ∈ Clusters.members c ∧ ∃ g' ∈ Clusters.members c, Listed dateTol games c.1 g' := by
  obtain ⟨i, hanchor⟩ := anchor_mem hc fun hnil => by simp [hnil] at hlen
  have hself : c.1 ∈ Clusters.members c := mem_members_iff.mpr ⟨_, _, hanchor⟩
  refine ⟨hself, ?_⟩
  obtain ⟨v, hv, hne⟩ : ∃ v ∈ c.2.keys, v ≠ c.1.venueId := by
    by_contra hall
    push Not at hall
    have hsub : c.2.keys.length ≤ [c.1.venueId].length :=
      (List.subperm_of_subset c.2.nodup fun v hv => by simp [hall v hv]).length_le
    have hkeys : c.2.keys.length = c.2.entries.length := List.length_map _
    simp only [List.length_cons, List.length_nil] at hsub
    omega
  obtain ⟨⟨j, g'⟩, hget⟩ := Option.isSome_iff_exists.mp (Dict.mem_keys_iff.mp hv)
  have hmem : g' ∈ Clusters.members c := mem_members_iff.mpr ⟨_, _, hget⟩
  obtain ⟨-, hfirst, hfixture⟩ := of_mem_members hc hmem
  obtain ⟨hgames, hkey⟩ := of_member hc hmem
  refine ⟨g', hmem, ⟨(of_anchor hc).1, hgames, hkey, ?_, hfirst, hfixture⟩⟩
  rw [(of_get?_cluster hc hget).2.1]
  exact hne

/-- **Earlier and later clusters**: one of the two came first, and left what
the other holds for other games. -/
theorem passes_by_or (hset : games.Nodup)
    (hc : c ∈ clusterGames dateTol (games.filter fun h => pairKey h = k))
    (hd : d ∈ clusterGames dateTol (games.filter fun h => pairKey h = k)) (hne : c ≠ d) :
    (∀ x ∈ Clusters.members d, PassesBy dateTol games c.1 x) ∨
      ∀ x ∈ Clusters.members c, PassesBy dateTol games d.1 x := by
  have hdisjoint := disjoint_members (hset.filter _) hc hd hne
  have hpasses : ∀ {c d : Clusters.Cluster VenueGame VenueId},
      c ∈ clusterGames dateTol (games.filter fun h => pairKey h = k) →
      (Clusters.members c).Disjoint (Clusters.members d) →
      LeavesFor dateTol c d → ∀ x ∈ Clusters.members d, PassesBy dateTol games c.1 x := by
    intro c d hc hdisjoint hleft x hx hfixture
    obtain ⟨z, hz, hvenue, hfixture, hnear⟩ := hleft x hx hfixture
    obtain ⟨hgames, hpair⟩ := of_member hc hz
    exact ⟨z, hgames, hpair.trans (of_anchor hc).2.symm, hvenue, fun heq => hdisjoint hz (heq ▸ hx), hfixture,
      hnear⟩
  rcases leavesFor_or hc hd hne with ⟨-, hleft⟩ | ⟨-, hleft⟩
  · exact .inl (hpasses hc hdisjoint hleft)
  · exact .inr (hpasses hd hdisjoint.symm hleft)

/-- Two clusters of one pair key and date, the earlier first. -/
theorem sameDay_of_clusters (hset : games.Nodup)
    (hc : c ∈ clusterGames dateTol (games.filter fun h => pairKey h = k))
    (hd : d ∈ clusterGames dateTol (games.filter fun h => pairKey h = k)) (hne : c ≠ d)
    {g' h' : VenueGame} (hlisted : Listed dateTol games c.1 g')
    (hlisted' : Listed dateTol games d.1 h') (hself : c.1 ∈ Clusters.members c)
    (hg' : g' ∈ Clusters.members c) (hself' : d.1 ∈ Clusters.members d)
    (hh' : h' ∈ Clusters.members d) (hdate : c.1.gameDate = d.1.gameDate)
    (hleft : ∀ x ∈ Clusters.members d, PassesBy dateTol games c.1 x) :
    SameDay dateTol games c.1 g' d.1 h' where
  early := hlisted
  late := hlisted'
  pair := (of_anchor hc).2.trans (of_anchor hd).2.symm
  date := hdate
  apart := by
    have hapart := disjoint_members (hset.filter _) hc hd hne
    have hown : ∀ {x y : VenueGame}, Listed dateTol games x y → x ≠ y :=
      fun hl heq => hl.venue (by rw [heq])
    simp only [List.nodup_cons, List.mem_cons, List.not_mem_nil, or_false, not_or, List.nodup_nil,
      not_false_eq_true, and_true]
    exact ⟨⟨hown hlisted, fun h => hapart hself (h ▸ hself'), fun h => hapart hself (h ▸ hh')⟩,
      ⟨fun h => hapart hg' (h ▸ hself'), fun h => hapart hg' (h ▸ hh')⟩, hown hlisted'⟩
  passed := hleft _ hself'
  passed' := hleft _ hh'

/-- Differently anchored clusters make different matches. -/
theorem matchOf_ne {venueGames : List (List VenueGame)} (hset : venueGames.flatten.Nodup)
    (hc : c ∈ clusterGames dateTol (venueGames.flatten.filter fun h => pairKey h = pairKey c.1))
    (hd : d ∈ clusterGames dateTol (venueGames.flatten.filter fun h => pairKey h = pairKey d.1))
    (hlen : 2 ≤ c.2.entries.length) (hne : c.1 ≠ d.1) :
    matchOf c.1 (c.2.mapVal fun _ chosen => chosen.2) ≠
      matchOf d.1 (d.2.mapVal fun _ chosen => chosen.2) := by
  intro heq
  have hmembers : Clusters.members c = Clusters.members d := by
    rw [← values_perVenue, ← values_perVenue]
    exact congrArg (fun m => m.perVenue.values) heq
  obtain ⟨i, hanchor⟩ := anchor_mem hc fun hnil => by simp [hnil] at hlen
  have hg : c.1 ∈ Clusters.members c :=
    List.mem_map.mpr ⟨_, List.mem_map.mpr ⟨_, Dict.mem_entries_iff.mpr hanchor, rfl⟩, rfl⟩
  -- the game that leads `c` is then also held by `d`, so both are of its pair key
  have hgd : c.1 ∈ Clusters.members d := hmembers ▸ hg
  obtain ⟨⟨j, g⟩, hmem, hgj⟩ := List.mem_map.mp hgd
  obtain ⟨⟨v, x⟩, hentry, hx⟩ := List.mem_map.mp hmem
  cases hx
  obtain ⟨hbucket, -, -⟩ := of_get?_cluster hd (Dict.mem_entries_iff.mp hentry)
  have hkey : pairKey c.1 = pairKey d.1 := by
    rw [← hgj]
    exact of_decide_eq_true (List.mem_filter.mp hbucket).2
  rw [← hkey] at hd
  exact disjoint_members (hset.filter _) hc hd (fun h => hne (congrArg Prod.fst h)) hg hgd

/-! ## Where the fixtures are clear -/

namespace ClearFixtures

variable (hclear : ClearFixtures dateTol games)

include hclear

/-- A game passed by is not a clear fixture of the game that passes it. -/
theorem not_passesBy (hg : g ∈ games) (hh : h ∈ games) (hkey : pairKey h = pairKey g)
    (hfixture : sameFixture dateTol h g = true) : ¬ PassesBy dateTol games g h := by
  intro hpass
  obtain ⟨z, hz, hpair, hvenue, hne, hnear, -⟩ := hpass hfixture
  have hzh := hclear.trans z hz g hg h hh hpair hkey.symm hnear (sameFixture_comm h g ▸ hfixture)
  exact hne (hclear.once z hz h hh (hpair.trans hkey.symm) hvenue hzh)

/-- The games of one fixture are in one cluster. -/
theorem cluster_eq (hset : games.Nodup)
    (hc : c ∈ clusterGames dateTol (games.filter fun h => pairKey h = k))
    (hd : d ∈ clusterGames dateTol (games.filter fun h => pairKey h = k))
    {x y : VenueGame} (hx : x ∈ Clusters.members c) (hy : y ∈ Clusters.members d)
    (hxy : sameFixture dateTol x y = true) : c = d := by
  by_contra hne
  have hmeet : ∀ {c d : Clusters.Cluster VenueGame VenueId} {x y : VenueGame},
      c ∈ clusterGames dateTol (games.filter fun h => pairKey h = k) →
      d ∈ clusterGames dateTol (games.filter fun h => pairKey h = k) →
      x ∈ Clusters.members c → y ∈ Clusters.members d → sameFixture dateTol x y = true →
      ¬ ∀ y ∈ Clusters.members d, PassesBy dateTol games c.1 y := by
    intro c d x y hc hd hx hy hxy hpasses
    obtain ⟨-, -, hxc⟩ := of_mem_members hc hx
    obtain ⟨hxg, hkx⟩ := of_member hc hx
    obtain ⟨hyg, hky⟩ := of_member hd hy
    obtain ⟨hcg, hkc⟩ := of_anchor hc
    have hyc := hclear.trans y hyg x hxg c.1 hcg (hky.trans hkx.symm) (hkx.trans hkc.symm)
      (sameFixture_comm x y ▸ hxy) hxc
    exact hclear.not_passesBy hcg hyg (hky.trans hkc.symm) hyc (hpasses y hy)
  rcases passes_by_or hset hc hd hne with h | h
  · exact hmeet hc hd hx hy hxy h
  · exact hmeet hd hc hy hx (sameFixture_comm x y ▸ hxy) h

/-- **A clear fixture that two venues list makes a match.** -/
theorem exists_cluster (hset : games.Nodup) {g' : VenueGame} (hlisted : Listed dateTol games g g') :
    ∃ c ∈ clusterGames dateTol (games.filter fun h => pairKey h = pairKey g),
      g ∈ Clusters.members c ∧ 2 ≤ c.2.entries.length ∧ pairKey c.1 = pairKey g ∧
        c.1.gameDate = g.gameDate := by
  obtain ⟨hg, hg', hpair, hvenue, -, hfixture⟩ := hlisted
  have hself := sameFixture_self hfixture
  have hself' := sameFixture_self (sameFixture_comm g' g ▸ hfixture)
  have hmem : ∀ {x : VenueGame}, x ∈ games → pairKey x = pairKey g →
      x ∈ games.filter fun h => pairKey h = pairKey g :=
    fun hx hk => List.mem_filter.mpr ⟨hx, decide_eq_true hk⟩
  obtain ⟨c, hc, hgc⟩ := exists_cluster_of_game (hmem hg rfl) hself
  obtain ⟨c', hc', hgc'⟩ := exists_cluster_of_game (hmem hg' hpair) hself'
  obtain rfl := hclear.cluster_eq hset hc hc' hgc hgc' (sameFixture_comm g' g ▸ hfixture)
  obtain ⟨hcg, hkc⟩ := of_anchor hc
  obtain ⟨-, -, hfix⟩ := of_mem_members hc hgc
  refine ⟨c, hc, hgc, ?_, hkc, (hclear.date g hg c.1 hcg hkc.symm hfix).symm⟩
  -- the two games stand under two venues
  obtain ⟨v, i, hget⟩ := mem_members_iff.mp hgc
  obtain ⟨v', i', hget'⟩ := mem_members_iff.mp hgc'
  have hv : v ∈ c.2.keys := Dict.mem_keys_iff.mpr (by rw [hget]; rfl)
  have hv' : v' ∈ c.2.keys := Dict.mem_keys_iff.mpr (by rw [hget']; rfl)
  have hvv' : v' ≠ v := by
    rw [← (of_get?_cluster hc hget).2.1, ← (of_get?_cluster hc hget').2.1]
    exact hvenue
  have hsub : [v', v].length ≤ c.2.keys.length :=
    (List.subperm_of_subset (by simp [hvv']) (by simp [hv, hv'])).length_le
  have hkeys : c.2.keys.length = c.2.entries.length := List.length_map _
  simp only [List.length_cons, List.length_nil] at hsub
  omega

end ClearFixtures

end Leads

namespace Doubleheader

/-- The first half of the doubleheader with a total of the same game. -/
def twoMarkets : List (List VenueGame) :=
  [[game "kalshi" first, { game "kalshi" first with
      marketType := "total", line := some (Decimal.normalize 85 1) }],
    [game "polymarket_us" first, { game "polymarket_us" first with
      marketType := "total", line := some (Decimal.normalize 85 1) }]]

end Doubleheader

end Arbys
