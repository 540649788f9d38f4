import Arbys.Discovery.Teams

/-!
# What a bare city names

`TeamResolver.__init__` of `discovery/teams.py`, and which team
`by_kalshi_title` reads a city as. The indexes are written one team after the
other, so of two names spelled alike the later one stays. A city of several
words is first read as another city and the first letter of a nickname:
`NamesItsTeam` says when that, and every other name of the table, leaves it to
its own team.
-/

namespace Arbys

/-- Lower case keeps the pieces of a text apart and leaves nothing empty. -/
structure Locale.LowerLaws (L : Locale) : Prop where
  append : ∀ a b, (L.lower (a ++ b)).length = (L.lower a).length + (L.lower b).length
  pos : ∀ a, a ≠ "" → 0 < (L.lower a).length

/-- `text[0]`. -/
def initial (text : String) : String := String.ofList (text.toList.take 1)

section Tables

variable (L : Locale) (teams : List Team)

/-- `city_counts`. -/
def cityCount (city : String) : ℕ := teams.countP fun t => L.lower t.city = L.lower city

/-- `nickname_counts`. -/
def nicknameCount (nickname : String) : ℕ :=
  teams.countP fun t => L.lower t.nickname = L.lower nickname

/-- `_by_code`. -/
def byCodeTable : Dict String Team := Dict.ofList (teams.map fun t => (L.upper t.code, t))

/-- The team an alias stands for. -/
def aliasTeam (code : String) : Option Team := (byCodeTable L teams).get? (L.upper code)

/-- The names of a team beside its full name: "City Nickname", and its
nickname where no other team has it. -/
def shortNames (t : Team) : List (String × Team) :=
  (L.lower (t.city ++ " " ++ t.nickname), t) ::
    if nicknameCount L teams t.nickname = 1 then [(L.lower t.nickname, t)] else []

/-- The aliases of known codes. -/
def aliasNames (aliases : Dict String String) : List (String × Team) :=
  aliases.entries.filterMap fun (name, code) =>
    (aliasTeam L teams code).map fun team => (L.lower (L.strip name), team)

/-- What `_by_full` is written from, in order. -/
def tableNames (aliases : Dict String String) : List (String × Team) :=
  teams.map (fun t => (L.lower t.fullName, t)) ++ teams.flatMap (shortNames L teams) ++
    aliasNames L teams aliases

/-- `TeamResolver(teams, aliases, code_aliases)`; a nickname that is empty has no
first letter, and raises. -/
def TeamResolver.ofTeams (aliases codeAliases : Dict String String) : Option TeamResolver :=
  if ∃ t ∈ teams, t.nickname = "" then none
  else
    some {
      codes := byCodeTable L teams
      cityAndPrefix := Dict.ofList (teams.map fun t =>
        ((L.lower t.city, L.upper (initial t.nickname)), t))
      full := Dict.ofList (tableNames L teams aliases)
      cityUnique := Dict.ofList ((teams.filter fun t => cityCount L teams t.city = 1).map fun t =>
        (L.lower t.city, t))
      codeAliases := Dict.ofList (codeAliases.entries.filterMap fun (name, code) =>
        (aliasTeam L teams code).map fun team => (L.upper name, team)) }

/-- A title reads as the city of a team and the first letter of its nickname. -/
def ReadsTruncated (title : String) (t : Team) : Prop :=
  ∃ cityPart nickPart, rsplitSpace title = some (cityPart, nickPart) ∧
    L.lower t.city = L.lower cityPart ∧ L.upper (initial t.nickname) = L.upper (initial nickPart)

/-- The city of a team is its name: the last name of the table that spells it
is the team's own; or none does, no blanks stand around it, and it reads as no
city with a nickname's first letter. -/
def NamesItsTeam (aliases : Dict String String) (t : Team) : Prop :=
  L.strip t.city ≠ "" ∧
    match Dict.lastWritten (L.lower (L.strip t.city)) (tableNames L teams aliases) with
    | some u => u = t
    | none => L.strip t.city = t.city ∧ ∀ u ∈ teams, ¬ ReadsTruncated L (L.strip t.city) u

end Tables

/-! ## Cutting a title -/

/-- Where a list leaves a class of elements. -/
theorem eq_takeWhile_append {α : Type} {p : α → Bool} {l : List α}
    (h : (l.takeWhile p).length ≠ l.length) :
    ∃ a, p a = false ∧ l = l.takeWhile p ++ a :: l.drop ((l.takeWhile p).length + 1) := by
  induction l with
  | nil => exact absurd rfl h
  | cons b l ih =>
      by_cases hb : p b = true
      · rw [List.takeWhile_cons_of_pos hb] at h ⊢
        obtain ⟨a, ha, hl⟩ := ih (fun heq => h (by simp [heq]))
        exact ⟨a, ha, congrArg (b :: ·) hl⟩
      · rw [List.takeWhile_cons_of_neg hb]
        exact ⟨b, by simpa using hb, rfl⟩

/-- A title is its two parts with a space between them. -/
theorem eq_of_rsplitSpace {text a b : String} (h : rsplitSpace text = some (a, b)) :
    text = a ++ " " ++ b := by
  unfold rsplitSpace at h
  simp only at h
  split at h
  · cases h
  · rename_i hlen
    simp only [Option.some.injEq, Prod.mk.injEq] at h
    obtain ⟨rfl, rfl⟩ := h
    obtain ⟨c, hc, hsplit⟩ := eq_takeWhile_append (l := text.toList.reverse)
      (by rwa [List.length_reverse])
    have hspace : c = ' ' := by simpa using hc
    have hback := congrArg List.reverse hsplit
    have hmiddle : " ".toList = [' '] := rfl
    rw [List.reverse_reverse, List.reverse_append, List.reverse_cons, hspace] at hback
    rw [← String.toList_inj, String.toList_append, String.toList_append, hmiddle,
      String.toList_ofList, String.toList_ofList]
    exact hback

/-- A text is its stripped middle with something on both sides. -/
theorem exists_append_strip (L : Locale) (text : String) :
    ∃ before after, text = before ++ L.strip text ++ after := by
  refine ⟨String.ofList (text.toList.takeWhile L.isSpace), String.ofList
    ((text.toList.dropWhile L.isSpace).reverse.takeWhile L.isSpace).reverse, ?_⟩
  rw [← String.toList_inj]
  simp only [Locale.strip, String.toList_append, String.toList_ofList]
  rw [List.append_assoc, ← List.reverse_append, List.takeWhile_append_dropWhile,
    List.reverse_reverse, List.takeWhile_append_dropWhile]

section Laws

variable {L : Locale} (hL : L.LowerLaws)

include hL

/-- The city part of a title is shorter than the title. -/
theorem Locale.LowerLaws.lt_of_rsplitSpace {text a b : String}
    (h : rsplitSpace text = some (a, b)) : (L.lower a).length < (L.lower text).length := by
  rw [eq_of_rsplitSpace h, hL.append, hL.append]
  have := hL.pos " " (by decide)
  omega

theorem Locale.LowerLaws.strip_le (text : String) :
    (L.lower (L.strip text)).length ≤ (L.lower text).length := by
  obtain ⟨before, after, htext⟩ := exists_append_strip L text
  conv_rhs => rw [htext, hL.append, hL.append]
  omega

/-- Stripping shortens what it changes. -/
theorem Locale.LowerLaws.strip_eq {text : String} (h : L.lower (L.strip text) = L.lower text) :
    L.strip text = text := by
  obtain ⟨before, after, htext⟩ := exists_append_strip L text
  have hlen := congrArg (fun t => (L.lower t).length) htext
  simp only [hL.append] at hlen
  have hsame := congrArg String.length h
  have hbefore : before = "" := by
    by_contra hne
    have := hL.pos before hne
    omega
  have hafter : after = "" := by
    by_contra hne
    have := hL.pos after hne
    omega
  rw [hbefore, hafter, String.empty_append, String.append_empty] at htext
  exact htext.symm

end Laws

/-! ## The indexes -/

section Indexes

variable {L : Locale} {teams : List Team} {aliases codeAliases : Dict String String}
  {r : TeamResolver}

theorem ofTeams_eq (hr : TeamResolver.ofTeams L teams aliases codeAliases = some r) :
    r.full = Dict.ofList (tableNames L teams aliases) ∧
      r.cityAndPrefix = Dict.ofList (teams.map fun t =>
        ((L.lower t.city, L.upper (initial t.nickname)), t)) ∧
      r.cityUnique = Dict.ofList ((teams.filter fun t => cityCount L teams t.city = 1).map
        fun t => (L.lower t.city, t)) := by
  unfold TeamResolver.ofTeams at hr
  split at hr
  · cases hr
  · cases hr
    exact ⟨rfl, rfl, rfl⟩

/-- The index of cities and first letters, asked for a title. -/
def TeamResolver.truncated (L : Locale) (r : TeamResolver) (title : String) : Option Team :=
  (rsplitSpace title).bind fun parts =>
    r.cityAndPrefix.get? (L.lower parts.1, L.upper (initial parts.2))

theorem readsTruncated_of_truncated (hr : TeamResolver.ofTeams L teams aliases codeAliases = some r)
    {title : String} {t : Team} (h : r.truncated L title = some t) :
    t ∈ teams ∧ ReadsTruncated L title t := by
  obtain ⟨⟨cityPart, nickPart⟩, hsplit, hget⟩ := Option.bind_eq_some_iff.mp h
  rw [(ofTeams_eq hr).2.1, Dict.get?_ofList] at hget
  obtain ⟨u, hu, heq⟩ := List.mem_map.mp (Dict.mem_of_lastWritten hget)
  simp only [Prod.mk.injEq] at heq
  obtain ⟨⟨hcity, hnick⟩, rfl⟩ := heq
  exact ⟨hu, cityPart, nickPart, hsplit, hcity, hnick⟩

theorem truncated_eq_none_iff (hr : TeamResolver.ofTeams L teams aliases codeAliases = some r)
    {title : String} :
    r.truncated L title = none ↔ ∀ u ∈ teams, ¬ ReadsTruncated L title u := by
  constructor
  · rintro hnone u hu ⟨cityPart, nickPart, hsplit, hcity, hnick⟩
    rw [TeamResolver.truncated, hsplit, Option.bind_some, (ofTeams_eq hr).2.1, Dict.get?_ofList,
      Dict.lastWritten_eq_none_iff] at hnone
    exact hnone _ (List.mem_map.mpr ⟨u, hu, rfl⟩) (by rw [hcity, hnick])
  · intro hno
    cases htrunc : r.truncated L title with
    | none => rfl
    | some t =>
        obtain ⟨ht, hreads⟩ := readsTruncated_of_truncated hr htrunc
        exact absurd hreads (hno t ht)

/-- A bare city is found where one team has it. -/
theorem of_cityUnique (hr : TeamResolver.ofTeams L teams aliases codeAliases = some r)
    {key : String} {t : Team} (h : r.cityUnique.get? key = some t) :
    L.lower t.city = key ∧ cityCount L teams t.city = 1 := by
  rw [(ofTeams_eq hr).2.2, Dict.get?_ofList] at h
  obtain ⟨u, hu, heq⟩ := List.mem_map.mp (Dict.mem_of_lastWritten h)
  simp only [Prod.mk.injEq] at heq
  obtain ⟨hkey, rfl⟩ := heq
  exact ⟨hkey, of_decide_eq_true (List.mem_filter.mp hu).2⟩

theorem cityUnique_of_alone (hr : TeamResolver.ofTeams L teams aliases codeAliases = some r)
    {t : Team} (halone : (teams.filter fun u => L.lower u.city = L.lower t.city) = [t]) :
    r.cityUnique.get? (L.lower t.city) = some t := by
  have hone : cityCount L teams t.city = 1 := by
    rw [cityCount, List.countP_eq_length_filter, halone]
    rfl
  have hmem : ∀ u ∈ teams, L.lower u.city = L.lower t.city → u = t := by
    intro u hu hcity
    exact List.mem_singleton.mp (halone ▸ List.mem_filter.mpr ⟨hu, decide_eq_true hcity⟩)
  have ht : t ∈ teams := (List.mem_filter.mp (halone ▸ List.mem_singleton_self t)).1
  cases hget : r.cityUnique.get? (L.lower t.city) with
  | none =>
      rw [(ofTeams_eq hr).2.2, Dict.get?_ofList, Dict.lastWritten_eq_none_iff] at hget
      refine absurd rfl (hget (L.lower t.city, t) (List.mem_map.mpr ⟨t, ?_, rfl⟩))
      exact List.mem_filter.mpr ⟨ht, decide_eq_true hone⟩
  | some u =>
      have hu := Dict.mem_of_lastWritten ((Dict.get?_ofList _ _).symm.trans
        ((ofTeams_eq hr).2.2 ▸ hget))
      obtain ⟨v, hv, heq⟩ := List.mem_map.mp hu
      simp only [Prod.mk.injEq] at heq
      obtain ⟨hcity, rfl⟩ := heq
      rw [hmem v (List.mem_of_mem_filter hv) hcity]

/-- The order in which a title is looked up. -/
theorem byKalshiTitle_eq (hr : TeamResolver.ofTeams L teams aliases codeAliases = some r)
    (title : String) :
    r.byKalshiTitle L title =
      if L.strip title = "" then none
      else
        ((Dict.lastWritten (L.lower (L.strip title)) (tableNames L teams aliases)).or
          (r.truncated L (L.strip title))).or (r.cityUnique.get? (L.lower (L.strip title))) := by
  rw [← Dict.get?_ofList, ← (ofTeams_eq hr).1]
  unfold TeamResolver.byKalshiTitle TeamResolver.truncated
  generalize L.strip title = t
  simp only
  split
  · rfl
  · cases r.full.get? (L.lower t) with
    | some u => rfl
    | none => cases rsplitSpace t <;> rfl

/-- **A bare city names its own team** exactly when the table leaves it. -/
theorem byKalshiTitle_city_iff (hL : L.LowerLaws)
    (hr : TeamResolver.ofTeams L teams aliases codeAliases = some r) {t : Team}
    (halone : (teams.filter fun u => L.lower u.city = L.lower t.city) = [t]) :
    r.byKalshiTitle L t.city = some t ↔ NamesItsTeam L teams aliases t := by
  rw [byKalshiTitle_eq hr, NamesItsTeam]
  by_cases hblank : L.strip t.city = ""
  · simp [hblank]
  · rw [if_neg hblank]
    cases hname : Dict.lastWritten (L.lower (L.strip t.city)) (tableNames L teams aliases) with
    | some u => simp [hblank]
    | none =>
        simp only [Option.none_or, ne_eq, hblank, not_false_eq_true, true_and]
        rw [← truncated_eq_none_iff hr]
        cases htrunc : r.truncated L (L.strip t.city) with
        | some u =>
            -- the city part of the city is shorter, so it is another team's
            obtain ⟨-, a, b, hsplit, hcity, -⟩ := readsTruncated_of_truncated hr htrunc
            have hlt := hL.lt_of_rsplitSpace hsplit
            have hle := hL.strip_le t.city
            simp only [Option.some_or, Option.some.injEq, reduceCtorEq, and_false, iff_false]
            rintro rfl
            rw [hcity] at hle
            omega
        | none =>
            simp only [Option.none_or, and_true]
            constructor
            · intro hget
              exact hL.strip_eq (of_cityUnique hr hget).1.symm
            · intro hstrip
              rw [hstrip]
              exact cityUnique_of_alone hr halone

/-- A name of the table that is spelled so is a full name, a nickname, an alias,
or a longer city. -/
theorem not_named_of_city (hL : L.LowerLaws) {key : String} {s : Team} (hlen :
    key.length ≤ (L.lower s.city).length)
    (hfull : ∀ u ∈ teams, L.lower u.fullName ≠ key) (hnick : ∀ u ∈ teams, L.lower u.nickname ≠ key)
    (halias : ∀ name code, aliases.get? name = some code → L.lower (L.strip name) ≠ key) :
    Dict.lastWritten key (tableNames L teams aliases) ≠ some s := by
  intro h
  rcases List.mem_append.mp (Dict.mem_of_lastWritten h) with h | h
  · rcases List.mem_append.mp h with h | h
    · obtain ⟨u, hu, heq⟩ := List.mem_map.mp h
      exact hfull u hu (congrArg Prod.fst heq)
    · obtain ⟨u, hu, h⟩ := List.mem_flatMap.mp h
      rcases List.mem_cons.mp h with heq | h
      · simp only [Prod.mk.injEq] at heq
        obtain ⟨hkey, rfl⟩ := heq
        rw [hkey, hL.append, hL.append] at hlen
        have := hL.pos " " (by decide)
        omega
      · split at h
        · exact hnick u hu (congrArg Prod.fst (List.mem_singleton.mp h)).symm
        · cases h
  · obtain ⟨⟨name, code⟩, hentry, heq⟩ := List.mem_filterMap.mp h
    obtain ⟨u, -, heq⟩ := Option.map_eq_some_iff.mp heq
    exact halias name code (Dict.mem_entries_iff.mp hentry) (congrArg Prod.fst heq)

/-- **A shared city** that is nobody's name resolves to none of the teams that
share it. -/
theorem byKalshiTitle_shared_ne (hL : L.LowerLaws)
    (hr : TeamResolver.ofTeams L teams aliases codeAliases = some r) {city : String}
    (hshared : 2 ≤ cityCount L teams city)
    (hfull : ∀ u ∈ teams, L.lower u.fullName ≠ L.lower (L.strip city))
    (hnick : ∀ u ∈ teams, L.lower u.nickname ≠ L.lower (L.strip city))
    (halias : ∀ name code, aliases.get? name = some code →
      L.lower (L.strip name) ≠ L.lower (L.strip city))
    {s : Team} (hs : L.lower s.city = L.lower city) : r.byKalshiTitle L city ≠ some s := by
  have hle := hL.strip_le city
  rw [← hs] at hle
  rw [byKalshiTitle_eq hr]
  split
  · exact fun h => by cases h
  · intro h
    rcases Option.or_eq_some_iff.mp h with h | ⟨-, h⟩
    · rcases Option.or_eq_some_iff.mp h with h | ⟨-, h⟩
      · exact not_named_of_city hL hle hfull hnick halias h
      · obtain ⟨-, a, b, hsplit, hcity, -⟩ := readsTruncated_of_truncated hr h
        have hlt := hL.lt_of_rsplitSpace hsplit
        rw [hcity] at hle
        omega
    · have hone := (of_cityUnique hr h).2
      rw [cityCount, hs] at hone
      rw [cityCount, hone] at hshared
      omega

/-- **When bare cities name their own teams**: a team's own city does exactly
when the table leaves it, and a shared one never names a team that shares it. -/
theorem bare_city_names_team_iff (hL : L.LowerLaws)
    (hr : TeamResolver.ofTeams L teams aliases codeAliases = some r) :
    (∀ t : Team, (teams.filter fun u => L.lower u.city = L.lower t.city) = [t] →
      (r.byKalshiTitle L t.city = some t ↔ NamesItsTeam L teams aliases t)) ∧
    (∀ city : String, 2 ≤ cityCount L teams city →
      (∀ u ∈ teams, L.lower u.fullName ≠ L.lower (L.strip city)) →
      (∀ u ∈ teams, L.lower u.nickname ≠ L.lower (L.strip city)) →
      (∀ name code, aliases.get? name = some code →
        L.lower (L.strip name) ≠ L.lower (L.strip city)) →
      ∀ s ∈ teams, L.lower s.city = L.lower city → r.byKalshiTitle L city ≠ some s) :=
  ⟨fun _ halone => byKalshiTitle_city_iff hL hr halone,
    fun _ hshared hfull hnick halias _ _ hs =>
      byKalshiTitle_shared_ne hL hr hshared hfull hnick halias hs⟩

end Indexes

/-! ## Two schools of one city's name -/

/-- The tables of ASCII, and of a few letters with marks. -/
def latinLocale : Locale where
  upper text := String.ofList (text.toList.map fun c =>
    if c = 'ś' then 'Ś' else if c = 'ą' then 'Ą' else c.toUpper)
  lower text := String.ofList (text.toList.map fun c =>
    if c = 'Ś' then 'ś' else if c = 'Ą' then 'ą' else c.toLower)
  isSpace := Char.isWhitespace
  fold text := String.ofList (text.toList.map fun c =>
    if c = 'Ś' then 'S' else if c = 'ś' then 's' else if c = 'Ą' then 'A'
    else if c = 'ą' then 'a' else c)
  fromIsoformat _ := none
  easternDate _ := (Date.ofYmd? 2026 9 1).get (by decide)
  easternInstant _ _ _ := 0

theorem lowerLaws_latinLocale : latinLocale.LowerLaws where
  append a b := by simp [latinLocale]
  pos a ha := by
    rw [latinLocale, String.length_ofList, List.length_map]
    exact List.length_pos_iff.mpr (by simpa using ha)

namespace Houston

def cougars : Team := ⟨"HOU", "Houston Cougars", "Houston", "Cougars"⟩

def huskies : Team := ⟨"HCU", "Houston Christian Huskies", "Houston Christian", "Huskies"⟩

def owls : Team := ⟨"RICE", "Rice Owls", "Rice", "Owls"⟩

def teams : List Team := [cougars, huskies, owls]

/-- The resolver of the three, read as a title. -/
def byTitle (title : String) : Option Team :=
  (TeamResolver.ofTeams latinLocale teams Dict.empty Dict.empty).bind fun r =>
    r.byKalshiTitle latinLocale title

end Houston

open Houston in
theorem bare_city_names_team_rice : byTitle "Rice" = some owls := by
  obtain ⟨r, hr⟩ : ∃ r, TeamResolver.ofTeams latinLocale teams Dict.empty Dict.empty = some r :=
    ⟨_, rfl⟩
  have hnames : NamesItsTeam latinLocale teams Dict.empty owls := by
    refine ⟨by decide +kernel, ?_⟩
    have hnone : Dict.lastWritten (latinLocale.lower (latinLocale.strip owls.city))
        (tableNames latinLocale teams Dict.empty) = none := by decide +kernel
    rw [hnone]
    refine ⟨by decide +kernel, ?_⟩
    rintro u - ⟨cityPart, nickPart, hsplit, -, -⟩
    have hnosplit : rsplitSpace (latinLocale.strip owls.city) = none := by decide +kernel
    rw [hnosplit] at hsplit
    cases hsplit
  rw [byTitle, hr]
  exact ((bare_city_names_team_iff lowerLaws_latinLocale hr).1 owls (by decide +kernel)).mpr hnames

open Houston in
/-- The city of the Huskies, no other team's city or name, names the Cougars. -/
theorem houston_christian_names_houston :
    (teams.filter fun u => latinLocale.lower u.city = latinLocale.lower huskies.city) = [huskies] ∧
      (∀ u ∈ teams, u ≠ huskies → latinLocale.lower u.fullName ≠ latinLocale.lower huskies.city ∧
        latinLocale.lower u.nickname ≠ latinLocale.lower huskies.city) ∧
      byTitle huskies.city = some cougars ∧ byTitle huskies.city ≠ some huskies := by
  refine ⟨by decide +kernel, by decide +kernel, by decide +kernel, by decide +kernel⟩

end Arbys
