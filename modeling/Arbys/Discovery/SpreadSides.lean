import Arbys.Discovery.FixtureId
import Arbys.Discovery.PolymarketUs

/-!
# The two venues' spread legs bet on the same side

Kalshi names in its ticker the team that must win by more than the strike;
Polymarket US states a signed line for the first-listed team and sells LONG
and SHORT. Both fetchers bring a market into one form: an anchor, a positive
line, and an outcome id per team. `AnchoredPays` says what that form promises
of a final margin, each fetcher is shown to keep it under the venue's own rule,
and a match pairs games of one anchor and one line.
-/

namespace Arbys

/-- The final margin of a game between two different teams, by their codes. -/
structure FinalMargin where
  team : String
  opponent : String
  ne : team ≠ opponent
  margin : ℚ

namespace FinalMargin

def teams (r : FinalMargin) : Finset String := {r.team, r.opponent}

/-- By how much the team of a code won. -/
def of (r : FinalMargin) (code : String) : ℚ := if code = r.team then r.margin else -r.margin

/-- One team's margin is the other's, negated. -/
theorem of_other {r : FinalMargin} {a b : String} (h : r.teams = {a, b}) : r.of b = -r.of a := by
  have hne := r.ne
  have ha : a ∈ r.teams := h ▸ Finset.mem_insert_self a {b}
  have hb : b ∈ r.teams := h ▸ by simp
  have ht : r.team ∈ ({a, b} : Finset String) := h ▸ Finset.mem_insert_self _ _
  have ho : r.opponent ∈ ({a, b} : Finset String) := h ▸ by simp [teams]
  simp only [teams, Finset.mem_insert, Finset.mem_singleton] at ha hb ht ho
  unfold of
  grind

theorem ne_of_teams {r : FinalMargin} {a b : String} (h : r.teams = {a, b}) : a ≠ b := by
  rintro rfl
  have hcard := congrArg Finset.card h
  rw [teams, Finset.card_pair r.ne] at hcard
  simp at hcard

end FinalMargin

/-! ## The rules of the venues -/

/-- Kalshi's rule for the market `<event>-<CODE><N>` of strike type "greater":
YES pays if the team of the code wins by more than the strike, NO otherwise. -/
def KalshiSpreadRule (L : Locale) (resolver : TeamResolver) (r : FinalMargin)
    (pays : OutcomeId → Prop) (eventTicker : String) (pair : String × String)
    (mk : KalshiMarket) : Prop :=
  ∀ code ∈ [pair.1, pair.2], ∀ n : List Char, ∀ team line,
    (textOf mk.ticker).toList = eventTicker.toList ++ '-' :: (code.toList ++ n) →
    (digits? n).isSome → mk.strikeType = some "greater" → mk.floorStrike = some (some line) →
    resolver.byCode L code = some team →
    (pays (textOf mk.ticker ++ ":YES") ↔ line.value < r.of team.code) ∧
    (pays (textOf mk.ticker ++ ":NO") ↔ ¬ line.value < r.of team.code)

/-- Polymarket US's rule: LONG pays if the margin of the first-listed team and
its signed line add up to more than nothing, SHORT otherwise. -/
def PolySpreadRule (L : Locale) (resolver : TeamResolver) (r : FinalMargin)
    (pays : OutcomeId → Prop) (event : PolyEvent) (market : PolyMarket) : Prop :=
  ∀ first second line, eventTeams L resolver event = some (first, second) →
    market.line = some line →
    (pays (textOf market.slug ++ ":LONG") ↔ 0 < r.of first.2.code + line.value) ∧
    (pays (textOf market.slug ++ ":SHORT") ↔ ¬ 0 < r.of first.2.code + line.value)

/-- Kalshi's rule for every spread market it answers with. -/
def KalshiSpreadRules (L : Locale) (client : Client) (resolver : TeamResolver) (sport : String)
    (r : FinalMargin) (pays : OutcomeId → Prop) : Prop :=
  ∀ series, spreadsSeries.get? sport = some series →
  ∀ events, (getWithRetry (client.kalshiEvents series)).body? = some events →
  ∀ e ∈ events.zipIdx, ∀ markets,
    (getWithRetry (client.kalshiMarkets series e.2 (textOf e.1.eventTicker))).body? = some markets →
  ∀ mk ∈ markets, ∀ gameDate pair teamA teamB,
    eventPair L resolver (textOf e.1.eventTicker) = some (gameDate, pair, teamA, teamB) →
    KalshiSpreadRule L resolver r pays (textOf e.1.eventTicker) pair mk

/-- Polymarket US's rule for every market it answers with. -/
def PolySpreadRules (L : Locale) (client : Client) (resolver : TeamResolver) (sport : String)
    (r : FinalMargin) (pays : OutcomeId → Prop) : Prop :=
  ∀ events, (client.leagueEvents (leagueSlugs.getD sport sport)).body? = some events →
  ∀ event ∈ events, ∀ market ∈ event.markets, PolySpreadRule L resolver r pays event market

/-! ## The common form -/

/-- A spread game whose id for the anchor pays if the anchor wins by more than
the line, and whose other id pays otherwise. -/
structure AnchoredPays (r : FinalMargin) (pays : OutcomeId → Prop) (g : VenueGame)
    (anchor : String) (line : Decimal) : Prop where
  marketType : g.marketType = "spread"
  anchor_eq : g.anchor = some anchor
  line_eq : g.line = some line
  codes : ∃ other, anchor ≠ other ∧ ({g.teams.1.code, g.teams.2.code} : Finset String) =
    {anchor, other} ∧ ∀ code, code ∈ g.outcomeIds.keys ↔ code = anchor ∨ code = other
  pays_iff : ∀ code id, (code, id) ∈ g.outcomeIds.entries →
    (pays id ↔ (code = anchor ↔ line.value < r.of anchor))

theorem entries_pair {a b : String} (h : a ≠ b) (x y : OutcomeId) :
    (Dict.ofList [(a, x), (b, y)]).entries = [(a, x), (b, y)] := by
  show Dict.put b y [(a, x)] = _
  simp [Dict.put, h]

/-- Two outcome ids under two codes, the first of them the anchor's. -/
theorem anchoredPays_pair {r : FinalMargin} {pays : OutcomeId → Prop} {g : VenueGame}
    {a b : String} {x y : OutcomeId} {anchor : String} {line : Decimal} (hne : a ≠ b)
    (hcodes : ({g.teams.1.code, g.teams.2.code} : Finset String) = {a, b})
    (hids : g.outcomeIds = Dict.ofList [(a, x), (b, y)]) (hanchor : anchor = a ∨ anchor = b)
    (htype : g.marketType = "spread") (hanchor_eq : g.anchor = some anchor)
    (hline : g.line = some line)
    (hx : pays x ↔ (a = anchor ↔ line.value < r.of anchor))
    (hy : pays y ↔ (b = anchor ↔ line.value < r.of anchor)) :
    AnchoredPays r pays g anchor line := by
  have hkeys : ∀ code, code ∈ g.outcomeIds.keys ↔ code = a ∨ code = b := by
    intro code
    rw [hids, Dict.keys, entries_pair hne]
    simp
  constructor
  · exact htype
  · exact hanchor_eq
  · exact hline
  · rcases hanchor with rfl | rfl
    · exact ⟨b, hne, hcodes, hkeys⟩
    · exact ⟨a, hne.symm, by rw [hcodes, Finset.pair_comm], fun code => (hkeys code).trans or_comm⟩
  · intro code id hmem
    rw [hids, entries_pair hne] at hmem
    simp only [List.mem_cons, Prod.mk.injEq, List.not_mem_nil, or_false] at hmem
    rcases hmem with ⟨rfl, rfl⟩ | ⟨rfl, rfl⟩
    · exact hx
    · exact hy

/-! ## Kalshi -/

/-- The code of a spread ticker stands between the event and a number. -/
theorem of_anchorCodeFromTicker {marketTicker eventTicker : String} {codes : String × String}
    {code : String} (h : anchorCodeFromTicker marketTicker eventTicker codes = some code) :
    code ∈ [codes.1, codes.2] ∧ ∃ n, marketTicker.toList =
      eventTicker.toList ++ '-' :: (code.toList ++ n) ∧ (digits? n).isSome := by
  unfold anchorCodeFromTicker at h
  simp only at h
  split at h
  · rename_i hprefix
    split at h
    · have hmem := List.mem_of_mem_head? (Option.mem_def.mpr h)
      obtain ⟨hcode, hfits⟩ := List.mem_filter.mp hmem
      refine ⟨hcode, ?_⟩
      rw [Bool.and_eq_true, List.isPrefixOf_iff_prefix] at hfits
      obtain ⟨⟨n, hn⟩, hdigits⟩ := hfits
      rw [List.isPrefixOf_iff_prefix] at hprefix
      obtain ⟨rest, hrest⟩ := hprefix
      rw [← hrest, List.drop_left] at hn hdigits
      refine ⟨n, ?_, ?_⟩
      · rw [← hrest, ← hn]
        simp
      · rw [← hn, ← String.length_toList, List.drop_left] at hdigits
        exact hdigits
    · cases h
  · cases h

/-- What a spread game was made of: the ticker names the anchor, and the market
pays above its floor, the line. -/
theorem of_spreadGame {L : Locale} {sport eventTicker : String} {gameDate : Date}
    {pair : String × String} {teamA teamB : Team} {mk : KalshiMarket} {g : VenueGame}
    (hg : spreadGame L sport eventTicker gameDate pair teamA teamB mk = some g) :
    ∃ raw line anchor other,
      anchorCodeFromTicker (textOf mk.ticker) eventTicker pair = some raw ∧
      mk.strikeType = some "greater" ∧ mk.floorStrike = some (some line) ∧
      (raw = pair.1 ∧ anchor = teamA ∧ other = teamB ∨
        raw ≠ pair.1 ∧ anchor = teamB ∧ other = teamA) ∧
      g = { sport, venueId := "kalshi", gameDate,
            teams := (teamA.participant, teamB.participant),
            outcomeIds := Dict.ofList
              [(anchor.code, textOf mk.ticker ++ ":YES"), (other.code, textOf mk.ticker ++ ":NO")],
            ref := textOf mk.ticker, marketType := "spread", line := some line,
            anchor := some anchor.code, startTime := parseTickerStart L eventTicker } := by
  unfold spreadGame at hg
  simp only [Option.bind_eq_bind] at hg
  obtain ⟨-, hg⟩ := Option.ite_none_left_eq_some.mp hg
  obtain ⟨raw, hraw, hg⟩ := Option.bind_eq_some_iff.mp hg
  obtain ⟨hstrike, hg⟩ := Option.ite_none_left_eq_some.mp hg
  obtain ⟨strike, hfloor, hg⟩ := Option.bind_eq_some_iff.mp hg
  obtain ⟨line, hline, hg⟩ := Option.bind_eq_some_iff.mp hg
  rw [hline] at hfloor
  by_cases hfirst : raw = pair.1
  · rw [if_pos hfirst] at hg
    obtain ⟨-, hg⟩ := Option.ite_none_left_eq_some.mp hg
    cases hg
    exact ⟨raw, line, teamA, teamB, hraw, of_not_not hstrike, hfloor, .inl ⟨hfirst, rfl, rfl⟩, rfl⟩
  · rw [if_neg hfirst] at hg
    obtain ⟨-, hg⟩ := Option.ite_none_left_eq_some.mp hg
    cases hg
    exact ⟨raw, line, teamB, teamA, hraw, of_not_not hstrike, hfloor, .inr ⟨hfirst, rfl, rfl⟩, rfl⟩

/-- **A Kalshi spread game keeps the common form.** -/
theorem anchoredPays_of_spreadGame {L : Locale} {resolver : TeamResolver} {r : FinalMargin}
    {pays : OutcomeId → Prop} {sport eventTicker : String} {gameDate gameDate' : Date}
    {pair : String × String} {teamA teamB : Team} {mk : KalshiMarket} {g : VenueGame}
    (hpair : eventPair L resolver eventTicker = some (gameDate, pair, teamA, teamB))
    (hg : spreadGame L sport eventTicker gameDate' pair teamA teamB mk = some g)
    (hrule : KalshiSpreadRule L resolver r pays eventTicker pair mk)
    (hteams : r.teams = {g.teams.1.code, g.teams.2.code}) :
    g.venueId = "kalshi" ∧ ∃ anchor line, AnchoredPays r pays g anchor line := by
  have hresolved : resolver.byCode L pair.1 = some teamA ∧ resolver.byCode L pair.2 = some teamB := by
    simp only [eventPair, Option.bind_eq_bind, Option.bind_eq_some_iff, Option.some.injEq,
      Prod.mk.injEq] at hpair
    obtain ⟨_, _, _, _, pair', _, a, ha, b, hb, -, rfl, rfl, rfl⟩ := hpair
    exact ⟨ha, hb⟩
  obtain ⟨raw, line, anchor, other, hraw, hstrike, hfloor, hside, rfl⟩ := of_spreadGame hg
  obtain ⟨hmem, n, hticker, hdigits⟩ := of_anchorCodeFromTicker hraw
  have hteams_ne : teamA.code ≠ teamB.code := FinalMargin.ne_of_teams hteams
  -- the anchor is the team of whichever code the suffix names
  have hanchor : resolver.byCode L raw = some anchor := by
    rcases hside with ⟨rfl, rfl, -⟩ | ⟨hsecond, rfl, -⟩
    · exact hresolved.1
    · have hraw' : raw = pair.2 := by simpa [hsecond] using hmem
      exact hraw' ▸ hresolved.2
  have hcodes : ({teamA.code, teamB.code} : Finset String) = {anchor.code, other.code} := by
    rcases hside with ⟨-, rfl, rfl⟩ | ⟨-, rfl, rfl⟩
    · rfl
    · exact Finset.pair_comm _ _
  have hne : anchor.code ≠ other.code := by
    rcases hside with ⟨-, rfl, rfl⟩ | ⟨-, rfl, rfl⟩
    · exact hteams_ne
    · exact hteams_ne.symm
  obtain ⟨hyes, hno⟩ := hrule raw hmem n anchor line hticker hdigits hstrike hfloor hanchor
  refine ⟨rfl, anchor.code, line, anchoredPays_pair hne hcodes rfl (Or.inl rfl) rfl rfl rfl ?_ ?_⟩
  · simpa using hyes
  · simpa [hne.symm] using hno

/-- Where the games of the spreads fetcher come from. -/
theorem of_mem_fetchKalshiSpreads {L : Locale} {z : Calendar} {client : Client}
    {resolver : TeamResolver} {sport : String} {games : List VenueGame} {g : VenueGame}
    (hfetch : (fetchKalshiSpreads L z client resolver sport).value = some games) (hg : g ∈ games) :
    ∃ series events e markets mk gameDate pair teamA teamB,
      spreadsSeries.get? sport = some series ∧
      (getWithRetry (client.kalshiEvents series)).body? = some events ∧ e ∈ events.zipIdx ∧
      (getWithRetry (client.kalshiMarkets series e.2 (textOf e.1.eventTicker))).body? =
        some markets ∧ mk ∈ markets ∧
      eventPair L resolver (textOf e.1.eventTicker) = some (gameDate, pair, teamA, teamB) ∧
      spreadGame L sport (textOf e.1.eventTicker) gameDate pair teamA teamB mk = some g := by
  unfold fetchKalshiSpreads at hfetch
  split at hfetch
  · cases hfetch
  · rename_i series hseries
    simp only [Logged.value_bind, Logged.value_pure, Option.bind_eq_some_iff, Option.some.injEq]
      at hfetch
    obtain ⟨events, hevents, found, hfound, rfl⟩ := hfetch
    obtain ⟨some', hsome, hg⟩ := List.mem_flatten.mp hg
    obtain ⟨e, he, hparse⟩ := Logged.of_mem_forEach hfound hsome
    unfold parseSpreadEvent at hparse
    simp only at hparse
    split at hparse
    · cases hparse
      cases hg
    · rename_i gameDate pair teamA teamB hpair
      split at hparse
      · cases hparse
        cases hg
      · simp only [Logged.value_bind, Logged.value_pure, Option.bind_eq_some_iff,
          Option.some.injEq] at hparse
        obtain ⟨read, hread, rfl⟩ := hparse
        cases read with
        | none => cases hg
        | some markets =>
            obtain ⟨mk, hmk, hgame⟩ := List.mem_filterMap.mp hg
            exact ⟨series, events, e, markets, mk, gameDate, pair, teamA, teamB, hseries,
              body_of_readOrRaise hevents, he, body_of_readOrSkip hread, hmk, hpair, hgame⟩

/-! ## Polymarket US -/

/-- What a spread game was made of: the signed line of the market, whose sign
says which team is the anchor. -/
theorem of_polySpreadGame {L : Locale} {resolver : TeamResolver} {sport : String}
    {event : PolyEvent} {startTime : ℚ} {first second : PolyTeam × Team} {market : PolyMarket}
    {g : VenueGame}
    (hg : polySpreadGame L resolver sport event startTime first second market = some g) :
    ∃ signed, market.line = some signed ∧
      g = { sport, venueId := "polymarket_us", gameDate := L.easternDate startTime,
            teams := (first.2.participant, second.2.participant),
            outcomeIds := Dict.ofList
              [(first.2.code, textOf market.slug ++ ":LONG"),
                (second.2.code, textOf market.slug ++ ":SHORT")],
            ref := textOf market.slug, marketType := "spread", line := some signed.abs,
            anchor := some (if signed.mantissa < 0 then first else second).2.code,
            startTime := some startTime, live := event.live, ended := event.ended } := by
  unfold polySpreadGame at hg
  simp only [Option.bind_eq_bind] at hg
  obtain ⟨-, hg⟩ := Option.ite_none_left_eq_some.mp hg
  obtain ⟨signed, hsigned, hg⟩ := Option.bind_eq_some_iff.mp hg
  obtain ⟨sides, -, hg⟩ := Option.bind_eq_some_iff.mp hg
  obtain ⟨-, hg⟩ := Option.ite_none_left_eq_some.mp hg
  obtain ⟨longTeam, -, hg⟩ := Option.bind_eq_some_iff.mp hg
  obtain ⟨shortTeam, -, hg⟩ := Option.bind_eq_some_iff.mp hg
  obtain ⟨-, hg⟩ := Option.ite_none_left_eq_some.mp hg
  refine ⟨signed, hsigned, ?_⟩
  generalize (if signed.mantissa < 0 then first else second) = anchor at hg ⊢
  obtain ⟨-, hg⟩ := Option.ite_none_left_eq_some.mp hg
  cases hg
  rfl

/-- **A Polymarket US spread game keeps the common form**, unless the margin
is the line. -/
theorem anchoredPays_of_polySpreadGame {L : Locale} {resolver : TeamResolver} {r : FinalMargin}
    {pays : OutcomeId → Prop} {sport : String} {event : PolyEvent} {startTime : ℚ}
    {first second : PolyTeam × Team} {market : PolyMarket} {g : VenueGame}
    (hteams' : eventTeams L resolver event = some (first, second))
    (hg : polySpreadGame L resolver sport event startTime first second market = some g)
    (hrule : PolySpreadRule L resolver r pays event market)
    (hteams : r.teams = {g.teams.1.code, g.teams.2.code})
    (hline : ∀ anchor line, g.anchor = some anchor → g.line = some line →
      r.of anchor ≠ line.value) :
    g.venueId = "polymarket_us" ∧ ∃ anchor line, AnchoredPays r pays g anchor line := by
  obtain ⟨signed, hsigned, rfl⟩ := of_polySpreadGame hg
  have hne : first.2.code ≠ second.2.code := FinalMargin.ne_of_teams hteams
  obtain ⟨hlong, hshort⟩ := hrule first second signed hteams' hsigned
  have hvalue := Decimal.value_neg_iff signed
  by_cases hneg : signed.mantissa < 0
  · -- the first team gives points: it is the anchor, and LONG is the anchor covering
    have habs : signed.abs.value = -signed.value := by
      rw [Decimal.value_abs, abs_of_neg (hvalue.mpr hneg)]
    have hcover : 0 < r.of first.2.code + signed.value ↔
        signed.abs.value < r.of first.2.code := by
      rw [habs]
      constructor <;> intro h <;> linarith
    rw [if_pos hneg]
    refine ⟨rfl, first.2.code, signed.abs, anchoredPays_pair hne rfl rfl
      (Or.inl rfl) rfl rfl rfl ?_ ?_⟩
    · simpa [hcover] using hlong
    · simpa [hne.symm, ← hcover] using hshort
  · -- the second team gives points: it is the anchor, and SHORT is the anchor covering
    rw [if_neg hneg] at hline ⊢
    have habs : signed.abs.value = signed.value := by
      rw [Decimal.value_abs, abs_of_nonneg (not_lt.mp (mt hvalue.mp hneg))]
    have hother : r.of second.2.code = -r.of first.2.code :=
      FinalMargin.of_other hteams
    have hoff : r.of second.2.code ≠ signed.abs.value := hline _ _ rfl rfl
    have hcover : ¬ 0 < r.of first.2.code + signed.value ↔
        signed.abs.value < r.of second.2.code := by
      rw [habs] at hoff ⊢
      rw [hother] at hoff ⊢
      constructor
      · intro h
        exact lt_of_le_of_ne (by linarith) (Ne.symm hoff)
      · intro h
        linarith
    refine ⟨rfl, second.2.code, signed.abs, anchoredPays_pair hne rfl rfl
      (Or.inr rfl) rfl rfl rfl ?_ ?_⟩
    · rw [← hcover]
      simpa [hne] using hlong
    · rw [← hcover]
      simpa using hshort

/-- Where the games of the spreads fetcher come from. -/
theorem of_mem_fetchPolymarketUsSpreads {L : Locale} {client : Client} {resolver : TeamResolver}
    {sport : String} {games : List VenueGame} {g : VenueGame}
    (hfetch : (fetchPolymarketUsSpreads L client resolver sport).value = some games)
    (hg : g ∈ games) :
    ∃ events event startTime first second market,
      (client.leagueEvents (leagueSlugs.getD sport sport)).body? = some events ∧
      event ∈ events ∧ market ∈ event.markets ∧
      eventTeams L resolver event = some (first, second) ∧
      polySpreadGame L resolver sport event startTime first second market = some g := by
  unfold fetchPolymarketUsSpreads at hfetch
  simp only [Logged.value_bind, Logged.value_pure, Option.bind_eq_some_iff, Option.some.injEq]
    at hfetch
  obtain ⟨events, hevents, rfl⟩ := hfetch
  obtain ⟨event, hevent, hg⟩ := List.mem_flatMap.mp hg
  cases hstart : parseUtc L event.startTime with
  | none => rw [hstart] at hg; cases hg
  | some startTime =>
      cases hteams : eventTeams L resolver event with
      | none => rw [hstart, hteams] at hg; cases hg
      | some teams =>
          rw [hstart, hteams] at hg
          obtain ⟨market, hmarket, hgame⟩ := List.mem_filterMap.mp hg
          exact ⟨events, event, startTime, teams.1, teams.2, market, body_of_readOrRaise hevents,
            hevent, hmarket, hteams, hgame⟩

/-! ## A match of the two -/

/-- A spread match is about its games' anchor. -/
theorem yesKey_eq_anchor {g ag : VenueGame} {perVenue : Dict VenueId VenueGame} {a : String}
    (hkey : pairKey g = pairKey ag) (htype : g.marketType = "spread") (hanchor : g.anchor = some a)
    (hmem : a ∈ ({g.teams.1.code, g.teams.2.code} : Finset String)) :
    (matchOf ag perVenue).yesKey = a := by
  simp only [pairKey, Prod.mk.injEq] at hkey
  obtain ⟨-, hmarket, -, htext, hcodes⟩ := hkey
  have hyes : (matchOf ag perVenue).yesKey = orText ag.anchor (sortedTeams ag.teams).1.code := by
    have htype' : ag.marketType = "spread" := hmarket ▸ htype
    simp [CrossVenueMatch.yesKey, matchOf, htype']
  rw [hanchor, orText_some_empty] at htext
  rw [hyes]
  by_cases ha : a = ""
  · -- an empty anchor falls back on the first code, which is then empty too
    have hfirst : (sortedTeams ag.teams).1.code = "" := by
      rw [hcodes, ← sortedTeams_codes, ha, Finset.mem_insert, Finset.mem_singleton] at hmem
      rcases hmem with h | h
      · exact h.symm
      · have hle := sortedTeams_le ag.teams
        rw [← h] at hle
        exact eq_empty_of_le hle
    rw [hfirst, ← htext]
  · cases hag : ag.anchor with
    | none =>
        rw [hag] at htext
        exact absurd htext ha
    | some x =>
        rw [hag, orText_some_empty] at htext
        rw [orText, if_neg (htext ▸ ha), htext]

/-- The legs of a match on one venue are the ids of its game there. -/
theorem mem_legs_iff {m : CrossVenueMatch} {v : VenueId} {g : VenueGame}
    (hg : m.perVenue.get? v = some g) {l : EventGroupLeg} :
    l ∈ (matchToEventGroup m).legs ∧ l.venueId = v ↔
      ∃ code id, (code, id) ∈ g.outcomeIds.entries ∧ l = ⟨id, v, code = m.yesKey⟩ := by
  have hmem : ∀ e, e ∈ m.perVenue.entries.insertionSort (fun e f => e.1 ≤ f.1) ↔
      e ∈ m.perVenue.entries := fun e => (List.perm_insertionSort _ _).mem_iff
  constructor
  · rintro ⟨hl, hv⟩
    obtain ⟨⟨w, game⟩, he, hl⟩ := List.mem_flatMap.mp hl
    obtain ⟨⟨code, id⟩, hentry, rfl⟩ := List.mem_map.mp hl
    obtain rfl : w = v := hv
    have hgame := Dict.mem_entries_iff.mp ((hmem _).mp he)
    rw [hg, Option.some.injEq] at hgame
    exact ⟨code, id, hgame ▸ hentry, rfl⟩
  · rintro ⟨code, id, hentry, rfl⟩
    refine ⟨List.mem_flatMap.mpr ⟨(v, g), (hmem _).mpr (Dict.mem_entries_iff.mpr hg), ?_⟩, rfl⟩
    exact List.mem_map.mpr ⟨(code, id), hentry, rfl⟩

/-- Both labels occur on the venue, and legs of two venues pay together
exactly if they carry one label. -/
structure LegsAgree (pays : OutcomeId → Prop) (legs : List EventGroupLeg) (v w : VenueId) :
    Prop where
  labels : ∀ u ∈ [v, w], ∀ yes, ∃ l ∈ legs, l.venueId = u ∧ l.isYesSide = yes
  agree : ∀ l ∈ legs, ∀ l' ∈ legs, l.venueId = v → l'.venueId = w →
    (l.isYesSide = l'.isYesSide → (pays l.outcomeId ↔ pays l'.outcomeId)) ∧
    (l.isYesSide ≠ l'.isYesSide → (pays l.outcomeId ↔ ¬ pays l'.outcomeId))

/-- Games of the common form with one anchor and one line agree. -/
theorem legsAgree_of_anchoredPays {r : FinalMargin} {pays : OutcomeId → Prop}
    {m : CrossVenueMatch} {v w : VenueId} {g h : VenueGame} {line : Decimal}
    (hg : m.perVenue.get? v = some g) (hh : m.perVenue.get? w = some h)
    (hgp : AnchoredPays r pays g m.yesKey line) (hhp : AnchoredPays r pays h m.yesKey line) :
    LegsAgree pays (matchToEventGroup m).legs v w := by
  have hlabels : ∀ {u : VenueId} {x : VenueGame}, m.perVenue.get? u = some x →
      AnchoredPays r pays x m.yesKey line → ∀ yes, ∃ l ∈ (matchToEventGroup m).legs,
        l.venueId = u ∧ l.isYesSide = yes := by
    intro u x hx hxp yes
    obtain ⟨other, hne, -, hkeys⟩ := hxp.codes
    have hcode : ∃ code ∈ x.outcomeIds.keys, decide (code = m.yesKey) = yes := by
      cases yes with
      | true => exact ⟨m.yesKey, (hkeys _).mpr (Or.inl rfl), by simp⟩
      | false => exact ⟨other, (hkeys _).mpr (Or.inr rfl), by simp [hne.symm]⟩
    obtain ⟨code, hcode, hyes⟩ := hcode
    obtain ⟨⟨code', id⟩, hentry, rfl⟩ := List.mem_map.mp hcode
    obtain ⟨hl, hlu⟩ := (mem_legs_iff hx).mpr ⟨code', id, hentry, rfl⟩
    exact ⟨_, hl, hlu, hyes⟩
  constructor
  · intro u hu
    rcases List.mem_cons.mp hu with rfl | hu
    · exact hlabels hg hgp
    · obtain rfl := List.mem_singleton.mp hu
      exact hlabels hh hhp
  · intro l hl l' hl' hlv hlw
    obtain ⟨code, id, hentry, rfl⟩ := (mem_legs_iff hg).mp ⟨hl, hlv⟩
    obtain ⟨code', id', hentry', rfl⟩ := (mem_legs_iff hh).mp ⟨hl', hlw⟩
    have hpay := hgp.pays_iff _ _ hentry
    have hpay' := hhp.pays_iff _ _ hentry'
    simp only [ne_eq, decide_eq_decide]
    grind

/-- **Spread legs mean the same side on both venues.** -/
theorem spread_legs_agree (L : Locale) (z : Calendar) (client : Client) (resolver : TeamResolver)
    (sport : String) (kalshiGames polyGames : List VenueGame)
    (hkalshi : (fetchKalshiSpreads L z client resolver sport).value = some kalshiGames)
    (hpoly : (fetchPolymarketUsSpreads L client resolver sport).value = some polyGames)
    (venueGames : List (List VenueGame)) (dateTol : ℤ) {m : CrossVenueMatch}
    (hm : m ∈ matchGames venueGames dateTol) (g h : VenueGame) (hg : g ∈ kalshiGames)
    (hh : h ∈ polyGames) (hgm : g ∈ m.perVenue.values) (hhm : h ∈ m.perVenue.values)
    (r : FinalMargin) (hteams : r.teams = {m.teamA.code, m.teamB.code})
    (hline : ∀ line, m.line = some line → r.of m.yesKey ≠ line.value)
    (pays : OutcomeId → Prop) (hrulesK : KalshiSpreadRules L client resolver sport r pays)
    (hrulesP : PolySpreadRules L client resolver sport r pays) :
    LegsAgree pays (matchToEventGroup m).legs "kalshi" "polymarket_us" := by
  obtain ⟨-, hvenue, ag, -, hmatch, hsame⟩ := (matchGames_sound venueGames dateTol).2.1 m hm
  have hlookup : ∀ x ∈ m.perVenue.values, m.perVenue.get? x.venueId = some x := by
    intro x hx
    obtain ⟨⟨v, y⟩, hentry, rfl⟩ := List.mem_map.mp hx
    have hget := Dict.mem_entries_iff.mp hentry
    rwa [← hvenue v y hget] at hget
  have hcodes : ∀ x ∈ m.perVenue.values, r.teams = {x.teams.1.code, x.teams.2.code} := by
    intro x hx
    have hkey := (hsame x hx).1
    simp only [pairKey, Prod.mk.injEq] at hkey
    rw [hteams, hmatch, hkey.2.2.2.2, ← sortedTeams_codes]
    rfl
  -- Kalshi's game fixes the anchor and the line of the match
  obtain ⟨series, events, e, markets, mk, gameDate, pair, teamA, teamB, hseries, hevents, he,
    hmarkets, hmk, hpair, hgame⟩ := of_mem_fetchKalshiSpreads hkalshi hg
  obtain ⟨hgv, anchor, line, hgp⟩ := anchoredPays_of_spreadGame hpair hgame
    (hrulesK series hseries events hevents e he markets hmarkets mk hmk gameDate pair teamA teamB
      hpair) (hcodes g hgm)
  have hkey : pairKey h = pairKey g := (hsame h hhm).1.trans (hsame g hgm).1.symm
  have hyes : m.yesKey = anchor := by
    obtain ⟨other, -, hset, -⟩ := hgp.codes
    rw [hmatch]
    exact yesKey_eq_anchor (hsame g hgm).1 hgp.marketType hgp.anchor_eq (by rw [hset]; simp)
  have hmline : m.line = some line := by
    have hkeyg := (hsame g hgm).1
    simp only [pairKey, Prod.mk.injEq] at hkeyg
    rw [hmatch, ← hgp.line_eq]
    exact fmtLine_injective hkeyg.2.2.1.symm
  have hoff := hline line hmline
  rw [hyes] at hoff
  -- Polymarket's game has the same two, being of the same pair key
  have hshared : ∀ anchor' line', h.anchor = some anchor' → h.line = some line' →
      anchor' = anchor ∧ line' = line := by
    intro anchor' line' hanchor' hline'
    simp only [pairKey, Prod.mk.injEq, hanchor', hgp.anchor_eq, orText_some_empty, hline',
      hgp.line_eq] at hkey
    exact ⟨hkey.2.2.2.1, Option.some.inj (fmtLine_injective hkey.2.2.1)⟩
  obtain ⟨events', event, startTime, first, second, market, hevents', hevent, hmarket, hteams',
    hgame'⟩ := of_mem_fetchPolymarketUsSpreads hpoly hh
  obtain ⟨hhv, anchor', line', hhp⟩ := anchoredPays_of_polySpreadGame hteams' hgame'
    (hrulesP events' hevents' event hevent market hmarket) (hcodes h hhm)
    fun a l ha hl => by
      obtain ⟨rfl, rfl⟩ := hshared a l ha hl
      exact hoff
  obtain ⟨rfl, rfl⟩ := hshared anchor' line' hhp.anchor_eq hhp.line_eq
  rw [← hyes] at hgp hhp
  exact legsAgree_of_anchoredPays (hgv ▸ hlookup g hgm) (hhv ▸ hlookup h hhm) hgp hhp

/-! ## New England at Seattle -/

namespace Seattle

theorem year_range : 1 ≤ 2026 ∧ 2026 ≤ 9999 := by decide

def day : Date := ⟨2026, 9, 13, year_range, by decide, by decide⟩

/-- The library's tables, on the texts of this fixture. -/
def locale : Locale where
  upper := id
  lower := id
  isSpace c := c = ' '
  fold := id
  fromIsoformat text := if text = "2026-09-13T17:00:00+00:00" then some 1789318800 else none
  easternDate _ := day
  easternInstant _ _ _ := 0

def calendar : Calendar := ⟨day, day, 3⟩

def resolver : TeamResolver where
  codes := Dict.ofList [("NE", ⟨"NE", "New England Patriots", "New England", "Patriots"⟩),
    ("SEA", ⟨"SEA", "Seattle Seahawks", "Seattle", "Seahawks"⟩)]
  cityAndPrefix := Dict.empty
  full := Dict.empty
  cityUnique := Dict.empty
  codeAliases := Dict.empty

def eventTicker : String := "KXNFLSPREAD-26SEP13NESEA"

def three5 : Decimal := ⟨35, 1, by decide⟩

/-- Seattle to win by more than 3.5. -/
def kalshiMarket : KalshiMarket where
  ticker := some "KXNFLSPREAD-26SEP13NESEA-SEA4"
  strikeType := some "greater"
  floorStrike := some (some three5)

def newEngland : PolyTeam := { name := some "Patriots", displayAbbreviation := some "NE" }

def seattle : PolyTeam := { name := some "Seahawks", displayAbbreviation := some "SEA" }

/-- New England plus 3.5. -/
def polyMarket : PolyMarket where
  sportsMarketType := some "football_team_full_game_spread"
  slug := some "asc-nfl-ne-sea-pos-3pt5"
  line := some three5
  title := some "Seahawks wins by over 3.5 points"
  marketSides := [⟨true, some newEngland⟩, ⟨false, some seattle⟩]

def polyEvent : PolyEvent where
  startTime := some "2026-09-13T17:00:00Z"
  teams := [newEngland, seattle]
  markets := [polyMarket]

def client : Client where
  kalshiEvents _ _ := .answered 200 none (some [{ eventTicker := some eventTicker }])
  kalshiMarkets _ _ _ _ := .answered 200 none (some [kalshiMarket])
  leagueEvents _ := .answered 200 none (some [polyEvent])

def teams : Participant × Participant :=
  (⟨"NE", "New England Patriots"⟩, ⟨"SEA", "Seattle Seahawks"⟩)

def kalshiGame : VenueGame where
  sport := "nfl"
  venueId := "kalshi"
  gameDate := day
  teams := teams
  outcomeIds := Dict.ofList [("SEA", "KXNFLSPREAD-26SEP13NESEA-SEA4:YES"),
    ("NE", "KXNFLSPREAD-26SEP13NESEA-SEA4:NO")]
  ref := "KXNFLSPREAD-26SEP13NESEA-SEA4"
  marketType := "spread"
  line := some three5
  anchor := some "SEA"

def polyGame : VenueGame where
  sport := "nfl"
  venueId := "polymarket_us"
  gameDate := day
  teams := teams
  outcomeIds := Dict.ofList [("NE", "asc-nfl-ne-sea-pos-3pt5:LONG"),
    ("SEA", "asc-nfl-ne-sea-pos-3pt5:SHORT")]
  ref := "asc-nfl-ne-sea-pos-3pt5"
  marketType := "spread"
  line := some three5
  anchor := some "SEA"
  startTime := some 1789318800

def pairing : CrossVenueMatch :=
  matchOf polyGame (Dict.ofList [("polymarket_us", polyGame), ("kalshi", kalshiGame)])

/-- Seattle wins by seven. -/
def bySeven : FinalMargin := ⟨"SEA", "NE", by decide, 7⟩

/-- What the venues then pay on. -/
def pays (o : OutcomeId) : Prop :=
  o = "KXNFLSPREAD-26SEP13NESEA-SEA4:YES" ∨ o = "asc-nfl-ne-sea-pos-3pt5:SHORT"

instance (o : OutcomeId) : Decidable (pays o) := inferInstanceAs (Decidable (_ ∨ _))

theorem kalshiRules : KalshiSpreadRules locale client resolver "nfl" bySeven pays := by
  intro series hseries events hevents e he markets hmarkets mk hmk gameDate pair teamA teamB hpair
    code hcode n team line hticker hn hstrike hfloor hteam
  cases hevents
  cases hmarkets
  obtain rfl : e = ({ eventTicker := some eventTicker }, 0) := List.mem_singleton.mp he
  obtain rfl : mk = kalshiMarket := List.mem_singleton.mp hmk
  obtain rfl : pair = ("NE", "SEA") := by
    have h : eventPair locale resolver eventTicker = some (day, ("NE", "SEA"),
      ⟨"NE", "New England Patriots", "New England", "Patriots"⟩,
      ⟨"SEA", "Seattle Seahawks", "Seattle", "Seahawks"⟩) := by decide +kernel
    cases h.symm.trans hpair
    rfl
  cases hfloor
  have hcode' : code = "NE" ∨ code = "SEA" := by simpa using hcode
  rcases hcode' with rfl | rfl
  · -- the suffix is Seattle's
    have hticker' : "KXNFLSPREAD-26SEP13NESEA-SEA4".toList =
        eventTicker.toList ++ ('-' :: ("NE".toList ++ n)) := hticker
    have hletter := congrArg (fun t => (t.drop eventTicker.toList.length)[1]?) hticker'
    have hcode : "NE".toList = ['N', 'E'] := by decide +kernel
    rw [List.drop_left, hcode] at hletter
    change _ = some 'N' at hletter
    exact absurd hletter (by decide +kernel)
  · obtain rfl : team = ⟨"SEA", "Seattle Seahawks", "Seattle", "Seahawks"⟩ := by
      have h : resolver.byCode locale "SEA" =
        some ⟨"SEA", "Seattle Seahawks", "Seattle", "Seahawks"⟩ := by decide +kernel
      exact (Option.some.inj (h.symm.trans hteam)).symm
    exact ⟨by decide +kernel, by decide +kernel⟩

theorem polyRules : PolySpreadRules locale client resolver "nfl" bySeven pays := by
  intro events hevents event hevent market hmarket first second line hteams hmline
  cases hevents
  obtain rfl : event = polyEvent := List.mem_singleton.mp hevent
  obtain rfl : market = polyMarket := List.mem_singleton.mp hmarket
  cases hmline
  have h : eventTeams locale resolver polyEvent = some
      ((newEngland, ⟨"NE", "New England Patriots", "New England", "Patriots"⟩),
        (seattle, ⟨"SEA", "Seattle Seahawks", "Seattle", "Seahawks"⟩)) := by decide +kernel
  cases h.symm.trans hteams
  exact ⟨by decide +kernel, by decide +kernel⟩

end Seattle

open Seattle in
theorem spread_legs_agree_seattle :
    LegsAgree pays (matchToEventGroup pairing).legs "kalshi" "polymarket_us" :=
  spread_legs_agree locale calendar client resolver "nfl" [kalshiGame] [polyGame]
    (by decide +kernel) (by decide +kernel) [[kalshiGame], [polyGame]] 0 (by decide +kernel)
    kalshiGame polyGame (by decide +kernel) (by decide +kernel)
    (by decide +kernel) (by decide +kernel) bySeven (by decide +kernel)
    (fun line hline => by cases hline; decide +kernel) pays kalshiRules polyRules

end Arbys
