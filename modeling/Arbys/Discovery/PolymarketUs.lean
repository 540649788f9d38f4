import Arbys.Discovery.Kalshi

/-!
# Polymarket US discovery

`discovery/polymarket_us.py`: one events call per league answers for every
market type, and the fetchers differ in which markets they keep. The lists of
a payload hold the entries that are objects, as every loop of the source
skips the others.
-/

namespace Arbys

/-- `LEAGUE_SLUGS`. -/
def leagueSlugs : Dict String String :=
  Dict.ofList [("mlb", "mlb"), ("nfl", "nfl"), ("nba", "nba"), ("wnba", "wnba"), ("ncaaf", "cfb")]

/-- `TENNIS_LEAGUES`. -/
def tennisLeagues : List String := ["atp", "wta"]

/-- `UFC_LEAGUES`. -/
def ufcLeagues : List String := ["ufc"]

/-- `MONEYLINE_TYPES`. -/
def moneylineTypes : List String :=
  ["baseball_team_full_game_winner", "football_team_full_game_winner",
    "basketball_team_full_game_winner"]

/-- `TENNIS_WINNER_TYPES`. -/
def tennisWinnerTypes : List String := ["tennis_match_winner"]

/-- `UFC_WINNER_TYPES`. -/
def ufcWinnerTypes : List String := ["ufc_fight_winner", "moneyline"]

/-- `TOTAL_TYPES`. -/
def totalTypes : List String :=
  ["football_team_full_game_total", "baseball_team_full_game_total",
    "basketball_team_full_game_total"]

/-- `SPREAD_TYPES`. -/
def spreadTypes : List String :=
  ["baseball_team_full_game_spread", "football_team_full_game_spread",
    "basketball_team_full_game_spread"]

/-- `market.get("sportsMarketType") in types`. -/
def PolyMarket.hasType (market : PolyMarket) (types : List String) : Bool :=
  match market.sportsMarketType with
  | none => false
  | some type => type ∈ types

/-- `_sides`: the (long, short) pair of a binary market. -/
def PolyMarket.sides (market : PolyMarket) : Option (PolySide × PolySide) :=
  match market.marketSides.filter (·.long), market.marketSides.filter (!·.long) with
  | [long], [short] => some (long, short)
  | _, _ => none

section Fetch

variable (L : Locale) (client : Client) (resolver : TeamResolver)

/-- `_parse_utc`: an ISO-8601 timestamp, with the spellings the venues use. -/
def parseUtc (value : Option String) : Option ℚ :=
  let text := textOf value
  if text = "" then none
  else
    let s := (L.strip text).toList.map fun c => if c = ' ' then 'T' else c
    let s := if s.getLast? = some 'Z' then s.dropLast ++ "+00:00".toList else s
    let tail := s.drop (s.length - 3)
    let short := 3 ≤ s.length ∧ (tail.head? = some '+' ∨ tail.head? = some '-') ∧
      tail.tail.all Char.isDigit
    L.fromIsoformat (String.ofList (if short then s ++ ":00".toList else s))

/-- `_resolve_team`: the precise fields first, the name last. -/
def resolveTeam (team : Option PolyTeam) : Option Team := do
  let team ← team
  let byName (field : Option String) : Option Team :=
    if textOf field = "" then none else resolver.byPolymarketName L (textOf field)
  let byAbbreviation :=
    if textOf team.displayAbbreviation = "" then none
    else resolver.byCode L (textOf team.displayAbbreviation)
  (byAbbreviation.or (byName team.safeName)).or (byName team.name)

/-- `_fetch_events`. -/
def fetchEvents (league : String) : Fetch (List PolyEvent) :=
  readOrRaise .leagueEvents league (client.leagueEvents league)

/-- The game of one moneyline market. -/
def polyMoneylineGame (sport : String) (event : PolyEvent) (startTime : ℚ) (market : PolyMarket) :
    Option VenueGame := do
  let slug := textOf market.slug
  if !market.hasType moneylineTypes ∨ slug = "" then none
  else
    let (long, short) ← market.sides
    let teamLong ← resolveTeam L resolver long.team
    let teamShort ← resolveTeam L resolver short.team
    some { sport, venueId := "polymarket_us", gameDate := L.easternDate startTime,
           teams := (teamLong.participant, teamShort.participant),
           outcomeIds := Dict.ofList
             [(teamLong.code, slug ++ ":LONG"), (teamShort.code, slug ++ ":SHORT")],
           ref := slug, startTime := some startTime, live := event.live, ended := event.ended }

/-- `fetch_polymarket_us_games`. -/
def fetchPolymarketUsGames (sport : String) : Fetch (List VenueGame) := do
  let events ← fetchEvents client (leagueSlugs.getD sport sport)
  pure (events.flatMap fun event =>
    match parseUtc L event.startTime with
    | none => []
    | some startTime =>
        event.markets.filterMap (polyMoneylineGame L resolver sport event startTime))

/-- The two teams of an event, both resolved, with the names the venue gives. -/
def eventTeams (event : PolyEvent) : Option ((PolyTeam × Team) × PolyTeam × Team) :=
  match event.teams with
  | [a, b] => do
      let teamA ← resolveTeam L resolver (some a)
      let teamB ← resolveTeam L resolver (some b)
      some ((a, teamA), b, teamB)
  | _ => none

/-- The game of one totals market. OVER is the long side. -/
def polyTotalsGame (sport : String) (event : PolyEvent) (startTime : ℚ) (teamA teamB : Team)
    (market : PolyMarket) : Option VenueGame := do
  let slug := textOf market.slug
  if !market.hasType totalTypes ∨ slug = "" then none
  else
    let line ← market.line
    let _ ← market.sides
    some { sport, venueId := "polymarket_us", gameDate := L.easternDate startTime,
           teams := (teamA.participant, teamB.participant),
           outcomeIds := Dict.ofList [(overSide, slug ++ ":LONG"), (underSide, slug ++ ":SHORT")],
           ref := slug, marketType := "total", line := some line, startTime := some startTime,
           live := event.live, ended := event.ended }

/-- `fetch_polymarket_us_totals`. -/
def fetchPolymarketUsTotals (sport : String) : Fetch (List VenueGame) := do
  let events ← fetchEvents client (leagueSlugs.getD sport sport)
  pure (events.flatMap fun event =>
    match parseUtc L event.startTime, eventTeams L resolver event with
    | some startTime, some ((_, teamA), _, teamB) =>
        event.markets.filterMap (polyTotalsGame L sport event startTime teamA teamB)
    | _, _ => [])

/-! ## Spreads -/

/-- `\d+(?:\.\d+)?` with a unit after it, to the end of the text. -/
def lineOfTitle (text : List Char) : Option Decimal :=
  let whole := text.takeWhile Char.isDigit
  let rest := text.drop whole.length
  let fraction := if rest.head? = some '.' then (rest.drop 1).takeWhile Char.isDigit else []
  let unit := if fraction = [] then rest else rest.drop (fraction.length + 1)
  if whole ≠ [] ∧ (unit = " runs".toList ∨ unit = " points".toList) then
    some (Decimal.ofDigits (whole ++ fraction) fraction.length)
  else none

/-- The team and the line `_SPREAD_TITLE_RE` captures: the shortest team the
rest of the pattern follows. -/
def spreadTitle (before : List Char) : List Char → Option (String × Decimal)
  | [] => none
  | c :: rest =>
      let marker := " wins by over ".toList
      let here := if before ≠ [] ∧ marker.isPrefixOf (c :: rest) then
          lineOfTitle ((c :: rest).drop marker.length)
        else none
      match here with
      | some line => some (String.ofList before.reverse, line)
      | none => if c = '\n' then none else spreadTitle (c :: before) rest

/-- `_title_agrees`. -/
def titleAgrees (title anchorName : Option String) (line : Decimal) : Option Bool := do
  let title ← title
  let (team, titleLine) ← spreadTitle [] (L.strip title).toList
  some (some team = anchorName && titleLine = line)

/-- The game of one spread market. The line is signed and stated for the
first-listed team; the team that must win by more than it is the anchor, and
LONG is the first team covering. -/
def polySpreadGame (sport : String) (event : PolyEvent) (startTime : ℚ)
    (first second : PolyTeam × Team) (market : PolyMarket) : Option VenueGame := do
  let slug := textOf market.slug
  if !market.hasType spreadTypes ∨ slug = "" then none
  else
    let signed ← market.line
    let (long, short) ← market.sides
    if signed.mantissa = 0 then none
    else
      let longTeam ← resolveTeam L resolver long.team
      let shortTeam ← resolveTeam L resolver short.team
      if longTeam.code ≠ first.2.code ∨ shortTeam.code ≠ second.2.code then none
      else
        -- a negative line gives points away, so its team must win by more
        let anchor := if signed.mantissa < 0 then first else second
        if titleAgrees L market.title anchor.1.name signed.abs = some false then none
        else
          some { sport, venueId := "polymarket_us", gameDate := L.easternDate startTime,
                 teams := (first.2.participant, second.2.participant),
                 outcomeIds := Dict.ofList
                   [(first.2.code, slug ++ ":LONG"), (second.2.code, slug ++ ":SHORT")],
                 ref := slug, marketType := "spread", line := some signed.abs,
                 anchor := some anchor.2.code, startTime := some startTime,
                 live := event.live, ended := event.ended }

/-- `fetch_polymarket_us_spreads`. -/
def fetchPolymarketUsSpreads (sport : String) : Fetch (List VenueGame) := do
  let events ← fetchEvents client (leagueSlugs.getD sport sport)
  pure (events.flatMap fun event =>
    match parseUtc L event.startTime, eventTeams L resolver event with
    | some startTime, some (first, second) =>
        event.markets.filterMap (polySpreadGame L resolver sport event startTime first second)
    | _, _ => [])

/-! ## Tennis and UFC -/

/-- The player of a side, with the code of the last name. -/
def player (side : PolySide) : Option Participant := do
  let team ← side.team
  let name ← team.name
  some ⟨lastNameCode L name, name⟩

/-- The game of one match-winner market. -/
def polyHeadToHeadGame (winnerTypes : List String) (league : String) (event : PolyEvent)
    (startTime : ℚ) (market : PolyMarket) : Option VenueGame := do
  let slug := textOf market.slug
  if !market.hasType winnerTypes ∨ slug = "" then none
  else
    let (long, short) ← market.sides
    let a ← player L long
    let b ← player L short
    if a.code = "" ∨ b.code = "" ∨ a.code = b.code then none
    else
      some { sport := league, venueId := "polymarket_us", gameDate := L.easternDate startTime,
             teams := (a, b),
             outcomeIds := Dict.ofList [(a.code, slug ++ ":LONG"), (b.code, slug ++ ":SHORT")],
             ref := slug, startTime := some startTime, live := event.live, ended := event.ended }

/-- `fetch_polymarket_us_tennis`. -/
def fetchPolymarketUsTennis (leagues winnerTypes : List String) : Fetch (List VenueGame) := do
  let games ← Logged.forEach (fun league => do
      let events ← fetchEvents client league
      pure (events.flatMap fun event =>
        match parseUtc L event.startTime with
        | none => []
        | some startTime =>
            event.markets.filterMap (polyHeadToHeadGame L winnerTypes league event startTime)))
    leagues
  pure games.flatten

end Fetch

end Arbys
