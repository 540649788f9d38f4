import Arbys.Discovery.Venues

/-!
# Kalshi discovery

`discovery/kalshi_sports.py`, `kalshi_totals.py`, `kalshi_spreads.py` and
`kalshi_tennis.py` with the names of `players.py`: one events call per
series, and one markets call per event that passes the checks before it.
Tickers are read as ASCII.
-/

namespace Arbys

/-- `m.get(field) or ""`. -/
def textOf (field : Option String) : String := field.getD ""

/-! ## Tickers -/

/-- `int(text)` on digits. -/
def digits? (text : List Char) : Option ℕ :=
  if text ≠ [] ∧ text.all Char.isDigit then some (Nat.ofDigitChars 10 text 0) else none

/-- `_MONTHS`. -/
def months : Dict String ℕ :=
  Dict.ofList [("JAN", 1), ("FEB", 2), ("MAR", 3), ("APR", 4), ("MAY", 5), ("JUN", 6),
    ("JUL", 7), ("AUG", 8), ("SEP", 9), ("OCT", 10), ("NOV", 11), ("DEC", 12)]

/-- What follows the first dash of a ticker. -/
def tickerTail (ticker : String) : Option (List Char) :=
  match ticker.toList.dropWhile (· ≠ '-') with
  | [] => none
  | _ :: tail => some tail

/-- `_parse_ticker_date`: "KXMLBGAME-26AUG051420LADCHC". -/
def parseTickerDate (ticker : String) : Option Date := do
  let tail ← tickerTail ticker
  if tail.length < 7 then none
  else
    let month ← months.get? (String.ofList ((tail.drop 2).take 3))
    let yy ← digits? (tail.take 2)
    let day ← digits? ((tail.drop 5).take 2)
    Date.ofYmd? (2000 + yy) month day

/-- `parse_ticker_start`: the trailing HHMM is Eastern. -/
def parseTickerStart (L : Locale) (ticker : String) : Option ℚ := do
  let tail ← tickerTail ticker
  if tail.length < 11 then none
  else
    let date ← parseTickerDate ticker
    let hh ← digits? ((tail.drop 7).take 2)
    let mm ← digits? ((tail.drop 9).take 2)
    if hh < 24 ∧ mm < 60 then some (L.easternInstant date hh mm) else none

/-- The codes `_TICKER_RE` captures: a series, a date with an optional time,
and capitals to the end. -/
def tickerCodes (ticker : String) : Option String :=
  let series := ticker.toList.takeWhile (· ≠ '-')
  match tickerTail ticker with
  | none => none
  | some tail =>
      let rest := tail.drop 7
      let codes := if (rest.take 4).length = 4 ∧ (rest.take 4).all Char.isDigit then rest.drop 4
        else rest
      if series ≠ [] ∧ series.all (fun c => c.isUpper || c.isDigit) ∧ 7 ≤ tail.length ∧
          (tail.take 2).all Char.isDigit ∧ ((tail.drop 2).take 3).all Char.isUpper ∧
          ((tail.drop 5).take 2).all Char.isDigit ∧ codes ≠ [] ∧ codes.all Char.isUpper then
        some (String.ofList codes)
      else none

/-- `split_team_codes`. -/
def splitTeamCodes (L : Locale) (resolver : TeamResolver) (codes : String) :
    Option (String × String) :=
  ((List.range (codes.length - 1)).drop 2).findSome? fun i =>
    let a := String.ofList (codes.toList.take i)
    let b := String.ofList (codes.toList.drop i)
    if (resolver.byCode L a).isSome ∧ (resolver.byCode L b).isSome then some (a, b) else none

/-- `anchor_code_from_ticker`. -/
def anchorCodeFromTicker (marketTicker eventTicker : String) (codes : String × String) :
    Option String :=
  let start := eventTicker.toList ++ ['-']
  if start.isPrefixOf marketTicker.toList then
    let rest := marketTicker.toList.drop start.length
    let hits := [codes.1, codes.2].filter fun c =>
      c.toList.isPrefixOf rest && (digits? (rest.drop c.length)).isSome
    if hits.length = 1 then hits.head? else none
  else none

/-! ## Team sports -/

/-- `SERIES_TICKERS`. -/
def seriesTickers : Dict String String :=
  Dict.ofList [("mlb", "KXMLBGAME"), ("nfl", "KXNFLGAME"), ("nba", "KXNBAGAME"),
    ("wnba", "KXWNBAGAME"), ("ncaaf", "KXNCAAFGAME")]

/-- The loop over a moneyline event's markets: the outcome ids and the teams. -/
def moneylineSides (L : Locale) (resolver : TeamResolver) (markets : List KalshiMarket) :
    Dict String OutcomeId × Dict String Team :=
  markets.foldl (fun found m =>
    let ticker := textOf m.ticker
    let title := textOf m.yesSubTitle
    if ticker = "" ∨ title = "" then found
    else
      match resolver.byKalshiTitle L title with
      | none => found
      | some team => (found.1.set team.code (ticker ++ ":YES"), found.2.set team.code team))
    (Dict.empty, Dict.empty)

/-- `_parse_kalshi_event` once the markets are there. -/
def moneylineGame (L : Locale) (resolver : TeamResolver) (sport eventTicker : String)
    (gameDate : Date) (markets : List KalshiMarket) : Option VenueGame :=
  let (outcomeIds, teams) := moneylineSides L resolver markets
  match teams.values with
  | [a, b] =>
      some { sport, venueId := "kalshi", gameDate, teams := (a.participant, b.participant),
             outcomeIds, ref := eventTicker, startTime := parseTickerStart L eventTicker }
  | _ => none

section Fetch

variable (L : Locale) (z : Calendar) (client : Client) (resolver : TeamResolver)

/-- `_parse_kalshi_event`. -/
def parseKalshiEvent (sport series : String) (event : KalshiEvent) (position : ℕ) :
    Fetch (Option VenueGame) :=
  let eventTicker := textOf event.eventTicker
  if eventTicker = "" then pure none
  else
    match parseTickerDate eventTicker with
    | none => pure none
    | some gameDate =>
        if !z.within gameDate then pure none
        else do
          let markets ← readOrRaise .teamMarkets eventTicker
            (getWithRetry (client.kalshiMarkets series position eventTicker))
          pure (moneylineGame L resolver sport eventTicker gameDate markets)

/-- `fetch_kalshi_team_games`. -/
def fetchKalshiTeamGames (sport : String) : Fetch (List VenueGame) :=
  match seriesTickers.get? sport with
  | none => Logged.raised
  | some series => do
      let events ← readOrRaise .teamEvents series (getWithRetry (client.kalshiEvents series))
      let games ← Logged.forEach
        (fun e => parseKalshiEvent L z client resolver sport series e.1 e.2) events.zipIdx
      pure (games.filterMap id)

/-! ## Totals -/

/-- What the totals and the spreads read off an event ticker: the date, the
codes as Kalshi writes them, and the two teams. -/
def eventPair (eventTicker : String) : Option (Date × (String × String) × Team × Team) := do
  let codes ← tickerCodes eventTicker
  let gameDate ← parseTickerDate eventTicker
  let pair ← splitTeamCodes L resolver codes
  let teamA ← resolver.byCode L pair.1
  let teamB ← resolver.byCode L pair.2
  some (gameDate, pair, teamA, teamB)

/-- `TOTALS_SERIES`. -/
def totalsSeries : Dict String String :=
  Dict.ofList [("mlb", "KXMLBTOTAL"), ("nfl", "KXNFLTOTAL"), ("nba", "KXNBATOTAL"),
    ("wnba", "KXWNBATOTAL"), ("ncaaf", "KXNCAAFTOTAL")]

/-- The game of one totals market. -/
def totalsGame (sport eventTicker : String) (gameDate : Date) (teamA teamB : Team)
    (mk : KalshiMarket) : Option VenueGame :=
  let ticker := textOf mk.ticker
  match mk.floorStrike with
  | some (some line) =>
      if ticker = "" then none
      else
        some { sport, venueId := "kalshi", gameDate,
               teams := (teamA.participant, teamB.participant),
               outcomeIds := Dict.ofList [(overSide, ticker ++ ":YES"), (underSide, ticker ++ ":NO")],
               ref := ticker, marketType := "total", line := some line,
               startTime := parseTickerStart L eventTicker }
  | _ => none

/-- `_parse_totals_event`. -/
def parseTotalsEvent (sport series : String) (event : KalshiEvent) (position : ℕ) :
    Fetch (List VenueGame) :=
  let ticker := textOf event.eventTicker
  match eventPair L resolver ticker with
  | none => pure []
  | some (gameDate, _, teamA, teamB) =>
      if !z.within gameDate then pure []
      else do
        let markets ← readOrSkip .totalsMarkets ticker
          (getWithRetry (client.kalshiMarkets series position ticker))
        pure ((markets.getD []).filterMap (totalsGame L sport ticker gameDate teamA teamB))

/-- `fetch_kalshi_totals`. -/
def fetchKalshiTotals (sport : String) : Fetch (List VenueGame) :=
  match totalsSeries.get? sport with
  | none => Logged.raised
  | some series => do
      let events ← readOrRaise .totalsEvents series (getWithRetry (client.kalshiEvents series))
      let games ← Logged.forEach
        (fun e => parseTotalsEvent L z client resolver sport series e.1 e.2) events.zipIdx
      pure games.flatten

/-! ## Spreads -/

/-- `SPREADS_SERIES`. -/
def spreadsSeries : Dict String String :=
  Dict.ofList [("mlb", "KXMLBSPREAD"), ("nfl", "KXNFLSPREAD"), ("ncaaf", "KXNCAAFSPREAD"),
    ("nba", "KXNBASPREAD"), ("wnba", "KXWNBASPREAD")]

/-- The game of one spread market. YES is the anchor winning by more than the
line. -/
def spreadGame (sport eventTicker : String) (gameDate : Date) (pair : String × String)
    (teamA teamB : Team) (mk : KalshiMarket) : Option VenueGame := do
  let ticker := textOf mk.ticker
  if ticker = "" then none
  else
    let rawAnchor ← anchorCodeFromTicker ticker eventTicker pair
    if mk.strikeType ≠ some "greater" then none
    else
      let strike ← mk.floorStrike
      let line ← strike
      if line.mantissa ≤ 0 then none
      else
        let (anchor, other) := if rawAnchor = pair.1 then (teamA, teamB) else (teamB, teamA)
        some { sport, venueId := "kalshi", gameDate,
               teams := (teamA.participant, teamB.participant),
               outcomeIds := Dict.ofList
                 [(anchor.code, ticker ++ ":YES"), (other.code, ticker ++ ":NO")],
               ref := ticker, marketType := "spread", line := some line,
               anchor := some anchor.code, startTime := parseTickerStart L eventTicker }

/-- `_parse_spread_event`. -/
def parseSpreadEvent (sport series : String) (event : KalshiEvent) (position : ℕ) :
    Fetch (List VenueGame) :=
  let ticker := textOf event.eventTicker
  match eventPair L resolver ticker with
  | none => pure []
  | some (gameDate, pair, teamA, teamB) =>
      if !z.within gameDate then pure []
      else do
        let markets ← readOrSkip .spreadsMarkets ticker
          (getWithRetry (client.kalshiMarkets series position ticker))
        pure ((markets.getD []).filterMap (spreadGame L sport ticker gameDate pair teamA teamB))

/-- `fetch_kalshi_spreads`. -/
def fetchKalshiSpreads (sport : String) : Fetch (List VenueGame) :=
  match spreadsSeries.get? sport with
  | none => Logged.raised
  | some series => do
      let events ← readOrRaise .spreadsEvents series (getWithRetry (client.kalshiEvents series))
      let games ← Logged.forEach
        (fun e => parseSpreadEvent L z client resolver sport series e.1 e.2) events.zipIdx
      pure games.flatten

/-! ## Tennis and UFC -/

/-- `text.split()`. -/
def words (text : String) : List String :=
  ((text.toList.splitOnP L.isSpace).filter (· ≠ [])).map String.ofList

/-- The letters `_normalize` replaces before decomposing. -/
def replaceLetter (c : Char) : Char :=
  match c with
  | 'Đ' => 'D'
  | 'đ' => 'd'
  | 'Ø' => 'O'
  | 'ø' => 'o'
  | 'Ł' => 'L'
  | 'ł' => 'l'
  | _ => c

/-- `_normalize`. -/
def normalizeName (text : String) : String :=
  L.strip (L.fold (String.ofList (text.toList.map replaceLetter)))

/-- `last_name_code`. -/
def lastNameCode (fullName : String) : String :=
  match (words L (normalizeName L fullName)).getLast? with
  | none => ""
  | some word => L.upper word

/-- What follows `vs`, an optional dot and a blank. -/
def afterVs : List Char → Option (List Char)
  | v :: s :: rest =>
      if (v = 'v' ∨ v = 'V') ∧ (s = 's' ∨ s = 'S' ∨ s = 'ſ') then
        let rest := if rest.head? = some '.' then rest.tail else rest
        if (rest.head?.map L.isSpace).getD false then some (rest.dropWhile L.isSpace) else none
      else none
  | _ => none

/-- `_VS_SPLIT.split(text, maxsplit=1)`, where it has two parts. -/
def splitVs (before : List Char) : List Char → Option (String × String)
  | [] => none
  | c :: rest =>
      match if L.isSpace c then afterVs L (rest.dropWhile L.isSpace) else none with
      | some after => some (String.ofList before.reverse, String.ofList after)
      | none => splitVs (c :: before) rest

/-- `parse_vs_title`. -/
def parseVsTitle (title : String) : Option (Participant × Participant) := do
  let (a, b) ← splitVs L [] (L.strip title).toList
  let aFull := L.strip a
  let bFull := L.strip b
  let aCode := lastNameCode L aFull
  let bCode := lastNameCode L bFull
  if aCode = "" ∨ bCode = "" ∨ aCode = bCode then none
  else some (⟨aCode, aFull⟩, ⟨bCode, bFull⟩)

/-- `TENNIS_SERIES`. -/
def tennisSeries : List (String × String) := [("atp", "KXATPMATCH"), ("wta", "KXWTAMATCH")]

/-- `UFC_SERIES`. -/
def ufcSeries : List (String × String) := [("ufc", "KXUFCFIGHT")]

/-- The loop over a match's markets. -/
def headToHeadSides (a b : Participant) (markets : List KalshiMarket) : Dict String OutcomeId :=
  markets.foldl (fun outcomeIds m =>
    let ticker := textOf m.ticker
    match (words L (textOf m.yesSubTitle)).getLast? with
    | none => outcomeIds
    | some word =>
        if ticker = "" then outcomeIds
        else if L.upper word = a.code then outcomeIds.set a.code (ticker ++ ":YES")
        else if L.upper word = b.code then outcomeIds.set b.code (ticker ++ ":YES")
        else outcomeIds)
    Dict.empty

/-- `_parse_kalshi_tennis_event`. -/
def parseKalshiTennisEvent (sport series : String) (event : KalshiEvent) (position : ℕ) :
    Fetch (Option VenueGame) :=
  let eventTicker := textOf event.eventTicker
  if eventTicker = "" then pure none
  else
    match parseVsTitle L (textOf event.title) with
    | none => pure none
    | some (a, b) => do
        let markets ← readOrSkip .tennisMarkets eventTicker
          (getWithRetry (client.kalshiMarkets series position eventTicker))
        let outcomeIds := headToHeadSides L a b (markets.getD [])
        -- a player without a market leaves no game
        if outcomeIds.entries.length ≠ 2 then pure none
        else
          pure (some { sport, venueId := "kalshi",
                       gameDate := (parseTickerDate eventTicker).getD z.utcToday,
                       teams := (a, b), outcomeIds, ref := eventTicker,
                       startTime := parseTickerStart L eventTicker })

/-- `fetch_kalshi_tennis_matches`. -/
def fetchKalshiTennisMatches (series : List (String × String)) : Fetch (List VenueGame) := do
  let games ← Logged.forEach (fun s => do
      let events ← readOrSkip .tennisEvents s.2 (getWithRetry (client.kalshiEvents s.2))
      Logged.forEach
        (fun e => parseKalshiTennisEvent L z client s.1 s.2 e.1 e.2) (events.getD []).zipIdx) series
  pure (games.flatten.filterMap id)

end Fetch

end Arbys
