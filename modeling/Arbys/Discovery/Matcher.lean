import Mathlib.Data.List.Sort
import Mathlib.Data.Prod.Lex
import Mathlib.Data.String.Basic
import Arbys.Lib.Clusters
import Arbys.Discovery.Games

/-!
# Matching games across venues

`discovery/matcher.py`. Games are bucketed by everything that makes two of
them the same bet, each bucket is sorted by start and split greedily into
clusters, and a cluster that reaches two venues is a match. A sort is stable,
as an insertion sort is. Instants and the distances between them are exact:
down to the microsecond a double tells them apart until the year 2242.
-/

namespace Arbys

/-- `a or b` on an optional text: the empty text counts as absent. -/
def orText (a : Option String) (b : String) : String :=
  match a with
  | some text => if text = "" then b else text
  | none => b

/-- With the empty text to fall back on, a text stands for itself. -/
@[simp] theorem orText_some_empty (a : String) : orText (some a) "" = a := by
  by_cases ha : a = ""
  · rw [orText, if_pos ha, ha]
  · rw [orText, if_neg ha]

/-- No text sorts before the empty one. -/
theorem eq_empty_of_le {a : String} (h : a ≤ "") : a = "" := by
  have hge : "" ≤ a := by
    apply not_lt.mp
    intro hlt
    exact List.not_lt_nil _ (String.lt_iff_toList_lt.mp hlt)
  exact le_antisymm h hge

/-- `_fmt_line`. -/
def fmtLine : Option Decimal → String
  | none => "na"
  | some line => line.text

theorem fmtLine_injective {a b : Option Decimal} (h : fmtLine a = fmtLine b) : a = b := by
  cases a with
  | none =>
      cases b with
      | none => rfl
      | some e => exact absurd h.symm e.text_ne_na
  | some d =>
      cases b with
      | none => exact absurd h d.text_ne_na
      | some e => rw [Decimal.text_injective h]

/-- `START_TIME_TOLERANCE`, in seconds. -/
def startTimeTolerance : ℚ := 90 * 60

/-- `_same_fixture`, with the date tolerance in days. -/
def sameFixture (dateTol : ℤ) (a b : VenueGame) : Bool :=
  match a.startTime, b.startTime with
  | some s, some t => decide (|s - t| ≤ startTimeTolerance)
  | _, _ => decide (|(a.gameDate.toordinal : ℤ) - b.gameDate.toordinal| ≤ dateTol)

/-- `_order_key`. -/
def orderKey (game : VenueGame) : Lex (ℕ × Lex (ℚ × String)) :=
  match game.startTime with
  | some start => toLex (0, toLex (start, game.venueId))
  | none => toLex (1, toLex ((game.gameDate.toordinal : ℚ), game.venueId))

/-- `_pair_key`. -/
def pairKey (game : VenueGame) : String × String × String × String × Finset String :=
  (game.sport, game.marketType, fmtLine game.line, orText game.anchor "",
    {game.teams.1.code, game.teams.2.code})

/-- `_distance`, in seconds. -/
def distance (g anchor : VenueGame) : ℚ :=
  match g.startTime, anchor.startTime with
  | some s, some t => |s - t|
  | _, _ => |(g.gameDate.toordinal : ℚ) - anchor.gameDate.toordinal| * 86400

/-! ## Matches -/

structure CrossVenueMatch where
  sport : String
  gameDate : String
  teamA : Participant
  teamB : Participant
  perVenue : Dict VenueId VenueGame
  marketType : String := "moneyline"
  line : Option Decimal := none
  anchor : Option String := none
  deriving DecidableEq

namespace CrossVenueMatch

/-- `yes_key`: the `outcome_ids` key of the TRUE proposition. -/
def yesKey (m : CrossVenueMatch) : String :=
  if m.marketType = "total" then overSide
  else if m.marketType = "spread" then orText m.anchor m.teamA.code
  else m.teamA.code

/-- `start_time`: the earliest any venue reports. -/
def startTime (m : CrossVenueMatch) : Option ℚ := (m.perVenue.values.filterMap (·.startTime)).min?

/-- The loop of `in_play`. -/
def inPlayLoop (seen playing : Bool) : List VenueGame → Option Bool
  | [] => if seen then some playing else none
  | game :: games =>
      if game.ended = none ∧ game.live = none then inPlayLoop seen playing games
      else if game.ended = some true then some false
      else inPlayLoop true (playing || game.live = some true) games

def inPlay (m : CrossVenueMatch) : Option Bool := inPlayLoop false false m.perVenue.values

/-- The loop of `ended`. -/
def endedLoop (seen : Bool) : List VenueGame → Option Bool
  | [] => if seen then some false else none
  | game :: games =>
      match game.ended with
      | none => endedLoop seen games
      | some true => some true
      | some false => endedLoop true games

def ended (m : CrossVenueMatch) : Option Bool := endedLoop false m.perVenue.values

def anchorParticipant (m : CrossVenueMatch) : Participant :=
  if m.anchor = some m.teamB.code then m.teamB else m.teamA

def eventGroupId (m : CrossVenueMatch) : GroupId :=
  let base := m.sport ++ "-" ++ m.teamA.code ++ "-" ++ m.teamB.code ++ "-" ++ m.gameDate
  if m.marketType = "spread" then
    base ++ "-spread-" ++ m.anchorParticipant.code ++ "-" ++ fmtLine m.line
  else if m.marketType ≠ "moneyline" then base ++ "-" ++ m.marketType ++ "-" ++ fmtLine m.line
  else base

def eventGroupTitle (m : CrossVenueMatch) : String :=
  let matchup := m.teamA.fullName ++ " vs " ++ m.teamB.fullName
  if m.marketType = "total" then
    matchup ++ " — Over " ++ fmtLine m.line ++ " (" ++ m.gameDate ++ ")"
  else if m.marketType = "spread" then
    matchup ++ " — " ++ m.anchorParticipant.fullName ++ " -" ++ fmtLine m.line ++
      " (" ++ m.gameDate ++ ")"
  else matchup ++ " (" ++ m.gameDate ++ ")"

/-- The key the matches are listed by. -/
def listKey (m : CrossVenueMatch) : List String :=
  [m.gameDate, m.teamA.code, m.teamB.code, m.marketType, fmtLine m.line, orText m.anchor ""]

end CrossVenueMatch

/-! ## Matching -/

/-- `sorted(teams, key=lambda t: t.code)`. -/
def sortedTeams (teams : Participant × Participant) : Participant × Participant :=
  if teams.2.code < teams.1.code then (teams.2, teams.1) else teams

/-- `games.sort(key=_order_key)`. -/
def sortGames (games : List VenueGame) : List VenueGame :=
  games.insertionSort fun a b => orderKey a ≤ orderKey b

/-- The match an anchor and what it took make. -/
def matchOf (anchor : VenueGame) (perVenue : Dict VenueId VenueGame) : CrossVenueMatch where
  sport := anchor.sport
  gameDate := anchor.gameDate.isoformat
  teamA := (sortedTeams anchor.teams).1
  teamB := (sortedTeams anchor.teams).2
  perVenue := perVenue
  marketType := anchor.marketType
  line := anchor.line
  anchor := anchor.anchor

/-- The clusters of one bucket, each with its anchor and the games it took. -/
def clusterGames (dateTol : ℤ) (games : List VenueGame) : List (Clusters.Cluster VenueGame VenueId) :=
  Clusters.walk (·.venueId) (sameFixture dateTol) distance [] (sortGames games).zipIdx

/-- One turn of the loop over the buckets. -/
def matchBucket (dateTol : ℤ) (games : List VenueGame) : List CrossVenueMatch :=
  if games.all fun g => some g.venueId = (games.head?.map (·.venueId)) then []
  else
    (clusterGames dateTol games).filterMap fun c =>
      if c.2.entries.length < 2 then none
      else some (matchOf c.1 (c.2.mapVal fun _ chosen => chosen.2))

/-- `match_games`. -/
def matchGames (venueGames : List (List VenueGame)) (dateToleranceDays : ℤ := 0) :
    List CrossVenueMatch :=
  let buckets := Dict.groupBy pairKey venueGames.flatten
  (buckets.entries.flatMap fun e => matchBucket dateToleranceDays e.2).insertionSort
    fun m n => m.listKey ≤ n.listKey

/-- `match_to_event_group`. -/
def matchToEventGroup (m : CrossVenueMatch) : EventGroup where
  id := m.eventGroupId
  title := m.eventGroupTitle
  legs := (m.perVenue.entries.insertionSort fun e f => e.1 ≤ f.1).flatMap fun e =>
    e.2.outcomeIds.entries.map fun o =>
      { outcomeId := o.2, venueId := e.1, isYesSide := o.1 = m.yesKey }
  startTime := m.startTime
  inPlay := m.inPlay
  ended := m.ended
  source := "discovery"

end Arbys
