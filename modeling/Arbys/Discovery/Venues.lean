import Arbys.Lib.Logged
import Arbys.Discovery.Teams

/-!
# Asking the venues

What a discovery pass asks of the two venues and what it makes of an answer:
`_get_with_retry`, `raise_for_status`, the checks of the status that skip
instead of raising, and `discovery/horizon.py`. An answer is a status and a
decoded payload, or no payload where reading it raises. A `Client` answers
each request on its own, and each of its repetitions.
-/

namespace Arbys

/-! ## Payloads -/

/-- A market of a Kalshi event. `floorStrike` is `some none` where the strike
is there but is no number. -/
structure KalshiMarket where
  ticker : Option String := none
  yesSubTitle : Option String := none
  strikeType : Option String := none
  floorStrike : Option (Option Decimal) := none
  deriving DecidableEq

structure KalshiEvent where
  eventTicker : Option String := none
  title : Option String := none
  deriving DecidableEq

/-- The fields of a Polymarket US team that hold a text. -/
structure PolyTeam where
  name : Option String := none
  safeName : Option String := none
  displayAbbreviation : Option String := none
  deriving DecidableEq

structure PolySide where
  long : Bool
  team : Option PolyTeam := none
  deriving DecidableEq

/-- A Polymarket US market; `line` is `none` also where it is no number. -/
structure PolyMarket where
  sportsMarketType : Option String := none
  slug : Option String := none
  line : Option Decimal := none
  title : Option String := none
  marketSides : List PolySide := []
  deriving DecidableEq

structure PolyEvent where
  startTime : Option String := none
  live : Option Bool := none
  ended : Option Bool := none
  teams : List PolyTeam := []
  markets : List PolyMarket := []
  deriving DecidableEq

/-! ## Requests and answers -/

/-- What came of one request. `retryAfter` is the header, `some none` where
it is there but is no number. -/
inductive Reply (β : Type) where
  | raised
  | answered (status : ℕ) (retryAfter : Option (Option ℚ)) (body : Option β)

/-- The same, without the payload: whether there was one. -/
inductive Outcome where
  | raised
  | answered (status : ℕ) (readable : Bool)
  deriving DecidableEq

def Reply.outcome {β : Type} : Reply β → Outcome
  | .raised => .raised
  | .answered status _ body => .answered status body.isSome

/-- The payload, whatever the status. -/
def Reply.body? {β : Type} : Reply β → Option β
  | .raised => none
  | .answered _ _ body => body

/-- The venues as one sub-pass of discovery sees them. A Kalshi request is
asked again after a 429, so it is answered attempt by attempt; a markets
request is told apart by its series and the position of its event. -/
structure Client where
  kalshiEvents : (series : String) → (attempt : ℕ) → Reply (List KalshiEvent)
  kalshiMarkets : (series : String) → (position : ℕ) → (eventTicker : String) → (attempt : ℕ) →
    Reply (List KalshiMarket)
  leagueEvents : (league : String) → Reply (List PolyEvent)

/-- Which request of which fetcher. -/
inductive CallKind where
  | teamEvents
  | teamMarkets
  | totalsEvents
  | totalsMarkets
  | spreadsEvents
  | spreadsMarkets
  | tennisEvents
  | tennisMarkets
  | leagueEvents
  deriving DecidableEq

/-- A request, after its retries. -/
structure Call where
  kind : CallKind
  target : String
  outcome : Outcome
  deriving DecidableEq

abbrev Fetch := Logged Call

/-- `_MAX_429_RETRIES`. -/
def max429Retries : ℕ := 4

/-- The loop of `_get_with_retry`, with `n` retries left. -/
def retryLoop {β : Type} (ask : ℕ → Reply β) : ℕ → Reply β
  | 0 => ask max429Retries
  | n + 1 =>
      match ask (max429Retries - (n + 1)) with
      | .answered status retryAfter body =>
          if status ≠ 429 then .answered status retryAfter body
          else if retryAfter = some none then .raised
          else retryLoop ask n
      | .raised => .raised

/-- `_get_with_retry`. -/
def getWithRetry {β : Type} (ask : ℕ → Reply β) : Reply β := retryLoop ask max429Retries

/-- `resp.raise_for_status()`, then the payload. -/
def readOrRaise {β : Type} (kind : CallKind) (target : String) (reply : Reply β) : Fetch β :=
  Logged.call ⟨kind, target, reply.outcome⟩
    (match reply with
    | .raised => none
    | .answered status _ body => if 200 ≤ status ∧ status < 300 then body else none)

/-- `if resp.status_code != 200`: no payload, and no exception. -/
def readOrSkip {β : Type} (kind : CallKind) (target : String) (reply : Reply β) :
    Fetch (Option β) :=
  Logged.call ⟨kind, target, reply.outcome⟩
    (match reply with
    | .raised => none
    | .answered status _ body => if status ≠ 200 then some none else body.map some)

theorem body_of_readOrRaise {β : Type} {kind : CallKind} {target : String} {reply : Reply β}
    {body : β} (h : (readOrRaise kind target reply).value = some body) :
    reply.body? = some body := by
  cases reply with
  | raised => cases h
  | answered status retryAfter payload =>
      rw [readOrRaise, Logged.value_call] at h
      split at h
      · exact h
      · cases h

theorem body_of_readOrSkip {β : Type} {kind : CallKind} {target : String} {reply : Reply β}
    {body : β} (h : (readOrSkip kind target reply).value = some (some body)) :
    reply.body? = some body := by
  cases reply with
  | raised => cases h
  | answered status retryAfter payload =>
      rw [readOrSkip, Logged.value_call] at h
      split at h
      · cases h
      · simpa [Reply.body?] using h

/-! ## The horizon -/

/-- The calendar a pass runs under: today in New York and in UTC, and
`ARBYS_DISCOVERY_HORIZON_DAYS`. -/
structure Calendar where
  today : Date
  utcToday : Date
  horizonDays : ℕ

/-- `within_horizon`. -/
def Calendar.within (z : Calendar) (gameDate : Date) : Bool :=
  z.horizonDays = 0 || gameDate.toordinal ≤ z.today.toordinal + z.horizonDays

/-- `filter_horizon`. -/
def Calendar.filterHorizon (z : Calendar) (games : List VenueGame) : List VenueGame :=
  games.filter fun g => z.within g.gameDate

end Arbys
