import Arbys.EngineRuntime
import Arbys.TwoLegTicket

/-!
# The application state

What a ticket submission and the two settlement services share in one process:
`backend/state.py`, with the memory of `AutoSettleService`. The limits are
read from the environment and do not change while a process runs. A change to
the registry touches `event_groups` and the engine in one stretch.
-/

namespace Arbys

/-- The limits of `backend/state.py`, `none` where one is switched off; a limit
that is set is positive. -/
structure Settings where
  maxOutcomeStake : Option ℚ := some 500
  maxPlausibleEdge : Option ℚ := some (15 / 100)
  maxLegAgeSkewS : Option ℚ := some 30
  maxDaysToStart : Option ℚ := some 7
  maxOutcomeStake_pos : ∀ x ∈ maxOutcomeStake, 0 < x := by decide +kernel
  maxPlausibleEdge_pos : ∀ x ∈ maxPlausibleEdge, 0 < x := by decide +kernel
  maxLegAgeSkewS_pos : ∀ x ∈ maxLegAgeSkewS, 0 < x := by decide +kernel
  maxDaysToStart_pos : ∀ x ∈ maxDaysToStart, 0 < x := by decide +kernel

/-- The limits when no environment variable sets one. -/
def Settings.default : Settings := {}

/-- The readings of the monotonic and of the wall clock in one stretch between
two awaits, which takes no time. -/
structure Instant where
  now : ℚ
  utc : ℚ
  deriving DecidableEq

/-- The memory of `AutoSettleService`. -/
structure AutoSettleService where
  settled : List GroupId := []
  hits : Dict GroupId (Bool × ℕ) := Dict.empty
  seen : Dict GroupId EventGroup := Dict.empty
  unresolved : Dict GroupId EventGroup := Dict.empty

namespace AutoSettleService

/-- `mark_settled`. -/
def markSettled (s : AutoSettleService) (gid : GroupId) : AutoSettleService :=
  { s with
    settled := s.settled.insert gid
    hits := s.hits.erase gid
    unresolved := s.unresolved.erase gid }

/-- `is_settled`, of a group id or of the id of an opportunity. -/
def isSettled (s : AutoSettleService) (eventGroupId : GroupId) : Bool :=
  s.settled.contains (baseId eventGroupId)

end AutoSettleService

structure AppState where
  brokers : Brokers
  book : QuoteBook
  engine : EngineRuntime
  eventGroups : Dict GroupId EventGroup := Dict.empty
  /-- The published opportunities, by the group that offers them. -/
  oppsByGroup : Dict GroupId (List ArbOpportunity) := Dict.empty
  autoSettle : AutoSettleService := {}
  draining : Bool := false
  /-- The accounts the venue settlement walks. -/
  accountIds : List AccountId := ["default"]
  /-- The venues that publish their results. -/
  resolvers : List VenueId := ["kalshi", "polymarket_us"]

namespace AppState

def registerGroup (s : AppState) (group : EventGroup) : AppState :=
  { s with
    eventGroups := s.eventGroups.set group.id group
    engine := s.engine.registerGroup group }

def retireGroup (s : AppState) (gid : GroupId) : AppState :=
  { s with
    eventGroups := s.eventGroups.erase gid
    engine := s.engine.unregisterGroup gid }

/-- `_set_group_opportunities`: what a group offers now replaces what it offered. -/
def setGroupOpportunities (s : AppState) (gid : GroupId) (opps : List ArbOpportunity) : AppState :=
  { s with
    oppsByGroup := if opps ≠ [] then s.oppsByGroup.set gid opps else s.oppsByGroup.erase gid }

/-- `clear_group_opportunities`. -/
def clearGroupOpportunities (s : AppState) (gid : GroupId) : AppState :=
  { s with oppsByGroup := s.oppsByGroup.erase gid }

/-- `live_opportunities_for`: detection run now, on the group an opportunity
id names. -/
def liveOpportunitiesFor (s : AppState) (now : ℚ) (eventGroupId : GroupId) :
    Except DecimalError (List ArbOpportunity) :=
  s.engine.evaluateNow s.book (fun _ => now) (baseId eventGroupId)

end AppState

/-- The application with the group of `TwoVenues` registered. -/
def TwoVenues.state : AppState :=
  AppState.registerGroup { brokers := brokers, book := book, engine := { fees := fees } } group

end Arbys
