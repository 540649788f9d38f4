import Mathlib.Algebra.Order.Field.Rat
import Mathlib.Algebra.Order.Floor.Ring
import Mathlib.Data.Rat.Floor
import Mathlib.Tactic.FieldSimp
import Mathlib.Tactic.Linarith
import Mathlib.Tactic.NormNum
import Mathlib.Tactic.Ring
import Arbys.Lib.Dict

/-!
# Shared domain types

`shared/types.py` and the data classes of `adapters/base.py`: quotes, event
groups, orders, fills and intents. `Decimal` values are rationals; a price or
a size is exact. A quote can only be built inside the bounds its
`__post_init__` checks, so those bounds are fields of the structure.
-/

namespace Arbys

abbrev VenueId := String
abbrev OutcomeId := String
abbrev AccountId := String
abbrev GroupId := String
abbrev TicketId := String

/-- Top-of-book quote for one outcome. A size is `none` when the venue did
not report depth, `0` when the side is known to be empty. `sourceAgeS` is how
stale the venue said the book already was, in seconds. -/
structure Quote where
  outcomeId : OutcomeId
  bid : ℚ
  ask : ℚ
  bidSize : Option ℚ := none
  askSize : Option ℚ := none
  sourceAgeS : Option ℚ := none
  bid_nonneg : 0 ≤ bid
  ask_le_one : ask ≤ 1
  bid_le_ask : bid ≤ ask
  deriving DecidableEq

namespace Quote

theorem ask_nonneg (q : Quote) : 0 ≤ q.ask := le_trans q.bid_nonneg q.bid_le_ask

end Quote

/-- One outcome-on-a-venue that belongs to an event group. -/
structure EventGroupLeg where
  outcomeId : OutcomeId
  venueId : VenueId
  isYesSide : Bool
  deriving DecidableEq

/-- A registered event group. `startTime` is in seconds since the epoch, UTC;
`inPlay` and `ended` are what a venue said of the event. `source` is
`"discovery"` for the groups discovery may retire. -/
structure EventGroup where
  id : GroupId
  title : String := ""
  resolutionSourceByVenue : Dict VenueId String := Dict.empty
  legs : List EventGroupLeg := []
  startTime : Option ℚ := none
  inPlay : Option Bool := none
  ended : Option Bool := none
  source : String := "manual"
  deriving DecidableEq

inductive OrderStatus where
  | pending
  | filled
  | partiallyFilled
  | cancelled
  | rejected
  deriving DecidableEq

/-- `uuid4().hex`: the adapter that drew it and how many it drew before, so no
two draws agree. -/
structure OrderId where
  venueId : VenueId
  serial : ℕ
  deriving DecidableEq

structure Order where
  id : OrderId
  venueId : VenueId
  outcomeId : OutcomeId
  isBuy : Bool
  qty : ℚ
  limitPrice : ℚ
  status : OrderStatus
  ticketId : Option TicketId := none
  deriving DecidableEq

structure Fill where
  orderId : OrderId
  qty : ℚ
  price : ℚ
  fee : ℚ
  deriving DecidableEq

structure IntentLeg where
  venueId : VenueId
  outcomeId : OutcomeId
  isBuy : Bool
  qty : ℚ
  limitPrice : ℚ
  deriving DecidableEq

/-- A multi-leg trade the router submits as one ticket. -/
structure ExecutionIntent where
  eventGroupId : GroupId
  accountId : AccountId
  legs : List IntentLeg
  ticketId : Option TicketId := none
  deriving DecidableEq

/-- The group an opportunity id names: `id.split(":", 1)[0]`. -/
def baseId (eventGroupId : GroupId) : GroupId :=
  String.ofList (eventGroupId.toList.takeWhile (· ≠ ':'))

end Arbys
