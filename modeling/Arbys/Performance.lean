import Arbys.GroupIds
import Arbys.LedgerQueries
import Arbys.Lib.Rounding
import Arbys.Lib.Tally

/-!
# The performance dashboard

`backend/performance.py`, over what two queries of the ledger return:
`scalars`, every ticket of the window without its legs, and `traded`, the
filled and pending ones with them. Each panel is a pass of its own over one of
the two. The percentages, the means and the medians are floats for display,
read by nothing, and are left out.
-/

namespace Arbys.Performance

open LedgerDb (Leg TicketEntry)

/-- A row of `paper_ticket_scalars`. -/
structure TicketScalar where
  id : TicketId
  eventGroupId : GroupId
  status : String
  rejectionReason : Option String
  expectedEdgeBps : Option ℚ
  submittedAt : ℚ
  deriving DecidableEq

/-- The columns `paper_ticket_scalars` selects. -/
def TicketScalar.ofTicket (t : PaperTicket) : TicketScalar where
  id := t.id
  eventGroupId := t.eventGroupId
  status := t.status
  rejectionReason := t.rejectionReason
  expectedEdgeBps := t.expectedEdgeBps
  submittedAt := t.submittedAt

/-- `paper_ticket_scalars`. -/
def paperTicketScalars (db : LedgerDb) (accountId : AccountId) (since : Option ℚ)
    (source : Option String) : List TicketScalar :=
  (db.tickets.filter (ticketFilters accountId since none source)).map TicketScalar.ofTicket

/-- `TRADED_STATUSES`. -/
def tradedStatuses : List String := ["filled", "pending"]

/-! ## One ticket -/

/-- One turn of the loop of `_sum_or_none`: the total, and whether anything
contributed. -/
def sumStep (acc : ℚ × Bool) : Option ℚ → ℚ × Bool
  | none => acc
  | some value => (acc.1 + value, true)

/-- `_sum_or_none`. -/
def sumOrNone (values : List (Option ℚ)) : Option ℚ :=
  let acc := values.foldl sumStep (0, false)
  if acc.2 then some acc.1 else none

/-- `_leg_cost`. -/
def legCost (leg : Leg) : Option ℚ :=
  match leg.fillPrice with
  | none => none
  | some fillPrice => some (leg.order.qty * fillPrice + leg.fee)

/-- `_leg_returned`. -/
def legReturned (leg : Leg) : Option ℚ :=
  match leg.resolvedValue, leg.fillPrice with
  | some resolvedValue, some _ => some (leg.order.qty * resolvedValue)
  | _, _ => none

/-- `ticket_outcome`. -/
def ticketOutcome (status : String) (realizedProfit : Option ℚ) : TicketOutcome :=
  if neverTraded.contains status then .none
  else
    match realizedProfit with
    | none => .open
    | some profit => if 0 < profit then .won else if profit < 0 then .lost else .flat

/-- The filled legs of a ticket. -/
def filledLegs (legs : List Leg) : List Leg := legs.filter fun leg => leg.fillPrice.isSome

/-- What a matched pair settles for: two filled legs at least, all of one
quantity. -/
def settlementValue (legs : List Leg) (capital : Option ℚ) : Option ℚ :=
  match (filledLegs legs).map (·.order.qty), capital with
  | q :: r :: qtys, some capital => if ∀ x ∈ r :: qtys, x = q then some (q - capital) else none
  | _, _ => none

/-- `_Row`. -/
structure Row where
  sport : String
  marketType : String
  status : String
  submittedAt : ℚ
  capital : Option ℚ
  returned : Option ℚ
  net : Option ℚ
  qty : Option ℚ
  fees : ℚ
  outcome : TicketOutcome
  settlementValue : Option ℚ

/-- `_Row.__init__`. -/
def Row.ofTicket (t : TicketEntry) : Row :=
  let parsed := parseGroupId t.ticket.eventGroupId
  let capital := sumOrNone (t.legs.map legCost)
  { sport := parsed.1
    marketType := parsed.2
    status := t.ticket.status
    submittedAt := t.ticket.submittedAt
    capital
    returned := sumOrNone (t.legs.map legReturned)
    net := t.realizedProfit
    qty := t.legs.head?.map (·.order.qty)
    fees := ((filledLegs t.legs).map (·.fee)).sum
    outcome := ticketOutcome t.ticket.status t.realizedProfit
    settlementValue := Performance.settlementValue t.legs capital }

/-! ## The tallies -/

/-- `_MAX_REASONS`. -/
def maxReasons : ℕ := 12

/-- `_top_reasons`. -/
def topReasons (reasons : Dict String ℕ) : List (String × ℕ) :=
  let ranked := reasons.entries.mergeSort fun a b => decide (b.2 ≤ a.2)
  let tail := ranked.drop maxReasons
  let other := ("other (" ++ toString tail.length ++ " distinct)", (tail.map Prod.snd).sum)
  ranked.take maxReasons ++ if tail = [] then [] else [other]

/-- What `_activity` returns. -/
structure Activity where
  byStatus : Dict String ℕ
  rejectionReasons : List (String × ℕ)
  firstSubmittedAt : Option ℚ
  lastSubmittedAt : Option ℚ

/-- The one of two timestamps `better` keeps. -/
def keepBy (better : ℚ → ℚ → Prop) [DecidableRel better] (kept : Option ℚ) (ts : ℚ) :
    Option ℚ :=
  match kept with
  | none => some ts
  | some old => if better ts old then some ts else some old

/-- `_activity`. -/
def activity (scalars : List TicketScalar) : Activity where
  byStatus := Dict.tally (scalars.map (·.status))
  rejectionReasons := topReasons (Dict.tally (scalars.filterMap (·.rejectionReason)))
  firstSubmittedAt := (scalars.map (·.submittedAt)).foldl (keepBy (· < ·)) none
  lastSubmittedAt := (scalars.map (·.submittedAt)).foldl (keepBy (· > ·)) none

/-! ## The panels -/

/-- A row of `by_league` or `by_market_type`. -/
structure DimensionRow where
  name : String
  tickets : ℕ
  net : Option ℚ
  capital : Option ℚ

/-- `(net is not None, net or 0)`, the larger one first. -/
def DimensionRow.before (a b : DimensionRow) : Bool :=
  match a.net, b.net with
  | some x, some y => decide (y ≤ x)
  | none, some _ => false
  | _, none => true

/-- `_group_by`. -/
def groupBy (scalars : List TicketScalar) (rows : List Row)
    (scalarKey : String × String → String) (rowKey : Row → String) : List DimensionRow :=
  let counts := Dict.tally (scalars.map fun s => scalarKey (parseGroupId s.eventGroupId))
  let nets := Dict.gather rowKey (·.net) rows
  let capitals := Dict.gather rowKey (·.capital) rows
  let out := counts.entries.map fun e =>
    { name := e.1, tickets := e.2, net := sumOrNone (nets.getD e.1 []),
      capital := sumOrNone (capitals.getD e.1 []) }
  out.mergeSort DimensionRow.before

/-- A row of `by_venue`. -/
structure VenueRow where
  name : String
  deployed : ℚ
  returned : ℚ
  net : ℚ
  «open» : ℚ

/-- The row of a venue before its first leg. -/
def VenueRow.new (venueId : VenueId) : VenueRow where
  name := venueId.map fun c => if c = '_' then ' ' else c
  deployed := 0
  returned := 0
  net := 0
  «open» := 0

/-- One leg's turn of `_by_venue`. -/
def VenueRow.add (v : VenueRow) (cost : ℚ) (back : Option ℚ) : VenueRow :=
  match back with
  | none => { v with deployed := v.deployed + cost, «open» := v.open + cost }
  | some back =>
      { v with deployed := v.deployed + cost, returned := v.returned + back,
               net := v.net + (back - cost) }

/-- The same, in the dictionary of the venues. -/
def addLeg (venues : Dict VenueId VenueRow) (leg : Leg) : Dict VenueId VenueRow :=
  match legCost leg with
  | none => venues
  | some cost =>
      let v := venues.getD leg.order.venueId (VenueRow.new leg.order.venueId)
      venues.set leg.order.venueId (v.add cost (legReturned leg))

/-- `_by_venue`. -/
def byVenue (traded : List TicketEntry) : List VenueRow :=
  let venues := traded.foldl (fun venues t => t.legs.foldl addLeg venues) Dict.empty
  venues.values.mergeSort fun v w => decide (w.deployed ≤ v.deployed)

/-- `_OUTCOME_MIX`. -/
def outcomeMixOrder : List (String × TicketOutcome) :=
  [("Settled won", .won), ("Open", .open), ("Settled lost", .lost), ("Flat", .flat),
    ("Never filled", .none)]

/-- `_outcome_mix`: the slices and their counts. -/
def outcomeMix (rows : List Row) (byStatus : Dict String ℕ) : List (String × ℕ) :=
  let counts := Dict.tallyOn (Dict.ofList (outcomeMixOrder.map fun slice => (slice.2, 0)))
    (rows.map (·.outcome))
  let counts := counts.set .none (byStatus.getD "rejected" 0 + byStatus.getD "missed" 0)
  outcomeMixOrder.map fun slice => (slice.1, counts.getD slice.2 0)

/-! ## The accrual series -/

/-- `_MAX_CURVE_POINTS`. -/
def maxCurvePoints : ℕ := 400

/-- `value.quantize(_CENTS)`. -/
def cents (value : ℚ) : ℚ := Rounding.halfEven (value * 100) / 100

structure AccrualPoint where
  ts : ℚ
  total : ℚ
  settled : ℚ
  deriving DecidableEq

/-- The matched pairs, oldest first. -/
def accrualPoints (rows : List Row) : List Row :=
  (rows.filter fun r => r.settlementValue.isSome).mergeSort fun r s =>
    decide (r.submittedAt ≤ s.submittedAt)

/-- The loop of `_accrual_curve`, at the `i`-th of `n` pairs. -/
def accrualLoop (step n : ℕ) :
    (i : ℕ) → (total settled : ℚ) → List Row → List AccrualPoint
  | _, _, _, [] => []
  | i, total, settled, r :: rows =>
      let total := total + r.settlementValue.getD 0
      let settled := if r.net.isSome then settled + r.settlementValue.getD 0 else settled
      let rest := accrualLoop step n (i + 1) total settled rows
      if i % step = 0 ∨ i = n - 1 then ⟨r.submittedAt, cents total, cents settled⟩ :: rest
      else rest

/-- `_accrual_curve`. -/
def accrualCurve (rows : List Row) : List AccrualPoint :=
  let pts := accrualPoints rows
  if pts.length < 2 then []
  else accrualLoop (max 1 (pts.length / maxCurvePoints)) pts.length 0 0 0 pts

/-! ## The figures -/

/-- What `summarize` returns. -/
structure Summary where
  attempted : ℕ
  filled : ℕ
  byStatus : Dict String ℕ
  rejectionReasons : List (String × ℕ)
  firstSubmittedAt : Option ℚ
  lastSubmittedAt : Option ℚ
  netProfit : Option ℚ
  grossProfit : Option ℚ
  feesPaid : ℚ
  capitalDeployed : Option ℚ
  capitalReturned : Option ℚ
  settledCount : ℕ
  wonCount : ℕ
  openExposure : ℚ
  openCount : ℕ
  accrualCurve : List AccrualPoint
  accrualTotal : ℚ
  byLeague : List DimensionRow
  byMarketType : List DimensionRow
  byVenue : List VenueRow
  outcomeMix : List (String × ℕ)

/-- `r.outcome in ("won", "lost", "flat")`. -/
def Row.isSettled (r : Row) : Bool := [TicketOutcome.won, .lost, .flat].contains r.outcome

/-- `summarize`. The letters of a sport are ASCII, so `upper` is that of ASCII. -/
def summarize (scalars : List TicketScalar) (traded : List TicketEntry) : Summary :=
  let rows := traded.map Row.ofTicket
  let settled := rows.filter Row.isSettled
  let openRows := rows.filter fun r => r.outcome = .open
  let netProfit := sumOrNone (settled.map (·.net))
  let feesPaid := (settled.map (·.fees)).sum
  let activity := activity scalars
  { attempted := activity.byStatus.values.sum
    filled := activity.byStatus.getD "filled" 0
    byStatus := activity.byStatus
    rejectionReasons := activity.rejectionReasons
    firstSubmittedAt := activity.firstSubmittedAt
    lastSubmittedAt := activity.lastSubmittedAt
    netProfit
    grossProfit := netProfit.map (· + feesPaid)
    feesPaid
    -- an open ticket has deployed its stake, and returned nothing yet
    capitalDeployed := sumOrNone (rows.map (·.capital))
    capitalReturned := sumOrNone (settled.map (·.returned))
    settledCount := settled.length
    wonCount := settled.countP fun r => r.outcome = .won
    openExposure := (openRows.map fun r => r.capital.getD 0).sum
    openCount := openRows.length
    accrualCurve := accrualCurve rows
    accrualTotal := (rows.map fun r => r.settlementValue.getD 0).sum
    byLeague := groupBy scalars rows (fun key => key.1.toUpper) (fun r => r.sport.toUpper)
    byMarketType := groupBy scalars rows Prod.snd (·.marketType)
    byVenue := byVenue traded
    outcomeMix := outcomeMix rows activity.byStatus }

end Arbys.Performance
