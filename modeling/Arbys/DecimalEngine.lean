import Arbys.Adapters.FeedQuote
import Arbys.Qty

/-!
# The complementary set in the arithmetic of `Decimal`

`detect_complementary_set` of `shared/arb_engine.py` and `tradeable_qty` of
`shared/qty.py` once more, on `Decimal` as it computes: each sum and product is
rounded to 28 digits and may overflow, and a comparison with a NaN raises. What
a fee model returns is not looked at before it is added.
-/

namespace Arbys

namespace DecimalEngine

open DecimalArith (Number Between rounded)
open PyJson (Raised raising)

/-- `fee(price, qty, is_buy)`. -/
abbrev FeeModel := Number → Number → Bool → Number

structure ArbLeg where
  outcomeId : OutcomeId
  venueId : VenueId
  isBuy : Bool
  price : Number
  qty : Number
  fee : Number
  deriving DecidableEq

structure ArbOpportunity where
  eventGroupId : GroupId
  legs : List ArbLeg
  totalStake : Number
  guaranteedProfit : Number
  guaranteedProfitBps : Number
  deriving DecidableEq

/-! ## How much is tradeable -/

/-- `min(known) if known else None`. -/
def minKnown : List Number → Except Raised (Option Number)
  | [] => .ok none
  | d :: rest => do
      let least ← rest.foldlM (fun least d => do
        if ← raising (d.lt least) then pure d else pure least) d
      pure (some least)

/-- `max(..., default=...)`. -/
def maxOf (default_ : Number) : List Number → Except Raised Number
  | [] => .ok default_
  | d :: rest => rest.foldlM (fun most d => do
      if ← raising (most.lt d) then pure d else pure most) d

/-- `quantize(Decimal("1"), rounding=ROUND_DOWN)`: invalid where the result
has more digits than the context. -/
def quantizeOne : Number → Except DecimalArith.Signal Number
  | .num q =>
      if 10 ^ DecimalArith.prec ≤ |truncate q| then .error .invalidOperation
      else .ok (.num (truncate q))
  | .inf _ | .snan => .error .invalidOperation
  | .nan => .ok .nan

/-- `_round_down_tick`. -/
def roundDownTick (value tick : Number) : Except Raised Number := do
  if ← raising (tick.le (.num 0)) then pure value
  else
    let ticks ← raising (value.div tick)
    let whole ← raising (quantizeOne ticks)
    raising (whole.mul tick)

/-- `LEGACY_UNBOUNDED_QTY`. -/
def legacyUnboundedQty : Number := .num 100

/-- `max_stake is not None and max_stake > 0 and unit_cost > 0`, and the
budget. -/
def budgetQty (unitCost : Number) : Option Number → Except Raised (Option Number)
  | none => .ok none
  | some stake => do
      if ← raising ((Number.num 0).lt stake) then
        if ← raising ((Number.num 0).lt unitCost) then
          let budget ← raising (stake.div unitCost)
          pure (some budget)
        else pure none
      else pure none

/-- `tradeable_qty`. -/
def tradeableQty (unitCost : Number) (depths : List (Option Number)) (maxStake : Option Number)
    (tick : Number) : Except Raised Number := do
  let known := depths.filterMap id
  -- an explicit size of zero is known empty
  if ← known.anyM fun d => raising (d.le (.num 0)) then pure (.num 0)
  else
    let qty ← minKnown known
    let budget ← budgetQty unitCost maxStake
    let qty ←
      match qty, budget with
      | none, none => pure legacyUnboundedQty
      | some q, none | none, some q => pure q
      | some q, some budget => do
          if ← raising (budget.lt q) then pure budget else pure q
    let qty ←
      if ← raising ((Number.num 0).lt tick) then roundDownTick qty tick else pure qty
    if ← raising ((Number.num 0).lt qty) then pure qty else pure (.num 0)

/-! ## The detector -/

/-- `DEFAULT_QTY_TICK`. -/
def defaultQtyTick : Number := .num (1 / 100)

/-- `leg_unit_cost`. -/
def legUnitCost (ask : Number) (feeModel : FeeModel) (isBuy : Bool) : Except Raised Number :=
  raising (ask.add (feeModel ask (.num 1) isBuy))

/-- `sum(unit_costs, Decimal("0"))`. -/
def sumOf (unitCosts : List Number) : Except Raised Number :=
  unitCosts.foldlM (fun total cost => raising (total.add cost)) (.num 0)

/-- `net_edge_per_contract`. -/
def netEdgePerContract (unitCosts : List Number) : Except Raised Number := do
  let total ← sumOf unitCosts
  raising ((Number.num 1).sub total)

/-- What the detector is given beside the legs. -/
structure Market where
  quotes : Dict OutcomeId FeedQuote
  fees : Dict VenueId FeeModel
  maxTicketStake : Option Number := none
  minQty : Number := .num 0
  tickByVenue : Dict VenueId Number := Dict.empty

/-- A leg with its quote, its fee model and its unit cost. -/
structure Resolved where
  leg : EventGroupLeg
  quote : FeedQuote
  feeModel : FeeModel
  unitCost : Number

namespace Market

variable (m : Market)

/-- The loop over the legs: it ends at the first leg without a quote or without
a fee model. -/
def resolve : List EventGroupLeg → Except Raised (Option (List Resolved))
  | [] => .ok (some [])
  | leg :: legs =>
      -- a missing leg ends the loop before the legs behind it are priced
      match m.quotes.get? leg.outcomeId, m.fees.get? leg.venueId with
      | some quote, some feeModel => do
          let unitCost ← legUnitCost quote.ask feeModel true
          match ← resolve legs with
          | none => pure none
          | some rest => pure (some (⟨leg, quote, feeModel, unitCost⟩ :: rest))
      | _, _ => .ok none

/-- One turn of the loop that prices the ticket. -/
def buy (qty : Number) (ticket : Number × List ArbLeg) (r : Resolved) :
    Except Raised (Number × List ArbLeg) := do
  let fee := r.feeModel r.quote.ask qty true
  let cost ← raising (r.quote.ask.mul qty)
  let cost ← raising (cost.add fee)
  let totalStake ← raising (ticket.1.add cost)
  pure (totalStake,
    ticket.2 ++ [⟨r.leg.outcomeId, r.leg.venueId, true, r.quote.ask, qty, fee⟩])

/-- The ticket of a set with an edge. -/
def ticket (eventGroupId : GroupId) (resolved : List Resolved) :
    Except Raised (Option ArbOpportunity) := do
  let tick ← maxOf defaultQtyTick
    (resolved.map fun r => m.tickByVenue.getD r.leg.venueId defaultQtyTick)
  let unitCost ← sumOf (resolved.map (·.unitCost))
  let qty ← tradeableQty unitCost (resolved.map (·.quote.askSize)) m.maxTicketStake tick
  if ← raising (qty.le (.num 0)) then pure none
  else if ← raising (qty.lt m.minQty) then pure none
  else
    let (totalStake, legs) ← resolved.foldlM (buy qty) (.num 0, [])
    let profit ← raising (qty.sub totalStake)
    if ← raising (profit.le (.num 0)) then pure none
    else
      let ratio ← raising (profit.div totalStake)
      let bps ← raising (ratio.mul (.num 10000))
      pure (some ⟨eventGroupId, legs, totalStake, profit, bps⟩)

/-- `detect_complementary_set`. -/
def detectComplementarySet (eventGroupId : GroupId) (legs : List EventGroupLeg) :
    Except Raised (Option ArbOpportunity) :=
  if legs.length < 2 then .ok none
  else do
    match ← m.resolve legs with
    | none => pure none
    | some resolved =>
        let edge ← netEdgePerContract (resolved.map (·.unitCost))
        if ← raising (edge.le (.num 0)) then pure none
        else m.ticket eventGroupId resolved

end Market

/-! ## Two asks that cost 1 or more -/

section Pair

/-- A fee model that returns no negative number. -/
def NonNegative (feeModel : FeeModel) : Prop :=
  ∀ price qty isBuy, feeModel price qty isBuy = .inf false ∨
    ∃ q, feeModel price qty isBuy = .num q ∧ 0 ≤ q

/-- No finite fee of one contract exceeds the largest power of ten a `Decimal`
result can have. -/
def Market.SmallFees (m : Market) (legs : List EventGroupLeg) : Prop :=
  ∀ leg ∈ legs, ∀ quote ∈ m.quotes.get? leg.outcomeId, ∀ feeModel ∈ m.fees.get? leg.venueId,
    ∀ q, feeModel quote.ask (.num 1) true = .num q → q ≤ (10 : ℚ) ^ DecimalArith.emax

variable {small : Prop} {a a' : ℚ} {u u' : Number}

theorem one_le_unit : (1 : ℚ) ≤ (10 : ℚ) ^ DecimalArith.emax :=
  one_le_zpow₀ (by norm_num) (by norm_num [DecimalArith.emax])

/-- A unit cost is at least the ask. -/
theorem legUnitCost_cases {feeModel : FeeModel} (hfee : NonNegative feeModel) (h0 : 0 ≤ a)
    (h1 : a ≤ 1) (hsmall : small → ∀ q, feeModel (.num a) (.num 1) true = .num q →
      q ≤ (10 : ℚ) ^ DecimalArith.emax) :
    (legUnitCost (.num a) feeModel true = .error (.decimal .overflow) ∧ ¬ small) ∨
      ∃ u, legUnitCost (.num a) feeModel true = .ok u ∧
        Between small (rounded a) (2 * (10 : ℚ) ^ DecimalArith.emax) u := by
  have hfee' : Between small 0 ((10 : ℚ) ^ DecimalArith.emax)
      (feeModel (.num a) (.num 1) true) := by
    refine ⟨hfee _ _ _, fun hs q hq => ?_⟩
    rcases hfee (.num a) (.num 1) true with hinf | ⟨q', hq', hpos⟩
    · rw [hinf] at hq
      cases hq
    · have hsame : q' = q := Number.num.inj (hq'.symm.trans hq)
      rw [abs_of_nonneg (hsame ▸ hpos)]
      exact hsmall hs q hq
  have hunit := one_le_unit
  have hsum : a + (10 : ℚ) ^ DecimalArith.emax ≤ (2 : ℤ) * (10 : ℚ) ^ DecimalArith.emax := by
    push_cast
    linarith
  rcases (DecimalArith.between_num h0).add hfee' (by norm_num) (by norm_num)
    (by norm_num [DecimalArith.emax]) le_rfl hsum with ⟨hover, hnot⟩ | ⟨u, hu, hbetween⟩
  · exact .inl ⟨by rw [legUnitCost, hover]; rfl, hnot⟩
  · rw [add_zero] at hbetween
    refine .inr ⟨u, by rw [legUnitCost, hu]; rfl, ?_⟩
    exact_mod_cast hbetween

/-- The sum of two unit costs. -/
theorem sumOf_pair_cases (hu : Between small (rounded a) (2 * (10 : ℚ) ^ DecimalArith.emax) u)
    (hu' : Between small (rounded a') (2 * (10 : ℚ) ^ DecimalArith.emax) u') :
    (sumOf [u, u'] = .error (.decimal .overflow) ∧ ¬ small) ∨
      ∃ total, sumOf [u, u'] = .ok total ∧
        Between small (rounded (rounded a + rounded a')) (4 * (10 : ℚ) ^ DecimalArith.emax)
          total := by
  have hemax : (0 : ℤ) ≤ DecimalArith.emax := by norm_num [DecimalArith.emax]
  have hfirst : (0 : ℚ) + 2 * (10 : ℚ) ^ DecimalArith.emax ≤
      (2 : ℤ) * (10 : ℚ) ^ DecimalArith.emax := by
    push_cast
    linarith
  have hsecond : 2 * (10 : ℚ) ^ DecimalArith.emax + 2 * (10 : ℚ) ^ DecimalArith.emax ≤
      (4 : ℤ) * (10 : ℚ) ^ DecimalArith.emax := by
    push_cast
    linarith
  rcases (DecimalArith.between_num (le_refl 0)).add hu (by norm_num) (by norm_num) hemax le_rfl
    hfirst with ⟨hover, hnot⟩ | ⟨first, hok, hbetween⟩
  · exact .inl ⟨by simp [sumOf, hover, bind, Except.bind], hnot⟩
  · rw [zero_add, DecimalArith.rounded_rounded] at hbetween
    push_cast at hbetween
    rcases hbetween.add hu' (by norm_num) (by norm_num) hemax le_rfl hsecond with
      ⟨hover, hnot⟩ | ⟨total, htotal, hbetween'⟩
    · exact .inl ⟨by simp [sumOf, hok, hover, bind, Except.bind], hnot⟩
    · refine .inr ⟨total, by simp [sumOf, hok, htotal, bind, Except.bind, pure, Except.pure], ?_⟩
      exact_mod_cast hbetween'

/-- A total of 1 or more leaves no edge. -/
theorem edge_cases {total : Number}
    (h : Between small 1 (4 * (10 : ℚ) ^ DecimalArith.emax) total) :
    ((Number.num 1).sub total = .error .overflow ∧ ¬ small) ∨
      ∃ edge, (Number.num 1).sub total = .ok edge ∧ edge.le (.num 0) = .ok true := by
  rcases h.low with rfl | ⟨q, rfl, hq⟩
  · exact .inr ⟨_, rfl, rfl⟩
  · rw [Number.sub_num]
    rcases DecimalArith.finish_eq (1 - q) with hover | hok
    · refine .inl ⟨hover, fun hs => ?_⟩
      have hunit := one_le_unit
      have hbound : |1 - q| ≤ (5 : ℤ) * (10 : ℚ) ^ DecimalArith.emax := by
        have hhigh := abs_le.mp (h.high hs q rfl)
        push_cast
        refine abs_le.mpr ⟨by linarith [hhigh.2], by linarith⟩
      rw [(DecimalArith.finish_of_abs_le (by norm_num) (by norm_num)
        (by norm_num [DecimalArith.emax]) le_rfl hbound).1] at hover
      cases hover
    · refine .inr ⟨_, hok, ?_⟩
      have hle : rounded (1 - q) ≤ 0 := by
        have h := DecimalArith.rounded_mono (show 1 - q ≤ 0 by linarith)
        rwa [DecimalArith.rounded_zero] at h
      rw [Number.le_num, decide_eq_true hle]

theorem Market.resolve_cons_none {m : Market} {leg : EventGroupLeg}
    (h : m.fees.get? leg.venueId = none) (legs : List EventGroupLeg) :
    m.resolve (leg :: legs) = .ok none := by
  rw [resolve, h]
  cases m.quotes.get? leg.outcomeId <;> rfl

theorem Market.resolve_cons_some {m : Market} {leg : EventGroupLeg} {quote : FeedQuote}
    {feeModel : FeeModel} (hquote : m.quotes.get? leg.outcomeId = some quote)
    (hfee : m.fees.get? leg.venueId = some feeModel) (legs : List EventGroupLeg) :
    m.resolve (leg :: legs) = (do
      let unitCost ← legUnitCost quote.ask feeModel true
      match ← m.resolve legs with
      | none => pure none
      | some rest => pure (some (⟨leg, quote, feeModel, unitCost⟩ :: rest))) := by
  rw [resolve, hquote, hfee]

variable {m : Market} {l l' : EventGroupLeg} {quote quote' : FeedQuote}

/-- A pair of legs resolves to two unit costs, each at least its ask, unless a
fee model is missing or a unit cost overflows. -/
theorem Market.resolve_pair_cases (hquote : m.quotes.get? l.outcomeId = some quote)
    (hquote' : m.quotes.get? l'.outcomeId = some quote')
    (hfees : ∀ v, ∀ feeModel ∈ m.fees.get? v, NonNegative feeModel)
    (hask : quote.ask = .num a) (hask' : quote'.ask = .num a') :
    m.resolve [l, l'] = .ok none ∨
      (m.resolve [l, l'] = .error (.decimal .overflow) ∧ ¬ m.SmallFees [l, l']) ∨
      ∃ r r', m.resolve [l, l'] = .ok (some [r, r']) ∧
        Between (m.SmallFees [l, l']) (rounded a) (2 * (10 : ℚ) ^ DecimalArith.emax) r.unitCost ∧
        Between (m.SmallFees [l, l']) (rounded a') (2 * (10 : ℚ) ^ DecimalArith.emax)
          r'.unitCost := by
  obtain ⟨b₁, a₁, -, ha₁, h0, hb, h1⟩ := quote.prices
  obtain ⟨b₂, a₂, -, ha₂, h0', hb', h1'⟩ := quote'.prices
  cases hask.symm.trans ha₁
  cases hask'.symm.trans ha₂
  cases hf : m.fees.get? l.venueId with
  | none => exact .inl (resolve_cons_none hf _)
  | some feeModel =>
      -- the first leg decides whether the second is looked at
      have hcost := legUnitCost_cases (hfees _ _ hf) (h0.trans hb) h1
        fun hs : m.SmallFees [l, l'] => hask ▸ hs l List.mem_cons_self quote hquote feeModel hf
      rw [resolve_cons_some hquote hf, hask]
      rcases hcost with ⟨hover, hnot⟩ | ⟨u, hu, hbetween⟩
      · exact .inr (.inl ⟨by rw [hover]; rfl, hnot⟩)
      rw [hu]
      cases hf' : m.fees.get? l'.venueId with
      | none =>
          rw [resolve_cons_none hf']
          exact .inl rfl
      | some feeModel' =>
          have hcost' := legUnitCost_cases (hfees _ _ hf') (h0'.trans hb') h1'
            fun hs : m.SmallFees [l, l'] =>
              hask' ▸ hs l' (List.mem_cons_of_mem l List.mem_cons_self) quote' hquote' feeModel' hf'
          rw [resolve_cons_some hquote' hf', hask']
          rcases hcost' with ⟨hover, hnot⟩ | ⟨u', hu', hbetween'⟩
          · exact .inr (.inl ⟨by rw [hover]; rfl, hnot⟩)
          · rw [hu']
            exact .inr (.inr ⟨⟨l, quote, feeModel, u⟩, ⟨l', quote', feeModel', u'⟩, rfl, hbetween,
              hbetween'⟩)

/-- **Two asks that cost 1 or more, as `Decimal` adds them, are no
arbitrage.** -/
theorem Market.detectComplementarySet_pair {gid : GroupId}
    (hquote : m.quotes.get? l.outcomeId = some quote)
    (hquote' : m.quotes.get? l'.outcomeId = some quote')
    (hfees : ∀ v, ∀ feeModel ∈ m.fees.get? v, NonNegative feeModel)
    (hask : quote.ask = .num a) (hask' : quote'.ask = .num a')
    (hcost : 1 ≤ rounded (rounded a + rounded a')) :
    m.detectComplementarySet gid [l, l'] = .ok none ∨
      m.detectComplementarySet gid [l, l'] = .error (.decimal .overflow) ∧
        ¬ m.SmallFees [l, l'] := by
  have hrun : m.detectComplementarySet gid [l, l'] = (do
      match ← m.resolve [l, l'] with
      | none => pure none
      | some resolved =>
          let edge ← netEdgePerContract (resolved.map (·.unitCost))
          if ← raising (edge.le (.num 0)) then pure none
          else m.ticket gid resolved) := if_neg (by simp)
  rw [hrun]
  -- the edge test ends it, so the sizing is never reached
  rcases resolve_pair_cases hquote hquote' hfees hask hask' with
    hnone | ⟨hover, hnot⟩ | ⟨r, r', hresolve, hu, hu'⟩
  · rw [hnone]
    exact .inl rfl
  · rw [hover]
    exact .inr ⟨rfl, hnot⟩
  rw [hresolve]
  rcases sumOf_pair_cases hu hu' with ⟨hover, hnot⟩ | ⟨total, htotal, hbetween⟩
  · refine .inr ⟨?_, hnot⟩
    simp [netEdgePerContract, hover, bind, Except.bind]
  rcases edge_cases (hbetween.mono hcost le_rfl) with ⟨hover, hnot⟩ | ⟨edge, hedge, hle⟩
  · refine .inr ⟨?_, hnot⟩
    simp [netEdgePerContract, htotal, hover, bind, Except.bind]
  · refine .inl ?_
    simp [netEdgePerContract, htotal, hedge, hle, bind, Except.bind, pure, Except.pure]

end Pair

end DecimalEngine

end Arbys
