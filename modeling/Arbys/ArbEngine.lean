import Arbys.Fees
import Arbys.Lib.Runs
import Arbys.Qty

/-!
# Arbitrage detection

`shared/arb_engine.py`. A pair of legs is an arbitrage when one contract of
each costs less than the one contract that pays; sizing is a later step. The
loops over the pairs keep the most profitable one. The return in basis points
divides by the stake, and `Decimal` raises when that is zero, so a detector
returns in `Except`.
-/

namespace Arbys

/-- `decimal.DivisionByZero`. -/
inductive DecimalError where
  | divisionByZero
  deriving DecidableEq

/-- `profit / total_stake`, as `Decimal` divides. -/
def decimalDiv (x y : ℚ) : Except DecimalError ℚ :=
  if y = 0 then .error .divisionByZero else .ok (x / y)

/-- One trade in an arb ticket. -/
structure ArbLeg where
  outcomeId : OutcomeId
  venueId : VenueId
  isBuy : Bool
  price : ℚ
  qty : ℚ
  fee : ℚ
  deriving DecidableEq

/-- What a leg costs: price times quantity, and its fee. -/
def ArbLeg.cost (leg : ArbLeg) : ℚ := leg.price * leg.qty + leg.fee

/-- A detected, executable arbitrage. -/
structure ArbOpportunity where
  eventGroupId : GroupId
  legs : List ArbLeg
  totalStake : ℚ
  guaranteedProfit : ℚ
  guaranteedProfitBps : ℚ
  deriving DecidableEq

/-- `DEFAULT_QTY_TICK`. -/
def defaultQtyTick : ℚ := 1 / 100

/-- `leg_unit_cost`: the ask and the fee of one contract. -/
def legUnitCost (ask : ℚ) (feeModel : FeeModel) (isBuy : Bool) : ℚ :=
  ask + feeModel.fee ask 1 isBuy

/-- `net_edge_per_contract`. -/
def netEdgePerContract (unitCosts : List ℚ) : ℚ := 1 - unitCosts.sum

/-- What both detectors are given beside the legs. -/
structure Market where
  quotes : Dict OutcomeId Quote
  fees : FeeModelRegistry
  maxTicketStake : Option ℚ := none
  minQty : ℚ := 0
  tickByVenue : Dict VenueId ℚ := Dict.empty

namespace Market

variable (m : Market)

/-- `tick_by_venue.get(venue_id, DEFAULT_QTY_TICK)`. -/
def tick (v : VenueId) : ℚ := m.tickByVenue.getD v defaultQtyTick

/-- The leg of a ticket that buys `qty` at the ask. -/
def buyLeg (leg : EventGroupLeg) (quote : Quote) (feeModel : FeeModel) (qty : ℚ) : ArbLeg where
  outcomeId := leg.outcomeId
  venueId := leg.venueId
  isBuy := true
  price := quote.ask
  qty := qty
  fee := feeModel.fee quote.ask qty true

/-- The body of the inner loop of `detect_cross_venue_two_leg`: the
opportunity of one YES leg, already quoted, and one NO leg. -/
def pairUp (eventGroupId : GroupId) (y : EventGroupLeg) (yq : Quote) (yFeeModel : FeeModel)
    (n : EventGroupLeg) : Except DecimalError (Option ArbOpportunity) :=
  if n.venueId = y.venueId then .ok none
  else
    match m.quotes.get? n.outcomeId, m.fees.get? n.venueId with
    | some nq, some nFeeModel =>
        let yUnit := legUnitCost yq.ask yFeeModel true
        let nUnit := legUnitCost nq.ask nFeeModel true
        if netEdgePerContract [yUnit, nUnit] ≤ 0 then .ok none
        else
          -- both legs trade one quantity, in steps of the coarser tick
          let qty := tradeableQty (yUnit + nUnit) [yq.askSize, nq.askSize] m.maxTicketStake
            (max (m.tick y.venueId) (m.tick n.venueId))
          if qty ≤ 0 ∨ qty < m.minQty then .ok none
          else
            let yFee := yFeeModel.fee yq.ask qty true
            let nFee := nFeeModel.fee nq.ask qty true
            let totalStake := yq.ask * qty + nq.ask * qty + yFee + nFee
            let profit := qty - totalStake
            if profit ≤ 0 then .ok none
            else do
              let ratio ← decimalDiv profit totalStake
              pure (some {
                eventGroupId := eventGroupId
                legs := [buyLeg y yq yFeeModel qty, buyLeg n nq nFeeModel qty]
                totalStake := totalStake
                guaranteedProfit := profit
                guaranteedProfitBps := ratio * 10000 })
    | _, _ => .ok none

/-- Keep the more profitable one, the first on a tie. -/
def better (best : Option ArbOpportunity) (opp : ArbOpportunity) : Option ArbOpportunity :=
  match best with
  | none => some opp
  | some b => if b.guaranteedProfit < opp.guaranteedProfit then some opp else some b

/-- `detect_cross_venue_two_leg`. -/
def detectCrossVenueTwoLeg (group : EventGroup) : Except DecimalError (Option ArbOpportunity) :=
  let yesLegs := group.legs.filter fun leg => leg.isYesSide
  let noLegs := group.legs.filter fun leg => !leg.isYesSide
  if yesLegs = [] ∨ noLegs = [] then .ok none
  else
    yesLegs.foldlM (fun best y =>
      match m.quotes.get? y.outcomeId, m.fees.get? y.venueId with
      | some yq, some yFeeModel =>
          noLegs.foldlM (fun best n => do
            match ← m.pairUp group.id y yq yFeeModel n with
            | none => pure best
            | some opp => pure (better best opp)) best
      | _, _ => pure best) none

/-- Quote and fee model of a leg, when both are known. -/
def resolve (leg : EventGroupLeg) : Option (EventGroupLeg × Quote × FeeModel) :=
  match m.quotes.get? leg.outcomeId, m.fees.get? leg.venueId with
  | some quote, some feeModel => some (leg, quote, feeModel)
  | _, _ => none

/-- `detect_complementary_set`: buy every outcome so exactly one pays. -/
def detectComplementarySet (eventGroupId : GroupId) (legs : List EventGroupLeg) :
    Except DecimalError (Option ArbOpportunity) :=
  if legs.length < 2 then .ok none
  else
    match legs.mapM m.resolve with
    | none => .ok none
    | some resolved =>
        let unitCosts := resolved.map fun (_, quote, feeModel) =>
          legUnitCost quote.ask feeModel true
        if netEdgePerContract unitCosts ≤ 0 then .ok none
        else
          -- one quantity for all legs, in steps of the coarsest tick among them
          let tick := ((resolved.map fun (leg, _, _) => m.tick leg.venueId).max?).getD
            defaultQtyTick
          let qty := tradeableQty unitCosts.sum (resolved.map fun (_, quote, _) => quote.askSize)
            m.maxTicketStake tick
          if qty ≤ 0 ∨ qty < m.minQty then .ok none
          else
            let arbLegs := resolved.map fun (leg, quote, feeModel) =>
              buyLeg leg quote feeModel qty
            let totalStake := (arbLegs.map fun leg => leg.price * leg.qty + leg.fee).sum
            let profit := qty - totalStake
            -- the fees are those of the quantity, which the edge of one contract left out
            if profit ≤ 0 then .ok none
            else do
              let ratio ← decimalDiv profit totalStake
              pure (some {
                eventGroupId := eventGroupId
                legs := arbLegs
                totalStake := totalStake
                guaranteedProfit := profit
                guaranteedProfitBps := ratio * 10000 })

/-! ## What a detector returns -/

/-- A leg of an opportunity that buys `q` of a group's leg: at the ask of a
live quote, no more than the depth that quote reports, carrying the fee of the
whole quantity. -/
structure Buys (leg : ArbLeg) (of : EventGroupLeg) (q : ℚ) (quote : Quote)
    (feeModel : FeeModel) : Prop where
  venueId : leg.venueId = of.venueId
  outcomeId : leg.outcomeId = of.outcomeId
  isBuy : leg.isBuy = true
  price : leg.price = quote.ask
  qty : leg.qty = q
  fee : leg.fee = feeModel.fee quote.ask q true
  quoted : m.quotes.get? leg.outcomeId = some quote
  feeModel : m.fees.get? leg.venueId = some feeModel
  depth : ∀ size, quote.askSize = some size → 0 < size ∧ q ≤ size

/-- **What a cross-venue opportunity is**: a YES leg and a NO leg of the group
on different venues, each bought in the same positive quantity, and the profit
is that quantity less what the two legs cost. -/
structure CrossVenue (group : EventGroup) (opp : ArbOpportunity) : Prop where
  eventGroupId : opp.eventGroupId = group.id
  pair : ∃ y n, y ∈ group.legs ∧ n ∈ group.legs ∧ y.isYesSide = true ∧ n.isYesSide = false ∧
    n.venueId ≠ y.venueId ∧ ∃ qty yq nq yFeeModel nFeeModel yLeg nLeg, 0 < qty ∧
      m.Buys yLeg y qty yq yFeeModel ∧ m.Buys nLeg n qty nq nFeeModel ∧
      opp.legs = [yLeg, nLeg] ∧
      opp.guaranteedProfit =
        qty - ((yLeg.price * yLeg.qty + yLeg.fee) + (nLeg.price * nLeg.qty + nLeg.fee))

/-- **A pair that is an arbitrage**, spelled out. -/
theorem pairUp_eq_some {gid : GroupId} {y n : EventGroupLeg} {yq : Quote}
    {yFeeModel : FeeModel} {opp : ArbOpportunity}
    (h : m.pairUp gid y yq yFeeModel n = .ok (some opp)) :
    n.venueId ≠ y.venueId ∧ ∃ nq nFeeModel qty,
      m.quotes.get? n.outcomeId = some nq ∧ m.fees.get? n.venueId = some nFeeModel ∧ 0 < qty ∧
      (∀ quote ∈ [yq, nq], ∀ size, quote.askSize = some size → 0 < size ∧ qty ≤ size) ∧
      opp.eventGroupId = gid ∧
      opp.legs = [buyLeg y yq yFeeModel qty, buyLeg n nq nFeeModel qty] ∧
      opp.totalStake = yq.ask * qty + nq.ask * qty + yFeeModel.fee yq.ask qty true +
        nFeeModel.fee nq.ask qty true ∧
      opp.guaranteedProfit = qty - opp.totalStake := by
  unfold pairUp at h
  by_cases hvenue : n.venueId = y.venueId
  · rw [if_pos hvenue] at h
    cases h
  rw [if_neg hvenue] at h
  cases hnq : m.quotes.get? n.outcomeId with
  | none => rw [hnq] at h; cases h
  | some nq =>
  cases hnf : m.fees.get? n.venueId with
  | none => rw [hnq, hnf] at h; cases h
  | some nFeeModel =>
      simp only [hnq, hnf] at h
      generalize hqty : tradeableQty _ _ _ _ = qty at h
      -- past the guards on the edge, the quantity and the profit
      split_ifs at h with hedge hsize hprofit
      · cases h
      · cases h
      · cases h
      have hpos : 0 < qty := not_le.mp fun hle => hsize (.inl hle)
      have hdepth : ∀ quote ∈ [yq, nq], ∀ size, quote.askSize = some size →
          0 < size ∧ qty ≤ size := by
        intro quote hq size hs
        have hmem : some size ∈ [yq.askSize, nq.askSize] := by
          rw [← hs]
          exact List.mem_map_of_mem (f := Quote.askSize) hq
        rw [← hqty] at hpos ⊢
        exact tradeableQty_depth hpos hmem
      cases hr : decimalDiv (qty - (yq.ask * qty + nq.ask * qty + yFeeModel.fee yq.ask qty true +
          nFeeModel.fee nq.ask qty true)) (yq.ask * qty + nq.ask * qty +
          yFeeModel.fee yq.ask qty true + nFeeModel.fee nq.ask qty true) with
      | error e => rw [hr] at h; cases h
      | ok ratio =>
          rw [hr] at h
          cases h
          exact ⟨hvenue, nq, nFeeModel, qty, rfl, rfl, hpos, hdepth, rfl, rfl, rfl, rfl⟩

theorem crossVenue_of_pairUp {group : EventGroup} {y n : EventGroupLeg} {yq : Quote}
    {yFeeModel : FeeModel} {opp : ArbOpportunity} (hy : y ∈ group.legs) (hn : n ∈ group.legs)
    (hyes : y.isYesSide = true) (hno : n.isYesSide = false)
    (hyq : m.quotes.get? y.outcomeId = some yq) (hyf : m.fees.get? y.venueId = some yFeeModel)
    (h : m.pairUp group.id y yq yFeeModel n = .ok (some opp)) : m.CrossVenue group opp := by
  obtain ⟨hvenue, nq, nFeeModel, qty, hnq, hnf, hpos, hdepth, hid, hlegs, hstake, hprofit⟩ :=
    m.pairUp_eq_some h
  refine ⟨hid, y, n, hy, hn, hyes, hno, hvenue, qty, yq, nq, yFeeModel, nFeeModel, _, _,
    hpos, ⟨rfl, rfl, rfl, rfl, rfl, rfl, hyq, hyf, hdepth yq (by simp)⟩,
    ⟨rfl, rfl, rfl, rfl, rfl, rfl, hnq, hnf, hdepth nq (by simp)⟩, hlegs, ?_⟩
  rw [hprofit, hstake]
  simp only [buyLeg]
  ring

/-- **The rule of the loops**: what holds of every pair's opportunity holds of
the one that is kept. -/
theorem of_detectCrossVenueTwoLeg {group : EventGroup} {P : ArbOpportunity → Prop}
    (hpair : ∀ y n yq yFeeModel opp, y ∈ group.legs → n ∈ group.legs → y.isYesSide = true →
      n.isYesSide = false → m.quotes.get? y.outcomeId = some yq →
      m.fees.get? y.venueId = some yFeeModel →
      m.pairUp group.id y yq yFeeModel n = .ok (some opp) → P opp)
    {opp : ArbOpportunity} (h : m.detectCrossVenueTwoLeg group = .ok (some opp)) : P opp := by
  unfold detectCrossVenueTwoLeg at h
  by_cases hlegs : group.legs.filter (fun leg => leg.isYesSide) = [] ∨
      group.legs.filter (fun leg => !leg.isYesSide) = []
  · rw [if_pos hlegs] at h
    cases h
  rw [if_neg hlegs] at h
  -- the invariant of both loops: the best so far has the property
  refine Runs.foldlM_inv (I := fun best => ∀ o, best = some o → P o)
    (fun best y best' hymem hbest hstep => ?_) (fun o ho => by cases ho) h opp rfl
  obtain ⟨hy, hyes⟩ := List.mem_filter.mp hymem
  cases hyq : m.quotes.get? y.outcomeId with
  | none => rw [hyq] at hstep; cases hstep; exact hbest
  | some yq =>
  cases hyf : m.fees.get? y.venueId with
  | none => rw [hyq, hyf] at hstep; cases hstep; exact hbest
  | some yFeeModel =>
      simp only [hyq, hyf] at hstep
      refine Runs.foldlM_inv (I := fun best => ∀ o, best = some o → P o)
        (fun best n best' hnmem hbest hstep => ?_) hbest hstep
      obtain ⟨hn, hno⟩ := List.mem_filter.mp hnmem
      cases hp : m.pairUp group.id y yq yFeeModel n with
      | error e => rw [hp] at hstep; cases hstep
      | ok found =>
          rw [hp] at hstep
          cases found with
          | none => cases hstep; exact hbest
          | some opp =>
              have hopp : P opp :=
                hpair y n yq yFeeModel opp hy hn hyes (by simpa using hno) hyq hyf hp
              cases hstep
              intro o ho
              cases best with
              | none => cases ho; exact hopp
              | some b =>
                  simp only [better] at ho
                  split at ho <;> cases ho
                  · exact hopp
                  · exact hbest _ rfl

/-- **The detector's promise.** -/
theorem crossVenue_of_detect {group : EventGroup} {opp : ArbOpportunity}
    (h : m.detectCrossVenueTwoLeg group = .ok (some opp)) : m.CrossVenue group opp :=
  m.of_detectCrossVenueTwoLeg
    (fun _ _ _ _ _ hy hn hyes hno hyq hyf hp => m.crossVenue_of_pairUp hy hn hyes hno hyq hyf hp)
    h

/-- **What either detector returns**: legs that buy quoted outcomes at their
asks, and a stake that is what the legs cost. -/
structure Quoted (opp : ArbOpportunity) : Prop where
  legs : ∀ leg ∈ opp.legs, 0 < leg.qty ∧
    ∃ of quote feeModel, m.Buys leg of leg.qty quote feeModel
  totalStake : opp.totalStake = (opp.legs.map fun leg => leg.price * leg.qty + leg.fee).sum

theorem quoted_of_detectCrossVenueTwoLeg {group : EventGroup} {opp : ArbOpportunity}
    (h : m.detectCrossVenueTwoLeg group = .ok (some opp)) : m.Quoted opp := by
  refine m.of_detectCrossVenueTwoLeg (fun y n yq yFeeModel opp _ _ _ _ hyq hyf hp => ?_) h
  obtain ⟨_, nq, nFeeModel, qty, hnq, hnf, hpos, hdepth, _, hlegs, hstake, _⟩ :=
    m.pairUp_eq_some hp
  constructor
  · rw [hlegs]
    intro leg hleg
    rcases List.mem_pair.mp hleg with rfl | rfl
    · exact ⟨hpos, y, yq, yFeeModel, rfl, rfl, rfl, rfl, rfl, rfl, hyq, hyf, hdepth yq (by simp)⟩
    · exact ⟨hpos, n, nq, nFeeModel, rfl, rfl, rfl, rfl, rfl, rfl, hnq, hnf, hdepth nq (by simp)⟩
  · rw [hlegs, hstake]
    simp only [buyLeg, List.map_cons, List.map_nil, List.sum_cons, List.sum_nil]
    ring

theorem resolve_eq_some {leg : EventGroupLeg} {r : EventGroupLeg × Quote × FeeModel}
    (h : m.resolve leg = some r) : r.1 = leg ∧ m.quotes.get? leg.outcomeId = some r.2.1 ∧
      m.fees.get? leg.venueId = some r.2.2 := by
  unfold resolve at h
  split at h
  · rename_i quote feeModel hq hf
    cases h
    exact ⟨rfl, hq, hf⟩
  · cases h

/-- Every resolved leg resolves a leg of the group. -/
theorem exists_of_mem_resolved {legs : List EventGroupLeg}
    {resolved : List (EventGroupLeg × Quote × FeeModel)} (h : legs.mapM m.resolve = some resolved)
    {r : EventGroupLeg × Quote × FeeModel} (hr : r ∈ resolved) :
    ∃ leg ∈ legs, m.resolve leg = some r :=
  Runs.exists_of_mem_collected (Runs.forall₂_of_mapM h) hr

/-- **What a complementary set is**: every leg resolved and bought in one
positive quantity, the one the market makes tradeable, for a profit. -/
theorem detectComplementarySet_eq_some {gid : GroupId} {legs : List EventGroupLeg}
    {opp : ArbOpportunity} (h : m.detectComplementarySet gid legs = .ok (some opp)) :
    ∃ resolved qty, 2 ≤ legs.length ∧ legs.mapM m.resolve = some resolved ∧
      qty = tradeableQty
        (resolved.map fun (_, quote, feeModel) => legUnitCost quote.ask feeModel true).sum
        (resolved.map fun (_, quote, _) => quote.askSize) m.maxTicketStake
        (((resolved.map fun (leg, _, _) => m.tick leg.venueId).max?).getD defaultQtyTick) ∧
      0 < qty ∧ m.minQty ≤ qty ∧ opp.eventGroupId = gid ∧
      opp.legs = (resolved.map fun (leg, quote, feeModel) => buyLeg leg quote feeModel qty) ∧
      opp.totalStake = (opp.legs.map fun leg => leg.price * leg.qty + leg.fee).sum ∧
      opp.guaranteedProfit = qty - opp.totalStake := by
  unfold detectComplementarySet at h
  split at h
  · cases h
  rename_i hlength
  cases hres : legs.mapM m.resolve with
  | none => rw [hres] at h; cases h
  | some resolved =>
      simp only [hres] at h
      generalize hqty : tradeableQty _ _ _ _ = qty at h
      -- past the guards on the edge, the quantity and the profit
      split_ifs at h with hedge hsize hprofit
      · cases h
      · cases h
      · cases h
      have hpos : 0 < qty := not_le.mp fun hle => hsize (.inl hle)
      have hmin : m.minQty ≤ qty := not_lt.mp fun hlt => hsize (.inr hlt)
      generalize hr : decimalDiv _ _ = ratio at h
      cases ratio with
      | error e => cases h
      | ok ratio =>
          cases h
          exact ⟨resolved, qty, not_lt.mp hlength, rfl, hqty.symm, hpos, hmin, rfl, rfl, rfl, rfl⟩

theorem quoted_of_detectComplementarySet {gid : GroupId} {legs : List EventGroupLeg}
    {opp : ArbOpportunity} (h : m.detectComplementarySet gid legs = .ok (some opp)) :
    m.Quoted opp := by
  obtain ⟨resolved, qty, -, hres, hqty, hpos, -, -, hlegs, hstake, -⟩ :=
    m.detectComplementarySet_eq_some h
  refine ⟨fun leg hleg => ?_, hstake⟩
  rw [hlegs] at hleg
  obtain ⟨r, hr, rfl⟩ := List.mem_map.mp hleg
  obtain ⟨of, -, hof⟩ := m.exists_of_mem_resolved hres hr
  obtain ⟨rfl, hq, hf⟩ := m.resolve_eq_some hof
  refine ⟨hpos, r.1, r.2.1, r.2.2, rfl, rfl, rfl, rfl, rfl, rfl, hq, hf, fun size hs => ?_⟩
  have hmem : some size ∈ resolved.map fun (_, quote, _) => quote.askSize :=
    List.mem_map.mpr ⟨r, hr, hs⟩
  simp only [buyLeg]
  rw [hqty] at hpos ⊢
  exact tradeableQty_depth hpos hmem

/-- A complementary set is made of the legs it was given. -/
theorem legs_of_detectComplementarySet {gid : GroupId} {legs : List EventGroupLeg}
    {opp : ArbOpportunity} (h : m.detectComplementarySet gid legs = .ok (some opp)) :
    opp.eventGroupId = gid ∧ ∀ leg ∈ opp.legs, ∃ of ∈ legs,
      leg.outcomeId = of.outcomeId ∧ leg.venueId = of.venueId := by
  obtain ⟨resolved, qty, -, hres, -, -, -, hgid, hlegs, -⟩ :=
    m.detectComplementarySet_eq_some h
  refine ⟨hgid, fun leg hleg => ?_⟩
  rw [hlegs] at hleg
  obtain ⟨r, hr, rfl⟩ := List.mem_map.mp hleg
  obtain ⟨of, hmem, hof⟩ := m.exists_of_mem_resolved hres hr
  obtain ⟨rfl, -, -⟩ := m.resolve_eq_some hof
  exact ⟨r.1, hmem, rfl, rfl⟩

/-- What a detector returns has legs. -/
theorem legs_ne_nil_of_detectCrossVenueTwoLeg {group : EventGroup} {opp : ArbOpportunity}
    (h : m.detectCrossVenueTwoLeg group = .ok (some opp)) : opp.legs ≠ [] := by
  refine m.of_detectCrossVenueTwoLeg (P := fun opp => opp.legs ≠ [])
    (fun y n yq yFeeModel opp _ _ _ _ _ _ hp => ?_) h
  obtain ⟨_, _, _, _, _, _, _, _, _, hlegs, _⟩ := m.pairUp_eq_some hp
  rw [hlegs]
  exact List.cons_ne_nil _ _

theorem legs_ne_nil_of_detectComplementarySet {gid : GroupId} {legs : List EventGroupLeg}
    {opp : ArbOpportunity} (h : m.detectComplementarySet gid legs = .ok (some opp)) :
    opp.legs ≠ [] := by
  obtain ⟨resolved, qty, htwo, hres, -, -, -, -, hlegs, -⟩ :=
    m.detectComplementarySet_eq_some h
  have hlength := (Runs.forall₂_of_mapM hres).length_eq
  rw [hlegs, ne_eq, List.map_eq_nil_iff]
  rintro rfl
  rw [List.length_nil] at hlength
  omega

end Market

end Arbys
