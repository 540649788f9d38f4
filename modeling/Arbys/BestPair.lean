import Arbys.ArbEngine
import Arbys.Lib.KeepBest
import Mathlib.Data.List.MinMax

/-!
# The most profitable pair

What `detect_cross_venue_two_leg` promises of a whole group: it returns an
opportunity exactly if some pair of legs is eligible, and what it returns is an
eligible pair that no other one beats.

`Eligible` says what an eligible pair is in terms of the group, the quotes and
the bounds alone. One turn of the inner loop finds the opportunity of its pair
exactly if the pair is eligible (`pairUp_eq_ok_iff`), and the two loops keep
the largest profit among what their turns found (`detect_eq_argmax`).
-/

namespace Arbys

namespace Market

/-- A YES leg and a NO leg with the quotes and the fee models they trade at. -/
structure Pair where
  y : EventGroupLeg
  n : EventGroupLeg
  yQuote : Quote
  nQuote : Quote
  yFeeModel : FeeModel
  nFeeModel : FeeModel

namespace Pair

/-- All-in cost of `q` contracts of each leg. -/
def cost (p : Pair) (q : ℚ) : ℚ :=
  p.yQuote.ask * q + p.nQuote.ask * q + p.yFeeModel.fee p.yQuote.ask q true +
    p.nFeeModel.fee p.nQuote.ask q true

/-- All-in cost of one contract of each leg. -/
def unitCost (p : Pair) : ℚ :=
  legUnitCost p.yQuote.ask p.yFeeModel true + legUnitCost p.nQuote.ask p.nFeeModel true

def depths (p : Pair) : List (Option ℚ) := [p.yQuote.askSize, p.nQuote.askSize]

/-- The ticket that buys `q` contracts of each leg. -/
def opportunity (p : Pair) (eventGroupId : GroupId) (q : ℚ) : ArbOpportunity where
  eventGroupId := eventGroupId
  legs := [buyLeg p.y p.yQuote p.yFeeModel q, buyLeg p.n p.nQuote p.nFeeModel q]
  totalStake := p.cost q
  guaranteedProfit := q - p.cost q
  guaranteedProfitBps := (q - p.cost q) / p.cost q * 10000

theorem cost_eq_mul {p : Pair} (hy : p.yFeeModel.Linear) (hn : p.nFeeModel.Linear) {q : ℚ}
    (hq : 0 < q) : p.cost q = q * p.unitCost := by
  rw [cost, hy _ q true hq, hn _ q true hq, unitCost, legUnitCost, legUnitCost]
  ring

end Pair

variable (m : Market)

/-- The pair trades at what the market quotes and charges. -/
structure Quotes (p : Pair) : Prop where
  yQuote : m.quotes.get? p.y.outcomeId = some p.yQuote
  nQuote : m.quotes.get? p.n.outcomeId = some p.nQuote
  yFeeModel : m.fees.get? p.y.venueId = some p.yFeeModel
  nFeeModel : m.fees.get? p.n.venueId = some p.nFeeModel

/-- The larger tick of the two venues. -/
def pairTick (p : Pair) : ℚ := max (m.tick p.y.venueId) (m.tick p.n.venueId)

/-- `q` is the largest quantity of the pair the bounds allow, and it is worth
trading. -/
structure Worthwhile (p : Pair) (q : ℚ) : Prop where
  largest : IsGreatest {q | Fits p.cost p.depths m.maxTicketStake (m.pairTick p) q} q
  minQty : m.minQty ≤ q
  profit : 0 < q - p.cost q

/-- A pair of legs of the group that is an arbitrage in the quantity `q`. -/
structure Eligible (group : EventGroup) (p : Pair) (q : ℚ) : Prop where
  yes : p.y ∈ group.legs ∧ p.y.isYesSide = true
  no : p.n ∈ group.legs ∧ p.n.isYesSide = false
  venues : p.n.venueId ≠ p.y.venueId
  quotes : m.Quotes p
  worthwhile : m.Worthwhile p q

/-- What is assumed of the registry, the stake and the ticks: fees linear in
quantity, every contract of the group with a positive all-in cost, and
positive bounds. -/
structure Regular (group : EventGroup) : Prop where
  linear : ∀ v feeModel, m.fees.get? v = some feeModel → feeModel.Linear
  unitCost_pos : ∀ leg ∈ group.legs, ∀ quote feeModel,
    m.quotes.get? leg.outcomeId = some quote → m.fees.get? leg.venueId = some feeModel →
      0 < legUnitCost quote.ask feeModel true
  stake_pos : ∀ stake ∈ m.maxTicketStake, 0 < stake
  tick_pos : ∀ v tick, m.tickByVenue.get? v = some tick → 0 < tick

section Detector

variable {m} {group : EventGroup}

theorem Regular.tick (h : m.Regular group) (v : VenueId) : 0 < m.tick v := by
  unfold Market.tick
  cases hget : m.tickByVenue.get? v with
  | none =>
      rw [Dict.getD_of_get?_none hget]
      norm_num [defaultQtyTick]
  | some tick =>
      rw [Dict.getD_of_get? hget]
      exact h.tick_pos v tick hget

theorem Regular.pairTick (h : m.Regular group) (p : Pair) : 0 < m.pairTick p :=
  lt_max_of_lt_left (h.tick p.y.venueId)

section OnePair

variable (h : m.Regular group) {p : Pair} (hquotes : m.Quotes p) (hy : p.y ∈ group.legs)
  (hn : p.n ∈ group.legs)

include h hquotes

theorem Regular.cost_eq {q : ℚ} (hq : 0 < q) : p.cost q = q * p.unitCost :=
  Pair.cost_eq_mul (h.linear _ _ hquotes.yFeeModel) (h.linear _ _ hquotes.nFeeModel) hq

include hy hn in
theorem Regular.pair_unitCost_pos : 0 < p.unitCost :=
  add_pos (h.unitCost_pos p.y hy _ _ hquotes.yQuote hquotes.yFeeModel)
    (h.unitCost_pos p.n hn _ _ hquotes.nQuote hquotes.nFeeModel)

include hy hn in
/-- **One turn of the inner loop**: it returns, and what it finds is the
ticket of the pair in the largest quantity that fits, when that is worth
trading. -/
theorem pairUp_eq_ok (hvenues : p.n.venueId ≠ p.y.venueId) (gid : GroupId) :
    ∃ found, m.pairUp gid p.y p.yQuote p.yFeeModel p.n = .ok found ∧
      ∀ opp, found = some opp ↔ ∃ q, m.Worthwhile p q ∧ opp = p.opportunity gid q := by
  have hunit := h.pair_unitCost_pos hquotes hy hn
  have heq : ∀ q, 0 < q → (tradeableQty p.unitCost p.depths m.maxTicketStake (m.pairTick p) = q ↔
      IsGreatest {q | Fits p.cost p.depths m.maxTicketStake (m.pairTick p) q} q) := fun q hq =>
    tradeableQty_eq_iff (fun q hq => h.cost_eq hquotes hq) hunit h.stake_pos (h.pairTick p) hq
  unfold pairUp
  rw [if_neg hvenues, hquotes.nQuote, hquotes.nFeeModel]
  simp only
  have hedge : netEdgePerContract [legUnitCost p.yQuote.ask p.yFeeModel true,
      legUnitCost p.nQuote.ask p.nFeeModel true] = 1 - p.unitCost := by
    simp [netEdgePerContract, Pair.unitCost]
  have hqty : tradeableQty (legUnitCost p.yQuote.ask p.yFeeModel true +
      legUnitCost p.nQuote.ask p.nFeeModel true) [p.yQuote.askSize, p.nQuote.askSize]
      m.maxTicketStake (max (m.tick p.y.venueId) (m.tick p.n.venueId)) =
      tradeableQty p.unitCost p.depths m.maxTicketStake (m.pairTick p) := rfl
  rw [hedge, hqty]
  generalize tradeableQty p.unitCost p.depths m.maxTicketStake (m.pairTick p) = qty at heq ⊢
  have hcost : p.yQuote.ask * qty + p.nQuote.ask * qty + p.yFeeModel.fee p.yQuote.ask qty true +
      p.nFeeModel.fee p.nQuote.ask qty true = p.cost qty := rfl
  rw [hcost]
  -- the only quantity that can be worth trading is the tradeable one
  have honly : ∀ q, m.Worthwhile p q → qty = q := by
    intro q hq
    exact (heq q hq.largest.1.pos).mpr hq.largest
  have hnone : (∀ q, ¬ m.Worthwhile p q) → ∃ found : Option ArbOpportunity,
      (Except.ok none : Except DecimalError _) = .ok found ∧
        ∀ opp, found = some opp ↔ ∃ q, m.Worthwhile p q ∧ opp = p.opportunity gid q := by
    intro hno
    refine ⟨none, rfl, fun opp => ⟨fun h => ?_, fun ⟨q, hq, _⟩ => absurd hq (hno q)⟩⟩
    cases h
  split_ifs with hedge hsmall hloss
  · apply hnone
    intro q hq
    have hpos : 0 < q := hq.largest.1.pos
    have hprofit := hq.profit
    rw [h.cost_eq hquotes hpos] at hprofit
    have hle : q * (1 - p.unitCost) ≤ 0 := mul_nonpos_of_nonneg_of_nonpos (le_of_lt hpos) hedge
    linarith
  · apply hnone
    intro q hq
    have hqty := honly q hq
    subst hqty
    rcases hsmall with hempty | hdust
    · exact absurd hq.largest.1.pos (not_lt.mpr hempty)
    · exact absurd hq.minQty (not_le.mpr hdust)
  · apply hnone
    intro q hq
    have hqty := honly q hq
    subst hqty
    exact absurd hq.profit (not_lt.mpr hloss)
  · have hpos : 0 < qty := not_le.mp fun hle => hsmall (.inl hle)
    have hmin : m.minQty ≤ qty := not_lt.mp fun hlt => hsmall (.inr hlt)
    have hstake : p.cost qty ≠ 0 := by
      rw [h.cost_eq hquotes hpos]
      exact ne_of_gt (mul_pos hpos hunit)
    have hworth : m.Worthwhile p qty :=
      ⟨(heq qty hpos).mp rfl, hmin, not_le.mp hloss⟩
    refine ⟨some (p.opportunity gid qty), ?_, fun opp => ⟨fun hopp => ?_, fun ⟨q, hq, hopp⟩ => ?_⟩⟩
    · rw [decimalDiv, if_neg hstake]
      rfl
    · exact ⟨qty, hworth, (Option.some.inj hopp).symm⟩
    · rw [hopp, honly q hq]

end OnePair

/-! ## The loops -/

variable (m) in
/-- What the turn of two legs finds. -/
def foundBy (gid : GroupId) (y n : EventGroupLeg) : Option ArbOpportunity :=
  match m.quotes.get? y.outcomeId, m.fees.get? y.venueId with
  | some yq, some yFeeModel => (m.pairUp gid y yq yFeeModel n).toOption.join
  | _, _ => none

/-- A turn of the inner loop returns. -/
theorem pairUp_eq_foundBy (h : m.Regular group) {y n : EventGroupLeg} (hy : y ∈ group.legs)
    (hn : n ∈ group.legs) {yq : Quote} {yFeeModel : FeeModel}
    (hyq : m.quotes.get? y.outcomeId = some yq) (hyf : m.fees.get? y.venueId = some yFeeModel)
    (gid : GroupId) : m.pairUp gid y yq yFeeModel n = .ok (m.foundBy gid y n) := by
  simp only [foundBy, hyq, hyf]
  by_cases hvenues : n.venueId = y.venueId
  · simp [pairUp, hvenues, Except.toOption]
  cases hnq : m.quotes.get? n.outcomeId with
  | none => simp [pairUp, hvenues, hnq, Except.toOption]
  | some nq =>
  cases hnf : m.fees.get? n.venueId with
  | none => simp [pairUp, hvenues, hnq, hnf, Except.toOption]
  | some nFeeModel =>
      obtain ⟨found, hfound, -⟩ := pairUp_eq_ok h (p := ⟨y, n, yq, nq, yFeeModel, nFeeModel⟩)
        ⟨hyq, hnq, hyf, hnf⟩ hy hn hvenues gid
      rw [hfound]
      rfl

/-- A turn finds the tickets of the eligible pairs of its two legs. -/
theorem foundBy_eq_some_iff (h : m.Regular group) {y n : EventGroupLeg} (hy : y ∈ group.legs)
    (hyes : y.isYesSide = true) (hn : n ∈ group.legs) (hno : n.isYesSide = false)
    {opp : ArbOpportunity} :
    m.foundBy group.id y n = some opp ↔
      ∃ p q, p.y = y ∧ p.n = n ∧ m.Eligible group p q ∧ opp = p.opportunity group.id q := by
  constructor
  · intro hfound
    cases hyq : m.quotes.get? y.outcomeId with
    | none => simp [foundBy, hyq] at hfound
    | some yq =>
    cases hyf : m.fees.get? y.venueId with
    | none => simp [foundBy, hyq, hyf] at hfound
    | some yFeeModel =>
        have hpair := pairUp_eq_foundBy h hy hn hyq hyf group.id
        rw [hfound] at hpair
        obtain ⟨hvenues, nq, nFeeModel, -, hnq, hnf, -⟩ := m.pairUp_eq_some hpair
        have hquotes : m.Quotes ⟨y, n, yq, nq, yFeeModel, nFeeModel⟩ := ⟨hyq, hnq, hyf, hnf⟩
        obtain ⟨found, hok, hiff⟩ := pairUp_eq_ok h hquotes hy hn hvenues group.id
        rw [hpair] at hok
        cases hok
        obtain ⟨q, hq, hopp⟩ := (hiff opp).mp rfl
        exact ⟨_, q, rfl, rfl, ⟨⟨hy, hyes⟩, ⟨hn, hno⟩, hvenues, hquotes, hq⟩, hopp⟩
  · rintro ⟨p, q, rfl, rfl, heligible, hopp⟩
    obtain ⟨found, hok, hiff⟩ := pairUp_eq_ok h heligible.quotes hy hn heligible.venues group.id
    rw [pairUp_eq_foundBy h hy hn heligible.quotes.yQuote heligible.quotes.yFeeModel] at hok
    cases hok
    exact (hiff opp).mpr ⟨q, heligible.worthwhile, hopp⟩

/-- Keeping the better of the best so far and the next is keeping the best. -/
theorem better_argmax (seen : List ArbOpportunity) (opp : ArbOpportunity) :
    better (seen.argmax ArbOpportunity.guaranteedProfit) opp =
      (seen ++ [opp]).argmax ArbOpportunity.guaranteedProfit := by
  rw [List.argmax_concat]
  cases seen.argmax ArbOpportunity.guaranteedProfit <;> rfl

/-- The inner loop. -/
theorem foldlM_noLegs (h : m.Regular group) {y : EventGroupLeg} (hy : y ∈ group.legs) {yq : Quote}
    {yFeeModel : FeeModel} (hyq : m.quotes.get? y.outcomeId = some yq)
    (hyf : m.fees.get? y.venueId = some yFeeModel) {noLegs : List EventGroupLeg}
    (hno : ∀ n ∈ noLegs, n ∈ group.legs) (gid : GroupId) (seen : List ArbOpportunity) :
    noLegs.foldlM (fun best n => do
        match ← m.pairUp gid y yq yFeeModel n with
        | none => pure best
        | some opp => pure (better best opp)) (seen.argmax ArbOpportunity.guaranteedProfit) =
      .ok ((seen ++ noLegs.filterMap (m.foundBy gid y)).argmax
        ArbOpportunity.guaranteedProfit) := by
  rw [List.filterMap_eq_flatMap_toList]
  apply KeepBest.foldlM_argmax ArbOpportunity.guaranteedProfit
    (fun n => (m.foundBy gid y n).toList) id
  intro seen n hn
  rw [pairUp_eq_foundBy h hy (hno n hn) hyq hyf]
  cases m.foundBy gid y n with
  | none =>
      rw [Option.toList_none, List.append_nil]
      rfl
  | some opp =>
      rw [Option.toList_some, ← better_argmax]
      rfl

/-- The outer loop. -/
theorem foldlM_yesLegs (h : m.Regular group) {yesLegs noLegs : List EventGroupLeg}
    (hyes : ∀ y ∈ yesLegs, y ∈ group.legs) (hno : ∀ n ∈ noLegs, n ∈ group.legs) (gid : GroupId)
    (seen : List ArbOpportunity) :
    yesLegs.foldlM (fun best y =>
        match m.quotes.get? y.outcomeId, m.fees.get? y.venueId with
        | some yq, some yFeeModel =>
            noLegs.foldlM (fun best n => do
              match ← m.pairUp gid y yq yFeeModel n with
              | none => pure best
              | some opp => pure (better best opp)) best
        | _, _ => pure best) (seen.argmax ArbOpportunity.guaranteedProfit) =
      .ok ((seen ++ yesLegs.flatMap fun y => noLegs.filterMap (m.foundBy gid y)).argmax
        ArbOpportunity.guaranteedProfit) := by
  apply KeepBest.foldlM_argmax ArbOpportunity.guaranteedProfit
    (fun y => noLegs.filterMap (m.foundBy gid y)) id
  intro seen y hy
  -- a leg without a quote or a fee model finds nothing with any other
  have hskip : (∀ n, m.foundBy gid y n = none) →
      seen ++ noLegs.filterMap (m.foundBy gid y) = seen := by
    intro hnone
    rw [List.filterMap_eq_nil_iff.mpr fun n _ => hnone n, List.append_nil]
  cases hyq : m.quotes.get? y.outcomeId with
  | none =>
      rw [hskip fun n => by simp [foundBy, hyq]]
      rfl
  | some yq =>
  cases hyf : m.fees.get? y.venueId with
  | none =>
      rw [hskip fun n => by simp [foundBy, hyq, hyf]]
      rfl
  | some yFeeModel => exact foldlM_noLegs h (hyes y hy) hyq hyf hno gid seen

/-- What the turns of both loops find. -/
def foundIn (m : Market) (group : EventGroup) : List ArbOpportunity :=
  (group.legs.filter fun leg => leg.isYesSide).flatMap fun y =>
    (group.legs.filter fun leg => !leg.isYesSide).filterMap (m.foundBy group.id y)

/-- **The detector keeps the best of what its turns find.** -/
theorem detect_eq_argmax (h : m.Regular group) :
    m.detectCrossVenueTwoLeg group =
      .ok ((m.foundIn group).argmax ArbOpportunity.guaranteedProfit) := by
  unfold detectCrossVenueTwoLeg foundIn
  by_cases hlegs : group.legs.filter (fun leg => leg.isYesSide) = [] ∨
      group.legs.filter (fun leg => !leg.isYesSide) = []
  · rw [if_pos hlegs]
    rcases hlegs with hyes | hno
    · rw [hyes]
      rfl
    · rw [hno, List.flatMap_eq_nil_iff.mpr fun _ _ => List.filterMap_nil]
      rfl
  · rw [if_neg hlegs]
    exact foldlM_yesLegs h (fun y hy => (List.mem_filter.mp hy).1)
      (fun n hn => (List.mem_filter.mp hn).1) group.id []

theorem mem_foundIn_iff (h : m.Regular group) {opp : ArbOpportunity} :
    opp ∈ m.foundIn group ↔ ∃ p q, m.Eligible group p q ∧ opp = p.opportunity group.id q := by
  rw [foundIn, List.mem_flatMap]
  constructor
  · rintro ⟨y, hy, hopp⟩
    obtain ⟨n, hn, hfound⟩ := List.mem_filterMap.mp hopp
    obtain ⟨hy, hyes⟩ := List.mem_filter.mp hy
    obtain ⟨hn, hno⟩ := List.mem_filter.mp hn
    obtain ⟨p, q, -, -, heligible, hopp⟩ :=
      (foundBy_eq_some_iff h hy hyes hn (by simpa using hno)).mp hfound
    exact ⟨p, q, heligible, hopp⟩
  · rintro ⟨p, q, heligible, hopp⟩
    obtain ⟨hy, hyes⟩ := heligible.yes
    obtain ⟨hn, hno⟩ := heligible.no
    refine ⟨p.y, List.mem_filter.mpr ⟨hy, hyes⟩, List.mem_filterMap.mpr
      ⟨p.n, List.mem_filter.mpr ⟨hn, by simp [hno]⟩, ?_⟩⟩
    exact (foundBy_eq_some_iff h hy hyes hn hno).mpr ⟨p, q, rfl, rfl, heligible, hopp⟩

/-- **Soundness and optimality of the cross-venue detector.** It returns an
opportunity exactly if some pair is eligible; that opportunity buys the largest
quantity that fits of both legs of an eligible pair, for the stake and the
profit that quantity has; and no eligible pair has a larger profit. -/
theorem detectCrossVenueTwoLeg_optimal (m : Market) (group : EventGroup) (h : m.Regular group) :
    ∃ found, m.detectCrossVenueTwoLeg group = .ok found ∧
      ((∃ opp, found = some opp) ↔ ∃ p q, m.Eligible group p q) ∧
      ∀ opp, found = some opp →
        (∃ p q, m.Eligible group p q ∧
          opp.legs = [buyLeg p.y p.yQuote p.yFeeModel q, buyLeg p.n p.nQuote p.nFeeModel q] ∧
          opp.totalStake = p.cost q ∧ opp.guaranteedProfit = q - opp.totalStake) ∧
        (∀ stake ∈ m.maxTicketStake, opp.totalStake ≤ stake) ∧
        ∀ p q, m.Eligible group p q → q - p.cost q ≤ opp.guaranteedProfit := by
  refine ⟨_, detect_eq_argmax h, ⟨fun ⟨opp, hopp⟩ => ?_, fun ⟨p, q, heligible⟩ => ?_⟩,
    fun opp hopp => ?_⟩
  · obtain ⟨p, q, heligible, -⟩ := (mem_foundIn_iff h).mp (List.argmax_mem hopp)
    exact ⟨p, q, heligible⟩
  · have hmem := (mem_foundIn_iff h).mpr ⟨p, q, heligible, rfl⟩
    by_contra hnone
    have hnil : m.foundIn group = [] := by
      rw [← List.argmax_eq_none (f := ArbOpportunity.guaranteedProfit),
        Option.eq_none_iff_forall_ne_some]
      exact fun opp hopp => hnone ⟨opp, hopp⟩
    rw [hnil] at hmem
    cases hmem
  · obtain ⟨p, q, heligible, rfl⟩ := (mem_foundIn_iff h).mp (List.argmax_mem hopp)
    refine ⟨⟨p, q, heligible, rfl, rfl, rfl⟩, ?_, fun p' q' heligible' => ?_⟩
    · exact heligible.worthwhile.largest.1.budget
    · have hmem := (mem_foundIn_iff h).mpr ⟨p', q', heligible', rfl⟩
      exact List.le_of_mem_argmax (f := ArbOpportunity.guaranteedProfit) hmem hopp

end Detector

/-! ### Two YES legs against one NO leg -/

namespace ThreeVenues

/-- A quote with `size` contracts offered at `ask`. -/
def quote (o : OutcomeId) (ask size : ℚ) (h0 : 0 ≤ ask) (h1 : ask ≤ 1) : Quote :=
  { outcomeId := o, bid := 0, ask := ask, askSize := some size
    bid_nonneg := le_refl 0, ask_le_one := h1, bid_le_ask := h0 }

/-- The cheaper YES is the thinner one. -/
def market : Market where
  quotes := Dict.ofList [
    ("p-yes", quote "p-yes" (43 / 100) 100 (by norm_num) (by norm_num)),
    ("n-yes", quote "n-yes" (42 / 100) 10 (by norm_num) (by norm_num)),
    ("k-no", quote "k-no" (49 / 100) 100 (by norm_num) (by norm_num))]
  fees := Dict.ofList [("polymarket_us", .polymarketUs), ("novig", .novig), ("kalshi", .kalshi)]
  maxTicketStake := some 200

def group : EventGroup where
  id := "eg-1"
  legs := [⟨"p-yes", "polymarket_us", true⟩, ⟨"n-yes", "novig", true⟩, ⟨"k-no", "kalshi", false⟩]

theorem regular : market.Regular group where
  linear v feeModel h := by
    have hmem : (v, feeModel) ∈ [("polymarket_us", FeeModel.polymarketUs), ("novig", .novig),
        ("kalshi", .kalshi)] := Dict.mem_entries_iff.mpr h
    simp only [List.mem_cons, List.not_mem_nil, or_false, Prod.mk.injEq] at hmem
    rcases hmem with ⟨-, rfl⟩ | ⟨-, rfl⟩ | ⟨-, rfl⟩ <;> exact FeeModel.taker_linear _ _
  unitCost_pos leg hleg quote feeModel hquote hfee := by
    simp only [group, List.mem_cons, List.not_mem_nil, or_false] at hleg
    rcases hleg with rfl | rfl | rfl <;> cases hquote <;> cases hfee <;> decide +kernel
  stake_pos stake h := by
    cases h
    norm_num
  tick_pos v tick h := by cases h

end ThreeVenues

theorem detectCrossVenueTwoLeg_optimal_threeVenues :
    ∃ found, ThreeVenues.market.detectCrossVenueTwoLeg ThreeVenues.group = .ok found ∧
      ((∃ opp, found = some opp) ↔
        ∃ p q, ThreeVenues.market.Eligible ThreeVenues.group p q) ∧
      ∀ opp, found = some opp →
        (∃ p q, ThreeVenues.market.Eligible ThreeVenues.group p q ∧
          opp.legs = [buyLeg p.y p.yQuote p.yFeeModel q, buyLeg p.n p.nQuote p.nFeeModel q] ∧
          opp.totalStake = p.cost q ∧ opp.guaranteedProfit = q - opp.totalStake) ∧
        (∀ stake ∈ ThreeVenues.market.maxTicketStake, opp.totalStake ≤ stake) ∧
        ∀ p q, ThreeVenues.market.Eligible ThreeVenues.group p q →
          q - p.cost q ≤ opp.guaranteedProfit :=
  detectCrossVenueTwoLeg_optimal ThreeVenues.market ThreeVenues.group ThreeVenues.regular

end Market

end Arbys
