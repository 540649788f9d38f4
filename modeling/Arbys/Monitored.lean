import Mathlib.Data.List.MinMax
import Mathlib.Data.Prod.Lex
import Arbys.TwoLegTicket

/-!
# The monitored view of a group

`_rank_pairs` and the pairs that `GET /monitored` builds for one group in
`backend/app.py`. The view prices and sizes every pair of legs and ranks them
afterwards; `detect_cross_venue_two_leg` drops pairs on the way and keeps the
best so far. With fee models that are linear in quantity both describe the
same trade (`rankPairs_eq_detected`).
-/

namespace Arbys

/-- `_PairCandidate`. -/
structure PairCandidate where
  netEdge : ℚ
  qty : ℚ
  /-- What the book alone would allow; `none` when neither leg reported depth. -/
  uncappedQty : Option ℚ
  unitCost : ℚ
  yesOutcomeId : OutcomeId
  noOutcomeId : OutcomeId
  deriving DecidableEq

namespace PairCandidate

/-- Net absolute profit. -/
def profit (c : PairCandidate) : ℚ := c.netEdge * c.qty

/-- An arbitrage that could be filled. -/
def Fillable (minQty : ℚ) (c : PairCandidate) : Prop :=
  0 < c.netEdge ∧ 0 < c.qty ∧ minQty ≤ c.qty

instance (minQty : ℚ) (c : PairCandidate) : Decidable (c.Fillable minQty) :=
  inferInstanceAs (Decidable (_ ∧ _ ∧ _))

end PairCandidate

/-- `_rank_pairs`: the most profitable of the fillable pairs, or else the
best-priced one, known-empty pairs last. `max` keeps the first of equals. -/
def rankPairs (candidates : List PairCandidate) (minQty : ℚ) : Option PairCandidate :=
  let fillable := candidates.filter fun c => c.Fillable minQty
  if fillable ≠ [] then fillable.argmax PairCandidate.profit
  else candidates.argmax fun c => toLex (decide (0 < c.qty), c.netEdge)

namespace Market

variable (m : Market)

/-- The body of the inner loop of `list_monitored`: the candidate of one YES
leg, already quoted, and one NO leg. -/
def candidate (y : EventGroupLeg) (yq : Quote) (yFeeModel : FeeModel) (n : EventGroupLeg) :
    Option PairCandidate :=
  if n.venueId = y.venueId then none
  else
    match m.quotes.get? n.outcomeId, m.fees.get? n.venueId with
    | some nq, some nFeeModel =>
        let yUnit := legUnitCost yq.ask yFeeModel true
        let nUnit := legUnitCost nq.ask nFeeModel true
        let depths := [yq.askSize, nq.askSize]
        some {
          netEdge := netEdgePerContract [yUnit, nUnit]
          qty := tradeableQty (yUnit + nUnit) depths m.maxTicketStake defaultQtyTick
          -- what the books would fill, whatever a ticket may stake
          uncappedQty :=
            if depths.any Option.isSome then
              some (tradeableQty (yUnit + nUnit) depths none defaultQtyTick)
            else none
          unitCost := yUnit + nUnit
          yesOutcomeId := y.outcomeId
          noOutcomeId := n.outcomeId }
    | _, _ => none

/-- The candidates of one YES leg. -/
def candidatesOf (noLegs : List EventGroupLeg) (y : EventGroupLeg) : List PairCandidate :=
  match m.quotes.get? y.outcomeId, m.fees.get? y.venueId with
  | some yq, some yFeeModel => noLegs.filterMap (m.candidate y yq yFeeModel)
  | _, _ => []

/-- The candidates of `list_monitored` for a group. -/
def monitoredPairs (group : EventGroup) : List PairCandidate :=
  (group.legs.filter fun leg => leg.isYesSide).flatMap
    (m.candidatesOf (group.legs.filter fun leg => !leg.isYesSide))

/-! ## One pair -/

/-- The opportunity is the candidate's trade: the same two outcomes, quantity
and profit. -/
structure Describes (opp : ArbOpportunity) (c : PairCandidate) : Prop where
  legs : ∃ y n, opp.legs = [y, n] ∧ y.outcomeId = c.yesOutcomeId ∧
    n.outcomeId = c.noOutcomeId ∧ y.qty = c.qty ∧ n.qty = c.qty
  guaranteedProfit : opp.guaranteedProfit = c.profit

/-- With linear fees the profit is the edge of one contract times their
number. -/
theorem profit_eq {yFeeModel nFeeModel : FeeModel} (hy : yFeeModel.Linear)
    (hn : nFeeModel.Linear) {qty : ℚ} (hqty : 0 < qty) (yAsk nAsk : ℚ) :
    qty - (yAsk * qty + nAsk * qty + yFeeModel.fee yAsk qty true + nFeeModel.fee nAsk qty true) =
      netEdgePerContract [legUnitCost yAsk yFeeModel true, legUnitCost nAsk nFeeModel true] *
        qty := by
  rw [hy yAsk qty true hqty, hn nAsk qty true hqty]
  simp only [netEdgePerContract, legUnitCost, List.sum_cons, List.sum_nil]
  ring

/-- **One pair**: the detector finds an opportunity where the candidate is
fillable, and the two are one trade. -/
theorem related_pairUp (hlinear : ∀ v f, m.fees.get? v = some f → f.Linear)
    (htick : ∀ v, m.tick v = defaultQtyTick) {gid : GroupId} {y n : EventGroupLeg} {yq : Quote}
    {yFeeModel : FeeModel} (hyf : m.fees.get? y.venueId = some yFeeModel)
    {found : Option ArbOpportunity} (h : m.pairUp gid y yq yFeeModel n = .ok found) :
    Option.Rel Describes found
      ((m.candidate y yq yFeeModel n).filter fun c => c.Fillable m.minQty) := by
  unfold pairUp at h
  unfold candidate
  by_cases hvenue : n.venueId = y.venueId
  · rw [if_pos hvenue] at h ⊢
    cases h
    exact .none
  rw [if_neg hvenue] at h ⊢
  cases hnq : m.quotes.get? n.outcomeId with
  | none => rw [hnq] at h; cases h; exact .none
  | some nq =>
  cases hnf : m.fees.get? n.venueId with
  | none => rw [hnq, hnf] at h; cases h; exact .none
  | some nFeeModel =>
      simp only [hnq, hnf, htick, max_self] at h ⊢
      generalize hqty : tradeableQty _ _ _ _ = qty at h ⊢
      have hprofit := fun hpos : 0 < qty => profit_eq (hlinear _ _ hyf) (hlinear _ _ hnf) hpos
        yq.ask nq.ask
      generalize netEdgePerContract _ = edge at h hprofit ⊢
      split_ifs at h with hedge hsize hloss
      · cases h
        rw [Option.filter_some, if_neg]
        · exact .none
        · rw [decide_eq_true_eq]
          exact fun hfill => hedge.not_gt hfill.1
      · cases h
        rw [Option.filter_some, if_neg]
        · exact .none
        · rw [decide_eq_true_eq]
          intro hfill
          rcases hsize with hempty | hdust
          · exact hempty.not_gt hfill.2.1
          · exact hdust.not_ge hfill.2.2
      all_goals
        have hpos : 0 < qty := not_le.mp fun hle => hsize (.inl hle)
        have hmin : m.minQty ≤ qty := not_lt.mp fun hlt => hsize (.inr hlt)
        have hedge : 0 < edge := not_le.mp hedge
      · -- a fillable pair has a profit
        rw [hprofit hpos] at hloss
        exact absurd (mul_pos hedge hpos) (not_lt.mpr hloss)
      · generalize decimalDiv _ _ = ratio at h
        cases ratio with
        | error e => cases h
        | ok ratio =>
            cases h
            rw [Option.filter_some, if_pos]
            · exact .some ⟨⟨_, _, rfl, rfl, rfl, rfl, rfl⟩, hprofit hpos⟩
            · exact decide_eq_true ⟨hedge, hpos, hmin⟩

/-! ## The loops -/

/-- The best opportunity so far is the best fillable candidate so far. -/
def Best (best : Option ArbOpportunity) (seen : List PairCandidate) : Prop :=
  Option.Rel Describes best
    ((seen.filter fun c => c.Fillable m.minQty).argmax PairCandidate.profit)

variable {m}

/-- One more pair. -/
theorem Best.step {best found : Option ArbOpportunity} {seen : List PairCandidate}
    {c : Option PairCandidate} (h : m.Best best seen)
    (hpair : Option.Rel Describes found (c.filter fun c => c.Fillable m.minQty)) :
    m.Best (found.elim best (better best)) (seen ++ c.toList) := by
  unfold Best at h ⊢
  have hfilter : (seen ++ c.toList).filter (fun c => c.Fillable m.minQty) =
      seen.filter (fun c => c.Fillable m.minQty) ++
        (c.filter fun c => c.Fillable m.minQty).toList := by
    rw [List.filter_append]
    congr 1
    cases c with
    | none => rfl
    | some c => by_cases hc : c.Fillable m.minQty <;> simp [Option.filter, hc]
  rw [hfilter]
  generalize (c.filter fun c => c.Fillable m.minQty) = kept at hpair ⊢
  cases hpair with
  | none => simpa using h
  | some hdescribes =>
      rename_i opp c
      rw [Option.toList_some, List.argmax_concat]
      generalize (seen.filter fun c => c.Fillable m.minQty).argmax PairCandidate.profit = top
        at h ⊢
      cases h with
      | none => exact .some hdescribes
      | some hbest =>
          rename_i b t
          simp only [Option.elim_some, better, hbest.guaranteedProfit, hdescribes.guaranteedProfit]
          by_cases hlt : t.profit < c.profit
          · rw [if_pos hlt, if_pos hlt]
            exact .some hdescribes
          · rw [if_neg hlt, if_neg hlt]
            exact .some hbest

section Loops

variable (hlinear : ∀ v f, m.fees.get? v = some f → f.Linear)
  (htick : ∀ v, m.tick v = defaultQtyTick)

include hlinear htick

/-- The inner loop. -/
theorem best_of_noLegs {gid : GroupId} {y : EventGroupLeg} {yq : Quote} {yFeeModel : FeeModel}
    (hyf : m.fees.get? y.venueId = some yFeeModel) {noLegs : List EventGroupLeg}
    {best best' : Option ArbOpportunity} {seen : List PairCandidate} (h : m.Best best seen)
    (hloop : noLegs.foldlM (fun best n => do
        match ← m.pairUp gid y yq yFeeModel n with
        | none => pure best
        | some opp => pure (better best opp)) best = .ok best') :
    m.Best best' (seen ++ noLegs.filterMap (m.candidate y yq yFeeModel)) := by
  induction noLegs generalizing best seen with
  | nil =>
      cases hloop
      simpa using h
  | cons n noLegs ih =>
      rw [List.foldlM_cons] at hloop
      cases hp : m.pairUp gid y yq yFeeModel n with
      | error e => rw [hp] at hloop; cases hloop
      | ok found =>
          have hstep := h.step (m.related_pairUp hlinear htick hyf hp)
          have hcons : seen ++ (n :: noLegs).filterMap (m.candidate y yq yFeeModel) =
              (seen ++ (m.candidate y yq yFeeModel n).toList) ++
                noLegs.filterMap (m.candidate y yq yFeeModel) := by
            rw [List.filterMap_cons, List.append_assoc]
            cases m.candidate y yq yFeeModel n <;> rfl
          rw [hcons]
          rw [hp] at hloop
          cases found with
          | none => exact ih hstep hloop
          | some opp => exact ih hstep hloop

/-- The outer loop. -/
theorem best_of_yesLegs {gid : GroupId} {noLegs yesLegs : List EventGroupLeg}
    {best best' : Option ArbOpportunity} {seen : List PairCandidate} (h : m.Best best seen)
    (hloop : yesLegs.foldlM (fun best y =>
        match m.quotes.get? y.outcomeId, m.fees.get? y.venueId with
        | some yq, some yFeeModel =>
            noLegs.foldlM (fun best n => do
              match ← m.pairUp gid y yq yFeeModel n with
              | none => pure best
              | some opp => pure (better best opp)) best
        | _, _ => pure best) best = .ok best') :
    m.Best best' (seen ++ yesLegs.flatMap (m.candidatesOf noLegs)) := by
  induction yesLegs generalizing best seen with
  | nil =>
      cases hloop
      simpa using h
  | cons y yesLegs ih =>
      rw [List.foldlM_cons] at hloop
      rw [List.flatMap_cons, ← List.append_assoc]
      unfold candidatesOf
      -- a YES leg without a quote or a fee model makes no candidate
      cases hyq : m.quotes.get? y.outcomeId with
      | none =>
          rw [hyq] at hloop
          exact ih (by simpa using h) hloop
      | some yq =>
      cases hyf : m.fees.get? y.venueId with
      | none =>
          rw [hyq, hyf] at hloop
          exact ih (by simpa using h) hloop
      | some yFeeModel =>
          simp only [hyq, hyf] at hloop
          cases hinner : noLegs.foldlM (fun best n => do
              match ← m.pairUp gid y yq yFeeModel n with
              | none => pure best
              | some opp => pure (better best opp)) best with
          | error e => rw [hinner] at hloop; cases hloop
          | ok next =>
              rw [hinner] at hloop
              exact ih (best_of_noLegs hlinear htick hyf h hinner) hloop

/-- What the detector returns is the best fillable candidate. -/
theorem best_of_detect {group : EventGroup} {found : Option ArbOpportunity}
    (h : m.detectCrossVenueTwoLeg group = .ok found) : m.Best found (m.monitoredPairs group) := by
  unfold detectCrossVenueTwoLeg at h
  unfold monitoredPairs
  by_cases hlegs : group.legs.filter (fun leg => leg.isYesSide) = [] ∨
      group.legs.filter (fun leg => !leg.isYesSide) = []
  · rw [if_pos hlegs] at h
    cases h
    -- without a leg on either side there is no pair
    have hnone : (group.legs.filter fun leg => leg.isYesSide).flatMap
        (m.candidatesOf (group.legs.filter fun leg => !leg.isYesSide)) = [] := by
      rcases hlegs with hyes | hno
      · rw [hyes, List.flatMap_nil]
      · rw [hno, List.flatMap_eq_nil_iff]
        intro y _
        unfold candidatesOf
        split <;> rfl
    rw [hnone]
    exact .none
  · rw [if_neg hlegs] at h
    have hnone : m.Best none [] := .none
    simpa using best_of_yesLegs hlinear htick hnone h

end Loops

/-- **The detector and the monitored view describe the same trade.** What the
detector returns is the pair ranked first, and where it returns nothing the
pair ranked first could not be filled. -/
theorem rankPairs_eq_detected (m : Market) (group : EventGroup)
    (hlinear : ∀ v f, m.fees.get? v = some f → f.Linear)
    (htick : ∀ v, m.tick v = defaultQtyTick) :
    (∀ opp, m.detectCrossVenueTwoLeg group = .ok (some opp) →
      ∃ first y n, rankPairs (m.monitoredPairs group) m.minQty = some first ∧
        opp.legs = [y, n] ∧ y.outcomeId = first.yesOutcomeId ∧ n.outcomeId = first.noOutcomeId ∧
        y.qty = first.qty ∧ n.qty = first.qty ∧
        first.netEdge * first.qty = opp.guaranteedProfit) ∧
    (m.detectCrossVenueTwoLeg group = .ok none →
      ∀ first, rankPairs (m.monitoredPairs group) m.minQty = some first →
        ¬ first.Fillable m.minQty) := by
  constructor
  · intro opp h
    have hbest := best_of_detect hlinear htick h
    unfold Best at hbest
    unfold rankPairs
    generalize (m.monitoredPairs group).filter (fun c => c.Fillable m.minQty) = fillable
      at hbest ⊢
    generalize htop : fillable.argmax PairCandidate.profit = top at hbest ⊢
    cases hbest with
    | some hdescribes =>
        rename_i first
        obtain ⟨y, n, hlegs, hyes, hno, hyqty, hnqty⟩ := hdescribes.legs
        have hne : fillable ≠ [] := List.ne_nil_of_mem (List.argmax_mem htop)
        exact ⟨first, y, n, by rw [if_pos hne, htop], hlegs, hyes, hno, hyqty, hnqty,
          hdescribes.guaranteedProfit.symm⟩
  · intro h first hfirst hfill
    have hbest := best_of_detect hlinear htick h
    unfold Best at hbest
    -- the best of none is none, so no candidate was fillable
    have hnone : (m.monitoredPairs group).filter (fun c => c.Fillable m.minQty) = [] := by
      rw [← List.argmax_eq_none (f := PairCandidate.profit)]
      generalize ((m.monitoredPairs group).filter fun c => c.Fillable m.minQty).argmax
        PairCandidate.profit = top at hbest
      cases hbest
      rfl
    have hmem : first ∈ m.monitoredPairs group := by
      unfold rankPairs at hfirst
      rw [hnone] at hfirst
      exact List.argmax_mem hfirst
    have hkept : first ∈ (m.monitoredPairs group).filter fun c => c.Fillable m.minQty :=
      List.mem_filter.mpr ⟨hmem, decide_eq_true hfill⟩
    rw [hnone] at hkept
    cases hkept

theorem rankPairs_eq_detected_twoVenues :
    ∃ first y n, rankPairs (TwoVenues.market.monitoredPairs TwoVenues.group) 0 = some first ∧
      TwoVenues.opportunity.legs = [y, n] ∧ y.outcomeId = first.yesOutcomeId ∧
      n.outcomeId = first.noOutcomeId ∧ y.qty = first.qty ∧ n.qty = first.qty ∧
      first.netEdge * first.qty = TwoVenues.opportunity.guaranteedProfit := by
  have hlinear : ∀ v f, TwoVenues.market.fees.get? v = some f → f.Linear := by
    intro v f hf
    have hmem : (v, f) ∈ [("polymarket_us", FeeModel.polymarketUs), ("kalshi", .kalshi)] :=
      Dict.mem_entries_iff.mpr hf
    rcases List.mem_pair.mp hmem with he | he <;> cases he
    · exact FeeModel.taker_linear _ _
    · exact FeeModel.taker_linear _ _
  exact (rankPairs_eq_detected TwoVenues.market TwoVenues.group hlinear fun _ => rfl).1
    TwoVenues.opportunity (by decide +kernel)

end Market

end Arbys
