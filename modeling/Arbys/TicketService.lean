import Mathlib.Algebra.Order.BigOperators.Group.List
import Arbys.AppState

/-!
# Submitting an arb ticket

`backend/ticket_service.py` up to the `pending` write. Every check of
`submit_arb_ticket` and `_submit_checked` runs in one stretch, so together
they are one function, `admission`, of the state at the call.
`submit_arb_ticket_for_descriptor` and the auto-trader reach
`submit_arb_ticket` without an await and choose only which opportunity it is
called with.
-/

namespace Arbys

inductive TicketStatus where
  | pending
  | filled
  | rejected
  | missed
  deriving DecidableEq

/-- Why a ticket did not fill, with the figures its text carries. -/
inductive TicketReason where
  | draining (eventGroupId : GroupId)
  | alreadySettled (eventGroupId : GroupId)
  | startsTooFarOut (eventGroupId : GroupId) (daysAhead limitDays : ℚ)
  | edgeNoLongerAvailable (eventGroupId : GroupId)
  | implausibleEdge (eventGroupId : GroupId) (edge ceiling total : ℚ) (buyLegs : ℕ)
  | staleLegSkew (skew limit : ℚ) (ages : List (OutcomeId × ℚ))
  | positionCap (eventGroupId : GroupId) (cap held adds : ℚ)
  | insufficientLegs (error : InsufficientLegsError)
  deriving DecidableEq

/-! ## The checks -/

/-- `_buy_legs`. -/
def buyLegs (opp : ArbOpportunity) : List OutcomeId :=
  (opp.legs.filter fun leg => leg.isBuy).map (·.outcomeId)

/-- Equality of two `_buy_legs`, which are sets. -/
def sameBuys (opp opp' : ArbOpportunity) : Bool :=
  (buyLegs opp).all (· ∈ buyLegs opp') && (buyLegs opp').all (· ∈ buyLegs opp)

/-- `_match_live`: the same edge at live prices. -/
def matchLive (s : AppState) (now : ℚ) (opp : ArbOpportunity) :
    Except DecimalError (Option ArbOpportunity) := do
  let candidates ← s.liveOpportunitiesFor now opp.eventGroupId
  pure (candidates.find? fun candidate =>
    decide (candidate.eventGroupId = opp.eventGroupId) && sameBuys candidate opp)

/-- `starts_too_far_out`. -/
def startsTooFarOut (cfg : Settings) (s : AppState) (utc : ℚ) (opp : ArbOpportunity) :
    Option TicketReason :=
  match cfg.maxDaysToStart, (s.eventGroups.get? (baseId opp.eventGroupId)).bind (·.startTime) with
  | some limitDays, some start =>
      let daysAhead := (start - utc) / 86400
      if daysAhead ≤ limitDays then none
      else some (.startsTooFarOut opp.eventGroupId daysAhead limitDays)
  | _, _ => none

/-- `implausible_edge`: gross of fees. -/
def implausibleEdge (cfg : Settings) (live : ArbOpportunity) : Option TicketReason :=
  match cfg.maxPlausibleEdge with
  | none => none
  | some ceiling =>
      let costs := (live.legs.filter fun leg => leg.isBuy).map (·.price)
      let edge := netEdgePerContract costs
      if edge ≤ ceiling then none
      else some (.implausibleEdge live.eventGroupId edge ceiling costs.sum costs.length)

/-- The ages of the bought legs' quotes, or `none` when one has no quote. -/
def legAges (book : QuoteBook) (now : ℚ) : List ArbLeg → Dict OutcomeId ℚ →
    Option (Dict OutcomeId ℚ)
  | [], ages => some ages
  | leg :: legs, ages =>
      if leg.isBuy then
        match book.getWithAge now leg.outcomeId with
        | none => none
        | some (_, age) => legAges book now legs (ages.set leg.outcomeId age)
      else legAges book now legs ages

/-- `stale_leg_skew`: the legs' quotes must be of one moment. -/
def staleLegSkew (cfg : Settings) (s : AppState) (now : ℚ) (live : ArbOpportunity) :
    Option TicketReason :=
  match cfg.maxLegAgeSkewS with
  | none => none
  | some limit =>
      match legAges s.book now live.legs Dict.empty with
      | none => none
      | some ages =>
          match ages.values.max?, ages.values.min? with
          | some oldest, some youngest =>
              if ages.values.length < 2 ∨ oldest - youngest ≤ limit then none
              else some (.staleLegSkew (oldest - youngest) limit ages.entries)
          | _, _ => none

/-- `_group_outcomes`: of the registered group, or of the ticket. -/
def groupOutcomes (s : AppState) (live : ArbOpportunity) : List OutcomeId :=
  match s.eventGroups.get? (baseId live.eventGroupId) with
  | some group => group.legs.map (·.outcomeId)
  | none => live.legs.map (·.outcomeId)

/-- The cost basis one broker holds on a set of outcomes. -/
def PaperExecutionAdapter.heldOn (a : PaperExecutionAdapter) (acct : AccountId)
    (outcomes : List OutcomeId) : ℚ :=
  (((a.accountSnapshot acct).2.filter fun e => e.1 ∈ outcomes).map fun e => e.2.1 * e.2.2.1).sum

/-- The cost basis an account holds on a set of outcomes, over all brokers. -/
def Brokers.heldOn (b : Brokers) (acct : AccountId) (outcomes : List OutcomeId) : ℚ :=
  b.total fun a => a.heldOn acct outcomes

/-- `cap_breach`. -/
def capBreach (cfg : Settings) (s : AppState) (live : ArbOpportunity) (acct : AccountId) :
    Option TicketReason :=
  match cfg.maxOutcomeStake with
  | none => none
  | some cap =>
      let held := s.brokers.heldOn acct (groupOutcomes s live)
      if cap < held + live.totalStake then
        some (.positionCap live.eventGroupId cap held live.totalStake)
      else none

/-! ## Admission -/

/-- What the checks make of a call. -/
inductive Admission where
  | refused (status : TicketStatus) (reason : TicketReason)
  | raised (error : DecimalError)
  | admitted (live : ArbOpportunity)
  deriving DecidableEq

/-- `submit_arb_ticket` and `_submit_checked` up to the `pending` write. -/
def admission (cfg : Settings) (s : AppState) (t : Instant) (opp : ArbOpportunity)
    (acct : AccountId) : Admission :=
  if s.draining then .refused .rejected (.draining opp.eventGroupId)
  else if s.autoSettle.isSettled opp.eventGroupId then
    .refused .rejected (.alreadySettled opp.eventGroupId)
  else
    match startsTooFarOut cfg s t.utc opp with
    | some reason => .refused .rejected reason
    | none =>
        match matchLive s t.now opp with
        | .error error => .raised error
        | .ok none => .refused .missed (.edgeNoLongerAvailable opp.eventGroupId)
        | .ok (some live) =>
            match implausibleEdge cfg live with
            | some reason => .refused .rejected reason
            | none =>
                match staleLegSkew cfg s t.now live with
                | some reason => .refused .rejected reason
                | none =>
                    match capBreach cfg s live acct with
                    | some reason => .refused .rejected reason
                    | none => .admitted live

section Admission

variable {cfg : Settings} {s : AppState} {t : Instant} {opp live : ArbOpportunity}
  {acct : AccountId}

/-- What an admitted ticket has passed. -/
structure Admitted (cfg : Settings) (s : AppState) (t : Instant) (opp : ArbOpportunity)
    (acct : AccountId) (live : ArbOpportunity) : Prop where
  notSettled : s.autoSettle.isSettled opp.eventGroupId = false
  candidates : ∃ found, s.liveOpportunitiesFor t.now opp.eventGroupId = .ok found ∧ live ∈ found
  eventGroupId : live.eventGroupId = opp.eventGroupId
  buys : sameBuys live opp = true
  edge_le : implausibleEdge cfg live = none
  fresh : staleLegSkew cfg s t.now live = none
  capped : capBreach cfg s live acct = none

/-- The candidate that takes the place of an opportunity. -/
theorem of_matchLive (h : matchLive s t.now opp = .ok (some live)) :
    (∃ found, s.liveOpportunitiesFor t.now opp.eventGroupId = .ok found ∧ live ∈ found) ∧
      live.eventGroupId = opp.eventGroupId ∧ sameBuys live opp = true := by
  unfold matchLive at h
  cases hl : s.liveOpportunitiesFor t.now opp.eventGroupId with
  | error error => rw [hl] at h; cases h
  | ok candidates =>
      rw [hl] at h
      have hfind : candidates.find? (fun candidate =>
          decide (candidate.eventGroupId = opp.eventGroupId) && sameBuys candidate opp) =
            some live := Except.ok.inj h
      have hsome := List.find?_some hfind
      simp only [Bool.and_eq_true, decide_eq_true_eq] at hsome
      exact ⟨⟨candidates, rfl, List.mem_of_find?_eq_some hfind⟩, hsome⟩

/-- **The admission, inverted.** -/
theorem admitted_of_admission (h : admission cfg s t opp acct = .admitted live) :
    Admitted cfg s t opp acct live := by
  unfold admission at h
  -- what does not refuse is what an admitted ticket has passed, in this order
  split at h
  · cases h
  split at h
  · cases h
  rename_i hsettled
  split at h
  · cases h
  cases hm : matchLive s t.now opp with
  | error error => rw [hm] at h; cases h
  | ok found =>
      rw [hm] at h
      cases found with
      | none => cases h
      | some found =>
          simp only at h
          split at h
          · cases h
          rename_i himpl
          split at h
          · cases h
          rename_i hskew
          split at h
          · cases h
          rename_i hcap
          cases h
          obtain ⟨hcandidates, hgroup, hbuys⟩ := of_matchLive hm
          exact ⟨Bool.not_eq_true _ ▸ hsettled, hcandidates, hgroup, hbuys, himpl, hskew, hcap⟩

/-- The live edge buys what the published one does. -/
theorem Admitted.buyLegs_iff (h : Admitted cfg s t opp acct live) (o : OutcomeId) :
    o ∈ buyLegs live ↔ o ∈ buyLegs opp := by
  have hb := h.buys
  simp only [sameBuys, Bool.and_eq_true, List.all_eq_true, decide_eq_true_eq] at hb
  exact ⟨hb.1 o, hb.2 o⟩

/-- **What is admitted**: buys, each at the ask of a stored quote, and a stake
that is what they cost. -/
theorem Admitted.legs (h : Admitted cfg s t opp acct live) :
    (∀ leg ∈ live.legs, leg.isBuy = true ∧ 0 < leg.qty ∧
      ∃ quote at_, s.book.quotes.get? leg.outcomeId = some (quote, at_) ∧
        leg.price = quote.ask) ∧
    (s.engine.fees.Nonneg →
      (live.legs.map fun leg => leg.qty * leg.price).sum ≤ live.totalStake) := by
  obtain ⟨found, hfound, hmem⟩ := h.candidates
  obtain ⟨group, _, hquoted⟩ := EngineRuntime.quoted_of_evaluateNow hfound hmem
  constructor
  · intro leg hleg
    obtain ⟨hpos, of, quote, feeModel, hbuys⟩ := hquoted.legs leg hleg
    obtain ⟨at_, hat⟩ := EngineRuntime.entry_of_liveQuotes 0 group.legs
      (fun o q hq => by cases hq) hbuys.quoted
    exact ⟨hbuys.isBuy, hpos, quote, at_, hat, hbuys.price⟩
  · intro hfees
    rw [hquoted.totalStake]
    refine List.sum_le_sum fun leg hleg => ?_
    obtain ⟨_, of, quote, feeModel, hbuys⟩ := hquoted.legs leg hleg
    have hfee : 0 ≤ leg.fee := by
      rw [hbuys.fee]
      exact hfees _ _ hbuys.feeModel _ _ _ quote.ask_nonneg quote.ask_le_one
    linarith [mul_comm leg.qty leg.price]

/-- What is admitted has legs. -/
theorem Admitted.legs_ne_nil (h : Admitted cfg s t opp acct live) : live.legs ≠ [] := by
  obtain ⟨found, hfound, hmem⟩ := h.candidates
  obtain ⟨_, _, hlegs⟩ := EngineRuntime.of_evaluateNow (P := fun _ opp => opp.legs ≠ [])
    (fun _ _ hd => Market.legs_ne_nil_of_detectCrossVenueTwoLeg _ hd)
    (fun _ _ _ _ _ hd => Market.legs_ne_nil_of_detectComplementarySet _ hd) hfound hmem
  exact hlegs

end Admission

end Arbys
