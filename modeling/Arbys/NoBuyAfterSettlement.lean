import Arbys.EventLoop
import Arbys.Lib.Runs

/-!
# Buying what has been settled

A ticket asks `is_settled` once, at the call, and fills after its `pending`
write; a settlement marks its group after the writes of its legs. So an
outcome can be settled between the question and the fill, or be settled by the
time of the question while its group is not marked. Where neither happens, no
fill of any run buys an outcome that was settled before it.
-/

namespace Arbys

open World

/-- No commit buys an outcome that an earlier event settled. -/
def NoBuyAfterSettlement (history : List Happening) : Prop :=
  history.Pairwise fun x y => ∀ o ∈ x.settles, o ∉ y.bought

instance (history : List Happening) : Decidable (NoBuyAfterSettlement history) :=
  inferInstanceAs (Decidable (history.Pairwise _))

def SettledIn (history : List Happening) (o : OutcomeId) : Prop := ∃ x ∈ history, o ∈ x.settles

instance (history : List Happening) (o : OutcomeId) : Decidable (SettledIn history o) :=
  inferInstanceAs (Decidable (∃ x ∈ history, _))

/-- The condition on a step: what it settles no ticket in the window buys, and
a call that buys a settled outcome finds its group marked. -/
structure SettlesApart (w : World) (e : Event) : Prop where
  window : ∀ o ∈ w.settlesNext e, ∀ ticket ∈ w.tickets.entries, ∀ leg ∈ ticket.2.intent.legs,
    leg.isBuy = true → leg.outcomeId ≠ o
  marked : ∀ opp ∈ e.submitted, ∀ o ∈ buyLegs opp, SettledIn w.history o →
    w.state.autoSettle.isSettled opp.eventGroupId = true

instance (w : World) (e : Event) : Decidable (SettlesApart w e) :=
  decidable_of_iff (_ ∧ _) ⟨fun h => ⟨h.1, h.2⟩, fun h => ⟨h.window, h.marked⟩⟩

/-- The invariant: so far so good, and no ticket in the window buys a settled
outcome. -/
structure Unsettled (w : World) : Prop where
  history : NoBuyAfterSettlement w.history
  window : ∀ id task, w.tickets.get? id = some task → ∀ leg ∈ task.intent.legs,
    leg.isBuy = true → ¬ SettledIn w.history leg.outcomeId

variable {cfg : Settings} {w : World} {e : Event}

theorem settledIn_append {history new : List Happening} {o : OutcomeId} :
    SettledIn (history ++ new) o ↔ SettledIn history o ∨ SettledIn new o := by
  simp only [SettledIn, List.mem_append, or_and_right, exists_or]

/-- A commit buys what the legs of its intent buy. -/
theorem bought_commitment {t : Instant} {id : TicketId} {intent : ExecutionIntent} {o : OutcomeId}
    (h : o ∈ (w.commitment t id intent).bought) :
    ∃ leg ∈ intent.legs, leg.isBuy = true ∧ leg.outcomeId = o := by
  obtain ⟨f, hf, rfl⟩ := List.mem_map.mp h
  obtain ⟨hmem, hbuy⟩ := List.mem_filter.mp hf
  obtain ⟨leg, hleg, _, ho, hside⟩ := Router.exists_leg_of_mem_fillRecords hmem
  exact ⟨leg, hleg, hside ▸ hbuy, ho.symm⟩

/-- The outcomes settled after a step: those settled before it, and its own. -/
theorem settledIn_step {o : OutcomeId} (h : SettledIn (w.step cfg e).history o) :
    SettledIn w.history o ∨ o ∈ w.settlesNext e := by
  obtain ⟨new, hnew, hkind⟩ := history_step cfg w e
  rw [hnew, settledIn_append] at h
  refine h.imp_right ?_
  rintro ⟨x, hx, ho⟩
  rcases hkind with hquiet | ⟨t, id, task, _, _, rfl⟩
  · exact (hquiet x hx).2 o ho
  · rw [List.mem_singleton.mp hx] at ho
    cases ho

/-- **The step lemma.** -/
theorem Unsettled.step (h : Unsettled w) (hok : SettlesApart w e) : Unsettled (w.step cfg e) := by
  constructor
  · obtain ⟨new, hnew, hkind⟩ := history_step cfg w e
    rw [hnew, NoBuyAfterSettlement, List.pairwise_append]
    rcases hkind with hquiet | ⟨t, id, task, _, htask, rfl⟩
    · have hnone : ∀ x ∈ new, x.bought = [] := fun x hx =>
        Happening.bought_of_not_isCommit (hquiet x hx).1
      refine ⟨h.history, ?_, fun x _ y hy o _ => ?_⟩
      · exact List.pairwise_of_forall_mem_list fun x _ y hy o _ => by simp [hnone y hy]
      · simp [hnone y hy]
    · refine ⟨h.history, List.pairwise_singleton .., fun x hx y hy o ho hbought => ?_⟩
      rw [List.mem_singleton.mp hy] at hbought
      obtain ⟨leg, hleg, hbuy, rfl⟩ := bought_commitment hbought
      exact h.window id task htask leg hleg hbuy ⟨x, hx, ho⟩
  · intro id task htask leg hleg hbuy hsettled
    rcases tickets_step htask with ⟨task₀, htask₀, hintent⟩ | ⟨t, opp, acct, live, rfl, hadm, hintent⟩
    · rw [hintent] at hleg
      rcases settledIn_step hsettled with hold | hnow
      · exact h.window id task₀ htask₀ leg hleg hbuy hold
      · exact hok.window _ hnow (id, task₀) (Dict.mem_entries_iff.mpr htask₀) leg hleg hbuy rfl
    · -- the ticket was admitted here: its group was not marked
      rw [hintent] at hleg
      obtain ⟨arbLeg, hmem, rfl⟩ := List.mem_map.mp hleg
      have hlive : arbLeg.outcomeId ∈ buyLegs live :=
        List.mem_map.mpr ⟨arbLeg, List.mem_filter.mpr ⟨hmem, hbuy⟩, rfl⟩
      rcases settledIn_step hsettled with hold | hnow
      · have hmarked := hok.marked opp List.mem_cons_self _ ((hadm.buyLegs_iff _).mp hlive) hold
        rw [hadm.notSettled] at hmarked
        cases hmarked
      · cases hnow

/-- **No buy after settlement**, in every run of the loop from any state of
the application, whatever is interleaved, whose settlements keep apart from
the tickets in the window. -/
theorem no_buy_after_settlement (cfg : Settings) (s : AppState) (events : List Event)
    (h : Runs.Guarded (World.step cfg) SettlesApart { state := s } events) :
    NoBuyAfterSettlement (Runs.run (World.step cfg) { state := s } events).history :=
  (h.inv (I := Unsettled) (fun _ _ hi hok => hi.step hok)
    ⟨List.Pairwise.nil, fun id task htask => by cases htask⟩).history

/-! ## A finished game still quoted -/

namespace FinishedGame

/-- A game the venues say is over; its last book still shows an edge. -/
def group : EventGroup where
  id := "eg-1"
  legs := [⟨"p-yes", "polymarket_us", true⟩, ⟨"k-no", "kalshi", false⟩]
  ended := some true

def pYes : Quote := TwoVenues.quote "p-yes" (92 / 100) (by norm_num) (by norm_num)

def kNo : Quote := TwoVenues.quote "k-no" (5 / 100) (by norm_num) (by norm_num)

def state : AppState :=
  AppState.registerGroup
    { brokers := TwoVenues.brokers
      book := ((QuoteBook.mk Dict.empty (some defaultMaxAgeS)).upsert 0 pYes).upsert 0 kNo
      engine := { fees := TwoVenues.fees } } group

/-- The edge as published: what is matched of it is its group and its legs. -/
def opportunity : ArbOpportunity where
  eventGroupId := "eg-1"
  legs := [⟨"p-yes", "polymarket_us", true, 92 / 100, 100, 0⟩,
    ⟨"k-no", "kalshi", true, 5 / 100, 100, 0⟩]
  totalStake := 97
  guaranteedProfit := 3
  guaranteedProfitBps := 300

def t : Instant := ⟨0, 0⟩

/-- The tick settles the YES leg while the ticket is in its `pending` write;
then the ticket is resumed to its end. -/
def events : List Event :=
  [.submit t "ticket" opportunity "default", .tick t, .resume t "ticket", .resume t "ticket",
    .resume t "ticket"]

/-- The same game, but the tick comes when the ticket has filled, and a second
call when the group is marked. -/
def eventsApart : List Event :=
  [.submit t "ticket" opportunity "default", .resume t "ticket", .resume t "ticket",
    .resume t "ticket", .tick t, .tick t, .tick t, .submit t "late" opportunity "default"]

end FinishedGame

theorem no_buy_after_settlement_finishedGame :
    NoBuyAfterSettlement (Runs.run (World.step .default) { state := FinishedGame.state }
      FinishedGame.eventsApart).history :=
  no_buy_after_settlement .default FinishedGame.state FinishedGame.eventsApart (by decide +kernel)

theorem not_noBuyAfterSettlement_finishedGame :
    ¬ NoBuyAfterSettlement
      (Runs.run (World.step .default) { state := FinishedGame.state } FinishedGame.events).history := by
  decide +kernel

end Arbys
