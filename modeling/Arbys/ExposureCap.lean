import Arbys.EventLoop
import Arbys.Lib.Runs

/-!
# The exposure cap

`cap_breach` reads what an account holds on the outcomes of a ticket's group;
the ticket fills after its `pending` write. Between the two its stake is in
flight: counted by no other ticket's check, and by no check at all for another
group that shares an outcome. Held and in flight together is what a run keeps
within the cap, group by group, as long as each admission leaves it there
where `cap_breach` does not look.
-/

namespace Arbys

open World Router PaperExecutionAdapter AccountState

/-- The outcomes of a group. -/
def EventGroup.outcomes (group : EventGroup) : List OutcomeId := group.legs.map (·.outcomeId)

/-- What a ticket may spend on a set of outcomes, at its limit prices. -/
def stakeOn (legs : List IntentLeg) (outcomes : List OutcomeId) : ℚ :=
  ((legs.filter fun leg => leg.outcomeId ∈ outcomes).map fun leg => leg.qty * leg.limitPrice).sum

/-- What a ticket may spend of one account. -/
def TicketTask.stake (task : TicketTask) (acct : AccountId) (outcomes : List OutcomeId) : ℚ :=
  if task.intent.accountId = acct then stakeOn task.intent.legs outcomes else 0

/-- What the tickets in the window may spend of it. -/
def World.inFlight (w : World) (acct : AccountId) (outcomes : List OutcomeId) : ℚ :=
  w.tickets.sumBy fun _ task => task.stake acct outcomes

/-- Every account holds at most the cap on every group. -/
def WithinCap (cap : ℚ) (b : Brokers) (groups : Dict GroupId EventGroup) : Prop :=
  ∀ gid group, groups.get? gid = some group → ∀ acct, b.heldOn acct group.outcomes ≤ cap

/-- After every fill of a commit, rolled back later or not, every account is
within the cap. -/
def FilledWithinCap (cap : ℚ) : Happening → Prop
  | .committed _ _ _ before fills _ => ∀ f ∈ fills, WithinCap cap f.after before.eventGroups
  | _ => True

/-- No account is short of an outcome. -/
def Brokers.Long (b : Brokers) : Prop :=
  ∀ v a, b.get? v = some a → ∀ acct o, 0 ≤ (a.account acct).qty o ∧ 0 ≤ (a.account acct).avg o

/-- The condition on an admission: on each registered group that the ticket
touches and that is not its own, or on which the account has stake in flight,
the cap holds with that stake and the ticket's counted. -/
def AdmissionCounted (cfg : Settings) (cap : ℚ) (w : World) (t : Instant) (opp : ArbOpportunity)
    (acct : AccountId) : Prop :=
  match admission cfg w.state t opp acct with
  | .admitted live => ∀ e ∈ w.state.eventGroups.entries,
      let legs := (live.toIntent acct none).legs
      (∃ leg ∈ legs, leg.outcomeId ∈ e.2.outcomes) →
      (e.1 ≠ baseId opp.eventGroupId ∨ w.inFlight acct e.2.outcomes ≠ 0) →
      w.state.brokers.heldOn acct e.2.outcomes + w.inFlight acct e.2.outcomes +
        stakeOn legs e.2.outcomes ≤ cap
  | _ => True

instance (cfg : Settings) (cap : ℚ) (w : World) (t : Instant) (opp : ArbOpportunity)
    (acct : AccountId) : Decidable (AdmissionCounted cfg cap w t opp acct) := by
  unfold AdmissionCounted
  split <;> infer_instance

/-- The condition on a step. A group comes into the registry with no more held
and in flight on it than the cap. -/
def StakeCounted (cfg : Settings) (cap : ℚ) (w : World) : Event → Prop
  | .submit t _ opp acct => AdmissionCounted cfg cap w t opp acct
  | .registerGroup group => ∀ acct,
      w.state.brokers.heldOn acct group.outcomes + w.inFlight acct group.outcomes ≤ cap
  | _ => True

/-! ## The cost basis of an account -/

theorem heldOn_eq_sumBy (a : PaperExecutionAdapter) (acct : AccountId)
    (outcomes : List OutcomeId) :
    a.heldOn acct outcomes = (a.account acct).positions.sumBy fun o q =>
      if o ∈ outcomes then q * (a.account acct).avg o else 0 := by
  simp only [heldOn, accountSnapshot, Dict.sumBy]
  generalize (a.account acct).positions.entries = entries
  induction entries with
  | nil => rfl
  | cons e entries ih =>
      by_cases hq : e.2 = 0
      · simpa [hq] using ih
      · by_cases ho : e.1 ∈ outcomes
        · simpa [hq, ho] using ih
        · simpa [hq, ho] using ih

theorem contrib_heldOn (a : PaperExecutionAdapter) (acct : AccountId)
    (outcomes : List OutcomeId) (o : OutcomeId) :
    (a.account acct).positions.contrib (fun o q =>
        if o ∈ outcomes then q * (a.account acct).avg o else 0) o =
      if o ∈ outcomes then (a.account acct).qty o * (a.account acct).avg o else 0 :=
  Dict.contrib_eq_getD (by simp)

/-- Releasing long positions lowers what is held. -/
theorem heldOn_released {a a' : PaperExecutionAdapter} (hr : Released a a')
    (hlong : ∀ acct o, 0 ≤ (a.account acct).qty o ∧ 0 ≤ (a.account acct).avg o)
    (acct : AccountId) (outcomes : List OutcomeId) :
    a'.heldOn acct outcomes ≤ a.heldOn acct outcomes := by
  rw [heldOn_eq_sumBy, heldOn_eq_sumBy]
  refine Dict.sumBy_le_sumBy fun o => ?_
  rw [contrib_heldOn, contrib_heldOn]
  split
  · rcases hr.position acct o with ⟨hq, havg⟩ | ⟨hq, _⟩
    · rw [hq, havg]
    · rw [hq, zero_mul]
      exact mul_nonneg (hlong acct o).1 (hlong acct o).2
  · exact le_refl 0

/-- **A buy** adds what it costs, fee apart, to what its account holds on its
outcome. -/
theorem heldOn_acceptLeg {a : PaperExecutionAdapter} {leg : IntentLeg} (hbuy : leg.isBuy = true)
    (hqty : 0 < leg.qty)
    (hlong : ∀ acct o, 0 ≤ (a.account acct).qty o ∧ 0 ≤ (a.account acct).avg o)
    (acct j : AccountId) (ticketId : Option TicketId) (px : ℚ) (outcomes : List OutcomeId) :
    (a.acceptLeg acct leg ticketId px).adapter.heldOn j outcomes = a.heldOn j outcomes +
      if j = acct ∧ leg.outcomeId ∈ outcomes then leg.qty * px else 0 := by
  rw [heldOn_eq_sumBy, heldOn_eq_sumBy]
  by_cases hj : j = acct
  · subst hj
    have hacct : (a.acceptLeg j leg ticketId px).adapter.account j =
        (a.account j).bookFill a.venueId leg.outcomeId true leg.qty px
          (a.fees.fee px leg.qty true) := by
      rw [acceptLeg, account_accept, if_pos rfl, hbuy]
    have m := movement_buy (a.account j) a.venueId leg.outcomeId leg.qty px
      (a.fees.fee px leg.qty true)
    rw [← hacct] at m
    -- two sums over the outcomes that differ in one of them
    have hone := Dict.sumBy_sub_sumBy
      (d := ((a.acceptLeg j leg ticketId px).adapter.account j).positions)
      (e := (a.account j).positions)
      (f := fun o q => if o ∈ outcomes then
        q * ((a.acceptLeg j leg ticketId px).adapter.account j).avg o else 0)
      (g := fun o q => if o ∈ outcomes then q * (a.account j).avg o else 0) leg.outcomeId
      fun o ho => by rw [contrib_heldOn, contrib_heldOn, m.qty_off o ho, m.avg_off o ho]
    rw [contrib_heldOn, contrib_heldOn, m.qty, m.avg] at hone
    have hnew : 0 < (a.account j).qty leg.outcomeId + leg.qty := by
      linarith [(hlong j leg.outcomeId).1]
    have hne := ne_of_gt hnew
    rw [if_pos hnew] at hone
    by_cases ho : leg.outcomeId ∈ outcomes
    · simp only [ho, if_true, and_self] at hone ⊢
      -- the new average times the new quantity is the old cost and the new
      rw [mul_div_cancel₀ _ hne] at hone
      linarith
    · simp only [ho, if_false, and_false] at hone ⊢
      linarith
  · have hacct : (a.acceptLeg acct leg ticketId px).adapter.account j = a.account j := by
      rw [acceptLeg, account_accept, if_neg hj]
    rw [hacct]
    simp [hj]

namespace Brokers

variable {b b' : Brokers}

theorem Long.related (h : b.Long) (hrel : b.Related Released b') : b'.Long := by
  intro v a' ha' acct o
  obtain ⟨a, ha, hr⟩ := hrel.back ha'
  rcases hr.position acct o with ⟨hq, havg⟩ | ⟨hq, havg⟩
  · rw [hq, havg]
    exact h v a ha acct o
  · rw [hq, havg]
    exact ⟨le_refl 0, le_refl 0⟩

theorem heldOn_related (h : b.Long) (hrel : b.Related Released b') (acct : AccountId)
    (outcomes : List OutcomeId) : b'.heldOn acct outcomes ≤ b.heldOn acct outcomes := by
  simp only [Brokers.heldOn, total]
  refine Dict.sumBy_le_sumBy fun v => ?_
  have hv := hrel v
  have hlong := h v
  simp only [Brokers.get?] at hv hlong
  simp only [Dict.contrib]
  revert hv hlong
  generalize b.adapters.get? v = x, b'.adapters.get? v = y
  rintro (hr | _) hlong
  · exact heldOn_released hr (hlong _ rfl) acct outcomes
  · exact le_refl _

/-- Buying keeps every account long. -/
theorem Long.put (h : b.Long) {leg : IntentLeg} {a : PaperExecutionAdapter}
    (ha : b.get? leg.venueId = some a) (hbuy : leg.isBuy = true) (hqty : 0 < leg.qty)
    (acct : AccountId) (ticketId : Option TicketId) {px : ℚ} (hpx : 0 ≤ px) :
    (b.put (a.acceptLeg acct leg ticketId px).adapter).Long := by
  intro v c hc j o
  rw [get?_put] at hc
  split at hc
  · cases hc
    by_cases hj : j = acct
    · subst hj
      have hacct : (a.acceptLeg j leg ticketId px).adapter.account j =
          (a.account j).bookFill a.venueId leg.outcomeId true leg.qty px
            (a.fees.fee px leg.qty true) := by
        rw [acceptLeg, account_accept, if_pos rfl, hbuy]
      have m := movement_buy (a.account j) a.venueId leg.outcomeId leg.qty px
        (a.fees.fee px leg.qty true)
      rw [← hacct] at m
      by_cases ho : o = leg.outcomeId
      · obtain ⟨hq, havg⟩ := h _ a ha j leg.outcomeId
        have hnew : 0 < (a.account j).qty leg.outcomeId + leg.qty := by linarith
        rw [ho, m.qty, m.avg, if_pos hnew]
        refine ⟨le_of_lt hnew, div_nonneg ?_ (le_of_lt hnew)⟩
        exact add_nonneg (mul_nonneg hq havg) (mul_nonneg (le_of_lt hqty) hpx)
      · rw [m.qty_off o ho, m.avg_off o ho]
        exact h _ a ha j o
    · rw [acceptLeg, account_accept, if_neg hj]
      exact h _ a ha j o
  · exact h v c hc j o

/-- A buy, over all brokers. -/
theorem heldOn_put (h : b.Long) {leg : IntentLeg} {a : PaperExecutionAdapter}
    (ha : b.get? leg.venueId = some a) (hbuy : leg.isBuy = true) (hqty : 0 < leg.qty)
    (acct j : AccountId) (ticketId : Option TicketId) (px : ℚ) (outcomes : List OutcomeId) :
    (b.put (a.acceptLeg acct leg ticketId px).adapter).heldOn j outcomes =
      b.heldOn j outcomes + if j = acct ∧ leg.outcomeId ∈ outcomes then leg.qty * px else 0 := by
  have hv : a.venueId = leg.venueId := venueId_of_get? ha
  have ha' : b.get? (a.acceptLeg acct leg ticketId px).adapter.venueId = some a := by
    rw [← ha, ← hv]
    rfl
  rw [Brokers.heldOn, total_put _ ha',
    heldOn_acceptLeg hbuy hqty (h _ a ha) acct j ticketId px outcomes, ← Brokers.heldOn]
  ring

end Brokers

/-! ## What a commit adds -/

/-- Legs as an admitted ticket has them. -/
def Buying (legs : List IntentLeg) : Prop :=
  ∀ leg ∈ legs, leg.isBuy = true ∧ 0 < leg.qty ∧ 0 ≤ leg.limitPrice

theorem stakeOn_cons (leg : IntentLeg) (legs : List IntentLeg) (outcomes : List OutcomeId) :
    stakeOn (leg :: legs) outcomes =
      (if leg.outcomeId ∈ outcomes then leg.qty * leg.limitPrice else 0) +
        stakeOn legs outcomes := by
  by_cases ho : leg.outcomeId ∈ outcomes <;> simp [stakeOn, ho]

theorem stakeOn_nonneg {legs : List IntentLeg} (h : Buying legs) (outcomes : List OutcomeId) :
    0 ≤ stakeOn legs outcomes := by
  refine List.sum_nonneg fun x hx => ?_
  obtain ⟨leg, hleg, rfl⟩ := List.mem_map.mp hx
  obtain ⟨_, hqty, hlimit⟩ := h leg (List.mem_of_mem_filter hleg)
  exact mul_nonneg (le_of_lt hqty) hlimit

/-- **A commit of buys** leaves every account long and, after each of its
fills, holding at most what it held and the stake of the ticket. -/
theorem heldOn_fillRecords (book : QuoteBook) (clock : ℕ → ℚ) (acct : AccountId)
    (ticketId : Option TicketId) (n : ℕ) {b : Brokers} {legs : List IntentLeg}
    (hlong : b.Long) (hbuy : Buying legs) :
    (∀ f ∈ fillRecords book clock acct ticketId n b legs, ∀ j outcomes,
      f.after.heldOn j outcomes ≤
        b.heldOn j outcomes + if j = acct then stakeOn legs outcomes else 0) ∧
    ((commitLegs book clock acct ticketId n b legs).failure = none →
      (commitLegs book clock acct ticketId n b legs).brokers.Long ∧ ∀ j outcomes,
        (commitLegs book clock acct ticketId n b legs).brokers.heldOn j outcomes ≤
          b.heldOn j outcomes + if j = acct then stakeOn legs outcomes else 0) := by
  induction legs generalizing n b with
  | nil =>
      exact ⟨fun f hf => (by cases hf), fun _ => ⟨hlong, fun j outcomes => by
        simp [commitLegs, stakeOn]⟩⟩
  | cons leg legs ih =>
      obtain ⟨hside, hqty, hlimit⟩ := hbuy leg List.mem_cons_self
      have hrest : Buying legs := fun l hl => hbuy l (List.mem_cons_of_mem _ hl)
      rcases fillRecords_cons b book clock acct ticketId n leg legs with
        ⟨hnil, hfail⟩ | ⟨a, px, cost, ha, hprice, hcons, hfailure, hbrokers⟩
      · rw [hnil]
        exact ⟨fun f hf => (by cases hf), fun h => absurd h hfail⟩
      · simp only [priceLeg, ha, hside] at hprice
        obtain ⟨quote, _, _, hpx, hle, _⟩ := previewFill_eq_ok hprice
        rw [if_pos rfl] at hle
        have hpx0 : 0 ≤ px := hpx ▸ (applySlippage_mem a _ _).1
        obtain ⟨hfills, hdone⟩ := ih (n := n + 1) (hlong.put ha hside hqty acct ticketId hpx0) hrest
        have hspent : leg.qty * px ≤ leg.qty * leg.limitPrice :=
          mul_le_mul_of_nonneg_left hle (le_of_lt hqty)
        -- what this leg adds is within its stake, and so is what the rest adds
        have hleg : ∀ j outcomes,
            (b.put (a.acceptLeg acct leg ticketId px).adapter).heldOn j outcomes +
              (if j = acct then stakeOn legs outcomes else 0) ≤
            b.heldOn j outcomes + if j = acct then stakeOn (leg :: legs) outcomes else 0 := by
          intro j outcomes
          rw [Brokers.heldOn_put hlong ha hside hqty acct j ticketId px outcomes, stakeOn_cons]
          by_cases hj : j = acct
          · by_cases ho : leg.outcomeId ∈ outcomes
            · simp only [hj, ho, and_self, if_true]
              linarith
            · simp only [hj, ho, and_false, if_true, if_false]
              linarith
          · simp [hj]
        rw [hcons, hfailure, hbrokers]
        refine ⟨fun f hf j outcomes => ?_, fun hall => ⟨(hdone hall).1, fun j outcomes => ?_⟩⟩
        · rcases List.mem_cons.mp hf with rfl | hf
          · refine le_trans ?_ (hleg j outcomes)
            have hstake := stakeOn_nonneg hrest outcomes
            split <;> linarith
          · exact (hfills f hf j outcomes).trans (hleg j outcomes)
        · exact ((hdone hall).2 j outcomes).trans (hleg j outcomes)

/-! ## What is in flight -/

theorem stakeOn_le {legs : List IntentLeg} (h : Buying legs) (outcomes : List OutcomeId) :
    stakeOn legs outcomes ≤ (legs.map fun leg => leg.qty * leg.limitPrice).sum := by
  induction legs with
  | nil => exact le_refl _
  | cons leg legs ih =>
      obtain ⟨_, hqty, hlimit⟩ := h leg List.mem_cons_self
      have hrest := ih fun l hl => h l (List.mem_cons_of_mem _ hl)
      have hleg := mul_nonneg (le_of_lt hqty) hlimit
      rw [stakeOn_cons, List.map_cons, List.sum_cons]
      split <;> linarith

theorem stakeOn_eq_zero {legs : List IntentLeg} {outcomes : List OutcomeId}
    (h : ¬ ∃ leg ∈ legs, leg.outcomeId ∈ outcomes) : stakeOn legs outcomes = 0 := by
  have hnone : legs.filter (fun leg => leg.outcomeId ∈ outcomes) = [] :=
    List.filter_eq_nil_iff.mpr fun leg hleg ho => h ⟨leg, hleg, by simpa using ho⟩
  rw [stakeOn, hnone]
  rfl

theorem stake_nonneg {task : TicketTask} (h : Buying task.intent.legs) (acct : AccountId)
    (outcomes : List OutcomeId) : 0 ≤ task.stake acct outcomes := by
  unfold TicketTask.stake
  split
  · exact stakeOn_nonneg h outcomes
  · exact le_refl 0

/-! ## Runs -/

/-- The invariant: on every registered group, every account is within the cap
with its stake in flight counted. -/
structure Capped (cap : ℚ) (w : World) : Prop where
  fees : w.state.engine.fees.Nonneg
  long : w.state.brokers.Long
  buys : ∀ id task, w.tickets.get? id = some task → Buying task.intent.legs
  room : ∀ gid group, w.state.eventGroups.get? gid = some group → ∀ acct,
    w.state.brokers.heldOn acct group.outcomes + w.inFlight acct group.outcomes ≤ cap
  history : ∀ x ∈ w.history, FilledWithinCap cap x

variable {cfg : Settings} {cap : ℚ} {w : World} {e : Event}

/-- The legs an admitted ticket is submitted with. -/
theorem Admitted.buying {s : AppState} {t : Instant} {opp live : ArbOpportunity}
    {acct : AccountId} (h : Admitted cfg s t opp acct live) (ticketId : Option TicketId) :
    Buying (live.toIntent acct ticketId).legs := by
  intro leg hleg
  obtain ⟨arb, harb, rfl⟩ := List.mem_map.mp hleg
  obtain ⟨hside, hqty, quote, _, _, hprice⟩ := h.legs.1 arb harb
  exact ⟨hside, hqty, le_of_le_of_eq quote.ask_nonneg hprice.symm⟩

theorem Capped.inFlight_nonneg (h : Capped cap w) (acct : AccountId)
    (outcomes : List OutcomeId) : 0 ≤ w.inFlight acct outcomes := by
  refine List.sum_nonneg fun x hx => ?_
  obtain ⟨ticket, hticket, rfl⟩ := List.mem_map.mp hx
  exact stake_nonneg (h.buys ticket.1 ticket.2 (Dict.mem_entries_iff.mp hticket)) acct outcomes

/-- What is in flight includes every ticket of the window. -/
theorem Capped.stake_le_inFlight (h : Capped cap w) {id : TicketId} {task : TicketTask}
    (htask : w.tickets.get? id = some task) (acct : AccountId) (outcomes : List OutcomeId) :
    task.stake acct outcomes ≤ w.inFlight acct outcomes := by
  have hmem := Dict.mem_entries_iff.mpr htask
  refine List.single_le_sum (fun x hx => ?_) _
    (List.mem_map.mpr ⟨(id, task), hmem, rfl⟩)
  obtain ⟨ticket, hticket, rfl⟩ := List.mem_map.mp hx
  exact stake_nonneg (h.buys ticket.1 ticket.2 (Dict.mem_entries_iff.mp hticket)) acct outcomes

/-- What a ticket that leaves the window takes out of flight. -/
theorem inFlight_erase {id : TicketId} {task : TicketTask} (htask : w.tickets.get? id = some task)
    (acct : AccountId) (outcomes : List OutcomeId) :
    (w.tickets.erase id).sumBy (fun _ task => task.stake acct outcomes) =
      w.inFlight acct outcomes - task.stake acct outcomes := by
  rw [Dict.sumBy_erase, Dict.contrib_of_get? htask]
  rfl

theorem Capped.heldOn_le (h : Capped cap w) {b : Brokers}
    (hrel : w.state.brokers.Related Released b) (acct : AccountId) (outcomes : List OutcomeId) :
    b.heldOn acct outcomes ≤ w.state.brokers.heldOn acct outcomes :=
  Brokers.heldOn_related h.long hrel acct outcomes

/-- A ticket that goes on moves its stake from in flight to held, or drops it. -/
theorem Capped.exposure_resume (h : Capped cap w) (t : Instant) (id : TicketId)
    (acct : AccountId) (outcomes : List OutcomeId) :
    (w.resume t id).state.brokers.heldOn acct outcomes + (w.resume t id).inFlight acct outcomes ≤
      w.state.brokers.heldOn acct outcomes + w.inFlight acct outcomes := by
  rcases resume_cases w t id with
    ⟨_, hstep⟩ | ⟨task, htask, ⟨point, hstep⟩ | ⟨reason, hstep⟩ | hstep⟩
  · rw [hstep]
  · -- the next write is awaited: the intent, and with it the stake, is the same
    rw [hstep]
    refine add_le_add (le_refl _) (le_of_eq ?_)
    simp only [World.inFlight]
    rw [Dict.sumBy_set, Dict.contrib_of_get? htask]
    simp [TicketTask.stake]
  · rw [hstep]
    have hstake := stake_nonneg (h.buys id task htask) acct outcomes
    refine add_le_add (le_refl _) (le_of_eq_of_le (inFlight_erase htask acct outcomes) ?_)
    linarith
  · rw [hstep]
    have hstake := stake_nonneg (h.buys id task htask) acct outcomes
    have herase := inFlight_erase htask acct outcomes
    simp only [World.commit, World.inFlight] at herase ⊢
    rw [herase]
    -- a commit moves the stake from in flight to held, or rolls back
    rcases commitAtomically_cases w.state.brokers w.state.book (fun _ => t.now) task.intent
      with ⟨hall, hbrokers, _⟩ | ⟨hrel, _⟩
    · have hheld := ((heldOn_fillRecords w.state.book (fun _ => t.now)
        task.intent.accountId task.intent.ticketId 0
        h.long (h.buys id task htask)).2 hall).2 acct outcomes
      rw [hbrokers]
      simp only [TicketTask.stake, eq_comm (a := task.intent.accountId)] at hstake ⊢
      linarith
    · have := h.heldOn_le hrel acct outcomes
      linarith

/-- **Exposure** does not grow in a step, held and in flight together, unless
the step admits a ticket. -/
theorem Capped.exposure_step (h : Capped cap w) (cfg : Settings) (e : Event) :
    (∀ acct outcomes, (w.step cfg e).state.brokers.heldOn acct outcomes +
        (w.step cfg e).inFlight acct outcomes ≤
      w.state.brokers.heldOn acct outcomes + w.inFlight acct outcomes) ∨
    ∃ t id opp acct live, e = .submit t id opp acct ∧
      admission cfg w.state t opp acct = .admitted live ∧ w.tickets.get? id = none ∧
      w.step cfg e = { w with
        tickets := w.tickets.set id ⟨live.toIntent acct (some id), .writing⟩ } := by
  cases e with
  | submit t id opp acct =>
      rcases submit_cases cfg w t id opp acct
        with ⟨new, _, hstep⟩ | ⟨live, hadm, hid, hstep⟩
      · exact .inl fun j outcomes => by rw [step, hstep]; exact le_refl _
      · exact .inr ⟨t, id, opp, acct, live, rfl, hadm, hid, hstep⟩
  | resume t id => exact .inl (h.exposure_resume t id)
  | tick t =>
      exact .inl fun j outcomes =>
        add_le_add (h.heldOn_le (AppState.serviced_tick w.state t w.tick).brokers j outcomes)
          (le_refl _)
  | pass t answer =>
      exact .inl fun j outcomes =>
        add_le_add (h.heldOn_le (AppState.serviced_pass w.state t answer w.pass).brokers j outcomes)
          (le_refl _)
  | quote t quote => exact .inl fun j outcomes => le_refl _
  | registerGroup group => exact .inl fun j outcomes => le_refl _
  | retireGroup gid => exact .inl fun j outcomes => le_refl _
  | beginDraining => exact .inl fun j outcomes => le_refl _

/-- **An admission** keeps the room: on its own group `cap_breach` saw to it,
and elsewhere the condition does. -/
theorem Capped.admission (h : Capped cap w) (hcap : cfg.maxOutcomeStake = some cap) {t : Instant}
    {id : TicketId} {opp live : ArbOpportunity} {acct : AccountId}
    (hadmitted : admission cfg w.state t opp acct = .admitted live) (hid : w.tickets.get? id = none)
    (hok : AdmissionCounted cfg cap w t opp acct) {gid : GroupId} {group : EventGroup}
    (hgroup : w.state.eventGroups.get? gid = some group) (j : AccountId) :
    w.state.brokers.heldOn j group.outcomes +
      (w.tickets.set id ⟨live.toIntent acct (some id), .writing⟩).sumBy
        (fun _ task => task.stake j group.outcomes) ≤ cap := by
  have hadm := admitted_of_admission hadmitted
  have hroom := h.room gid group hgroup j
  have hsum : (w.tickets.set id ⟨live.toIntent acct (some id), .writing⟩).sumBy
      (fun _ task => task.stake j group.outcomes) = w.inFlight j group.outcomes +
        if acct = j then stakeOn (live.toIntent acct none).legs group.outcomes else 0 := by
    rw [Dict.sumBy_set, Dict.contrib_of_get?_none hid, sub_zero]
    rfl
  rw [hsum]
  by_cases hj : acct = j
  · subst hj
    rw [if_pos rfl]
    by_cases htouch : ∃ leg ∈ (live.toIntent acct none).legs, leg.outcomeId ∈ group.outcomes
    · by_cases hown : gid ≠ baseId opp.eventGroupId ∨ w.inFlight acct group.outcomes ≠ 0
      · rw [AdmissionCounted, hadmitted] at hok
        have := hok (gid, group) (Dict.mem_entries_iff.mpr hgroup) htouch hown
        linarith
      · -- its own group with nothing in flight: the check of the code
        obtain ⟨hbase, hzero⟩ := not_or.mp hown
        rw [not_ne_iff] at hbase hzero
        subst hbase
        have hcheck := hadm.capped
        have hgroup' : w.state.eventGroups.get? (baseId live.eventGroupId) = some group := by
          rw [hadm.eventGroupId, hgroup]
        simp only [capBreach, hcap, groupOutcomes, hgroup'] at hcheck
        split at hcheck
        · cases hcheck
        · rename_i hle
          have hbuying := hadm.buying none
          have hstake := stakeOn_le hbuying group.outcomes
          have htotal := hadm.legs.2 h.fees
          have hlegs : ((live.toIntent acct none).legs.map fun leg => leg.qty * leg.limitPrice) =
              live.legs.map fun leg => leg.qty * leg.price := by
            simp [ArbOpportunity.toIntent, ArbLeg.toIntent, List.map_map, Function.comp_def]
          rw [hlegs] at hstake
          rw [hzero]
          simp only [EventGroup.outcomes] at hstake ⊢
          linarith
    · rw [stakeOn_eq_zero htouch]
      linarith
  · rw [if_neg hj]
    linarith

/-- **The step lemma.** -/
theorem Capped.step (h : Capped cap w) (hcap : cfg.maxOutcomeStake = some cap)
    (hok : StakeCounted cfg cap w e) : Capped cap (w.step cfg e) := by
  obtain ⟨hfees, hregistry⟩ := registry_step cfg w e
  constructor
  · rw [hfees]
    exact h.fees
  · rcases brokers_step cfg w e with hrel | ⟨t, id, task, _, htask, _, hall, hbrokers⟩
    · exact h.long.related hrel
    · rw [hbrokers]
      exact ((heldOn_fillRecords _ _ _ _ _ h.long (h.buys id task htask)).2 hall).1
  · intro id task htask
    rcases tickets_step htask with ⟨task₀, htask₀, hintent⟩ | ⟨t, opp, acct, live, _, hadm, hintent⟩
    · rw [hintent]
      exact h.buys id task₀ htask₀
    · rw [hintent]
      exact hadm.buying _
  · intro gid group hgroup acct
    rcases h.exposure_step cfg e with hle | ⟨t, id, opp, j, live, rfl, hadmitted, hid, hstep⟩
    · refine (hle acct group.outcomes).trans ?_
      rcases hregistry with hsame | ⟨registered, rfl, hset⟩ | ⟨retired, herase⟩
      · exact h.room gid group (hsame ▸ hgroup) acct
      · rw [hset, Dict.get?_set] at hgroup
        split at hgroup
        · cases hgroup
          exact hok acct
        · exact h.room gid group hgroup acct
      · rw [herase, Dict.get?_erase] at hgroup
        split at hgroup
        · cases hgroup
        · exact h.room gid group hgroup acct
    · rw [hstep] at hgroup ⊢
      exact h.admission hcap hadmitted hid hok hgroup acct
  · intro x hx
    obtain ⟨new, hnew, hkind⟩ := history_step cfg w e
    rw [hnew] at hx
    rcases List.mem_append.mp hx with hold | hx
    · exact h.history x hold
    · rcases hkind with hquiet | ⟨t, id, task, _, htask, rfl⟩
      · have hcommit := (hquiet x hx).1
        cases x with
        | committed ticketId acct t before fills result => cases hcommit
        | settled v o => trivial
        | refused ticketId status reason => trivial
        | raised ticketId error => trivial
      · rw [List.mem_singleton.mp hx]
        intro f hf gid group hgroup acct
        -- the fill's stake was counted in flight when its ticket was admitted
        have hfill := (heldOn_fillRecords _ _ _ _ _ h.long (h.buys id task htask)).1 f hf acct
          group.outcomes
        have hstake := h.stake_le_inFlight htask acct group.outcomes
        have hroom := h.room gid group hgroup acct
        simp only [TicketTask.stake, eq_comm (a := task.intent.accountId)] at hstake
        linarith

/-- **The exposure cap**, in every run of the loop that starts within it: it
holds in the state reached, and held after every fill on the way. -/
theorem exposure_within_cap (cfg : Settings) (cap : ℚ) (hcap : cfg.maxOutcomeStake = some cap)
    (s : AppState) (hfees : s.engine.fees.Nonneg) (hlong : s.brokers.Long)
    (hstart : WithinCap cap s.brokers s.eventGroups) (events : List Event)
    (h : Runs.Guarded (World.step cfg) (StakeCounted cfg cap) { state := s } events) :
    let w := Runs.run (World.step cfg) { state := s } events
    WithinCap cap w.state.brokers w.state.eventGroups ∧
      ∀ x ∈ w.history, FilledWithinCap cap x := by
  intro w
  have hinv : Capped cap w :=
    h.inv (I := Capped cap) (fun _ _ hi hok => hi.step hcap hok)
      ⟨hfees, hlong, fun _ _ htask => (by cases htask), fun gid group hgroup acct =>
        (add_zero (s.brokers.heldOn acct group.outcomes)).symm ▸ hstart gid group hgroup acct,
        fun _ hx => (by cases hx)⟩
  refine ⟨fun gid group hgroup acct => ?_, hinv.history⟩
  have hroom := hinv.room gid group hgroup acct
  have hflight := hinv.inFlight_nonneg acct group.outcomes
  linarith

/-! ## Two tickets on one group -/

namespace TwoTickets

/-- A cap that has room for one ticket of 96.2322. -/
def settings : Settings :=
  { Settings.default with maxOutcomeStake := some 100, maxOutcomeStake_pos := by decide +kernel }

def t : Instant := ⟨0, 0⟩

def toItsEnd (ticketId : TicketId) : List Event :=
  [.resume t ticketId, .resume t ticketId, .resume t ticketId]

/-- Both are called before either fills. -/
def together : List Event :=
  [.submit t "one" TwoVenues.opportunity "default",
    .submit t "two" TwoVenues.opportunity "default"] ++ toItsEnd "one" ++ toItsEnd "two"

/-- The second is called when the first has filled. -/
def inTurn : List Event :=
  .submit t "one" TwoVenues.opportunity "default" :: toItsEnd "one" ++
    .submit t "two" TwoVenues.opportunity "default" :: toItsEnd "two"

/-- Nothing is held to begin with. -/
theorem flat {v : VenueId} {a : PaperExecutionAdapter} (ha : TwoVenues.brokers.get? v = some a)
    (acct : AccountId) :
    (a.account acct).positions = Dict.empty ∧ (a.account acct).avgPrice = Dict.empty := by
  have hflat : ∀ e ∈ TwoVenues.brokers.adapters.entries, ∀ st ∈ e.2.accounts.values,
      st.positions = Dict.empty ∧ st.avgPrice = Dict.empty := by
    decide +kernel
  cases hst : a.accounts.get? acct with
  | none =>
      rw [PaperExecutionAdapter.account, Dict.getD_of_get?_none hst]
      exact ⟨rfl, rfl⟩
  | some st =>
      rw [PaperExecutionAdapter.account, Dict.getD_of_get? hst]
      exact hflat (v, a) (Dict.mem_entries_iff.mpr ha) st
        (List.mem_map.mpr ⟨_, Dict.mem_entries_iff.mpr hst, rfl⟩)

theorem long : TwoVenues.brokers.Long := by
  intro v a ha acct o
  obtain ⟨hpos, havg⟩ := flat ha acct
  rw [AccountState.qty, AccountState.avg, hpos, havg, Dict.getD_empty]
  exact ⟨le_refl 0, le_refl 0⟩

theorem fees_nonneg : TwoVenues.fees.Nonneg := by
  intro v m h
  have hmem : (v, m) ∈ [("polymarket_us", FeeModel.polymarketUs), ("kalshi", FeeModel.kalshi)] :=
    Dict.mem_entries_iff.mpr h
  rcases List.mem_pair.mp hmem with h | h <;> cases h
  · exact FeeModel.taker_nonneg _ (by norm_num)
  · exact FeeModel.taker_nonneg _ (by norm_num)

theorem withinCap : WithinCap 100 TwoVenues.brokers TwoVenues.state.eventGroups := by
  intro gid group _ acct
  have hzero : TwoVenues.brokers.heldOn acct group.outcomes = 0 := by
    rw [Brokers.heldOn, Brokers.total]
    refine Dict.sumBy_eq_zero fun v => ?_
    cases ha : TwoVenues.brokers.get? v with
    | none => exact Dict.contrib_of_get?_none ha
    | some a =>
        rw [Dict.contrib_of_get? ha, heldOn_eq_sumBy, (flat ha acct).1]
        rfl
  rw [hzero]
  norm_num

end TwoTickets

theorem exposure_within_cap_inTurn :
    let w := Runs.run (World.step TwoTickets.settings) { state := TwoVenues.state }
      TwoTickets.inTurn
    WithinCap 100 w.state.brokers w.state.eventGroups ∧
      ∀ x ∈ w.history, FilledWithinCap 100 x :=
  exposure_within_cap TwoTickets.settings 100 rfl TwoVenues.state
    TwoTickets.fees_nonneg TwoTickets.long TwoTickets.withinCap TwoTickets.inTurn
    ⟨(by decide +kernel : AdmissionCounted TwoTickets.settings 100 _ _ _ _), trivial, trivial,
      trivial, (by decide +kernel : AdmissionCounted TwoTickets.settings 100 _ _ _ _), trivial,
      trivial, trivial, trivial⟩

/-- Both pass on the same reading, and the group ends with a cost basis of 186. -/
theorem not_withinCap_together :
    WithinCap 100 TwoVenues.state.brokers TwoVenues.state.eventGroups ∧
      let w := Runs.run (World.step TwoTickets.settings) { state := TwoVenues.state }
        TwoTickets.together
      ¬ WithinCap 100 w.state.brokers w.state.eventGroups := by
  refine ⟨TwoTickets.withinCap, fun h => ?_⟩
  have hheld := h "eg-1" TwoVenues.group (by decide +kernel) "default"
  revert hheld
  decide +kernel

end Arbys
