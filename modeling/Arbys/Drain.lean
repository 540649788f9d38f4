import Arbys.Process

/-!
# Draining

What shutdown waits for. The count that `enter_ticket` and `exit_ticket` keep
is the number of tickets in flight (`Drains`), since every way out of a
submission that entered goes through the `finally`. Nothing awaits between the
draining check and `enter_ticket`, so a process that is draining with nothing
in flight is closed for good (`Closed`).
-/

namespace Arbys

namespace Process

/-! ## Entries and exits -/

def entries (p : Process) (id : TicketId) : ℕ := p.log.count (.entered id)

def exits (p : Process) (id : TicketId) : ℕ := p.log.count (.exited id)

/-- A ticket entered at most once, and exited as often unless it is in flight. -/
def Logged (p : Process) (id : TicketId) : Prop :=
  match p.submissions.get? id with
  | none => p.entries id = 0 ∧ p.exits id = 0
  | some point => p.entries id ≤ 1 ∧
      p.entries id = p.exits id + if point.inFlight then 1 else 0

/-- The gate counts the tickets in flight, and counts none once the drain was
woken or has returned. -/
structure Drains (p : Process) : Prop where
  counts : p.gate.Counts SubmissionPoint.inFlight p.submissions
  logged : ∀ id, p.Logged id
  begun : p.shutdown ≠ .notBegun → p.state.draining = true
  idle : p.shutdown = .drained ∨ p.shutdown = .waiting true → p.gate.inflight = 0

section Counting

variable (p : Process) (id j : TicketId) (point : SubmissionPoint)

@[simp] theorem entries_suspend : (p.suspend id point).entries j = p.entries j := rfl

@[simp] theorem exits_suspend : (p.suspend id point).exits j = p.exits j := rfl

@[simp] theorem entries_enterTicket :
    (p.enterTicket id).entries j = p.entries j + if j = id then 1 else 0 := by
  by_cases hj : j = id
  · simp [entries, enterTicket, Process.note, hj]
  · simp [entries, enterTicket, Process.note, hj, Ne.symm hj]

@[simp] theorem exits_enterTicket : (p.enterTicket id).exits j = p.exits j := by
  simp [exits, enterTicket, Process.note]

@[simp] theorem entries_exitTicket : (p.exitTicket id).entries j = p.entries j := by
  simp [entries, exitTicket, Process.note]

@[simp] theorem exits_exitTicket :
    (p.exitTicket id).exits j = p.exits j + if j = id then 1 else 0 := by
  by_cases hj : j = id
  · simp [exits, exitTicket, Process.note, hj]
  · simp [exits, exitTicket, Process.note, hj, Ne.symm hj]

end Counting

/-- An exception inside the gate leaves by the `finally`. -/
theorem fail_of_inFlight {p : Process} {id : TicketId} {point : SubmissionPoint}
    (hid : p.submissions.get? id = some point) (h : point.inFlight = true) :
    p.fail id = p.finish id .raised := by
  unfold fail
  rw [hid]
  cases point with
  | ended result => cases h
  | refusedBefore result => cases h
  | refusing _ => rfl
  | submitting _ => rfl
  | notifying _ _ => rfl
  | settingStatus _ => rfl
  | writingRejectedLegs _ => rfl

/-- A step of one ticket, as the log has it. -/
theorem logged_of_move {p p' : Process} {id : TicketId} {point : SubmissionPoint}
    (h : ∀ j, p.Logged j) (hset : p'.submissions = p.submissions.set id point)
    (hoff : ∀ j, j ≠ id → p'.entries j = p.entries j ∧ p'.exits j = p.exits j)
    (hon : p'.entries id ≤ 1 ∧ p'.entries id = p'.exits id + if point.inFlight then 1 else 0) :
    ∀ j, p'.Logged j := by
  intro j
  unfold Logged
  by_cases hj : j = id
  · rw [hset, hj, Dict.get?_set_self]
    exact hon
  · rw [hset, Dict.get?_set_ne _ hj, (hoff j hj).1, (hoff j hj).2]
    exact h j

theorem drains_start (s : AppState) : (start s).Drains where
  counts := .empty _
  logged := fun _ => ⟨rfl, rfl⟩
  begun := fun hne => absurd rfl hne
  idle := fun _ => rfl

namespace Drains

variable {p : Process} {id : TicketId} {point point' : SubmissionPoint}

/-- The state may change in any way that does not end the draining. -/
theorem withState (h : p.Drains) {s : AppState} (hs : p.state.draining = true → s.draining = true) :
    { p with state := s }.Drains :=
  ⟨h.counts, h.logged, fun hb => hs (h.begun hb), h.idle⟩

/-- What is neither an entry nor an exit may be noted. -/
theorem note (h : p.Drains) {e : TicketEvent} (hentered : ∀ id, e ≠ .entered id)
    (hexited : ∀ id, e ≠ .exited id) : (p.note e).Drains := by
  refine ⟨h.counts, fun id => ?_, h.begun, h.idle⟩
  have hlogged := h.logged id
  have hentries : (p.note e).entries id = p.entries id := by
    simp [entries, Process.note, List.count_append, hentered id]
  have hexits : (p.note e).exits id = p.exits id := by
    simp [exits, Process.note, List.count_append, hexited id]
  unfold Logged at hlogged ⊢
  rw [hentries, hexits]
  exact hlogged

/-- A refusal before `enter_ticket`. -/
theorem refused (h : p.Drains) (hid : p.submissions.get? id = none)
    (hpoint : point.inFlight = false) : (p.suspend id point).Drains := by
  have hlogged := h.logged id
  rw [Logged, hid] at hlogged
  refine ⟨h.counts.outside (by rw [hid]; simp) hpoint, ?_, h.begun, h.idle⟩
  refine logged_of_move h.logged rfl (fun _ _ => ⟨rfl, rfl⟩) ?_
  simp [hlogged.1, hlogged.2, hpoint]

/-- From one await to the next, on the same side of the gate. -/
theorem suspend (h : p.Drains) (hid : p.submissions.get? id = some point)
    (hpoint : point'.inFlight = point.inFlight) : (p.suspend id point').Drains := by
  have hlogged := h.logged id
  rw [Logged, hid] at hlogged
  refine ⟨h.counts.stay hid hpoint, ?_, h.begun, h.idle⟩
  refine logged_of_move h.logged rfl (fun _ _ => ⟨rfl, rfl⟩) ?_
  simpa [hpoint] using hlogged

/-- The shutdown has not begun where a ticket enters. -/
theorem notBegun (h : p.Drains) (hopen : p.state.draining = false) : p.shutdown = .notBegun := by
  by_contra hne
  rw [h.begun hne] at hopen
  cases hopen

/-- An entry. -/
theorem enter (h : p.Drains) (hid : p.submissions.get? id = none)
    (hopen : p.state.draining = false) (hpoint : point.inFlight = true) :
    ((p.enterTicket id).suspend id point).Drains := by
  have hlogged := h.logged id
  rw [Logged, hid] at hlogged
  have hbegun := h.notBegun hopen
  refine ⟨h.counts.enter (by rw [hid]; simp) hpoint, ?_, h.begun, fun hidle => ?_⟩
  · refine logged_of_move h.logged rfl (fun j hj => ?_) ?_
    · simp [hj]
    · simp [hlogged.1, hlogged.2, hpoint]
  · have hnot : p.shutdown = .drained ∨ p.shutdown = .waiting true := hidle
    rw [hbegun] at hnot
    simp at hnot

/-- An entry and an exit in one stretch. -/
theorem enter_finish (h : p.Drains) (hid : p.submissions.get? id = none)
    (hopen : p.state.draining = false) (result : TicketEnd) :
    ((p.enterTicket id).finish id result).Drains := by
  have hlogged := h.logged id
  rw [Logged, hid] at hlogged
  have hbegun := h.notBegun hopen
  have hgate : ((p.enterTicket id).finish id result).gate = p.gate := h.counts.exit_enter
  have hshutdown : ((p.enterTicket id).finish id result).shutdown = .notBegun := by
    simp only [finish, exitTicket, enterTicket, Process.note, Process.suspend, hbegun]
  refine ⟨?_, ?_, fun hne => absurd hshutdown hne, fun hidle => ?_⟩
  · rw [hgate]
    exact h.counts.outside (by rw [hid]; simp) rfl
  · refine logged_of_move h.logged rfl (fun j hj => ?_) ?_
    · simp [finish, hj]
    · simp [finish, hlogged.1, hlogged.2, SubmissionPoint.inFlight]
  · rw [hshutdown] at hidle
    simp at hidle

/-- An exit, by whatever way. -/
theorem finish (h : p.Drains) (hid : p.submissions.get? id = some point)
    (hpoint : point.inFlight = true) (result : TicketEnd) : (p.finish id result).Drains := by
  have hlogged := h.logged id
  rw [Logged, hid] at hlogged
  simp only [hpoint, if_true] at hlogged
  refine ⟨h.counts.exit hid hpoint rfl, ?_, fun hne => h.begun ?_, fun hidle => ?_⟩
  · refine logged_of_move h.logged rfl (fun j hj => ?_) ?_
    · simp [Process.finish, hj]
    · simp only [Process.finish, entries_suspend, exits_suspend, entries_exitTicket,
        exits_exitTicket, if_true, SubmissionPoint.inFlight, Bool.false_eq_true, if_false]
      omega
  · intro hnot
    apply hne
    simp only [Process.finish, exitTicket, Process.note, Process.suspend, hnot]
  · -- the drain has returned, has been woken before, or is woken by this exit
    have hdown : (p.finish id result).gate.inflight = 0 ↔ p.gate.exit.inflight = 0 := Iff.rfl
    have hexit : p.gate.inflight = 0 → p.gate.exit.inflight = 0 := by
      intro hzero
      simp [Gate.exit, hzero]
    rw [hdown]
    simp only [Process.finish, exitTicket, Process.note, Process.suspend] at hidle
    cases hs : p.shutdown with
    | notBegun => simp [hs] at hidle
    | stoppingAutoTrade => simp [hs] at hidle
    | timedOut => simp [hs] at hidle
    | drained => exact hexit (h.idle (.inl hs))
    | waiting woken =>
        cases woken with
        | true => exact hexit (h.idle (.inr hs))
        | false => simpa [hs] using hidle

/-! ### Each step -/

theorem submitArbTicket (h : p.Drains) (hid : p.submissions.get? id = none) (cfg : Settings)
    (t : Instant) (opp : ArbOpportunity) (acct : AccountId) (recordNonfill : Bool) :
    (p.submitArbTicket cfg t id opp acct recordNonfill).Drains := by
  unfold Process.submitArbTicket
  cases hr : refusedBeforeEntry cfg p.state t.utc opp with
  | some reason =>
      refine h.refused hid ?_
      cases recordNonfill <;> rfl
  | none =>
      have hopen : p.state.draining = false := by
        by_contra hd
        rw [refusedBeforeEntry_of_draining cfg (Bool.not_eq_false _ ▸ hd)] at hr
        cases hr
      simp only
      cases submitChecked cfg (p.enterTicket id).state t opp acct with
      | raised error => exact h.enter_finish hid hopen _
      | admitted live => exact h.enter hid hopen rfl
      | refused status reason =>
          cases recordNonfill with
          | true => exact h.enter hid hopen rfl
          | false => exact h.enter_finish hid hopen _

theorem submitArbTicketForDescriptor (h : p.Drains) (hid : p.submissions.get? id = none)
    (cfg : Settings) (t : Instant) (eventGroupId : GroupId)
    (outcomeIds : Option (List OutcomeId)) (acct : AccountId) :
    (p.submitArbTicketForDescriptor cfg t id eventGroupId outcomeIds acct).Drains := by
  unfold Process.submitArbTicketForDescriptor
  cases p.state.liveOpportunitiesFor t.now eventGroupId with
  | error error => exact h.refused hid rfl
  | ok candidates =>
      simp only
      cases candidates.find? (names eventGroupId outcomeIds) with
      | some candidate => exact h.submitArbTicket hid cfg t candidate acct true
      | none => exact h.refused hid rfl

theorem notify (h : p.Drains) (hid : p.submissions.get? id = some point)
    (hpoint : point.inFlight = true) (orders : List Order) (left : ℕ) :
    (p.notify id orders left).Drains := by
  cases left with
  | zero => exact h.suspend hid hpoint.symm
  | succ left => exact h.suspend hid hpoint.symm

theorem commit (h : p.Drains) (hid : p.submissions.get? id = some point)
    (hpoint : point.inFlight = true) (t : Instant) (intent : ExecutionIntent) :
    (p.commit t id intent).Drains := by
  have hcommitted := (h.withState (s := { p.state with brokers :=
    (Router.commitAtomically p.state.brokers p.state.book (fun _ => t.now) intent).1 })
    fun hd => hd).note (e := .committed id) (by simp) (by simp)
  simp only [Process.commit]
  split
  · exact hcommitted.notify hid hpoint _ _
  · exact hcommitted.suspend hid hpoint.symm

theorem preview (h : p.Drains) (hid : p.submissions.get? id = some point)
    (hpoint : point.inFlight = true) (t : Instant) (task : TicketTask) :
    (p.preview t id task).Drains := by
  unfold Process.preview
  split
  · exact h.suspend hid hpoint.symm
  · exact h.commit hid hpoint t task.intent
  · exact h.suspend hid hpoint.symm

theorem resume (h : p.Drains) (t : Instant) (id : TicketId) : (p.resume t id).Drains := by
  unfold Process.resume
  cases hid : p.submissions.get? id with
  | none => exact h
  | some point =>
      cases point with
      | ended result => exact h
      | refusedBefore result => exact h.suspend hid rfl
      | refusing result => exact h.finish hid rfl result
      | notifying left orders => exact h.notify hid rfl orders left
      | writingRejectedLegs error => exact h.finish hid rfl _
      | submitting task =>
          simp only
          split
          · exact (h.note (by simp) (by simp)).preview hid rfl t task
          · exact h.preview hid rfl t task
      | settingStatus result =>
          cases result with
          | ok orders => exact h.finish hid rfl _
          | error error => exact h.suspend hid rfl

theorem fail (h : p.Drains) (id : TicketId) : (p.fail id).Drains := by
  cases hid : p.submissions.get? id with
  | none => simpa only [Process.fail, hid] using h
  | some point =>
      cases hpoint : point.inFlight with
      | true =>
          rw [fail_of_inFlight hid hpoint]
          exact h.finish hid hpoint .raised
      | false =>
          unfold Process.fail
          obtain ⟨result, rfl⟩ | ⟨result, rfl⟩ := SubmissionPoint.of_not_inFlight hpoint
          · rw [hid]
            exact h
          · rw [hid]
            exact h.suspend hid rfl

/-- The drain does not wait when no ticket is in flight. -/
theorem awaitIdle (h : p.Drains) (hp : p.shutdown = .stoppingAutoTrade) : p.awaitIdle.Drains := by
  have hdraining : p.state.draining = true := h.begun (by rw [hp]; simp)
  refine ⟨h.counts, h.logged, fun _ => hdraining, fun hidle => ?_⟩
  change p.gate.inflight = 0
  simp only [Process.awaitIdle] at hidle
  by_contra hbusy
  have hflag : p.gate.idle = false := by
    by_contra hset
    exact hbusy (h.counts.idle.mp (Bool.not_eq_false _ ▸ hset))
  simp [hbusy, hflag] at hidle

end Drains

/-- **Every step keeps the gate right.** -/
theorem drains_step (cfg : Settings) (p : Process) (e : ProcessEvent) (h : p.Drains) :
    (p.step cfg e).Drains := by
  cases e with
  | submit t id opp acct recordNonfill =>
      simp only [step]
      split
      · exact h
      · rename_i hid
        exact h.submitArbTicket (by simpa using hid) cfg t opp acct recordNonfill
  | describe t id eventGroupId outcomeIds acct =>
      simp only [step]
      split
      · exact h
      · rename_i hid
        exact h.submitArbTicketForDescriptor (by simpa using hid) cfg t eventGroupId outcomeIds acct
  | resume t id => exact h.resume t id
  | fail id => exact h.fail id
  | beginDraining => exact h.withState fun _ => rfl
  | shutdown =>
      simp only [step]
      split
      · exact ⟨h.counts, h.logged, fun _ => rfl, fun hidle => by simp at hidle⟩
      · exact h
  | autoTradeStopped =>
      simp only [step]
      split
      · rename_i hp
        exact h.awaitIdle hp
      · exact h
  | idleWaited =>
      simp only [step]
      split
      · rename_i hp
        exact ⟨h.counts, h.logged, fun _ => h.begun (by rw [hp]; simp), fun _ => h.idle (.inr hp)⟩
      · exact h
  | drainTimeout =>
      simp only [step]
      split
      · rename_i woken hp
        exact ⟨h.counts, h.logged, fun _ => h.begun (by rw [hp]; simp),
          fun hidle => by simp at hidle⟩
      · exact h
  | other s => exact h.withState fun hd => by simp [hd]

theorem drains_run (cfg : Settings) (s : AppState) (es : List ProcessEvent) :
    (Runs.run (step cfg) (start s) es).Drains :=
  Runs.run_inv (drains_step cfg) es (drains_start s)

/-! ## The barrier -/

/-- No ticket is in flight and none can enter. -/
structure Closed (p : Process) : Prop where
  draining : p.state.draining = true
  none_inFlight : ∀ id point, p.submissions.get? id = some point → point.inFlight = false

theorem Drains.closed {p : Process} (h : p.Drains) (hp : p.shutdown = .drained) : p.Closed where
  draining := h.begun (by rw [hp]; simp)
  none_inFlight := h.counts.inflight_eq_zero_iff.mp (h.idle (.inl hp))

/-- A step of a closed process touches neither the log nor, where it is a
ticket's, the state. -/
structure StaysClosed (p p' : Process) (ofTicket : Bool) : Prop where
  closed : p'.Closed
  log : p'.log = p.log
  state : ofTicket = true → p'.state = p.state

namespace Closed

variable {p : Process} {ofTicket : Bool}

theorem stay (h : p.Closed) : p.StaysClosed p ofTicket := ⟨h, rfl, fun _ => rfl⟩

theorem suspend (h : p.Closed) (id : TicketId) {point : SubmissionPoint}
    (hpoint : point.inFlight = false) : p.StaysClosed (p.suspend id point) ofTicket := by
  refine ⟨⟨h.draining, fun j y hy => ?_⟩, rfl, fun _ => rfl⟩
  simp only [Process.suspend, Dict.get?_set] at hy
  split at hy
  · cases hy
    exact hpoint
  · exact h.none_inFlight j y hy

/-- Another task's step. -/
theorem other (h : p.Closed) {p' : Process} (hsub : p'.submissions = p.submissions)
    (hlog : p'.log = p.log) (hd : p'.state.draining = true) : p.StaysClosed p' false :=
  ⟨⟨hd, fun id point hid => h.none_inFlight id point (hsub ▸ hid)⟩, hlog, fun h => by cases h⟩

theorem submitArbTicket (h : p.Closed) (cfg : Settings) (t : Instant) (id : TicketId)
    (opp : ArbOpportunity) (acct : AccountId) (recordNonfill : Bool) :
    p.StaysClosed (p.submitArbTicket cfg t id opp acct recordNonfill) ofTicket := by
  unfold Process.submitArbTicket
  rw [refusedBeforeEntry_of_draining cfg h.draining]
  apply h.suspend
  cases recordNonfill <;> rfl

theorem submitArbTicketForDescriptor (h : p.Closed) (cfg : Settings) (t : Instant)
    (id : TicketId) (eventGroupId : GroupId) (outcomeIds : Option (List OutcomeId))
    (acct : AccountId) :
    p.StaysClosed (p.submitArbTicketForDescriptor cfg t id eventGroupId outcomeIds acct)
      ofTicket := by
  unfold Process.submitArbTicketForDescriptor
  split
  · exact h.suspend id rfl
  · split
    · exact h.submitArbTicket cfg t id _ acct true
    · exact h.suspend id rfl

theorem resume (h : p.Closed) (t : Instant) (id : TicketId) :
    p.StaysClosed (p.resume t id) ofTicket := by
  unfold Process.resume
  cases hid : p.submissions.get? id with
  | none => exact h.stay
  | some point =>
      obtain ⟨result, rfl⟩ | ⟨result, rfl⟩ :=
        SubmissionPoint.of_not_inFlight (h.none_inFlight id point hid)
      · exact h.stay
      · exact h.suspend id rfl

theorem fail (h : p.Closed) (id : TicketId) : p.StaysClosed (p.fail id) ofTicket := by
  unfold Process.fail
  cases hid : p.submissions.get? id with
  | none => exact h.stay
  | some point =>
      obtain ⟨result, rfl⟩ | ⟨result, rfl⟩ :=
        SubmissionPoint.of_not_inFlight (h.none_inFlight id point hid)
      · exact h.stay
      · exact h.suspend id rfl

theorem step (h : p.Closed) (cfg : Settings) (e : ProcessEvent) :
    p.StaysClosed (p.step cfg e) e.ofTicket := by
  cases e with
  | submit t id opp acct recordNonfill =>
      simp only [Process.step]
      split
      · exact h.stay
      · exact h.submitArbTicket cfg t id opp acct recordNonfill
  | describe t id eventGroupId outcomeIds acct =>
      simp only [Process.step]
      split
      · exact h.stay
      · exact h.submitArbTicketForDescriptor cfg t id eventGroupId outcomeIds acct
  | resume t id => exact h.resume t id
  | fail id => exact h.fail id
  | beginDraining => exact h.other rfl rfl rfl
  | shutdown =>
      simp only [Process.step]
      split
      · exact h.other rfl rfl rfl
      · exact h.stay
  | autoTradeStopped =>
      simp only [Process.step]
      split
      · exact h.other rfl rfl h.draining
      · exact h.stay
  | idleWaited =>
      simp only [Process.step]
      split
      · exact h.other rfl rfl h.draining
      · exact h.stay
  | drainTimeout =>
      simp only [Process.step]
      split
      · exact h.other rfl rfl h.draining
      · exact h.stay
  | other s => exact h.other rfl rfl (by simp [Process.step, h.draining])

/-- **The barrier, over a run.** -/
theorem run (h : p.Closed) (cfg : Settings) (es : List ProcessEvent) :
    (Runs.run (Process.step cfg) p es).Closed ∧
      (Runs.run (Process.step cfg) p es).log = p.log := by
  induction es generalizing p with
  | nil => exact ⟨h, rfl⟩
  | cons e es ih =>
      have hstep := h.step cfg e
      obtain ⟨hclosed, hlog⟩ := ih hstep.closed
      exact ⟨hclosed, hlog.trans hstep.log⟩

end Closed

/-! ## Every ticket ends -/

end Process

namespace SubmissionPoint

/-- How many balance reads may lie ahead of a suspended preview. -/
def previewsLeft (task : TicketTask) : ℕ :=
  match task.point with
  | .writing => task.intent.legs.length + 1
  | .readingBalance _ _ left _ => left.length

/-- How often a submission may still be resumed before it ends. -/
def resumptionsLeft : SubmissionPoint → ℕ
  | .ended _ => 0
  | .refusedBefore _ => 1
  | .refusing _ => 1
  | .writingRejectedLegs _ => 1
  | .settingStatus _ => 2
  | .notifying left _ => left + 3
  | .submitting task => previewsLeft task + sinkCallbacks * task.intent.legs.length + 3

theorem isEnded_of_resumptionsLeft {point : SubmissionPoint} (h : point.resumptionsLeft = 0) :
    point.isEnded = true := by
  cases point <;> first | rfl | simp [resumptionsLeft] at h

end SubmissionPoint

/-- A balance read of the preview is further on than where it was resumed. -/
theorem TicketTask.previewOn_inl {b : Brokers} {book : QuoteBook} {now : ℚ}
    {legs : List IntentLeg} {rejections : List LegRejection} {point : TicketPoint}
    (h : previewOn b book now legs rejections = .inl point) :
    ∃ leg cost left rejections', point = .readingBalance leg cost left rejections' ∧
      left.length < legs.length := by
  induction legs generalizing rejections with
  | nil => cases h
  | cons leg legs ih =>
      unfold previewOn at h
      split at h
      · obtain ⟨leg', cost, left, rejections', hpoint, hlt⟩ := ih h
        exact ⟨leg', cost, left, rejections', hpoint, by simp; omega⟩
      · split at h
        · cases h
          exact ⟨leg, _, legs, rejections, rfl, by simp⟩
        · obtain ⟨leg', cost, left, rejections', hpoint, hlt⟩ := ih h
          exact ⟨leg', cost, left, rejections', hpoint, by simp; omega⟩

theorem Router.length_applied_le (book : QuoteBook) (clock : ℕ → ℚ) (acct : AccountId)
    (ticketId : Option TicketId) (n : ℕ) (b : Brokers) (legs : List IntentLeg) :
    (commitLegs book clock acct ticketId n b legs).applied.length ≤ legs.length := by
  induction legs generalizing n b with
  | nil => exact le_refl _
  | cons leg legs ih =>
      rcases commitLegs_cons b book clock acct ticketId n leg legs with
        ⟨_, heq⟩ | ⟨a, reason, _, _, heq⟩ | ⟨a, px, cost, _, _, _, heq⟩
      · rw [heq]
        simp
      · rw [heq]
        simp
      · rw [heq]
        simpa using ih (n + 1) _

/-- A commit has an order for no more than each leg. -/
theorem Router.length_orders_le {b : Brokers} {book : QuoteBook} {clock : ℕ → ℚ}
    {intent : ExecutionIntent} {orders : List Order}
    (h : (commitAtomically b book clock intent).2 = .ok orders) :
    orders.length ≤ intent.legs.length := by
  unfold commitAtomically at h
  simp only at h
  split at h
  · cases h
  · cases h
    simpa using length_applied_le book clock intent.accountId intent.ticketId 0 b intent.legs

/-- The next step of the submission itself. -/
def ProcessEvent.resumes (id : TicketId) : ProcessEvent → Bool
  | .resume _ j => decide (j = id)
  | .fail j => decide (j = id)
  | _ => false

namespace Process

section Move

variable {p : Process} {id : TicketId} {n : ℕ}

/-- The submission has at most `n` resumptions left. -/
def Within (p : Process) (id : TicketId) (n : ℕ) : Prop :=
  ∃ point, p.submissions.get? id = some point ∧ point.resumptionsLeft ≤ n

theorem Within.mono {m : ℕ} (h : p.Within id n) (hle : n ≤ m) : p.Within id m := by
  obtain ⟨point, hid, hleft⟩ := h
  exact ⟨point, hid, by omega⟩

theorem within_suspend (p : Process) {point : SubmissionPoint}
    (h : point.resumptionsLeft ≤ n) : (p.suspend id point).Within id n :=
  ⟨point, Dict.get?_set_self .., h⟩

theorem within_finish (p : Process) (result : TicketEnd) : (p.finish id result).Within id n :=
  within_suspend _ (Nat.zero_le n)

theorem within_notify (p : Process) (orders : List Order) {left : ℕ} (h : left + 2 ≤ n) :
    (p.notify id orders left).Within id n := by
  cases left with
  | zero => exact within_suspend p h
  | succ left => exact within_suspend p (by simp only [SubmissionPoint.resumptionsLeft]; omega)

theorem within_commit (p : Process) (t : Instant) {intent : ExecutionIntent}
    (h : sinkCallbacks * intent.legs.length + 2 ≤ n) : (p.commit t id intent).Within id n := by
  simp only [commit]
  split
  · rename_i orders hok
    apply within_notify
    have hle := Nat.mul_le_mul_left sinkCallbacks (Router.length_orders_le hok)
    omega
  · exact within_suspend _ (by simp only [SubmissionPoint.resumptionsLeft]; omega)

theorem within_preview (p : Process) (t : Instant) {task : TicketTask}
    (h : (SubmissionPoint.submitting task).resumptionsLeft ≤ n + 1) :
    (p.preview t id task).Within id n := by
  simp only [SubmissionPoint.resumptionsLeft] at h
  unfold preview
  split
  · rename_i point hpoint
    -- the preview waits in a later balance read
    have hlater : SubmissionPoint.previewsLeft { task with point := point } + 1 ≤
        SubmissionPoint.previewsLeft task := by
      unfold TicketTask.resume at hpoint
      split at hpoint
      · rename_i hwriting
        obtain ⟨leg, cost, left, rejections, rfl, hlt⟩ := TicketTask.previewOn_inl hpoint
        simp only [SubmissionPoint.previewsLeft, hwriting]
        omega
      · rename_i hreading
        obtain ⟨leg, cost, left, rejections, rfl, hlt⟩ := TicketTask.previewOn_inl hpoint
        simp only [SubmissionPoint.previewsLeft, hreading]
        omega
    apply within_suspend
    simp only [SubmissionPoint.resumptionsLeft]
    omega
  · exact within_commit p t (by omega)
  · exact within_suspend p (by simp only [SubmissionPoint.resumptionsLeft]; omega)

theorem within_resume (h : p.Within id n) (t : Instant) : (p.resume t id).Within id (n - 1) := by
  obtain ⟨point, hid, hleft⟩ := h
  unfold resume
  rw [hid]
  cases point with
  | ended result => exact ⟨_, hid, Nat.zero_le _⟩
  | refusedBefore result => exact within_suspend p (Nat.zero_le _)
  | refusing result => exact within_finish p result
  | writingRejectedLegs error => exact within_finish p _
  | notifying left orders =>
      simp only [SubmissionPoint.resumptionsLeft] at hleft
      exact within_notify p orders (by omega)
  | submitting task =>
      have hpos : 1 ≤ n := by
        simp only [SubmissionPoint.resumptionsLeft] at hleft
        omega
      exact within_preview _ t (by omega)
  | settingStatus result =>
      simp only [SubmissionPoint.resumptionsLeft] at hleft
      cases result with
      | ok orders => exact within_finish p _
      | error error =>
          exact within_suspend p (by simp only [SubmissionPoint.resumptionsLeft]; omega)

theorem within_fail (h : p.Within id n) : (p.fail id).Within id (n - 1) := by
  obtain ⟨point, hid, hleft⟩ := h
  cases hpoint : point.inFlight with
  | true =>
      rw [fail_of_inFlight hid hpoint]
      exact within_finish p .raised
  | false =>
      unfold fail
      obtain ⟨result, rfl⟩ | ⟨result, rfl⟩ := SubmissionPoint.of_not_inFlight hpoint
      · rw [hid]
        exact ⟨_, hid, Nat.zero_le _⟩
      · rw [hid]
        exact within_suspend p (Nat.zero_le _)

end Move

/-! ### A step of one ticket leaves the others alone -/

section Off

variable (p : Process) {id j : TicketId}

theorem off_suspend (h : id ≠ j) (point : SubmissionPoint) :
    (p.suspend j point).submissions.get? id = p.submissions.get? id :=
  Dict.get?_set_ne _ h _

theorem off_notify (h : id ≠ j) (orders : List Order) (left : ℕ) :
    (p.notify j orders left).submissions.get? id = p.submissions.get? id := by
  cases left with
  | zero => exact off_suspend p h _
  | succ left => exact off_suspend p h _

theorem off_preview (h : id ≠ j) (t : Instant) (task : TicketTask) :
    (p.preview t j task).submissions.get? id = p.submissions.get? id := by
  unfold preview
  split
  · exact off_suspend p h _
  · simp only [commit]
    split
    · exact off_notify _ h _ _
    · exact off_suspend _ h _
  · exact off_suspend p h _

theorem off_resume (h : id ≠ j) (t : Instant) :
    (p.resume t j).submissions.get? id = p.submissions.get? id := by
  unfold resume
  split
  · rfl
  · rfl
  · exact off_suspend p h _
  · exact off_suspend _ h _
  · rename_i task _
    split
    · exact off_preview _ h t task
    · exact off_preview p h t task
  · exact off_notify p h _ _
  · exact off_suspend _ h _
  · exact off_suspend p h _
  · exact off_suspend _ h _

theorem off_fail (h : id ≠ j) : (p.fail j).submissions.get? id = p.submissions.get? id := by
  unfold fail
  split
  · rfl
  · rfl
  · exact off_suspend p h _
  · exact off_suspend _ h _

theorem off_submitArbTicket (h : id ≠ j) (cfg : Settings) (t : Instant) (opp : ArbOpportunity)
    (acct : AccountId) (recordNonfill : Bool) :
    (p.submitArbTicket cfg t j opp acct recordNonfill).submissions.get? id =
      p.submissions.get? id := by
  simp only [submitArbTicket]
  split
  · exact off_suspend p h _
  · split
    · exact off_suspend _ h _
    · split
      · exact off_suspend _ h _
      · exact off_suspend _ h _
    · exact off_suspend _ h _

theorem off_submitArbTicketForDescriptor (h : id ≠ j) (cfg : Settings) (t : Instant)
    (eventGroupId : GroupId) (outcomeIds : Option (List OutcomeId)) (acct : AccountId) :
    (p.submitArbTicketForDescriptor cfg t j eventGroupId outcomeIds acct).submissions.get? id =
      p.submissions.get? id := by
  unfold submitArbTicketForDescriptor
  split
  · exact off_suspend p h _
  · split
    · exact off_submitArbTicket p h cfg t _ acct true
    · exact off_suspend p h _

end Off

/-- **A step of any kind** does not keep a submission from ending. -/
theorem within_step {p : Process} {id : TicketId} {n : ℕ} (h : p.Within id n) (cfg : Settings)
    (e : ProcessEvent) : (p.step cfg e).Within id (n - if e.resumes id then 1 else 0) := by
  -- a step that leaves the submission where it is takes nothing off the count
  have hsame : ∀ p' : Process, p'.submissions.get? id = p.submissions.get? id → p'.Within id n := by
    intro p' hp'
    obtain ⟨point, hid, hleft⟩ := h
    exact ⟨point, hp'.trans hid, hleft⟩
  have hknown : (p.submissions.get? id).isSome = true := by
    obtain ⟨point, hid, _⟩ := h
    rw [hid]
    rfl
  cases e with
  | submit t j opp acct recordNonfill =>
      apply hsame
      simp only [step]
      split
      · rfl
      · rename_i hj
        exact off_submitArbTicket p (by rintro rfl; exact hj hknown) cfg t opp acct recordNonfill
  | describe t j eventGroupId outcomeIds acct =>
      apply hsame
      simp only [step]
      split
      · rfl
      · rename_i hj
        exact off_submitArbTicketForDescriptor p (by rintro rfl; exact hj hknown) cfg t eventGroupId
          outcomeIds acct
  | resume t j =>
      by_cases hj : j = id
      · subst hj
        simpa [ProcessEvent.resumes, step] using within_resume h t
      · simpa [ProcessEvent.resumes, step, hj] using hsame _ (off_resume p (Ne.symm hj) t)
  | fail j =>
      by_cases hj : j = id
      · subst hj
        simpa [ProcessEvent.resumes, step] using within_fail h
      · simpa [ProcessEvent.resumes, step, hj] using hsame _ (off_fail p (Ne.symm hj))
  | beginDraining => exact hsame _ rfl
  | shutdown =>
      apply hsame
      simp only [step]
      split <;> rfl
  | autoTradeStopped =>
      apply hsame
      simp only [step]
      split <;> rfl
  | idleWaited =>
      apply hsame
      simp only [step]
      split <;> rfl
  | drainTimeout =>
      apply hsame
      simp only [step]
      split <;> rfl
  | other s => exact hsame _ rfl

/-- **A submission ends** when it is resumed often enough, whatever runs in
between. -/
theorem within_run {p : Process} {id : TicketId} {n : ℕ} (h : p.Within id n) (cfg : Settings)
    (es : List ProcessEvent) :
    (Runs.run (step cfg) p es).Within id (n - es.countP (·.resumes id)) := by
  induction es generalizing p n with
  | nil => exact h
  | cons e es ih =>
      refine (ih (within_step h cfg e)).mono ?_
      rw [List.countP_cons]
      omega

/-! ## The drain -/

/-- **Drain is a barrier.** In every state a process reaches: the count is that
of the tickets in flight; a ticket entered at most once, and has exited as
often when it ends, by whatever way; every ticket ends when it is resumed often
enough, and with all ended the count is zero; and once the drain has returned
with nothing in flight, no ticket enters, reaches the router or commits, and no
step of a ticket changes a broker. -/
theorem drain_is_barrier (cfg : Settings) (s : AppState) (es : List ProcessEvent) :
    let p := Runs.run (step cfg) (start s) es
    (0 ≤ p.gate.inflight ∧
      p.gate.inflight = Gate.insiders SubmissionPoint.inFlight p.submissions) ∧
    (∀ id, p.entries id ≤ 1 ∧ p.exits id ≤ p.entries id) ∧
    (∀ id result, p.submissions.get? id = some (.ended result) → p.exits id = p.entries id) ∧
    (∀ id point, p.submissions.get? id = some point → ∃ n, ∀ es',
      n ≤ es'.countP (·.resumes id) →
        ∃ result, (Runs.run (step cfg) p es').submissions.get? id = some (.ended result)) ∧
    ((∀ id point, p.submissions.get? id = some point → point.isEnded = true) →
      p.gate.inflight = 0) ∧
    (p.shutdown = .drained → ∀ es',
      let p' := Runs.run (step cfg) p es'
      p'.log = p.log ∧
        ∀ e, e.ofTicket = true → (p'.step cfg e).state.brokers = p'.state.brokers) := by
  intro p
  have h : p.Drains := drains_run cfg s es
  refine ⟨⟨h.counts.inflight_nonneg, h.counts.inflight⟩, fun id => ?_, fun id result hid => ?_,
    fun id point hid => ?_, fun hended => ?_, fun hdrained es' => ?_⟩
  · have hlogged := h.logged id
    unfold Logged at hlogged
    split at hlogged <;> omega
  · have hlogged := h.logged id
    rw [Logged, hid] at hlogged
    exact hlogged.2.symm
  · -- a submission is never further from its end than its point says
    refine ⟨point.resumptionsLeft, fun es' hn => ?_⟩
    obtain ⟨point', hid', hleft⟩ := within_run ⟨point, hid, le_refl _⟩ cfg es'
    have hended : point'.isEnded = true :=
      SubmissionPoint.isEnded_of_resumptionsLeft (by omega)
    cases point' with
    | ended result => exact ⟨result, hid'⟩
    | refusedBefore _ => cases hended
    | refusing _ => cases hended
    | submitting _ => cases hended
    | notifying _ _ => cases hended
    | settingStatus _ => cases hended
    | writingRejectedLegs _ => cases hended
  · exact h.counts.inflight_eq_zero_iff.mpr fun id point hid =>
      SubmissionPoint.inFlight_of_isEnded (hended id point hid)
  · obtain ⟨hclosed, hlog⟩ := (h.closed hdrained).run cfg es'
    exact ⟨hlog, fun e he => congrArg AppState.brokers ((hclosed.step cfg e).state he)⟩

-- a ticket in flight when the shutdown begins is waited for; the next is refused
example :
    let t : Instant := ⟨0, 0⟩
    let p := Runs.run (step .default) (start TwoVenues.state)
      ([.submit t "one" TwoVenues.opportunity "default" true, .shutdown, .autoTradeStopped,
        .submit t "two" TwoVenues.opportunity "default" false] ++
        List.replicate 14 (.resume t "one") ++ [.idleWaited])
    p.shutdown = .drained ∧
      p.log = [.entered "one", .routed "one", .committed "one", .exited "one"] := by
  decide +kernel

end Process

end Arbys
