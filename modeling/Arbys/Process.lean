import Arbys.Lib.Gate
import Arbys.EventLoop

/-!
# Submissions under way in a process that may shut down

`enter_ticket`, `exit_ticket` and the drain of `AppState.shutdown`, over every
submission there is. A submission is carried from await to await through all
of `submit_arb_ticket`, `_submit_checked` and the router, so every way out is a
step of its own: a refusal before or after it entered, the row of the refusal
or none, a filled ticket, a rejected one, and an exception at any await.

What else runs on the loop is not restricted: another task may leave any state
behind it, but does not reopen a process that is shutting down.
-/

namespace Arbys

/-! ## The two halves of the checks -/

/-- `submit_arb_ticket` up to `enter_ticket`. -/
def refusedBeforeEntry (cfg : Settings) (s : AppState) (utc : ℚ) (opp : ArbOpportunity) :
    Option TicketReason :=
  if s.draining then some (.draining opp.eventGroupId)
  else if s.autoSettle.isSettled opp.eventGroupId then some (.alreadySettled opp.eventGroupId)
  else startsTooFarOut cfg s utc opp

/-- `_submit_checked` up to the `pending` write. -/
def submitChecked (cfg : Settings) (s : AppState) (t : Instant) (opp : ArbOpportunity)
    (acct : AccountId) : Admission :=
  match matchLive s t.now opp with
  | .error error => .raised error
  | .ok none => .refused .missed (.edgeNoLongerAvailable opp.eventGroupId)
  | .ok (some live) =>
      match implausibleEdge cfg live with
      | some reason => .refused .rejected reason
      | none =>
          match staleLegSkew cfg s t.now live with
          | some reason => .refused .rejected reason
          | none =>
              match capBreach cfg s live acct with
              | some reason => .refused .rejected reason
              | none => .admitted live

/-- Together they are the admission. -/
theorem admission_eq (cfg : Settings) (s : AppState) (t : Instant) (opp : ArbOpportunity)
    (acct : AccountId) :
    admission cfg s t opp acct =
      match refusedBeforeEntry cfg s t.utc opp with
      | some reason => .refused .rejected reason
      | none => submitChecked cfg s t opp acct := by
  unfold admission refusedBeforeEntry
  split
  · rfl
  · split
    · rfl
    · cases startsTooFarOut cfg s t.utc opp with
      | some reason => rfl
      | none => rfl

/-- **No ticket enters while draining.** -/
theorem refusedBeforeEntry_of_draining (cfg : Settings) {s : AppState} (h : s.draining = true)
    (utc : ℚ) (opp : ArbOpportunity) :
    refusedBeforeEntry cfg s utc opp = some (.draining opp.eventGroupId) := by
  simp only [refusedBeforeEntry, h, if_true]

/-! ## A submission -/

inductive TicketEnd where
  | returned (status : TicketStatus) (reason : Option TicketReason)
  | raised
  deriving DecidableEq

/-- The await a submission is suspended in, or how it ended. -/
inductive SubmissionPoint where
  /-- The row of a ticket refused before `enter_ticket`. -/
  | refusedBefore (result : TicketEnd)
  /-- The row of a ticket refused by `_submit_checked`. -/
  | refusing (result : TicketEnd)
  /-- The `pending` row, or a balance read of the router's preview. -/
  | submitting (task : TicketTask)
  /-- A sink callback of a committed ticket, with this many still to come. -/
  | notifying (left : ℕ) (orders : List Order)
  /-- `_set_status`, when the router has returned or raised. -/
  | settingStatus (result : Except InsufficientLegsError (List Order))
  | writingRejectedLegs (error : InsufficientLegsError)
  | ended (result : TicketEnd)

namespace SubmissionPoint

/-- Between `enter_ticket` and `exit_ticket`. -/
def inFlight : SubmissionPoint → Bool
  | .refusedBefore _ => false
  | .ended _ => false
  | _ => true

def isEnded : SubmissionPoint → Bool
  | .ended _ => true
  | _ => false

theorem inFlight_of_isEnded {point : SubmissionPoint} (h : point.isEnded = true) :
    point.inFlight = false := by
  cases point <;> first | rfl | cases h

/-- A submission outside the gate has ended or is being refused before it. -/
theorem of_not_inFlight {point : SubmissionPoint} (h : point.inFlight = false) :
    (∃ result, point = .ended result) ∨ ∃ result, point = .refusedBefore result := by
  cases point with
  | ended result => exact .inl ⟨result, rfl⟩
  | refusedBefore result => exact .inr ⟨result, rfl⟩
  | refusing _ => cases h
  | submitting _ => cases h
  | notifying _ _ => cases h
  | settingStatus _ => cases h
  | writingRejectedLegs _ => cases h

end SubmissionPoint

/-- The callbacks of `emit_order_events` for one filled order. -/
def sinkCallbacks : ℕ := 4

/-! ## The process -/

inductive ShutdownPoint where
  | notBegun
  | stoppingAutoTrade
  /-- In `_idle.wait()`; `woken` once the flag was raised. -/
  | waiting (woken : Bool)
  | drained
  | timedOut
  deriving DecidableEq

inductive TicketEvent where
  | entered (ticketId : TicketId)
  | exited (ticketId : TicketId)
  /-- `ExecutionRouter.submit` was called. -/
  | routed (ticketId : TicketId)
  /-- `_commit_atomically` was. -/
  | committed (ticketId : TicketId)
  deriving DecidableEq

structure Process where
  state : AppState
  gate : Gate := {}
  submissions : Dict TicketId SubmissionPoint := Dict.empty
  shutdown : ShutdownPoint := .notBegun
  log : List TicketEvent := []

/-- What the loop runs next. `submit` and `describe` are calls up to their
first await, under the id drawn for the ticket. -/
inductive ProcessEvent where
  | submit (t : Instant) (ticketId : TicketId) (opp : ArbOpportunity) (acct : AccountId)
      (recordNonfill : Bool)
  | describe (t : Instant) (ticketId : TicketId) (eventGroupId : GroupId)
      (outcomeIds : Option (List OutcomeId)) (acct : AccountId)
  | resume (t : Instant) (ticketId : TicketId)
  /-- The await the submission is suspended in raises; a cancellation does. -/
  | fail (ticketId : TicketId)
  | beginDraining
  | shutdown
  | autoTradeStopped
  | idleWaited
  | drainTimeout
  /-- Any other task, which leaves this state. -/
  | other (s : AppState)

/-- The steps of a ticket, as opposed to those of other tasks. -/
def ProcessEvent.ofTicket : ProcessEvent → Bool
  | .submit _ _ _ _ _ => true
  | .describe _ _ _ _ _ => true
  | .resume _ _ => true
  | .fail _ => true
  | _ => false

namespace Process

def start (s : AppState) : Process := { state := s }

def note (p : Process) (e : TicketEvent) : Process := { p with log := p.log ++ [e] }

def suspend (p : Process) (id : TicketId) (point : SubmissionPoint) : Process :=
  { p with submissions := p.submissions.set id point }

def enterTicket (p : Process) (id : TicketId) : Process :=
  { p with gate := p.gate.enter }.note (.entered id)

/-- `exit_ticket`. Raising the flag wakes the drain if it waits. -/
def exitTicket (p : Process) (id : TicketId) : Process :=
  let gate := p.gate.exit
  { p with
    gate := gate
    shutdown :=
      match p.shutdown with
      | .waiting woken => .waiting (woken || decide (gate.inflight = 0))
      | point => point }.note (.exited id)

/-- The `finally` of `submit_arb_ticket`. -/
def finish (p : Process) (id : TicketId) (result : TicketEnd) : Process :=
  (p.exitTicket id).suspend id (.ended result)

/-- `submit_arb_ticket` up to its first await. -/
def submitArbTicket (cfg : Settings) (p : Process) (t : Instant) (id : TicketId)
    (opp : ArbOpportunity) (acct : AccountId) (recordNonfill : Bool) : Process :=
  match refusedBeforeEntry cfg p.state t.utc opp with
  | some reason =>
      let result : TicketEnd := .returned .rejected (some reason)
      p.suspend id (if recordNonfill then .refusedBefore result else .ended result)
  | none =>
      let p := p.enterTicket id
      match submitChecked cfg p.state t opp acct with
      | .raised _ => p.finish id .raised
      | .refused status reason =>
          let result : TicketEnd := .returned status (some reason)
          if recordNonfill then p.suspend id (.refusing result) else p.finish id result
      | .admitted live => p.suspend id (.submitting ⟨live.toIntent acct (some id), .writing⟩)

/-- The pair a descriptor names. -/
def names (eventGroupId : GroupId) (outcomeIds : Option (List OutcomeId))
    (candidate : ArbOpportunity) : Bool :=
  decide (candidate.eventGroupId = eventGroupId) &&
    outcomeIds.all fun outcomes =>
      (buyLegs candidate).all (· ∈ outcomes) && outcomes.all (· ∈ buyLegs candidate)

/-- `submit_arb_ticket_for_descriptor` up to its first await. -/
def submitArbTicketForDescriptor (cfg : Settings) (p : Process) (t : Instant) (id : TicketId)
    (eventGroupId : GroupId) (outcomeIds : Option (List OutcomeId)) (acct : AccountId) : Process :=
  match p.state.liveOpportunitiesFor t.now eventGroupId with
  | .error _ => p.suspend id (.ended .raised)
  | .ok candidates =>
      match candidates.find? (names eventGroupId outcomeIds) with
      | some candidate => p.submitArbTicket cfg t id candidate acct true
      | none =>
          p.suspend id (.refusedBefore
            (.returned .missed (some (.edgeNoLongerAvailable eventGroupId))))

/-- On to the next sink callback, or to `_set_status` after the last. -/
def notify (p : Process) (id : TicketId) (orders : List Order) : ℕ → Process
  | 0 => p.suspend id (.settingStatus (.ok orders))
  | left + 1 => p.suspend id (.notifying left orders)

/-- `_commit_atomically` up to its first await. -/
def commit (p : Process) (t : Instant) (id : TicketId) (intent : ExecutionIntent) : Process :=
  let r := Router.commitAtomically p.state.brokers p.state.book (fun _ => t.now) intent
  let p := { p with state := { p.state with brokers := r.1 } }.note (.committed id)
  match r.2 with
  | .ok orders => p.notify id orders (sinkCallbacks * orders.length)
  | .error error => p.suspend id (.settingStatus (.error error))

/-- `ExecutionRouter.submit`, from where its preview is suspended. -/
def preview (p : Process) (t : Instant) (id : TicketId) (task : TicketTask) : Process :=
  match task.resume p.state.brokers p.state.book t.now with
  | .inl point => p.suspend id (.submitting { task with point := point })
  | .inr [] => p.commit t id task.intent
  | .inr rejections => p.suspend id (.settingStatus (.error (.preview rejections)))

/-- A submission from the await it is suspended in to the next. -/
def resume (p : Process) (t : Instant) (id : TicketId) : Process :=
  match p.submissions.get? id with
  | none => p
  | some (.ended _) => p
  | some (.refusedBefore result) => p.suspend id (.ended result)
  | some (.refusing result) => p.finish id result
  | some (.submitting task) =>
      (if task.point = .writing then p.note (.routed id) else p).preview t id task
  | some (.notifying left orders) => p.notify id orders left
  | some (.settingStatus (.ok _)) => p.finish id (.returned .filled none)
  -- no leg of an atomic ticket has been persisted when it is rejected
  | some (.settingStatus (.error error)) => p.suspend id (.writingRejectedLegs error)
  | some (.writingRejectedLegs error) =>
      p.finish id (.returned .rejected (some (.insufficientLegs error)))

/-- An exception at the await a submission is suspended in. -/
def fail (p : Process) (id : TicketId) : Process :=
  match p.submissions.get? id with
  | none => p
  | some (.ended _) => p
  | some (.refusedBefore _) => p.suspend id (.ended .raised)
  | some _ => p.finish id .raised

/-- `shutdown`, after the auto-trader has stopped. -/
def awaitIdle (p : Process) : Process :=
  { p with shutdown := if p.gate.inflight ≠ 0 ∧ p.gate.idle = false then .waiting false
    else .drained }

def step (cfg : Settings) (p : Process) : ProcessEvent → Process
  | .submit t id opp acct recordNonfill =>
      if (p.submissions.get? id).isSome then p
      else p.submitArbTicket cfg t id opp acct recordNonfill
  | .describe t id eventGroupId outcomeIds acct =>
      if (p.submissions.get? id).isSome then p
      else p.submitArbTicketForDescriptor cfg t id eventGroupId outcomeIds acct
  | .resume t id => p.resume t id
  | .fail id => p.fail id
  | .beginDraining => { p with state := { p.state with draining := true } }
  | .shutdown =>
      if p.shutdown = .notBegun then
        { p with
          state := { p.state with draining := true }
          shutdown := .stoppingAutoTrade }
      else p
  | .autoTradeStopped => if p.shutdown = .stoppingAutoTrade then p.awaitIdle else p
  | .idleWaited => if p.shutdown = .waiting true then { p with shutdown := .drained } else p
  | .drainTimeout =>
      match p.shutdown with
      | .waiting _ => { p with shutdown := .timedOut }
      | _ => p
  | .other s => { p with state := { s with draining := s.draining || p.state.draining } }

end Process

end Arbys
