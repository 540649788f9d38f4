import Arbys.SettleServices

/-!
# The event loop

Everything that runs concurrently on one event loop: ticket submissions, a
tick of `AutoSettleService`, a pass of `VenueSettleService`, quotes and
changes to the registry. A step runs one task from one await to the next, and
any task may be next. A submission is suspended in its `pending` write and in
each balance read of the router's preview; the commit itself does not await.

The history is what the theorems about runs speak about: each settlement,
each commit with the brokers after every fill, and how every ticket ended.
-/

namespace Arbys

open AccountState PaperExecutionAdapter

/-! ## A commit, fill by fill -/

/-- An `apply_fill` that filled, and the brokers after it. -/
structure FillRecord where
  venueId : VenueId
  order : Order
  fill : Fill
  after : Brokers

namespace Router

/-- The fills of `commitLegs`, in order. -/
def fillRecords (book : QuoteBook) (clock : ℕ → ℚ) (acct : AccountId)
    (ticketId : Option TicketId) : ℕ → Brokers → List IntentLeg → List FillRecord
  | _, _, [] => []
  | n, b, leg :: legs =>
      match b.get? leg.venueId with
      | none => []
      | some a =>
          let r := a.applyFill book (clock n) acct leg.outcomeId leg.isBuy leg.qty
            leg.limitPrice ticketId
          match r.fill with
          | none => []
          | some fill =>
              ⟨leg.venueId, r.order, fill, b.put r.adapter⟩ ::
                fillRecords book clock acct ticketId (n + 1) (b.put r.adapter) legs

/-- **A leg that a commit reaches** stops it, with no fill, or fills at the
previewed price and leaves the rest to be committed. -/
theorem fillRecords_cons (b : Brokers) (book : QuoteBook) (clock : ℕ → ℚ) (acct : AccountId)
    (ticketId : Option TicketId) (n : ℕ) (leg : IntentLeg) (legs : List IntentLeg) :
    (fillRecords book clock acct ticketId n b (leg :: legs) = [] ∧
      (commitLegs book clock acct ticketId n b (leg :: legs)).failure ≠ none) ∨
    ∃ a px cost, b.get? leg.venueId = some a ∧
      priceLeg b book (clock n) leg = .ok (px, cost) ∧
      fillRecords book clock acct ticketId n b (leg :: legs) =
        ⟨leg.venueId, (a.acceptLeg acct leg ticketId px).order, a.fillOf leg px,
            b.put (a.acceptLeg acct leg ticketId px).adapter⟩ ::
          fillRecords book clock acct ticketId (n + 1)
            (b.put (a.acceptLeg acct leg ticketId px).adapter) legs ∧
      (commitLegs book clock acct ticketId n b (leg :: legs)).failure =
        (commitLegs book clock acct ticketId (n + 1)
          (b.put (a.acceptLeg acct leg ticketId px).adapter) legs).failure ∧
      (commitLegs book clock acct ticketId n b (leg :: legs)).brokers =
        (commitLegs book clock acct ticketId (n + 1)
          (b.put (a.acceptLeg acct leg ticketId px).adapter) legs).brokers := by
  cases hb : b.get? leg.venueId with
  | none => exact .inl (by simp only [fillRecords, commitLegs, hb]; simp)
  | some a =>
      simp only [priceLeg, hb]
      rcases applyFill_cases a book (clock n) acct leg.outcomeId leg.isBuy leg.qty
        leg.limitPrice ticketId with
        ⟨reason, _, hr⟩ | ⟨px, cost, _, _, _, hr⟩ | ⟨px, cost, hp, _, hr⟩
      · exact .inl (by simp only [fillRecords, commitLegs, hb, hr, reject]; simp)
      · exact .inl (by simp only [fillRecords, commitLegs, hb, hr, reject]; simp)
      · refine .inr ⟨a, px, cost, rfl, hp, ?_⟩
        simp only [fillRecords, commitLegs, hb, hr]
        exact ⟨rfl, rfl, rfl⟩

/-- Every fill is of a leg of the ticket, on its venue and its side. -/
theorem exists_leg_of_mem_fillRecords {book : QuoteBook} {clock : ℕ → ℚ} {acct : AccountId}
    {ticketId : Option TicketId} {n : ℕ} {b : Brokers} {legs : List IntentLeg} {f : FillRecord}
    (hf : f ∈ fillRecords book clock acct ticketId n b legs) :
    ∃ leg ∈ legs, f.venueId = leg.venueId ∧ f.order.outcomeId = leg.outcomeId ∧
      f.order.isBuy = leg.isBuy := by
  induction legs generalizing n b with
  | nil => cases hf
  | cons leg legs ih =>
      rcases fillRecords_cons b book clock acct ticketId n leg legs with
        ⟨hnil, _⟩ | ⟨a, px, cost, _, _, hcons, _⟩
      · rw [hnil] at hf
        cases hf
      · rw [hcons] at hf
        rcases List.mem_cons.mp hf with rfl | hf
        · exact ⟨leg, List.mem_cons_self, rfl, rfl, rfl⟩
        · obtain ⟨leg', hleg', h⟩ := ih hf
          exact ⟨leg', List.mem_cons_of_mem _ hleg', h⟩

end Router

/-- **A commit** applies every leg, or leaves the positions as they were. -/
theorem commitAtomically_cases (b : Brokers) (book : QuoteBook) (clock : ℕ → ℚ)
    (intent : ExecutionIntent) :
    let c := Router.commitLegs book clock intent.accountId intent.ticketId 0 b intent.legs
    let r := Router.commitAtomically b book clock intent
    (c.failure = none ∧ r.1 = c.brokers ∧ ∃ orders, r.2 = .ok orders) ∨
      (b.Related Released r.1 ∧ ∃ error, r.2 = .error error) := by
  simp only [Router.commitAtomically]
  cases hf : (Router.commitLegs book clock intent.accountId intent.ticketId 0 b
      intent.legs).failure with
  | none => exact .inl ⟨rfl, rfl, _, rfl⟩
  | some failure =>
      obtain ⟨v, reason⟩ := failure
      refine .inr ⟨fun w => ?_, _, rfl⟩
      change Option.Rel Released (b.get? w) ((rolledBack b book clock intent).get? w)
      rcases rolledBack_get? b book clock intent w with
        ⟨hb, _, hr⟩ | ⟨a, m, r, hb, _, hr, hback⟩
      · rw [hb, hr]
        exact .none
      · rw [hb, hr]
        refine .some ⟨hback.venueId, hback.slippageBps, fun j o => .inl ?_⟩
        by_cases hj : j = intent.accountId
        · rw [hj]
          have hsnap := hback.snapshot
          exact ⟨congrArg (fun s : AccountSnapshot => s.positions.getD o 0) hsnap,
            congrArg (fun s : AccountSnapshot => s.avgPrice.getD o 0) hsnap⟩
        · rw [hback.others j hj]
          exact ⟨rfl, rfl⟩

/-! ## A submission under way -/

/-- Where a submission is suspended: in the write of its ticket, or in the
balance read that follows the preview of a buy. -/
inductive TicketPoint where
  | writing
  | readingBalance (leg : IntentLeg) (cost : ℚ) (left : List IntentLeg)
      (rejections : List LegRejection)
  deriving DecidableEq

structure TicketTask where
  intent : ExecutionIntent
  point : TicketPoint
  deriving DecidableEq

namespace TicketTask

/-- Preview legs up to the next balance read: where it is suspended, or what
the whole preview holds against the ticket. -/
def previewOn (b : Brokers) (book : QuoteBook) (now : ℚ) :
    List IntentLeg → List LegRejection → TicketPoint ⊕ List LegRejection
  | [], rejections => .inr rejections
  | leg :: left, rejections =>
      match Router.priceLeg b book now leg with
      | .error reason =>
          previewOn b book now left (rejections ++ [⟨leg.venueId, leg.outcomeId, reason⟩])
      | .ok (_, cost) =>
          if leg.isBuy then .inl (.readingBalance leg cost left rejections)
          else previewOn b book now left rejections

/-- The preview, from where the submission is suspended. -/
def resume (b : Brokers) (book : QuoteBook) (now : ℚ) (sub : TicketTask) :
    TicketPoint ⊕ List LegRejection :=
  match sub.point with
  | .writing => previewOn b book now sub.intent.legs []
  | .readingBalance leg cost left rejections =>
      let cash := ((b.get? leg.venueId).map fun a => a.cash sub.intent.accountId).getD 0
      previewOn b book now left
        (if cash < cost then rejections ++ [⟨leg.venueId, leg.outcomeId, .insufficientFunds⟩]
        else rejections)

end TicketTask

/-! ## The loop -/

inductive Happening where
  | settled (v : VenueId) (o : OutcomeId)
  | committed (ticketId : TicketId) (acct : AccountId) (t : Instant) (before : AppState)
      (fills : List FillRecord) (result : Except InsufficientLegsError (List Order))
  | refused (ticketId : TicketId) (status : TicketStatus) (reason : TicketReason)
  | raised (ticketId : TicketId) (error : DecimalError)

namespace Happening

/-- The outcomes an event settles. -/
def settles : Happening → List OutcomeId
  | .settled _ o => [o]
  | _ => []

/-- The outcomes an event buys. -/
def bought : Happening → List OutcomeId
  | .committed _ _ _ _ fills _ =>
      (fills.filter fun f => f.order.isBuy).map fun f => f.order.outcomeId
  | _ => []

def isCommit : Happening → Bool
  | .committed _ _ _ _ _ _ => true
  | _ => false

theorem bought_of_not_isCommit {x : Happening} (h : x.isCommit = false) : x.bought = [] := by
  cases x <;> first | rfl | cases h

end Happening

structure World where
  state : AppState
  tickets : Dict TicketId TicketTask := Dict.empty
  tick : Option AppState.TickAt := none
  pass : Option AppState.PassAt := none
  history : List Happening := []

/-- What the loop runs next. `submit` is a call up to its first await, under
the id drawn for the ticket; `tick` and `pass` start the service or resume
it. -/
inductive Event where
  | submit (t : Instant) (ticketId : TicketId) (opp : ArbOpportunity) (acct : AccountId)
  | resume (t : Instant) (ticketId : TicketId)
  | tick (t : Instant)
  | pass (t : Instant) (answer : AppState.PassAnswer)
  | quote (t : Instant) (quote : Quote)
  | registerGroup (group : EventGroup)
  | retireGroup (gid : GroupId)
  | beginDraining

/-- The opportunity a call is made with. -/
def Event.submitted : Event → List ArbOpportunity
  | .submit _ _ opp _ => [opp]
  | _ => []

namespace World

/-- A ticket id is drawn once: a call under an id in use does not happen. -/
def submit (cfg : Settings) (w : World) (t : Instant) (ticketId : TicketId)
    (opp : ArbOpportunity) (acct : AccountId) : World :=
  if (w.tickets.get? ticketId).isSome then w
  else
    match admission cfg w.state t opp acct with
    | .refused status reason =>
        { w with history := w.history ++ [.refused ticketId status reason] }
    | .raised error => { w with history := w.history ++ [.raised ticketId error] }
    | .admitted live =>
        let sub : TicketTask := ⟨live.toIntent acct (some ticketId), .writing⟩
        { w with tickets := w.tickets.set ticketId sub }

/-- What a commit of `intent` in this state goes down as. -/
def commitment (w : World) (t : Instant) (ticketId : TicketId) (intent : ExecutionIntent) :
    Happening :=
  .committed ticketId intent.accountId t w.state
    (Router.fillRecords w.state.book (fun _ => t.now) intent.accountId intent.ticketId 0
      w.state.brokers intent.legs)
    (Router.commitAtomically w.state.brokers w.state.book (fun _ => t.now) intent).2

/-- `_commit_atomically`, when the preview has passed. -/
def commit (w : World) (t : Instant) (ticketId : TicketId) (intent : ExecutionIntent) : World :=
  { w with
    state := { w.state with brokers :=
      (Router.commitAtomically w.state.brokers w.state.book (fun _ => t.now) intent).1 }
    tickets := w.tickets.erase ticketId
    history := w.history ++ [w.commitment t ticketId intent] }

def resume (w : World) (t : Instant) (ticketId : TicketId) : World :=
  match w.tickets.get? ticketId with
  | none => w
  | some sub =>
      match sub.resume w.state.brokers w.state.book t.now with
      | .inl point => { w with tickets := w.tickets.set ticketId { sub with point := point } }
      | .inr [] => w.commit t ticketId sub.intent
      | .inr rejections =>
          { w with
            tickets := w.tickets.erase ticketId
            history := w.history ++
              [.refused ticketId .rejected (.insufficientLegs (.preview rejections))] }

/-- What a stretch of a service settled, as it goes into the history. -/
def settlements (settled : List (VenueId × OutcomeId)) : List Happening :=
  settled.map fun e => .settled e.1 e.2

def step (cfg : Settings) (w : World) : Event → World
  | .submit t ticketId opp acct => w.submit cfg t ticketId opp acct
  | .resume t ticketId => w.resume t ticketId
  | .tick t =>
      let r := w.state.tick t w.tick
      { w with state := r.state, tick := r.suspended, history := w.history ++ settlements r.settled }
  | .pass t answer =>
      let r := w.state.pass t answer w.pass
      { w with state := r.state, pass := r.suspended, history := w.history ++ settlements r.settled }
  | .quote t quote =>
      { w with state := { w.state with book := w.state.book.upsert t.now quote } }
  | .registerGroup group => { w with state := w.state.registerGroup group }
  | .retireGroup gid => { w with state := w.state.retireGroup gid }
  | .beginDraining => { w with state := { w.state with draining := true } }

/-- The outcomes the next step settles. -/
def settlesNext (w : World) : Event → List OutcomeId
  | .tick t => (w.state.tick t w.tick).settled.map Prod.snd
  | .pass t answer => (w.state.pass t answer w.pass).settled.map Prod.snd
  | _ => []

/-! ## What a step does -/

section Step

variable {cfg : Settings} {w : World} {t : Instant} {id : TicketId} {opp : ArbOpportunity}
  {acct : AccountId}

/-- **A call** is refused, or parks an admitted ticket in its write. -/
theorem submit_cases (cfg : Settings) (w : World) (t : Instant) (id : TicketId)
    (opp : ArbOpportunity) (acct : AccountId) :
    (∃ new, (∀ x ∈ new, x.settles = [] ∧ x.isCommit = false) ∧
      w.submit cfg t id opp acct = { w with history := w.history ++ new }) ∨
    ∃ live, admission cfg w.state t opp acct = .admitted live ∧ w.tickets.get? id = none ∧
      w.submit cfg t id opp acct =
        { w with tickets := w.tickets.set id ⟨live.toIntent acct (some id), .writing⟩ } := by
  unfold submit
  cases hid : w.tickets.get? id with
  | some task => exact .inl ⟨[], by simp, by simp⟩
  | none =>
      simp only [Option.isSome_none, Bool.false_eq_true, if_false]
      cases hadm : admission cfg w.state t opp acct with
      | refused status reason =>
          exact .inl ⟨[.refused id status reason], by simp [Happening.settles, Happening.isCommit],
            rfl⟩
      | raised error =>
          exact .inl ⟨[.raised id error], by simp [Happening.settles, Happening.isCommit], rfl⟩
      | admitted live => exact .inr ⟨live, rfl, trivial, rfl⟩

/-- **A resumption** waits on, is refused by the preview, or commits. -/
theorem resume_cases (w : World) (t : Instant) (id : TicketId) :
    (w.tickets.get? id = none ∧ w.resume t id = w) ∨
    ∃ task, w.tickets.get? id = some task ∧
      ((∃ point, w.resume t id =
          { w with tickets := w.tickets.set id { task with point := point } }) ∨
        (∃ reason, w.resume t id = { w with
          tickets := w.tickets.erase id
          history := w.history ++ [.refused id .rejected reason] }) ∨
        w.resume t id = w.commit t id task.intent) := by
  unfold resume
  cases hid : w.tickets.get? id with
  | none => exact .inl ⟨rfl, rfl⟩
  | some task =>
      refine .inr ⟨task, rfl, ?_⟩
      simp only
      split
      · exact .inl ⟨_, rfl⟩
      · exact .inr (.inr rfl)
      · exact .inr (.inl ⟨_, rfl⟩)

/-- **What goes into the history**: one commit of a suspended ticket, or
events that are none and settle what the step is said to settle. -/
theorem history_step (cfg : Settings) (w : World) (e : Event) :
    ∃ new, (w.step cfg e).history = w.history ++ new ∧
      ((∀ x ∈ new, x.isCommit = false ∧ ∀ o ∈ x.settles, o ∈ w.settlesNext e) ∨
        ∃ t id task, e = .resume t id ∧ w.tickets.get? id = some task ∧
          new = [w.commitment t id task.intent]) := by
  have hsettled : ∀ settled : List (VenueId × OutcomeId), ∀ x ∈ settlements settled,
      x.isCommit = false ∧ ∀ o ∈ x.settles, o ∈ settled.map Prod.snd := by
    intro settled x hx
    obtain ⟨e, he, rfl⟩ := List.mem_map.mp hx
    refine ⟨rfl, fun o ho => ?_⟩
    rw [List.mem_singleton.mp ho]
    exact List.mem_map_of_mem he
  cases e with
  | submit t id opp acct =>
      rcases submit_cases cfg w t id opp acct
        with ⟨new, hquiet, hstep⟩ | ⟨live, _, _, hstep⟩
      · refine ⟨new, by rw [step, hstep], .inl fun x hx => ⟨(hquiet x hx).2, ?_⟩⟩
        rw [(hquiet x hx).1]
        simp
      · exact ⟨[], by rw [step, hstep, List.append_nil], .inl (by simp)⟩
  | resume t id =>
      rcases resume_cases w t id with
        ⟨_, hstep⟩ | ⟨task, htask, ⟨point, hstep⟩ | ⟨reason, hstep⟩ | hstep⟩
      · exact ⟨[], by rw [step, hstep, List.append_nil], .inl (by simp)⟩
      · exact ⟨[], by rw [step, hstep, List.append_nil], .inl (by simp)⟩
      · exact ⟨_, by rw [step, hstep], .inl (by simp [Happening.settles, Happening.isCommit])⟩
      · exact ⟨_, by rw [step, hstep, commit], .inr ⟨t, id, task, rfl, htask, rfl⟩⟩
  | tick t => exact ⟨_, rfl, .inl (hsettled _)⟩
  | pass t answer => exact ⟨_, rfl, .inl (hsettled _)⟩
  | quote t quote => exact ⟨[], (List.append_nil _).symm, .inl (by simp)⟩
  | registerGroup group => exact ⟨[], (List.append_nil _).symm, .inl (by simp)⟩
  | retireGroup gid => exact ⟨[], (List.append_nil _).symm, .inl (by simp)⟩
  | beginDraining => exact ⟨[], (List.append_nil _).symm, .inl (by simp)⟩

/-- **The tickets in the window** after a step were there before it, with the
same intent, or this step admitted them. -/
theorem tickets_step {e : Event} {task : TicketTask}
    (h : (w.step cfg e).tickets.get? id = some task) :
    (∃ task₀, w.tickets.get? id = some task₀ ∧ task.intent = task₀.intent) ∨
    ∃ t opp acct live, e = .submit t id opp acct ∧ Admitted cfg w.state t opp acct live ∧
      task.intent = live.toIntent acct (some id) := by
  have hsame : w.tickets.get? id = some task →
      ∃ task₀, w.tickets.get? id = some task₀ ∧ task.intent = task₀.intent :=
    fun h => ⟨task, h, rfl⟩
  -- a ticket that leaves the window changes no other
  have herase : ∀ j, (w.tickets.erase j).get? id = some task → w.tickets.get? id = some task := by
    intro j hj
    rw [Dict.get?_erase] at hj
    split at hj
    · cases hj
    · exact hj
  cases e with
  | submit t j opp acct =>
      rcases submit_cases cfg w t j opp acct
        with ⟨new, _, hstep⟩ | ⟨live, hadm, _, hstep⟩
      · rw [step, hstep] at h
        exact .inl (hsame h)
      · rw [step, hstep] at h
        simp only [Dict.get?_set] at h
        split at h
        · rename_i hid
          cases h
          exact .inr ⟨t, opp, acct, live, by rw [hid], admitted_of_admission hadm, by rw [hid]⟩
        · exact .inl (hsame h)
  | resume t j =>
      rcases resume_cases w t j with
        ⟨_, hstep⟩ | ⟨task₀, htask, ⟨point, hstep⟩ | ⟨reason, hstep⟩ | hstep⟩
      · rw [step, hstep] at h
        exact .inl (hsame h)
      · rw [step, hstep] at h
        simp only [Dict.get?_set] at h
        split at h
        · rename_i hid
          cases h
          exact .inl ⟨task₀, by rw [hid, htask], rfl⟩
        · exact .inl (hsame h)
      · rw [step, hstep] at h
        exact .inl (hsame (herase j h))
      · rw [step, hstep] at h
        exact .inl (hsame (herase j h))
  -- nothing else touches the tickets
  | tick t => exact .inl (hsame h)
  | pass t answer => exact .inl (hsame h)
  | quote t quote => exact .inl (hsame h)
  | registerGroup group => exact .inl (hsame h)
  | retireGroup gid => exact .inl (hsame h)
  | beginDraining => exact .inl (hsame h)

/-- **The brokers** after a step: positions released, or the legs of one
suspended ticket all filled. -/
theorem brokers_step (cfg : Settings) (w : World) (e : Event) :
    w.state.brokers.Related Released (w.step cfg e).state.brokers ∨
    ∃ t id task, e = .resume t id ∧ w.tickets.get? id = some task ∧
      w.step cfg e = w.commit t id task.intent ∧
      (Router.commitLegs w.state.book (fun _ => t.now) task.intent.accountId
        task.intent.ticketId 0 w.state.brokers task.intent.legs).failure = none ∧
      (w.step cfg e).state.brokers = (Router.commitLegs w.state.book (fun _ => t.now)
        task.intent.accountId task.intent.ticketId 0 w.state.brokers
        task.intent.legs).brokers := by
  have hsame : w.state.brokers.Related Released w.state.brokers := .refl Released.refl _
  cases e with
  | submit t id opp acct =>
      rcases submit_cases cfg w t id opp acct
        with ⟨new, _, hstep⟩ | ⟨live, _, _, hstep⟩
      · exact .inl (by rw [step, hstep]; exact hsame)
      · exact .inl (by rw [step, hstep]; exact hsame)
  | resume t id =>
      rcases resume_cases w t id with
        ⟨_, hstep⟩ | ⟨task, htask, ⟨point, hstep⟩ | ⟨reason, hstep⟩ | hstep⟩
      · exact .inl (by rw [step, hstep]; exact hsame)
      · exact .inl (by rw [step, hstep]; exact hsame)
      · exact .inl (by rw [step, hstep]; exact hsame)
      · rcases commitAtomically_cases w.state.brokers w.state.book (fun _ => t.now) task.intent
          with ⟨hall, hbrokers, _⟩ | ⟨hrel, _⟩
        · exact .inr ⟨t, id, task, rfl, htask, hstep, hall, by rw [step, hstep]; exact hbrokers⟩
        · exact .inl (by rw [step, hstep]; exact hrel)
  | tick t => exact .inl (AppState.serviced_tick ..).brokers
  | pass t answer => exact .inl (AppState.serviced_pass ..).brokers
  | quote t quote => exact .inl hsame
  | registerGroup group => exact .inl hsame
  | retireGroup gid => exact .inl hsame
  | beginDraining => exact .inl hsame

/-- **The book** changes when a quote arrives, and not otherwise. -/
theorem book_step (cfg : Settings) (w : World) (e : Event) :
    (w.step cfg e).state.book = w.state.book ∨
      ∃ t quote, e = .quote t quote ∧
        (w.step cfg e).state.book = w.state.book.upsert t.now quote := by
  cases e with
  | submit t id opp acct =>
      rcases submit_cases cfg w t id opp acct
        with ⟨new, _, hstep⟩ | ⟨live, _, _, hstep⟩
      · exact .inl (by rw [step, hstep])
      · exact .inl (by rw [step, hstep])
  | resume t id =>
      rcases resume_cases w t id with
        ⟨_, hstep⟩ | ⟨task, _, ⟨point, hstep⟩ | ⟨reason, hstep⟩ | hstep⟩ <;>
      exact .inl (by rw [step, hstep]; try rfl)
  | tick t => exact .inl (AppState.serviced_tick ..).book
  | pass t answer => exact .inl (AppState.serviced_pass ..).book
  | quote t quote => exact .inr ⟨t, quote, rfl, rfl⟩
  | registerGroup group => exact .inl rfl
  | retireGroup gid => exact .inl rfl
  | beginDraining => exact .inl rfl

/-- **The registry** changes when a group is registered or retired, and not
otherwise; the engine's fee models never do. -/
theorem registry_step (cfg : Settings) (w : World) (e : Event) :
    (w.step cfg e).state.engine.fees = w.state.engine.fees ∧
      ((w.step cfg e).state.eventGroups = w.state.eventGroups ∨
        (∃ group, e = .registerGroup group ∧
          (w.step cfg e).state.eventGroups = w.state.eventGroups.set group.id group) ∨
        ∃ gid, (w.step cfg e).state.eventGroups = w.state.eventGroups.erase gid) := by
  cases e with
  | submit t id opp acct =>
      rcases submit_cases cfg w t id opp acct
        with ⟨new, _, hstep⟩ | ⟨live, _, _, hstep⟩
      · exact ⟨by rw [step, hstep], .inl (by rw [step, hstep])⟩
      · exact ⟨by rw [step, hstep], .inl (by rw [step, hstep])⟩
  | resume t id =>
      rcases resume_cases w t id with
        ⟨_, hstep⟩ | ⟨task, _, ⟨point, hstep⟩ | ⟨reason, hstep⟩ | hstep⟩ <;>
      exact ⟨by rw [step, hstep]; try rfl, .inl (by rw [step, hstep]; try rfl)⟩
  | tick t =>
      have h := AppState.serviced_tick w.state t w.tick
      exact ⟨congrArg EngineRuntime.fees h.engine, .inl h.eventGroups⟩
  | pass t answer =>
      have h := AppState.serviced_pass w.state t answer w.pass
      exact ⟨congrArg EngineRuntime.fees h.engine, .inl h.eventGroups⟩
  | quote t quote => exact ⟨rfl, .inl rfl⟩
  | registerGroup group => exact ⟨rfl, .inr (.inl ⟨group, rfl, rfl⟩)⟩
  | retireGroup gid =>
      refine ⟨?_, .inr (.inr ⟨gid, rfl⟩)⟩
      simp only [step, AppState.retireGroup, EngineRuntime.unregisterGroup]
      split <;> rfl
  | beginDraining => exact ⟨rfl, .inl rfl⟩

end Step

end World

end Arbys
