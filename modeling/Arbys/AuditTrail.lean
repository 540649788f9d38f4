import Arbys.Process
import Arbys.TicketAtomicity
import Arbys.WriteOrder

/-!
# The rows of a ticket

`submit_arb_ticket`, `_submit_checked` and `submit_arb_ticket_for_descriptor`
run to their end with nothing else going on, and every row they write. A
ticket's row is written by the ticket service, the orders and fills of its
legs by the sink of the brokers, and the legs of a ticket that was rejected by
the ticket service again.
-/

namespace Arbys

open AccountState PaperExecutionAdapter

/-! ## The tables -/

/-- `paper_ticket`. -/
structure TicketRow where
  id : TicketId
  accountId : AccountId
  eventGroupId : GroupId
  titleSnapshot : String
  startsAt : Option ℚ
  source : String
  status : TicketStatus
  rejectionReason : Option TicketReason
  totalStake : Option ℚ
  expectedProfit : Option ℚ
  expectedEdgeBps : Option ℚ
  deriving DecidableEq

/-- The `rejection_reason` of an order. -/
inductive OrderReason where
  | broker (reason : RejectReason)
  /-- `"ticket_rejected"`: the leg itself was not refused. -/
  | ticketRejected
  deriving DecidableEq

/-- `paper_order`. -/
structure OrderRow where
  accountId : AccountId
  order : Order
  rejectionReason : Option OrderReason
  deriving DecidableEq

/-- The tables a submission writes. The rows of `paper_order` are in two parts,
those the sink wrote and those of `_write_rejected_legs`. -/
structure AuditDb where
  paper : Db := {}
  tickets : List TicketRow := []
  rejectedLegs : List OrderRow := []

namespace AuditDb

def insertPaperTicket (db : AuditDb) (row : TicketRow) : AuditDb :=
  { db with tickets := db.tickets ++ [row] }

def updatePaperTicketStatus (db : AuditDb) (id : TicketId) (status : TicketStatus)
    (reason : Option TicketReason) : AuditDb :=
  { db with
    tickets := db.tickets.map fun row =>
      if row.id = id then { row with status := status, rejectionReason := reason } else row }

/-- `_write_rejected_legs`: a row for every leg, under an id drawn for it. -/
def writeRejectedLegs (db : AuditDb) (id : TicketId) (acct : AccountId) (live : ArbOpportunity)
    (draw : ℕ → OrderId) (reasons : Dict OutcomeId RejectReason) : AuditDb :=
  { db with
    rejectedLegs := db.rejectedLegs ++ live.legs.mapIdx fun n leg =>
      { accountId := acct
        order := ⟨draw n, leg.venueId, leg.outcomeId, leg.isBuy, leg.qty, leg.price, .rejected,
          some id⟩
        rejectionReason :=
          some (((reasons.get? leg.outcomeId).map .broker).getD .ticketRejected) } }

/-- The rows of `paper_order`. -/
def orderRows (db : AuditDb) : List OrderRow :=
  db.paper.orders.map (fun row => ⟨row.1, row.2.1, row.2.2.map .broker⟩) ++ db.rejectedLegs

def ticketRows (db : AuditDb) (id : TicketId) : List TicketRow :=
  db.tickets.filter fun row => row.id = id

def ordersOf (db : AuditDb) (id : TicketId) : List OrderRow :=
  db.orderRows.filter fun row => row.order.ticketId = some id

def fillsOf (db : AuditDb) (id : OrderId) : List Fill :=
  db.paper.fills.filter fun fill => fill.orderId = id

/-- What the fills of a ticket cost on a venue. -/
def spentOn (db : AuditDb) (id : TicketId) (v : VenueId) : ℚ :=
  ((((db.ordersOf id).filter fun row => row.order.venueId = v).flatMap fun row =>
    db.fillsOf row.order.id).map fun fill => fill.qty * fill.price + fill.fee).sum

end AuditDb

/-! ## A submission -/

/-- `account_id or state.default_account_id`. -/
def accountOr : Option AccountId → AccountId
  | none => defaultAccountId
  | some acct => if acct = "" then defaultAccountId else acct

/-- `_title`. -/
def titleOf (s : AppState) (eventGroupId : GroupId) : String :=
  ((s.eventGroups.get? (baseId eventGroupId)).map (·.title)).getD eventGroupId

/-- `_starts_at`. -/
def startsAtOf (s : AppState) (eventGroupId : GroupId) : Option ℚ :=
  (s.eventGroups.get? (baseId eventGroupId)).bind (·.startTime)

/-- What a submission reads off the clocks, and the ids it draws. -/
structure Draws where
  instant : Instant
  clock : ℕ → ℚ
  ticketId : TicketId
  orderId : ℕ → OrderId

structure TicketResult where
  ticketId : TicketId
  status : TicketStatus
  orderIds : List OrderId
  reason : Option TicketReason
  deriving DecidableEq

/-- What a submission leaves, and what it gave the router, if it came so far. -/
structure Submitted where
  state : AppState
  db : AuditDb
  result : Except DecimalError TicketResult
  routed : Option ArbOpportunity := none

/-- The events of the legs a ticket filled, one leg after the other. -/
def Brokers.emitOrderEvents (b : Brokers) (acct : AccountId)
    (applied : List (VenueId × Order × Fill)) : List SinkEvent :=
  applied.flatMap fun e =>
    match b.get? e.1 with
    | none => []
    | some a => a.emitOrderEvents acct e.2.1 (some e.2.2) none

/-- What `submit` tells the sink once every leg is applied. -/
def Router.emitted (b : Brokers) (book : QuoteBook) (clock : ℕ → ℚ) (intent : ExecutionIntent) :
    List SinkEvent :=
  let c := commitLegs book (fun n => clock (intent.legs.length + n)) intent.accountId
    intent.ticketId 0 b intent.legs
  c.brokers.emitOrderEvents intent.accountId c.applied

/-- The row of `_write_ticket`. -/
def ticketRow (id : TicketId) (acct : AccountId) (title : String) (startsAt : Option ℚ)
    (source : String) (opp : ArbOpportunity) (status : TicketStatus) (reason : Option TicketReason)
    (economics : Option ArbOpportunity) : TicketRow where
  id := id
  accountId := acct
  eventGroupId := opp.eventGroupId
  titleSnapshot := title
  startsAt := startsAt
  source := source
  status := status
  rejectionReason := reason
  totalStake := economics.map (·.totalStake)
  expectedProfit := economics.map (·.guaranteedProfit)
  expectedEdgeBps := economics.map (·.guaranteedProfitBps)

/-- `_submit_checked` from the `pending` write on. -/
def submitRouted (s : AppState) (db : AuditDb) (d : Draws) (live : ArbOpportunity)
    (acct : AccountId) (row : TicketRow) : Submitted :=
  let id := d.ticketId
  let intent := live.toIntent acct (some id)
  let db := db.insertPaperTicket row
  let r := Router.submit s.brokers s.book d.clock intent
  let s' := { s with brokers := r.1 }
  match r.2 with
  | .error error =>
      let reason := TicketReason.insufficientLegs error
      -- an atomic ticket has persisted none of its legs when it is rejected
      ⟨s', (db.updatePaperTicketStatus id .rejected (some reason)).writeRejectedLegs id acct live
        d.orderId (Dict.ofList (error.rejections.map fun r => (r.outcomeId, r.reason))),
        .ok ⟨id, .rejected, [], some reason⟩, some live⟩
  | .ok orders =>
      let events := Router.emitted s.brokers s.book d.clock intent
      let db := { db with paper := db.paper.writeAll defaultAccountId events }
      ⟨s', db.updatePaperTicketStatus id .filled none,
        .ok ⟨id, .filled, orders.map (·.id), none⟩, some live⟩

/-- `submit_arb_ticket`, with `_submit_checked`. -/
def submitArbTicket (cfg : Settings) (s : AppState) (db : AuditDb) (d : Draws)
    (opp : ArbOpportunity) (source : String) (account : Option AccountId)
    (recordNonfill : Bool) : Submitted :=
  let acct := accountOr account
  let row := ticketRow d.ticketId acct (titleOf s opp.eventGroupId)
    (startsAtOf s opp.eventGroupId) source
  let refuse (recorded : ArbOpportunity) (status : TicketStatus) (reason : TicketReason)
      (economics : Option ArbOpportunity) : Submitted :=
    ⟨s, if recordNonfill then db.insertPaperTicket (row recorded status (some reason) economics)
      else db, .ok ⟨d.ticketId, status, [], some reason⟩, none⟩
  match refusedBeforeEntry cfg s d.instant.utc opp with
  | some reason => refuse opp .rejected reason none
  | none =>
      match matchLive s d.instant.now opp with
      | .error error => ⟨s, db, .error error, none⟩
      | .ok none => refuse opp .missed (.edgeNoLongerAvailable opp.eventGroupId) none
      | .ok (some live) =>
          -- from here on it is the live opportunity that is recorded, with its economics
          match implausibleEdge cfg live with
          | some reason => refuse live .rejected reason (some live)
          | none =>
              match staleLegSkew cfg s d.instant.now live with
              | some reason => refuse live .rejected reason (some live)
              | none =>
                  match capBreach cfg s live acct with
                  | some reason => refuse live .rejected reason (some live)
                  | none => submitRouted s db d live acct (row live .pending none (some live))

/-- `submit_arb_ticket_for_descriptor`. -/
def submitArbTicketForDescriptor (cfg : Settings) (s : AppState) (db : AuditDb) (d : Draws)
    (eventGroupId : GroupId) (outcomeIds : Option (List OutcomeId)) (source : String)
    (account : Option AccountId) : Submitted :=
  let acct := accountOr account
  match s.liveOpportunitiesFor d.instant.now eventGroupId with
  | .error error => ⟨s, db, .error error, none⟩
  | .ok candidates =>
      match candidates.find? (Process.names eventGroupId outcomeIds) with
      | some candidate => submitArbTicket cfg s db d candidate source (some acct) true
      | none =>
          let reason := TicketReason.edgeNoLongerAvailable eventGroupId
          -- `_write_missed_descriptor`: there is no opportunity to record
          ⟨s, db.insertPaperTicket
            { id := d.ticketId
              accountId := acct
              eventGroupId := eventGroupId
              titleSnapshot := titleOf s eventGroupId
              startsAt := startsAtOf s eventGroupId
              source := source
              status := .missed
              rejectionReason := some reason
              totalStake := none
              expectedProfit := none
              expectedEdgeBps := none },
            .ok ⟨d.ticketId, .missed, [], some reason⟩, none⟩

/-- The two ways a ticket is submitted: with an opportunity in hand, or
described. -/
inductive TicketSubmission where
  | ticket (opp : ArbOpportunity) (recordNonfill : Bool)
  | descriptor (eventGroupId : GroupId) (outcomeIds : Option (List OutcomeId))

namespace TicketSubmission

def submit (cfg : Settings) (s : AppState) (db : AuditDb) (d : Draws) (source : String)
    (account : Option AccountId) : TicketSubmission → Submitted
  | .ticket opp recordNonfill => submitArbTicket cfg s db d opp source account recordNonfill
  | .descriptor eventGroupId outcomeIds =>
      submitArbTicketForDescriptor cfg s db d eventGroupId outcomeIds source account

/-- The opportunity `submit_arb_ticket` is called with, if it is called. -/
def offered (s : AppState) (now : ℚ) : TicketSubmission → Option ArbOpportunity
  | .ticket opp _ => some opp
  | .descriptor eventGroupId outcomeIds =>
      match s.liveOpportunitiesFor now eventGroupId with
      | .error _ => none
      | .ok candidates => candidates.find? (Process.names eventGroupId outcomeIds)

/-- Whether a ticket that does not come to the router is recorded. -/
def recordsNonfill : TicketSubmission → Bool
  | .ticket _ recordNonfill => recordNonfill
  | .descriptor _ _ => true

end TicketSubmission

/-! ## What the rows are to say -/

/-- The order row of a leg that filled. -/
structure LegRow (acct : AccountId) (db : AuditDb) (leg : ArbLeg) (row : OrderRow) : Prop where
  accountId : row.accountId = acct
  venueId : row.order.venueId = leg.venueId
  outcomeId : row.order.outcomeId = leg.outcomeId
  isBuy : row.order.isBuy = leg.isBuy
  qty : row.order.qty = leg.qty
  limitPrice : row.order.limitPrice = leg.price
  status : row.order.status = .filled
  oneFill : ∃ fill, db.fillsOf row.order.id = [fill]

/-- The same cash on a venue and the same positions, as `account_snapshot`
reports them. -/
structure SameHoldings (v : VenueId) (st st' : AccountState) : Prop where
  cash : st'.cash v = st.cash v
  qty : ∀ o, st'.qty o = st.qty o
  avg : ∀ o, st'.avg o = st.avg o
  realizedOn : ∀ o, st'.realizedOn o = st.realizedOn o

/-- **The audit trail of a submission that returned.** -/
structure AuditTrail (acct : AccountId) (recordNonfill : Bool) (s : AppState) (r : Submitted)
    (result : TicketResult) : Prop where
  unrecorded : recordNonfill = false → r.routed = none → r.db.ticketRows result.ticketId = []
  recorded : (recordNonfill = true ∨ r.routed ≠ none) →
    ∃ row, r.db.ticketRows result.ticketId = [row] ∧ row.accountId = acct ∧
      row.status = result.status ∧ row.rejectionReason = result.reason
  filled : result.status = .filled → ∃ live, r.routed = some live ∧
    List.Forall₂ (LegRow acct r.db) live.legs (r.db.ordersOf result.ticketId) ∧
    ∀ v, r.db.spentOn result.ticketId v =
      (s.brokers.accountOn acct v).cash v - (r.state.brokers.accountOn acct v).cash v
  unfilled : result.status ≠ .filled →
    (∀ row ∈ r.db.ordersOf result.ticketId, r.db.fillsOf row.order.id = []) ∧
      ∀ j v, SameHoldings v (s.brokers.accountOn j v) (r.state.brokers.accountOn j v)

/-- The ids `uuid4` draws are new: no row names the ticket, and no fill an
order that is still to be drawn. -/
structure NewIds (s : AppState) (db : AuditDb) (d : Draws) : Prop where
  tickets : ∀ row ∈ db.tickets, row.id ≠ d.ticketId
  orders : ∀ row ∈ db.orderRows, row.order.ticketId ≠ some d.ticketId
  rejectedLegs : ∀ fill ∈ db.paper.fills, ∀ n, fill.orderId ≠ d.orderId n
  legs : ∀ fill ∈ db.paper.fills, ∀ v a n, s.brokers.get? v = some a → a.log.drawn ≤ n →
    fill.orderId ≠ ⟨v, n⟩

/-- Every leg passes its preview, and the account can pay for them one after
the other. -/
def Router.Payable (b : Brokers) (book : QuoteBook) (clock : ℕ → ℚ) (intent : ExecutionIntent) :
    Prop :=
  previewLegs b book clock intent.accountId 0 intent.legs = [] ∧
    Purse.firstRefusal (fun n leg => priceLeg b book (clock (intent.legs.length + n)) leg) 0
      (Purse.read b intent.accountId) intent.legs = none

/-- The submission passes every check, and the ticket it comes to is payable. -/
def TicketSubmission.Fills (cfg : Settings) (s : AppState) (d : Draws) (acct : AccountId)
    (sub : TicketSubmission) : Prop :=
  ∃ opp live, sub.offered s d.instant.now = some opp ∧
    admission cfg s d.instant opp acct = .admitted live ∧
    Router.Payable s.brokers s.book d.clock (live.toIntent acct (some d.ticketId))

/-! ## The legs a commit applied -/

namespace Router

/-- What a commit records of a leg it applied. -/
structure AppliedLeg (leg : IntentLeg) (e : VenueId × Order × Fill) : Prop where
  venueId : e.2.1.venueId = leg.venueId
  outcomeId : e.2.1.outcomeId = leg.outcomeId
  isBuy : e.2.1.isBuy = leg.isBuy
  qty : e.2.1.qty = leg.qty
  limitPrice : e.2.1.limitPrice = leg.limitPrice
  status : e.2.1.status = .filled

section Applied

variable (book : QuoteBook) (clock : ℕ → ℚ) (acct : AccountId) (ticketId : Option TicketId)

theorem commitLegs_applied (n : ℕ) (b : Brokers) (legs : List IntentLeg)
    (hok : (commitLegs book clock acct ticketId n b legs).failure = none) :
    List.Forall₂ AppliedLeg legs
      (commitLegs book clock acct ticketId n b legs).applied := by
  induction legs generalizing n b with
  | nil => exact .nil
  | cons leg legs ih =>
      rcases commitLegs_cons b book clock acct ticketId n leg legs with
        ⟨_, hc⟩ | ⟨a, reason, ha, _, hc⟩ | ⟨a, px, cost, ha, _, _, hc⟩ <;> rw [hc] at hok ⊢
      · cases hok
      · cases hok
      · refine .cons ?_ (ih (n + 1) _ hok)
        exact ⟨Brokers.venueId_of_get? ha, rfl, rfl, rfl, rfl, rfl⟩

/-- Each order has an id its broker drew for it, which its fill names, and
carries the ticket. -/
theorem commitLegs_drawn (n : ℕ) (b : Brokers) (legs : List IntentLeg) :
    ∀ e ∈ (commitLegs book clock acct ticketId n b legs).applied,
      e.2.1.ticketId = ticketId ∧ e.2.2.orderId = e.2.1.id ∧
        ∃ a m, b.get? e.1 = some a ∧ a.log.drawn ≤ m ∧ e.2.1.id = ⟨e.1, m⟩ := by
  induction legs generalizing n b with
  | nil =>
      intro e he
      cases he
  | cons leg legs ih =>
      intro e he
      rcases commitLegs_cons b book clock acct ticketId n leg legs with
        ⟨_, hc⟩ | ⟨a, reason, ha, _, hc⟩ | ⟨a, px, cost, ha, _, _, hc⟩ <;> rw [hc] at he
      · cases he
      · cases he
      · have hv := Brokers.venueId_of_get? ha
        rcases List.mem_cons.mp he with rfl | hrest
        · refine ⟨rfl, rfl, a, a.log.drawn, ha, le_refl _, ?_⟩
          rw [← hv]
          rfl
        · obtain ⟨hticket, horder, a', m, ha', hm, hid⟩ := ih (n + 1) _ e hrest
          refine ⟨hticket, horder, ?_⟩
          rw [Brokers.get?_put, (advance_acceptLeg acct a leg ticketId px).venueId] at ha'
          split at ha'
          · rename_i hvenue
            cases ha'
            refine ⟨a, m, by rw [hvenue, hv]; exact ha, ?_, hid⟩
            exact Nat.le_of_succ_le hm
          · exact ⟨a', m, ha', hm, hid⟩

theorem commitLegs_ids_nodup (n : ℕ) (b : Brokers) (legs : List IntentLeg) :
    ((commitLegs book clock acct ticketId n b legs).applied.map fun e => e.2.1.id).Nodup := by
  induction legs generalizing n b with
  | nil => exact List.nodup_nil
  | cons leg legs ih =>
      rcases commitLegs_cons b book clock acct ticketId n leg legs with
        ⟨_, hc⟩ | ⟨a, reason, ha, _, hc⟩ | ⟨a, px, cost, ha, _, _, hc⟩ <;> rw [hc]
      · exact List.nodup_nil
      · exact List.nodup_nil
      · refine List.nodup_cons.mpr ⟨fun hmem => ?_, ih (n + 1) _⟩
        -- the broker has moved past the id it drew for this leg
        obtain ⟨e, he, hid⟩ := List.mem_map.mp hmem
        obtain ⟨-, -, a', m, ha', hm, hdrawn⟩ := commitLegs_drawn book clock acct ticketId (n + 1) _ legs
          e he
        have hsame : e.2.1.id = ⟨a.venueId, a.log.drawn⟩ := hid
        rw [hdrawn] at hsame
        obtain ⟨hvenue, hserial⟩ := OrderId.mk.inj hsame
        rw [Brokers.get?_put, (advance_acceptLeg acct a leg ticketId px).venueId,
          if_pos hvenue] at ha'
        cases ha'
        have hnext : (a.acceptLeg acct leg ticketId px).adapter.log.drawn = a.log.drawn + 1 := rfl
        omega

/-- **What a commit costs on a venue**: the fills there, fees and all. -/
theorem commitLegs_spent (v : VenueId) (n : ℕ) (b : Brokers) (legs : List IntentLeg)
    (hbuys : ∀ leg ∈ legs, leg.isBuy = true) :
    (((commitLegs book clock acct ticketId n b legs).applied.filter fun e =>
      e.2.1.venueId = v).map fun e => e.2.2.qty * e.2.2.price + e.2.2.fee).sum =
        (b.accountOn acct v).cash v -
          ((commitLegs book clock acct ticketId n b legs).brokers.accountOn acct v).cash v := by
  -- the induction is on the legs still to commit; a refusal ends the loop
  induction legs generalizing n b with
  | nil => exact (sub_self _).symm
  | cons leg legs ih =>
      rcases commitLegs_cons b book clock acct ticketId n leg legs with
        ⟨_, hc⟩ | ⟨a, reason, ha, _, hc⟩ | ⟨a, px, cost, ha, _, _, hc⟩ <;> rw [hc]
      · exact (sub_self _).symm
      · have hv := Brokers.venueId_of_get? ha
        have hread : b.get? (a.refused leg ticketId reason).venueId = some a := by
          rw [(advance_refused acct a leg ticketId reason).venueId, hv, ha]
        have hsame := Brokers.accountOn_put_same hread (fun _ => rfl) acct v
        exact (sub_eq_zero.mpr (congrArg (fun st => st.cash v) hsame.symm)).symm
      · have hv := Brokers.venueId_of_get? ha
        have hrest := ih (n + 1) (b.put (a.acceptLeg acct leg ticketId px).adapter)
          fun leg' hleg' => hbuys leg' (List.mem_cons_of_mem _ hleg')
        have m := movement_buy (a.account acct) a.venueId leg.outcomeId leg.qty px
          (a.fees.fee px leg.qty leg.isBuy)
        have hbuy := hbuys leg List.mem_cons_self
        have hafter : (b.put (a.acceptLeg acct leg ticketId px).adapter).accountOn acct v =
            if v = a.venueId then (a.account acct).bookFill a.venueId leg.outcomeId true leg.qty px
              (a.fees.fee px leg.qty leg.isBuy) else b.accountOn acct v := by
          rw [Brokers.accountOn_put (advance_acceptLeg acct a leg ticketId px).venueId, acceptLeg,
            account_accept, if_pos rfl, hbuy]
        simp only [List.filter_cons]
        -- a leg counts, and costs, at its own venue only
        by_cases hvenue : v = a.venueId
        · subst hvenue
          rw [hafter, if_pos rfl, m.cash] at hrest
          rw [← hv] at ha
          rw [Brokers.accountOn_of_get? ha]
          have hon : decide ((a.acceptLeg acct leg ticketId px).order.venueId = a.venueId) = true :=
            decide_eq_true rfl
          rw [hon, if_pos rfl, List.map_cons, List.sum_cons, hrest]
          simp only [fillOf]
          ring
        · rw [hafter, if_neg hvenue] at hrest
          have hoff : decide ((a.acceptLeg acct leg ticketId px).order.venueId = v) = false :=
            decide_eq_false fun h => hvenue h.symm
          rw [hoff]
          exact hrest

end Applied

/-- What the sink writes of the legs a ticket filled. -/
theorem writeAll_emitOrderEvents (scope : AccountId) (acct : AccountId) {b : Brokers}
    {applied : List (VenueId × Order × Fill)} (hsome : ∀ e ∈ applied, ∃ a, b.get? e.1 = some a)
    (db : Db) :
    (db.writeAll scope (b.emitOrderEvents acct applied)).orders =
        db.orders ++ applied.map (fun e => (scope, e.2.1, none)) ∧
      (db.writeAll scope (b.emitOrderEvents acct applied)).fills =
        db.fills ++ applied.map fun e => e.2.2 := by
  induction applied generalizing db with
  | nil => simp [Db.writeAll, Brokers.emitOrderEvents]
  | cons e applied ih =>
      obtain ⟨a, ha⟩ := hsome e List.mem_cons_self
      have hcons : db.writeAll scope (b.emitOrderEvents acct (e :: applied)) =
          (db.writeAll scope (a.emitOrderEvents acct e.2.1 (some e.2.2) none)).writeAll scope
            (b.emitOrderEvents acct applied) := by
        simp only [Brokers.emitOrderEvents, List.flatMap_cons, ha, Db.writeAll, List.foldl_append]
      obtain ⟨horders, hfills⟩ := ih (fun e' he' => hsome e' (List.mem_cons_of_mem _ he'))
        (db.writeAll scope (a.emitOrderEvents acct e.2.1 (some e.2.2) none))
      rw [hcons, horders, hfills]
      simp [emitOrderEvents, Db.writeAll, Db.write, Db.upsertPaperBalance,
        Db.upsertPaperPosition]

/-- Every leg a commit applied has its broker afterwards. -/
theorem commitLegs_brokers (book : QuoteBook) (clock : ℕ → ℚ) (acct : AccountId)
    (ticketId : Option TicketId) (b : Brokers) (legs : List IntentLeg) :
    ∀ e ∈ (commitLegs book clock acct ticketId 0 b legs).applied,
      ∃ a, (commitLegs book clock acct ticketId 0 b legs).brokers.get? e.1 = some a := by
  intro e he
  obtain ⟨-, -, a, _, ha, _, _⟩ := commitLegs_drawn book clock acct ticketId 0 b legs e he
  have hv := commitLegs_advance book clock acct ticketId 0 b legs e.1
  rw [ha] at hv
  cases hb : (commitLegs book clock acct ticketId 0 b legs).brokers.get? e.1 with
  | none => rw [hb] at hv; cases hv
  | some a' => exact ⟨a', rfl⟩

/-! ## What the router makes of a ticket -/

/-- A rolled back ticket leaves what every account holds. -/
theorem sameHoldings_rolledBack (b : Brokers) (book : QuoteBook) (clock : ℕ → ℚ)
    (intent : ExecutionIntent) (j : AccountId) (v : VenueId) :
    SameHoldings v (b.accountOn j v) ((rolledBack b book clock intent).accountOn j v) := by
  unfold Brokers.accountOn
  rcases rolledBack_get? b book clock intent v with ⟨ha, _, hr⟩ | ⟨a, m, r, ha, _, hr, h⟩
  · rw [ha, hr]
    exact ⟨rfl, fun _ => rfl, fun _ => rfl, fun _ => rfl⟩
  · rw [ha, hr]
    change SameHoldings v (a.account j) (r.account j)
    by_cases hj : j = intent.accountId
    · subst hj
      obtain ⟨hbal, hpos, havg, -, hreal⟩ := AccountSnapshot.mk.inj h.snapshot
      exact ⟨by rw [AccountState.cash, hbal, ← AccountState.cash],
        fun o => by rw [AccountState.qty, hpos, ← AccountState.qty],
        fun o => by rw [avg, havg, ← avg], fun o => by rw [realizedOn, hreal, ← realizedOn]⟩
    · rw [h.others j hj]
      exact ⟨rfl, fun _ => rfl, fun _ => rfl, fun _ => rfl⟩

/-- **A ticket is refused or fills.** It fills when every leg previews and the
account can pay for them in turn. -/
theorem submit_cases (b : Brokers) (book : QuoteBook) (clock : ℕ → ℚ) (intent : ExecutionIntent) :
    let c := commitLegs book (fun n => clock (intent.legs.length + n)) intent.accountId
      intent.ticketId 0 b intent.legs
    (¬ Payable b book clock intent ∧ ∃ error, (submit b book clock intent).2 = .error error ∧
      ∀ j v, SameHoldings v (b.accountOn j v) ((submit b book clock intent).1.accountOn j v)) ∨
    (Payable b book clock intent ∧ c.failure = none ∧
      submit b book clock intent = (c.brokers, .ok (c.applied.map fun e => e.2.1))) := by
  intro c
  -- the cash check walks the purse as the commits will move it
  have hrefusal : Purse.firstRefusal
      (fun n leg => priceLeg b book (clock (intent.legs.length + n)) leg) 0
      (Purse.read b intent.accountId) intent.legs =
        c.failure.map fun _ => Purse.read c.brokers intent.accountId :=
    Purse.firstRefusal_read intent.ticketId 0 (Brokers.Advance.refl intent.accountId b) intent.legs
  cases hp : previewLegs b book clock intent.accountId 0 intent.legs with
  | cons r rs =>
      refine .inl ⟨fun h => ?_, .preview (r :: rs), ?_, ?_⟩
      · have hnil := h.1
        rw [hp] at hnil
        cases hnil
      · simp only [submit, hp]
      · intro j v
        simp only [submit, hp]
        exact ⟨rfl, fun _ => rfl, fun _ => rfl, fun _ => rfl⟩
  | nil =>
      have hs : submit b book clock intent =
          commitAtomically b book (fun n => clock (intent.legs.length + n)) intent := by
        simp only [submit, hp]
      rw [hs]
      cases hf : c.failure with
      | none =>
          refine .inr ⟨⟨hp, ?_⟩, rfl, ?_⟩
          · rw [hrefusal, hf]
            rfl
          · simp only [commitAtomically]
            rw [show (commitLegs book (fun n => clock (intent.legs.length + n)) intent.accountId
              intent.ticketId 0 b intent.legs).failure = none from hf]
      -- a leg failed after the previews: what was committed is rolled back
      | some e =>
          have hroll : commitAtomically b book (fun n => clock (intent.legs.length + n)) intent =
              (rolledBack b book (fun n => clock (intent.legs.length + n)) intent,
                .error (.postPreview e.1 e.2)) := by
            simp only [commitAtomically]
            rw [show (commitLegs book (fun n => clock (intent.legs.length + n)) intent.accountId
              intent.ticketId 0 b intent.legs).failure = some e from hf]
            rfl
          rw [hroll]
          refine .inl ⟨fun h => ?_, _, rfl, sameHoldings_rolledBack b book _ intent⟩
          have hnone := h.2
          rw [hrefusal, hf] at hnone
          cases hnone

end Router

/-! ## Reading the tables -/

namespace AuditDb

variable {db : AuditDb} {id : TicketId} {row : TicketRow}

theorem ticketRows_new (hnew : ∀ row ∈ db.tickets, row.id ≠ id) : db.ticketRows id = [] := by
  refine List.filter_eq_nil_iff.mpr fun row hrow => ?_
  simpa using hnew row hrow

theorem ticketRows_insert (hnew : ∀ row ∈ db.tickets, row.id ≠ id) (hid : row.id = id) :
    (db.insertPaperTicket row).ticketRows id = [row] := by
  have hold := ticketRows_new hnew
  rw [ticketRows] at hold
  rw [ticketRows, insertPaperTicket, List.filter_append, hold, List.filter_singleton]
  simp [hid]

/-- The row of a ticket takes its new status. -/
theorem ticketRows_update (h : db.ticketRows id = [row]) (status : TicketStatus)
    (reason : Option TicketReason) :
    (db.updatePaperTicketStatus id status reason).ticketRows id =
      [{ row with status := status, rejectionReason := reason }] := by
  have hid : row.id = id := by
    have hmem : row ∈ db.ticketRows id := h ▸ List.mem_singleton_self row
    simpa using (List.mem_filter.mp hmem).2
  rw [ticketRows] at h
  have hkeep : ((fun row : TicketRow => decide (row.id = id)) ∘ fun row =>
      if row.id = id then { row with status := status, rejectionReason := reason } else row) =
        fun row => decide (row.id = id) := by
    funext row
    by_cases hrow : row.id = id
    · simp [hrow]
    · simp [hrow]
  rw [ticketRows, updatePaperTicketStatus, List.filter_map, hkeep, h, List.map_singleton,
    if_pos hid]

/-- Among rows told apart by a key, a key finds its row. -/
theorem filter_key {α κ : Type} [DecidableEq κ] {key : α → κ} {l : List α}
    (hnodup : (l.map key).Nodup) {a : α} (ha : a ∈ l) :
    (l.filter fun b => key b = key a) = [a] := by
  induction l with
  | nil => cases ha
  | cons b l ih =>
      obtain ⟨hb, hl⟩ := List.nodup_cons.mp hnodup
      rw [List.filter_cons]
      rcases List.mem_cons.mp ha with rfl | hmem
      · rw [decide_eq_true rfl, if_pos rfl]
        congr 1
        refine List.filter_eq_nil_iff.mpr fun c hc => ?_
        intro heq
        exact hb (List.mem_map.mpr ⟨c, hc, of_decide_eq_true heq⟩)
      · have hne : key b ≠ key a := fun h => hb (h ▸ List.mem_map_of_mem hmem)
        rw [decide_eq_false hne]
        exact ih hl hmem

end AuditDb

/-! ## How a submission ends -/

/-- The row of a ticket, by what the theorem on the audit trail reads. -/
structure RowFor (id : TicketId) (acct : AccountId) (status : TicketStatus)
    (reason : Option TicketReason) (row : TicketRow) : Prop where
  id : row.id = id
  accountId : row.accountId = acct
  status : row.status = status
  reason : row.rejectionReason = reason

/-- **Three ways out of a submission**: an exception before any row, a ticket
that does not come to the router, a ticket that does. -/
inductive SubmissionEnds (cfg : Settings) (s : AppState) (db : AuditDb) (d : Draws) (acct : AccountId)
    (offered : Option ArbOpportunity) (recordNonfill : Bool) : Submitted → Prop
  | raised (error : DecimalError)
      (notAdmitted : ∀ opp ∈ offered, ∀ live, admission cfg s d.instant opp acct ≠ .admitted live) :
      SubmissionEnds cfg s db d acct offered recordNonfill ⟨s, db, .error error, none⟩
  | refused (status : TicketStatus) (reason : TicketReason) (row : TicketRow)
      (notAdmitted : ∀ opp ∈ offered, ∀ live, admission cfg s d.instant opp acct ≠ .admitted live)
      (unfilled : status ≠ .filled) (row_for : RowFor d.ticketId acct status (some reason) row) :
      SubmissionEnds cfg s db d acct offered recordNonfill
        ⟨s, if recordNonfill then db.insertPaperTicket row else db,
          .ok ⟨d.ticketId, status, [], some reason⟩, none⟩
  | routed (opp live : ArbOpportunity) (row : TicketRow) (is_offered : offered = some opp)
      (admitted : admission cfg s d.instant opp acct = .admitted live)
      (row_for : RowFor d.ticketId acct .pending none row) :
      SubmissionEnds cfg s db d acct offered recordNonfill (submitRouted s db d live acct row)

section Ends

variable (cfg : Settings) (s : AppState) (db : AuditDb) (d : Draws) (source : String)

theorem submitArbTicket_ends (account : Option AccountId) (opp : ArbOpportunity)
    (recordNonfill : Bool) :
    SubmissionEnds cfg s db d (accountOr account) (some opp) recordNonfill
      (submitArbTicket cfg s db d opp source account recordNonfill) := by
  have hadm := admission_eq cfg s d.instant opp (accountOr account)
  have hrejected : TicketStatus.rejected ≠ .filled := by decide
  have hmissed : TicketStatus.missed ≠ .filled := by decide
  -- an admission that is not `admitted`
  have hnot : ∀ {a : Admission}, admission cfg s d.instant opp (accountOr account) = a →
      (∀ live, a ≠ .admitted live) → ∀ opp' ∈ some opp, ∀ live,
        admission cfg s d.instant opp' (accountOr account) ≠ .admitted live := by
    rintro a ha hne opp' hopp live
    cases hopp
    rw [ha]
    exact hne live
  unfold submitChecked at hadm
  unfold submitArbTicket
  simp only
  cases hbefore : refusedBeforeEntry cfg s d.instant.utc opp with
  | some reason =>
      rw [hbefore] at hadm
      exact .refused _ _ _ (hnot hadm (by simp)) hrejected ⟨rfl, rfl, rfl, rfl⟩
  | none =>
      rw [hbefore] at hadm
      cases hmatch : matchLive s d.instant.now opp with
      | error error =>
          rw [hmatch] at hadm
          exact .raised error (hnot hadm (by simp))
      | ok found =>
          cases found with
          | none =>
              rw [hmatch] at hadm
              exact .refused _ _ _ (hnot hadm (by simp)) hmissed ⟨rfl, rfl, rfl, rfl⟩
          | some live =>
              simp only [hmatch] at hadm ⊢
              cases hedge : implausibleEdge cfg live with
              | some reason =>
                  rw [hedge] at hadm
                  exact .refused _ _ _ (hnot hadm (by simp)) hrejected ⟨rfl, rfl, rfl, rfl⟩
              | none =>
              simp only [hedge] at hadm ⊢
              cases hskew : staleLegSkew cfg s d.instant.now live with
              | some reason =>
                  rw [hskew] at hadm
                  exact .refused _ _ _ (hnot hadm (by simp)) hrejected ⟨rfl, rfl, rfl, rfl⟩
              | none =>
              simp only [hskew] at hadm ⊢
              cases hcap : capBreach cfg s live (accountOr account) with
              | some reason =>
                  rw [hcap] at hadm
                  exact .refused _ _ _ (hnot hadm (by simp)) hrejected ⟨rfl, rfl, rfl, rfl⟩
              | none =>
                  rw [hcap] at hadm
                  exact .routed opp live _ rfl hadm ⟨rfl, rfl, rfl, rfl⟩

theorem accountOr_accountOr (account : Option AccountId) :
    accountOr (some (accountOr account)) = accountOr account := by
  cases account with
  | none => rfl
  | some acct =>
      by_cases h : acct = ""
      · subst h
        rfl
      · simp only [accountOr, if_neg h]

/-- However the ticket is submitted. -/
theorem TicketSubmission.submit_ends (account : Option AccountId) (sub : TicketSubmission) :
    SubmissionEnds cfg s db d (accountOr account) (sub.offered s d.instant.now) sub.recordsNonfill
      (sub.submit cfg s db d source account) := by
  cases sub with
  | ticket opp recordNonfill => exact submitArbTicket_ends cfg s db d source account opp _
  | descriptor eventGroupId outcomeIds =>
      have hmissed : TicketStatus.missed ≠ .filled := by decide
      simp only [submit, submitArbTicketForDescriptor, offered, recordsNonfill]
      cases s.liveOpportunitiesFor d.instant.now eventGroupId with
      | error error => exact .raised error fun opp hopp => by cases hopp
      | ok candidates =>
          simp only
          cases candidates.find? (Process.names eventGroupId outcomeIds) with
          | none =>
              exact .refused _ _ _ (fun opp hopp => by cases hopp) hmissed ⟨rfl, rfl, rfl, rfl⟩
          | some candidate =>
              have h := submitArbTicket_ends cfg s db d source (some (accountOr account)) candidate
                true
              rw [accountOr_accountOr] at h
              exact h

end Ends

/-! ## The rows of each end -/

section Trail

variable {s : AppState} {db : AuditDb} {d : Draws} {acct : AccountId} {recordNonfill : Bool}

theorem SameHoldings.refl (v : VenueId) (st : AccountState) : SameHoldings v st st :=
  ⟨rfl, fun _ => rfl, fun _ => rfl, fun _ => rfl⟩

/-- A new ticket has no order yet. -/
theorem NewIds.ordersOf (h : NewIds s db d) : db.ordersOf d.ticketId = [] := by
  refine List.filter_eq_nil_iff.mpr fun row hrow => ?_
  simpa using h.orders row hrow

theorem auditTrail_refused (h : NewIds s db d) {status : TicketStatus} {reason : TicketReason}
    {row : TicketRow} (hstatus : status ≠ .filled)
    (hrow : RowFor d.ticketId acct status (some reason) row) :
    AuditTrail acct recordNonfill s
      ⟨s, if recordNonfill then db.insertPaperTicket row else db,
        .ok ⟨d.ticketId, status, [], some reason⟩, none⟩
      ⟨d.ticketId, status, [], some reason⟩ where
  unrecorded hrec _ := by
    rw [hrec]
    exact AuditDb.ticketRows_new h.tickets
  recorded hrec := by
    rcases hrec with hrec | hrec
    · rw [hrec]
      exact ⟨row, AuditDb.ticketRows_insert h.tickets hrow.id, hrow.accountId, hrow.status,
        hrow.reason⟩
    · exact absurd rfl hrec
  filled hfilled := absurd hfilled hstatus
  unfilled _ := by
    have hnone : (if recordNonfill then db.insertPaperTicket row else db).ordersOf d.ticketId =
        [] := by
      split
      · exact h.ordersOf
      · exact h.ordersOf
    refine ⟨fun row hrow => ?_, fun j v => .refl v _⟩
    rw [hnone] at hrow
    cases hrow

/-- A ticket the router refused: its legs are recorded, without a fill. -/
theorem auditTrail_rejected (h : NewIds s db d) {live : ArbOpportunity} {row : TicketRow}
    (hrow : RowFor d.ticketId acct .pending none row) {error : InsufficientLegsError}
    (herror : (Router.submit s.brokers s.book d.clock
      (live.toIntent acct (some d.ticketId))).2 = .error error)
    (hheld : ∀ j v, SameHoldings v (s.brokers.accountOn j v)
      ((Router.submit s.brokers s.book d.clock
        (live.toIntent acct (some d.ticketId))).1.accountOn j v)) {result : TicketResult}
    (hresult : (submitRouted s db d live acct row).result = .ok result) :
    result.status = .rejected ∧
      AuditTrail acct recordNonfill s (submitRouted s db d live acct row) result := by
  simp only [submitRouted, herror] at hresult ⊢
  cases hresult
  refine ⟨rfl, ?_, ?_, ?_, ?_⟩
  · intro _ hrouted
    cases hrouted
  · intro _
    have hinsert := AuditDb.ticketRows_insert h.tickets hrow.id
    exact ⟨_, AuditDb.ticketRows_update hinsert .rejected _, hrow.accountId, rfl, rfl⟩
  · intro hfilled
    cases hfilled
  · refine fun _ => ⟨fun row' hrow' => ?_, hheld⟩
    obtain ⟨hmem, hticket⟩ := List.mem_filter.mp hrow'
    rcases List.mem_append.mp hmem with hold | hlegs
    · exact absurd (of_decide_eq_true hticket) (h.orders row' (List.mem_append_left _ hold))
    · rcases List.mem_append.mp hlegs with hold | hnew
      · exact absurd (of_decide_eq_true hticket) (h.orders row' (List.mem_append_right _ hold))
      · obtain ⟨n, hn, rfl⟩ := List.mem_mapIdx.mp hnew
        refine List.filter_eq_nil_iff.mpr fun fill hfill => ?_
        simpa using h.rejectedLegs fill hfill n

/-- The orders of a new ticket, once the sink has written them. -/
theorem NewIds.ordersOf_applied (h : NewIds s db d) {db' : AuditDb} {scope : AccountId}
    {applied : List (VenueId × Order × Fill)}
    (hticket : ∀ e ∈ applied, e.2.1.ticketId = some d.ticketId)
    (horders : db'.paper.orders = db.paper.orders ++ applied.map fun e => (scope, e.2.1, none))
    (hlegs : db'.rejectedLegs = db.rejectedLegs) :
    db'.ordersOf d.ticketId = applied.map fun e => ⟨scope, e.2.1, none⟩ := by
  have hold := h.ordersOf
  rw [AuditDb.ordersOf, AuditDb.orderRows, List.filter_append, List.append_eq_nil_iff] at hold
  rw [AuditDb.ordersOf, AuditDb.orderRows, horders, hlegs, List.map_append, List.filter_append,
    List.filter_append, hold.1, hold.2, List.nil_append, List.append_nil, List.map_map]
  refine List.filter_eq_self.mpr fun row hrow => ?_
  obtain ⟨e, he, rfl⟩ := List.mem_map.mp hrow
  exact decide_eq_true (hticket e he)

/-- And the one fill of each. -/
theorem NewIds.fillsOf_applied (h : NewIds s db d) {db' : AuditDb}
    {applied : List (VenueId × Order × Fill)} {ticketId : Option TicketId}
    (hdrawn : ∀ e ∈ applied, e.2.1.ticketId = ticketId ∧ e.2.2.orderId = e.2.1.id ∧
      ∃ a m, s.brokers.get? e.1 = some a ∧ a.log.drawn ≤ m ∧ e.2.1.id = ⟨e.1, m⟩)
    (hnodup : (applied.map fun e => e.2.1.id).Nodup)
    (hfills : db'.paper.fills = db.paper.fills ++ applied.map fun e => e.2.2)
    {e : VenueId × Order × Fill} (he : e ∈ applied) : db'.fillsOf e.2.1.id = [e.2.2] := by
  obtain ⟨-, -, a, m, ha, hm, hid⟩ := hdrawn e he
  have hold : db.paper.fills.filter (fun fill => fill.orderId = e.2.1.id) = [] := by
    refine List.filter_eq_nil_iff.mpr fun fill hfill => ?_
    simpa [hid] using h.legs fill hfill e.1 a m ha hm
  have hkey : applied.filter ((fun fill : Fill => decide (fill.orderId = e.2.1.id)) ∘
      fun e => e.2.2) = applied.filter fun e' => e'.2.1.id = e.2.1.id := by
    refine List.filter_congr fun e' he' => ?_
    simp only [Function.comp_apply, (hdrawn e' he').2.1]
  rw [AuditDb.fillsOf, hfills, List.filter_append, hold, List.nil_append, List.filter_map, hkey,
    AuditDb.filter_key hnodup he, List.map_singleton]

/-- So every leg has its row, and the fills are what the ticket spent. -/
theorem NewIds.rows_applied (h : NewIds s db d) {db' : AuditDb} {scope : AccountId}
    {legs : List ArbLeg} {applied : List (VenueId × Order × Fill)}
    (hdrawn : ∀ e ∈ applied, e.2.1.ticketId = some d.ticketId ∧ e.2.2.orderId = e.2.1.id ∧
      ∃ a m, s.brokers.get? e.1 = some a ∧ a.log.drawn ≤ m ∧ e.2.1.id = ⟨e.1, m⟩)
    (hnodup : (applied.map fun e => e.2.1.id).Nodup)
    (happlied : List.Forall₂ Router.AppliedLeg (legs.map ArbLeg.toIntent) applied)
    (horders : db'.paper.orders = db.paper.orders ++ applied.map fun e => (scope, e.2.1, none))
    (hfills : db'.paper.fills = db.paper.fills ++ applied.map fun e => e.2.2)
    (hlegs : db'.rejectedLegs = db.rejectedLegs) {spent : VenueId → ℚ}
    (hspent : ∀ v, ((applied.filter fun e => e.2.1.venueId = v).map fun e =>
      e.2.2.qty * e.2.2.price + e.2.2.fee).sum = spent v) :
    List.Forall₂ (LegRow scope db') legs (db'.ordersOf d.ticketId) ∧
      ∀ v, db'.spentOn d.ticketId v = spent v := by
  have hrows := h.ordersOf_applied (fun e he => (hdrawn e he).1) horders hlegs
  have hfill : ∀ e ∈ applied, db'.fillsOf e.2.1.id = [e.2.2] := fun e he =>
    h.fillsOf_applied hdrawn hnodup hfills he
  constructor
  · rw [hrows, List.forall₂_map_right_iff]
    -- each leg, with a row that is among those applied
    have hmem : List.Forall₂ (fun e leg => e ∈ applied ∧ Router.AppliedLeg (ArbLeg.toIntent leg) e)
        applied legs :=
      List.forall₂_and_left applied legs |>.mpr
        ⟨fun e he => he, (List.forall₂_map_left_iff.mp happlied).flip⟩
    refine hmem.flip.imp fun leg e hleg => ?_
    obtain ⟨he, hleg⟩ := hleg
    exact ⟨rfl, hleg.venueId, hleg.outcomeId, hleg.isBuy, hleg.qty, hleg.limitPrice, hleg.status,
      e.2.2, hfill e he⟩
  · intro v
    rw [AuditDb.spentOn, hrows, List.filter_map, List.flatMap_map]
    have hflat : ((applied.filter fun e => e.2.1.venueId = v).flatMap fun e =>
        db'.fillsOf e.2.1.id) = (applied.filter fun e => e.2.1.venueId = v).map fun e => e.2.2 := by
      rw [List.map_eq_flatMap]
      exact List.flatMap_congr fun e he => hfill e (List.mem_of_mem_filter he)
    change (((applied.filter fun e => e.2.1.venueId = v).flatMap fun e =>
      db'.fillsOf e.2.1.id).map _).sum = _
    rw [hflat, List.map_map]
    exact hspent v

/-- **A ticket that filled**: every leg has its row and its fill, under the
account the sink is scoped to. -/
theorem submitRouted_payable (h : NewIds s db d) {live : ArbOpportunity} {row : TicketRow}
    (hrow : RowFor d.ticketId acct .pending none row)
    (hbuys : ∀ leg ∈ live.legs, leg.isBuy = true)
    (hpayable : Router.Payable s.brokers s.book d.clock (live.toIntent acct (some d.ticketId)))
    {result : TicketResult} (hresult : (submitRouted s db d live acct row).result = .ok result) :
    let r := submitRouted s db d live acct row
    result.ticketId = d.ticketId ∧ result.status = .filled ∧
    (∃ row, r.db.ticketRows d.ticketId = [row] ∧ row.accountId = acct ∧
      row.status = result.status ∧ row.rejectionReason = result.reason) ∧
    List.Forall₂ (LegRow defaultAccountId r.db) live.legs (r.db.ordersOf d.ticketId) ∧
    ∀ v, r.db.spentOn d.ticketId v =
      (s.brokers.accountOn acct v).cash v - (r.state.brokers.accountOn acct v).cash v := by
  rcases Router.submit_cases s.brokers s.book d.clock (live.toIntent acct (some d.ticketId)) with
    ⟨hrefused, _⟩ | ⟨_, hok, hs⟩
  · exact absurd hpayable hrefused
  simp only [submitRouted, hs] at hresult ⊢
  cases hresult
  have hdrawn := Router.commitLegs_drawn s.book (fun n => d.clock (live.legs.length + n)) acct
    (some d.ticketId) 0 s.brokers (live.legs.map ArbLeg.toIntent)
  have hnodup := Router.commitLegs_ids_nodup s.book (fun n => d.clock (live.legs.length + n)) acct
    (some d.ticketId) 0 s.brokers (live.legs.map ArbLeg.toIntent)
  have happlied := Router.commitLegs_applied s.book (fun n => d.clock (live.legs.length + n)) acct
    (some d.ticketId) 0 s.brokers (live.legs.map ArbLeg.toIntent)
  have hspent := fun v => Router.commitLegs_spent s.book
    (fun n => d.clock (live.legs.length + n)) acct (some d.ticketId) v 0 s.brokers
    (live.legs.map ArbLeg.toIntent)
  have hbrokers := Router.commitLegs_brokers s.book (fun n => d.clock (live.legs.length + n)) acct
    (some d.ticketId) s.brokers (live.legs.map ArbLeg.toIntent)
  simp only [Router.emitted, ArbOpportunity.toIntent, List.length_map] at hok ⊢
  replace happlied := happlied hok
  -- all there is to know of the commits is in the lemmas named above
  generalize Router.commitLegs s.book (fun n => d.clock (live.legs.length + n)) acct
    (some d.ticketId) 0 s.brokers (live.legs.map ArbLeg.toIntent) = c at *
  obtain ⟨horders, hfills⟩ := Router.writeAll_emitOrderEvents defaultAccountId acct hbrokers
    db.paper
  have hinsert := AuditDb.ticketRows_insert h.tickets hrow.id
  have hlegs : ∀ leg ∈ live.legs.map ArbLeg.toIntent, leg.isBuy = true := by
    intro leg hleg
    obtain ⟨leg, hmem, rfl⟩ := List.mem_map.mp hleg
    exact hbuys leg hmem
  refine ⟨trivial, trivial, ?_, ?_⟩
  · exact ⟨_, AuditDb.ticketRows_update hinsert .filled none, hrow.accountId, rfl, rfl⟩
  · apply h.rows_applied hdrawn hnodup happlied
    · exact horders
    · exact hfills
    · rfl
    · exact fun v => hspent v hlegs

/-- A ticket that comes to the router returns, and was routed. -/
theorem submitRouted_returns (s : AppState) (db : AuditDb) (d : Draws) (acct : AccountId)
    (live : ArbOpportunity) (row : TicketRow) :
    (submitRouted s db d live acct row).routed = some live ∧
      ∃ result, (submitRouted s db d live acct row).result = .ok result := by
  unfold submitRouted
  simp only
  cases (Router.submit s.brokers s.book d.clock (live.toIntent acct (some d.ticketId))).2 with
  | error error => exact ⟨rfl, _, rfl⟩
  | ok orders => exact ⟨rfl, _, rfl⟩

/-- The rows of a ticket that fills are under the account of the sinks, so a trail
says it is that one. -/
theorem account_of_auditTrail (h : NewIds s db d) {live : ArbOpportunity} {row : TicketRow}
    (hrow : RowFor d.ticketId acct .pending none row)
    (hlegs : live.legs ≠ []) (hbuys : ∀ leg ∈ live.legs, leg.isBuy = true)
    (hpayable : Router.Payable s.brokers s.book d.clock (live.toIntent acct (some d.ticketId)))
    {result : TicketResult} (hresult : (submitRouted s db d live acct row).result = .ok result)
    (htrail : AuditTrail acct recordNonfill s (submitRouted s db d live acct row) result) :
    acct = defaultAccountId := by
  obtain ⟨hid, hfilled, _, hrows, _⟩ := submitRouted_payable h hrow hbuys hpayable hresult
  obtain ⟨live', hlive', hrows', _⟩ := htrail.filled hfilled
  rw [(submitRouted_returns s db d acct live row).1] at hlive'
  cases hlive'
  rw [hid] at hrows'
  -- the row of the first leg is under both accounts
  revert hlegs hrows hrows'
  generalize (submitRouted s db d live acct row).db = db'
  generalize db'.ordersOf d.ticketId = rows, live.legs = legs
  intro hlegs hrows hrows'
  cases hrows with
  | nil => exact absurd rfl hlegs
  | cons hleg _ =>
      cases hrows' with
      | cons hleg' _ => exact hleg'.accountId.symm.trans hleg.accountId

/-- Of a ticket of that account that fills, the rows say what happened. -/
theorem auditTrail_payable (h : NewIds s db d) {live : ArbOpportunity} {row : TicketRow}
    (hrow : RowFor d.ticketId acct .pending none row)
    (hbuys : ∀ leg ∈ live.legs, leg.isBuy = true)
    (hpayable : Router.Payable s.brokers s.book d.clock (live.toIntent acct (some d.ticketId)))
    (hacct : acct = defaultAccountId) {result : TicketResult}
    (hresult : (submitRouted s db d live acct row).result = .ok result) :
    AuditTrail acct recordNonfill s (submitRouted s db d live acct row) result := by
  have hrouted := (submitRouted_returns s db d acct live row).1
  obtain ⟨hid, hfilled, hticket, hrows, hspent⟩ :=
    submitRouted_payable h hrow hbuys hpayable hresult
  refine ⟨fun _ hnone => ?_, fun _ => ?_, fun _ => ?_, fun hne => absurd hfilled hne⟩
  · rw [hrouted] at hnone
    cases hnone
  · rw [hid]
    exact hticket
  · rw [hid]
    refine ⟨live, hrouted, hrows.imp fun leg row hleg => ?_, hspent⟩
    exact { hleg with accountId := hleg.accountId.trans hacct.symm }

end Trail

/-- What is not admitted does not fill. -/
theorem TicketSubmission.not_fills {cfg : Settings} {s : AppState} {d : Draws} {acct : AccountId}
    {sub : TicketSubmission}
    (hnot : ∀ opp ∈ sub.offered s d.instant.now, ∀ live,
      admission cfg s d.instant opp acct ≠ .admitted live) : ¬ sub.Fills cfg s d acct := by
  rintro ⟨opp, live, hopp, hadm, _⟩
  exact hnot opp hopp live hadm

/-- What is admitted fills exactly if the router can pay for it. -/
theorem TicketSubmission.fills_iff {cfg : Settings} {s : AppState} {d : Draws} {acct : AccountId}
    {sub : TicketSubmission} {opp live : ArbOpportunity}
    (hopp : sub.offered s d.instant.now = some opp)
    (hadm : admission cfg s d.instant opp acct = .admitted live) :
    sub.Fills cfg s d acct ↔
      Router.Payable s.brokers s.book d.clock (live.toIntent acct (some d.ticketId)) := by
  constructor
  · rintro ⟨opp', live', hopp', hadm', hpayable⟩
    rw [hopp] at hopp'
    cases hopp'
    rw [hadm] at hadm'
    cases hadm'
    exact hpayable
  · intro hpayable
    exact ⟨opp, live, hopp, hadm, hpayable⟩

/-- What the trail promises of a submission. -/
def AuditKept (cfg : Settings) (s : AppState) (db : AuditDb) (d : Draws) (source : String)
    (account : Option AccountId) (sub : TicketSubmission) : Prop :=
  ∀ result, (sub.submit cfg s db d source account).result = .ok result →
    AuditTrail (accountOr account) sub.recordsNonfill s (sub.submit cfg s db d source account)
      result

/-- **The audit trail, exactly.** The rows of a submission say what happened if
and only if the account is the one the sinks are scoped to, or the ticket does
not fill. -/
theorem auditKept_iff (cfg : Settings) (s : AppState) (db : AuditDb) (d : Draws)
    (source : String) (account : Option AccountId) (sub : TicketSubmission)
    (h : NewIds s db d) :
    AuditKept cfg s db d source account sub ↔
      accountOr account = defaultAccountId ∨ ¬ sub.Fills cfg s d (accountOr account) := by
  have hends := sub.submit_ends cfg s db d source account
  unfold AuditKept
  generalize sub.submit cfg s db d source account = r at hends ⊢
  cases hends with
  | raised error hnot =>
      constructor
      · intro _
        exact .inr (TicketSubmission.not_fills hnot)
      · intro _ result hresult
        cases hresult
  | refused status reason row hnot hstatus hrow =>
      constructor
      · intro _
        exact .inr (TicketSubmission.not_fills hnot)
      · intro _ result hresult
        cases hresult
        exact auditTrail_refused h hstatus hrow
  | routed opp live row hopp hadm hrow =>
      have hadmitted := admitted_of_admission hadm
      have hbuys : ∀ leg ∈ live.legs, leg.isBuy = true := fun leg hleg =>
        (hadmitted.legs.1 leg hleg).1
      rw [TicketSubmission.fills_iff hopp hadm]
      rcases Router.submit_cases s.brokers s.book d.clock
        (live.toIntent (accountOr account) (some d.ticketId)) with
        ⟨hrefused, error, herror, hheld⟩ | ⟨hpayable, _, _⟩
      · constructor
        · intro _
          exact .inr hrefused
        · intro _ result hresult
          exact (auditTrail_rejected h hrow herror hheld hresult).2
      · constructor
        · intro hkept
          obtain ⟨-, result, hresult⟩ :=
            submitRouted_returns s db d (accountOr account) live row
          exact .inl (account_of_auditTrail h hrow hadmitted.legs_ne_nil hbuys hpayable hresult
            (hkept result hresult))
        · rintro (hacct | hnot) result hresult
          · exact auditTrail_payable h hrow hbuys hpayable hacct hresult
          · exact absurd hpayable hnot

namespace TwoVenues

def draws : Draws where
  instant := ⟨0, 0⟩
  clock _ := 0
  ticketId := "t-1"
  orderId n := ⟨"uuid4", n⟩

/-- A second account with 1000 on either venue. -/
def twoAccounts : AppState :=
  { state with
    brokers := (brokers.modify "polymarket_us" fun a => a.deposit "second" 1000).modify "kalshi"
      fun a => a.deposit "second" 1000 }

theorem newIds (s : AppState) : NewIds s {} draws where
  tickets row hrow := by cases hrow
  orders row hrow := by cases hrow
  rejectedLegs fill hfill := by cases hfill
  legs fill hfill := by cases hfill

end TwoVenues

open TwoVenues in
theorem auditKept_twoVenues :
    AuditKept .default twoAccounts {} draws "manual" none (.descriptor "eg-1" none) :=
  (auditKept_iff .default twoAccounts {} draws "manual" none (.descriptor "eg-1" none)
    (newIds twoAccounts)).mpr (.inl rfl)

open TwoVenues in
/-- The second account's ticket fills, and its orders are the first account's. -/
theorem not_auditKept_secondAccount :
    ¬ AuditKept .default twoAccounts {} draws "manual" (some "second")
      (.descriptor "eg-1" none) := by
  intro h
  let r := TicketSubmission.submit .default twoAccounts {} draws "manual" (some "second")
    (.descriptor "eg-1" none)
  have hstatus : r.result.toOption.map (·.status) = some .filled := by decide +kernel
  have hid : r.result.toOption.map (·.ticketId) = some "t-1" := by decide +kernel
  have hstored : (r.db.ordersOf "t-1").map (·.accountId) = ["default", "default"] := by
    decide +kernel
  cases hresult : r.result with
  | error error =>
      rw [hresult] at hstatus
      cases hstatus
  | ok result =>
      rw [hresult] at hstatus hid
      obtain ⟨live, _, hrows, _⟩ := (h result hresult).filled (Option.some.inj hstatus)
      have htid : result.ticketId = "t-1" := Option.some.inj hid
      rw [htid] at hrows
      change List.Forall₂ (LegRow "second" r.db) live.legs (r.db.ordersOf "t-1") at hrows
      generalize live.legs = legs at hrows
      generalize r.db.ordersOf "t-1" = rows at hrows hstored
      cases hrows with
      | nil => cases hstored
      | cons hleg _ =>
          have hscope : "second" = "default" :=
            hleg.accountId.symm.trans (List.cons.inj hstored).1
          exact absurd hscope (by decide)

end Arbys
