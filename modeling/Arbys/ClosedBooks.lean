import Arbys.LedgerScorers
import Arbys.VenueSettlePass

/-!
# One quiet pass closes the books

An outcome can be held without a row, with a row, or have a row missing while
nothing is held. The first phase of a pass owns what a broker holds, the second
what a filled ticket traded and no row records, and each passes over what the
other owns. `pass_closes_books` says that between them nothing that can be
settled is left open: neither a ticket nor a position.
-/

namespace Arbys

namespace LedgerDb

/-- The ticket has an order, and each of its orders a fill. -/
def Traded (db : LedgerDb) (t : PaperTicket) : Prop :=
  (∃ o ∈ db.orders, orderOf t o = true) ∧
    ∀ o ∈ db.orders, orderOf t o = true → ∃ f ∈ db.fills, f.orderId = o.id

variable {db db' : LedgerDb} {t : PaperTicket}

theorem Traded.of_same (h : db.SameTrades db') (htraded : db.Traded t) : db'.Traded t := by
  rwa [Traded, h.orders, h.fills]

/-- A traded ticket is open only while one of its outcomes has no row. -/
theorem Traded.not_open (h : db.Traded t)
    (hrows : ∀ o ∈ db.orders, orderOf t o = true → db.hasSettlementRow o.outcomeId = true) :
    ¬ db.Open t := by
  obtain ⟨⟨o, ho, hmine⟩, hfills⟩ := h
  rintro (hnone | ⟨o', ho', hticket, hmissing⟩)
  · exact hnone o ho (orderOf_iff.mp hmine)
  · have hmine' := orderOf_iff.mpr hticket
    rcases hmissing with hfill | hrow
    · obtain ⟨f, hf, hid⟩ := hfills o' ho' hmine'
      exact hfill f hf hid
    · obtain ⟨row, hmem, hout⟩ := hasSettlementRow_iff.mp (hrows o' ho' hmine')
      exact hrow row hmem hout

/-- An order of a filled ticket that is not withheld is looked for until its
outcome has a row. -/
theorem mem_unrecordedOutcomes (ht : t ∈ db.tickets) (hstatus : t.status = "filled")
    (hkept : t.excludedReason = none) (htraded : db.Traded t) {o : PaperOrder}
    (ho : o ∈ db.orders) (hmine : orderOf t o = true)
    (hrow : db.hasSettlementRow o.outcomeId = false) :
    (o.venueId, o.outcomeId) ∈ db.unrecordedOutcomes := by
  obtain ⟨f, hf, hid⟩ := htraded.2 o ho hmine
  have hticket : (db.tickets.any fun t => orderOf t o && decide (t.status = "filled") &&
      t.excludedReason.isNone) = true :=
    List.any_eq_true.mpr ⟨t, ht, by simp [hmine, hstatus, hkept]⟩
  have hfill : (db.fills.any fun f => decide (f.orderId = o.id)) = true :=
    List.any_eq_true.mpr ⟨f, hf, decide_eq_true hid⟩
  rw [unrecordedOutcomes, List.mem_dedup, List.mem_map]
  exact ⟨o, List.mem_filter.mpr ⟨ho, by simp [hticket, hfill, hrow]⟩, rfl⟩

end LedgerDb

namespace VenuePass

open LedgerDb (orderOf)

/-- The venue has a broker and a resolver, and the outcome is of no registered
game still to start. -/
structure Settleable (t : Instant) (s : AppState) (v : VenueId) (o : OutcomeId) : Prop where
  broker : s.brokers.get? v ≠ none
  resolver : v ∈ s.resolvers
  started : (v, o) ∉ s.notStarted t.utc

section Books

variable {resolve : Resolve} {t : Instant} {s : AppState} {db : LedgerDb} {b b' : VenuePass}
  {v : VenueId} {o : OutcomeId}

/-- The brokers are on the same venues throughout. -/
theorem Later.brokers (h : Later b b') (v : VenueId) :
    b'.app.brokers.get? v = none ↔ b.app.brokers.get? v = none := by
  have hrel := h.serviced.brokers v
  cases hb : b.app.brokers.get? v with
  | none =>
      rw [hb] at hrel
      cases hb' : b'.app.brokers.get? v with
      | none => exact Iff.rfl
      | some a' => rw [hb'] at hrel; cases hrel
  | some a =>
      rw [hb] at hrel
      cases hb' : b'.app.brokers.get? v with
      | none => rw [hb'] at hrel; cases hrel
      | some a' => exact iff_of_false (Option.some_ne_none a') (Option.some_ne_none a)

/-! ## What a held outcome comes to -/

/-- Nobody holds the outcome and it has a row. -/
def Closed (b : VenuePass) (v : VenueId) (o : OutcomeId) : Prop :=
  ¬ Holds b.app v o ∧ b.db.hasSettlementRow o = true

theorem Closed.later (h : Closed b v o) (hlater : Later b b') : Closed b' v o :=
  ⟨fun hholds => h.1 (hlater.holds hholds), hlater.hasSettlementRow h.2⟩

/-- The turn of a held outcome closes it, whether it has a row or not. -/
theorem closed_settleHeld {ts : ℚ} {pending : List (VenueId × OutcomeId)}
    (hpending : (v, o) ∉ pending) {value : ℚ} (hvalue : resolve v o = .ok (some value))
    (b : VenuePass) : Closed (settleHeld resolve ts pending v b o).1 v o := by
  cases hrow : b.db.hasSettlementRow o with
  | true =>
      rw [settleHeld_ghost hpending hrow]
      exact ⟨not_holds_closeGhost b v o, hrow⟩
  | false =>
      rw [settleHeld_value hpending hrow hvalue]
      exact ⟨not_holds_settle b ts v o value, hasSettlementRow_settle b ts v o value⟩

/-- The first phase remembers only what was held when the pass began. -/
def Remembers (b₀ b : VenuePass) : Prop :=
  ∀ v o, o ∈ b.heldByVenue.getD v [] → Holds b₀.app v o

theorem heldByVenue_settleHeld {ts : ℚ} {pending : List (VenueId × OutcomeId)} (b : VenuePass)
    (v : VenueId) (o : OutcomeId) :
    (settleHeld resolve ts pending v b o).1.heldByVenue = b.heldByVenue := by
  unfold settleHeld
  split
  · rfl
  · split
    · rfl
    · split <;> rfl

theorem remembers_settleVenue {ts : ℚ} {pending : List (VenueId × OutcomeId)} {b₀ : VenuePass}
    (hlater : Later b₀ b) (h : Remembers b₀ b) (v : VenueId) :
    Remembers b₀ (settleVenue resolve ts pending b v).1 := by
  rcases settleVenue_cases resolve ts pending b v with hskip | ⟨a, hbroker, -, hturns⟩
  · rw [hskip]
    exact h
  · rw [hturns]
    refine Runs.loop_inv (I := Remembers b₀) (fun b' o _ hb' => ?_) ?_
    · rw [Remembers, heldByVenue_settleHeld]
      exact hb'
    · intro w o ho
      by_cases hw : w = v
      · subst hw
        rw [Dict.getD_set_self] at ho
        exact hlater.holds ⟨a, hbroker, ho⟩
      · rw [Dict.getD_set_ne _ hw] at ho
        exact h w o ho

theorem remembers_settlePhase (ts : ℚ) (pending : List (VenueId × OutcomeId)) (b : VenuePass)
    (h : b.heldByVenue = Dict.empty) :
    Later b (settlePhase resolve ts pending b).1 ∧
      Remembers b (settlePhase resolve ts pending b).1 := by
  refine Runs.loop_inv (I := fun b' => Later b b' ∧ Remembers b b') (fun b' v _ hb' => ?_)
    ⟨.refl b, fun v o ho => ?_⟩
  · exact ⟨hb'.1.trans (later_settleVenue b' v), remembers_settleVenue hb'.1 hb'.2 v⟩
  · rw [h, Dict.getD_empty] at ho
    cases ho

/-! ## The first phase -/

/-- The lookups return values. -/
def Resolves (resolve : Resolve) (t : Instant) (s : AppState) : Prop :=
  ∀ v o, Settleable t s v o → ∃ value, resolve v o = .ok (some value)

theorem turns_of_resolves (h : Resolves resolve t s) :
    Turns resolve t.utc (s.notStarted t.utc) { app := s, db := db }
      (Later { app := s, db := db }) where
  start := .refl _
  later := fun _ => id
  remember := fun b held hb => hb.trans (later_remember b held)
  turn := by
    intro b v o hv ho hb
    refine ⟨hb.trans (later_settleHeld b v o), ?_⟩
    by_cases hpending : (v, o) ∈ s.notStarted t.utc
    · simp [settleHeld, hpending]
    · obtain ⟨a, ha, -⟩ := ho
      obtain ⟨value, hvalue⟩ := h v o ⟨by rw [ha]; exact Option.some_ne_none a, hv, hpending⟩
      cases hrow : b.db.hasSettlementRow o with
      | true => rw [settleHeld_ghost hpending hrow]
      | false => rw [settleHeld_value hpending hrow hvalue]

variable (db) in
/-- **After the first phase** nobody holds what can be settled, and what the
phase remembers of it has a row. -/
theorem settlePhase_closes (h : Resolves resolve t s) (ho : Settleable t s v o) :
    let b := (settlePhase resolve t.utc (s.notStarted t.utc) { app := s, db := db }).1
    ¬ Holds b.app v o ∧ (o ∈ b.heldByVenue.getD v [] → b.db.hasSettlementRow o = true) := by
  intro b
  obtain ⟨hlater, hremembers⟩ : Later { app := s, db := db } b ∧
      Remembers { app := s, db := db } b := remembers_settlePhase _ _ _ rfl
  -- its own turn closes what is held, and nothing in the phase opens a position
  by_cases hheld : Holds s v o
  · obtain ⟨value, hvalue⟩ := h v o ho
    have hclosed : Closed b v o :=
      (turns_of_resolves h).reaches (P := fun b => Closed b v o) ho.resolver hheld
        (fun _ _ hlater hb => hb.later hlater) fun b _ => closed_settleHeld ho.started hvalue b
    exact ⟨hclosed.1, fun _ => hclosed.2⟩
  · exact ⟨fun hholds => hheld (hlater.holds hholds),
      fun hmem => absurd (hremembers v o hmem) hheld⟩

/-! ## The second phase -/

/-- What the second phase does not leave alone can be settled. -/
theorem settleable_of_not_skips {pending : List (VenueId × OutcomeId)} (hpending : pending =
    s.notStarted t.utc) (hlater : Later { app := s, db := db } b) {item : VenueId × OutcomeId}
    (h : ¬ Skips pending b item) : Settleable t s item.1 item.2 := by
  simp only [Skips, not_or, not_not] at h
  obtain ⟨hbroker, hresolver, -, hstarted⟩ := h
  rw [hlater.resolvers] at hresolver
  exact ⟨mt (hlater.brokers _).mpr hbroker, hresolver, hpending ▸ hstarted⟩

/-- The second phase does not raise. -/
theorem recordOutcome_returns (h : Resolves resolve t s) (hlater : Later { app := s, db := db } b)
    (item : VenueId × OutcomeId) :
    (recordOutcome resolve t.utc (s.notStarted t.utc) b item).2 = none := by
  unfold recordOutcome
  split
  · rfl
  · rename_i hskips
    obtain ⟨value, hvalue⟩ := h _ _ (settleable_of_not_skips rfl hlater hskips)
    rw [hvalue]
    dsimp only
    split <;> rfl

/-- The turn of an outcome that nobody holds writes its row. -/
theorem hasSettlementRow_recordOutcome {ts : ℚ} {pending : List (VenueId × OutcomeId)}
    (hskips : ¬ Skips pending b (v, o)) (hfree : ¬ Holds b.app v o) {value : ℚ}
    (hvalue : resolve v o = .ok (some value)) :
    (recordOutcome resolve ts pending b (v, o)).1.db.hasSettlementRow o = true := by
  rw [recordOutcome_value hskips hvalue hfree]
  exact hasSettlementRow_settle b ts v o value

/-- **What the first phase leaves without a row the second records.** -/
theorem recordPhase_records (h : Resolves resolve t s) (hlater : Later { app := s, db := db } b)
    (hitem : (v, o) ∈ b.db.unrecordedOutcomes)
    (hskips : ¬ Skips (s.notStarted t.utc) b (v, o)) (hfree : ¬ Holds b.app v o) :
    (recordPhase resolve t.utc (s.notStarted t.utc) (b, none)).1.db.hasSettlementRow o = true := by
  obtain ⟨value, hvalue⟩ := h _ _ (settleable_of_not_skips rfl hlater hskips)
  refine Runs.loop_reaches (I := fun b' => Later b b' ∧ SameVenues b b')
    (P := fun b' => b'.db.hasSettlementRow o = true) hitem ?_ ?_ ?_ ⟨.refl b, .refl b⟩
  · rintro b' item - ⟨hb', hsame⟩
    exact ⟨⟨hb'.trans (later_recordOutcome b' item),
      hsame.trans (sameVenues_recordOutcome b' item)⟩,
      recordOutcome_returns h (hlater.trans hb') item⟩
  · intro b' item _ _ hrow
    exact (later_recordOutcome b' item).hasSettlementRow hrow
  · rintro b' ⟨hb', hsame⟩
    exact hasSettlementRow_recordOutcome (mt (hsame.skips_iff _).mp hskips)
      (fun hholds => hfree (hb'.holds hholds)) hvalue

/-! ## The whole pass -/

/-- **The books are closed**: no filled ticket that is not withheld, and all of
whose outcomes can be settled, is open, and no account the pass walks holds an
outcome that can be settled. -/
structure BooksClosed (t : Instant) (s : AppState) (b : VenuePass) : Prop where
  tickets : ∀ ticket ∈ b.db.tickets, ticket.status = "filled" → ticket.excludedReason = none →
    (∀ o ∈ b.db.orders, orderOf ticket o = true → Settleable t s o.venueId o.outcomeId) →
    ∀ accountId since, (b.db.ticketOutcomes accountId since).get? ticket.id ≠ some .open
  positions : ∀ v o, Settleable t s v o → ∀ a ∈ b.app.brokers.get? v, ∀ acct ∈ s.accountIds,
    (a.account acct).qty o = 0

/-- Whatever can be settled is recorded by the end of a pass, if a filled
ticket that is not withheld traded it. -/
theorem settleOnce_records (h : Resolves resolve t s) {ticket : PaperTicket}
    (hmem : ticket ∈ db.tickets) (hstatus : ticket.status = "filled")
    (hkept : ticket.excludedReason = none) (htraded : db.Traded ticket) {order : PaperOrder}
    (horder : order ∈ db.orders) (hmine : orderOf ticket order = true)
    (ho : Settleable t s order.venueId order.outcomeId) :
    (settleOnce resolve t s db).1.db.hasSettlementRow order.outcomeId = true := by
  have hturns : Turns resolve t.utc (s.notStarted t.utc) { app := s, db := db }
    (Later { app := s, db := db }) := turns_of_resolves h
  obtain ⟨hlater, hnone⟩ := hturns.settlePhase
  obtain ⟨hfree, hremembered⟩ := settlePhase_closes db h ho
  rw [settleOnce]
  rcases hphase : settlePhase resolve t.utc (s.notStarted t.utc) { app := s, db := db } with ⟨b, e⟩
  rw [hphase] at hlater hnone hfree hremembered
  cases hnone
  -- a row the first phase leaves stays; without one the second phase finds the order
  cases hrow : b.db.hasSettlementRow order.outcomeId with
  | true => exact (later_recordPhase _).hasSettlementRow hrow
  | false =>
      have hitem : (order.venueId, order.outcomeId) ∈ b.db.unrecordedOutcomes := by
        refine LedgerDb.mem_unrecordedOutcomes ?_ hstatus hkept (htraded.of_same hlater.trades)
          ?_ hmine hrow
        · rwa [hlater.trades.tickets]
        · rwa [hlater.trades.orders]
      refine recordPhase_records h hlater hitem ?_ hfree
      rintro (hbroker | hresolver | hheld | hpending)
      · exact ho.broker ((hlater.brokers _).mp hbroker)
      · exact hresolver (hlater.resolvers ▸ ho.resolver)
      · rw [hremembered hheld] at hrow
        cases hrow
      · exact ho.started hpending

/-- **One quiet pass closes the books.** -/
theorem pass_closes_books (hresolves : Resolves resolve t s)
    (htraded : ∀ ticket ∈ db.tickets, ticket.status = "filled" → db.Traded ticket) :
    BooksClosed t s (settleOnce resolve t s db).1 := by
  have hphase : Later { app := s, db := db }
      (settlePhase resolve t.utc (s.notStarted t.utc) { app := s, db := db }).1 :=
    (turns_of_resolves hresolves).settlePhase.1
  have hlater : Later { app := s, db := db } (settleOnce resolve t s db).1 :=
    hphase.trans (later_recordPhase _)
  refine ⟨fun ticket hmem hstatus hkept hsettleable accountId since hopen => ?_,
    fun v o ho a ha acct hacct => ?_⟩
  · rw [hlater.trades.tickets] at hmem
    rw [hlater.trades.orders] at hsettleable
    have htraded' := htraded ticket hmem hstatus
    obtain ⟨ticket', hmem', -, hopen', hid⟩ :=
      LedgerDb.mem_openIds.mp (LedgerDb.get?_ticketOutcomes_eq_open_iff.mp hopen)
    rw [hlater.trades.tickets] at hmem'
    cases LedgerDb.eq_of_id_eq hmem' hmem hid
    refine (htraded'.of_same hlater.trades).not_open (fun order horder hmine => ?_) hopen'
    rw [hlater.trades.orders] at horder
    exact settleOnce_records hresolves hmem hstatus hkept htraded' horder hmine
      (hsettleable order horder hmine)
  · by_contra hqty
    have hheld : Holds (settleOnce resolve t s db).1.app v o :=
      ⟨a, ha, mem_heldBy.mpr ⟨acct, by rwa [hlater.accountIds], hqty⟩⟩
    exact (settlePhase_closes db hresolves ho).1 ((later_recordPhase _).holds hheld)

/-! ### A pair on two venues -/

/-- The contract of one venue is held; that of the other is not, any more. -/
def holdingOne : AppState :=
  let s := holding "kalshi" "T:YES"
  { s with brokers := s.brokers.put (.new "polymarket_us" .polymarketUs 0) }

/-- A filled ticket of both legs, and no settlement row. -/
def pairLedger : LedgerDb :=
  let db := LedgerDb.oneLegLedger [] "T:YES" (1 / 2)
  { db with
    orders := db.orders ++ db.orders.map fun order =>
      { order with id := "o2", venueId := "polymarket_us", outcomeId := "t:SHORT" }
    fills := db.fills ++ [⟨"o2", 1, 2 / 5, 0⟩]
    orders_nodup := by decide }

/-- The one venue pays, the other does not. -/
def oneWins : Resolve := fun v _ => .ok (some (if v = "kalshi" then 1 else 0))

theorem traded_pairLedger : ∀ ticket ∈ pairLedger.tickets, pairLedger.Traded ticket := by
  intro ticket hmem
  have hfills : ∀ order ∈ pairLedger.orders, ∃ fill ∈ pairLedger.fills, fill.orderId = order.id := by
    decide
  rw [List.mem_singleton.mp hmem]
  exact ⟨⟨_, List.mem_cons_self, rfl⟩, fun order horder _ => hfills order horder⟩

theorem settleable_pairLedger :
    ∀ order ∈ pairLedger.orders, Settleable ⟨0, 0⟩ holdingOne order.venueId order.outcomeId := by
  have hall : ∀ order ∈ pairLedger.orders, holdingOne.brokers.get? order.venueId ≠ none ∧
      order.venueId ∈ holdingOne.resolvers ∧
      (order.venueId, order.outcomeId) ∉ holdingOne.notStarted 0 := by decide +kernel
  intro order horder
  obtain ⟨hbroker, hresolver, hstarted⟩ := hall order horder
  exact ⟨hbroker, hresolver, hstarted⟩

/-- The pass settles what is held and records what is not, so the ticket is
scored, and nothing is held. -/
theorem pass_closes_pairLedger :
    let b := (settleOnce oneWins ⟨0, 0⟩ holdingOne pairLedger).1
    (∀ accountId since, (b.db.ticketOutcomes accountId since).get? "t1" ≠ some .open) ∧
      ∀ a ∈ b.app.brokers.get? "kalshi", (a.account "default").qty "T:YES" = 0 := by
  intro b
  have hclosed : BooksClosed ⟨0, 0⟩ holdingOne b :=
    pass_closes_books (fun _ _ _ => ⟨_, rfl⟩) fun ticket hmem _ => traded_pairLedger ticket hmem
  have hlater : Later { app := holdingOne, db := pairLedger } b :=
    ((turns_of_resolves fun _ _ _ => ⟨_, rfl⟩).settlePhase.1).trans (later_recordPhase _)
  constructor
  · intro accountId since
    have hmem : ∃ ticket ∈ pairLedger.tickets, ticket.id = "t1" ∧ ticket.status = "filled" ∧
        ticket.excludedReason = none := ⟨_, List.mem_cons_self, rfl, rfl, rfl⟩
    obtain ⟨ticket, hticket, hid, hstatus, hkept⟩ := hmem
    rw [← hid]
    refine hclosed.tickets ticket (by rwa [hlater.trades.tickets]) hstatus hkept ?_ accountId since
    intro order horder _
    rw [hlater.trades.orders] at horder
    exact settleable_pairLedger order horder
  · intro a ha
    have hheld := settleable_pairLedger _ (List.mem_cons_self)
    exact hclosed.positions "kalshi" "T:YES" hheld a ha "default" (by decide)

end Books

end VenuePass

end Arbys
