import Arbys.ExecutionRouter

/-!
# Ticket atomicity

`submit` promises that a ticket fills every leg or leaves no trace. A commit
only ever advances the brokers: it moves one account and records orders under
ids that named nothing before (`Advance`). The rollback takes back all of that
but the carried fees, which `snapshot_account` does not copy, so a ticket that
fails after the preview is undone exactly when the legs applied before the
refused one left every carried fee where it was. That condition is judged on a
`Purse`, the little of an account a ticket's legs read, before the call.
-/

namespace Arbys

open AccountState PaperExecutionAdapter Router

/-! ## What a ticket promises -/

/-- Two accounts hold the same, an absent key reading as zero. -/
structure AccountState.Same (st st' : AccountState) : Prop where
  cash : ∀ v, st'.cash v = st.cash v
  qty : ∀ o, st'.qty o = st.qty o
  avg : ∀ o, st'.avg o = st.avg o
  realizedPnl : st'.realizedPnl = st.realizedPnl
  realizedOn : ∀ o, st'.realizedOn o = st.realizedOn o
  openFees : ∀ o, st'.openFees o = st.openFees o

theorem AccountState.Same.refl (st : AccountState) : st.Same st :=
  ⟨fun _ => rfl, fun _ => rfl, fun _ => rfl, rfl, fun _ => rfl, fun _ => rfl⟩

/-- The complete state of every account, and every recorded order and fill, as
before. -/
structure PaperExecutionAdapter.Unchanged (a a' : PaperExecutionAdapter) : Prop where
  venueId : a'.venueId = a.venueId
  fees : a'.fees = a.fees
  slippageBps : a'.slippageBps = a.slippageBps
  account : ∀ acct, (a.account acct).Same (a'.account acct)
  orders : ∀ id, a'.log.orders.get? id = a.log.orders.get? id
  fills : ∀ id, a'.log.fills.get? id = a.log.fills.get? id

/-- The same brokers, each unchanged. -/
def Brokers.Unchanged (b b' : Brokers) : Prop :=
  ∀ v, Option.Rel PaperExecutionAdapter.Unchanged (b.get? v) (b'.get? v)

/-- `order` is `leg` filled in full, recorded with its one fill. -/
structure FilledLeg (b : Brokers) (leg : IntentLeg) (order : Order) : Prop where
  status : order.status = .filled
  venueId : order.venueId = leg.venueId
  outcomeId : order.outcomeId = leg.outcomeId
  isBuy : order.isBuy = leg.isBuy
  qty : order.qty = leg.qty
  limitPrice : order.limitPrice = leg.limitPrice
  recorded : ∃ a fill, b.get? leg.venueId = some a ∧ a.log.orders.get? order.id = some order ∧
    a.log.fills.get? order.id = some [fill] ∧ fill.qty = leg.qty

/-- **What a ticket promises**: every leg fills, or the call raises with
everything as it was. -/
def TicketAtomic (b : Brokers) (book : QuoteBook) (clock : ℕ → ℚ) (intent : ExecutionIntent) :
    Prop :=
  (∃ orders, (submit b book clock intent).2 = .ok orders ∧
    List.Forall₂ (FilledLeg (submit b book clock intent).1) intent.legs orders) ∨
  (∃ error, (submit b book clock intent).2 = .error error ∧
    b.Unchanged (submit b book clock intent).1)

theorem Brokers.Unchanged.refl (b : Brokers) : b.Unchanged b := by
  intro v
  cases b.get? v with
  | none => exact .none
  | some a => exact .some ⟨rfl, rfl, rfl, fun acct => .refl _, fun _ => rfl, fun _ => rfl⟩

/-! ## A commit advances the brokers -/

namespace PaperExecutionAdapter

/-- `a'` is `a` after orders of `acct` recorded under `ids`: which broker it
is, the other accounts and the rest of the log are as they were. -/
structure Advance (acct : AccountId) (ids : List OrderId) (a a' : PaperExecutionAdapter) :
    Prop where
  venueId : a'.venueId = a.venueId
  fees : a'.fees = a.fees
  slippageBps : a'.slippageBps = a.slippageBps
  others : ∀ j, j ≠ acct → a'.account j = a.account j
  log_off : ∀ id, id ∉ ids → a'.log.orders.get? id = a.log.orders.get? id ∧
    a'.log.fills.get? id = a.log.fills.get? id
  log_new : ∀ id ∈ ids, a.log.orders.get? id = none ∧ a.log.fills.get? id = none

variable {acct : AccountId} {ids ids' : List OrderId} {a a' a'' : PaperExecutionAdapter}

theorem Advance.refl (acct : AccountId) (a : PaperExecutionAdapter) : Advance acct [] a a :=
  ⟨rfl, rfl, rfl, fun _ _ => rfl, fun _ _ => ⟨rfl, rfl⟩, fun _ h => by cases h⟩

theorem Advance.trans (h : Advance acct ids a a') (h' : Advance acct ids' a' a'') :
    Advance acct (ids ++ ids') a a'' where
  venueId := h'.venueId.trans h.venueId
  fees := h'.fees.trans h.fees
  slippageBps := h'.slippageBps.trans h.slippageBps
  others := fun j hj => (h'.others j hj).trans (h.others j hj)
  log_off := by
    intro id hid
    obtain ⟨h1, h2⟩ := not_or.mp (mt List.mem_append.mpr hid)
    exact ⟨(h'.log_off id h2).1.trans (h.log_off id h1).1,
      (h'.log_off id h2).2.trans (h.log_off id h1).2⟩
  log_new := by
    intro id hid
    by_cases h1 : id ∈ ids
    · exact h.log_new id h1
    · have h2 : id ∈ ids' := (List.mem_append.mp hid).resolve_left h1
      rw [← (h.log_off id h1).1, ← (h.log_off id h1).2]
      exact h'.log_new id h2

/-- A refused order, once forgotten, leaves nothing behind. -/
theorem advance_refused (acct : AccountId) (a : PaperExecutionAdapter) (leg : IntentLeg)
    (ticketId : Option TicketId) (reason : RejectReason) :
    Advance acct [] a (a.refused leg ticketId reason) := by
  obtain ⟨ho, hf⟩ := a.log.fresh a.venueId a.log.drawn (le_refl _)
  refine ⟨rfl, rfl, rfl, fun _ _ => rfl, fun id _ => ?_, fun _ h => by cases h⟩
  simp only [refused, reject, forgetOrder, OrderLog.forget, OrderLog.record, nextId,
    Dict.get?_erase, Dict.get?_set]
  by_cases hid : id = ⟨a.venueId, a.log.drawn⟩
  · subst hid
    simp [ho, hf]
  · simp [hid]

theorem advance_acceptLeg (acct : AccountId) (a : PaperExecutionAdapter) (leg : IntentLeg)
    (ticketId : Option TicketId) (px : ℚ) :
    Advance acct [a.nextId] a (a.acceptLeg acct leg ticketId px).adapter := by
  refine ⟨rfl, rfl, rfl, fun j hj => ?_, fun id hid => ?_, fun id hid => ?_⟩
  · rw [acceptLeg, account_accept, if_neg hj]
  · have hne : id ≠ ⟨a.venueId, a.log.drawn⟩ := by simpa [nextId] using hid
    simp only [acceptLeg, accept, OrderLog.record, Dict.get?_set_ne _ hne]
    exact ⟨trivial, trivial⟩
  · rw [List.mem_singleton.mp hid]
    exact a.log.fresh a.venueId a.log.drawn (le_refl _)

end PaperExecutionAdapter

/-- The ids a commit recorded on one venue. -/
def idsOn (v : VenueId) (applied : List (VenueId × Order × Fill)) : List OrderId :=
  (applied.filter fun e => e.1 = v).map fun e => e.2.1.id

/-- Every broker advanced by the orders applied on it. -/
def Brokers.Advance (acct : AccountId) (applied : List (VenueId × Order × Fill))
    (b b' : Brokers) : Prop :=
  ∀ v, Option.Rel (PaperExecutionAdapter.Advance acct (idsOn v applied)) (b.get? v) (b'.get? v)

namespace Brokers

variable {acct : AccountId} {applied applied' : List (VenueId × Order × Fill)}
  {b b' b'' : Brokers} {v : VenueId} {a a' : PaperExecutionAdapter}

theorem Advance.refl (acct : AccountId) (b : Brokers) : b.Advance acct [] b := by
  intro v
  cases b.get? v with
  | none => exact .none
  | some a => exact .some (.refl acct a)

theorem Advance.trans (h : b.Advance acct applied b') (h' : b'.Advance acct applied' b'') :
    b.Advance acct (applied ++ applied') b'' := by
  intro v
  have hv := h v
  have hv' := h' v
  revert hv hv'
  generalize b.get? v = x, b'.get? v = y, b''.get? v = z
  rintro (hxy | _) (hyz | _)
  · rw [idsOn, List.filter_append, List.map_append]
    exact .some (hxy.trans hyz)
  · exact .none

/-- Replacing one broker by its advance. -/
theorem advance_put (ha : b.get? v = some a)
    (h : PaperExecutionAdapter.Advance acct (idsOn v applied) a a')
    (hoff : ∀ w, w ≠ v → idsOn w applied = []) : b.Advance acct applied (b.put a') := by
  intro w
  have hv : a'.venueId = v := h.venueId.trans (venueId_of_get? ha)
  rw [get?_put, hv]
  by_cases hw : w = v
  · rw [if_pos hw, hw, ha]
    exact .some h
  · rw [if_neg hw, hoff w hw]
    exact Advance.refl acct b w

/-- The one order of an accepted leg. -/
theorem advance_acceptLeg (leg : IntentLeg) (ha : b.get? leg.venueId = some a)
    (acct : AccountId) (ticketId : Option TicketId) (px : ℚ) :
    b.Advance acct [(leg.venueId, (a.acceptLeg acct leg ticketId px).order, a.fillOf leg px)]
      (b.put (a.acceptLeg acct leg ticketId px).adapter) := by
  have hids : idsOn leg.venueId [(leg.venueId,
      (a.acceptLeg acct leg ticketId px).order, a.fillOf leg px)] = [a.nextId] := by
    simp only [idsOn, decide_true, List.filter_cons_of_pos, List.filter_nil, List.map_cons,
      List.map_nil]
    rfl
  refine advance_put ha ?_ fun w hw => ?_
  · rw [hids]
    exact PaperExecutionAdapter.advance_acceptLeg acct a leg ticketId px
  · simp [idsOn, Ne.symm hw]

theorem Advance.priceLeg (h : b.Advance acct applied b') (book : QuoteBook) (now : ℚ)
    (leg : IntentLeg) : Router.priceLeg b' book now leg = Router.priceLeg b book now leg := by
  have hv := h leg.venueId
  unfold Router.priceLeg
  revert hv
  generalize b.get? leg.venueId = x, b'.get? leg.venueId = y
  rintro (hxy | _)
  · simp only [previewFill_congr hxy.fees hxy.slippageBps]
  · rfl

end Brokers

/-- **What a commit does**: it advances the brokers by the orders it applied. -/
theorem commitLegs_advance (book : QuoteBook) (clock : ℕ → ℚ) (acct : AccountId)
    (ticketId : Option TicketId) (n : ℕ) (b : Brokers) (legs : List IntentLeg) :
    b.Advance acct (commitLegs book clock acct ticketId n b legs).applied
      (commitLegs book clock acct ticketId n b legs).brokers := by
  induction legs generalizing n b with
  | nil => exact .refl acct b
  | cons leg legs ih =>
      rcases commitLegs_cons b book clock acct ticketId n leg legs with
        ⟨_, hc⟩ | ⟨a, reason, ha, _, hc⟩ | ⟨a, px, cost, ha, _, _, hc⟩ <;> rw [hc]
      · exact .refl acct b
      · exact Brokers.advance_put ha (advance_refused acct a leg ticketId reason)
          fun _ _ => rfl
      · exact (Brokers.advance_acceptLeg leg ha acct ticketId px).trans (ih (n + 1) _)

/-- A commit leaves alone the brokers its legs are not routed to. -/
theorem commitLegs_off {book : QuoteBook} {clock : ℕ → ℚ} {acct : AccountId}
    {ticketId : Option TicketId} {v : VenueId} (n : ℕ) (b : Brokers) (legs : List IntentLeg)
    (hv : ∀ leg ∈ legs, leg.venueId ≠ v) :
    (commitLegs book clock acct ticketId n b legs).brokers.get? v = b.get? v := by
  induction legs generalizing n b with
  | nil => rfl
  | cons leg legs ih =>
      have hne : v ≠ leg.venueId := Ne.symm (hv leg List.mem_cons_self)
      rcases commitLegs_cons b book clock acct ticketId n leg legs with
        ⟨_, hc⟩ | ⟨a, reason, ha, _, hc⟩ | ⟨a, px, cost, ha, _, _, hc⟩ <;> rw [hc]
      · rw [Brokers.get?_put, (advance_refused acct a leg ticketId reason).venueId,
          Brokers.venueId_of_get? ha, if_neg hne]
      · refine (ih (n + 1) _ fun l hl => hv l (List.mem_cons_of_mem _ hl)).trans ?_
        rw [Brokers.get?_put, (advance_acceptLeg acct a leg ticketId px).venueId,
          Brokers.venueId_of_get? ha, if_neg hne]

/-! ## Every leg fills -/

/-- What was filled stays on record while the brokers advance. -/
theorem FilledLeg.advance {acct : AccountId} {applied : List (VenueId × Order × Fill)}
    {b b' : Brokers} {leg : IntentLeg} {order : Order} (hf : FilledLeg b leg order)
    (h : b.Advance acct applied b') : FilledLeg b' leg order := by
  obtain ⟨a, fill, ha, ho, hfill, hq⟩ := hf.recorded
  refine { hf with recorded := ?_ }
  have hv := h leg.venueId
  rw [ha] at hv
  cases hb' : b'.get? leg.venueId with
  | none => rw [hb'] at hv; cases hv
  | some a' =>
      rw [hb'] at hv
      cases hv with
      | some hadv =>
          have hold : order.id ∉ idsOn leg.venueId applied := fun hid => by
            have hnone := (hadv.log_new order.id hid).1
            rw [ho] at hnone
            cases hnone
          refine ⟨a', fill, rfl, ?_, ?_, hq⟩
          · rw [(hadv.log_off order.id hold).1, ho]
          · rw [(hadv.log_off order.id hold).2, hfill]

theorem filledLeg_put {b : Brokers} {leg : IntentLeg} {a : PaperExecutionAdapter}
    (ha : b.get? leg.venueId = some a) (acct : AccountId) (ticketId : Option TicketId) (px : ℚ) :
    FilledLeg (b.put (a.acceptLeg acct leg ticketId px).adapter) leg
      (a.acceptLeg acct leg ticketId px).order where
  status := rfl
  venueId := Brokers.venueId_of_get? ha
  outcomeId := rfl
  isBuy := rfl
  qty := rfl
  limitPrice := rfl
  recorded := by
    refine ⟨(a.acceptLeg acct leg ticketId px).adapter, a.fillOf leg px, ?_, ?_, ?_, rfl⟩
    · rw [Brokers.get?_put, (advance_acceptLeg acct a leg ticketId px).venueId,
        Brokers.venueId_of_get? ha, if_pos rfl]
    · exact Dict.get?_set_self ..
    · exact Dict.get?_set_self ..

/-- A commit that reports no failure has filled every leg. -/
theorem commitLegs_filled (book : QuoteBook) (clock : ℕ → ℚ) (acct : AccountId)
    (ticketId : Option TicketId) (n : ℕ) (b : Brokers) (legs : List IntentLeg)
    (hok : (commitLegs book clock acct ticketId n b legs).failure = none) :
    List.Forall₂ (FilledLeg (commitLegs book clock acct ticketId n b legs).brokers) legs
      ((commitLegs book clock acct ticketId n b legs).applied.map fun e => e.2.1) := by
  induction legs generalizing n b with
  | nil => exact .nil
  | cons leg legs ih =>
      rcases commitLegs_cons b book clock acct ticketId n leg legs with
        ⟨_, hc⟩ | ⟨a, reason, ha, _, hc⟩ | ⟨a, px, cost, ha, _, _, hc⟩ <;> rw [hc] at hok ⊢
      · cases hok
      · cases hok
      · have hadv := commitLegs_advance book clock acct ticketId (n + 1)
          (b.put (a.acceptLeg acct leg ticketId px).adapter) legs
        exact .cons ((filledLeg_put ha acct ticketId px).advance hadv) (ih (n + 1) _ hok)

/-! ## The rollback -/

/-- `r` is `a` with the account written back from `snap`, when it was written
back or held that already. -/
structure Restored (acct : AccountId) (snap : AccountSnapshot) (written : Prop)
    (a r : PaperExecutionAdapter) : Prop where
  venueId : r.venueId = a.venueId
  fees : r.fees = a.fees
  slippageBps : r.slippageBps = a.slippageBps
  log : r.log = a.log
  others : ∀ j, j ≠ acct → r.account j = a.account j
  openFees : (r.account acct).openFeesByOutcome = (a.account acct).openFeesByOutcome
  snapshot : written ∨ (a.account acct).snapshot = snap → (r.account acct).snapshot = snap

theorem restored_restoreAccount (acct : AccountId) (snap : AccountSnapshot) (written : Prop)
    (a : PaperExecutionAdapter) : Restored acct snap written a (a.restoreAccount acct snap) := by
  have hacct : (a.restoreAccount acct snap).account acct = (a.account acct).restore snap := by
    rw [restoreAccount, account_setAccount, if_pos rfl]
  refine ⟨rfl, rfl, rfl, rfl, fun j hj => ?_, ?_, fun _ => ?_⟩
  · rw [restoreAccount, account_setAccount, if_neg hj]
  · rw [hacct]
    rfl
  · rw [hacct]
    rfl

theorem get?_modify_restore (b : Brokers) (acct : AccountId) (s : VenueId × AccountSnapshot)
    (v : VenueId) :
    (b.modify s.1 fun a => a.restoreAccount acct s.2).get? v =
      if v = s.1 then (b.get? v).map fun a => a.restoreAccount acct s.2 else b.get? v :=
  b.get?_modify s.1 v fun _ => rfl

theorem get?_modify_forget (b : Brokers) (e : VenueId × Order × Fill) (v : VenueId) :
    (b.modify e.1 fun a => a.forgetOrder e.2.1.id).get? v =
      if v = e.1 then (b.get? v).map fun a => a.forgetOrder e.2.1.id else b.get? v :=
  b.get?_modify e.1 v fun _ => rfl

theorem restoreAll_get?_none {acct : AccountId} {v : VenueId}
    (snaps : List (VenueId × AccountSnapshot)) {b : Brokers} (h : b.get? v = none) :
    (restoreAll acct b snaps).get? v = none := by
  induction snaps generalizing b with
  | nil => exact h
  | cons s snaps ih =>
      refine ih ((get?_modify_restore b acct s v).trans ?_)
      rw [h]
      split <;> rfl

theorem restoreAll_get? {acct : AccountId} {v : VenueId} {snap : AccountSnapshot}
    (snaps : List (VenueId × AccountSnapshot)) (hs : ∀ s ∈ snaps, s.1 = v → s.2 = snap)
    {b : Brokers} {a : PaperExecutionAdapter} (h : b.get? v = some a) :
    ∃ r, (restoreAll acct b snaps).get? v = some r ∧
      Restored acct snap (∃ s ∈ snaps, s.1 = v) a r := by
  induction snaps generalizing b a with
  | nil =>
      refine ⟨a, h, rfl, rfl, rfl, rfl, fun _ _ => rfl, rfl, fun hw => ?_⟩
      rcases hw with ⟨s, hs, _⟩ | hw
      · cases hs
      · exact hw
  | cons s snaps ih =>
      have hrest : ∀ t ∈ snaps, t.1 = v → t.2 = snap := fun t ht =>
        hs t (List.mem_cons_of_mem _ ht)
      by_cases hv : v = s.1
      · have hsnap : s.2 = snap := hs s List.mem_cons_self hv.symm
        have h1 : (b.modify s.1 fun a => a.restoreAccount acct s.2).get? v =
            some (a.restoreAccount acct snap) := by
          rw [get?_modify_restore, if_pos hv, h, hsnap]
          rfl
        obtain ⟨r, hr, hres⟩ := ih hrest h1
        have hfirst := restored_restoreAccount acct snap True a
        refine ⟨r, hr, hres.venueId, hres.fees, hres.slippageBps, hres.log, fun j hj => ?_, ?_,
          fun _ => hres.snapshot (.inr (hfirst.snapshot (.inl trivial)))⟩
        · rw [hres.others j hj, hfirst.others j hj]
        · rw [hres.openFees, hfirst.openFees]
      · have h1 : (b.modify s.1 fun a => a.restoreAccount acct s.2).get? v = some a := by
          rw [get?_modify_restore, if_neg hv, h]
        obtain ⟨r, hr, hres⟩ := ih hrest h1
        refine ⟨r, hr, { hres with snapshot := fun hw => hres.snapshot ?_ }⟩
        rcases hw with ⟨t, ht, htv⟩ | hw
        · rcases List.mem_cons.mp ht with rfl | ht
          · exact absurd htv.symm hv
          · exact .inl ⟨t, ht, htv⟩
        · exact .inr hw

theorem forgetAll_get?_none {v : VenueId} (applied : List (VenueId × Order × Fill))
    {b : Brokers} (h : b.get? v = none) : (forgetAll b applied).get? v = none := by
  induction applied generalizing b with
  | nil => exact h
  | cons e applied ih =>
      refine ih ((get?_modify_forget b e v).trans ?_)
      rw [h]
      split <;> rfl

/-- Forgetting orders drops them from the log and touches nothing else. -/
theorem forgetAll_get? {v : VenueId} (applied : List (VenueId × Order × Fill))
    {b : Brokers} {a : PaperExecutionAdapter} (h : b.get? v = some a) :
    ∃ r, (forgetAll b applied).get? v = some r ∧
      r.venueId = a.venueId ∧ r.fees = a.fees ∧ r.slippageBps = a.slippageBps ∧
      r.accounts = a.accounts ∧
      ∀ id, (r.log.orders.get? id =
          if id ∈ idsOn v applied then none else a.log.orders.get? id) ∧
        (r.log.fills.get? id = if id ∈ idsOn v applied then none else a.log.fills.get? id) := by
  induction applied generalizing b a with
  | nil => exact ⟨a, h, rfl, rfl, rfl, rfl, fun id => by simp [idsOn]⟩
  | cons e applied ih =>
      by_cases hv : v = e.1
      · have h1 : (b.modify e.1 fun a => a.forgetOrder e.2.1.id).get? v =
            some (a.forgetOrder e.2.1.id) := by
          rw [get?_modify_forget, if_pos hv, h]
          rfl
        obtain ⟨r, hr, h2, h3, h4, h5, hlog⟩ := ih h1
        refine ⟨r, hr, h2, h3, h4, h5, fun id => ?_⟩
        have hids : id ∈ idsOn v (e :: applied) ↔ id = e.2.1.id ∨ id ∈ idsOn v applied := by
          simp [idsOn, hv]
        rw [(hlog id).1, (hlog id).2]
        simp only [forgetOrder, OrderLog.forget, Dict.get?_erase, hids]
        by_cases h1 : id = e.2.1.id <;> by_cases h2 : id ∈ idsOn v applied <;> simp [h1, h2]
      · have h1 : (b.modify e.1 fun a => a.forgetOrder e.2.1.id).get? v = some a := by
          rw [get?_modify_forget, if_neg hv, h]
        have hids : idsOn v (e :: applied) = idsOn v applied := by
          simp [idsOn, Ne.symm hv]
        rw [hids]
        exact ih h1

/-! ## When the promise is kept -/

/-- What the legs of a ticket read of one account: cash by venue, quantity
held and fees carried by venue and outcome. -/
@[ext] structure Purse where
  cash : VenueId → ℚ
  held : VenueId → OutcomeId → ℚ
  carried : VenueId → OutcomeId → ℚ

namespace Purse

/-- The purse of an account over the brokers. -/
def read (b : Brokers) (acct : AccountId) : Purse where
  cash v := ((b.get? v).map fun a => a.cash acct).getD 0
  held v o := ((b.get? v).map fun a => (a.account acct).qty o).getD 0
  carried v o := ((b.get? v).map fun a => (a.account acct).openFees o).getD 0

/-- The fee contained in the cost of a leg at price `px`. -/
def feeIn (leg : IntentLeg) (px cost : ℚ) : ℚ :=
  if leg.isBuy then cost - px * leg.qty else cost + px * leg.qty

/-- The fees carried on a leg's outcome once it has filled: a sale takes its
share away. -/
def carriedAfter (p : Purse) (leg : IntentLeg) (fee : ℚ) : ℚ :=
  let carried := p.carried leg.venueId leg.outcomeId + fee
  if leg.isBuy then carried
  else carried - feeShare carried leg.qty (p.held leg.venueId leg.outcomeId)

/-- The purse once a leg has filled. -/
def charge (p : Purse) (leg : IntentLeg) (px cost : ℚ) : Purse where
  cash v := if v = leg.venueId then p.cash v - cost else p.cash v
  held v o :=
    if v = leg.venueId ∧ o = leg.outcomeId then
      if leg.isBuy then p.held v o + leg.qty else p.held v o - leg.qty
    else p.held v o
  carried v o :=
    if v = leg.venueId ∧ o = leg.outcomeId then p.carriedAfter leg (feeIn leg px cost)
    else p.carried v o

/-- The purse at the first leg that is refused a price or cannot be paid;
`none` when every leg can. `price n` is the preview of the `n`-th leg. -/
def firstRefusal (price : ℕ → IntentLeg → Except RejectReason (ℚ × ℚ)) :
    ℕ → Purse → List IntentLeg → Option Purse
  | _, _, [] => none
  | n, p, leg :: legs =>
      match price n leg with
      | .error _ => some p
      | .ok (px, cost) =>
          if leg.isBuy ∧ p.cash leg.venueId < cost then some p
          else firstRefusal price (n + 1) (p.charge leg px cost) legs

theorem read_refused {b : Brokers} {a : PaperExecutionAdapter} {leg : IntentLeg}
    (ha : b.get? leg.venueId = some a) (acct : AccountId) (ticketId : Option TicketId)
    (reason : RejectReason) : read (b.put (a.refused leg ticketId reason)) acct = read b acct := by
  have hv : (a.refused leg ticketId reason).venueId = leg.venueId :=
    (advance_refused acct a leg ticketId reason).venueId.trans (Brokers.venueId_of_get? ha)
  have hget : ∀ v, (b.put (a.refused leg ticketId reason)).get? v =
      if v = leg.venueId then some (a.refused leg ticketId reason) else b.get? v := fun v => by
    rw [Brokers.get?_put, hv]
  ext v o <;> simp only [read, hget] <;> by_cases hw : v = leg.venueId
  all_goals first | rw [if_neg hw] | rw [hw, if_pos rfl, ha]
  · rfl
  · rfl
  · rfl

section Charge

variable (st : AccountState) (v : VenueId) (leg : IntentLeg) (px fee : ℚ)

/-- A leg that fills costs what its preview said. -/
theorem cash_fillLeg : (st.bookFill v leg.outcomeId leg.isBuy leg.qty px fee).cash v =
    st.cash v - if leg.isBuy then px * leg.qty + fee else -(px * leg.qty) + fee := by
  cases leg.isBuy with
  | true =>
      rw [(movement_buy st v leg.outcomeId leg.qty px fee).cash, if_pos rfl, ← sub_eq_add_neg]
  | false =>
      rw [(movement_sell st v leg.outcomeId leg.qty px fee).cash, if_neg (by decide)]
      ring

theorem qty_fillLeg (o : OutcomeId) :
    (st.bookFill v leg.outcomeId leg.isBuy leg.qty px fee).qty o =
      if o = leg.outcomeId then
        if leg.isBuy then st.qty o + leg.qty else st.qty o - leg.qty
      else st.qty o := by
  by_cases ho : o = leg.outcomeId
  · subst ho
    rw [if_pos rfl]
    cases leg.isBuy with
    | true => exact (movement_buy ..).qty
    | false => exact (movement_sell ..).qty
  · rw [if_neg ho]
    cases leg.isBuy with
    | true => exact (movement_buy ..).qty_off o ho
    | false => exact (movement_sell ..).qty_off o ho

theorem openFees_fillLeg (o : OutcomeId) :
    (st.bookFill v leg.outcomeId leg.isBuy leg.qty px fee).openFees o =
      if o = leg.outcomeId then
        if leg.isBuy then st.openFees o + fee
        else st.openFees o + fee - feeShare (st.openFees o + fee) leg.qty (st.qty o)
      else st.openFees o := by
  by_cases ho : o = leg.outcomeId
  · subst ho
    rw [if_pos rfl]
    cases leg.isBuy with
    | true => exact (movement_buy ..).openFees
    | false => exact (movement_sell ..).openFees
  · rw [if_neg ho]
    cases leg.isBuy with
    | true => exact (movement_buy ..).openFees_off o ho
    | false => exact (movement_sell ..).openFees_off o ho

end Charge

theorem read_acceptLeg {b : Brokers} {a : PaperExecutionAdapter} {leg : IntentLeg}
    (ha : b.get? leg.venueId = some a) (acct : AccountId) (ticketId : Option TicketId)
    {px cost : ℚ} (hcost : cost = if leg.isBuy then px * leg.qty + a.fees.fee px leg.qty leg.isBuy
      else -(px * leg.qty) + a.fees.fee px leg.qty leg.isBuy) :
    read (b.put (a.acceptLeg acct leg ticketId px).adapter) acct =
      (read b acct).charge leg px cost := by
  have hv : a.venueId = leg.venueId := Brokers.venueId_of_get? ha
  have hget : ∀ v, (b.put (a.acceptLeg acct leg ticketId px).adapter).get? v =
      if v = leg.venueId then some (a.acceptLeg acct leg ticketId px).adapter else b.get? v :=
    fun v => by rw [Brokers.get?_put, (advance_acceptLeg acct a leg ticketId px).venueId, hv]
  have hbook : (a.acceptLeg acct leg ticketId px).adapter.account acct =
      (a.account acct).bookFill a.venueId leg.outcomeId leg.isBuy leg.qty px
        (a.fees.fee px leg.qty leg.isBuy) := by
    rw [acceptLeg, account_accept, if_pos rfl]
  have hcash : (a.acceptLeg acct leg ticketId px).adapter.cash acct = a.cash acct - cost := by
    show ((a.acceptLeg acct leg ticketId px).adapter.account acct).cash a.venueId = _
    rw [hbook, cash_fillLeg, hcost]
    rfl
  have hfee : feeIn leg px cost = a.fees.fee px leg.qty leg.isBuy := by
    rw [feeIn, hcost]
    cases leg.isBuy <;> simp
  -- cash, quantities and carried fees, each at the leg's venue and off it
  ext v o
  · simp only [read, charge, hget]
    by_cases hw : v = leg.venueId
    · subst hw
      rw [if_pos rfl, if_pos rfl, ha, Option.map_some, Option.getD_some, Option.map_some,
        Option.getD_some, hcash]
    · rw [if_neg hw, if_neg hw]
  · simp only [read, charge, hget]
    by_cases hw : v = leg.venueId
    · subst hw
      simp [ha, hbook, qty_fillLeg]
    · rw [if_neg hw, if_neg fun h => hw h.1]
  · simp only [read, charge, hget, hfee, carriedAfter]
    by_cases hw : v = leg.venueId
    · subst hw
      simp only [if_true, true_and, ha, Option.map_some, Option.getD_some, hbook,
        openFees_fillLeg]
      split
      · rename_i ho
        rw [ho]
      · rfl
    · rw [if_neg hw, if_neg fun h => hw h.1]

/-- **The purse follows the commit**: it is refused where the commit is, and
reads then what the brokers hold. -/
theorem firstRefusal_read {b₀ : Brokers} {book : QuoteBook} {clock : ℕ → ℚ} {acct : AccountId}
    (ticketId : Option TicketId) (n : ℕ) {applied : List (VenueId × Order × Fill)} {b : Brokers}
    (hadv : b₀.Advance acct applied b) (legs : List IntentLeg) :
    firstRefusal (fun n leg => priceLeg b₀ book (clock n) leg) n (read b acct) legs =
      (commitLegs book clock acct ticketId n b legs).failure.map fun _ =>
        read (commitLegs book clock acct ticketId n b legs).brokers acct := by
  induction legs generalizing n b applied with
  | nil => rfl
  | cons leg legs ih =>
      -- what was committed before does not change what a leg is priced at
      have hprice := hadv.priceLeg book (clock n) leg
      rcases commitLegs_cons b book clock acct ticketId n leg legs with
        ⟨ha, hc⟩ | ⟨a, reason, ha, hrefuse, hc⟩ | ⟨a, px, cost, ha, hp, hcash, hc⟩
      · have hp : priceLeg b book (clock n) leg = .error .noAdapter := by
          simp only [priceLeg, ha]
        rw [hc, firstRefusal, ← hprice, hp]
        rfl
      · rw [hc, firstRefusal, ← hprice]
        simp only [Option.map_some, read_refused ha acct ticketId reason]
        cases hp : priceLeg b book (clock n) leg with
        | error e => rfl
        | ok r =>
            obtain ⟨px, cost⟩ := r
            obtain ⟨hbuy, hlt⟩ := hrefuse px cost hp
            have hpoor : leg.isBuy = true ∧ (read b acct).cash leg.venueId < cost := by
              simpa [read, ha] using ⟨hbuy, hlt⟩
            simp only [if_pos hpoor]
      · have hrich : ¬ (leg.isBuy = true ∧ (read b acct).cash leg.venueId < cost) := by
          rintro ⟨hbuy, hlt⟩
          simp only [read, ha, Option.map_some, Option.getD_some] at hlt
          exact absurd (hcash hbuy) (not_le.mpr hlt)
        have hcost : cost = if leg.isBuy then px * leg.qty + a.fees.fee px leg.qty leg.isBuy
            else -(px * leg.qty) + a.fees.fee px leg.qty leg.isBuy := by
          simp only [priceLeg, ha] at hp
          exact previewFill_cost hp
        have hnext : b₀.Advance acct (applied ++ [(leg.venueId,
            (a.acceptLeg acct leg ticketId px).order, a.fillOf leg px)])
            (b.put (a.acceptLeg acct leg ticketId px).adapter) :=
          hadv.trans (Brokers.advance_acceptLeg leg ha acct ticketId px)
        rw [hc, firstRefusal, ← hprice, hp]
        simp only [if_neg hrich, ← read_acceptLeg ha acct ticketId hcost]
        exact ih (n + 1) hnext

end Purse

/-- **When a ticket is atomic**: the preview refuses it, or the legs that fill
before the first refused one leave every carried fee where it was. With no leg
refused the second holds of itself. -/
def KeepsFees (b : Brokers) (book : QuoteBook) (clock : ℕ → ℚ) (intent : ExecutionIntent) :
    Prop :=
  previewLegs b book clock intent.accountId 0 intent.legs ≠ [] ∨
  ∀ p, Purse.firstRefusal
      (fun n leg => priceLeg b book (clock (intent.legs.length + n)) leg) 0
      (Purse.read b intent.accountId) intent.legs = some p →
    p.carried = (Purse.read b intent.accountId).carried

/-- The brokers a failed commit leaves. -/
def rolledBack (b : Brokers) (book : QuoteBook) (clock : ℕ → ℚ) (intent : ExecutionIntent) :
    Brokers :=
  let c := commitLegs book clock intent.accountId intent.ticketId 0 b intent.legs
  forgetAll (restoreAll intent.accountId c.brokers (snapshots b intent.accountId intent.legs))
    c.applied

/-- What the rollback leaves of a broker `a` that the commit took to `m`:
everything of `a` but the carried fees, which are those of `m`. -/
structure RolledBack (acct : AccountId) (a m r : PaperExecutionAdapter) : Prop where
  venueId : r.venueId = a.venueId
  fees : r.fees = a.fees
  slippageBps : r.slippageBps = a.slippageBps
  others : ∀ j, j ≠ acct → r.account j = a.account j
  snapshot : (r.account acct).snapshot = (a.account acct).snapshot
  openFees : (r.account acct).openFeesByOutcome = (m.account acct).openFeesByOutcome
  orders : ∀ id, r.log.orders.get? id = a.log.orders.get? id
  fills : ∀ id, r.log.fills.get? id = a.log.fills.get? id

theorem RolledBack.unchanged_iff {acct : AccountId} {a m r : PaperExecutionAdapter}
    (h : RolledBack acct a m r) :
    a.Unchanged r ↔ ∀ o, (m.account acct).openFees o = (a.account acct).openFees o := by
  obtain ⟨hbal, hpos, havg, hpnl, hreal⟩ := AccountSnapshot.mk.inj h.snapshot
  have hfees : ∀ o, (r.account acct).openFees o = (m.account acct).openFees o := fun o => by
    rw [AccountState.openFees, h.openFees, ← AccountState.openFees]
  constructor
  · intro hu o
    rw [← hfees o]
    exact (hu.account acct).openFees o
  · intro hm
    refine ⟨h.venueId, h.fees, h.slippageBps, fun j => ?_, h.orders, h.fills⟩
    by_cases hj : j = acct
    · subst hj
      exact ⟨fun v => by rw [AccountState.cash, hbal, ← AccountState.cash],
        fun o => by rw [AccountState.qty, hpos, ← AccountState.qty],
        fun o => by rw [avg, havg, ← avg], hpnl,
        fun o => by rw [realizedOn, hreal, ← realizedOn],
        fun o => (hfees o).trans (hm o)⟩
    · rw [h.others j hj]
      exact .refl _

section Rollback

variable {b : Brokers} {book : QuoteBook} {clock : ℕ → ℚ} {intent : ExecutionIntent}

/-- Every snapshot taken of a venue is of its broker. -/
theorem eq_of_mem_snapshots (acct : AccountId) (legs : List IntentLeg) {v : VenueId}
    {a : PaperExecutionAdapter} (ha : b.get? v = some a) :
    ∀ s ∈ snapshots b acct legs, s.1 = v → s.2 = (a.account acct).snapshot := by
  intro s hs hv
  obtain ⟨w, _, hw⟩ := List.mem_filterMap.mp hs
  cases hb : b.get? w with
  | none => rw [hb] at hw; cases hw
  | some a' =>
      rw [hb] at hw
      cases hw
      cases hv
      rw [ha] at hb
      cases hb
      rfl

/-- Every venue of a leg has its snapshot. -/
theorem mem_snapshots {acct : AccountId} {legs : List IntentLeg} {v : VenueId}
    {a : PaperExecutionAdapter} (ha : b.get? v = some a) {leg : IntentLeg} (hl : leg ∈ legs)
    (hv : leg.venueId = v) : ∃ s ∈ snapshots b acct legs, s.1 = v := by
  refine ⟨(v, a.snapshotAccount acct), List.mem_filterMap.mpr ⟨v, ?_, ?_⟩, rfl⟩
  · exact List.mem_eraseDups.mpr (List.mem_map.mpr ⟨leg, hl, hv⟩)
  · rw [ha]
    rfl

/-- **The rollback**, broker by broker. -/
theorem rolledBack_get? (b : Brokers) (book : QuoteBook) (clock : ℕ → ℚ)
    (intent : ExecutionIntent) (v : VenueId) :
    let c := commitLegs book clock intent.accountId intent.ticketId 0 b intent.legs
    (b.get? v = none ∧ c.brokers.get? v = none ∧
      (rolledBack b book clock intent).get? v = none) ∨
    ∃ a m r, b.get? v = some a ∧ c.brokers.get? v = some m ∧
      (rolledBack b book clock intent).get? v = some r ∧ RolledBack intent.accountId a m r := by
  intro c
  have hadv : b.Advance intent.accountId c.applied c.brokers :=
    commitLegs_advance book clock intent.accountId intent.ticketId 0 b intent.legs
  have hv := hadv v
  cases ha : b.get? v with
  | none =>
      cases hm : c.brokers.get? v with
      | some m => rw [ha, hm] at hv; cases hv
      | none =>
          refine .inl ⟨rfl, rfl, ?_⟩
          exact forgetAll_get?_none _ (restoreAll_get?_none _ hm)
  | some a =>
      cases hm : c.brokers.get? v with
      | none => rw [ha, hm] at hv; cases hv
      | some m =>
          rw [ha, hm] at hv
          cases hv with
          | some hadv =>
              obtain ⟨m', hm', hres⟩ := restoreAll_get?
                (snapshots b intent.accountId intent.legs)
                (eq_of_mem_snapshots intent.accountId intent.legs ha) hm
              obtain ⟨r, hr, hid, hfees, hslip, haccounts, hlog⟩ :=
                forgetAll_get? c.applied hm'
              have haccount : ∀ j, r.account j = m'.account j := fun j => by
                rw [account, haccounts, ← account]
              -- the account was written back, or no leg was routed here
              have hsnap : (m'.account intent.accountId).snapshot =
                  (a.account intent.accountId).snapshot := by
                refine hres.snapshot ?_
                by_cases hleg : ∃ leg ∈ intent.legs, leg.venueId = v
                · obtain ⟨leg, hl, hlv⟩ := hleg
                  exact .inl (mem_snapshots ha hl hlv)
                · have hoff : c.brokers.get? v = b.get? v :=
                    commitLegs_off 0 b intent.legs fun leg hl hlv => hleg ⟨leg, hl, hlv⟩
                  rw [hm, ha] at hoff
                  cases hoff
                  exact .inr rfl
              refine .inr ⟨a, m, r, rfl, rfl, hr, ?_⟩
              refine ⟨?_, ?_, ?_, fun j hj => ?_, ?_, ?_, fun id => ?_, fun id => ?_⟩
              · rw [hid, hres.venueId, hadv.venueId]
              · rw [hfees, hres.fees, hadv.fees]
              · rw [hslip, hres.slippageBps, hadv.slippageBps]
              · rw [haccount, hres.others j hj, hadv.others j hj]
              · rw [haccount, hsnap]
              · rw [haccount, hres.openFees]
              · rw [(hlog id).1, hres.log]
                split
                · rename_i hin
                  exact (hadv.log_new id hin).1.symm
                · rename_i hout
                  exact (hadv.log_off id hout).1
              · rw [(hlog id).2, hres.log]
                split
                · rename_i hin
                  exact (hadv.log_new id hin).2.symm
                · rename_i hout
                  exact (hadv.log_off id hout).2

/-- A rollback leaves no trace exactly when the commit carried no fee. -/
theorem rolledBack_unchanged_iff (b : Brokers) (book : QuoteBook) (clock : ℕ → ℚ)
    (intent : ExecutionIntent) :
    b.Unchanged (rolledBack b book clock intent) ↔
      (Purse.read (commitLegs book clock intent.accountId intent.ticketId 0 b
          intent.legs).brokers intent.accountId).carried =
        (Purse.read b intent.accountId).carried := by
  constructor
  · intro hu
    funext v o
    simp only [Purse.read]
    rcases rolledBack_get? b book clock intent v with ⟨ha, hm, _⟩ | ⟨a, m, r, ha, hm, hr, h⟩
    · rw [ha, hm]
    · have huv := hu v
      rw [ha, hr] at huv
      cases huv with
      | some huv =>
          rw [ha, hm, Option.map_some, Option.map_some]
          exact congrArg some (h.unchanged_iff.mp huv o) ▸ rfl
  · intro hc v
    rcases rolledBack_get? b book clock intent v with ⟨ha, _, hr⟩ | ⟨a, m, r, ha, hm, hr, h⟩
    · rw [ha, hr]
      exact .none
    · rw [ha, hr]
      refine .some (h.unchanged_iff.mpr fun o => ?_)
      have hvo := congrFun (congrFun hc v) o
      simpa only [Purse.read, ha, hm, Option.map_some, Option.getD_some] using hvo

end Rollback

/-- **Ticket atomicity, exactly.** A ticket fills every leg or raises with
everything as it was if and only if the preview refuses it, or the legs that
fill before the first refused one carry no fee over. -/
theorem ticketAtomic_iff_keepsFees (b : Brokers) (book : QuoteBook) (clock : ℕ → ℚ)
    (intent : ExecutionIntent) :
    TicketAtomic b book clock intent ↔ KeepsFees b book clock intent := by
  unfold TicketAtomic KeepsFees
  cases hp : previewLegs b book clock intent.accountId 0 intent.legs with
  | cons r rs =>
      have hs : submit b book clock intent = (b, .error (.preview (r :: rs))) := by
        simp only [submit, hp]
      rw [hs]
      exact ⟨fun _ => .inl (by simp), fun _ => .inr ⟨_, rfl, .refl b⟩⟩
  | nil =>
      have hs : submit b book clock intent =
          commitAtomically b book (fun n => clock (intent.legs.length + n)) intent := by
        simp only [submit, hp]
      rw [hs, Purse.firstRefusal_read intent.ticketId 0
        (Brokers.Advance.refl intent.accountId b) intent.legs]
      simp only [commitAtomically]
      cases hf : (commitLegs book (fun n => clock (intent.legs.length + n)) intent.accountId
          intent.ticketId 0 b intent.legs).failure with
      | none =>
          refine ⟨fun _ => .inr fun p h => (by cases h), fun _ => .inl ⟨_, rfl, ?_⟩⟩
          exact commitLegs_filled _ _ _ _ 0 b intent.legs hf
      | some e =>
          obtain ⟨v, reason⟩ := e
          have hroll := rolledBack_unchanged_iff b book (fun n => clock (intent.legs.length + n))
            intent
          constructor
          · rintro (⟨orders, ho, _⟩ | ⟨error, _, hu⟩)
            · cases ho
            · refine .inr fun p h => ?_
              cases h
              exact hroll.mp hu
          · rintro (h | h)
            · exact absurd rfl h
            · exact .inr ⟨_, rfl, hroll.mpr (h _ rfl)⟩

/-! ## A ticket that leaves its fees behind -/

namespace CrossedBook

/-- One venue with the money for either leg, not for both. -/
def brokers : Brokers :=
  Brokers.empty.put ((PaperExecutionAdapter.new "kalshi" .kalshi 0).deposit "default" 60)

/-- Both outcomes offered at 0.47, a hundred contracts deep. -/
def book : QuoteBook :=
  let quote (o : OutcomeId) : Quote :=
    { outcomeId := o, bid := 47 / 100, ask := 47 / 100, askSize := some 100
      bid_nonneg := by norm_num, ask_le_one := by norm_num, bid_le_ask := le_refl _ }
  ((QuoteBook.mk Dict.empty (some defaultMaxAgeS)).upsert 0 (quote "k-yes")).upsert 0
    (quote "k-no")

/-- Buy both sides. -/
def intent : ExecutionIntent where
  eventGroupId := "eg-2:kalshi"
  accountId := "default"
  legs := [⟨"kalshi", "k-yes", true, 100, 47 / 100⟩, ⟨"kalshi", "k-no", true, 100, 47 / 100⟩]
  ticketId := some "t-1"

end CrossedBook

/-- The second leg is refused, and the fee of the first stays carried. -/
theorem not_ticketAtomic_crossedBook :
    ¬ TicketAtomic CrossedBook.brokers CrossedBook.book (fun _ => 0) CrossedBook.intent := by
  let r := submit CrossedBook.brokers CrossedBook.book (fun _ => 0) CrossedBook.intent
  have hrefused : r.2.toOption.isNone = true := by decide +kernel
  have hbefore : ((CrossedBook.brokers.get? "kalshi").map fun a =>
      (a.account "default").openFees "k-yes") = some 0 := by decide +kernel
  have hafter : ((r.1.get? "kalshi").map fun a =>
      (a.account "default").openFees "k-yes") ≠ some 0 := by decide +kernel
  rintro (⟨orders, ho, _⟩ | ⟨error, _, hu⟩)
  · rw [ho] at hrefused
    cases hrefused
  · have hv := hu "kalshi"
    cases hb : CrossedBook.brokers.get? "kalshi" with
    | none => rw [hb] at hbefore; cases hbefore
    | some a =>
        cases hr : r.1.get? "kalshi" with
        | none => rw [hb, hr] at hv; cases hv
        | some a' =>
            rw [hb, hr] at hv
            rw [hb] at hbefore
            rw [hr] at hafter
            cases hv with
            | some hsame =>
                refine hafter ?_
                rw [Option.map_some, (hsame.account "default").openFees "k-yes"]
                exact hbefore

end Arbys
