import Arbys.Restart
import Arbys.TwoLegTicket

/-!
# Resetting an account

`reset_paper_account` of `backend/state.py`: the brokers forget the account,
one transaction deletes its history, and each venue is funded anew, first in
memory and then in its row. The steps are stretches of their own, so other
operations come between them and a process may die after any of them.
-/

namespace Arbys

open AccountState PaperExecutionAdapter PaperSystem

namespace PaperExecutionAdapter

/-- `reset_account`. The orders and fills of every account are dropped; ids
that were drawn stay drawn. -/
def resetAccount (a : PaperExecutionAdapter) (acct : AccountId) : PaperExecutionAdapter :=
  { a with
    accounts := a.accounts.erase acct
    log := { OrderLog.empty with drawn := a.log.drawn, fresh := fun _ _ _ => ⟨rfl, rfl⟩ } }

theorem account_resetAccount (a : PaperExecutionAdapter) (acct j : AccountId) :
    (a.resetAccount acct).account j = if j = acct then {} else a.account j := by
  rw [account, resetAccount, Dict.getD, Dict.get?_erase]
  split
  · rfl
  · rfl

end PaperExecutionAdapter

/-- Every broker forgets the account. -/
def Brokers.resetAccount (b : Brokers) (acct : AccountId) : Brokers where
  adapters := b.adapters.mapVal fun _ a => a.resetAccount acct
  keyed := by
    intro v a h
    rw [Dict.get?_mapVal] at h
    obtain ⟨a', ha', rfl⟩ := Option.map_eq_some_iff.mp h
    exact b.keyed v a' ha'

/-- `delete_paper_history`: what is the account's, and every settlement. -/
def Db.deletePaperHistory (db : Db) (acct : AccountId) : Db :=
  let orderIds := (db.orders.filter fun row => row.1 = acct).map fun row => row.2.1.id
  { balances := db.balances.filterKeys fun k => decide (k.1 ≠ acct)
    positions := db.positions.filterKeys fun k => decide (k.1 ≠ acct)
    orders := db.orders.filter fun row => row.1 ≠ acct
    fills := db.fills.filter fun fill => fill.orderId ∉ orderIds
    settlements := []
    transfers := db.transfers.filter fun row => row.1 ≠ acct }

/-- The stretches of a reset. -/
inductive ResetStep where
  | wipe
  | delete
  | hydrate (v : VenueId)
  | store (v : VenueId)
  deriving DecidableEq

/-- `reset_paper_account`, as far as the ledger goes. -/
def resetSteps (b : Brokers) : List ResetStep :=
  .wipe :: .delete :: b.adapters.keys.flatMap fun v => [.hydrate v, .store v]

/-- What goes on while an account is reset. -/
inductive ResetEvent where
  | reset (step : ResetStep)
  | meanwhile (op : PaperOp)

namespace ResetEvent

def step (acct scope : AccountId) (s : PaperSystem) : ResetEvent → PaperSystem
  | .reset .wipe => { s with brokers := s.brokers.resetAccount acct }
  | .reset .delete => { s with db := s.db.deletePaperHistory acct }
  | .reset (.hydrate v) =>
      { s with brokers :=
          s.brokers.modify v fun a => a.hydrateBalance acct defaultStartingBalance }
  | .reset (.store v) =>
      { s with db := s.db.upsertPaperBalance acct v defaultStartingBalance }
  | .meanwhile op => PaperSystem.step scope s op

/-- The stretches of the reset among the events. -/
def resets (es : List ResetEvent) : List ResetStep :=
  es.filterMap fun
    | .reset r => some r
    | .meanwhile _ => none

/-- No order of the account is placed, and its cash is not levelled. Outcomes
may be settled and closed, whoever holds them. -/
def Quiet (acct : AccountId) : ResetEvent → Prop
  | .reset _ => True
  | .meanwhile (.placeOrder _ _ _ j _ _ _ _ _) => j ≠ acct
  | .meanwhile (.settleOutcomeAsync ..) => True
  | .meanwhile (.closeAlreadySettled ..) => True
  | .meanwhile (.sweepOnce accountIds _) => acct ∉ accountIds

end ResetEvent

/-! ## What leaves an account alone -/

/-- The account reads the same afterwards, in memory and stored. -/
structure Untouched (acct : AccountId) (s s' : PaperSystem) : Prop where
  memory : s.brokers.Related (fun a a' => a'.account acct = a.account acct ∧
    a'.venueId = a.venueId) s'.brokers
  balances : ∀ v, s'.db.balances.get? (acct, v) = s.db.balances.get? (acct, v)
  positions : ∀ v o, s'.db.positions.get? (acct, v, o) = s.db.positions.get? (acct, v, o)

namespace Untouched

variable {acct : AccountId} {s s' s'' : PaperSystem}

theorem refl (s : PaperSystem) : Untouched acct s s :=
  ⟨.refl (fun _ => ⟨rfl, rfl⟩) _, fun _ => rfl, fun _ _ => rfl⟩

theorem trans (h : Untouched acct s s') (h' : Untouched acct s' s'') : Untouched acct s s'' := by
  refine ⟨.trans (fun h h' => ⟨h'.1.trans h.1, h'.2.trans h.2⟩) h.memory h'.memory,
    fun v => (h'.balances v).trans (h.balances v), fun v o => ?_⟩
  exact (h'.positions v o).trans (h.positions v o)

end Untouched

/-- Filing a broker whose account reads as before. -/
theorem Brokers.related_put {R : PaperExecutionAdapter → PaperExecutionAdapter → Prop}
    (hR : ∀ a, R a a) {b : Brokers} {v : VenueId} {a a' : PaperExecutionAdapter}
    (ha : b.get? v = some a) (hv : a'.venueId = v) (h : R a a') : b.Related R (b.put a') := by
  intro w
  rw [Brokers.get?_put, hv]
  split
  · rename_i hw
    rw [hw, ha]
    exact .some h
  · exact Brokers.Related.refl hR b w

section Meanwhile

variable {acct scope : AccountId} {s : PaperSystem}

/-- The rule of a step: one broker is replaced by one that reads the same. -/
theorem untouched_put {db' : Db} {v : VenueId} {a a' : PaperExecutionAdapter}
    (ha : s.brokers.get? v = some a) (hv : a'.venueId = a.venueId)
    (hacct : a'.account acct = a.account acct)
    (hbal : ∀ w, db'.balances.get? (acct, w) = s.db.balances.get? (acct, w))
    (hpos : ∀ w o, db'.positions.get? (acct, w, o) = s.db.positions.get? (acct, w, o)) :
    Untouched acct s ⟨s.brokers.put a', db'⟩ :=
  ⟨Brokers.related_put (fun _ => ⟨rfl, rfl⟩) ha (hv.trans (Brokers.venueId_of_get? ha))
    ⟨hacct, hv⟩, hbal, hpos⟩

theorem untouched_placeOrder {j : AccountId} (hj : j ≠ acct) (v : VenueId) (book : QuoteBook)
    (now : ℚ) (o : OutcomeId) (isBuy : Bool) (qty limit : ℚ) (ticketId : Option TicketId) :
    Untouched acct s
      (s.onBroker scope v fun a => a.placeOrder book now j o isBuy qty limit ticketId) := by
  simp only [onBroker]
  cases ha : s.brokers.get? v with
  | none => exact .refl s
  | some a =>
      simp only [PaperExecutionAdapter.placeOrder]
      rcases applyFill_cases a book now j o isBuy qty limit ticketId with
        ⟨reason, _, hr⟩ | ⟨_, _, _, _, _, hr⟩ | ⟨px, _, _, _, hr⟩ <;> rw [hr]
      · exact untouched_put ha rfl rfl (fun _ => rfl) fun _ _ => rfl
      · exact untouched_put ha rfl rfl (fun _ => rfl) fun _ _ => rfl
      · refine untouched_put ha rfl ?_ (fun w => ?_) fun w o' => ?_
        · rw [account_accept, if_neg (Ne.symm hj)]
        · exact Dict.get?_set_ne _ (by simp [Ne.symm hj]) _
        · exact Dict.get?_set_ne _ (by simp [Ne.symm hj]) _

/-- The account holds nothing anywhere. -/
def Flat (acct : AccountId) (b : Brokers) : Prop :=
  ∀ v a, b.get? v = some a → ∀ o, (a.account acct).qty o = 0

theorem untouched_settleOutcomeAsync (hflat : Flat acct s.brokers) (v : VenueId) (o : OutcomeId)
    (value : ℚ) (source : String) :
    Untouched acct s (s.onBroker scope v fun a => a.settleOutcomeAsync o value source) := by
  simp only [onBroker]
  cases ha : s.brokers.get? v with
  | none => exact .refl s
  | some a =>
      have hq := hflat v a ha o
      obtain ⟨hbal, hpos, _⟩ := onSettled_tables s.db o value a.venueId source (a.closedBy o value)
      obtain ⟨hnodup, _, hfree⟩ := mem_holders a o (fun st =>
        ((st.settle a.venueId o value).cash a.venueId, (st.settle a.venueId o value).realizedOn o,
          (st.settle a.venueId o value).openFees o)) acct
      obtain ⟨_, hb₂, hb₃⟩ := setAll_by_account (fun j => (j, a.venueId))
        (fun _ _ he => congrArg Prod.fst he) hnodup (fun c => c.2.1) s.db.balances acct
      obtain ⟨_, hp₂, hp₃⟩ := setAll_by_account (fun j => (j, a.venueId, o))
        (fun _ _ he => congrArg Prod.fst he) hnodup
        (fun c => (⟨0, 0, c.2.2.1, c.2.2.2⟩ : PositionRow)) s.db.positions acct
      have hacct := account_settleOutcomeAsync a o value source acct
      rw [settle_of_qty_zero hq] at hacct
      -- its rows are not among those the settlement writes: it holds nothing of the outcome
      refine untouched_put ha rfl hacct (fun w => ?_) fun w o' => ?_
      · by_cases hw : w = a.venueId
        · subst hw
          exact (congrArg (fun d => Dict.get? d (acct, a.venueId)) hbal).trans (hb₂ (hfree hq))
        · exact (congrArg (fun d => Dict.get? d (acct, w)) hbal).trans
            (hb₃ _ fun i he => hw (congrArg Prod.snd he).symm)
      · by_cases hw : (w, o') = (a.venueId, o)
        · cases hw
          exact (congrArg (fun d => Dict.get? d (acct, a.venueId, o)) hpos).trans (hp₂ (hfree hq))
        · exact (congrArg (fun d => Dict.get? d (acct, w, o')) hpos).trans
            (hp₃ _ fun i he => hw (congrArg Prod.snd he).symm)

theorem untouched_closeAlreadySettled (hflat : Flat acct s.brokers) (v : VenueId)
    (o : OutcomeId) :
    Untouched acct s (s.onBroker scope v fun a => a.closeAlreadySettled o) := by
  simp only [onBroker]
  cases ha : s.brokers.get? v with
  | none => exact .refl s
  | some a =>
      have hq := hflat v a ha o
      obtain ⟨hnodup, _, hfree⟩ := mem_holders a o (fun st => st.realizedOn o) acct
      obtain ⟨hbal, _, hpos⟩ := writeAll_onPosition s.db scope o a.venueId
        ((a.accounts.entries.filter fun e => e.2.qty o ≠ 0).map fun e => (e.1, e.2.realizedOn o))
      rw [List.map_map] at hbal hpos
      obtain ⟨_, hp₂, hp₃⟩ := setAll_by_account (fun j => (j, a.venueId, o))
        (fun _ _ he => congrArg Prod.fst he) hnodup
        (fun c => (⟨0, 0, c.2, 0⟩ : PositionRow)) s.db.positions acct
      have hacct := account_closeAlreadySettled a o acct
      rw [if_pos hq] at hacct
      refine untouched_put ha rfl hacct (fun w => ?_) fun w o' => ?_
      · exact congrArg (fun d => Dict.get? d (acct, w)) hbal
      · by_cases hw : (w, o') = (a.venueId, o)
        · cases hw
          exact (congrArg (fun d => Dict.get? d (acct, a.venueId, o)) hpos).trans (hp₂ (hfree hq))
        · exact (congrArg (fun d => Dict.get? d (acct, w, o')) hpos).trans
            (hp₃ _ fun i he => hw (congrArg Prod.snd he).symm)

theorem untouched_sweepOne {j : AccountId} (hj : j ≠ acct) (minTransfer : ℚ) :
    Untouched acct s (s.sweepOne minTransfer j) := by
  simp only [PaperSystem.sweepOne]
  have hmoved := applyTransfers_cashMoved j s.brokers
    (planTransfers (s.brokers.adapters.mapVal fun _ a => a.cash j) minTransfer)
  generalize hsw : sweepAccount s.brokers j minTransfer = swept
  rw [sweepAccount] at hsw
  rw [hsw] at hmoved
  obtain ⟨b', moved⟩ := swept
  simp only at hmoved ⊢
  obtain ⟨hpos, hbal⟩ := sweep_tables s.db j b' moved
  generalize (if moved = [] then s.db else s.db.persistSweep j b' moved) = db' at hpos hbal
  refine ⟨fun v => ?_, fun v => ?_, fun v o => by rw [hpos]⟩
  · have hrel := (hmoved v).2
    generalize s.brokers.get? v = x, b'.get? v = y at hrel ⊢
    rcases hrel with hc | _
    · exact .some ⟨hc.others acct (Ne.symm hj), hc.venueId⟩
    · exact .none
  · rw [hbal, if_neg fun hm => hj hm.1.symm]

theorem untouched_sweepOnce (minTransfer : ℚ) {accountIds : List AccountId}
    (h : acct ∉ accountIds) :
    Untouched acct s (accountIds.foldl (PaperSystem.sweepOne minTransfer) s) := by
  induction accountIds generalizing s with
  | nil => exact .refl s
  | cons j accountIds ih =>
      have hne : j ≠ acct := fun hj => h (hj ▸ List.mem_cons_self)
      exact (untouched_sweepOne hne minTransfer).trans
        (ih fun hmem => h (List.mem_cons_of_mem _ hmem))

/-- **What goes on meanwhile** does not touch an account that holds nothing. -/
theorem untouched_meanwhile (hflat : Flat acct s.brokers) {op : PaperOp}
    (hop : ResetEvent.Quiet acct (.meanwhile op)) :
    Untouched acct s (PaperSystem.step scope s op) := by
  cases op with
  | placeOrder v book now j o isBuy qty limit ticketId =>
      exact untouched_placeOrder hop v book now o isBuy qty limit ticketId
  | settleOutcomeAsync v o value source => exact untouched_settleOutcomeAsync hflat v o value source
  | closeAlreadySettled v o => exact untouched_closeAlreadySettled hflat v o
  | sweepOnce accountIds minTransfer => exact untouched_sweepOnce minTransfer hop

end Meanwhile

/-! ## A reset under way -/

section Reset

variable {acct scope : AccountId} {b₀ : Brokers} {db₀ : Db} {done : List ResetStep}
  {s : PaperSystem}

/-- What is so of a reset once the brokers have forgotten the account. -/
structure Resetting (acct : AccountId) (b₀ : Brokers) (db₀ : Db) (done : List ResetStep)
    (s : PaperSystem) : Prop where
  venues : ∀ v, s.brokers.get? v = none ↔ b₀.get? v = none
  memory : ∀ v a, s.brokers.get? v = some a →
    ∃ balances, a.account acct = { balances := balances }
  funded : ∀ v a, s.brokers.get? v = some a → .hydrate v ∈ done →
    a.cash acct = defaultStartingBalance
  kept : .delete ∉ done → (∀ v, s.db.balances.get? (acct, v) = db₀.balances.get? (acct, v)) ∧
    ∀ v o, s.db.positions.get? (acct, v, o) = db₀.positions.get? (acct, v, o)
  deleted : .delete ∈ done → (∀ v, s.db.balances.get? (acct, v) =
      if .store v ∈ done then some defaultStartingBalance else none) ∧
    ∀ v o, s.db.positions.get? (acct, v, o) = none

theorem Resetting.flat (h : Resetting acct b₀ db₀ done s) : Flat acct s.brokers := by
  intro v a ha o
  obtain ⟨balances, hacct⟩ := h.memory v a ha
  rw [hacct]
  rfl

/-- What leaves the account alone leaves the reset where it was. -/
theorem Resetting.untouched {s' : PaperSystem} (h : Resetting acct b₀ db₀ done s)
    (hs : Untouched acct s s') : Resetting acct b₀ db₀ done s' := by
  constructor
  · intro v
    rw [hs.memory.eq_none_iff, h.venues]
  · intro v a' ha'
    obtain ⟨a, ha, hacct, -⟩ := hs.memory.back ha'
    rw [hacct]
    exact h.memory v a ha
  · intro v a' ha' hmem
    obtain ⟨a, ha, hacct, hv⟩ := hs.memory.back ha'
    have hcash := h.funded v a ha hmem
    rwa [PaperExecutionAdapter.cash, ← hacct, ← hv] at hcash
  · intro hnot
    obtain ⟨hbal, hpos⟩ := h.kept hnot
    exact ⟨fun v => (hs.balances v).trans (hbal v), fun v o => (hs.positions v o).trans (hpos v o)⟩
  · intro hmem
    obtain ⟨hbal, hpos⟩ := h.deleted hmem
    exact ⟨fun v => (hs.balances v).trans (hbal v), fun v o => (hs.positions v o).trans (hpos v o)⟩

theorem resetting_wipe (b₀ : Brokers) (db₀ : Db) :
    Resetting acct b₀ db₀ [.wipe] ⟨b₀.resetAccount acct, db₀⟩ := by
  have hget : ∀ v, (b₀.resetAccount acct).get? v = (b₀.get? v).map (·.resetAccount acct) :=
    fun v => Dict.get?_mapVal ..
  refine ⟨fun v => ?_, fun v a ha => ⟨Dict.empty, ?_⟩, fun _ _ _ h => ?_, fun _ => ?_, fun h => ?_⟩
  · rw [hget, Option.map_eq_none_iff]
  · rw [hget] at ha
    obtain ⟨a', -, rfl⟩ := Option.map_eq_some_iff.mp ha
    rw [account_resetAccount, if_pos rfl]
  · simp at h
  · exact ⟨fun _ => rfl, fun _ _ => rfl⟩
  · simp at h

theorem get?_deletePaperHistory (db : Db) (acct j : AccountId) (v : VenueId) :
    (db.deletePaperHistory acct).balances.get? (j, v) =
      if j = acct then none else db.balances.get? (j, v) := by
  rw [Db.deletePaperHistory, Dict.get?_filterKeys]
  by_cases hj : j = acct <;> simp [hj]

theorem positions_deletePaperHistory (db : Db) (acct j : AccountId) (v : VenueId)
    (o : OutcomeId) :
    (db.deletePaperHistory acct).positions.get? (j, v, o) =
      if j = acct then none else db.positions.get? (j, v, o) := by
  rw [Db.deletePaperHistory, Dict.get?_filterKeys]
  by_cases hj : j = acct <;> simp [hj]

/-- The stretches come in their order: the history goes first, the venues are
funded after it. -/
theorem next_resetStep {b : Brokers} {rest : List ResetStep} {r : ResetStep}
    (hwiped : .wipe ∈ done) (h : done ++ r :: rest = resetSteps b) :
    (r = .delete ∧ done = [.wipe]) ∨ .delete ∈ done ∧ ∃ v, r = .hydrate v ∨ r = .store v := by
  match done with
  | [] => cases hwiped
  | [x] =>
      injection h with hx hrest
      injection hrest with hr
      exact .inl ⟨hr, by rw [hx]⟩
  | x :: y :: done =>
      injection h with hx hrest
      injection hrest with hy hseeds
      have hmem : r ∈ b.adapters.keys.flatMap fun v => [ResetStep.hydrate v, .store v] :=
        hseeds ▸ List.mem_append_right _ List.mem_cons_self
      obtain ⟨v, -, hv⟩ := List.mem_flatMap.mp hmem
      exact .inr ⟨by simp [hy], v, by simpa using hv⟩

/-- **One stretch of the reset.** -/
theorem Resetting.reset {b : Brokers} {rest : List ResetStep} {r : ResetStep}
    (hwiped : .wipe ∈ done) (horder : done ++ r :: rest = resetSteps b)
    (h : Resetting acct b₀ db₀ done s) :
    Resetting acct b₀ db₀ (done ++ [r]) (ResetEvent.step acct scope s (.reset r)) := by
  -- once memory is wiped, the steps left are the delete, then a hydrate and a store for each venue
  rcases next_resetStep hwiped horder with ⟨rfl, rfl⟩ | ⟨hdel, v, rfl | rfl⟩
  · refine ⟨h.venues, h.memory, fun v a _ hmem => ?_, fun hnot => absurd (by simp) hnot,
      fun _ => ⟨fun v => ?_, fun v o => ?_⟩⟩
    · simp at hmem
    · rw [if_neg (by simp)]
      exact (get?_deletePaperHistory ..).trans (if_pos rfl)
    · exact (positions_deletePaperHistory ..).trans (if_pos rfl)
  · have hget : ∀ w, (s.brokers.modify v fun a =>
        a.hydrateBalance acct defaultStartingBalance).get? w =
          if w = v then (s.brokers.get? w).map fun a =>
            a.hydrateBalance acct defaultStartingBalance else s.brokers.get? w :=
      fun w => s.brokers.get?_modify v w fun _ => rfl
    refine ⟨fun w => ?_, fun w a ha => ?_, fun w a ha hmem => ?_,
      fun hnot => absurd (List.mem_append_left _ hdel) hnot, fun _ => ?_⟩
    · refine Iff.trans ?_ (h.venues w)
      rw [ResetEvent.step, hget]
      split
      · exact Option.map_eq_none_iff
      · exact Iff.rfl
    · rw [ResetEvent.step, hget] at ha
      split at ha
      · obtain ⟨a', ha', rfl⟩ := Option.map_eq_some_iff.mp ha
        obtain ⟨balances, hacct⟩ := h.memory w a' ha'
        rw [account_hydrateBalance, hacct]
        exact ⟨_, rfl⟩
      · exact h.memory w a ha
    · rw [ResetEvent.step, hget] at ha
      split at ha
      · obtain ⟨a', -, rfl⟩ := Option.map_eq_some_iff.mp ha
        exact cash_hydrateBalance a' _
      · rename_i hw
        have hbefore : .hydrate w ∈ done := by
          rcases List.mem_append.mp hmem with hmem | hmem
          · exact hmem
          · cases List.mem_singleton.mp hmem
            exact absurd rfl hw
        exact h.funded w a ha hbefore
    · obtain ⟨hbal, hpos⟩ := h.deleted hdel
      -- hydrating writes memory only
      refine ⟨fun w => (hbal w).trans ?_, hpos⟩
      simp
  · refine ⟨h.venues, h.memory, fun w a ha hmem => h.funded w a ha (by simpa using hmem),
      fun hnot => absurd (List.mem_append_left _ hdel) hnot, fun _ => ?_⟩
    obtain ⟨hbal, hpos⟩ := h.deleted hdel
    refine ⟨fun w => ?_, hpos⟩
    refine (Dict.get?_set ..).trans ?_
    by_cases hw : w = v
    · simp [hw]
    · have hne : ¬ (acct, w) = (acct, v) := fun he => hw (congrArg Prod.snd he)
      rw [if_neg hne, hbal]
      simp [hw]

/-- **A reset under way**, whatever goes on meanwhile. -/
theorem Resetting.run {b : Brokers} {rest : List ResetStep} {es : List ResetEvent}
    (hquiet : ∀ e ∈ es, e.Quiet acct) (hwiped : .wipe ∈ done)
    (horder : done ++ ResetEvent.resets es ++ rest = resetSteps b)
    (h : Resetting acct b₀ db₀ done s) :
    Resetting acct b₀ db₀ (done ++ ResetEvent.resets es)
      (Runs.run (ResetEvent.step acct scope) s es) := by
  induction es generalizing s done with
  | nil =>
      rw [ResetEvent.resets, List.filterMap_nil, List.append_nil]
      exact h
  | cons e es ih =>
      have hrest := fun e he => hquiet e (List.mem_cons_of_mem _ he)
      cases e with
      | meanwhile op =>
          have hop := hquiet _ List.mem_cons_self
          exact ih hrest hwiped horder (h.untouched (untouched_meanwhile h.flat hop))
      | reset r =>
          have hsplit : ResetEvent.resets (.reset r :: es) = [r] ++ ResetEvent.resets es := rfl
          rw [hsplit, ← List.append_assoc] at horder ⊢
          have hnow : done ++ r :: (ResetEvent.resets es ++ rest) = resetSteps b := by
            rw [← horder]
            simp
          exact ih hrest (List.mem_append_left _ hwiped) horder (h.reset hwiped hnow)

end Reset

/-! ## What the other accounts see -/

theorem untouched_reset {acct j : AccountId} (hj : j ≠ acct) (scope : AccountId)
    (s : PaperSystem) (r : ResetStep) :
    Untouched j s (ResetEvent.step acct scope s (.reset r)) := by
  cases r with
  | wipe =>
      refine ⟨fun v => ?_, fun _ => rfl, fun _ _ => rfl⟩
      have hget : (s.brokers.resetAccount acct).get? v =
          (s.brokers.get? v).map (·.resetAccount acct) := Dict.get?_mapVal ..
      rw [ResetEvent.step, hget]
      cases s.brokers.get? v with
      | none => exact .none
      | some a => exact .some ⟨by rw [account_resetAccount, if_neg hj], rfl⟩
  | delete =>
      refine ⟨.refl (fun _ => ⟨rfl, rfl⟩) _, fun v => ?_, fun v o => ?_⟩
      · exact (get?_deletePaperHistory ..).trans (if_neg hj)
      · exact (positions_deletePaperHistory ..).trans (if_neg hj)
  | hydrate v =>
      refine ⟨Brokers.related_modify (fun _ => ⟨rfl, rfl⟩) s.brokers v (fun a => ⟨?_, rfl⟩)
        fun _ => rfl, fun _ => rfl, fun _ _ => rfl⟩
      rw [hydrateBalance, account_setAccount, if_neg hj]
  | store v =>
      exact ⟨.refl (fun _ => ⟨rfl, rfl⟩) _,
        fun w => Dict.get?_set_ne _ (fun he => hj (congrArg Prod.fst he)) _, fun _ _ => rfl⟩

/-! ## The results -/

/-- An account that was just opened: the starting balance, and nothing held. -/
structure Opened (acct : AccountId) (a : PaperExecutionAdapter) : Prop where
  cash : a.cash acct = defaultStartingBalance
  realizedPnl : a.realizedPnl acct = 0
  row : ∀ o, (a.account acct).row o = {}

/-- What a restart reads of an account whose history is deleted, funded again
or not yet. -/
theorem opened_of_bootstrap {acct : AccountId} {fleet : Brokers} {db : Db} {v : VenueId}
    {a : PaperExecutionAdapter} (ha : fleet.get? v = some a)
    (hbal : ∀ x, db.balances.get? (acct, v) = some x → x = defaultStartingBalance)
    (hpos : ∀ o, db.positions.get? (acct, v, o) = none) :
    ∃ a', (bootstrap acct fleet.fresh db).1.get? v = some a' ∧ Opened acct a' := by
  have hf : fleet.fresh.get? v = some (PaperExecutionAdapter.new v a.fees a.slippageBps) := by
    rw [get?_fresh, ha]
    rfl
  obtain ⟨_, a', ha', _, hcash, _, hrow, hsum⟩ := hydrated acct fleet.fresh db hf rfl
  have hrows : ∀ o, (a'.account acct).row o = {} := fun o => by
    rw [hrow, Dict.getD_of_get?_none (hpos o)]
  refine ⟨a', ha', ?_, ?_, hrows⟩
  · rw [hcash]
    cases hb : db.balances.get? (acct, v) with
    | none => rfl
    | some x => exact hbal x hb
  · rw [PaperExecutionAdapter.realizedPnl, hsum]
    refine Dict.sumBy_eq_zero fun o => ?_
    rw [contrib_realizedSum]
    exact congrArg PositionRow.realizedPnl (hrows o)

theorem mem_resetSteps {b : Brokers} {v : VenueId} (h : b.get? v ≠ none) :
    .hydrate v ∈ resetSteps b ∧ .store v ∈ resetSteps b := by
  have hkey : v ∈ b.adapters.keys := by
    rw [Dict.mem_keys_iff, Option.isSome_iff_ne_none]
    exact h
  constructor
  all_goals
    refine List.mem_cons_of_mem _ (List.mem_cons_of_mem _ ?_)
    exact List.mem_flatMap.mpr ⟨v, hkey, by simp⟩

/-- At its end the account is just opened at every venue, and its rows say so. -/
theorem Resetting.opened {b : Brokers} (h : Resetting acct b db₀ (resetSteps b) s) :
    (∀ v a, s.brokers.get? v = some a → Opened acct a) ∧ Mirror acct s.brokers s.db := by
  have hdone : ∀ v a, s.brokers.get? v = some a →
      .hydrate v ∈ resetSteps b ∧ .store v ∈ resetSteps b := by
    intro v a ha
    apply mem_resetSteps
    intro hnone
    have := (h.venues v).mpr hnone
    rw [ha] at this
    cases this
  obtain ⟨hbal, hpos⟩ := h.deleted (by simp [resetSteps])
  have hopened : ∀ v a, s.brokers.get? v = some a → Opened acct a := by
    intro v a ha
    obtain ⟨balances, hacct⟩ := h.memory v a ha
    refine ⟨h.funded v a ha (hdone v a ha).1, ?_, fun o => ?_⟩
    · rw [PaperExecutionAdapter.realizedPnl, hacct]
    · rw [hacct]
      rfl
  refine ⟨hopened, fun v a ha => ?_, fun v a ha o => ?_⟩
  · rw [hbal, if_pos (hdone v a ha).2, (hopened v a ha).cash]
  · rw [Dict.getD_of_get?_none (hpos v o), (hopened v a ha).row]

/-- Two sets of rows that agree on an account are hydrated alike. -/
theorem hydrated_congr {acct : AccountId} {fleet : Brokers} {db db' : Db}
    (hbal : ∀ v, db'.balances.get? (acct, v) = db.balances.get? (acct, v))
    (hpos : ∀ v o, db'.positions.get? (acct, v, o) = db.positions.get? (acct, v, o))
    {v : VenueId} {a : PaperExecutionAdapter}
    (ha : (bootstrap acct fleet.fresh db).1.get? v = some a) :
    ∃ a', (bootstrap acct fleet.fresh db').1.get? v = some a' ∧ a'.cash acct = a.cash acct ∧
      a'.realizedPnl acct = a.realizedPnl acct ∧
      ∀ o, (a'.account acct).row o = (a.account acct).row o := by
  have hsome : fleet.fresh.get? v ≠ none := fun hnone => by
    rw [(bootstrap_eq_none fleet.fresh db).mpr hnone] at ha
    cases ha
  obtain ⟨f, hf⟩ := Option.ne_none_iff_exists'.mp hsome
  -- a restart starts from brokers that hold nothing, so all comes from the rows
  have hfresh : f.account acct = {} := by
    rw [get?_fresh] at hf
    obtain ⟨f', -, rfl⟩ := Option.map_eq_some_iff.mp hf
    rfl
  obtain ⟨_, a₁, ha₁, _, hcash₁, _, hrow₁, hsum₁⟩ := hydrated acct fleet.fresh db hf hfresh
  obtain ⟨_, a', ha', _, hcash', _, hrow', hsum'⟩ := hydrated acct fleet.fresh db' hf hfresh
  cases ha₁.symm.trans ha
  have hrows : ∀ o, (a'.account acct).row o = (a.account acct).row o := fun o => by
    rw [hrow', hrow₁, Dict.getD, hpos, ← Dict.getD]
  refine ⟨a', ha', ?_, ?_, hrows⟩
  · rw [hcash', hcash₁, hbal]
  · rw [PaperExecutionAdapter.realizedPnl, PaperExecutionAdapter.realizedPnl, hsum', hsum₁]
    refine Dict.sumBy_congr fun o => ?_
    rw [contrib_realizedSum, contrib_realizedSum]
    exact congrArg PositionRow.realizedPnl (hrows o)

namespace TwoVenues

/-- The history is deleted, an outcome is settled, and no venue is funded yet. -/
def halfReset : List ResetEvent :=
  [.reset .delete, .meanwhile (.settleOutcomeAsync "kalshi" "k-no" 1 "heuristic")]

theorem quiet_halfReset : ∀ e ∈ halfReset, e.Quiet defaultAccountId := by
  intro e he
  simp only [halfReset, List.mem_cons, List.not_mem_nil, or_false] at he
  rcases he with rfl | rfl
  · trivial
  · trivial

end TwoVenues

end Arbys
