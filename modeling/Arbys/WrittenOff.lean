import Arbys.Audit

/-!
# No position is written off unpaid

A pass closes a held position without cash when its outcome has a settlement
row. The row says the outcome was settled once, not that these contracts were
held then: it is written when nobody holds the outcome as well, it does not
say on which venue, and it may be stored while the payout of the position is
not. Where none of the three separates row and payout, an outcome with a
settlement row has no unpaid contract anywhere (`Covered`), and what a pass
closes was paid (`written_off_paid`).
-/

namespace Arbys

open AccountState PaperExecutionAdapter PaperSystem Audited

/-- What a pass would close of an outcome was paid. -/
def WrittenOffPaid (s : Audited) : Prop :=
  ∀ v o, s.system.db.hasSettlementRow o = true →
    ∀ j, 0 < s.system.brokers.qtyOn j v o → s.unpaid j v o ≤ 0

/-- Nobody is long an outcome on a venue other than `v`. -/
def Brokers.LongOnlyOn (b : Brokers) (v : VenueId) (o : OutcomeId) : Prop :=
  ∀ e ∈ b.adapters.entries, e.1 ≠ v → ∀ x ∈ e.2.accounts.entries, x.2.qty o ≤ 0

instance (b : Brokers) (v : VenueId) (o : OutcomeId) : Decidable (b.LongOnlyOn v o) :=
  inferInstanceAs (Decidable (∀ e ∈ b.adapters.entries, e.1 ≠ v → _))

/-- The first row of an outcome lands while no other venue's broker is long
it. -/
def RecordsAll (s : Audited) (v : VenueId) (o : OutcomeId) (landed : Bool) : Prop :=
  landed = true → s.system.db.hasSettlementRow o = true ∨ s.system.brokers.LongOnlyOn v o

instance (s : Audited) (v : VenueId) (o : OutcomeId) (landed : Bool) :
    Decidable (RecordsAll s v o landed) :=
  inferInstanceAs (Decidable (_ → _))

/-- When a step keeps settlement rows and payouts together. An order does not
raise a position in an outcome that has a row; the first row of an outcome
lands while no other venue's broker is long it; and the stored positions a
restart hydrates in outcomes with a row have their payout stored, if one was
dropped. -/
def RowsMeanPaid (acct : AccountId) (s : Audited) : AuditOp → Prop
  | .placeOrder v book now j o isBuy qty limitPrice ticketId =>
      s.system.db.hasSettlementRow o = true →
        (s.system.onBroker acct v fun a => a.placeOrder book now j o isBuy qty limitPrice
          ticketId).brokers.qtyOn j v o ≤ s.system.brokers.qtyOn j v o
  | .settleOutcomeAsync v o _ landed => RecordsAll s v o landed
  | .settleOnce v o landed => RecordsAll s v o landed
  | .sweepOne _ _ => True
  | .restart => ∀ e ∈ s.system.db.positions.entries, e.1.1 = acct →
      s.system.db.hasSettlementRow e.1.2.2 = true → 0 < e.2.qty → e.1 ∉ s.unrecorded

instance (acct : AccountId) (s : Audited) : ∀ op, Decidable (RowsMeanPaid acct s op)
  | .placeOrder .. => inferInstanceAs (Decidable (_ → _ ≤ _))
  | .settleOutcomeAsync v o _ landed => inferInstanceAs (Decidable (RecordsAll s v o landed))
  | .settleOnce v o landed => inferInstanceAs (Decidable (RecordsAll s v o landed))
  | .sweepOne _ _ => .isTrue trivial
  | .restart => inferInstanceAs (Decidable (∀ e ∈ s.system.db.positions.entries, _ → _))

/-! ## The invariant -/

/-- Unpaid contracts are among those held, in memory and in the rows of the
account a restart hydrates; a row is what memory holds, where memory holds
anything; a payout that is not listed as unrecorded is stored; and an outcome
with a settlement row has no unpaid contract. The balances in `pending` are
about to be written. -/
structure Covered (acct : AccountId) (pending : List (AccountId × VenueId)) (s : Audited) :
    Prop where
  within : ∀ j v o, s.unpaid j v o ≤ max (s.system.brokers.qtyOn j v o) 0
  storedWithin : ∀ v o, (acct, v) ∉ pending →
    s.storedUnpaid acct v o ≤ max (s.system.db.qtyOn acct v o) 0
  held : ∀ v o, s.system.brokers.qtyOn acct v o ≠ 0 →
    s.system.db.qtyOn acct v o = s.system.brokers.qtyOn acct v o
  recorded : ∀ v o, (s.system.brokers.get? v).isSome = true → (acct, v) ∉ pending →
    (acct, v, o) ∉ s.unrecorded → s.storedUnpaid acct v o ≤ s.unpaid acct v o
  settled : ∀ o, s.system.db.hasSettlementRow o = true → ∀ j v, s.unpaid j v o ≤ 0

namespace Covered

variable {acct : AccountId} {pending : List (AccountId × VenueId)} {s : Audited}

/-- **The write rule.** -/
theorem write (h : Covered acct pending s) : Covered acct [] (s.balancesWritten pending) := by
  refine ⟨h.within, fun v o _ => ?_, h.held, fun v o hb _ hu => ?_, h.settled⟩
  · simp only [balancesWritten]
    split
    · -- what the balance now pays for are the contracts of the row, if any are held
      by_cases hq : s.system.brokers.qtyOn acct v o = 0
      · have := h.within acct v o
        rw [hq, max_self] at this
        exact le_trans this (le_max_right _ 0)
      · rw [h.held v o hq]
        exact h.within acct v o
    · rename_i hm
      exact h.storedWithin v o hm
  · simp only [balancesWritten, List.mem_filter, not_and, decide_eq_true_eq, not_not] at hu ⊢
    split
    · exact le_refl _
    · rename_i hm
      exact h.recorded v o hb hm fun he => hm (hu he)

/-! ## Each step -/

theorem start (acct : AccountId) (fleet : Brokers) :
    Covered acct [] (Audited.start acct fleet) := by
  refine ⟨fun j v o => le_max_right _ 0, fun v o _ => le_max_right _ 0, fun v o hq => ?_,
    fun _ _ _ _ _ => le_refl 0, fun _ _ _ _ => le_refl 0⟩
  exact absurd (start_qty acct fleet acct v o).1 hq

/-- An order does not hide an unpaid contract that is still held. -/
theorem unpaid_traded_key (s : Audited) (system : PaperSystem) (j : AccountId) (v : VenueId)
    (o : OutcomeId) :
    (s.traded system j v o).unpaid j v o =
      max 0 (min (system.brokers.qtyOn j v o)
        (s.unpaid j v o + (system.brokers.qtyOn j v o - s.system.brokers.qtyOn j v o))) :=
  Tally.set_self ..

theorem unpaid_traded_off (s : Audited) (system : PaperSystem) {j i : AccountId} {v w : VenueId}
    {o o' : OutcomeId} (hne : (i, w, o') ≠ (j, v, o)) :
    (s.traded system j v o).unpaid i w o' = s.unpaid i w o' :=
  Tally.set_ne _ hne _

/-- An order refused leaves the unpaid contracts as they were. -/
theorem unpaid_le_traded (h : Covered acct [] s) {system : PaperSystem} {j : AccountId}
    {v : VenueId} {o : OutcomeId}
    (hsame : system.brokers.qtyOn j v o = s.system.brokers.qtyOn j v o) :
    s.unpaid j v o ≤ (s.traded system j v o).unpaid j v o := by
  have hw := h.within j v o
  rw [unpaid_traded_key, hsame, sub_self, add_zero]
  rcases le_total (s.system.brokers.qtyOn j v o) 0 with hq | hq
  · exact le_max_of_le_left (le_trans hw (le_of_eq (max_eq_right hq)))
  · rw [max_eq_left hq] at hw
    exact le_max_of_le_right (le_min hw (le_refl _))

theorem placeOrder (h : Covered acct [] s) (r : Results) {v : VenueId} {book : QuoteBook}
    {now : ℚ} {j : AccountId} {o : OutcomeId} {isBuy : Bool} {qty limit : ℚ}
    {ticketId : Option TicketId}
    (hok : RowsMeanPaid acct s (.placeOrder v book now j o isBuy qty limit ticketId)) :
    Covered acct []
      (Audited.step acct r s (.placeOrder v book now j o isBuy qty limit ticketId)) := by
  obtain ⟨hrows, hoff, hon⟩ :=
    placeOrder_effect s.system acct v book now j o isBuy qty limit ticketId
  have hvenues := get?_onBroker s.system acct v
    (fun a => a.placeOrder book now j o isBuy qty limit ticketId)
    fun a => PaperExecutionAdapter.venueId_applyFill a book now j o isBuy qty limit ticketId
  have hkept := fun w => storedQty_placeOrder_off s.system acct v book now j o isBuy qty limit
    ticketId (i := acct) (w := w)
  simp only [RowsMeanPaid] at hok
  simp only [Audited.step]
  generalize (s.system.balancesOf v fun a =>
    a.placeOrder book now j o isBuy qty limit ticketId) = pending at hon hkept ⊢
  generalize (s.system.onBroker acct v fun a => a.placeOrder book now j o isBuy qty limit
    ticketId) = system at hok hrows hvenues hoff hon hkept ⊢
  have hkey := unpaid_traded_key s system j v o
  -- the order moves one quantity, so every bound but that key's is as before
  refine Covered.write ⟨fun i w o' => ?_, fun w o' hp => ?_, fun w o' hne => ?_,
    fun w o' hb hp hu => ?_, fun o' hrow i w => ?_⟩
  · by_cases he : (i, w, o') = (j, v, o)
    · cases he
      rw [hkey]
      refine max_le (le_max_right _ 0) ?_
      exact le_trans (min_le_left _ _) (le_max_left _ 0)
    · rw [unpaid_traded_off s system he]
      simp only [traded, (hoff i w o' he).1]
      exact h.within i w o'
  · simp only [traded, hkept w hp o']
    exact h.storedWithin w o' List.not_mem_nil
  · simp only [traded] at hne ⊢
    by_cases he : (acct, w, o') = (j, v, o)
    · cases he
      rcases hon with ⟨_, hmem, hsame⟩ | ⟨_, hrow⟩
      · rw [hmem] at hne ⊢
        rw [hsame]
        exact h.held v o hne
      · exact hrow
    · obtain ⟨hm, hd⟩ := hoff acct w o' he
      rw [hm] at hne ⊢
      rw [hd]
      exact h.held w o' hne
  · have hold := h.recorded w o' ((hvenues w).symm.trans hb) List.not_mem_nil hu
    by_cases he : (acct, w, o') = (j, v, o)
    · cases he
      rcases hon with ⟨_, hmem, _⟩ | ⟨hlist, _⟩
      · exact le_trans hold (h.unpaid_le_traded hmem)
      · exact absurd (by rw [hlist]; exact List.mem_singleton_self _) hp
    · rw [unpaid_traded_off s system he]
      exact hold
  · have hold : s.system.db.hasSettlementRow o' = true := by
      simpa only [traded, Db.hasSettlementRow, hrows] using hrow
    by_cases he : (i, w, o') = (j, v, o)
    · cases he
      have hno := hok hold
      have hzero := h.settled o hold j v
      rw [hkey]
      refine max_le (le_refl 0) (le_trans (min_le_right _ _) ?_)
      linarith
    · rw [unpaid_traded_off s system he]
      exact h.settled o' hold i w

/-- Someone long on another venue would be found. -/
theorem qtyOn_le_of_longOnlyOn {b : Brokers} {v w : VenueId} {o : OutcomeId}
    (h : b.LongOnlyOn v o) (hw : w ≠ v) (j : AccountId) : b.qtyOn j w o ≤ 0 := by
  cases ha : b.get? w with
  | none => rw [Brokers.qtyOn_of_none ha]
  | some a =>
      rw [Brokers.qtyOn_of_some ha]
      cases hj : a.accounts.get? j with
      | none =>
          have hempty : a.account j = {} := Dict.getD_of_get?_none hj {}
          rw [hempty]
          exact le_refl 0
      | some st =>
          have hst : a.account j = st := Dict.getD_of_get? hj {}
          rw [hst]
          exact h (w, a) (Dict.mem_entries_iff.mpr ha) hw (j, st) (Dict.mem_entries_iff.mpr hj)

section Settled

variable {system : PaperSystem} {v : VenueId} {o : OutcomeId}

/-- A settlement leaves nothing unpaid of what it settles. -/
theorem unpaid_settled (s : Audited) (system : PaperSystem) (v : VenueId) (o : OutcomeId)
    (i : AccountId) (w : VenueId) (o' : OutcomeId) :
    (s.settled system v o).unpaid i w o' = if w = v ∧ o' = o then 0 else s.unpaid i w o' :=
  rfl

theorem unpaid_settled_nonpos (system : PaperSystem) (v : VenueId) (o : OutcomeId)
    {i : AccountId} {w : VenueId} {o' : OutcomeId}
    (hz : s.unpaid i w o' ≤ 0) : (s.settled system v o).unpaid i w o' ≤ 0 := by
  rw [unpaid_settled]
  split
  · exact le_refl 0
  · exact hz

theorem within_settled (h : Covered acct [] s)
    (hqty : ∀ j w o', system.brokers.qtyOn j w o' =
      if w = v ∧ o' = o then 0 else s.system.brokers.qtyOn j w o')
    (i : AccountId) (w : VenueId) (o' : OutcomeId) :
    (s.settled system v o).unpaid i w o' ≤ max (system.brokers.qtyOn i w o') 0 := by
  rw [unpaid_settled, hqty]
  split
  · exact le_max_right _ 0
  · exact h.within i w o'

/-- What is still held is not what was settled. -/
theorem qtyOn_of_held_settled
    (hqty : ∀ j w o', system.brokers.qtyOn j w o' =
      if w = v ∧ o' = o then 0 else s.system.brokers.qtyOn j w o')
    {w : VenueId} {o' : OutcomeId} (hne : system.brokers.qtyOn acct w o' ≠ 0) :
    ¬ (w = v ∧ o' = o) ∧ system.brokers.qtyOn acct w o' = s.system.brokers.qtyOn acct w o' := by
  rw [hqty] at hne ⊢
  split at hne
  · exact absurd rfl hne
  · rename_i hk
    exact ⟨hk, if_neg hk⟩

/-- What an account that is not long had unpaid, it has stored as paid. -/
theorem storedUnpaid_nonpos (h : Covered acct [] s) {w : VenueId} {o' : OutcomeId}
    (hb : (s.system.brokers.get? w).isSome = true)
    (hq : s.system.brokers.qtyOn acct w o' ≤ 0) (hu : (acct, w, o') ∉ s.unrecorded) :
    s.storedUnpaid acct w o' ≤ 0 := by
  have hw := h.within acct w o'
  rw [max_eq_right hq] at hw
  exact le_trans (h.recorded w o' hb List.not_mem_nil hu) hw

/-- No account has contracts left unpaid in an outcome that gets its first row
while nobody is long it elsewhere. -/
theorem unpaid_settled_of_longOnlyOn (h : Covered acct [] s) (system : PaperSystem)
    (hlong : s.system.brokers.LongOnlyOn v o) (i : AccountId) (w : VenueId) :
    (s.settled system v o).unpaid i w o ≤ 0 := by
  rw [unpaid_settled]
  split
  · exact le_refl 0
  · rename_i hk
    have hw := h.within i w o
    rw [max_eq_right (qtyOn_le_of_longOnlyOn hlong (fun he => hk ⟨he, rfl⟩) i)] at hw
    exact hw

end Settled

theorem settleOutcomeAsync (h : Covered acct [] s) (r : Results) {v : VenueId} {o : OutcomeId}
    (source : String) {landed : Bool} (hok : RecordsAll s v o landed) :
    Covered acct [] (s.settleOutcomeAsync acct r v o source landed) := by
  have hqty := qtyOn_settle s.system acct v o (r.value o) source
  have hrow := storedQty_settle s.system acct v o (r.value o) source
  have hkept := fun w => storedQty_settle_off s.system acct v o (r.value o) source
    (j := acct) (w := w)
  have hlist := mem_balancesOf_settle s.system v o (r.value o) source
  have hrecord := hasSettlementRow_settle s.system acct v o (r.value o) source
  have hvenues := get?_onBroker s.system acct v
    (fun a => a.settleOutcomeAsync o (r.value o) source) fun _ => rfl
  simp only [Audited.settleOutcomeAsync]
  generalize (s.system.onBroker acct v fun a =>
    a.settleOutcomeAsync o (r.value o) source) = system at hqty hrow hkept hrecord hvenues ⊢
  have hwithin := h.within_settled hqty
  cases landed with
  | true =>
      simp only [if_true]
      refine Covered.write ⟨hwithin, fun w o' hp => ?_, fun w o' hne => ?_,
        fun w o' hb hp hu => ?_, fun o' hr i w => ?_⟩
      · simp only [Audited.settled, hkept w hp o']
        exact h.storedWithin w o' List.not_mem_nil
      · obtain ⟨hk, hm⟩ := qtyOn_of_held_settled hqty hne
        simp only [Audited.settled] at hne ⊢
        rw [hm] at hne ⊢
        rw [hrow, if_neg fun hk' => hk ⟨hk'.1, hk'.2.1⟩]
        exact h.held w o' hne
      · have hb' := (hvenues w).symm.trans hb
        rw [unpaid_settled]
        split
        · rename_i hk
          obtain ⟨rfl, rfl⟩ := hk
          have hflat : s.system.brokers.qtyOn acct w o' = 0 := by
            by_contra hq
            exact hp ((hlist acct w).mpr ⟨rfl, hq⟩)
          exact h.storedUnpaid_nonpos hb' (le_of_eq hflat) hu
        · exact h.recorded w o' hb' List.not_mem_nil hu
      · by_cases hold : s.system.db.hasSettlementRow o' = true
        · exact unpaid_settled_nonpos system v o (h.settled o' hold i w)
        · -- the first row of this outcome
          obtain rfl := (hrecord o' hr).resolve_left hold
          exact h.unpaid_settled_of_longOnlyOn system ((hok rfl).resolve_left hold) i w
  | false =>
      simp only [Bool.false_eq_true, if_false]
      refine ⟨hwithin, fun w o' _ => h.storedWithin w o' List.not_mem_nil, fun w o' hne => ?_,
        fun w o' hb _ hu => ?_,
        fun o' hr i w => unpaid_settled_nonpos system v o (h.settled o' hr i w)⟩
      · obtain ⟨_, hm⟩ := qtyOn_of_held_settled hqty hne
        simp only [Audited.settled] at hne ⊢
        rw [hm] at hne ⊢
        exact h.held w o' hne
      · have hb' := (hvenues w).symm.trans hb
        obtain ⟨hu', hlong⟩ := not_or.mp (mt List.mem_append.mpr hu)
        refine le_trans ?_ (le_of_eq (unpaid_settled s system v o acct w o').symm)
        split
        · rename_i hk
          obtain ⟨rfl, rfl⟩ := hk
          refine h.storedUnpaid_nonpos hb' (not_lt.mp fun hq => hlong ?_) hu'
          exact List.mem_map.mpr ⟨acct, Brokers.mem_longOn hq, rfl⟩
        · exact h.recorded w o' hb' List.not_mem_nil hu'

theorem closeAlreadySettled (h : Covered acct [] s) (v : VenueId) (o : OutcomeId) :
    Covered acct [] (s.closeAlreadySettled acct v o) := by
  have hqty := qtyOn_close s.system acct v o
  obtain ⟨hrows, hrow⟩ := db_close s.system acct v o
  refine ⟨fun i w o' => ?_, fun w o' _ => ?_, fun w o' hne => ?_,
    fun w o' hb _ hu => ?_, fun o' hr i w => ?_⟩
  · simp only [Audited.closeAlreadySettled, hqty]
    split
    · exact le_max_right _ 0
    · exact h.within i w o'
  · simp only [Audited.closeAlreadySettled, hrow]
    split
    · exact le_max_right _ 0
    · exact h.storedWithin w o' List.not_mem_nil
  · simp only [Audited.closeAlreadySettled, hqty, hrow] at hne ⊢
    by_cases hk : w = v ∧ o' = o
    · rw [if_pos hk] at hne
      exact absurd rfl hne
    · rw [if_neg hk] at hne ⊢
      rw [if_neg fun hk' => hk ⟨hk'.1, hk'.2.1⟩]
      exact h.held w o' hne
  · have hold := h.recorded w o' ((get?_onBroker _ _ _ _ (fun _ => rfl) w).symm.trans hb)
      List.not_mem_nil hu
    have hw := h.within acct w o'
    simp only [Audited.closeAlreadySettled]
    by_cases hk : w = v ∧ o' = o
    · obtain ⟨rfl, rfl⟩ := hk
      rw [if_pos (And.intro rfl rfl)]
      split
      · exact le_refl 0
      · rename_i hq
        have hflat : s.system.brokers.qtyOn acct w o' = 0 := by
          by_contra hne
          exact hq ⟨rfl, rfl, hne⟩
        rw [hflat, max_self] at hw
        exact le_trans hold hw
    · rw [if_neg hk, if_neg fun hk' => hk ⟨hk'.1, hk'.2.1⟩]
      exact hold
  · have hold : s.system.db.hasSettlementRow o' = true := by
      simpa only [Audited.closeAlreadySettled, Db.hasSettlementRow, hrows] using hr
    simp only [Audited.closeAlreadySettled]
    split
    · exact le_refl 0
    · exact h.settled o' hold i w

theorem sweepOne (h : Covered acct [] s) (r : Results) (j : AccountId) (minTransfer : ℚ) :
    Covered acct [] (Audited.step acct r s (.sweepOne j minTransfer)) := by
  obtain ⟨hrows, hvenues, hqty, hrow⟩ := sweepOne_effect s.system minTransfer j
  refine Covered.write ⟨fun i w o => ?_, fun w o _ => ?_, fun w o hne => ?_,
    fun w o hb _ hu => h.recorded w o ((hvenues w).symm.trans hb) List.not_mem_nil hu,
    fun o hr i w => ?_⟩
  · simp only [hqty]
    exact h.within i w o
  · simp only [hrow]
    exact h.storedWithin w o List.not_mem_nil
  · simp only [hqty, hrow] at hne ⊢
    exact h.held w o hne
  · refine h.settled o ?_ i w
    simpa only [Db.hasSettlementRow, hrows] using hr

theorem restart (h : Covered acct [] s) (hok : RowsMeanPaid acct s .restart) :
    Covered acct [] (s.restart acct) := by
  have hrow : ∀ j w o, (bootstrap acct s.system.brokers.fresh s.system.db).2.qtyOn j w o =
      s.system.db.qtyOn j w o := fun j w o => by
    rw [Db.qtyOn, (bootstrap_tables _ _).1, Db.qtyOn]
  have hvenues : ∀ w, ((bootstrap acct s.system.brokers.fresh s.system.db).1.get? w).isSome =
      (s.system.brokers.get? w).isSome := fun w => by
    rw [Bool.eq_iff_iff, Option.isSome_iff_ne_none, Option.isSome_iff_ne_none, Ne, Ne,
      bootstrap_eq_none, get?_fresh, Option.map_eq_none_iff]
  refine ⟨fun i w o => ?_, fun w o _ => ?_, fun w o hne => ?_, fun w o hb _ _ => ?_,
    fun o hr i w => ?_⟩
  · simp only [Audited.restart]
    rw [qtyOn_restart, hydratedTally]
    split
    · rename_i hk
      rw [hk.1]
      exact h.storedWithin w o List.not_mem_nil
    · exact le_max_right _ 0
  · simp only [Audited.restart, hrow]
    exact h.storedWithin w o List.not_mem_nil
  · simp only [Audited.restart, hrow] at hne ⊢
    rw [qtyOn_restart] at hne ⊢
    split at hne
    · rename_i hk
      rw [if_pos hk]
    · exact absurd rfl hne
  · simp only [Audited.restart, hvenues] at hb ⊢
    rw [hydratedTally, if_pos ⟨rfl, hb⟩]
  · have hold : s.system.db.hasSettlementRow o = true := by
      simpa only [Audited.restart, Db.hasSettlementRow, (bootstrap_tables _ _).2] using hr
    simp only [Audited.restart, hydratedTally]
    split
    · rename_i hk
      obtain ⟨rfl, hb⟩ := hk
      rcases le_or_gt (s.system.db.qtyOn i w o) 0 with hq | hq
      · have := h.storedWithin w o List.not_mem_nil
        rw [max_eq_right hq] at this
        exact this
      · -- a stored position in an outcome with a row: its payout is stored
        cases hentry : s.system.db.positions.get? (i, w, o) with
        | none =>
            rw [Db.qtyOn, Dict.getD_of_get?_none hentry] at hq
            exact absurd hq (lt_irrefl 0)
        | some row =>
            rw [Db.qtyOn, Dict.getD_of_get? hentry] at hq
            have hu := hok _ (Dict.mem_entries_iff.mpr hentry) rfl hold hq
            exact le_trans (h.recorded w o hb List.not_mem_nil hu) (h.settled o hold i w)
    · exact le_refl 0

/-- **The step lemma.** -/
theorem step (h : Covered acct [] s) (r : Results) {op : AuditOp}
    (hok : RowsMeanPaid acct s op) : Covered acct [] (Audited.step acct r s op) := by
  cases op with
  | placeOrder => exact h.placeOrder r hok
  | settleOutcomeAsync v o source landed => exact h.settleOutcomeAsync r source hok
  | settleOnce v o landed =>
      simp only [Audited.step]
      split
      · exact h.closeAlreadySettled v o
      · exact h.settleOutcomeAsync r settlementSource hok
  | sweepOne j minTransfer => exact h.sweepOne r j minTransfer
  | restart => exact h.restart hok

end Covered

/-- **What is written off was paid.** In every run from the first start whose
settlement rows and payouts are kept together, a pass that closes a held
position without cash finds no contract in it that a settlement has not
paid. -/
theorem written_off_paid (acct : AccountId) (r : Results) (fleet : Brokers) (ops : List AuditOp)
    (hrun : Runs.Guarded (Audited.step acct r) (RowsMeanPaid acct) (Audited.start acct fleet)
      ops) :
    WrittenOffPaid (Runs.run (Audited.step acct r) (Audited.start acct fleet) ops) := by
  have hcovered := hrun.inv (I := Covered acct []) (fun _ _ h hok => h.step r hok)
    (Covered.start acct fleet)
  exact fun v o hrow j _ => hcovered.settled o hrow j v

/-! ## A row that nothing was held for -/

section

open NoWins

/-- A payout whose transaction was dropped and whose balance the sweep stored:
the row that lands later covers the position the restart hydrates. -/
theorem written_off_paid_swept :
    WrittenOffPaid (Runs.run (Audited.step "default" results)
      (Audited.start "default" TwoVenues.brokers)
      [buy, settlement false, sweep, settlement true, .restart]) :=
  written_off_paid "default" results TwoVenues.brokers
    [buy, settlement false, sweep, settlement true, .restart] (by decide +kernel)

/-- The leg is settled while nobody holds it, the service forgets it with the
restart, and what is bought after it meets the old row. -/
theorem not_writtenOffPaid_unheld :
    ¬ WrittenOffPaid (Runs.run (Audited.step "default" results)
      (Audited.start "default" TwoVenues.brokers) [settlement true, .restart, buy]) := by
  intro h
  exact absurd (h "kalshi" "k-no" (by decide +kernel) "default" (by decide +kernel))
    (by decide +kernel)

end

end Arbys
