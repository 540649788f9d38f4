import Arbys.Audit

/-!
# No contract is paid twice

What settlements have credited to a balance, in memory or stored, against what
was bought. A dropped settlement leaves its position row open; a later write of
the same account's balance stores the payout beside it, and a restart that
hydrates both pays the position again. Where no balance is written between a
dropped payout and the next restart, every contract is paid once
(`paid_once`): a position still open and the cash credited never claim more
than was bought, in memory and in the tables.
-/

namespace Arbys

open AccountState PaperExecutionAdapter PaperSystem Audited

/-- The cash credited for the contracts bought is at most their value. -/
def PaidOnce (r : Results) (s : Audited) : Prop :=
  ∀ j v o, s.paid j v o ≤ r.value o * s.bought j v o ∧
    s.storedPaid j v o ≤ r.value o * s.bought j v o

/-- No balance is written that holds the payout of a dropped settlement. -/
def RecordedFirst (r : Results) (s : Audited) (op : AuditOp) : Prop :=
  ∀ e ∈ s.unrecorded, 0 < r.value e.2.2 → (e.1, e.2.1) ∉ s.written r op

instance (r : Results) (s : Audited) (op : AuditOp) : Decidable (RecordedFirst r s op) :=
  inferInstanceAs (Decidable (∀ e ∈ s.unrecorded, 0 < r.value e.2.2 → _))

/-! ## The invariant -/

/-- What is held and what was credited claim no more than was bought, in
memory (`memory`) and as stored (`stored`), and a payout that is not listed as
unrecorded is stored. The balances in `pending` are about to be written. -/
structure Claims (r : Results) (pending : List (AccountId × VenueId)) (s : Audited) : Prop where
  bought_nonneg : ∀ j v o, 0 ≤ s.bought j v o
  paid_nonneg : ∀ j v o, 0 ≤ s.paid j v o
  storedPaid_nonneg : ∀ j v o, 0 ≤ s.storedPaid j v o
  memory : ∀ j v o, r.value o * max (s.system.brokers.qtyOn j v o) 0 + s.paid j v o ≤
    r.value o * s.bought j v o
  stored : ∀ j v o, (j, v) ∉ pending →
    r.value o * max (s.system.db.qtyOn j v o) 0 + s.storedPaid j v o ≤ r.value o * s.bought j v o
  writable : ∀ j v o, (j, v) ∈ pending →
    r.value o * max (s.system.db.qtyOn j v o) 0 + s.paid j v o ≤ r.value o * s.bought j v o
  recorded : ∀ j v o, (j, v) ∉ pending → (j, v, o) ∉ s.unrecorded →
    s.paid j v o ≤ s.storedPaid j v o

namespace Claims

variable {r : Results} {pending : List (AccountId × VenueId)} {s : Audited}

/-- **The write rule.** -/
theorem write (h : Claims r pending s) : Claims r [] (s.balancesWritten pending) := by
  refine ⟨h.bought_nonneg, h.paid_nonneg, fun j v o => ?_, h.memory, fun j v o _ => ?_,
    fun _ _ _ hm => absurd hm List.not_mem_nil, fun j v o _ hu => ?_⟩
  · simp only [balancesWritten]
    split
    · exact h.paid_nonneg j v o
    · exact h.storedPaid_nonneg j v o
  · simp only [balancesWritten]
    split
    · rename_i hm
      exact h.writable j v o hm
    · rename_i hm
      exact h.stored j v o hm
  · simp only [balancesWritten, List.mem_filter, not_and, decide_eq_true_eq, not_not] at hu ⊢
    split
    · exact le_refl _
    · rename_i hm
      exact h.recorded j v o hm fun he => hm (hu he)

/-- A balance may be written when it holds no unrecorded payout. -/
theorem writable_of_recordedFirst (h : Claims r [] s) {op : AuditOp}
    (hok : RecordedFirst r s op) {j : AccountId} {v : VenueId} (hw : (j, v) ∈ s.written r op)
    (o : OutcomeId) :
    r.value o * max (s.system.db.qtyOn j v o) 0 + s.paid j v o ≤ r.value o * s.bought j v o := by
  have hmemory := h.memory j v o
  have hstored := h.stored j v o List.not_mem_nil
  by_cases hu : (j, v, o) ∈ s.unrecorded
  · -- an unrecorded payout that may be written is of a contract worth nothing
    have hzero : r.value o = 0 :=
      le_antisymm (not_lt.mp fun hpos => hok _ hu hpos hw) (r.nonneg o)
    rw [hzero] at hmemory ⊢
    linarith
  · have := h.recorded j v o List.not_mem_nil hu
    linarith

/-! ## Each step -/

theorem start (r : Results) (acct : AccountId) (fleet : Brokers) :
    Claims r [] (Audited.start acct fleet) := by
  refine ⟨fun _ _ _ => le_refl 0, fun _ _ _ => le_refl 0, fun _ _ _ => le_refl 0,
    fun j v o => ?_, fun j v o _ => ?_, fun _ _ _ hm => absurd hm List.not_mem_nil,
    fun _ _ _ _ _ => le_refl 0⟩
  · rw [(start_qty acct fleet j v o).1]
    simp [Audited.start]
  · rw [(start_qty acct fleet j v o).2]
    simp [Audited.start]

/-- What an order adds to a long position was bought. -/
theorem le_bought_traded (s : Audited) (system : PaperSystem) (j : AccountId) (v : VenueId)
    (o : OutcomeId) (i : AccountId) (w : VenueId) (o' : OutcomeId) :
    s.bought i w o' ≤ (s.traded system j v o).bought i w o' := by
  simp only [traded, Tally.set]
  split
  · rename_i he
    cases he
    exact le_add_of_nonneg_right (le_max_right _ 0)
  · exact le_refl _

/-- What is held rises by no more than what was bought. -/
theorem memory_traded (h : Claims r [] s) (system : PaperSystem) (j : AccountId) (v : VenueId)
    (o : OutcomeId) :
    r.value o * max (system.brokers.qtyOn j v o) 0 + s.paid j v o ≤
      r.value o * (s.traded system j v o).bought j v o := by
  have hrise : max (system.brokers.qtyOn j v o) 0 ≤
      max (s.system.brokers.qtyOn j v o) 0 +
        max (system.brokers.qtyOn j v o - s.system.brokers.qtyOn j v o) 0 := by
    have := le_max_left (s.system.brokers.qtyOn j v o) 0
    have := le_max_left (system.brokers.qtyOn j v o - s.system.brokers.qtyOn j v o) 0
    exact max_le (by linarith) (by positivity)
  have hscaled := mul_le_mul_of_nonneg_left hrise (r.nonneg o)
  have hold := h.memory j v o
  have hbought : (s.traded system j v o).bought j v o = s.bought j v o +
      max (system.brokers.qtyOn j v o - s.system.brokers.qtyOn j v o) 0 :=
    Tally.set_self ..
  rw [hbought, mul_add]
  rw [mul_add] at hscaled
  linarith

theorem placeOrder (h : Claims r [] s) {acct : AccountId} {v : VenueId} {book : QuoteBook}
    {now : ℚ} {j : AccountId} {o : OutcomeId} {isBuy : Bool} {qty limit : ℚ}
    {ticketId : Option TicketId}
    (hok : RecordedFirst r s (.placeOrder v book now j o isBuy qty limit ticketId)) :
    Claims r [] (Audited.step acct r s (.placeOrder v book now j o isBuy qty limit ticketId)) := by
  obtain ⟨_, hoff, hon⟩ :=
    placeOrder_effect s.system acct v book now j o isBuy qty limit ticketId
  have hwritable := h.writable_of_recordedFirst hok (j := j) (v := v)
  have hkept := fun i w => storedQty_placeOrder_off s.system acct v book now j o isBuy qty limit
    ticketId (i := i) (w := w)
  simp only [written] at hwritable
  simp only [Audited.step]
  generalize (s.system.balancesOf v fun a =>
    a.placeOrder book now j o isBuy qty limit ticketId) = pending at hon hwritable hkept ⊢
  generalize (s.system.onBroker acct v fun a =>
    a.placeOrder book now j o isBuy qty limit ticketId) = system at hoff hon hkept ⊢
  have hmono := le_bought_traded s system j v o
  have hmul := fun i w o' => mul_le_mul_of_nonneg_left (hmono i w o') (r.nonneg o')
  have hkey := h.memory_traded system j v o
  have hbought : ∀ i w o', (i, w, o') ≠ (j, v, o) →
      (s.traded system j v o).bought i w o' = s.bought i w o' := fun _ _ _ hne =>
    Tally.set_ne _ hne _
  -- the balance written is the key's own, so every other claim stands as it stood
  refine Claims.write ⟨fun i w o' => le_trans (h.bought_nonneg i w o') (hmono i w o'),
    h.paid_nonneg, h.storedPaid_nonneg, fun i w o' => ?_, fun i w o' hp => ?_,
    fun i w o' hp => ?_, fun i w o' _ hu => h.recorded i w o' List.not_mem_nil hu⟩
  · by_cases he : (i, w, o') = (j, v, o)
    · cases he
      exact hkey
    · rw [hbought i w o' he]
      have hq := (hoff i w o' he).1
      simp only [traded, hq]
      exact h.memory i w o'
  · have hold := h.stored i w o' List.not_mem_nil
    have := hmul i w o'
    simp only [traded, hkept i w hp o'] at this ⊢
    linarith
  · rcases hon with ⟨hlist, _⟩ | ⟨hlist, hrow⟩
    · rw [hlist] at hp
      cases hp
    · have hiw : (i, w) = (j, v) := by
        rw [hlist] at hp
        exact List.mem_singleton.mp hp
      cases hiw
      by_cases ho : o' = o
      · subst ho
        simp only [traded, hrow]
        exact hkey
      · have hne : (j, v, o') ≠ (j, v, o) := fun he => ho (by cases he; rfl)
        rw [hbought j v o' hne]
        simp only [traded, (hoff j v o' hne).2]
        exact hwritable hp o'

/-- A settlement credits each long position at the value it resolves. -/
theorem paid_settled (r : Results) (s : Audited) {system : PaperSystem} {v : VenueId}
    {o : OutcomeId}
    (hcash : ∀ j, system.brokers.cashOn j v =
      s.system.brokers.cashOn j v + r.value o * s.system.brokers.qtyOn j v o)
    (j : AccountId) (w : VenueId) (o' : OutcomeId) :
    (s.settled system v o).paid j w o' =
      if w = v ∧ o' = o then s.paid j v o + r.value o * max (s.system.brokers.qtyOn j v o) 0
      else s.paid j w o' := by
  simp only [settled]
  split
  · rename_i hkey
    rw [hkey.1, hkey.2, hcash, add_sub_cancel_left, mul_max_of_nonneg _ _ (r.nonneg o), mul_zero]
  · rfl

/-- A settlement pays nothing to an account that is not long. -/
theorem paid_settled_of_notLong (r : Results) (s : Audited) {system : PaperSystem} {v : VenueId}
    {o : OutcomeId}
    (hcash : ∀ j, system.brokers.cashOn j v =
      s.system.brokers.cashOn j v + r.value o * s.system.brokers.qtyOn j v o)
    {j : AccountId} {w : VenueId} {o' : OutcomeId}
    (hflat : w = v ∧ o' = o → s.system.brokers.qtyOn j w o' ≤ 0) :
    (s.settled system v o).paid j w o' = s.paid j w o' := by
  rw [paid_settled r s hcash]
  split
  · rename_i hkey
    have hle := hflat hkey
    obtain ⟨rfl, rfl⟩ := hkey
    rw [max_eq_right hle, mul_zero, add_zero]
  · rfl

theorem paid_settled_nonneg (h : Claims r [] s) {system : PaperSystem} {v : VenueId}
    {o : OutcomeId}
    (hcash : ∀ j, system.brokers.cashOn j v =
      s.system.brokers.cashOn j v + r.value o * s.system.brokers.qtyOn j v o)
    (j : AccountId) (w : VenueId) (o' : OutcomeId) :
    0 ≤ (s.settled system v o).paid j w o' := by
  rw [paid_settled r s hcash]
  split
  · exact add_nonneg (h.paid_nonneg j v o) (mul_nonneg (r.nonneg o) (le_max_right _ 0))
  · exact h.paid_nonneg j w o'

/-- What a settlement leaves in memory claims no more than before. -/
theorem memory_settled (h : Claims r [] s) {system : PaperSystem} {v : VenueId} {o : OutcomeId}
    (hcash : ∀ j, system.brokers.cashOn j v =
      s.system.brokers.cashOn j v + r.value o * s.system.brokers.qtyOn j v o)
    (hqty : ∀ j w o', system.brokers.qtyOn j w o' =
      if w = v ∧ o' = o then 0 else s.system.brokers.qtyOn j w o')
    (j : AccountId) (w : VenueId) (o' : OutcomeId) :
    r.value o' * max (system.brokers.qtyOn j w o') 0 + (s.settled system v o).paid j w o' ≤
      r.value o' * s.bought j w o' := by
  rw [paid_settled r s hcash, hqty]
  split
  · rename_i hkey
    obtain ⟨rfl, rfl⟩ := hkey
    have := h.memory j w o'
    rw [max_self, mul_zero]
    linarith
  · exact h.memory j w o'

theorem settleOutcomeAsync (h : Claims r [] s) {acct : AccountId} {v : VenueId} {o : OutcomeId}
    {source : String} {landed : Bool}
    (hok : RecordedFirst r s (.settleOutcomeAsync v o source landed)) :
    Claims r [] (s.settleOutcomeAsync acct r v o source landed) := by
  have hqty := qtyOn_settle s.system acct v o (r.value o) source
  have hcash := cashOn_settle s.system acct v o (r.value o) source
  have hrow := storedQty_settle s.system acct v o (r.value o) source
  have hlist := mem_balancesOf_settle s.system v o (r.value o) source
  have hkept := fun i w => storedQty_settle_off s.system acct v o (r.value o) source
    (j := i) (w := w)
  simp only [Audited.settleOutcomeAsync]
  generalize (s.system.onBroker acct v fun a =>
    a.settleOutcomeAsync o (r.value o) source) = system at hqty hcash hrow hkept ⊢
  have hpaid_nonneg := h.paid_settled_nonneg hcash
  cases landed with
  | true =>
      have hwritable := fun i w => h.writable_of_recordedFirst hok (j := i) (v := w)
      simp only [written, if_true] at hwritable ⊢
      refine Claims.write ⟨h.bought_nonneg, hpaid_nonneg, h.storedPaid_nonneg,
        h.memory_settled hcash hqty, fun i w o' hp => ?_, fun i w o' hp => ?_,
        fun i w o' hp hu => ?_⟩
      · simp only [settled, hkept i w hp o']
        exact h.stored i w o' List.not_mem_nil
      · obtain ⟨rfl, hq⟩ := (hlist i w).mp hp
        by_cases ho : o' = o
        · subst ho
          have := h.memory_settled hcash hqty i w o'
          rw [hqty, if_pos ⟨rfl, rfl⟩] at this
          simp only [settled] at this ⊢
          rw [hrow, if_pos ⟨rfl, rfl, hq⟩]
          exact this
        · have := hwritable i w hp o'
          rw [paid_settled r s hcash, if_neg fun hk => ho hk.2]
          simp only [settled]
          rw [hrow, if_neg fun hk => ho hk.2.1]
          exact this
      · refine le_trans (le_of_eq (paid_settled_of_notLong r s hcash fun hk => ?_))
          (h.recorded i w o' List.not_mem_nil hu)
        obtain ⟨rfl, rfl⟩ := hk
        -- the account holds nothing here, or its balance would be written
        by_contra hlong
        exact hp ((hlist i w).mpr ⟨rfl, fun hq => hlong (le_of_eq hq)⟩)
  | false =>
      simp only [Bool.false_eq_true, if_false]
      refine ⟨h.bought_nonneg, hpaid_nonneg, h.storedPaid_nonneg,
        h.memory_settled hcash hqty, fun i w o' _ => h.stored i w o' List.not_mem_nil,
        fun _ _ _ hm => absurd hm List.not_mem_nil, fun i w o' _ hu => ?_⟩
      obtain ⟨hold, hlong⟩ := not_or.mp (mt List.mem_append.mpr hu)
      refine le_trans (le_of_eq (paid_settled_of_notLong r s hcash fun hk => ?_))
        (h.recorded i w o' List.not_mem_nil hold)
      obtain ⟨rfl, rfl⟩ := hk
      by_contra hq
      exact hlong (List.mem_map.mpr ⟨i, Brokers.mem_longOn (not_le.mp hq), rfl⟩)

theorem closeAlreadySettled (h : Claims r [] s) (acct : AccountId) (v : VenueId)
    (o : OutcomeId) : Claims r [] (s.closeAlreadySettled acct v o) := by
  have hqty := qtyOn_close s.system acct v o
  obtain ⟨_, hrow⟩ := db_close s.system acct v o
  refine ⟨h.bought_nonneg, h.paid_nonneg, h.storedPaid_nonneg, fun i w o' => ?_,
    fun i w o' _ => ?_, fun _ _ _ hm => absurd hm List.not_mem_nil, h.recorded⟩
  · have hold := h.memory i w o'
    have hpos := mul_nonneg (r.nonneg o') (le_max_right (s.system.brokers.qtyOn i w o') 0)
    simp only [Audited.closeAlreadySettled, hqty]
    split
    · rw [max_self, mul_zero]
      linarith
    · exact hold
  · have hold := h.stored i w o' List.not_mem_nil
    have hpos := mul_nonneg (r.nonneg o') (le_max_right (s.system.db.qtyOn i w o') 0)
    simp only [Audited.closeAlreadySettled, hrow]
    split
    · rw [max_self, mul_zero]
      linarith
    · exact hold

theorem sweepOne (h : Claims r [] s) {acct j : AccountId} {minTransfer : ℚ}
    (hok : RecordedFirst r s (.sweepOne j minTransfer)) :
    Claims r [] (Audited.step acct r s (.sweepOne j minTransfer)) := by
  obtain ⟨_, _, hqty, hrow⟩ := sweepOne_effect s.system minTransfer j
  refine Claims.write ⟨h.bought_nonneg, h.paid_nonneg, h.storedPaid_nonneg, fun i w o => ?_,
    fun i w o _ => ?_, fun i w o hp => ?_, fun i w o _ hu => h.recorded i w o List.not_mem_nil hu⟩
  · simp only [hqty]
    exact h.memory i w o
  · simp only [hrow]
    exact h.stored i w o List.not_mem_nil
  · simp only [hrow]
    exact h.writable_of_recordedFirst hok hp o

theorem restart (h : Claims r [] s) (acct : AccountId) : Claims r [] (s.restart acct) := by
  have hhydrated : ∀ i w o, 0 ≤ hydratedTally acct s.system.brokers s.storedPaid i w o ∧
      hydratedTally acct s.system.brokers s.storedPaid i w o ≤ s.storedPaid i w o := by
    intro i w o
    have := h.storedPaid_nonneg i w o
    rw [hydratedTally]
    split
    · exact ⟨this, le_refl _⟩
    · exact ⟨le_refl 0, this⟩
  refine ⟨h.bought_nonneg, fun i w o => (hhydrated i w o).1, h.storedPaid_nonneg,
    fun i w o => ?_, fun i w o _ => ?_, fun _ _ _ hm => absurd hm List.not_mem_nil,
    fun i w o _ _ => (hhydrated i w o).2⟩
  · simp only [Audited.restart]
    rw [qtyOn_restart, hydratedTally]
    split
    · exact h.stored i w o List.not_mem_nil
    · rw [max_self, mul_zero, zero_add]
      exact mul_nonneg (r.nonneg o) (h.bought_nonneg i w o)
  · simp only [Audited.restart, Db.qtyOn, (bootstrap_tables _ _).1]
    exact h.stored i w o List.not_mem_nil

/-- **The step lemma.** -/
theorem step (h : Claims r [] s) (acct : AccountId) {op : AuditOp} (hok : RecordedFirst r s op) :
    Claims r [] (Audited.step acct r s op) := by
  cases op with
  | placeOrder => exact h.placeOrder hok
  | settleOutcomeAsync => exact h.settleOutcomeAsync hok
  | settleOnce v o landed =>
      simp only [Audited.step]
      by_cases hrow : s.system.db.hasSettlementRow o = true
      · rw [if_pos hrow]
        exact h.closeAlreadySettled acct v o
      · rw [if_neg hrow]
        refine h.settleOutcomeAsync fun e he hpos => ?_
        have := hok e he hpos
        simpa only [written, Bool.not_eq_true, hrow, true_and] using this
  | sweepOne => exact h.sweepOne hok
  | restart => exact h.restart acct

theorem paidOnce (h : Claims r [] s) : PaidOnce r s := by
  intro j v o
  have hmemory := h.memory j v o
  have hstored := h.stored j v o List.not_mem_nil
  have hheld := mul_nonneg (r.nonneg o) (le_max_right (s.system.brokers.qtyOn j v o) 0)
  have hrow := mul_nonneg (r.nonneg o) (le_max_right (s.system.db.qtyOn j v o) 0)
  exact ⟨by linarith, by linarith⟩

end Claims

/-- **A contract is paid once.** In every run from the first start in which no
balance that holds the payout of a dropped settlement is written before the
next restart, the cash credited for the contracts bought is at most their
value, in the balances in memory and in the stored ones. -/
theorem paid_once (acct : AccountId) (r : Results) (fleet : Brokers) (ops : List AuditOp)
    (hrun : Runs.Guarded (Audited.step acct r) (RecordedFirst r) (Audited.start acct fleet) ops) :
    PaidOnce r (Runs.run (Audited.step acct r) (Audited.start acct fleet) ops) :=
  (hrun.inv (I := Claims r []) (fun _ _ h hok => h.step acct hok)
    (Claims.start r acct fleet)).paidOnce

/-! ## A settlement whose transaction is dropped -/

section

open NoWins

/-- A restart before the sweep: the payout is lost with the process, and the
pass pays it. -/
theorem paid_once_dropped :
    PaidOnce results (Runs.run (Audited.step "default" results)
      (Audited.start "default" TwoVenues.brokers) [buy, settlement false, .restart, pass, sweep]) :=
  paid_once "default" results TwoVenues.brokers [buy, settlement false, .restart, pass, sweep]
    (by decide +kernel)

/-- The sweep stores the payout first, and the pass pays it again. -/
theorem not_paidOnce_swept :
    ¬ PaidOnce results (Runs.run (Audited.step "default" results)
      (Audited.start "default" TwoVenues.brokers) [buy, settlement false, sweep, .restart, pass]) := by
  intro h
  exact absurd (h "default" "kalshi" "k-no").1 (by decide +kernel)

end

end Arbys
