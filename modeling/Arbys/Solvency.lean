import Arbys.Ledger

/-!
# No overdraft, no short position

A buy is refused when it costs more than the account has, and a withdrawal too.
A sale is checked against nothing: it is filled whether or not the contracts
are held, and its fee is taken whether or not there is cash for it. `Covered`
is what a sale would have to be checked for, and the accounts of an adapter
stay `Solvent` along a run exactly when every filled sale of it is covered.
-/

namespace Arbys

open AccountState PaperExecutionAdapter

/-- No cash below zero on any venue, and no position below zero. -/
structure AccountState.Solvent (st : AccountState) : Prop where
  cash : ∀ v, 0 ≤ st.cash v
  qty : ∀ o, 0 ≤ st.qty o

/-- Every account of the adapter is solvent. -/
def PaperExecutionAdapter.Solvent (a : PaperExecutionAdapter) : Prop :=
  ∀ acct, (a.account acct).Solvent

/-- A new adapter has nothing and owes nothing. -/
theorem solvent_new (v : VenueId) (fees : FeeModel) (slippageBps : ℚ) :
    (PaperExecutionAdapter.new v fees slippageBps).Solvent := by
  intro acct
  exact ⟨fun _ => le_refl 0, fun _ => le_refl 0⟩

namespace LedgerOp

/-- Deposits put money in, orders are for some quantity, and a contract pays
between nothing and one. -/
def Admissible : LedgerOp → Prop
  | .deposit _ amount => 0 ≤ amount
  | .withdraw _ _ => True
  | .applyFill _ _ _ _ _ qty _ _ => 0 < qty
  | .settleOutcome _ value => 0 ≤ value ∧ value ≤ 1
  | .settleOutcomeAsync _ value _ => 0 ≤ value ∧ value ≤ 1

/-- A sale that `quote` can serve within its limit is of contracts held, and
leaves enough cash for its fee. -/
def SaleCovered (a : PaperExecutionAdapter) (acct : AccountId) (o : OutcomeId) (qty limit : ℚ)
    (quote : Quote) : Prop :=
  (∀ size ∈ quote.bidSize, 0 < size ∧ qty ≤ size) → limit ≤ a.applySlippage quote.bid false →
    qty ≤ (a.account acct).qty o ∧
      a.fees.fee (a.applySlippage quote.bid false) qty false ≤
        a.cash acct + a.applySlippage quote.bid false * qty

instance (a : PaperExecutionAdapter) (acct : AccountId) (o : OutcomeId) (qty limit : ℚ)
    (quote : Quote) : Decidable (SaleCovered a acct o qty limit quote) :=
  inferInstanceAs (Decidable ((∀ size ∈ quote.bidSize, 0 < size ∧ qty ≤ size) →
    limit ≤ a.applySlippage quote.bid false →
      qty ≤ (a.account acct).qty o ∧
        a.fees.fee (a.applySlippage quote.bid false) qty false ≤
          a.cash acct + a.applySlippage quote.bid false * qty))

/-- What no sale is checked for. -/
def Covered (a : PaperExecutionAdapter) : LedgerOp → Prop
  | .applyFill book now acct o false qty limit _ =>
      ∀ quote ∈ book.get now o, SaleCovered a acct o qty limit quote
  | _ => True

instance (a : PaperExecutionAdapter) : DecidablePred (Covered a)
  | .applyFill book now acct o false qty limit _ =>
      inferInstanceAs (Decidable (∀ quote ∈ book.get now o,
        SaleCovered a acct o qty limit quote))
  | .applyFill _ _ _ _ true _ _ _ => isTrue trivial
  | .deposit _ _ => isTrue trivial
  | .withdraw _ _ => isTrue trivial
  | .settleOutcome _ _ => isTrue trivial
  | .settleOutcomeAsync _ _ _ => isTrue trivial

end LedgerOp

open LedgerOp

/-! ## One account -/

section Account

variable {st : AccountState} {v : VenueId} {o : OutcomeId}

/-- A movement that leaves its own cash and quantity in order. -/
theorem AccountState.Solvent.move {st' : AccountState} {dCash dRealized qty' avg' fees' : ℚ}
    (h : st.Solvent) (m : Movement v o st st' dCash dRealized qty' avg' fees') :
    st'.Solvent ↔ 0 ≤ st.cash v + dCash ∧ 0 ≤ qty' := by
  constructor
  · intro h'
    have hcash := h'.cash v
    have hqty := h'.qty o
    rw [m.cash] at hcash
    rw [m.qty] at hqty
    exact ⟨hcash, hqty⟩
  · rintro ⟨hcash, hqty⟩
    refine ⟨fun w => ?_, fun j => ?_⟩
    · by_cases hw : w = v
      · rw [hw, m.cash]
        exact hcash
      · rw [m.cash_off w hw]
        exact h.cash w
    · by_cases hj : j = o
      · rw [hj, m.qty]
        exact hqty
      · rw [m.qty_off j hj]
        exact h.qty j

/-- Cash moved on one venue only. -/
theorem AccountState.Solvent.fund (h : st.Solvent) {amount : ℚ} (hamount : 0 ≤ amount) :
    AccountState.Solvent { st with balances := st.balances.set v amount } := by
  refine ⟨fun w => ?_, h.qty⟩
  simp only [AccountState.cash, Dict.getD_set]
  split
  · exact hamount
  · exact h.cash w

/-- What is paid out for a position that is held is not below zero. -/
theorem AccountState.Solvent.settle (h : st.Solvent) {value : ℚ} (hvalue : 0 ≤ value) :
    (st.settle v o value).Solvent := by
  by_cases hq : st.qty o = 0
  · rwa [settle_of_qty_zero hq]
  · refine (h.move (movement_settle st v o value hq)).mpr ⟨?_, le_refl 0⟩
    have hpaid := mul_nonneg hvalue (h.qty o)
    linarith [h.cash v]

end Account

/-! ## One operation -/

section Step

variable {a : PaperExecutionAdapter}

/-- An operation that rewrites one account alone. -/
theorem PaperExecutionAdapter.Solvent.of_account {b : PaperExecutionAdapter} (h : a.Solvent)
    {acct : AccountId} {st : AccountState}
    (hb : ∀ j, b.account j = if j = acct then st else a.account j) :
    b.Solvent ↔ st.Solvent := by
  constructor
  · intro hsolvent
    have hacct := hsolvent acct
    rwa [hb, if_pos rfl] at hacct
  · intro hst j
    rw [hb]
    split
    · exact hst
    · exact h j

theorem solvent_deposit (h : a.Solvent) (acct : AccountId) {amount : ℚ} (hamount : 0 ≤ amount) :
    (a.deposit acct amount).Solvent := by
  refine (h.of_account fun j => account_setAccount a acct j _).mpr ((h acct).fund ?_)
  exact add_nonneg ((h acct).cash a.venueId) hamount

/-- A withdrawal takes no more than there is. -/
theorem solvent_withdraw (h : a.Solvent) (acct : AccountId) (amount : ℚ) :
    (a.withdraw acct amount).1.Solvent := by
  simp only [PaperExecutionAdapter.withdraw]
  split
  · exact h
  · rename_i hallowed
    refine (h.of_account fun j => account_setAccount a acct j _).mpr ((h acct).fund ?_)
    have hle : amount ≤ (a.account acct).cash a.venueId :=
      not_lt.mp fun hlt => hallowed (.inr hlt)
    exact sub_nonneg.mpr hle

/-- A filled buy has been checked for its cost. -/
theorem solvent_buy (h : a.Solvent) (book : QuoteBook) (now : ℚ) (acct : AccountId)
    (o : OutcomeId) {qty : ℚ} (hqty : 0 < qty) (limit : ℚ) (ticketId : Option TicketId) :
    (a.applyFill book now acct o true qty limit ticketId).adapter.Solvent := by
  rcases applyFill_cases a book now acct o true qty limit ticketId with
    ⟨_, _, hr⟩ | ⟨_, _, _, _, _, hr⟩ | ⟨px, cost, hpreview, hcash, hr⟩ <;> rw [hr]
  · exact h
  · exact h
  · refine (h.of_account fun j => account_accept a acct j o true qty limit ticketId px).mpr ?_
    refine ((h acct).move (movement_buy _ a.venueId o qty px _)).mpr ⟨?_, ?_⟩
    · have hpaid := hcash rfl
      rw [previewFill_cost hpreview, if_pos rfl] at hpaid
      exact le_add_neg_iff_le.mpr hpaid
    · linarith [(h acct).qty o]

/-- **A sale** leaves the accounts solvent exactly when it is covered. -/
theorem solvent_sell_iff (h : a.Solvent) (book : QuoteBook) (now : ℚ) (acct : AccountId)
    (o : OutcomeId) (qty limit : ℚ) (ticketId : Option TicketId) :
    (a.applyFill book now acct o false qty limit ticketId).adapter.Solvent ↔
      Covered a (.applyFill book now acct o false qty limit ticketId) := by
  rcases applyFill_cases a book now acct o false qty limit ticketId with
    ⟨reason, hpreview, hr⟩ | ⟨_, _, _, hbuy, _⟩ | ⟨px, cost, hpreview, _, hr⟩
  · -- refused by the preview: no quote serves the sale
    rw [hr]
    refine iff_of_true h fun quote hquote hsize hlimit => ?_
    have hok := previewFill_sell (a := a) hquote hsize hlimit
    rw [hpreview] at hok
    cases hok
  · cases hbuy
  · obtain ⟨quote, hquote, hsize, hpx, hlimit, -⟩ := previewFill_eq_ok hpreview
    simp only [Bool.false_eq_true, if_false] at hsize hpx hlimit
    have hsold := (h acct).move
      (movement_sell (a.account acct) a.venueId o qty px (a.fees.fee px qty false))
    rw [hr, h.of_account fun j => account_accept a acct j o false qty limit ticketId px, hsold]
    constructor
    · -- the quote is the one the preview has read
      rintro ⟨hcash, hheld⟩ quote' hquote' - -
      rw [Option.mem_def, hquote] at hquote'
      cases hquote'
      rw [← hpx]
      refine ⟨sub_nonneg.mp hheld, sub_nonneg.mp ?_⟩
      rw [PaperExecutionAdapter.cash]
      linarith
    · intro hcovered
      obtain ⟨hheld, hfee⟩ := hcovered quote hquote hsize (hpx ▸ hlimit)
      rw [← hpx, PaperExecutionAdapter.cash] at hfee
      exact ⟨by linarith, sub_nonneg.mpr hheld⟩

/-- **One operation** leaves the accounts solvent exactly when it is no sale
that is filled uncovered. -/
theorem solvent_step_iff (h : a.Solvent) {op : LedgerOp} (hop : op.Admissible) :
    (step a op).Solvent ↔ op.Covered a := by
  cases op with
  | deposit acct amount => exact iff_of_true (solvent_deposit h acct hop) trivial
  | withdraw acct amount => exact iff_of_true (solvent_withdraw h acct amount) trivial
  | applyFill book now acct o isBuy qty limit ticketId =>
      cases isBuy with
      | true => exact iff_of_true (solvent_buy h book now acct o hop limit ticketId) trivial
      | false => exact solvent_sell_iff h book now acct o qty limit ticketId
  | settleOutcome o value =>
      refine iff_of_true (fun acct => ?_) trivial
      rw [step, account_settleOutcome]
      exact (h acct).settle hop.1
  | settleOutcomeAsync o value source =>
      refine iff_of_true (fun acct => ?_) trivial
      rw [step, account_settleOutcomeAsync]
      exact (h acct).settle hop.1

end Step

/-! ## Every run -/

/-- **No overdraft and no short position** anywhere along a run exactly when
every sale filled in it is covered. -/
theorem solvent_run_iff {a : PaperExecutionAdapter} (h : a.Solvent) {ops : List LedgerOp}
    (hops : ∀ op ∈ ops, op.Admissible) :
    (∀ before after, ops = before ++ after → (Runs.run step a before).Solvent) ↔
      Runs.Guarded step Covered a ops :=
  Runs.forall_prefix_iff h fun _ op hmem hsolvent => solvent_step_iff hsolvent (hops op hmem)

namespace KalshiYes

/-- Bought, sold in part, settled, and paid out. -/
def funded : List LedgerOp :=
  [.deposit "default" 100, buy 10, sell 4, .settleOutcome "k-yes" 1, .withdraw "default" 100]

/-- Sold by an account that holds nothing, of a contract that pays. -/
def naked : List LedgerOp := [sell 10, .settleOutcome "k-yes" 1]

end KalshiYes

open KalshiYes in
theorem solvent_run_kalshiYes : (Runs.run step adapter funded).Solvent := by
  have hadmissible : ∀ op ∈ funded, op.Admissible := by
    simp only [funded, buy, sell, List.forall_mem_cons, Admissible]
    norm_num
  exact (solvent_run_iff (solvent_new "kalshi" .kalshi 0) hadmissible).mpr (by decide +kernel)
    funded [] (List.append_nil _).symm

open KalshiYes in
/-- Ten contracts sold by an account that holds none and has no cash: the
position goes below zero, and the settlement of it takes the cash there. -/
theorem naked_sale_filled :
    (∀ op ∈ naked, op.Admissible) ∧
      ((Runs.run step adapter [sell 10]).account "default").qty "k-yes" = -10 ∧
      (Runs.run step adapter naked).cash "default" < 0 ∧
      ¬ (Runs.run step adapter [sell 10]).Solvent := by
  have hshort : ((Runs.run step adapter [sell 10]).account "default").qty "k-yes" = -10 := by
    decide +kernel
  refine ⟨?_, hshort, by decide +kernel, fun hsolvent => ?_⟩
  · simp only [naked, sell, List.forall_mem_cons, Admissible]
    norm_num
  · have hlong := (hsolvent "default").qty "k-yes"
    rw [hshort] at hlong
    norm_num at hlong

end Arbys
