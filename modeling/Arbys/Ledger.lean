import Arbys.Lib.Runs
import Arbys.Equity

/-!
# The ledger of one broker

Four accumulators say where an account's money is: cash, the cost basis of
what is held, the fees carried on it, and realized P&L. A deposit and a
withdrawal are the only operations that bring money in or take it out; every
other operation moves it between the four. `Books` is the invariant, `step`
the operation, and `books_step` what one operation preserves; the laws about
whole runs follow by the rules of `Runs`.
-/

namespace Arbys

open AccountState PaperExecutionAdapter

/-- The operations of a ledger run. The book and the clock may be different
at every order. -/
inductive LedgerOp where
  | deposit (acct : AccountId) (amount : ℚ)
  | withdraw (acct : AccountId) (amount : ℚ)
  | applyFill (book : QuoteBook) (now : ℚ) (acct : AccountId) (o : OutcomeId) (isBuy : Bool)
      (qty limitPrice : ℚ) (ticketId : Option TicketId)
  | settleOutcome (o : OutcomeId) (resolvedValue : ℚ)
  | settleOutcomeAsync (o : OutcomeId) (resolvedValue : ℚ) (source : String)

namespace LedgerOp

def step (a : PaperExecutionAdapter) : LedgerOp → PaperExecutionAdapter
  | .deposit acct amount => a.deposit acct amount
  | .withdraw acct amount => (a.withdraw acct amount).1
  | .applyFill book now acct o isBuy qty limit ticketId =>
      (a.applyFill book now acct o isBuy qty limit ticketId).adapter
  | .settleOutcome o value => a.settleOutcome o value
  | .settleOutcomeAsync o value source => (a.settleOutcomeAsync o value source).1

/-- A positive quantity, and no sale of more than is held. -/
def Legal (a : PaperExecutionAdapter) : LedgerOp → Prop
  | .applyFill _ _ acct o isBuy qty _ _ =>
      0 < qty ∧ (isBuy = false → qty ≤ (a.account acct).qty o)
  | _ => True

/-- What the operation brings into the account: deposits, less withdrawals
that returned True. -/
def funding (acct : AccountId) (a : PaperExecutionAdapter) : LedgerOp → ℚ
  | .deposit acct' amount => if acct' = acct then amount else 0
  | .withdraw acct' amount =>
      if acct' = acct ∧ (a.withdraw acct' amount).2 = true then -amount else 0
  | _ => 0

/-- The fee of the fill the operation makes for the account. -/
def feePaid (acct : AccountId) (a : PaperExecutionAdapter) : LedgerOp → ℚ
  | .applyFill book now acct' o isBuy qty limit ticketId =>
      if acct' = acct then
        ((a.applyFill book now acct' o isBuy qty limit ticketId).fill.map (·.fee)).getD 0
      else 0
  | _ => 0

/-- What the operation trades in or out of the account before fees: sale
proceeds and settlement payouts, less what buys cost. -/
def tradeFlow (acct : AccountId) (a : PaperExecutionAdapter) : LedgerOp → ℚ
  | .applyFill book now acct' o isBuy qty limit ticketId =>
      if acct' = acct then
        ((a.applyFill book now acct' o isBuy qty limit ticketId).fill.map fun f =>
          if isBuy then -(f.price * f.qty) else f.price * f.qty).getD 0
      else 0
  | .settleOutcome o value => value * (a.account acct).qty o
  | .settleOutcomeAsync o value _ => value * (a.account acct).qty o
  | _ => 0

end LedgerOp

open LedgerOp

/-! ## The invariant -/

/-- No short position, no fee carried on a closed one, and the total realized
is the sum over outcomes. -/
structure Books (st : AccountState) : Prop where
  long : ∀ o, 0 ≤ st.qty o
  closed : ∀ o, st.qty o = 0 → st.openFees o = 0
  realized : st.realizedPnl = st.realizedSum

/-- Where the money of an account on venue `v` is: cash, cost of what is held,
fees carried on it, less what has been realized. -/
def AccountState.atCost (st : AccountState) (v : VenueId) : ℚ :=
  st.cash v + st.costBasis + st.carriedFees - st.realizedPnl

theorem books_empty : Books {} :=
  ⟨fun _ => le_refl 0, fun _ _ => rfl, rfl⟩

section Moves

variable {v : VenueId} {o : OutcomeId} {st st' : AccountState}
  {dCash dRealized qty' avg' fees' : ℚ}

/-- A movement keeps the books if it leaves its own outcome in order. -/
theorem Books.move (h : Books st)
    (m : Movement v o st st' dCash dRealized qty' avg' fees')
    (hq : 0 ≤ qty') (hf : qty' = 0 → fees' = 0) : Books st' := by
  refine ⟨fun j => ?_, fun j hj => ?_, ?_⟩
  · by_cases hjo : j = o
    · rw [hjo, m.qty]
      exact hq
    · rw [m.qty_off j hjo]
      exact h.long j
  · by_cases hjo : j = o
    · rw [hjo, m.qty] at hj
      rw [hjo, m.openFees]
      exact hf hj
    · rw [m.qty_off j hjo] at hj
      rw [m.openFees_off j hjo]
      exact h.closed j hj
  · rw [m.realizedPnl, m.realizedSum, h.realized]

/-- **The movement rule**: a movement conserves the money of an account when
cash, cost, fees and realized P&L of its outcome balance. -/
theorem Movement.atCost (m : Movement v o st st' dCash dRealized qty' avg' fees')
    (hbal : dCash + (qty' * avg' - st.qty o * st.avg o) + (fees' - st.openFees o) = dRealized) :
    st'.atCost v = st.atCost v := by
  simp only [AccountState.atCost, m.cash, m.costBasis, m.carriedFees, m.realizedPnl]
  linarith

end Moves

/-! ## One operation -/

theorem books_buy {st : AccountState} (h : Books st) (v : VenueId) (o : OutcomeId)
    {qty : ℚ} (hq : 0 < qty) (px fee : ℚ) :
    Books (st.bookFill v o true qty px fee) ∧
      (st.bookFill v o true qty px fee).atCost v = st.atCost v := by
  have m := movement_buy st v o qty px fee
  have hpos : 0 < st.qty o + qty := by linarith [h.long o]
  rw [if_pos hpos] at m
  refine ⟨h.move m (le_of_lt hpos) fun h0 => absurd h0 (ne_of_gt hpos), Movement.atCost m ?_⟩
  rw [mul_div_cancel₀ _ (ne_of_gt hpos)]
  ring

theorem books_sell {st : AccountState} (h : Books st) (v : VenueId) (o : OutcomeId)
    {qty : ℚ} (hq : 0 < qty) (hheld : qty ≤ st.qty o) (px fee : ℚ) :
    Books (st.bookFill v o false qty px fee) ∧
      (st.bookFill v o false qty px fee).atCost v = st.atCost v := by
  have m := movement_sell st v o qty px fee
  refine ⟨h.move m (by linarith) fun h0 => ?_, Movement.atCost m ?_⟩
  · -- the whole position leaves, and its fees with it
    rw [feeShare_whole (by linarith) (by linarith), sub_self]
  · rw [min_eq_left hheld]
    ring

theorem books_settle {st : AccountState} (h : Books st) (v : VenueId) (o : OutcomeId)
    (value : ℚ) :
    Books (st.settle v o value) ∧ (st.settle v o value).atCost v = st.atCost v := by
  by_cases hq : st.qty o = 0
  · rw [settle_of_qty_zero hq]
    exact ⟨h, rfl⟩
  · have hpos : 0 < st.qty o := lt_of_le_of_ne (h.long o) (Ne.symm hq)
    have m := movement_settle st v o value hq
    refine ⟨h.move m (le_refl 0) fun _ => ?_, Movement.atCost m (by ring)⟩
    rw [feeShare_whole hpos (le_refl _), sub_self]

/-- Funding changes the cash of the venue and nothing else. -/
theorem books_fund {st : AccountState} (h : Books st) (v : VenueId) (amount : ℚ) :
    Books { st with balances := st.balances.set v amount } ∧
      AccountState.atCost { st with balances := st.balances.set v amount } v =
        st.atCost v + (amount - st.cash v) := by
  refine ⟨⟨h.long, h.closed, h.realized⟩, ?_⟩
  simp only [AccountState.atCost, AccountState.cash, Dict.getD_set_self]
  have hcost : AccountState.costBasis { st with balances := st.balances.set v amount } =
      st.costBasis := rfl
  have hfees : AccountState.carriedFees { st with balances := st.balances.set v amount } =
      st.carriedFees := rfl
  rw [hcost, hfees]
  ring

theorem step_venueId (a : PaperExecutionAdapter) (op : LedgerOp) :
    (step a op).venueId = a.venueId := by
  cases op with
  | deposit acct amount => rfl
  | withdraw acct amount =>
      simp only [step, PaperExecutionAdapter.withdraw]
      split <;> rfl
  | applyFill book now acct o isBuy qty limit ticketId =>
      rcases applyFill_cases a book now acct o isBuy qty limit ticketId with
        ⟨_, _, h⟩ | ⟨_, _, _, _, _, h⟩ | ⟨_, _, _, _, h⟩ <;> simp only [step, h] <;> rfl
  | settleOutcome o value => rfl
  | settleOutcomeAsync o value source => rfl

/-- **One operation**: the books stay in order, and the money of an account
moves by what the operation brings in. -/
theorem books_step {a : PaperExecutionAdapter} {op : LedgerOp}
    (h : ∀ acct, Books (a.account acct)) (hl : op.Legal a) (acct : AccountId) :
    Books ((step a op).account acct) ∧
      ((step a op).account acct).atCost a.venueId =
        (a.account acct).atCost a.venueId + funding acct a op := by
  cases op with
  | deposit acct' amount =>
      simp only [step, PaperExecutionAdapter.deposit, account_setAccount, funding]
      by_cases hacct : acct = acct'
      · subst hacct
        obtain ⟨hb, hc⟩ := books_fund (h acct) a.venueId
          ((a.account acct).cash a.venueId + amount)
        simp only [if_true]
        exact ⟨hb, by rw [hc]; ring⟩
      · simp only [if_neg hacct, if_neg (Ne.symm hacct), add_zero]
        exact ⟨h acct, trivial⟩
  | withdraw acct' amount =>
      simp only [step, PaperExecutionAdapter.withdraw, funding]
      split
      · simp only [Bool.false_eq_true, and_false, if_false, add_zero]
        exact ⟨h acct, trivial⟩
      · simp only [account_setAccount, and_true]
        by_cases hacct : acct = acct'
        · subst hacct
          obtain ⟨hb, hc⟩ := books_fund (h acct) a.venueId
            ((a.account acct).cash a.venueId - amount)
          simp only [if_true]
          exact ⟨hb, by rw [hc]; ring⟩
        · simp only [if_neg hacct, if_neg (Ne.symm hacct), add_zero]
          exact ⟨h acct, trivial⟩
  | applyFill book now acct' o isBuy qty limit ticketId =>
      obtain ⟨hq, hheld⟩ := hl
      simp only [step, funding, add_zero]
      -- a refused order leaves the account alone
      rcases applyFill_cases a book now acct' o isBuy qty limit ticketId with
        ⟨_, _, hr⟩ | ⟨_, _, _, _, _, hr⟩ | ⟨px, _, _, _, hr⟩ <;> rw [hr]
      · exact ⟨h acct, rfl⟩
      · exact ⟨h acct, rfl⟩
      · rw [account_accept]
        by_cases hacct : acct = acct'
        · subst hacct
          simp only [if_true]
          cases isBuy with
          | true => exact books_buy (h acct) a.venueId o hq px _
          | false => exact books_sell (h acct) a.venueId o hq (hheld rfl) px _
        · simp only [if_neg hacct]
          exact ⟨h acct, trivial⟩
  | settleOutcome o value =>
      simp only [step, funding, add_zero, account_settleOutcome]
      exact books_settle (h acct) a.venueId o value
  | settleOutcomeAsync o value source =>
      simp only [step, funding, add_zero, account_settleOutcomeAsync]
      exact books_settle (h acct) a.venueId o value

/-- **One operation, on cash**: funding, what was traded, and the fee, once. -/
theorem cash_step (a : PaperExecutionAdapter) (op : LedgerOp) (acct : AccountId) :
    ((step a op).account acct).cash a.venueId =
      (a.account acct).cash a.venueId +
        (funding acct a op + (tradeFlow acct a op - feePaid acct a op)) := by
  cases op with
  | deposit acct' amount =>
      simp only [step, PaperExecutionAdapter.deposit, account_setAccount, funding, tradeFlow,
        feePaid, sub_zero, add_zero]
      by_cases hacct : acct = acct'
      · subst hacct
        simp [AccountState.cash]
      · simp [hacct, Ne.symm hacct]
  | withdraw acct' amount =>
      simp only [step, PaperExecutionAdapter.withdraw, funding, tradeFlow, feePaid, sub_zero,
        add_zero]
      split
      · simp
      · by_cases hacct : acct = acct'
        · subst hacct
          simp [account_setAccount, AccountState.cash, sub_eq_add_neg]
        · simp [account_setAccount, hacct, Ne.symm hacct]
  | applyFill book now acct' o isBuy qty limit ticketId =>
      simp only [step, funding, tradeFlow, feePaid, zero_add]
      rcases applyFill_cases a book now acct' o isBuy qty limit ticketId with
        ⟨_, _, hr⟩ | ⟨_, _, _, _, _, hr⟩ | ⟨px, _, _, _, hr⟩ <;> rw [hr]
      · simp [reject, account]
      · simp [reject, account]
      · rw [account_accept]
        by_cases hacct : acct = acct'
        · subst hacct
          simp only [if_true, accept, Option.map_some, Option.getD_some]
          cases isBuy with
          | true =>
              rw [(movement_buy (a.account acct) a.venueId o qty px _).cash]
              simp only [if_true]
              ring
          | false =>
              rw [(movement_sell (a.account acct) a.venueId o qty px _).cash]
              simp only [Bool.false_eq_true, if_false]
        · simp [hacct, Ne.symm hacct]
  | settleOutcome o value =>
      simp only [step, funding, tradeFlow, feePaid, account_settleOutcome, cash_settle]
      ring
  | settleOutcomeAsync o value source =>
      simp only [step, funding, tradeFlow, feePaid, account_settleOutcomeAsync, cash_settle]
      ring

/-! ## Whole runs -/

/-- A finite run of legal operations on a broker that starts with no account.
Every prefix of one is one (`LedgerRun.after`). -/
structure LedgerRun where
  venueId : VenueId
  fees : FeeModel
  slippageBps : ℚ
  ops : List LedgerOp
  legal : Runs.Guarded step (fun a op => op.Legal a)
    (PaperExecutionAdapter.new venueId fees slippageBps) ops

namespace LedgerRun

/-- The broker as constructed. -/
def start (r : LedgerRun) : PaperExecutionAdapter :=
  PaperExecutionAdapter.new r.venueId r.fees r.slippageBps

/-- The broker after the run. -/
def broker (r : LedgerRun) : PaperExecutionAdapter := Runs.run step r.start r.ops

/-- Deposits made, minus withdrawals that returned True. -/
def netDeposits (r : LedgerRun) (acct : AccountId) : ℚ :=
  Runs.tally step (fun a op => op.funding acct a) r.start r.ops

/-- The fees of every fill of the account. -/
def feesPaid (r : LedgerRun) (acct : AccountId) : ℚ :=
  Runs.tally step (fun a op => op.feePaid acct a) r.start r.ops

/-- Sale proceeds and payouts of the account, less what its buys cost. -/
def tradeFlow (r : LedgerRun) (acct : AccountId) : ℚ :=
  Runs.tally step (fun a op => op.tradeFlow acct a) r.start r.ops

/-- The run after its first `n` operations. -/
def after (r : LedgerRun) (n : ℕ) : LedgerRun :=
  { r with
    ops := r.ops.take n
    legal := Runs.Guarded.of_append (r.ops.drop n) (by
      rw [List.take_append_drop]
      exact r.legal) }

/-- Which broker it is never changes, and its books stay in order. -/
theorem inv (r : LedgerRun) :
    r.broker.venueId = r.venueId ∧ ∀ acct, Books (r.broker.account acct) := by
  refine Runs.Guarded.inv (I := fun a => a.venueId = r.venueId ∧ ∀ acct, Books (a.account acct))
    (fun a op h hl => ⟨?_, fun acct => (books_step h.2 hl acct).1⟩) r.legal
    ⟨rfl, fun _ => books_empty⟩
  rw [step_venueId]
  exact h.1

theorem atCost (r : LedgerRun) (acct : AccountId) :
    (r.broker.account acct).atCost r.venueId = r.netDeposits acct := by
  have h := Runs.Guarded.telescope (Φ := fun a => (a.account acct).atCost r.venueId)
    (I := fun a => a.venueId = r.venueId ∧ ∀ acct, Books (a.account acct))
    (q := fun a op => op.funding acct a)
    (fun a op hI hl => ⟨by rw [step_venueId]; exact hI.1, fun j => (books_step hI.2 hl j).1⟩)
    (fun a op hI hl => by
      have := (books_step hI.2 hl acct).2
      rwa [hI.1] at this)
    r.legal ⟨rfl, fun _ => books_empty⟩
  have h0 : AccountState.atCost {} r.venueId = 0 := by
    simp [AccountState.atCost, AccountState.cash, AccountState.costBasis,
      AccountState.carriedFees]
  rw [account_new, h0, zero_add] at h
  exact h

/-- Cash is what was brought in, what was traded, and every fee once. -/
theorem cash_eq (r : LedgerRun) (acct : AccountId) :
    r.broker.cash acct = r.netDeposits acct + (r.tradeFlow acct - r.feesPaid acct) := by
  have h := Runs.Guarded.telescope
    (Φ := fun a => ((a.account acct).cash r.venueId : ℚ))
    (I := fun a => a.venueId = r.venueId)
    (q := fun a op => op.funding acct a + (op.tradeFlow acct a - op.feePaid acct a))
    (fun a op hI _ => by rw [step_venueId]; exact hI)
    (fun a op hI _ => by
      have := cash_step a op acct
      rwa [hI] at this)
    r.legal rfl
  have h0 : (AccountState.cash {} r.venueId : ℚ) = 0 := rfl
  rw [account_new, h0, zero_add] at h
  rw [PaperExecutionAdapter.cash, r.inv.1]
  refine h.trans ?_
  rw [Runs.tally_add, Runs.tally_sub]
  rfl

end LedgerRun

/-- **Ledger conservation.** After every finite run, cash, cost of what is
held and carried fees, less realized P&L, are the net deposits, and realized
P&L is its sum over outcomes. With every position closed, cash less net
deposits is realized P&L, which is what was traded less every fee once. For
any set of such brokers and any book, reported equity is net deposits, plus
realized, plus unrealized, less the fees still carried. -/
theorem ledger_conservation :
    (∀ (r : LedgerRun) (acct : AccountId),
      r.broker.cash acct + (r.broker.account acct).costBasis
          + (r.broker.account acct).carriedFees - r.broker.realizedPnl acct
        = r.netDeposits acct ∧
      r.broker.realizedPnl acct = (r.broker.account acct).realizedSum ∧
      ((∀ o, (r.broker.account acct).qty o = 0) →
        r.broker.cash acct - r.netDeposits acct = r.broker.realizedPnl acct ∧
        r.broker.realizedPnl acct = r.tradeFlow acct - r.feesPaid acct)) ∧
    (∀ (runs : Dict VenueId LedgerRun) (book : QuoteBook) (clock : VenueId → OutcomeId → ℚ)
        (acct : AccountId),
      let brokers := runs.mapVal fun _ r => r.broker
      (accountEquity brokers book clock acct).equity =
        (runs.sumBy fun _ r => r.netDeposits acct)
          + (accountEquity brokers book clock acct).realized
          + (accountEquity brokers book clock acct).unrealized
          - brokers.sumBy fun _ b => (b.account acct).carriedFees) := by
  have hmoney : ∀ (r : LedgerRun) (acct : AccountId),
      r.broker.cash acct + (r.broker.account acct).costBasis
          + (r.broker.account acct).carriedFees - r.broker.realizedPnl acct
        = r.netDeposits acct := by
    intro r acct
    have h := r.atCost acct
    rw [AccountState.atCost, ← r.inv.1] at h
    exact h
  refine ⟨fun r acct => ⟨hmoney r acct, (r.inv.2 acct).realized, fun hclosed => ?_⟩,
    fun runs book clock acct => ?_⟩
  · -- with nothing held there is no cost basis, and no fee is carried
    have hcost : (r.broker.account acct).costBasis = 0 :=
      Dict.sumBy_eq_zero fun o => by rw [contrib_costBasis, hclosed o, zero_mul]
    have hfees : (r.broker.account acct).carriedFees = 0 :=
      Dict.sumBy_eq_zero fun o => by
        rw [contrib_carriedFees, (r.inv.2 acct).closed o (hclosed o)]
    have hm := hmoney r acct
    have hc := r.cash_eq acct
    rw [hcost, hfees] at hm
    constructor <;> linarith
  · have hnet : (runs.sumBy fun _ r => r.netDeposits acct) =
        (runs.mapVal fun _ r => r.broker).sumBy fun _ b =>
          b.cash acct + (b.account acct).costBasis + (b.account acct).carriedFees
            - b.realizedPnl acct := by
      rw [Dict.sumBy_mapVal]
      congr 1
      funext _ r
      exact (hmoney r acct).symm
    simp only [accountEquity_equity, hnet, Dict.sumBy_sub, Dict.sumBy_add]
    simp only [accountEquity]
    ring

/-! ## A run -/

namespace KalshiYes

theorem quote_range : (0 : ℚ) ≤ 45 / 100 ∧ (1 / 2 : ℚ) ≤ 1 ∧ (45 / 100 : ℚ) ≤ 1 / 2 := by
  norm_num

/-- Both sides of one contract, ten deep. -/
def quote : Quote where
  outcomeId := "k-yes"
  bid := 45 / 100
  ask := 1 / 2
  bidSize := some 10
  askSize := some 10
  bid_nonneg := quote_range.1
  ask_le_one := quote_range.2.1
  bid_le_ask := quote_range.2.2

def book : QuoteBook := (QuoteBook.mk Dict.empty (some defaultMaxAgeS)).upsert 0 quote

def adapter : PaperExecutionAdapter := .new "kalshi" .kalshi 0

def buy (qty : ℚ) : LedgerOp := .applyFill book 0 "default" "k-yes" true qty (1 / 2) none

def sell (qty : ℚ) : LedgerOp := .applyFill book 0 "default" "k-yes" false qty (2 / 5) none

/-- Funded, bought, sold in part, and settled. -/
def settledOps : List LedgerOp :=
  [.deposit "default" 100, buy 10, sell 4, .settleOutcomeAsync "k-yes" 1 "venue"]

theorem legal_settledOps : Runs.Guarded step (fun a op => op.Legal a) adapter settledOps := by
  have hheld : (4 : ℚ) ≤
      ((Runs.run step adapter [.deposit "default" 100, buy 10]).account "default").qty "k-yes" := by
    decide +kernel
  exact ⟨trivial, ⟨by norm_num, fun hsell => nomatch hsell⟩,
    ⟨by norm_num, fun _ => hheld⟩, trivial, trivial⟩

def settled : LedgerRun := ⟨"kalshi", .kalshi, 0, settledOps, legal_settledOps⟩

theorem closed_settled (o : OutcomeId) : (settled.broker.account "default").qty o = 0 := by
  have hpositions : (settled.broker.account "default").positions =
      Dict.empty.set "k-yes" 0 := by decide +kernel
  rw [AccountState.qty, hpositions, Dict.getD_set]
  split
  · rfl
  · rfl

end KalshiYes

open KalshiYes in
/-- What the run leaves above its deposit is what was realized. -/
theorem ledger_conservation_settled :
    settled.broker.cash "default" - settled.netDeposits "default" =
        settled.broker.realizedPnl "default" ∧
      settled.broker.realizedPnl "default" =
        settled.tradeFlow "default" - settled.feesPaid "default" ∧
      settled.netDeposits "default" = 100 ∧ 0 < settled.broker.realizedPnl "default" := by
  obtain ⟨hcash, hrealized⟩ :=
    (ledger_conservation.1 settled "default").2.2 closed_settled
  exact ⟨hcash, hrealized, by decide +kernel, by decide +kernel⟩

end Arbys
