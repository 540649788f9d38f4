import Mathlib.Algebra.BigOperators.Group.Finset.Piecewise
import Arbys.Audit
import Arbys.Ledger
import Arbys.TicketLedger

/-!
# What the brokers made is what their tickets scored

A broker pools what it buys into one average and one carried fee for each
outcome; `_score_ticket` scores a ticket on its own fills. Both are measured
by `profitAt`: what an account would have made if every outcome resolved at
its value. A buy adds the gain of its fill to it, a settlement at that value
adds nothing, and once nothing is held it is the realized P&L.
-/

namespace Arbys

open AccountState PaperExecutionAdapter PaperSystem

namespace AccountState

/-- What the account has made if every outcome resolves at its value. -/
def profitAt (value : OutcomeId → ℚ) (st : AccountState) : ℚ :=
  st.realizedPnl + st.holdings value - st.costBasis - st.carriedFees

theorem Movement.profitAt {v : VenueId} {o : OutcomeId} {st st' : AccountState}
    {dCash dRealized qty' avg' fees' : ℚ} (value : OutcomeId → ℚ)
    (m : Movement v o st st' dCash dRealized qty' avg' fees') :
    st'.profitAt value = st.profitAt value + (dRealized + value o * (qty' - st.qty o)
      - (qty' * avg' - st.qty o * st.avg o) - (fees' - st.openFees o)) := by
  simp only [AccountState.profitAt, m.realizedPnl, m.holdings value, m.costBasis, m.carriedFees]
  ring

variable {st : AccountState} (value : OutcomeId → ℚ)

/-- A buy adds what its contracts resolve at, less what they cost. -/
theorem profitAt_buy (h : Books st) (v : VenueId) (o : OutcomeId) {qty : ℚ} (hq : 0 < qty)
    (px fee : ℚ) :
    (st.bookFill v o true qty px fee).profitAt value =
      st.profitAt value + ((value o - px) * qty - fee) := by
  have m := movement_buy st v o qty px fee
  have hpos : 0 < st.qty o + qty := by linarith [h.long o]
  rw [if_pos hpos] at m
  rw [m.profitAt value, mul_div_cancel₀ _ (ne_of_gt hpos)]
  ring

/-- A settlement at the value of the outcome realizes what was expected of it. -/
theorem profitAt_settle (h : Books st) (v : VenueId) (o : OutcomeId) :
    (st.settle v o (value o)).profitAt value = st.profitAt value := by
  by_cases hq : st.qty o = 0
  · rw [settle_of_qty_zero hq]
  · have hpos : 0 < st.qty o := lt_of_le_of_ne (h.long o) (Ne.symm hq)
    rw [(movement_settle st v o (value o) hq).profitAt value, feeShare_whole hpos (le_refl _)]
    ring

/-- With nothing held, all of it is realized. -/
theorem profitAt_of_flat (h : Books st) (hflat : ∀ o, st.qty o = 0) :
    st.profitAt value = st.realizedPnl := by
  have hheld : st.holdings value = 0 :=
    Dict.sumBy_eq_zero fun o => by rw [contrib_holdings, hflat o, mul_zero]
  have hcost : st.costBasis = 0 :=
    Dict.sumBy_eq_zero fun o => by rw [contrib_costBasis, hflat o, zero_mul]
  have hfees : st.carriedFees = 0 :=
    Dict.sumBy_eq_zero fun o => by rw [contrib_carriedFees, h.closed o (hflat o)]
  rw [profitAt, hheld, hcost, hfees]
  ring

end AccountState

/-! ## The runs -/

/-- An order that filled, and the ticket it was placed for. -/
structure Trade where
  ticketId : TicketId
  order : Order
  fill : Fill

/-- What a trade makes when its outcome resolves. -/
def Trade.gain (value : OutcomeId → ℚ) (t : Trade) : ℚ :=
  (value t.order.outcomeId - t.fill.price) * t.order.qty - t.fill.fee

/-- A buy that fills, for a ticket of the account, or a settlement at the value
of the outcome. -/
def TicketTrade (owner : TicketId → AccountId) (value : OutcomeId → ℚ) (s : PaperSystem) :
    PaperOp → Prop
  | .placeOrder v book now acct o isBuy qty limitPrice ticketId =>
      isBuy = true ∧ 0 < qty ∧ ticketId.map owner = some acct ∧
        ((s.brokers.get? v).any fun a =>
          (a.applyFill book now acct o isBuy qty limitPrice ticketId).fill.isSome) = true
  | .settleOutcomeAsync _ o resolvedValue _ => resolvedValue = value o
  | .closeAlreadySettled .. => False
  | .sweepOnce .. => False

instance (owner : TicketId → AccountId) (value : OutcomeId → ℚ) (s : PaperSystem) :
    ∀ op, Decidable (TicketTrade owner value s op)
  | .placeOrder .. => inferInstanceAs (Decidable (_ ∧ _ ∧ _ ∧ _))
  | .settleOutcomeAsync _ o resolvedValue _ => inferInstanceAs (Decidable (resolvedValue = value o))
  | .closeAlreadySettled .. => isFalse id
  | .sweepOnce .. => isFalse id

/-- The step settles an outcome on a venue. -/
def PaperOp.settles (v : VenueId) (o : OutcomeId) : PaperOp → Bool
  | .settleOutcomeAsync w p _ _ => w = v && p = o
  | _ => false

/-- Whatever is bought is settled afterwards. -/
def SettledLater : List PaperOp → Prop
  | [] => True
  | .placeOrder v _ _ _ o _ _ _ _ :: ops =>
      ops.any (PaperOp.settles v o) = true ∧ SettledLater ops
  | _ :: ops => SettledLater ops

/-- Brokers and tables before the first trade. -/
structure Untraded (s : PaperSystem) : Prop where
  realized : ∀ v a, s.brokers.get? v = some a → ∀ j, a.realizedPnl j = 0
  flat : ∀ v a, s.brokers.get? v = some a → ∀ j o,
    (a.account j).qty o = 0 ∧ (a.account j).openFees o = 0 ∧ (a.account j).realizedOn o = 0
  tables : s.db.orders = [] ∧ s.db.fills = [] ∧ s.db.settlements = []

/-- The tables hold the trades made, and the brokers' accounts have made what
the trades gain. -/
structure TradedAs (scope : AccountId) (owner : TicketId → AccountId) (value : OutcomeId → ℚ)
    (s : PaperSystem) (trades : List Trade) : Prop where
  orders : s.db.orders = trades.map fun t => (scope, t.order, none)
  fills : s.db.fills = trades.map (·.fill)
  joined : ∀ t ∈ trades, t.order.ticketId = some t.ticketId ∧ t.order.isBuy = true ∧
    t.fill.orderId = t.order.id
  drawn : ∀ t ∈ trades, t.order.id.venueId = t.order.venueId ∧
    ∃ a, s.brokers.get? t.order.venueId = some a ∧ t.order.id.serial < a.log.drawn
  nodup : (trades.map (·.order.id)).Nodup
  settlements : ∀ row ∈ s.db.settlements, row.resolvedValue = value row.outcomeId
  books : ∀ v a, s.brokers.get? v = some a → ∀ j, Books (a.account j)
  profit : ∀ j, s.brokers.total (fun a => (a.account j).profitAt value) =
    ((trades.filter fun t => owner t.ticketId = j).map (Trade.gain value)).sum

/-- What is held, and what was bought and has no settlement row yet, is
settled by a step to come. -/
structure Pending (s : PaperSystem) (ops : List PaperOp) : Prop where
  held : ∀ j v o, s.brokers.qtyOn j v o ≠ 0 → ops.any (PaperOp.settles v o) = true
  unrecorded : ∀ row ∈ s.db.orders, s.db.hasSettlementRow row.2.1.outcomeId = true ∨
    ops.any (PaperOp.settles row.2.1.venueId row.2.1.outcomeId) = true

section Run

variable {scope : AccountId} {owner : TicketId → AccountId} {value : OutcomeId → ℚ}
  {s : PaperSystem} {trades : List Trade}

theorem books_of_untraded (h : Untraded s) {v : VenueId} {a : PaperExecutionAdapter}
    (ha : s.brokers.get? v = some a) (j : AccountId) : Books (a.account j) := by
  have hflat := h.flat v a ha j
  refine ⟨fun o => (hflat o).1.ge, fun o _ => (hflat o).2.1, ?_⟩
  have hsum : (a.account j).realizedSum = 0 :=
    Dict.sumBy_eq_zero fun o => by rw [contrib_realizedSum, (hflat o).2.2]
  rw [hsum]
  exact h.realized v a ha j

theorem Untraded.tradedAs (h : Untraded s) : TradedAs scope owner value s [] := by
  obtain ⟨horders, hfills, hsettlements⟩ := h.tables
  constructor
  · exact horders
  · exact hfills
  · rintro t ⟨⟩
  · rintro t ⟨⟩
  · exact List.nodup_nil
  · intro row hrow
    rw [hsettlements] at hrow
    cases hrow
  · exact fun v a ha j => books_of_untraded h ha j
  · intro j
    refine Dict.sumBy_eq_zero fun v => ?_
    cases ha : s.brokers.adapters.get? v with
    | none => exact Dict.contrib_of_get?_none ha
    | some a =>
        rw [Dict.contrib_of_get? ha]
        show (a.account j).profitAt value = 0
        rw [profitAt_of_flat value (books_of_untraded h ha j) fun o => (h.flat v a ha j o).1]
        exact h.realized v a ha j

theorem Untraded.pending (h : Untraded s) (ops : List PaperOp) : Pending s ops := by
  constructor
  · intro j v o hne
    cases ha : s.brokers.get? v with
    | none => exact absurd (Brokers.qtyOn_of_none ha j o) hne
    | some a =>
        rw [Brokers.qtyOn_of_some ha] at hne
        exact absurd (h.flat v a ha j o).1 hne
  · intro row hrow
    rw [h.tables.1] at hrow
    cases hrow

/-- An id drawn stays drawn. -/
theorem drawn_put {b : Brokers} {a a' : PaperExecutionAdapter} {v : VenueId} {n : ℕ}
    (ha : b.get? a'.venueId = some a) (hle : a.log.drawn ≤ a'.log.drawn)
    (h : ∃ x, b.get? v = some x ∧ n < x.log.drawn) :
    ∃ x, (b.put a').get? v = some x ∧ n < x.log.drawn := by
  obtain ⟨x, hx, hlt⟩ := h
  rw [Brokers.get?_put]
  split
  · rename_i hv
    rw [hv, ha, Option.some.injEq] at hx
    subst hx
    exact ⟨a', rfl, lt_of_lt_of_le hlt hle⟩
  · exact ⟨x, hx, hlt⟩

theorem books_put {b : Brokers} {a' : PaperExecutionAdapter}
    (h : ∀ v a, b.get? v = some a → ∀ j, Books (a.account j))
    (hnew : ∀ j, Books (a'.account j)) :
    ∀ v a, (b.put a').get? v = some a → ∀ j, Books (a.account j) := by
  intro v a hget j
  rw [Brokers.get?_put] at hget
  split at hget
  · cases hget
    exact hnew j
  · exact h v a hget j

/-- The id a broker draws next is of no trade made. -/
theorem TradedAs.id_ne (h : TradedAs scope owner value s trades) {a : PaperExecutionAdapter}
    (ha : s.brokers.get? a.venueId = some a) {t : Trade} (ht : t ∈ trades) :
    t.order.id ≠ ⟨a.venueId, a.log.drawn⟩ := by
  intro heq
  obtain ⟨hvenue, b, hb, hlt⟩ := h.drawn t ht
  rw [heq] at hvenue hlt
  rw [← hvenue, ha, Option.some.injEq] at hb
  subst hb
  exact lt_irrefl _ hlt

/-- **A buy** appends one trade. -/
theorem TradedAs.buy (h : TradedAs scope owner value s trades) {v : VenueId} {book : QuoteBook}
    {now : ℚ} {acct : AccountId} {o : OutcomeId} {isBuy : Bool} {qty limit : ℚ}
    {ticketId : Option TicketId}
    (hop : TicketTrade owner value s (.placeOrder v book now acct o isBuy qty limit ticketId)) :
    ∃ t : Trade, t.order.venueId = v ∧ t.order.outcomeId = o ∧
      TradedAs scope owner value
        (step scope s (.placeOrder v book now acct o isBuy qty limit ticketId)) (trades ++ [t]) := by
  obtain ⟨rfl, hq, howner, hfills⟩ := hop
  obtain ⟨ticket, rfl, rfl⟩ := Option.map_eq_some_iff.mp howner
  cases ha : s.brokers.get? v with
  | none => rw [ha] at hfills; cases hfills
  | some a =>
      obtain rfl := Brokers.venueId_of_get? ha
      rw [ha, Option.any_some] at hfills
      rcases applyFill_cases a book now (owner ticket) o true qty limit (some ticket) with
        ⟨_, _, hr⟩ | ⟨_, _, _, _, _, hr⟩ | ⟨px, _, _, _, hr⟩
      · rw [hr] at hfills
        cases hfills
      · rw [hr] at hfills
        cases hfills
      · -- the order fills: one order row, one fill row and one trade are appended
        let r := a.accept (owner ticket) o true qty limit (some ticket) px
        let t : Trade := ⟨ticket, r.order, fillOf a ⟨a.venueId, o, true, qty, limit⟩ px⟩
        have hstep : step scope s (.placeOrder a.venueId book now (owner ticket) o true qty limit
            (some ticket)) =
            ⟨s.brokers.put r.adapter,
              s.db.writeAll scope (r.adapter.emitOrderEvents (owner ticket) r.order r.fill none)⟩ := by
          rw [step, onBroker_of_some ha, placeOrder, hr]
          rfl
        have hread : s.brokers.get? r.adapter.venueId = some a := ha
        refine ⟨t, rfl, rfl, ?_⟩
        rw [hstep]
        constructor
        · show s.db.orders ++ [(scope, r.order, none)] = _
          rw [h.orders, List.map_append]
          rfl
        · show s.db.fills ++ [_] = _
          rw [h.fills, List.map_append]
          rfl
        · intro t' ht'
          rcases List.mem_append.mp ht' with ht' | ht'
          · exact h.joined t' ht'
          · obtain rfl := List.mem_singleton.mp ht'
            exact ⟨rfl, rfl, rfl⟩
        · intro t' ht'
          rcases List.mem_append.mp ht' with ht' | ht'
          · obtain ⟨hvenue, hdrawn⟩ := h.drawn t' ht'
            exact ⟨hvenue, drawn_put hread (Nat.le_succ _) hdrawn⟩
          · obtain rfl := List.mem_singleton.mp ht'
            have hput : (s.brokers.put r.adapter).get? a.venueId = some r.adapter := by
              rw [Brokers.get?_put]
              exact if_pos rfl
            exact ⟨rfl, _, hput, Nat.lt_succ_self _⟩
        · rw [List.map_append, List.nodup_append']
          refine ⟨h.nodup, List.nodup_singleton _, ?_⟩
          intro id hid hid'
          obtain ⟨t', ht', rfl⟩ := List.mem_map.mp hid
          exact h.id_ne ha ht' (List.mem_singleton.mp hid')
        · exact h.settlements
        · refine books_put h.books fun j => ?_
          rw [account_accept]
          split
          · exact (books_buy (h.books _ a ha _) a.venueId o hq px _).1
          · exact h.books _ a ha j
        · intro j
          rw [Brokers.total_put _ hread, h.profit j, List.filter_append,
            List.map_append, List.sum_append, account_accept]
          congr 1
          by_cases hj : owner ticket = j
          · subst hj
            rw [if_pos rfl, profitAt_buy value (h.books _ a ha _) a.venueId o hq,
              List.filter_cons_of_pos (by simp [t])]
            simp [t, r, Trade.gain, fillOf, accept, PaperExecutionAdapter.orderOf]
          · rw [if_neg (Ne.symm hj), List.filter_cons_of_neg (by simpa [t] using hj)]
            simp

/-- A settlement writes no order and no fill. -/
theorem onSettled_trades (db : Db) (o : OutcomeId) (x : ℚ) (v : VenueId) (source : String)
    (closed : List (AccountId × ℚ × ℚ × ℚ)) :
    (db.onSettled o x v source closed).orders = db.orders ∧
      (db.onSettled o x v source closed).fills = db.fills := by
  simp only [Db.onSettled, Db.insertPaperSettlement]
  induction closed generalizing db with
  | nil => exact ⟨rfl, rfl⟩
  | cons c closed ih => exact ih _

/-- **A settlement** at the value of its outcome leaves the trades and what
they gain. -/
theorem TradedAs.settle (h : TradedAs scope owner value s trades) (v : VenueId) (o : OutcomeId)
    (source : String) :
    TradedAs scope owner value (step scope s (.settleOutcomeAsync v o (value o) source)) trades := by
  cases ha : s.brokers.get? v with
  | none => rwa [step, onBroker_of_none ha]
  | some a =>
      obtain rfl := Brokers.venueId_of_get? ha
      obtain ⟨horders, hfills⟩ :=
        onSettled_trades s.db o (value o) a.venueId source (a.closedBy o (value o))
      have hrows := (onSettled_tables s.db o (value o) a.venueId source (a.closedBy o (value o))).2.2
      have hread : s.brokers.get? (a.settleOutcomeAsync o (value o) source).1.venueId = some a :=
        ha
      rw [step, onBroker_of_some ha]
      constructor
      · exact horders.trans h.orders
      · exact hfills.trans h.fills
      · exact h.joined
      · intro t ht
        obtain ⟨hvenue, hdrawn⟩ := h.drawn t ht
        exact ⟨hvenue, drawn_put hread (le_refl _) hdrawn⟩
      · exact h.nodup
      · intro row hrow
        have hrow' : row ∈ s.db.settlements ++ [⟨o, value o, source⟩] := hrows ▸ hrow
        rcases List.mem_append.mp hrow' with hrow' | hrow'
        · exact h.settlements row hrow'
        · obtain rfl := List.mem_singleton.mp hrow'
          rfl
      · refine books_put h.books fun j => ?_
        rw [account_settleOutcomeAsync]
        exact (books_settle (h.books _ a ha j) a.venueId o (value o)).1
      · intro j
        rw [Brokers.total_put _ hread,
          account_settleOutcomeAsync, profitAt_settle value (h.books _ a ha j), sub_self, add_zero,
          h.profit j]

/-! ### What is still to be settled -/

/-- A step is no settlement, or it settles one outcome. -/
theorem any_settles_cons {op : PaperOp} {ops : List PaperOp} {v : VenueId} {o : OutcomeId}
    (h : (op :: ops).any (PaperOp.settles v o) = true) (hop : op.settles v o = false) :
    ops.any (PaperOp.settles v o) = true := by
  rwa [List.any_cons, hop, Bool.false_or] at h

theorem Pending.buy {v : VenueId} {book : QuoteBook} {now : ℚ} {acct : AccountId} {o : OutcomeId}
    {isBuy : Bool} {qty limit : ℚ} {ticketId : Option TicketId} {ops : List PaperOp} {t : Trade}
    (hp : Pending s (.placeOrder v book now acct o isBuy qty limit ticketId :: ops))
    (hlater : ops.any (PaperOp.settles v o) = true) (h : TradedAs scope owner value s trades)
    (ht : t.order.venueId = v ∧ t.order.outcomeId = o)
    (h' : TradedAs scope owner value
      (step scope s (.placeOrder v book now acct o isBuy qty limit ticketId)) (trades ++ [t])) :
    Pending (step scope s (.placeOrder v book now acct o isBuy qty limit ticketId)) ops := by
  obtain ⟨hrows, hoff, -⟩ := placeOrder_effect s scope v book now acct o isBuy qty limit ticketId
  constructor
  · intro j w o' hne
    by_cases hkey : (j, w, o') = (acct, v, o)
    · cases hkey
      exact hlater
    · have hsame := (hoff j w o' hkey).1
      exact any_settles_cons (hp.held j w o' fun hzero => hne (hsame.trans hzero)) rfl
  · intro row hrow
    rw [h'.orders, List.map_append, List.mem_append] at hrow
    rcases hrow with hrow | hrow
    · rw [← h.orders] at hrow
      rcases hp.unrecorded row hrow with hhas | hany
      · left
        unfold Db.hasSettlementRow at hhas ⊢
        exact hrows ▸ hhas
      · exact Or.inr (any_settles_cons hany rfl)
    · obtain rfl := List.mem_singleton.mp hrow
      right
      rw [ht.1, ht.2]
      exact hlater

/-- A settlement of a venue with a broker leaves a record. -/
theorem hasSettlementRow_settled {a : PaperExecutionAdapter} {v : VenueId}
    (ha : s.brokers.get? v = some a) (o o' : OutcomeId) (x : ℚ) (source : String) :
    (step scope s (.settleOutcomeAsync v o x source)).db.hasSettlementRow o' =
      (s.db.hasSettlementRow o' || decide (o = o')) := by
  have hrows := (onSettled_tables s.db o x a.venueId source (a.closedBy o x)).2.2
  rw [step, onBroker_of_some ha]
  show (Db.onSettled s.db o x a.venueId source (a.closedBy o x)).settlements.any _ = _
  rw [hrows, List.any_append]
  simp [Db.hasSettlementRow]

theorem Pending.settle {v : VenueId} {o : OutcomeId} {x : ℚ} {source : String}
    {ops : List PaperOp} (hp : Pending s (.settleOutcomeAsync v o x source :: ops))
    (h : TradedAs scope owner value s trades)
    (h' : TradedAs scope owner value (step scope s (.settleOutcomeAsync v o x source)) trades) :
    Pending (step scope s (.settleOutcomeAsync v o x source)) ops := by
  have hother : ∀ {w : VenueId} {p : OutcomeId}, ¬ (w = v ∧ p = o) →
      PaperOp.settles w p (.settleOutcomeAsync v o x source) = false := by
    intro w p hne
    simp only [PaperOp.settles, Bool.and_eq_false_iff, decide_eq_false_iff_not]
    by_cases hv : v = w
    · exact Or.inr fun ho => hne ⟨hv.symm, ho.symm⟩
    · exact Or.inl hv
  constructor
  · intro j w o' hne
    have hqty := qtyOn_settle s scope v o x source j w o'
    by_cases hkey : w = v ∧ o' = o
    · rw [if_pos hkey] at hqty
      exact absurd hqty hne
    · rw [if_neg hkey] at hqty
      exact any_settles_cons (hp.held j w o' fun hzero => hne (hqty.trans hzero)) (hother hkey)
  · intro row hrow
    rw [h'.orders, ← h.orders] at hrow
    obtain ⟨t, ht, rfl⟩ := List.mem_map.mp (h.orders ▸ hrow)
    obtain ⟨-, b, hb, -⟩ := h.drawn t ht
    by_cases hkey : t.order.venueId = v ∧ t.order.outcomeId = o
    · left
      obtain ⟨hv, ho⟩ := hkey
      rw [hasSettlementRow_settled (hv ▸ hb), ho]
      simp
    · rcases hp.unrecorded _ hrow with hhas | hany
      · left
        cases ha : s.brokers.get? v with
        | none => rwa [step, onBroker_of_none ha]
        | some a => rw [hasSettlementRow_settled ha, hhas, Bool.true_or]
      · exact Or.inr (any_settles_cons hany (hother hkey))

/-- **A run** of trades and settlements ends with the trades in the tables and
everything settled. -/
theorem TradedAs.run {ops : List PaperOp} (h : TradedAs scope owner value s trades)
    (hguard : Runs.Guarded (step scope) (TicketTrade owner value) s ops)
    (hlater : SettledLater ops) (hp : Pending s ops) :
    ∃ trades', TradedAs scope owner value (Runs.run (step scope) s ops) trades' ∧
      Pending (Runs.run (step scope) s ops) [] := by
  induction ops generalizing s trades with
  | nil => exact ⟨trades, h, hp⟩
  | cons op ops ih =>
      obtain ⟨hop, hguard⟩ := hguard
      cases op with
      | placeOrder v book now acct o isBuy qty limit ticketId =>
          obtain ⟨hsettled, hlater⟩ := hlater
          obtain ⟨t, hv, ho, h'⟩ := h.buy hop
          exact ih h' hguard hlater (hp.buy hsettled h ⟨hv, ho⟩ h')
      | settleOutcomeAsync v o x source =>
          obtain rfl : x = value o := hop
          have h' := h.settle v o source
          exact ih h' hguard hlater (hp.settle h h')
      | closeAlreadySettled v o => exact absurd hop id
      | sweepOnce accountIds minTransfer => exact absurd hop id

/-! ### The scores -/

/-- The legs of a ticket are its trades. -/
theorem legsByTicket_eq (h : TradedAs scope owner value s trades) (ticket : TicketId) :
    s.db.legsByTicket ticket =
      (trades.filter fun t => t.ticketId = ticket).map fun t => s.db.legOf (scope, t.order, none) := by
  rw [Db.legsByTicket, h.orders, List.filter_map, List.map_map]
  congr 1
  refine List.filter_congr fun t ht => ?_
  simp [(h.joined t ht).1]

/-- Once its outcomes are settled, a ticket scores what its trades gain. -/
theorem realizedProfit_eq (h : TradedAs scope owner value s trades)
    (hrows : ∀ row ∈ s.db.orders, s.db.hasSettlementRow row.2.1.outcomeId = true)
    {ticket : TicketId} (hticket : ∃ t ∈ trades, t.ticketId = ticket) :
    s.db.realizedProfit ticket =
      some ((trades.filter fun t => t.ticketId = ticket).map (Trade.gain value)).sum := by
  have hnodup : (s.db.fills.map (·.orderId)).Nodup := by
    rw [h.fills, List.map_map]
    have hids : trades.map ((fun f : Fill => f.orderId) ∘ fun t => t.fill) =
        trades.map (·.order.id) := List.map_congr_left fun t ht => (h.joined t ht).2.2
    rw [hids]
    exact h.nodup
  -- the gain of a leg is read off its join
  let gain (leg : TicketLeg) : ℚ :=
    (if leg.order.isBuy then 1 else -1) * (value leg.order.outcomeId - leg.fillPrice.getD 0) *
      leg.order.qty - leg.fee
  have hjoin : ∀ t ∈ trades, s.db.fillsByOrder.get? t.order.id = some (t.fill.price, t.fill.fee) := by
    intro t ht
    rw [← (h.joined t ht).2.2]
    exact Db.get?_fillsByOrder hnodup (h.fills ▸ List.mem_map_of_mem ht)
  have hgain : ∀ t ∈ trades, gain (s.db.legOf (scope, t.order, none)) = t.gain value := by
    intro t ht
    simp only [gain, Db.legOf, hjoin t ht, (h.joined t ht).2.1, Option.map_some, Option.getD_some,
      if_true, one_mul, Trade.gain]
  have hne : s.db.legsByTicket ticket ≠ [] := by
    obtain ⟨t, ht, hkey⟩ := hticket
    rw [legsByTicket_eq h]
    exact List.ne_nil_of_mem (List.mem_map_of_mem (List.mem_filter.mpr ⟨ht, by simpa using hkey⟩))
  have hscore := scoreTicket_eq_sum s.db.settledValues gain hne (by
    intro leg hleg
    rw [legsByTicket_eq h] at hleg
    obtain ⟨t, ht, rfl⟩ := List.mem_map.mp hleg
    obtain ⟨ht, -⟩ := List.mem_filter.mp ht
    refine ⟨t.fill.price, value t.order.outcomeId, ?_, ?_, ?_⟩
    · simp [Db.legOf, hjoin t ht]
    · have hrow := hrows (scope, t.order, none) (h.orders ▸ List.mem_map_of_mem ht)
      refine Db.get?_settledValues hrow fun row hmem ho => ?_
      rw [h.settlements row hmem, ho]
      rfl
    · simp [gain, Db.legOf, hjoin t ht])
  rw [Db.realizedProfit, hscore, legsByTicket_eq h, List.map_map]
  congr 2
  exact List.map_congr_left fun t ht => hgain t (List.mem_filter.mp ht).1

theorem mem_tickets (h : TradedAs scope owner value s trades) {ticket : TicketId} :
    ticket ∈ s.db.tickets ↔ ∃ t ∈ trades, t.ticketId = ticket := by
  rw [Db.tickets, List.mem_toFinset, List.mem_filterMap, h.orders]
  constructor
  · rintro ⟨row, hrow, hticket⟩
    obtain ⟨t, ht, rfl⟩ := List.mem_map.mp hrow
    exact ⟨t, ht, Option.some.inj ((h.joined t ht).1.symm.trans hticket)⟩
  · rintro ⟨t, ht, rfl⟩
    exact ⟨_, List.mem_map_of_mem ht, (h.joined t ht).1⟩

/-- A sum taken class by class. -/
theorem sum_classes {ι κ : Type} [DecidableEq κ] (classes : Finset κ) (key : ι → κ) (gain : ι → ℚ)
    (l : List ι) (h : ∀ x ∈ l, key x ∈ classes) :
    ∑ k ∈ classes, ((l.filter fun x => key x = k).map gain).sum = (l.map gain).sum := by
  induction l with
  | nil => simp
  | cons x l ih =>
      have hrest := ih fun y hy => h y (List.mem_cons_of_mem _ hy)
      have hhead : ∀ k ∈ classes, (((x :: l).filter fun x => key x = k).map gain).sum =
          (if key x = k then gain x else 0) + ((l.filter fun x => key x = k).map gain).sum := by
        intro k _
        by_cases hk : key x = k
        · rw [List.filter_cons_of_pos (by simpa using hk), if_pos hk]
          simp
        · rw [List.filter_cons_of_neg (by simpa using hk), if_neg hk, zero_add]
      rw [Finset.sum_congr rfl hhead, Finset.sum_add_distrib, hrest,
        Finset.sum_ite_eq classes (key x), if_pos (h x List.mem_cons_self)]
      simp

end Run

/-- **Broker P&L is the sum of the ticket scores.** -/
theorem totalRealized_eq_sum_scores (scope : AccountId) (owner : TicketId → AccountId)
    (value : OutcomeId → ℚ) (s : PaperSystem) (hs : Untraded s) (ops : List PaperOp)
    (htrades : Runs.Guarded (step scope) (TicketTrade owner value) s ops)
    (hsettled : SettledLater ops) :
    let s' := Runs.run (step scope) s ops
    (∀ ticket ∈ s'.db.tickets, (s'.db.realizedProfit ticket).isSome) ∧
      ∀ j, s'.brokers.totalRealized j =
        ∑ ticket ∈ s'.db.tickets with owner ticket = j, (s'.db.realizedProfit ticket).getD 0 := by
  intro s'
  obtain ⟨trades, h, hp⟩ := hs.tradedAs.run htrades hsettled (hs.pending ops)
  have hrows : ∀ row ∈ s'.db.orders, s'.db.hasSettlementRow row.2.1.outcomeId = true := by
    intro row hrow
    rcases hp.unrecorded row hrow with hhas | hany
    · exact hhas
    · cases hany
  have hscore : ∀ {ticket}, ticket ∈ s'.db.tickets → s'.db.realizedProfit ticket =
      some ((trades.filter fun t => t.ticketId = ticket).map (Trade.gain value)).sum :=
    fun hticket => realizedProfit_eq h hrows ((mem_tickets h).mp hticket)
  constructor
  · intro ticket hticket
    rw [hscore hticket]
    rfl
  · intro j
    -- nothing is held any more, so what the accounts have made is realized
    have hflat : s'.brokers.totalRealized j =
        s'.brokers.total fun a => (a.account j).profitAt value := by
      unfold Brokers.totalRealized Brokers.total
      apply Dict.sumBy_congr
      intro v
      cases ha : s'.brokers.adapters.get? v with
      | none => rw [Dict.contrib_of_get?_none ha, Dict.contrib_of_get?_none ha]
      | some a =>
          rw [Dict.contrib_of_get? ha, Dict.contrib_of_get? ha]
          refine (profitAt_of_flat value (h.books v a ha j) fun o => ?_).symm
          by_contra hne
          have hheld := hp.held j v o (by rwa [Brokers.qtyOn_of_some ha])
          cases hheld
    rw [hflat, h.profit j]
    refine (sum_classes (s'.db.tickets.filter fun ticket => owner ticket = j) (·.ticketId) _ _
      ?_).symm.trans ?_
    · intro t ht
      obtain ⟨ht, howner⟩ := List.mem_filter.mp ht
      exact Finset.mem_filter.mpr ⟨(mem_tickets h).mpr ⟨t, ht, rfl⟩, by simpa using howner⟩
    · refine Finset.sum_congr rfl fun ticket hticket => ?_
      obtain ⟨hticket, howner⟩ := Finset.mem_filter.mp hticket
      rw [hscore hticket, Option.getD_some, List.filter_filter]
      congr 2
      refine List.filter_congr fun t _ => ?_
      by_cases ht : t.ticketId = ticket
      · simp [ht, howner]
      · simp [ht]

/-! ## Two tickets on one game -/

namespace TwoTickets

def system : PaperSystem := ⟨TwoVenues.brokers, {}⟩

theorem untraded : Untraded system := by
  have hfresh : ∀ v a, system.brokers.get? v = some a → ∀ j, ∃ balances,
      a.account j = { ({} : AccountState) with balances := balances } := by
    intro v a ha j
    have hget : ∀ (w : VenueId) (fees : FeeModel), ∃ balances,
        ((PaperExecutionAdapter.new w fees 0).deposit "default" 1000).account j =
          { ({} : AccountState) with balances := balances } := by
      intro w fees
      rw [PaperExecutionAdapter.deposit, account_setAccount]
      split
      · exact ⟨_, rfl⟩
      · exact ⟨_, rfl⟩
    rw [system, TwoVenues.brokers, Brokers.get?_put, Brokers.get?_put] at ha
    split at ha
    · cases ha
      exact hget _ _
    · split at ha
      · cases ha
        exact hget _ _
      · cases ha
  constructor
  · intro v a ha j
    obtain ⟨balances, hj⟩ := hfresh v a ha j
    rw [PaperExecutionAdapter.realizedPnl, hj]
  · intro v a ha j o
    obtain ⟨balances, hj⟩ := hfresh v a ha j
    rw [hj]
    exact ⟨rfl, rfl, rfl⟩
  · exact ⟨rfl, rfl, rfl⟩

/-- The second ticket pays two cents more for the YES side. -/
def laterBook : QuoteBook :=
  TwoVenues.book.upsert 1 (TwoVenues.quote "p-yes" (46 / 100) (by norm_num) (by norm_num))

def leg (v : VenueId) (o : OutcomeId) (book : QuoteBook) (qty limit : ℚ) (ticket : TicketId) :
    PaperOp :=
  .placeOrder v book 1 "default" o true qty limit (some ticket)

def ops : List PaperOp :=
  [leg "polymarket_us" "p-yes" TwoVenues.book 10 (45 / 100) "first",
    leg "kalshi" "k-no" TwoVenues.book 10 (48 / 100) "first",
    leg "polymarket_us" "p-yes" laterBook 30 (46 / 100) "second",
    leg "kalshi" "k-no" laterBook 30 (48 / 100) "second",
    .settleOutcomeAsync "kalshi" "k-no" 1 "heuristic",
    .settleOutcomeAsync "polymarket_us" "p-yes" 0 "heuristic"]

end TwoTickets

open TwoTickets in
theorem totalRealized_eq_sum_scores_twoTickets :
    (Runs.run (step "default") system ops).brokers.totalRealized "default" =
      ∑ ticket ∈ (Runs.run (step "default") system ops).db.tickets with "default" = "default",
        ((Runs.run (step "default") system ops).db.realizedProfit ticket).getD 0 :=
  (totalRealized_eq_sum_scores "default" (fun _ => "default") NoWins.results.value system untraded
    ops (by decide +kernel) ⟨rfl, rfl, rfl, rfl, trivial⟩).2 "default"

end Arbys
