import Arbys.ArbEngine
import Arbys.TicketAtomicity

/-!
# A cross-venue ticket, end to end

What the detector promises, what the router does with it, and what settlement
pays. A leg is bought at its ask, so a broker without slippage previews it at
the price and cost the detector computed (`priceLeg_buys`); on two venues the
legs do not compete for cash, so the ticket is refused for want of funds or
fills whole (`submit_pair`); and a leg settled at `v` returns `v` a contract
for what it cost (`cash_settled_buy`, `realized_settled_buy`).
-/

namespace Arbys

open AccountState PaperExecutionAdapter Router

/-! ## Totals over the brokers -/

namespace Brokers

/-- A quantity summed over the brokers. -/
def total (b : Brokers) (f : PaperExecutionAdapter → ℚ) : ℚ := b.adapters.sumBy fun _ a => f a

/-- Free cash of an account over all venues. -/
def totalCash (b : Brokers) (acct : AccountId) : ℚ := b.total fun a => a.cash acct

/-- Realized P&L of an account over all venues. -/
def totalRealized (b : Brokers) (acct : AccountId) : ℚ := b.total fun a => a.realizedPnl acct

theorem total_put {b : Brokers} {a a' : PaperExecutionAdapter} (f : PaperExecutionAdapter → ℚ)
    (ha : b.get? a'.venueId = some a) : (b.put a').total f = b.total f + (f a' - f a) := by
  have h := Dict.sumBy_sub_sumBy (d := (b.put a').adapters) (e := b.adapters)
    (f := fun _ a => f a) (g := fun _ a => f a) a'.venueId
    (fun v hv => Dict.contrib_set_ne _ _ hv _)
  rw [put, Dict.contrib_set_self, Dict.contrib_of_get? ha] at h
  simp only [total, put]
  linarith

theorem get?_put_self (b : Brokers) {a : PaperExecutionAdapter} {v : VenueId}
    (hv : a.venueId = v) : (b.put a).get? v = some a := by
  rw [get?_put, if_pos hv.symm]

theorem get?_put_ne (b : Brokers) {a : PaperExecutionAdapter} {v : VenueId}
    (hv : v ≠ a.venueId) : (b.put a).get? v = b.get? v := by
  rw [get?_put, if_neg hv]

/-- Settle one outcome on the broker of one venue. -/
def settleAt (b : Brokers) (v : VenueId) (o : OutcomeId) (value : ℚ) (source : String) :
    Brokers :=
  b.modify v fun a => (a.settleOutcomeAsync o value source).1

theorem settleAt_of_get? {b : Brokers} {v : VenueId} {a : PaperExecutionAdapter}
    (ha : b.get? v = some a) (o : OutcomeId) (value : ℚ) (source : String) :
    b.settleAt v o value source = b.put (a.settleOutcomeAsync o value source).1 := by
  simp only [settleAt, modify, ha]

/-- A settlement adds to a total what it adds on its own broker. -/
theorem total_settleAt {b : Brokers} {v : VenueId} {a : PaperExecutionAdapter}
    (f : PaperExecutionAdapter → ℚ) (ha : b.get? v = some a) (o : OutcomeId) (value : ℚ)
    (source : String) :
    (b.settleAt v o value source).total f =
      b.total f + (f (a.settleOutcomeAsync o value source).1 - f a) := by
  have hv : a.venueId = v := venueId_of_get? ha
  subst hv
  rw [settleAt_of_get? ha]
  exact total_put f ha

theorem get?_settleAt_ne (b : Brokers) {v w : VenueId} (hw : w ≠ v) (o : OutcomeId) (value : ℚ)
    (source : String) : (b.settleAt v o value source).get? w = b.get? w := by
  exact (get?_modify b v w (f := fun a => (a.settleOutcomeAsync o value source).1)
    fun _ => rfl).trans (if_neg hw)

/-- Two settlements on two venues add what each adds on its own broker. -/
theorem total_settleAt_two {b : Brokers} {v w : VenueId} {a c : PaperExecutionAdapter}
    (f : PaperExecutionAdapter → ℚ) (ha : b.get? v = some a) (hc : b.get? w = some c)
    (hw : w ≠ v) (o p : OutcomeId) (value value' : ℚ) (source : String) :
    ((b.settleAt v o value source).settleAt w p value' source).total f =
      b.total f + (f (a.settleOutcomeAsync o value source).1 - f a) +
        (f (c.settleOutcomeAsync p value' source).1 - f c) := by
  have hc' : (b.settleAt v o value source).get? w = some c := by
    rw [get?_settleAt_ne b hw, hc]
  rw [total_settleAt f hc', total_settleAt f ha]

end Brokers

/-! ## The ticket of an opportunity -/

/-- The order a leg is submitted as: its price is the limit. -/
def ArbLeg.toIntent (leg : ArbLeg) : IntentLeg where
  venueId := leg.venueId
  outcomeId := leg.outcomeId
  isBuy := leg.isBuy
  qty := leg.qty
  limitPrice := leg.price

/-- The ticket of an opportunity. -/
def ArbOpportunity.toIntent (opp : ArbOpportunity) (acct : AccountId)
    (ticketId : Option TicketId) : ExecutionIntent where
  eventGroupId := opp.eventGroupId
  accountId := acct
  legs := opp.legs.map ArbLeg.toIntent
  ticketId := ticketId

/-- A broker with a leg's fee model and no slippage previews the leg at the
price and cost the detector computed. -/
theorem priceLeg_buys {m : Market} {leg : ArbLeg} {group : EventGroupLeg} {qty : ℚ}
    {quote : Quote} {feeModel : FeeModel} (h : m.Buys leg group qty quote feeModel)
    {b : Brokers} {a : PaperExecutionAdapter} (ha : b.get? leg.venueId = some a)
    (hfees : m.fees.get? leg.venueId = some a.fees) (hslip : a.slippageBps = 0)
    {book : QuoteBook} {now : ℚ}
    (hquote : book.get now leg.outcomeId = m.quotes.get? leg.outcomeId) :
    priceLeg b book now leg.toIntent = .ok (leg.price, leg.cost) := by
  have hmodel : feeModel = a.fees := Option.some.inj (h.feeModel.symm.trans hfees)
  have hpx : a.applySlippage quote.ask true = quote.ask := by
    simp only [applySlippage, hslip, mul_zero, zero_div, add_zero, if_true]
    rw [if_neg (not_lt.mpr quote.ask_nonneg), if_neg (not_lt.mpr quote.ask_le_one)]
  have hpreview : a.previewFill book now leg.outcomeId true qty quote.ask =
      .ok (quote.ask, quote.ask * qty + a.fees.fee quote.ask qty true) := by
    rw [previewFill_buy (hquote.trans h.quoted) h.depth (le_of_eq hpx), hpx]
  have hget : b.get? leg.toIntent.venueId = some a := ha
  rw [priceLeg, hget, ArbLeg.cost, h.price, h.qty, h.fee, hmodel, ← hpreview, ← h.price, ← h.qty,
    ← h.isBuy]
  rfl

section Pair

variable {b : Brokers} {book : QuoteBook} {clock : ℕ → ℚ} {acct : AccountId} {group : GroupId}
  {ticketId : Option TicketId} {y n : ArbLeg} {ay an : PaperExecutionAdapter}

/-- What the preview holds against a priced buy: nothing, or the cash. -/
theorem previewLeg_buy (acct : AccountId) {leg : ArbLeg} {a : PaperExecutionAdapter} {now : ℚ}
    (ha : b.get? leg.venueId = some a) (hbuy : leg.isBuy = true)
    (hp : priceLeg b book now leg.toIntent = .ok (leg.price, leg.cost)) :
    (leg.cost ≤ a.cash acct ∧ previewLeg b book now acct leg.toIntent = none) ∨
    (a.cash acct < leg.cost ∧ previewLeg b book now acct leg.toIntent =
      some ⟨leg.venueId, leg.outcomeId, .insufficientFunds⟩) := by
  have hcash : (Option.map (fun a => a.cash acct) (b.get? leg.toIntent.venueId)).getD 0 =
      a.cash acct := by
    rw [ArbLeg.toIntent, ha]
    rfl
  have hbuy' : leg.toIntent.isBuy = true := hbuy
  simp only [previewLeg, hp, hcash, hbuy', true_and]
  rcases le_or_gt leg.cost (a.cash acct) with hle | hlt
  · exact .inl ⟨hle, if_neg (not_lt.mpr hle)⟩
  · exact .inr ⟨hlt, if_pos hlt⟩

/-- A ticket the preview holds something against changes nothing. -/
theorem submit_refused (intent : ExecutionIntent) {r : LegRejection} {rs : List LegRejection}
    (h : previewLegs b book clock intent.accountId 0 intent.legs = r :: rs) :
    submit b book clock intent = (b, .error (.preview (r :: rs))) := by
  simp only [submit, h]

/-- A ticket that passes the preview and commits every leg is filled. -/
theorem submit_committed {b : Brokers} {book : QuoteBook} {clock : ℕ → ℚ}
    (intent : ExecutionIntent) {c : Commit}
    (hpreview : previewLegs b book clock intent.accountId 0 intent.legs = [])
    (hc : commitLegs book (fun n => clock (intent.legs.length + n)) intent.accountId
      intent.ticketId 0 b intent.legs = c) (hok : c.failure = none) :
    submit b book clock intent = (c.brokers, .ok (c.applied.map fun e => e.2.1)) := by
  simp only [submit, hpreview, commitAtomically, hc, hok]

/-- The commit of two priced buys on two venues, each of which its broker can
pay for: the first leaves the second broker alone. -/
theorem commitLegs_pair (book : QuoteBook) (clock : ℕ → ℚ) (acct : AccountId) (ticketId : Option TicketId)
    (hy : b.get? y.venueId = some ay) (hn : b.get? n.venueId = some an)
    (hne : n.venueId ≠ y.venueId)
    (hpy : ∀ k, priceLeg b book (clock k) y.toIntent = .ok (y.price, y.cost))
    (hpn : ∀ k, priceLeg b book (clock k) n.toIntent = .ok (n.price, n.cost))
    (hly : y.cost ≤ ay.cash acct) (hln : n.cost ≤ an.cash acct) :
    ∃ applied, commitLegs book clock acct ticketId 0 b [y.toIntent, n.toIntent] =
      ⟨(b.put (ay.acceptLeg acct y.toIntent ticketId y.price).adapter).put
        (an.acceptLeg acct n.toIntent ticketId n.price).adapter, applied, none⟩ := by
  have hya : (ay.acceptLeg acct y.toIntent ticketId y.price).adapter.venueId = y.venueId :=
    (advance_acceptLeg acct ay y.toIntent ticketId y.price).venueId.trans
      (Brokers.venueId_of_get? hy)
  have hn1 : (b.put (ay.acceptLeg acct y.toIntent ticketId y.price).adapter).get?
      n.toIntent.venueId = some an := by
    rw [Brokers.get?_put_ne _ (by rw [hya]; exact hne)]
    exact hn
  have hpn1 : priceLeg (b.put (ay.acceptLeg acct y.toIntent ticketId y.price).adapter) book
      (clock 1) n.toIntent = .ok (n.price, n.cost) := by
    rw [(Brokers.advance_acceptLeg y.toIntent hy acct ticketId y.price).priceLeg]
    exact hpn 1
  have hfirst := commitLegs_cons_of_priced y.toIntent hy (hpy 0) hly ticketId [n.toIntent]
  have hsecond := commitLegs_cons_of_priced n.toIntent hn1 hpn1 hln ticketId []
  exact ⟨_, by rw [hfirst, hsecond]; rfl⟩

/-- **Two priced buys on two venues**: the ticket is refused for want of cash
and nothing moves, or both legs are accepted at the previewed prices. -/
theorem submit_pair (group : GroupId) (acct : AccountId) (ticketId : Option TicketId)
    (hy : b.get? y.venueId = some ay) (hn : b.get? n.venueId = some an)
    (hne : n.venueId ≠ y.venueId) (hby : y.isBuy = true) (hbn : n.isBuy = true)
    (hpy : ∀ k, priceLeg b book (clock k) y.toIntent = .ok (y.price, y.cost))
    (hpn : ∀ k, priceLeg b book (clock k) n.toIntent = .ok (n.price, n.cost)) :
    let intent : ExecutionIntent := ⟨group, acct, [y.toIntent, n.toIntent], ticketId⟩
    (¬ (y.cost ≤ ay.cash acct ∧ n.cost ≤ an.cash acct) ∧
      ∃ rejections, submit b book clock intent = (b, .error (.preview rejections)) ∧
        rejections ≠ [] ∧ ∀ r ∈ rejections, r.reason = .insufficientFunds) ∨
    ((y.cost ≤ ay.cash acct ∧ n.cost ≤ an.cash acct) ∧ ∃ orders,
      submit b book clock intent =
        ((b.put (ay.acceptLeg acct y.toIntent ticketId y.price).adapter).put
          (an.acceptLeg acct n.toIntent ticketId n.price).adapter, .ok orders) ∧
      List.Forall₂ (FilledLeg (submit b book clock intent).1) intent.legs orders) := by
  intro intent
  have hlegs : previewLegs b book clock acct 0 intent.legs =
      (previewLeg b book (clock 0) acct y.toIntent).toList ++
        (previewLeg b book (clock 1) acct n.toIntent).toList := by
    simp [intent, previewLegs]
  rcases previewLeg_buy acct hy hby (hpy 0) with ⟨hly, hy0⟩ | ⟨hly, hy0⟩ <;>
    rcases previewLeg_buy acct hn hbn (hpn 1) with ⟨hln, hn0⟩ | ⟨hln, hn0⟩ <;>
      rw [hy0, hn0] at hlegs
  · -- both affordable
    refine .inr ⟨⟨hly, hln⟩, ?_⟩
    obtain ⟨applied, hc⟩ := commitLegs_pair book (fun k => clock (2 + k)) acct
      ticketId hy hn hne (fun k => hpy (2 + k)) (fun k => hpn (2 + k)) hly hln
    have hok : submit b book clock intent =
        ((b.put (ay.acceptLeg acct y.toIntent ticketId y.price).adapter).put
          (an.acceptLeg acct n.toIntent ticketId n.price).adapter,
          .ok (applied.map fun e => e.2.1)) :=
      submit_committed intent hlegs hc rfl
    refine ⟨_, hok, ?_⟩
    have hfilled := commitLegs_filled book (fun k => clock (2 + k)) acct ticketId 0 b
      [y.toIntent, n.toIntent] (by rw [hc])
    rw [hok]
    rw [hc] at hfilled
    exact hfilled
  all_goals
    refine .inl ⟨?_, _, submit_refused _ hlegs, ?_, ?_⟩
    · rintro ⟨h1, h2⟩
      linarith
    · simp
    · simp

end Pair

/-! ## Buy and settle -/

/-- **A position opened by one buy and settled**: the account is left with
what settlement pays for it less what it cost, in cash and in realized P&L. -/
theorem AccountState.settle_buy {st : AccountState} {o : OutcomeId} {qty : ℚ} (hq : 0 < qty)
    (hqty : st.qty o = 0) (hfees : st.openFees o = 0) (v : VenueId) (px fee value : ℚ) :
    ((st.bookFill v o true qty px fee).settle v o value).cash v =
        st.cash v + (value * qty - (px * qty + fee)) ∧
      ((st.bookFill v o true qty px fee).settle v o value).realizedPnl =
        st.realizedPnl + (value * qty - (px * qty + fee)) := by
  have mb := movement_buy st v o qty px fee
  have hheld : (st.bookFill v o true qty px fee).qty o = qty := by
    rw [mb.qty, hqty, zero_add]
  have havg : (st.bookFill v o true qty px fee).avg o = px := by
    rw [mb.avg, hqty, zero_add, if_pos hq, zero_mul, zero_add,
      mul_div_cancel_left₀ _ (ne_of_gt hq)]
  have hcarried : (st.bookFill v o true qty px fee).openFees o = fee := by
    rw [mb.openFees, hfees, zero_add]
  have ms := movement_settle (st.bookFill v o true qty px fee) v o value
    (by rw [hheld]; exact ne_of_gt hq)
  rw [hheld, havg, hcarried, feeShare_whole hq (le_refl qty)] at ms
  constructor
  · rw [ms.cash, mb.cash]
    ring
  · rw [ms.realizedPnl, mb.realizedPnl]
    ring

/-- A broker of a leg's venue, ready to take it: the leg's fee model, no
slippage, the money for it, and nothing held or carried on its outcome. -/
structure Ready (m : Market) (b : Brokers) (acct : AccountId) (leg : ArbLeg)
    (a : PaperExecutionAdapter) : Prop where
  get? : b.get? leg.venueId = some a
  fees : m.fees.get? leg.venueId = some a.fees
  slippageBps : a.slippageBps = 0
  cash : leg.cost ≤ a.cash acct
  qty : (a.account acct).qty leg.outcomeId = 0
  openFees : (a.account acct).openFees leg.outcomeId = 0

/-- The same, for one broker: buy a leg, settle its outcome. -/
theorem settled_leg {m : Market} {b : Brokers} {acct : AccountId} {leg : ArbLeg}
    {group : EventGroupLeg} {qty : ℚ} {quote : Quote} {feeModel : FeeModel}
    {a : PaperExecutionAdapter} (hr : Ready m b acct leg a)
    (h : m.Buys leg group qty quote feeModel) (hq : 0 < qty) (ticketId : Option TicketId)
    (value : ℚ) (source : String) :
    let settled := ((a.acceptLeg acct leg.toIntent ticketId leg.price).adapter.settleOutcomeAsync
      leg.outcomeId value source).1
    settled.cash acct - a.cash acct = value * qty - leg.cost ∧
      settled.realizedPnl acct - a.realizedPnl acct = value * qty - leg.cost := by
  intro settled
  have hmodel : feeModel = a.fees := Option.some.inj (h.feeModel.symm.trans hr.fees)
  have hacct : settled.account acct =
      ((a.account acct).bookFill a.venueId leg.outcomeId leg.isBuy leg.qty leg.price
        (a.fees.fee leg.price leg.qty leg.isBuy)).settle a.venueId leg.outcomeId value := by
    simp only [settled, account_settleOutcomeAsync, acceptLeg, account_accept, if_true]
    rfl
  have hcost : leg.cost = quote.ask * qty + a.fees.fee quote.ask qty true := by
    rw [ArbLeg.cost, h.price, h.qty, h.fee, hmodel]
  obtain ⟨hcash, hpnl⟩ := AccountState.settle_buy hq hr.qty hr.openFees a.venueId quote.ask
    (a.fees.fee quote.ask qty true) value
  rw [h.isBuy, h.qty, h.price] at hacct
  rw [← hacct] at hcash hpnl
  rw [hcost]
  exact ⟨sub_eq_of_eq_add' hcash, sub_eq_of_eq_add' hpnl⟩

/-- **Detect, execute, settle.** An opportunity submitted to brokers that read
the detector's quotes and are ready for its legs fills every leg, and settling
one leg's outcome at `v` and the other's at `1 - v`, in either order, changes
total cash and total realized P&L by exactly the guaranteed profit. Neither
the linearity of the fee models nor a bound on `v` is needed. -/
theorem detect_execute_settle (m : Market) (group : EventGroup) (opp : ArbOpportunity)
    (hdetect : m.detectCrossVenueTwoLeg group = .ok (some opp))
    (b : Brokers) (book : QuoteBook) (clock : ℕ → ℚ) (acct : AccountId)
    (ticketId : Option TicketId) (source : String)
    (hready : ∀ leg ∈ opp.legs, ∃ a, Ready m b acct leg a)
    (hquotes : ∀ leg ∈ opp.legs, ∀ k,
      book.get (clock k) leg.outcomeId = m.quotes.get? leg.outcomeId) :
    ∃ after orders, submit b book clock (opp.toIntent acct ticketId) = (after, .ok orders) ∧
      List.Forall₂ (FilledLeg after) (opp.toIntent acct ticketId).legs orders ∧
      ∀ first second, opp.legs = [first, second] ∨ opp.legs = [second, first] → ∀ v : ℚ,
        let settled := (after.settleAt first.venueId first.outcomeId v source).settleAt
          second.venueId second.outcomeId (1 - v) source
        settled.totalCash acct - b.totalCash acct = opp.guaranteedProfit ∧
        settled.totalRealized acct - b.totalRealized acct = opp.guaranteedProfit := by
  obtain ⟨_, y, n, _, _, _, _, hvenue, qty, yq, nq, yFeeModel, nFeeModel, yLeg, nLeg, hpos, hby,
    hbn, hlegs, hprofit⟩ := m.crossVenue_of_detect hdetect
  have hymem : yLeg ∈ opp.legs := by simp [hlegs]
  have hnmem : nLeg ∈ opp.legs := by simp [hlegs]
  obtain ⟨ay, hay⟩ := hready yLeg hymem
  obtain ⟨an, han⟩ := hready nLeg hnmem
  have hne : nLeg.venueId ≠ yLeg.venueId := by
    rw [hby.venueId, hbn.venueId]
    exact hvenue
  have hintent : opp.toIntent acct ticketId =
      ⟨opp.eventGroupId, acct, [yLeg.toIntent, nLeg.toIntent], ticketId⟩ := by
    simp only [ArbOpportunity.toIntent, hlegs, List.map_cons, List.map_nil]
  rw [hintent]
  rcases submit_pair opp.eventGroupId acct ticketId hay.get? han.get? hne
    hby.isBuy hbn.isBuy
    (fun k => priceLeg_buys hby hay.get? hay.fees hay.slippageBps (hquotes yLeg hymem k))
    (fun k => priceLeg_buys hbn han.get? han.fees han.slippageBps (hquotes nLeg hnmem k)) with
    ⟨hpoor, _⟩ | ⟨_, orders, hs, hfilled⟩
  · exact absurd ⟨hay.cash, han.cash⟩ hpoor
  rw [hs] at hfilled
  refine ⟨_, orders, hs, hfilled, ?_⟩
  clear hs hfilled
  have hprofit : opp.guaranteedProfit = qty - (yLeg.cost + nLeg.cost) := hprofit
  have hyv := (advance_acceptLeg acct ay yLeg.toIntent ticketId yLeg.price).venueId.trans
    (Brokers.venueId_of_get? hay.get?)
  have hnv := (advance_acceptLeg acct an nLeg.toIntent ticketId nLeg.price).venueId.trans
    (Brokers.venueId_of_get? han.get?)
  have hys := fun v => settled_leg hay hby hpos ticketId v source
  have hns := fun v => settled_leg han hbn hpos ticketId v source
  generalize (ay.acceptLeg acct yLeg.toIntent ticketId yLeg.price).adapter = ay' at hyv hys ⊢
  generalize (an.acceptLeg acct nLeg.toIntent ticketId nLeg.price).adapter = an' at hnv hns ⊢
  -- the two brokers of the ticket, and the totals, after it filled
  have hn₁ : (b.put ay').get? nLeg.venueId = some an := by
    rw [Brokers.get?_put_ne _ (by rw [hyv]; exact hne), han.get?]
  have hy' : ((b.put ay').put an').get? yLeg.venueId = some ay' := by
    rw [Brokers.get?_put_ne _ (by rw [hnv]; exact hne.symm), Brokers.get?_put_self _ hyv]
  have hn' : ((b.put ay').put an').get? nLeg.venueId = some an' := Brokers.get?_put_self _ hnv
  have htotal : ∀ f, ((b.put ay').put an').total f =
      b.total f + (f ay' - f ay) + (f an' - f an) := fun f => by
    rw [Brokers.total_put f (hnv ▸ hn₁), Brokers.total_put f (hyv ▸ hay.get?)]
  intro first second horder v settled
  rw [hlegs] at horder
  rcases horder with h | h <;> cases h
  · have hsettled : ∀ f, settled.total f = _ := fun f =>
      Brokers.total_settleAt_two f hy' hn' hne yLeg.outcomeId nLeg.outcomeId v (1 - v) source
    constructor
    · rw [Brokers.totalCash, hsettled, htotal, Brokers.totalCash, hprofit]
      linarith [(hys v).1, (hns (1 - v)).1]
    · rw [Brokers.totalRealized, hsettled, htotal, Brokers.totalRealized, hprofit]
      linarith [(hys v).2, (hns (1 - v)).2]
  · have hsettled : ∀ f, settled.total f = _ := fun f =>
      Brokers.total_settleAt_two f hn' hy' hne.symm nLeg.outcomeId yLeg.outcomeId v (1 - v) source
    constructor
    · rw [Brokers.totalCash, hsettled, htotal, Brokers.totalCash, hprofit]
      linarith [(hns v).1, (hys (1 - v)).1]
    · rw [Brokers.totalRealized, hsettled, htotal, Brokers.totalRealized, hprofit]
      linarith [(hns v).2, (hys (1 - v)).2]

/-! ## A group on two venues -/

namespace TwoVenues

def group : EventGroup where
  id := "eg-1"
  legs := [⟨"p-yes", "polymarket_us", true⟩, ⟨"k-no", "kalshi", false⟩]

/-- A quote a hundred contracts deep on either side. -/
def quote (o : OutcomeId) (ask : ℚ) (h0 : 0 ≤ ask) (h1 : ask ≤ 1) : Quote :=
  { outcomeId := o, bid := ask, ask := ask, bidSize := some 100, askSize := some 100
    bid_nonneg := h0, ask_le_one := h1, bid_le_ask := le_refl _ }

def pYes : Quote := quote "p-yes" (45 / 100) (by norm_num) (by norm_num)

def kNo : Quote := quote "k-no" (48 / 100) (by norm_num) (by norm_num)

def fees : FeeModelRegistry :=
  Dict.ofList [("polymarket_us", .polymarketUs), ("kalshi", .kalshi)]

def market : Market where
  quotes := Dict.ofList [("p-yes", pYes), ("k-no", kNo)]
  fees := fees
  maxTicketStake := some 200

/-- A hundred contracts of each side for 96.2322. -/
def opportunity : ArbOpportunity where
  eventGroupId := "eg-1"
  legs := [⟨"p-yes", "polymarket_us", true, 45 / 100, 100, 1485 / 1000⟩,
    ⟨"k-no", "kalshi", true, 48 / 100, 100, 17472 / 10000⟩]
  totalStake := 962322 / 10000
  guaranteedProfit := 37678 / 10000
  guaranteedProfitBps := 376780000 / 962322

def book : QuoteBook := ((QuoteBook.mk Dict.empty (some defaultMaxAgeS)).upsert 0 pYes).upsert 0 kNo

/-- Both brokers, each with 1000 in cash for account `default`. -/
def brokers : Brokers :=
  (Brokers.empty.put ((PaperExecutionAdapter.new "polymarket_us" .polymarketUs 0).deposit
    "default" 1000)).put ((PaperExecutionAdapter.new "kalshi" .kalshi 0).deposit "default" 1000)

end TwoVenues

theorem detect_execute_settle_twoVenues :
    ∃ after orders, submit TwoVenues.brokers TwoVenues.book (fun _ => 0)
        (TwoVenues.opportunity.toIntent "default" none) = (after, .ok orders) ∧
      ∀ v : ℚ, ((after.settleAt "polymarket_us" "p-yes" v "manual").settleAt "kalshi" "k-no"
        (1 - v) "manual").totalCash "default" - TwoVenues.brokers.totalCash "default" =
          37678 / 10000 := by
  have hbroker : ∀ v f, TwoVenues.market.fees.get? v = some f →
      TwoVenues.brokers.get? v = some ((PaperExecutionAdapter.new v f 0).deposit "default" 1000) →
      ∀ leg : ArbLeg, leg.venueId = v → leg.cost ≤ 1000 →
      Ready TwoVenues.market TwoVenues.brokers "default" leg
        ((PaperExecutionAdapter.new v f 0).deposit "default" 1000) := by
    rintro v f hf hb leg rfl hc
    refine ⟨hb, hf, rfl, ?_, rfl, rfl⟩
    rw [cash_deposit]
    exact le_trans hc (le_of_eq (zero_add _).symm)
  obtain ⟨after, orders, hs, _, hsettle⟩ := detect_execute_settle TwoVenues.market
    TwoVenues.group TwoVenues.opportunity (by decide +kernel) TwoVenues.brokers TwoVenues.book
    (fun _ => 0) "default" none "manual"
    (by
      intro leg hleg
      simp only [TwoVenues.opportunity, List.mem_cons, List.not_mem_nil, or_false] at hleg
      rcases hleg with rfl | rfl
      · exact ⟨_, hbroker _ .polymarketUs rfl rfl _ rfl (by decide +kernel)⟩
      · exact ⟨_, hbroker _ .kalshi rfl rfl _ rfl (by decide +kernel)⟩)
    (by
      intro leg hleg k
      simp only [TwoVenues.opportunity, List.mem_cons, List.not_mem_nil, or_false] at hleg
      rcases hleg with rfl | rfl <;> decide +kernel)
  exact ⟨after, orders, hs, fun v => (hsettle _ _ (.inl rfl) v).1⟩

end Arbys
