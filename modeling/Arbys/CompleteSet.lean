import Arbys.BestPair
import Arbys.TwoLegTicket
import Mathlib.Algebra.BigOperators.Ring.List
import Mathlib.Algebra.Order.BigOperators.Group.List

/-!
# A complete set, end to end

Buying every outcome of one event on one venue. All the legs share the cash of
one broker, so the commit of a leg is judged against what the legs before it
left: the costs are positive and their sum is the stake, hence a broker that
has the stake can pay for every leg where the commit reaches it
(`commitLegs_set`). The account then holds each outcome at what its leg paid
(`bookLegs_spec`), and settling the outcomes one after the other adds the
payoff of each less what it cost, whatever the order (`settleLegs_spec`).
-/

namespace Arbys

open AccountState PaperExecutionAdapter Router

/-! ## One account buys and settles a list of legs -/

namespace AccountState

/-- The account after the legs are bought on a venue, one after the other. -/
def bookLegs (st : AccountState) (v : VenueId) (legs : List ArbLeg) : AccountState :=
  legs.foldl (fun st leg => st.bookFill v leg.outcomeId true leg.qty leg.price leg.fee) st

/-- The account after the outcomes of the legs settle, one after the other. -/
def settleLegs (st : AccountState) (v : VenueId) (value : OutcomeId → ℚ) (legs : List ArbLeg) :
    AccountState :=
  legs.foldl (fun st leg => st.settle v leg.outcomeId (value leg.outcomeId)) st

/-- Nothing is held or carried on an outcome. -/
def Flat (st : AccountState) (o : OutcomeId) : Prop := st.qty o = 0 ∧ st.openFees o = 0

/-- The position a leg opens on a flat outcome. -/
structure Holds (st : AccountState) (leg : ArbLeg) : Prop where
  qty : st.qty leg.outcomeId = leg.qty
  avg : st.avg leg.outcomeId = leg.price
  openFees : st.openFees leg.outcomeId = leg.fee

variable {st st' : AccountState} {v : VenueId} {leg : ArbLeg} {legs : List ArbLeg}

/-- A position stays what it is when its outcome is not the one that moves. -/
theorem Holds.off {o : OutcomeId} {dCash dRealized qty' avg' fees' : ℚ}
    (h : st.Holds leg) (hm : Movement v o st st' dCash dRealized qty' avg' fees')
    (ho : leg.outcomeId ≠ o) : st'.Holds leg where
  qty := (hm.qty_off _ ho).trans h.qty
  avg := (hm.avg_off _ ho).trans h.avg
  openFees := (hm.openFees_off _ ho).trans h.openFees

theorem Flat.off {o j : OutcomeId} {dCash dRealized qty' avg' fees' : ℚ}
    (h : st.Flat j) (hm : Movement v o st st' dCash dRealized qty' avg' fees')
    (hj : j ≠ o) : st'.Flat j :=
  ⟨(hm.qty_off j hj).trans h.1, (hm.openFees_off j hj).trans h.2⟩

/-- A buy of a flat outcome opens the position of its leg. -/
theorem holds_bookFill (v : VenueId) (hq : 0 < leg.qty) (h : st.Flat leg.outcomeId) :
    (st.bookFill v leg.outcomeId true leg.qty leg.price leg.fee).Holds leg := by
  have hm := movement_buy st v leg.outcomeId leg.qty leg.price leg.fee
  refine ⟨?_, ?_, ?_⟩
  · rw [hm.qty, h.1, zero_add]
  · rw [hm.avg, h.1, zero_add, if_pos hq, zero_mul, zero_add,
      mul_div_cancel_left₀ _ (ne_of_gt hq)]
  · rw [hm.openFees, h.2, zero_add]

/-- A position that the legs do not name stays what it is. -/
theorem Holds.bookLegs (v : VenueId) (h : st.Holds leg)
    (hoff : ∀ l ∈ legs, leg.outcomeId ≠ l.outcomeId) : (st.bookLegs v legs).Holds leg := by
  induction legs generalizing st with
  | nil => exact h
  | cons l legs ih =>
      have hm := movement_buy st v l.outcomeId l.qty l.price l.fee
      apply ih (h.off hm (hoff l List.mem_cons_self))
      intro l' hl'
      exact hoff l' (List.mem_cons_of_mem _ hl')

variable (v) in
/-- **Buying a list of legs**: the costs leave the cash of the venue, nothing
is realized, and each leg's position is open. -/
theorem bookLegs_spec (hdistinct : (legs.map ArbLeg.outcomeId).Nodup)
    (hq : ∀ leg ∈ legs, 0 < leg.qty) (hflat : ∀ leg ∈ legs, st.Flat leg.outcomeId) :
    (st.bookLegs v legs).cash v = st.cash v - (legs.map ArbLeg.cost).sum ∧
      (st.bookLegs v legs).realizedPnl = st.realizedPnl ∧
      ∀ leg ∈ legs, (st.bookLegs v legs).Holds leg := by
  induction legs generalizing st with
  | nil => simp [bookLegs]
  | cons leg legs ih =>
      obtain ⟨hnew, hdistinct⟩ := List.nodup_cons.mp hdistinct
      have hne : ∀ l ∈ legs, l.outcomeId ≠ leg.outcomeId := by
        intro l hl heq
        exact hnew (heq ▸ List.mem_map_of_mem hl)
      have hm := movement_buy st v leg.outcomeId leg.qty leg.price leg.fee
      have hopen := holds_bookFill v (hq leg List.mem_cons_self) (hflat leg List.mem_cons_self)
      obtain ⟨hcash, hpnl, hholds⟩ := ih hdistinct
        (fun l hl => hq l (List.mem_cons_of_mem _ hl))
        (fun l hl => (hflat l (List.mem_cons_of_mem _ hl)).off hm (hne l hl))
      have hcons : st.bookLegs v (leg :: legs) =
        (st.bookFill v leg.outcomeId true leg.qty leg.price leg.fee).bookLegs v legs := rfl
      rw [hcons]
      refine ⟨?_, ?_, ?_⟩
      · rw [hcash, hm.cash, List.map_cons, List.sum_cons, ArbLeg.cost]
        ring
      · rw [hpnl, hm.realizedPnl, add_zero]
      · intro l hl
        rcases List.mem_cons.mp hl with rfl | hl
        · exact hopen.bookLegs v fun l' hl' => (hne l' hl').symm
        · exact hholds l hl

variable (v) in
/-- **Settling a list of open legs**: the payoffs enter the cash of the venue,
and each leg realizes its payoff less its cost. -/
theorem settleLegs_spec (value : OutcomeId → ℚ) (hdistinct : (legs.map ArbLeg.outcomeId).Nodup)
    (hq : ∀ leg ∈ legs, 0 < leg.qty) (hholds : ∀ leg ∈ legs, st.Holds leg) :
    (st.settleLegs v value legs).cash v =
        st.cash v + (legs.map fun leg => value leg.outcomeId * leg.qty).sum ∧
      (st.settleLegs v value legs).realizedPnl = st.realizedPnl +
        (legs.map fun leg => value leg.outcomeId * leg.qty).sum -
          (legs.map ArbLeg.cost).sum := by
  induction legs generalizing st with
  | nil => simp [settleLegs]
  | cons leg legs ih =>
      obtain ⟨hnew, hdistinct⟩ := List.nodup_cons.mp hdistinct
      have hne : ∀ l ∈ legs, l.outcomeId ≠ leg.outcomeId := by
        intro l hl heq
        exact hnew (heq ▸ List.mem_map_of_mem hl)
      have hleg := hholds leg List.mem_cons_self
      have hpos := hq leg List.mem_cons_self
      have hm := movement_settle st v leg.outcomeId (value leg.outcomeId)
        (by rw [hleg.qty]; exact ne_of_gt hpos)
      rw [hleg.qty, hleg.avg, hleg.openFees, feeShare_whole hpos (le_refl _)] at hm
      obtain ⟨hcash, hpnl⟩ := ih hdistinct (fun l hl => hq l (List.mem_cons_of_mem _ hl))
        (fun l hl => (hholds l (List.mem_cons_of_mem _ hl)).off hm (hne l hl))
      have hcons : st.settleLegs v value (leg :: legs) =
        (st.settle v leg.outcomeId (value leg.outcomeId)).settleLegs v value legs := rfl
      rw [hcons, hcash, hpnl, hm.cash, hm.realizedPnl]
      simp only [List.map_cons, List.sum_cons, ArbLeg.cost]
      constructor
      · ring
      · ring

end AccountState

/-! ## One broker takes every leg -/

/-- A buy that the broker previews at the price and cost the detector
computed, whenever it is looked at. -/
structure Priced (b : Brokers) (book : QuoteBook) (clock : ℕ → ℚ) (a : PaperExecutionAdapter)
    (leg : ArbLeg) : Prop where
  get? : b.get? leg.venueId = some a
  isBuy : leg.isBuy = true
  fee : leg.fee = a.fees.fee leg.price leg.qty true
  cost_pos : 0 < leg.cost
  price : ∀ k, priceLeg b book (clock k) leg.toIntent = .ok (leg.price, leg.cost)

section Commit

variable {b : Brokers} {book : QuoteBook} {clock : ℕ → ℚ} {a : PaperExecutionAdapter}
  {leg : ArbLeg} {legs : List ArbLeg}

/-- The broker after the leg prices the other legs as before. -/
theorem Priced.advance {l : ArbLeg} (hl : Priced b book clock a l) (h : Priced b book clock a leg)
    (acct : AccountId) (ticketId : Option TicketId) :
    Priced (b.put (a.acceptLeg acct leg.toIntent ticketId leg.price).adapter) book clock
      (a.acceptLeg acct leg.toIntent ticketId leg.price).adapter l where
  get? := by
    apply Brokers.get?_put_self
    rw [(advance_acceptLeg acct a leg.toIntent ticketId leg.price).venueId]
    exact Brokers.venueId_of_get? hl.get?
  isBuy := hl.isBuy
  fee := by
    rw [(advance_acceptLeg acct a leg.toIntent ticketId leg.price).fees]
    exact hl.fee
  cost_pos := hl.cost_pos
  price := by
    intro k
    rw [(Brokers.advance_acceptLeg leg.toIntent h.get? acct ticketId leg.price).priceLeg]
    exact hl.price k

/-- The account of a broker that took the leg. -/
theorem Priced.account (h : Priced b book clock a leg) (acct : AccountId)
    (ticketId : Option TicketId) :
    (a.acceptLeg acct leg.toIntent ticketId leg.price).adapter.account acct =
      (a.account acct).bookFill a.venueId leg.outcomeId true leg.qty leg.price leg.fee := by
  rw [acceptLeg, account_accept, if_pos rfl, h.fee]
  show (a.account acct).bookFill a.venueId leg.outcomeId leg.isBuy leg.qty leg.price
    (a.fees.fee leg.price leg.qty leg.isBuy) = _
  rw [h.isBuy]

/-- What a leg of the set costs is at most what the set costs. -/
theorem cost_le_sum (hpos : ∀ leg ∈ legs, 0 < leg.cost) (hmem : leg ∈ legs) :
    leg.cost ≤ (legs.map ArbLeg.cost).sum := by
  apply List.single_le_sum _ _ (List.mem_map_of_mem hmem)
  intro cost hcost
  obtain ⟨l, hl, rfl⟩ := List.mem_map.mp hcost
  exact le_of_lt (hpos l hl)

/-- The preview holds nothing against legs the broker can pay for one by one. -/
theorem previewLegs_set (acct : AccountId) (n : ℕ) (hp : ∀ leg ∈ legs, Priced b book clock a leg)
    (hcash : ∀ leg ∈ legs, leg.cost ≤ a.cash acct) :
    previewLegs b book clock acct n (legs.map ArbLeg.toIntent) = [] := by
  induction legs generalizing n with
  | nil => rfl
  | cons leg legs ih =>
      have h := hp leg List.mem_cons_self
      have hnone : previewLeg b book (clock n) acct leg.toIntent = none := by
        rcases previewLeg_buy acct h.get? h.isBuy (h.price n) with ⟨-, hnone⟩ | ⟨hpoor, -⟩
        · exact hnone
        · exact absurd (hcash leg List.mem_cons_self) (not_le.mpr hpoor)
      rw [List.map_cons, previewLegs, hnone, Option.toList_none, List.nil_append]
      exact ih (n + 1) (fun l hl => hp l (List.mem_cons_of_mem _ hl))
        (fun l hl => hcash l (List.mem_cons_of_mem _ hl))

/-- **The commit of a set**: a broker with the money for all of it takes every
leg, and its account has booked them in order. -/
theorem commitLegs_set (acct : AccountId) (ticketId : Option TicketId) (n : ℕ) {v : VenueId}
    (ha : b.get? v = some a) (hp : ∀ leg ∈ legs, Priced b book clock a leg)
    (hcash : (legs.map ArbLeg.cost).sum ≤ a.cash acct) :
    (commitLegs book clock acct ticketId n b (legs.map ArbLeg.toIntent)).failure = none ∧
      ∃ a', (commitLegs book clock acct ticketId n b (legs.map ArbLeg.toIntent)).brokers.get? v =
          some a' ∧ a'.account acct = (a.account acct).bookLegs v legs := by
  -- the induction is on the legs still to commit: the costs of these are covered
  induction legs generalizing b a n with
  | nil => exact ⟨rfl, a, ha, rfl⟩
  | cons leg legs ih =>
      have h := hp leg List.mem_cons_self
      have hv : a.venueId = v := Brokers.venueId_of_get? ha
      have hpos : ∀ l ∈ leg :: legs, 0 < l.cost := fun l hl => (hp l hl).cost_pos
      have hpays : leg.cost ≤ a.cash acct :=
        le_trans (cost_le_sum hpos List.mem_cons_self) hcash
      have hc := commitLegs_cons_of_priced leg.toIntent h.get? (h.price n) hpays ticketId
        (legs.map ArbLeg.toIntent)
      have hacct := h.account acct ticketId
      have hadv := advance_acceptLeg acct a leg.toIntent ticketId leg.price
      have hleft : (legs.map ArbLeg.cost).sum ≤
          (a.acceptLeg acct leg.toIntent ticketId leg.price).adapter.cash acct := by
        have hm := movement_buy (a.account acct) a.venueId leg.outcomeId leg.qty leg.price leg.fee
        have hspent : (a.acceptLeg acct leg.toIntent ticketId leg.price).adapter.cash acct =
            a.cash acct - leg.cost := by
          rw [PaperExecutionAdapter.cash, hacct, hadv.venueId, hm.cash, ← sub_eq_add_neg]
          rfl
        rw [List.map_cons, List.sum_cons] at hcash
        linarith
      obtain ⟨hok, a', ha', hbooked⟩ := ih (n + 1)
        (Brokers.get?_put_self b (hadv.venueId.trans hv))
        (fun l hl => (hp l (List.mem_cons_of_mem _ hl)).advance h acct ticketId) hleft
      rw [List.map_cons, hc]
      refine ⟨hok, a', ha', ?_⟩
      rw [hbooked, hacct, hv]
      rfl

end Commit

/-- The broker of a venue after the outcomes of a list of legs settle there. -/
theorem account_settleAt_foldl {v : VenueId} (acct : AccountId) (value : OutcomeId → ℚ)
    (source : String) (order : List ArbLeg) {b : Brokers} {a : PaperExecutionAdapter}
    (ha : b.get? v = some a) :
    ∃ a', (order.foldl (fun b leg => b.settleAt v leg.outcomeId (value leg.outcomeId) source)
        b).get? v = some a' ∧
      a'.account acct = (a.account acct).settleLegs v value order := by
  induction order generalizing b a with
  | nil => exact ⟨a, ha, rfl⟩
  | cons leg order ih =>
      have hv : a.venueId = v := Brokers.venueId_of_get? ha
      have hget : (b.settleAt v leg.outcomeId (value leg.outcomeId) source).get? v =
          some (a.settleOutcomeAsync leg.outcomeId (value leg.outcomeId) source).1 := by
        rw [Brokers.settleAt_of_get? ha]
        exact Brokers.get?_put_self b hv
      obtain ⟨a', ha', hacct⟩ := ih hget
      refine ⟨a', ha', ?_⟩
      rw [hacct, account_settleOutcomeAsync, hv]
      rfl

/-! ## What the detector returns -/

namespace Market

variable {m : Market} {gid : GroupId} {v : VenueId} {legs : List EventGroupLeg}
  {resolved : List (EventGroupLeg × Quote × FeeModel)} {opp : ArbOpportunity}

theorem map_fst_resolved (h : legs.mapM m.resolve = some resolved) :
    resolved.map Prod.fst = legs := by
  have hpairs := Runs.forall₂_of_mapM h
  clear h
  induction hpairs with
  | nil => rfl
  | cons hleg _ ih => rw [List.map_cons, ih, (m.resolve_eq_some hleg).1]

/-- Every leg of a set buys `qty` of its outcome on one venue, which is a
positive multiple of the tick inside every bound. -/
structure SetOf (m : Market) (v : VenueId) (legs : List EventGroupLeg) (opp : ArbOpportunity)
    (qty : ℚ) : Prop where
  pos : 0 < qty
  multiple : ∃ k : ℕ, qty = k * m.tick v
  minQty : m.minQty ≤ qty
  outcomes : opp.legs.map ArbLeg.outcomeId = legs.map EventGroupLeg.outcomeId
  buys : ∀ leg ∈ opp.legs, ∃ of quote feeModel, m.Buys leg of qty quote feeModel
  venueId : ∀ leg ∈ opp.legs, leg.venueId = v
  cost_pos : ∀ leg ∈ opp.legs, 0 < leg.cost
  totalStake : opp.totalStake = (opp.legs.map ArbLeg.cost).sum
  budget : ∀ stake ∈ m.maxTicketStake, opp.totalStake ≤ stake
  guaranteedProfit : opp.guaranteedProfit = qty - opp.totalStake

/-- The larger tick of legs that share a venue is the tick of the venue. -/
theorem tick_resolved (hvenue : ∀ r ∈ resolved, r.1.venueId = v) (hne : resolved ≠ []) :
    ((resolved.map fun (leg, _, _) => m.tick leg.venueId).max?).getD defaultQtyTick =
      m.tick v := by
  have hall : ∀ t ∈ resolved.map fun (leg, _, _) => m.tick leg.venueId, t = m.tick v := by
    intro t ht
    obtain ⟨r, hr, rfl⟩ := List.mem_map.mp ht
    show m.tick r.1.venueId = m.tick v
    rw [hvenue r hr]
  have hmax : (resolved.map fun (leg, _, _) => m.tick leg.venueId).max? = some (m.tick v) := by
    rw [List.max?_eq_some_iff]
    obtain ⟨r, hr⟩ := List.exists_mem_of_ne_nil resolved hne
    refine ⟨?_, fun t ht => le_of_eq (hall t ht)⟩
    have hmem := List.mem_map_of_mem (f := fun (r : EventGroupLeg × Quote × FeeModel) =>
      m.tick r.1.venueId) hr
    rwa [hvenue r hr] at hmem
  rw [hmax]
  rfl

/-- What one contract of a resolved leg costs, and what `qty` of them do. -/
theorem cost_buyLeg_resolved (h : m.Regular { id := gid, legs := legs })
    (hres : legs.mapM m.resolve = some resolved) {r : EventGroupLeg × Quote × FeeModel}
    (hr : r ∈ resolved) {qty : ℚ} (hpos : 0 < qty) :
    0 < legUnitCost r.2.1.ask r.2.2 true ∧
      (buyLeg r.1 r.2.1 r.2.2 qty).cost = qty * legUnitCost r.2.1.ask r.2.2 true := by
  obtain ⟨leg, hleg, hof⟩ := m.exists_of_mem_resolved hres hr
  obtain ⟨rfl, hq, hf⟩ := m.resolve_eq_some hof
  refine ⟨h.unitCost_pos r.1 hleg _ _ hq hf, ?_⟩
  rw [ArbLeg.cost, buyLeg, h.linear _ _ hf _ qty true hpos, legUnitCost]
  ring

/-- The stake of `qty` sets, in what one set costs. -/
theorem sum_cost_resolved (h : m.Regular { id := gid, legs := legs })
    (hres : legs.mapM m.resolve = some resolved) {qty : ℚ} (hpos : 0 < qty) :
    ((resolved.map fun (leg, quote, feeModel) => buyLeg leg quote feeModel qty).map
        ArbLeg.cost).sum =
      qty * (resolved.map fun (_, quote, feeModel) => legUnitCost quote.ask feeModel true).sum := by
  rw [List.map_map, ← List.sum_map_mul_left]
  congr 1
  apply List.map_congr_left
  intro r hr
  exact (cost_buyLeg_resolved h hres hr hpos).2

/-- **What the detector returns on one venue**, under fees linear in quantity
and positive bounds. -/
theorem setOf_detectComplementarySet (h : m.Regular { id := gid, legs := legs })
    (hvenue : ∀ leg ∈ legs, leg.venueId = v)
    (hdetect : m.detectComplementarySet gid legs = .ok (some opp)) :
    ∃ qty, m.SetOf v legs opp qty := by
  obtain ⟨resolved, qty, htwo, hres, hqty, hpos, hmin, -, hlegs, hstake, hprofit⟩ :=
    m.detectComplementarySet_eq_some hdetect
  have hfst := map_fst_resolved hres
  have hquoted := m.quoted_of_detectComplementarySet hdetect
  have hne : resolved ≠ [] := by
    rintro rfl
    rw [← hfst] at htwo
    simp at htwo
  have hsum : 0 < (resolved.map fun (_, quote, feeModel) =>
      legUnitCost quote.ask feeModel true).sum := by
    apply List.sum_pos
    · intro cost hcost
      obtain ⟨r, hr, rfl⟩ := List.mem_map.mp hcost
      exact (cost_buyLeg_resolved h hres hr hpos).1
    · simpa using hne
  have htick : ((resolved.map fun (leg, _, _) => m.tick leg.venueId).max?).getD defaultQtyTick =
      m.tick v := tick_resolved (fun r hr => hvenue r.1 (hfst ▸ List.mem_map_of_mem hr)) hne
  rw [htick] at hqty
  -- the quantity the detector took fits the depths, the stake and the tick
  have hfits := (tradeableQty_spec (resolved.map fun (_, quote, _) => quote.askSize)
    (fun q _ => rfl) hsum h.stake_pos (h.tick v)).2 (hqty ▸ hpos)
  rw [← hqty] at hfits
  refine ⟨qty, hpos, hfits.multiple, hmin, ?_, ?_, ?_, ?_, hstake, ?_, hprofit⟩
  · rw [hlegs, ← hfst, List.map_map, List.map_map]
    rfl
  · intro leg hleg
    obtain ⟨-, of, quote, feeModel, hbuys⟩ := hquoted.legs leg hleg
    have hlegqty : leg.qty = qty := by
      rw [hlegs] at hleg
      obtain ⟨r, -, rfl⟩ := List.mem_map.mp hleg
      rfl
    rw [hlegqty] at hbuys
    exact ⟨of, quote, feeModel, hbuys⟩
  · intro leg hleg
    obtain ⟨-, hof⟩ := m.legs_of_detectComplementarySet hdetect
    obtain ⟨of, hmem, -, heq⟩ := hof leg hleg
    rw [heq, hvenue of hmem]
  · intro leg hleg
    rw [hlegs] at hleg
    obtain ⟨r, hr, rfl⟩ := List.mem_map.mp hleg
    obtain ⟨hunit, hcost⟩ := cost_buyLeg_resolved h hres hr hpos
    show 0 < (buyLeg r.1 r.2.1 r.2.2 qty).cost
    rw [hcost]
    exact mul_pos hpos hunit
  · intro stake hs
    have hcost : opp.totalStake = (opp.legs.map ArbLeg.cost).sum := hstake
    rw [hcost, hlegs, sum_cost_resolved h hres hpos]
    exact hfits.budget stake hs

end Market

/-! ## Detect, execute, settle -/

/-- One winner of distinct outcomes pays its own quantity. -/
theorem sum_payoff {legs : List ArbLeg} (hdistinct : (legs.map ArbLeg.outcomeId).Nodup) {qty : ℚ}
    (hq : ∀ leg ∈ legs, leg.qty = qty) {winner : ArbLeg} (hw : winner ∈ legs) :
    (legs.map fun leg =>
      (if leg.outcomeId = winner.outcomeId then 1 else 0) * leg.qty).sum = qty := by
  induction legs with
  | nil => cases hw
  | cons leg legs ih =>
      obtain ⟨hnew, hdistinct⟩ := List.nodup_cons.mp hdistinct
      have hqtail : ∀ l ∈ legs, l.qty = qty := fun l hl => hq l (List.mem_cons_of_mem _ hl)
      rw [List.map_cons, List.sum_cons, hq leg List.mem_cons_self]
      rcases List.mem_cons.mp hw with rfl | hw
      · have hzero : (legs.map fun leg =>
            (if leg.outcomeId = winner.outcomeId then 1 else 0) * leg.qty).sum = 0 := by
          apply List.sum_eq_zero
          intro x hx
          obtain ⟨l, hl, rfl⟩ := List.mem_map.mp hx
          have hne : l.outcomeId ≠ winner.outcomeId := by
            intro heq
            exact hnew (heq ▸ List.mem_map_of_mem hl)
          rw [if_neg hne, zero_mul]
        rw [hzero, if_pos rfl]
        ring
      · have hne : leg.outcomeId ≠ winner.outcomeId := by
          intro heq
          exact hnew (heq ▸ List.mem_map_of_mem hw)
        rw [ih hdistinct hqtail hw, if_neg hne, zero_mul, zero_add]

/-- An account that buys a set in one order and settles it in another, one
outcome at 1 and the others at 0, is left with the payoff less the cost. -/
theorem AccountState.settleLegs_bookLegs {st : AccountState} (v : VenueId)
    {legs : List ArbLeg} {qty : ℚ} (hdistinct : (legs.map ArbLeg.outcomeId).Nodup)
    (hpos : 0 < qty)
    (hq : ∀ leg ∈ legs, leg.qty = qty) (hflat : ∀ leg ∈ legs, st.Flat leg.outcomeId)
    {winner : ArbLeg} (hw : winner ∈ legs) {order : List ArbLeg} (horder : order.Perm legs) :
    let st' := (st.bookLegs v legs).settleLegs v
      (fun o => if o = winner.outcomeId then 1 else 0) order
    st'.cash v = st.cash v + (qty - (legs.map ArbLeg.cost).sum) ∧
      st'.realizedPnl = st.realizedPnl + (qty - (legs.map ArbLeg.cost).sum) := by
  have hlegs : ∀ leg ∈ legs, 0 < leg.qty := by
    intro leg hleg
    rw [hq leg hleg]
    exact hpos
  obtain ⟨hcash, hpnl, hholds⟩ := bookLegs_spec v hdistinct hlegs hflat
  obtain ⟨hpaid, hrealized⟩ := settleLegs_spec v (fun o => if o = winner.outcomeId then 1 else 0)
    ((horder.map ArbLeg.outcomeId).nodup_iff.mpr hdistinct)
    (fun leg hleg => hlegs leg (horder.mem_iff.mp hleg))
    (fun leg hleg => hholds leg (horder.mem_iff.mp hleg))
  have hperm := (horder.map fun leg : ArbLeg =>
    (if leg.outcomeId = winner.outcomeId then (1 : ℚ) else 0) * leg.qty).sum_eq
  rw [hperm, sum_payoff hdistinct hq hw] at hpaid hrealized
  rw [(horder.map ArbLeg.cost).sum_eq] at hrealized
  constructor
  · rw [hpaid, hcash]
    ring
  · rw [hrealized, hpnl]
    ring

/-- The legs of a set are priced by a broker of its venue that reads the
detector's quotes and charges its fees without slippage. -/
theorem Market.SetOf.priced {m : Market} {v : VenueId} {of : List EventGroupLeg}
    {opp : ArbOpportunity} {qty : ℚ} (hset : m.SetOf v of opp qty) {b : Brokers}
    {book : QuoteBook} {clock : ℕ → ℚ} {a : PaperExecutionAdapter} (ha : b.get? v = some a)
    (hfees : m.fees.get? v = some a.fees) (hslip : a.slippageBps = 0)
    (hquotes : ∀ leg ∈ opp.legs, ∀ k,
      book.get (clock k) leg.outcomeId = m.quotes.get? leg.outcomeId) :
    ∀ leg ∈ opp.legs, Priced b book clock a leg := by
  intro leg hleg
  obtain ⟨of, quote, feeModel, hbuys⟩ := hset.buys leg hleg
  have hv := hset.venueId leg hleg
  have hget : b.get? leg.venueId = some a := hv ▸ ha
  have hmodel : m.fees.get? leg.venueId = some a.fees := hv ▸ hfees
  refine ⟨hget, hbuys.isBuy, ?_, hset.cost_pos leg hleg, fun k => ?_⟩
  · rw [hbuys.fee, hbuys.price, hbuys.qty, Option.some.inj (hbuys.feeModel.symm.trans hmodel)]
  · exact priceLeg_buys hbuys hget hmodel hslip (hquotes leg hleg k)

/-- **A complete set, detected, executed and settled.** What the detector
returns buys one positive multiple of the tick of every outcome, inside every
bound; a broker that reads the detector's quotes, charges its fees without
slippage, has the stake and holds none of the outcomes fills every leg; and
settling one outcome at 1 and the others at 0, in any order, changes cash and
realized P&L by exactly the guaranteed profit. -/
theorem detectComplementarySet_execute_settle (m : Market) (gid : GroupId) (v : VenueId)
    (legs : List EventGroupLeg) (hvenue : ∀ leg ∈ legs, leg.venueId = v)
    (hdistinct : (legs.map EventGroupLeg.outcomeId).Nodup)
    (hregular : m.Regular { id := gid, legs := legs }) (opp : ArbOpportunity)
    (hdetect : m.detectComplementarySet gid legs = .ok (some opp)) :
    (∃ qty, m.SetOf v legs opp qty) ∧
      ∀ (b : Brokers) (book : QuoteBook) (clock : ℕ → ℚ) (acct : AccountId)
        (ticketId : Option TicketId) (source : String) (a : PaperExecutionAdapter),
        b.get? v = some a → m.fees.get? v = some a.fees → a.slippageBps = 0 →
        opp.totalStake ≤ a.cash acct →
        (∀ leg ∈ opp.legs, (a.account acct).Flat leg.outcomeId) →
        (∀ leg ∈ opp.legs, ∀ k,
          book.get (clock k) leg.outcomeId = m.quotes.get? leg.outcomeId) →
        ∃ after orders, submit b book clock (opp.toIntent acct ticketId) = (after, .ok orders) ∧
          List.Forall₂ (FilledLeg after) (opp.toIntent acct ticketId).legs orders ∧
          ∀ winner ∈ opp.legs, ∀ order : List ArbLeg, order.Perm opp.legs →
            ∃ a', (order.foldl (fun b leg => b.settleAt v leg.outcomeId
                (if leg.outcomeId = winner.outcomeId then 1 else 0) source) after).get? v =
                  some a' ∧
              a'.cash acct - a.cash acct = opp.guaranteedProfit ∧
              a'.realizedPnl acct - a.realizedPnl acct = opp.guaranteedProfit := by
  obtain ⟨qty, hset⟩ := Market.setOf_detectComplementarySet hregular hvenue hdetect
  refine ⟨⟨qty, hset⟩, ?_⟩
  intro b book clock acct ticketId source a ha hfees hslip hcash hflat hquotes
  have hnodup : (opp.legs.map ArbLeg.outcomeId).Nodup := by
    rw [hset.outcomes]
    exact hdistinct
  have hqty : ∀ leg ∈ opp.legs, leg.qty = qty := by
    intro leg hleg
    obtain ⟨of, quote, feeModel, hbuys⟩ := hset.buys leg hleg
    exact hbuys.qty
  rw [hset.totalStake] at hcash
  -- the preview passes, and the commit, which looks at the quotes later, takes every leg
  have hpreview := previewLegs_set acct 0 (hset.priced ha hfees hslip hquotes)
    (fun leg hleg => le_trans (cost_le_sum hset.cost_pos hleg) hcash)
  have hpriced : ∀ leg ∈ opp.legs, Priced b book
      (fun n => clock ((opp.legs.map ArbLeg.toIntent).length + n)) a leg :=
    hset.priced ha hfees hslip fun leg hleg k => hquotes leg hleg _
  obtain ⟨hok, a₁, ha₁, hbooked⟩ := commitLegs_set acct ticketId 0 ha hpriced hcash
  have hfilled := commitLegs_filled _ _ _ _ _ _ _ hok
  have hsubmit : submit b book clock (opp.toIntent acct ticketId) = _ :=
    submit_committed _ hpreview rfl hok
  refine ⟨_, _, hsubmit, hfilled, ?_⟩
  intro winner hwinner order horder
  obtain ⟨a₂, ha₂, hsettled⟩ := account_settleAt_foldl acct
    (fun o => if o = winner.outcomeId then 1 else 0) source order ha₁
  refine ⟨a₂, ha₂, ?_⟩
  obtain ⟨hpaid, hrealized⟩ := settleLegs_bookLegs v hnodup hset.pos hqty hflat hwinner horder
  rw [← hbooked, ← hsettled] at hpaid hrealized
  have hv := Brokers.venueId_of_get? ha
  have hv₂ := Brokers.venueId_of_get? ha₂
  rw [hset.guaranteedProfit, hset.totalStake]
  constructor
  · rw [PaperExecutionAdapter.cash, PaperExecutionAdapter.cash, hv, hv₂, hpaid,
      add_sub_cancel_left]
  · rw [PaperExecutionAdapter.realizedPnl, PaperExecutionAdapter.realizedPnl, hrealized,
      add_sub_cancel_left]

/-! ## Three outcomes on one venue -/

namespace ThreeOutcomes

def legs : List EventGroupLeg :=
  [⟨"win", "kalshi", true⟩, ⟨"draw", "kalshi", true⟩, ⟨"lose", "kalshi", true⟩]

def win : Quote := Market.ThreeVenues.quote "win" (1 / 2) 40 (by norm_num) (by norm_num)

def draw : Quote := Market.ThreeVenues.quote "draw" (1 / 5) 90 (by norm_num) (by norm_num)

def lose : Quote := Market.ThreeVenues.quote "lose" (1 / 5) 80 (by norm_num) (by norm_num)

def market : Market where
  quotes := Dict.ofList [("win", win), ("draw", draw), ("lose", lose)]
  fees := Dict.ofList [("kalshi", .kalshi)]
  maxTicketStake := some 200

/-- Forty contracts of each outcome for 37.596. -/
def opportunity : ArbOpportunity where
  eventGroupId := "eg-1"
  legs := [⟨"win", "kalshi", true, 1 / 2, 40, 7 / 10⟩, ⟨"draw", "kalshi", true, 1 / 5, 40, 448 / 1000⟩,
    ⟨"lose", "kalshi", true, 1 / 5, 40, 448 / 1000⟩]
  totalStake := 37596 / 1000
  guaranteedProfit := 2404 / 1000
  guaranteedProfitBps := 24040000 / 37596

def book : QuoteBook :=
  (((QuoteBook.mk Dict.empty (some defaultMaxAgeS)).upsert 0 win).upsert 0 draw).upsert 0 lose

def broker : PaperExecutionAdapter :=
  (PaperExecutionAdapter.new "kalshi" .kalshi 0).deposit "default" 1000

theorem regular : market.Regular { id := "eg-1", legs := legs } where
  linear v feeModel h := by
    have hmem : (v, feeModel) ∈ [("kalshi", FeeModel.kalshi)] := Dict.mem_entries_iff.mpr h
    cases List.mem_singleton.mp hmem
    exact FeeModel.taker_linear _ _
  unitCost_pos leg hleg quote feeModel hquote hfee := by
    simp only [legs, List.mem_cons, List.not_mem_nil, or_false] at hleg
    rcases hleg with rfl | rfl | rfl <;> cases hquote <;> cases hfee <;> decide +kernel
  stake_pos stake h := by
    cases h
    norm_num
  tick_pos v tick h := by cases h

end ThreeOutcomes

theorem detectComplementarySet_execute_settle_threeOutcomes :
    ∃ after orders, submit (Brokers.empty.put ThreeOutcomes.broker) ThreeOutcomes.book (fun _ => 0)
        (ThreeOutcomes.opportunity.toIntent "default" none) = (after, .ok orders) ∧
      ∀ winner ∈ ThreeOutcomes.opportunity.legs, ∀ order : List ArbLeg,
        order.Perm ThreeOutcomes.opportunity.legs →
          ∃ a', (order.foldl (fun b leg => b.settleAt "kalshi" leg.outcomeId
              (if leg.outcomeId = winner.outcomeId then 1 else 0) "manual") after).get? "kalshi" =
                some a' ∧
            a'.cash "default" - ThreeOutcomes.broker.cash "default" = 2404 / 1000 := by
  obtain ⟨-, hrun⟩ := detectComplementarySet_execute_settle ThreeOutcomes.market "eg-1" "kalshi"
    ThreeOutcomes.legs (by decide) (by decide) ThreeOutcomes.regular ThreeOutcomes.opportunity
    (by decide +kernel)
  obtain ⟨after, orders, hs, -, hsettle⟩ := hrun (Brokers.empty.put ThreeOutcomes.broker)
    ThreeOutcomes.book (fun _ => 0) "default" none "manual" ThreeOutcomes.broker rfl rfl rfl
    (by decide +kernel)
    (by
      intro leg hleg
      exact ⟨rfl, rfl⟩)
    (by
      intro leg hleg k
      simp only [ThreeOutcomes.opportunity, List.mem_cons, List.not_mem_nil, or_false] at hleg
      rcases hleg with rfl | rfl | rfl <;> decide +kernel)
  refine ⟨after, orders, hs, fun winner hw order ho => ?_⟩
  obtain ⟨a', ha', hcash, -⟩ := hsettle winner hw order ho
  exact ⟨a', ha', hcash⟩

end Arbys
