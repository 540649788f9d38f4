import Arbys.EngineRuntime
import Arbys.TwoLegTicket

/-!
# The backtest

`backtest/__init__.py`: quotes are replayed into a fresh book, engine and set
of brokers, and every opportunity reported is submitted. A replay is a run of
`onArrival`; when a detector raises, the loop is left where it stood and the
exception kept in `raised`, so that what is promised can be said of the state
left in either case. The replay's book expires nothing, so one clock reading
an arrival stands for all its look-ups.

The law about money is a potential: what an account has in cash plus what its
positions will be paid (`worth`). A ticket that fills raises it by the profit
guaranteed, and a settlement moves it into cash.
-/

namespace Arbys

open AccountState PaperExecutionAdapter Router

/-- An opportunity submitted, and what the router answered. -/
structure Submission where
  opp : ArbOpportunity
  result : Except InsufficientLegsError (List Order)

namespace Submission

def filled (s : Submission) : Bool :=
  match s.result with
  | .ok _ => true
  | .error _ => false

end Submission

structure Replay where
  engine : EngineRuntime
  brokers : Brokers
  book : QuoteBook := ⟨Dict.empty, none⟩
  opportunities : List ArbOpportunity := []
  submissions : List Submission := []
  raised : Option DecimalError := none

namespace Replay

/-- `result.rejections`. -/
def rejections (r : Replay) : List String :=
  r.submissions.filterMap fun s =>
    match s.result with
    | .ok _ => none
    | .error e => some e.message

/-- Submit one opportunity and keep the answer. -/
def submitOne (acct : AccountId) (now : ℚ) (r : Replay) (opp : ArbOpportunity) : Replay :=
  let answer := submit r.brokers r.book (fun _ => now) (opp.toIntent acct none)
  { r with
    brokers := answer.1
    submissions := r.submissions ++ [⟨opp, answer.2⟩] }

/-- One turn of the loop over the quotes; a quote comes with its arrival time. -/
def onArrival (execute : Bool) (acct : AccountId) (r : Replay) (arrival : ℚ × Quote) : Replay :=
  if r.raised.isSome then r
  else
    let book := r.book.upsert arrival.1 arrival.2
    let found := r.engine.onQuote book (fun _ => arrival.1) arrival.2
    let r := { r with
      book := book
      opportunities := r.opportunities ++ found.1
      raised := found.2 }
    if execute && found.2.isNone then found.1.foldl (submitOne acct arrival.1) r else r

end Replay

/-- The broker of one venue, funded where a starting balance is given. -/
def backtestBroker (startingBalances : Dict VenueId ℚ) (acct : AccountId) (v : VenueId)
    (fee : FeeModel) : PaperExecutionAdapter :=
  match startingBalances.get? v with
  | some amount => (PaperExecutionAdapter.new v fee 0).deposit acct amount
  | none => PaperExecutionAdapter.new v fee 0

/-- A broker's venue, fee model and slippage are those it is built with. -/
theorem backtestBroker_static (startingBalances : Dict VenueId ℚ) (acct : AccountId)
    (v : VenueId) (fee : FeeModel) :
    (backtestBroker startingBalances acct v fee).venueId = v ∧
      (backtestBroker startingBalances acct v fee).fees = fee ∧
      (backtestBroker startingBalances acct v fee).slippageBps = 0 := by
  unfold backtestBroker
  split <;> exact ⟨rfl, rfl, rfl⟩

/-- One broker for each fee model. -/
def backtestBrokers (fees : FeeModelRegistry) (startingBalances : Dict VenueId ℚ)
    (acct : AccountId) : Brokers where
  adapters := fees.mapVal (backtestBroker startingBalances acct)
  keyed := by
    intro v a h
    rw [Dict.get?_mapVal] at h
    obtain ⟨fee, _, rfl⟩ := Option.map_eq_some_iff.mp h
    exact (backtestBroker_static startingBalances acct v fee).1

/-- The engine of a replay. -/
def backtestEngine (groups : List EventGroup) (fees : FeeModelRegistry)
    (maxTicketStake : Option ℚ) : EngineRuntime :=
  EngineRuntime.registerAll { fees := fees, maxTicketStake := maxTicketStake } groups

/-- `run_backtest`. -/
def runBacktest (quotes : List (ℚ × Quote)) (groups : List EventGroup) (fees : FeeModelRegistry)
    (startingBalances : Dict VenueId ℚ) (execute : Bool) (acct : AccountId)
    (maxTicketStake : Option ℚ) : Replay :=
  Runs.run (Replay.onArrival execute acct)
    { engine := backtestEngine groups fees maxTicketStake
      brokers := if execute then backtestBrokers fees startingBalances acct else Brokers.empty }
    quotes

/-! ## The worth of an account -/

/-- Cash and what the positions will be paid. -/
def worth (payout : OutcomeId → ℚ) (acct : AccountId) (a : PaperExecutionAdapter) : ℚ :=
  a.cash acct + (a.account acct).holdings payout

section Worth

variable {payout : OutcomeId → ℚ} {acct : AccountId} {a : PaperExecutionAdapter}
  {leg : IntentLeg} {ticketId : Option TicketId} {px : ℚ}

theorem account_acceptLeg_buy (ticketId : Option TicketId) (hbuy : leg.isBuy = true) :
    (a.acceptLeg acct leg ticketId px).adapter.account acct =
      (a.account acct).bookFill a.venueId leg.outcomeId true leg.qty px
        (a.fees.fee px leg.qty true) := by
  rw [acceptLeg, account_accept, if_pos rfl, hbuy]

/-- A buy trades its cost for what it will be paid. -/
theorem worth_acceptLeg (leg : IntentLeg) (hbuy : leg.isBuy = true) :
    worth payout acct (a.acceptLeg acct leg ticketId px).adapter =
      worth payout acct a + (payout leg.outcomeId * leg.qty -
        (px * leg.qty + a.fees.fee px leg.qty true)) := by
  have m := movement_buy (a.account acct) a.venueId leg.outcomeId leg.qty px
    (a.fees.fee px leg.qty true)
  rw [← account_acceptLeg_buy ticketId hbuy] at m
  have hcash : (a.acceptLeg acct leg ticketId px).adapter.cash acct =
      a.cash acct + -(px * leg.qty + a.fees.fee px leg.qty true) := m.cash
  rw [worth, worth, hcash, m.holdings payout]
  ring

/-- A buy touches the quantity of its own outcome only. -/
theorem qty_acceptLeg_off (leg : IntentLeg) (hbuy : leg.isBuy = true) {o : OutcomeId} (ho : o ≠ leg.outcomeId) :
    ((a.acceptLeg acct leg ticketId px).adapter.account acct).qty o = (a.account acct).qty o := by
  rw [account_acceptLeg_buy ticketId hbuy]
  exact (movement_buy ..).qty_off o ho

/-- What an account holds after a leg of it was accepted it held before, or is
of the leg. -/
theorem held_put_acceptLeg {b : Brokers} (leg : IntentLeg) (ha : b.get? leg.venueId = some a)
    (hbuy : leg.isBuy = true) {v : VenueId} {a' : PaperExecutionAdapter} {o : OutcomeId}
    (ha' : (b.put (a.acceptLeg acct leg ticketId px).adapter).get? v = some a')
    (hq : (a'.account acct).qty o ≠ 0) :
    (∃ a, b.get? v = some a ∧ (a.account acct).qty o ≠ 0) ∨
      leg.venueId = v ∧ leg.outcomeId = o := by
  have hv : (a.acceptLeg acct leg ticketId px).adapter.venueId = leg.venueId :=
    (advance_acceptLeg acct a leg ticketId px).venueId.trans (Brokers.venueId_of_get? ha)
  rw [Brokers.get?_put, hv] at ha'
  split at ha'
  · rename_i hvl
    cases ha'
    by_cases ho : o = leg.outcomeId
    · exact .inr ⟨hvl.symm, ho.symm⟩
    · rw [qty_acceptLeg_off leg hbuy ho] at hq
      exact .inl ⟨a, hvl ▸ ha, hq⟩
  · exact .inl ⟨a', ha', hq⟩

/-- A settlement at the payout leaves the worth where it was. -/
theorem worth_settle (o : OutcomeId) (source : String) :
    worth payout acct (a.settleOutcomeAsync o (payout o) source).1 = worth payout acct a := by
  have h := cash_add_holdings_settle payout (a.account acct) a.venueId o
  rw [← account_settleOutcomeAsync a o (payout o) source acct] at h
  exact h

end Worth

/-! ## One submission -/

/-- Every venue with a fee model has a broker that charges it, without
slippage. -/
def Served (fees : FeeModelRegistry) (b : Brokers) : Prop :=
  ∀ v f, fees.get? v = some f → ∃ a, b.get? v = some a ∧ a.fees = f ∧ a.slippageBps = 0

theorem Served.advance {fees : FeeModelRegistry} {b b' : Brokers} {acct : AccountId}
    {applied : List (VenueId × Order × Fill)} (h : Served fees b)
    (hadv : b.Advance acct applied b') : Served fees b' := by
  intro v f hf
  obtain ⟨a, ha, hfees, hslip⟩ := h v f hf
  have hv := hadv v
  rw [ha] at hv
  cases hb' : b'.get? v with
  | none => rw [hb'] at hv; cases hv
  | some a' =>
      rw [hb'] at hv
      cases hv with
      | some hav => exact ⟨a', rfl, hav.fees.trans hfees, hav.slippageBps.trans hslip⟩

/-- What a filled cross-venue ticket does to the brokers: it advances them,
adds the guaranteed profit to the worth, whatever the two sides pay so long as
they pay one together, and opens positions on legs of the group only. -/
structure FilledTicket (group : EventGroup) (opp : ArbOpportunity) (acct : AccountId)
    (b b' : Brokers) : Prop where
  advance : ∃ applied, b.Advance acct applied b'
  worth : ∀ payout : OutcomeId → ℚ,
    (∀ y ∈ group.legs, ∀ n ∈ group.legs, y.isYesSide = true → n.isYesSide = false →
      payout y.outcomeId + payout n.outcomeId = 1) →
    b'.total (worth payout acct) = b.total (Arbys.worth payout acct) + opp.guaranteedProfit
  onLegs : ∀ v a' o, b'.get? v = some a' → (a'.account acct).qty o ≠ 0 →
    (∃ a, b.get? v = some a ∧ (a.account acct).qty o ≠ 0) ∨
    ∃ leg ∈ group.legs, leg.venueId = v ∧ leg.outcomeId = o

/-- **One submission**: an opportunity of the detector is refused for want of
cash, with nothing moved, or fills both legs. -/
theorem submit_crossVenue {m : Market} {group : EventGroup} {opp : ArbOpportunity}
    (hopp : m.CrossVenue group opp) {b : Brokers} (hserved : Served m.fees b) {book : QuoteBook}
    {clock : ℕ → ℚ}
    (hquotes : ∀ o q, m.quotes.get? o = some q → ∀ k, book.get (clock k) o = some q)
    (acct : AccountId) (ticketId : Option TicketId) :
    (∃ rejections, submit b book clock (opp.toIntent acct ticketId) =
        (b, .error (.preview rejections)) ∧
      rejections ≠ [] ∧ ∀ r ∈ rejections, r.reason = .insufficientFunds) ∨
    (∃ after orders, submit b book clock (opp.toIntent acct ticketId) = (after, .ok orders) ∧
      List.Forall₂ (FilledLeg after) (opp.toIntent acct ticketId).legs orders ∧
      FilledTicket group opp acct b after) := by
  obtain ⟨_, y, n, hyg, hng, hyes, hno, hvenue, qty, yq, nq, yFeeModel, nFeeModel, yLeg, nLeg, _,
    hby, hbn, hlegs, hprofit⟩ := hopp
  obtain ⟨ay, hay, hyfees, hyslip⟩ := hserved yLeg.venueId yFeeModel hby.feeModel
  obtain ⟨an, han, hnfees, hnslip⟩ := hserved nLeg.venueId nFeeModel hbn.feeModel
  have hne : nLeg.venueId ≠ yLeg.venueId := by
    rw [hby.venueId, hbn.venueId]
    exact hvenue
  have hintent : opp.toIntent acct ticketId =
      ⟨opp.eventGroupId, acct, [yLeg.toIntent, nLeg.toIntent], ticketId⟩ := by
    simp only [ArbOpportunity.toIntent, hlegs, List.map_cons, List.map_nil]
  rw [hintent]
  rcases submit_pair opp.eventGroupId acct ticketId hay han hne
    hby.isBuy hbn.isBuy
    (fun k => priceLeg_buys hby hay (hyfees ▸ hby.feeModel) hyslip
      ((hquotes _ _ hby.quoted k).trans hby.quoted.symm))
    (fun k => priceLeg_buys hbn han (hnfees ▸ hbn.feeModel) hnslip
      ((hquotes _ _ hbn.quoted k).trans hbn.quoted.symm)) with
    ⟨_, rejections, hs, hne, hall⟩ | ⟨_, orders, hs, hfilled⟩
  · exact .inl ⟨rejections, hs, hne, hall⟩
  refine .inr ⟨_, orders, hs, by rw [hs] at hfilled; exact hfilled, ?_⟩
  -- the YES leg is committed first, and leaves the broker of the NO leg alone
  have hadv₁ := Brokers.advance_acceptLeg yLeg.toIntent hay acct ticketId yLeg.price
  have hyv : (ay.acceptLeg acct yLeg.toIntent ticketId yLeg.price).adapter.venueId =
      yLeg.venueId :=
    (advance_acceptLeg acct ay yLeg.toIntent ticketId yLeg.price).venueId.trans
      (Brokers.venueId_of_get? hay)
  have hnv : (an.acceptLeg acct nLeg.toIntent ticketId nLeg.price).adapter.venueId =
      nLeg.venueId :=
    (advance_acceptLeg acct an nLeg.toIntent ticketId nLeg.price).venueId.trans
      (Brokers.venueId_of_get? han)
  have han₁ : (b.put (ay.acceptLeg acct yLeg.toIntent ticketId yLeg.price).adapter).get?
      nLeg.venueId = some an := by
    rw [Brokers.get?_put_ne _ (by rw [hyv]; exact hne), han]
  constructor
  · exact ⟨_, hadv₁.trans
      (Brokers.advance_acceptLeg nLeg.toIntent han₁ acct ticketId nLeg.price)⟩
  · intro payout hpair
    have hpay := hpair y hyg n hng hyes hno
    rw [Brokers.total_put _ (hnv ▸ han₁), Brokers.total_put _ (hyv ▸ hay),
      worth_acceptLeg yLeg.toIntent hby.isBuy,
      worth_acceptLeg nLeg.toIntent hbn.isBuy, hprofit]
    simp only [ArbLeg.toIntent, hby.outcomeId, hbn.outcomeId, hby.qty, hbn.qty, hby.fee, hbn.fee,
      hyfees, hnfees, hby.price, hbn.price]
    -- one of the two pays, so a contract of each is worth one
    have hsum : payout y.outcomeId * qty + payout n.outcomeId * qty = qty := by
      rw [← add_mul, hpay, one_mul]
    linarith
  · intro v a' o ha' hq
    rcases held_put_acceptLeg nLeg.toIntent han₁ hbn.isBuy ha' hq with ⟨a₁, ha₁, hq₁⟩ | ⟨hv, ho⟩
    · rcases held_put_acceptLeg yLeg.toIntent hay hby.isBuy ha₁ hq₁ with hheld | ⟨hv, ho⟩
      · exact .inl hheld
      · exact .inr ⟨y, hyg, hby.venueId.symm.trans hv, hby.outcomeId.symm.trans ho⟩
    · exact .inr ⟨n, hng, hbn.venueId.symm.trans hv, hbn.outcomeId.symm.trans ho⟩

/-! ## The whole replay -/

/-- What a submission may answer: every leg filled, the orders still on the
brokers' record, or a refusal that names nothing but missing cash. -/
def Submission.Honest (s : Submission) (b : Brokers) (acct : AccountId) : Prop :=
  (∃ orders, s.result = .ok orders ∧
    List.Forall₂ (FilledLeg b) (s.opp.toIntent acct none).legs orders) ∨
  (∃ rejections, s.result = .error (.preview rejections) ∧ rejections ≠ [] ∧
    ∀ r ∈ rejections, r.reason = .insufficientFunds)

theorem Submission.Honest.advance {s : Submission} {b b' : Brokers} {acct : AccountId}
    {applied : List (VenueId × Order × Fill)} (h : s.Honest b acct)
    (hadv : b.Advance acct applied b') : s.Honest b' acct := by
  rcases h with ⟨orders, hr, hfilled⟩ | h
  · exact .inl ⟨orders, hr, hfilled.imp fun _ _ hf => hf.advance hadv⟩
  · exact .inr h

/-- The profit guaranteed by the opportunities that filled. -/
def profitOf (submissions : List Submission) : ℚ :=
  ((submissions.filter (·.filled)).map (·.opp.guaranteedProfit)).sum

/-- What holds after every arrival: every opportunity reported was submitted
once and answered honestly, the worth is what was put in and what the filled
tickets guarantee, and every position is on a leg of a group. -/
structure Kept (groups : List EventGroup) (e : EngineRuntime) (acct : AccountId)
    (payout : OutcomeId → ℚ) (start : ℚ) (r : Replay) : Prop where
  engine : r.engine = e
  maxAgeS : r.book.maxAgeS = none
  served : Served e.fees r.brokers
  submitted : r.submissions.map (·.opp) = r.opportunities
  honest : ∀ s ∈ r.submissions, s.Honest r.brokers acct
  worth : r.brokers.total (worth payout acct) = start + profitOf r.submissions
  onLegs : ∀ v a o, r.brokers.get? v = some a → (a.account acct).qty o ≠ 0 →
    ∃ g ∈ groups, ∃ leg ∈ g.legs, leg.venueId = v ∧ leg.outcomeId = o

section Replaying

variable {groups : List EventGroup} {e : EngineRuntime} {acct : AccountId}
  {payout : OutcomeId → ℚ} {start : ℚ} {r : Replay}

/-- **One opportunity**: submitting it restores the invariant that recording
it broke. -/
theorem Kept.submitOne
    (hpair : ∀ g ∈ groups, ∀ y ∈ g.legs, ∀ n ∈ g.legs, y.isYesSide = true →
      n.isYesSide = false → payout y.outcomeId + payout n.outcomeId = 1)
    (h : Kept groups e acct payout start r) {group : EventGroup} (hg : group ∈ groups)
    {now : ℚ} {book : QuoteBook} (hbook : book.maxAgeS = none) {opp : ArbOpportunity}
    (hdetect : (e.market book (fun _ => now) group).detectCrossVenueTwoLeg group =
      .ok (some opp)) (raised : Option DecimalError) :
    Kept groups e acct payout start (Replay.submitOne acct now
      { r with book := book, opportunities := r.opportunities ++ [opp], raised := raised }
      opp) := by
  -- the ticket is priced at the quotes it was detected at: the clock stands still
  have hcross := Market.crossVenue_of_detect _ hdetect
  have hquotes : ∀ o q, (e.market book (fun _ => now) group).quotes.get? o = some q →
      ∀ k : ℕ, book.get ((fun _ => now) k) o = some q := fun o q hq _ =>
    EngineRuntime.get_of_liveQuotes hbook 0 group.legs (fun _ _ h => by cases h) o q hq now
  have hserved : Served (e.market book (fun _ => now) group).fees r.brokers := h.served
  have hsubmitted : ∀ result, (r.submissions ++ [Submission.mk opp result]).map
      (fun s => s.opp) = r.opportunities ++ [opp] := fun result => by
    rw [List.map_append, h.submitted]
    rfl
  rcases submit_crossVenue hcross hserved hquotes acct none with
    ⟨rejections, hs, hne, hall⟩ | ⟨after, orders, hs, hfilled, ht⟩ <;>
    simp only [Replay.submitOne, hs]
  · refine ⟨h.engine, hbook, h.served, hsubmitted _, fun s hmem => ?_, ?_, h.onLegs⟩
    · rcases List.mem_append.mp hmem with hmem | hmem
      · exact h.honest s hmem
      · rw [List.mem_singleton.mp hmem]
        exact .inr ⟨rejections, rfl, hne, hall⟩
    · rw [h.worth]
      simp [profitOf, List.filter_append, Submission.filled]
  · obtain ⟨applied, hadv⟩ := ht.advance
    refine ⟨h.engine, hbook, h.served.advance hadv, hsubmitted _, fun s hmem => ?_, ?_,
      fun v a o ha hq => ?_⟩
    · rcases List.mem_append.mp hmem with hmem | hmem
      · exact (h.honest s hmem).advance hadv
      · rw [List.mem_singleton.mp hmem]
        exact .inl ⟨orders, rfl, hfilled⟩
    · rw [ht.worth payout (hpair group hg), h.worth]
      simp only [profitOf, List.filter_append, Submission.filled, List.filter_cons_of_pos,
        List.filter_nil, List.map_append, List.map_cons, List.map_nil, List.sum_append,
        List.sum_cons, List.sum_nil, add_zero, add_assoc]
    · rcases ht.onLegs v a o ha hq with ⟨a₀, ha₀, hq₀⟩ | ⟨leg, hleg, hv, ho⟩
      · exact h.onLegs v a₀ o ha₀ hq₀
      · exact ⟨group, hg, leg, hleg, hv, ho⟩

/-- **One arrival** keeps the invariant. -/
theorem Kept.onArrival
    (hpair : ∀ g ∈ groups, ∀ y ∈ g.legs, ∀ n ∈ g.legs, y.isYesSide = true →
      n.isYesSide = false → payout y.outcomeId + payout n.outcomeId = 1)
    (hcross : e.crossVenueOnly = true)
    (hgroups : ∀ gid g, e.groups.get? gid = some g → g ∈ groups)
    (hone : ∀ o, (e.outcomeToGroups.getD o []).length ≤ 1)
    (h : Kept groups e acct payout start r) (arrival : ℚ × Quote) :
    Kept groups e acct payout start (Replay.onArrival true acct r arrival) := by
  unfold Replay.onArrival
  by_cases hraised : r.raised.isSome = true
  · rw [if_pos hraised]
    exact h
  rw [if_neg hraised]
  obtain rfl := h.engine
  have hbook : (r.book.upsert arrival.1 arrival.2).maxAgeS = none := by
    rw [QuoteBook.upsert_maxAgeS, h.maxAgeS]
  have hquiet : ∀ raised, Kept groups r.engine acct payout start
      { r with
        book := r.book.upsert arrival.1 arrival.2
        opportunities := r.opportunities ++ []
        raised := raised } := fun raised =>
    ⟨rfl, hbook, h.served, by rw [List.append_nil]; exact h.submitted, h.honest, h.worth,
      h.onLegs⟩
  rcases EngineRuntime.onQuote_single hcross (hone arrival.2.outcomeId)
    (r.book.upsert arrival.1 arrival.2) (fun _ => arrival.1) with
    hq | ⟨err, hq⟩ | ⟨gid, group, opp, hg, hdetect, hq⟩ <;> simp only [hq]
  · exact hquiet none
  · exact hquiet (some err)
  · exact h.submitOne hpair (hgroups gid group hg) hbook hdetect none

/-! ## Settling every leg -/

/-- Every leg of every group, with its group. -/
def legsOf (groups : List EventGroup) : List (EventGroup × EventGroupLeg) :=
  groups.flatMap fun g => g.legs.map fun leg => (g, leg)

theorem mem_legsOf {groups : List EventGroup} {e : EventGroup × EventGroupLeg} :
    e ∈ legsOf groups ↔ e.1 ∈ groups ∧ e.2 ∈ e.1.legs := by
  obtain ⟨g, leg⟩ := e
  simp only [legsOf, List.mem_flatMap, List.mem_map, Prod.mk.injEq]
  constructor
  · rintro ⟨g', hg', leg', hleg', rfl, rfl⟩
    exact ⟨hg', hleg'⟩
  · rintro ⟨hg, hleg⟩
    exact ⟨g, hg, leg, hleg, rfl, rfl⟩

/-- What a leg settles at: the value of its group on the YES side, the rest of
one on the NO side. -/
def settlementValue (vals : EventGroup → ℚ) (e : EventGroup × EventGroupLeg) : ℚ :=
  if e.2.isYesSide then vals e.1 else 1 - vals e.1

/-- What an outcome settles at: as its first leg does. -/
def payoutOf (groups : List EventGroup) (vals : EventGroup → ℚ) (o : OutcomeId) : ℚ :=
  (((legsOf groups).find? fun e => e.2.outcomeId = o).map (settlementValue vals)).getD 0

/-- Settle legs in turn, each on the broker of its venue. -/
def settleLegs (vals : EventGroup → ℚ) (source : String) (b : Brokers)
    (legs : List (EventGroup × EventGroupLeg)) : Brokers :=
  legs.foldl (fun b e => b.settleAt e.2.venueId e.2.outcomeId (settlementValue vals e) source) b

/-- Where an outcome occurs on one leg only, it settles as that leg does. -/
theorem payoutOf_of_mem {groups : List EventGroup}
    (hunique : ((groups.flatMap (·.legs)).map (·.outcomeId)).Nodup) (vals : EventGroup → ℚ)
    {e : EventGroup × EventGroupLeg} (he : e ∈ legsOf groups) :
    payoutOf groups vals e.2.outcomeId = settlementValue vals e := by
  have hmap : ((legsOf groups).map fun e => e.2.outcomeId).Nodup := by
    rw [legsOf, List.map_flatMap]
    simpa [List.map_flatMap, List.map_map, Function.comp_def] using hunique
  have hinj := List.inj_on_of_nodup_map hmap
  unfold payoutOf
  cases hf : (legsOf groups).find? fun e' => e'.2.outcomeId = e.2.outcomeId with
  | none =>
      have := List.find?_eq_none.mp hf e he
      simp at this
  | some e' =>
      have hmem := List.mem_of_find?_eq_some hf
      have heq := List.find?_some hf
      rw [hinj hmem he (by simpa using heq)]
      rfl

/-- The sides of a group settle at one together. -/
theorem payoutOf_add {groups : List EventGroup}
    (hunique : ((groups.flatMap (·.legs)).map (·.outcomeId)).Nodup) (vals : EventGroup → ℚ)
    {g : EventGroup} (hg : g ∈ groups) {y n : EventGroupLeg} (hy : y ∈ g.legs) (hn : n ∈ g.legs)
    (hyes : y.isYesSide = true) (hno : n.isYesSide = false) :
    payoutOf groups vals y.outcomeId + payoutOf groups vals n.outcomeId = 1 := by
  have hpy := payoutOf_of_mem hunique vals (e := (g, y)) (mem_legsOf.mpr ⟨hg, hy⟩)
  have hpn := payoutOf_of_mem hunique vals (e := (g, n)) (mem_legsOf.mpr ⟨hg, hn⟩)
  rw [hpy, hpn, settlementValue, settlementValue, if_pos hyes, if_neg (by rw [hno]; decide)]
  ring

/-- With nothing held, the worth is the cash. -/
theorem total_worth_of_flat {b : Brokers}
    (hflat : ∀ v a o, b.get? v = some a → (a.account acct).qty o = 0) (payout : OutcomeId → ℚ) :
    b.total (worth payout acct) = b.totalCash acct := by
  refine Dict.sumBy_congr (f := fun _ a => worth payout acct a)
    (g := fun _ (a : PaperExecutionAdapter) => a.cash acct) fun v => ?_
  cases ha : b.adapters.get? v with
  | none => rw [Dict.contrib_of_get?_none ha, Dict.contrib_of_get?_none ha]
  | some a =>
      have hhold : (a.account acct).holdings payout = 0 :=
        Dict.sumBy_eq_zero fun o => by rw [contrib_holdings, hflat v a o ha, mul_zero]
      rw [Dict.contrib_of_get? ha, Dict.contrib_of_get? ha, worth, hhold, add_zero]

theorem settleLegs_worth {groups : List EventGroup} {vals : EventGroup → ℚ} {source : String}
    (hpay : ∀ e ∈ legsOf groups, payoutOf groups vals e.2.outcomeId = settlementValue vals e)
    {legs : List (EventGroup × EventGroupLeg)} (hlegs : ∀ e ∈ legs, e ∈ legsOf groups)
    (b : Brokers) :
    (settleLegs vals source b legs).total (worth (payoutOf groups vals) acct) =
      b.total (worth (payoutOf groups vals) acct) := by
  induction legs generalizing b with
  | nil => rfl
  | cons e legs ih =>
      refine (ih (fun x hx => hlegs x (List.mem_cons_of_mem _ hx)) _).trans ?_
      simp only [← hpay e (hlegs e List.mem_cons_self)]
      cases ha : b.get? e.2.venueId with
      | none => simp only [Brokers.settleAt, Brokers.modify, ha]
      | some a =>
          rw [Brokers.total_settleAt _ ha, worth_settle, sub_self, add_zero]

/-- A position left after settling is on none of the legs settled, and was
there before. -/
theorem settleLegs_qty {vals : EventGroup → ℚ} {source : String}
    (legs : List (EventGroup × EventGroupLeg)) {b : Brokers} {v : VenueId}
    {a' : PaperExecutionAdapter} {o : OutcomeId}
    (ha' : (settleLegs vals source b legs).get? v = some a')
    (hq : (a'.account acct).qty o ≠ 0) :
    (∀ e ∈ legs, ¬ (e.2.venueId = v ∧ e.2.outcomeId = o)) ∧
      ∃ a, b.get? v = some a ∧ (a.account acct).qty o ≠ 0 := by
  induction legs generalizing b with
  | nil => exact ⟨fun _ h => (by cases h), a', ha', hq⟩
  | cons e legs ih =>
      obtain ⟨hrest, a₁, ha₁, hq₁⟩ := ih ha'
      by_cases hv : v = e.2.venueId
      · have hget := Brokers.get?_modify b e.2.venueId v
          (f := fun a => (a.settleOutcomeAsync e.2.outcomeId (settlementValue vals e) source).1)
          fun _ => rfl
        rw [if_pos hv] at hget
        have ha₂ := hget.symm.trans ha₁
        obtain ⟨a, ha, rfl⟩ := Option.map_eq_some_iff.mp ha₂
        rw [account_settleOutcomeAsync, qty_settle] at hq₁
        have ho : o ≠ e.2.outcomeId := fun ho => hq₁ (if_pos ho)
        rw [if_neg ho] at hq₁
        refine ⟨fun x hx => ?_, a, ha, hq₁⟩
        rcases List.mem_cons.mp hx with rfl | hx
        · exact fun h => ho h.2.symm
        · exact hrest x hx
      · rw [Brokers.get?_settleAt_ne b hv] at ha₁
        refine ⟨fun x hx => ?_, a₁, ha₁, hq₁⟩
        rcases List.mem_cons.mp hx with rfl | hx
        · exact fun h => hv h.1.symm
        · exact hrest x hx

end Replaying

/-- The brokers of a replay start worth what they are funded with. -/
theorem total_backtestBrokers (payout : OutcomeId → ℚ) (fees : FeeModelRegistry)
    (startingBalances : Dict VenueId ℚ) (acct : AccountId) :
    (backtestBrokers fees startingBalances acct).total (worth payout acct) =
      fees.sumBy fun v _ => startingBalances.getD v 0 := by
  rw [Brokers.total, backtestBrokers, Dict.sumBy_mapVal]
  congr 1
  funext v fee
  unfold backtestBroker
  cases hb : startingBalances.get? v with
  | none =>
      rw [Dict.getD_of_get?_none hb]
      exact add_zero 0
  | some amount =>
      have hhold : (((PaperExecutionAdapter.new v fee 0).deposit acct amount).account
          acct).holdings payout = 0 := by
        rw [PaperExecutionAdapter.deposit, account_setAccount, if_pos rfl]
        rfl
      simp only [worth, hhold, cash_deposit, add_zero]
      rw [Dict.getD_of_get? hb]
      exact zero_add amount

theorem get?_backtestBrokers (fees : FeeModelRegistry) (startingBalances : Dict VenueId ℚ)
    (acct : AccountId) (v : VenueId) :
    (backtestBrokers fees startingBalances acct).get? v =
      (fees.get? v).map (backtestBroker startingBalances acct v) :=
  Dict.get?_mapVal ..

theorem served_backtestBrokers (fees : FeeModelRegistry) (startingBalances : Dict VenueId ℚ)
    (acct : AccountId) : Served fees (backtestBrokers fees startingBalances acct) := by
  intro v f hf
  have hget := get?_backtestBrokers fees startingBalances acct v
  rw [hf] at hget
  exact ⟨_, hget, (backtestBroker_static startingBalances acct v f).2⟩

/-- No broker of a replay starts with a position. -/
theorem qty_backtestBrokers (fees : FeeModelRegistry) (startingBalances : Dict VenueId ℚ)
    (acct : AccountId) {v : VenueId} {a : PaperExecutionAdapter}
    (ha : (backtestBrokers fees startingBalances acct).get? v = some a) (o : OutcomeId) :
    (a.account acct).qty o = 0 := by
  rw [get?_backtestBrokers] at ha
  obtain ⟨fee, _, rfl⟩ := Option.map_eq_some_iff.mp ha
  unfold backtestBroker
  cases startingBalances.get? v with
  | none => rfl
  | some amount =>
      simp only [PaperExecutionAdapter.deposit, account_setAccount, if_true]
      rfl

/-- An honest refusal reads as missing cash, leg by leg. -/
theorem Submission.Honest.message {s : Submission} {b : Brokers} {acct : AccountId}
    (h : s.Honest b acct) {e : InsufficientLegsError} (he : s.result = .error e) :
    ∃ venues : List VenueId, venues ≠ [] ∧
      e.message = ", ".intercalate (venues.map fun v => v ++ ":" ++ "insufficient_funds") := by
  rcases h with ⟨orders, hr, _⟩ | ⟨rejections, hr, hne, hall⟩
  · rw [hr] at he
    cases he
  · rw [hr] at he
    cases he
    have htexts : (rejections.map fun r => r.venueId ++ ":" ++ r.reason.text) =
        (rejections.map (·.venueId)).map fun v => v ++ ":" ++ "insufficient_funds" := by
      rw [List.map_map]
      refine List.map_congr_left fun r hmem => ?_
      simp only [Function.comp_apply, hall r hmem, RejectReason.text]
    exact ⟨rejections.map (·.venueId), fun h => hne (List.map_eq_nil_iff.mp h),
      congrArg (String.intercalate ", ") htexts⟩

/-- **The backtest keeps its promises.** Every opportunity recorded was
submitted once; a submission fills every leg or is refused, and the refusals
recorded read `insufficient_funds` and nothing else; and settling every leg of
every group, in any order, YES at the value of its group and NO at the rest of
one, leaves in cash what was put in and the profits guaranteed by the
opportunities that filled. The fee models need not be linear, and the values
need not lie between zero and one. -/
theorem backtest_keeps_promises (quotes : List (ℚ × Quote)) (groups : List EventGroup)
    (fees : FeeModelRegistry) (startingBalances : Dict VenueId ℚ) (acct : AccountId)
    (maxTicketStake : Option ℚ)
    (hunique : ((groups.flatMap (·.legs)).map (·.outcomeId)).Nodup) :
    let r := runBacktest quotes groups fees startingBalances true acct maxTicketStake
    r.submissions.map (·.opp) = r.opportunities ∧
    (∀ s ∈ r.submissions, s.Honest r.brokers acct) ∧
    (∀ text ∈ r.rejections, ∃ venues : List VenueId, venues ≠ [] ∧
      text = ", ".intercalate (venues.map fun v => v ++ ":" ++ "insufficient_funds")) ∧
    ∀ (vals : EventGroup → ℚ) (source : String) (legs : List (EventGroup × EventGroupLeg)),
      (∀ e, e ∈ legs ↔ e.1 ∈ groups ∧ e.2 ∈ e.1.legs) →
      (settleLegs vals source r.brokers legs).totalCash acct =
        (fees.sumBy fun v _ => startingBalances.getD v 0) + profitOf r.submissions := by
  intro r
  have hconfig := EngineRuntime.registerAll_config
    { fees := fees, maxTicketStake := maxTicketStake } groups
  have hgroups : ∀ gid g, (backtestEngine groups fees maxTicketStake).groups.get? gid = some g →
      g ∈ groups := fun gid g hg =>
    (EngineRuntime.mem_of_registerAll hg).resolve_right fun h => by cases h
  -- an outcome is in one group, so a quote evaluates one
  have hone : ∀ o, ((backtestEngine groups fees maxTicketStake).outcomeToGroups.getD o
      []).length ≤ 1 := fun o => by
    have hlen := EngineRuntime.length_outcomeToGroups_registerAll
      { fees := fees, maxTicketStake := maxTicketStake } groups o
    have hcount := List.nodup_iff_count_le_one.mp hunique o
    exact le_trans hlen (by simpa using hcount)
  have hpay : ∀ vals : EventGroup → ℚ, ∀ e ∈ legsOf groups,
      payoutOf groups vals e.2.outcomeId = settlementValue vals e := fun vals e he =>
    payoutOf_of_mem hunique vals he
  have hkept : ∀ vals : EventGroup → ℚ, Kept groups (backtestEngine groups fees maxTicketStake)
      acct (payoutOf groups vals) (fees.sumBy fun v _ => startingBalances.getD v 0) r := by
    intro vals
    refine Runs.run_inv (fun r arrival hr => hr.onArrival
      (fun g hg y hy n hn => payoutOf_add hunique vals hg hy hn) hconfig.2 hgroups hone arrival) quotes ?_
    refine ⟨rfl, rfl, ?_, rfl, fun _ h => (by cases h), ?_, fun v a o ha hq => ?_⟩
    · exact hconfig.1.symm ▸ served_backtestBrokers fees startingBalances acct
    · exact (total_backtestBrokers ..).trans (add_zero _).symm
    · exact absurd (qty_backtestBrokers fees startingBalances acct ha o) hq
  have hhonest := (hkept fun _ => 0).honest
  refine ⟨(hkept fun _ => 0).submitted, hhonest, fun text htext => ?_,
    fun vals source legs hlegs => ?_⟩
  · obtain ⟨s, hs, htext⟩ := List.mem_filterMap.mp htext
    cases hr : s.result with
    | ok orders => rw [hr] at htext; cases htext
    | error e =>
        rw [hr] at htext
        cases htext
        exact (hhonest s hs).message hr
  · -- with every leg settled nothing is held, so the worth is the cash
    have hclosed : ∀ v a o, (settleLegs vals source r.brokers legs).get? v = some a →
        (a.account acct).qty o = 0 := by
      intro v a o ha
      by_contra hq
      obtain ⟨hoff, a₀, ha₀, hq₀⟩ := settleLegs_qty legs ha hq
      obtain ⟨g, hg, leg, hleg, hv, ho⟩ := (hkept vals).onLegs v a₀ o ha₀ hq₀
      exact hoff (g, leg) ((hlegs (g, leg)).mpr ⟨hg, hleg⟩) ⟨hv, ho⟩
    rw [← total_worth_of_flat hclosed (payoutOf groups vals), settleLegs_worth (hpay vals)
      (fun e he => mem_legsOf.mpr ((hlegs e).mp he)), (hkept vals).worth]

/-- Two quotes of one group: the opportunity fills, and both sides settle. -/
theorem backtest_keeps_promises_twoVenues :
    let r := runBacktest [(0, TwoVenues.pYes), (1, TwoVenues.kNo)] [TwoVenues.group]
      TwoVenues.fees (Dict.ofList [("polymarket_us", 1000), ("kalshi", 1000)]) true "bt" (some 200)
    r.opportunities = [TwoVenues.opportunity] ∧
      (settleLegs (fun _ => 1) "manual" r.brokers (legsOf [TwoVenues.group])).totalCash "bt" =
        2000 + 37678 / 10000 := by
  intro r
  obtain ⟨_, _, _, hcash⟩ := backtest_keeps_promises [(0, TwoVenues.pYes), (1, TwoVenues.kNo)]
    [TwoVenues.group] TwoVenues.fees (Dict.ofList [("polymarket_us", 1000), ("kalshi", 1000)])
    "bt" (some 200) (by decide)
  refine ⟨by decide +kernel, ?_⟩
  rw [hcash (fun _ => 1) "manual" (legsOf [TwoVenues.group]) fun e => mem_legsOf]
  decide +kernel

end Arbys
