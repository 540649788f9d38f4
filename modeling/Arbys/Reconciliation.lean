import Arbys.Performance

/-!
# The dashboard reconciles

The panels of `summarize` are passes over two lists, `scalars` and `traded`.
Where the second holds the filled and pending tickets of the first, the panels
agree: each ticket is in one slice and one bucket, each filled leg at one
venue, and what the panels leave out contributes nothing.
-/

namespace Arbys.Performance

open LedgerDb (Leg TicketEntry)

/-! ## Sums that skip what is unknown -/

/-- The total is what was contributed, and 0 where nothing was. -/
theorem foldl_sumStep (values : List (Option ℚ)) (acc : ℚ × Bool)
    (hacc : acc.2 = false → acc.1 = 0) :
    (values.foldl sumStep acc).1 = acc.1 + (values.map fun value => value.getD 0).sum ∧
      ((values.foldl sumStep acc).2 = false → (values.foldl sumStep acc).1 = 0) := by
  induction values generalizing acc with
  | nil => exact ⟨by simp, hacc⟩
  | cons value values ih =>
      rw [List.foldl_cons, List.map_cons, List.sum_cons]
      cases value with
      | none =>
          obtain ⟨hsum, hseen⟩ := ih acc hacc
          exact ⟨by simpa [sumStep] using hsum, hseen⟩
      | some x =>
          obtain ⟨hsum, hseen⟩ := ih (acc.1 + x, true) (fun h => by cases h)
          exact ⟨by simpa [sumStep, add_assoc] using hsum, hseen⟩

/-- Read as 0 where it is unknown, the sum is the sum of the values so read. -/
theorem getD_sumOrNone (values : List (Option ℚ)) :
    (sumOrNone values).getD 0 = (values.map fun value => value.getD 0).sum := by
  obtain ⟨hsum, hseen⟩ := foldl_sumStep values (0, false) fun _ => rfl
  rw [zero_add] at hsum
  rw [sumOrNone, ← hsum]
  split
  · rfl
  · rename_i h
    exact (hseen (by simpa using h)).symm

/-! ## Reasons -/

/-- Rolling the tail up keeps the count. -/
theorem sum_topReasons (reasons : Dict String ℕ) :
    ((topReasons reasons).map Prod.snd).sum = Dict.sumBy (fun _ n => n) reasons := by
  have hperm := List.mergeSort_perm reasons.entries fun a b => decide (b.2 ≤ a.2)
  rw [topReasons, Dict.sumBy, ← (hperm.map Prod.snd).sum_eq]
  generalize reasons.entries.mergeSort (fun a b => decide (b.2 ≤ a.2)) = ranked
  have hsplit : ((ranked.take maxReasons).map Prod.snd).sum +
      ((ranked.drop maxReasons).map Prod.snd).sum = (ranked.map Prod.snd).sum := by
    rw [← List.sum_append, ← List.map_append, List.take_append_drop]
  rw [← hsplit, List.map_append, List.sum_append]
  congr 1
  by_cases htail : ranked.drop maxReasons = []
  · rw [if_pos htail, htail]
  · rw [if_neg htail, List.map_singleton, List.sum_singleton]

/-! ## Buckets -/

section Buckets

variable {scalars : List TicketScalar} {rows : List Row} {scalarKey : String × String → String}
  {rowKey : Row → String}

/-- A sum over a panel is the sum over the entries of its counts. -/
theorem sum_groupBy {α : Type} [AddCommMonoid α] (f : DimensionRow → α) :
    ((groupBy scalars rows scalarKey rowKey).map f).sum =
      Dict.sumBy (fun name tickets => f
        { name, tickets, net := sumOrNone ((Dict.gather rowKey (·.net) rows).getD name []),
          capital := sumOrNone ((Dict.gather rowKey (·.capital) rows).getD name []) })
        (Dict.tally (scalars.map fun s => scalarKey (parseGroupId s.eventGroupId))) := by
  rw [groupBy, ((List.mergeSort_perm _ _).map f).sum_eq, List.map_map, Dict.sumBy]
  rfl

theorem sum_tickets_groupBy :
    ((groupBy scalars rows scalarKey rowKey).map (·.tickets)).sum = scalars.length := by
  rw [sum_groupBy, Dict.sumBy_tally, List.length_map]

/-- Every row falls in a bucket of the panel, so nothing of the net is lost. -/
theorem sum_net_groupBy
    (h : ∀ r ∈ rows, ∃ s ∈ scalars, rowKey r = scalarKey (parseGroupId s.eventGroupId)) :
    ((groupBy scalars rows scalarKey rowKey).map fun r => r.net.getD 0).sum =
      (rows.map fun r => r.net.getD 0).sum := by
  -- the buckets of a panel are those of the scalars, not of the rows
  have hkeys : ∀ r ∈ rows, rowKey r ∈
      (Dict.tally (scalars.map fun s => scalarKey (parseGroupId s.eventGroupId))).keys := by
    intro r hr
    obtain ⟨s, hs, hkey⟩ := h r hr
    rw [hkey]
    exact Dict.mem_keys_tally.mpr (List.mem_map_of_mem hs)
  rw [sum_groupBy, ← Dict.sumBy_buckets rowKey (fun r => r.net.getD 0) hkeys]
  simp only [Dict.getD_gather, getD_sumOrNone, List.map_map]
  rfl

end Buckets

/-! ## Venues -/

/-- The venues after a list of legs. -/
def venuesOf (legs : List Leg) : Dict VenueId VenueRow := legs.foldl addLeg Dict.empty

theorem byVenue_eq (traded : List TicketEntry) :
    byVenue traded = (venuesOf (traded.flatMap (·.legs))).values.mergeSort fun v w =>
      decide (w.deployed ≤ v.deployed) := by
  rw [byVenue, venuesOf, List.foldl_flatMap]

/-- What a venue's row adds up to. -/
def VenueRow.Balanced (v : VenueRow) : Prop := v.deployed = v.returned - v.net + v.open

theorem VenueRow.balanced_new (venueId : VenueId) : (VenueRow.new venueId).Balanced := by
  simp [Balanced, VenueRow.new]

theorem VenueRow.Balanced.add {v : VenueRow} (h : v.Balanced) (cost : ℚ) (back : Option ℚ) :
    (v.add cost back).Balanced := by
  rw [Balanced] at h
  cases back with
  | none =>
      show v.deployed + cost = v.returned - v.net + (v.open + cost)
      rw [h, add_assoc]
  | some back =>
      show v.deployed + cost = v.returned + back - (v.net + (back - cost)) + v.open
      rw [h]
      ring

theorem VenueRow.deployed_add (v : VenueRow) (cost : ℚ) (back : Option ℚ) :
    (v.add cost back).deployed = v.deployed + cost := by
  cases back <;> rfl

/-- A leg adds its cost to what is deployed, and keeps every row balanced. -/
theorem addLeg_spec (venues : Dict VenueId VenueRow) (leg : Leg)
    (h : ∀ id v, venues.get? id = some v → v.Balanced) :
    Dict.sumBy (fun _ v => v.deployed) (addLeg venues leg) =
        Dict.sumBy (fun _ v => v.deployed) venues + (legCost leg).getD 0 ∧
      ∀ id v, (addLeg venues leg).get? id = some v → v.Balanced := by
  unfold addLeg
  cases legCost leg with
  | none => exact ⟨by simp, h⟩
  | some cost =>
      have hold : (venues.getD leg.order.venueId (VenueRow.new leg.order.venueId)).Balanced := by
        cases hget : venues.get? leg.order.venueId with
        | none =>
            rw [Dict.getD_of_get?_none hget]
            exact VenueRow.balanced_new _
        | some v =>
            rw [Dict.getD_of_get? hget]
            exact h _ v hget
      constructor
      · have hzero : (VenueRow.new leg.order.venueId).deployed = 0 := rfl
        rw [Dict.sumBy_set, VenueRow.deployed_add, Dict.contrib_eq_getD hzero]
        simp
      · intro id v hv
        rw [Dict.get?_set] at hv
        split at hv
        · cases hv
          exact hold.add _ _
        · exact h id v hv

theorem venuesOf_spec (legs : List Leg) :
    Dict.sumBy (fun _ v => v.deployed) (venuesOf legs) =
        (legs.map fun leg => (legCost leg).getD 0).sum ∧
      ∀ id v, (venuesOf legs).get? id = some v → v.Balanced := by
  induction legs using List.reverseRecOn with
  | nil =>
      refine ⟨rfl, fun id v hv => ?_⟩
      cases hv
  | append_singleton legs leg ih =>
      obtain ⟨hsum, hbalanced⟩ := addLeg_spec (venuesOf legs) leg ih.2
      rw [venuesOf, List.foldl_concat, ← venuesOf]
      refine ⟨?_, hbalanced⟩
      rw [hsum, ih.1, List.map_append, List.sum_append]
      simp

/-! ## The two populations -/

/-- `traded` is the filled and pending tickets of `scalars`, in any order. -/
def TradedOf (scalars : List TicketScalar) (traded : List TicketEntry) : Prop :=
  (traded.map fun t => TicketScalar.ofTicket t.ticket).Perm
    (scalars.filter fun s => tradedStatuses.contains s.status)

/-- The statuses a ticket is given. -/
def ticketStatuses : List String := ["filled", "pending", "rejected", "missed"]

section Populations

variable {scalars : List TicketScalar} {traded : List TicketEntry}

theorem TradedOf.length_traded (h : TradedOf scalars traded) :
    traded.length = (scalars.filter fun s => tradedStatuses.contains s.status).length := by
  rw [← List.Perm.length_eq h, List.length_map]

/-- A ticket was traded, or it was rejected or missed. -/
theorem length_scalars (hstatus : ∀ s ∈ scalars, s.status ∈ ticketStatuses) :
    scalars.length = (scalars.filter fun s => tradedStatuses.contains s.status).length +
      ((scalars.map (·.status)).count "rejected" + (scalars.map (·.status)).count "missed") := by
  induction scalars with
  | nil => rfl
  | cons s scalars ih =>
      have hrest := ih fun s' hs' => hstatus s' (List.mem_cons_of_mem _ hs')
      have hs := hstatus s List.mem_cons_self
      simp only [ticketStatuses, List.mem_cons, List.not_mem_nil, or_false] at hs
      rw [List.length_cons, hrest, List.map_cons, List.count_cons, List.count_cons,
        List.filter_cons]
      rcases hs with h | h | h | h
      · simp [h, tradedStatuses]
        omega
      · simp [h, tradedStatuses]
        omega
      · simp [h, tradedStatuses]
        omega
      · simp [h, tradedStatuses]
        omega

variable {t : TicketEntry}

theorem TradedOf.exists_scalar (h : TradedOf scalars traded) (ht : t ∈ traded) :
    TicketScalar.ofTicket t.ticket ∈ scalars ∧ tradedStatuses.contains t.ticket.status = true :=
  List.mem_filter.mp (h.mem_iff.mp (List.mem_map_of_mem ht))

/-- A traded ticket is settled or open. -/
theorem outcome_of_traded (h : tradedStatuses.contains t.ticket.status = true) :
    (Row.ofTicket t).outcome ≠ .none ∧
      ((Row.ofTicket t).isSettled = false → (Row.ofTicket t).net = none) := by
  have hnever : neverTraded.contains t.ticket.status = false := by
    simp only [tradedStatuses, List.contains_eq_mem, List.mem_cons, List.not_mem_nil, or_false,
      decide_eq_true_eq] at h
    rcases h with h | h
    · rw [h]
      rfl
    · rw [h]
      rfl
  have houtcome : (Row.ofTicket t).outcome = ticketOutcome t.ticket.status t.realizedProfit := rfl
  have hnet : (Row.ofTicket t).net = t.realizedProfit := rfl
  rw [Row.isSettled, houtcome, hnet]
  simp only [ticketOutcome, hnever, Bool.false_eq_true, if_false]
  cases t.realizedProfit with
  | none => exact ⟨by simp, fun _ => rfl⟩
  | some profit =>
      by_cases hwon : 0 < profit
      · simp [hwon]
      · by_cases hlost : profit < 0
        · simp [hwon, hlost]
        · simp [hwon, hlost]

/-- What is open contributes nothing to the net. -/
theorem sum_net_settled (h : TradedOf scalars traded) :
    (((traded.map Row.ofTicket).filter Row.isSettled).map fun r => r.net.getD 0).sum =
      ((traded.map Row.ofTicket).map fun r => r.net.getD 0).sum := by
  refine Dict.sum_filter_of_eq_zero fun r hr hopen => ?_
  obtain ⟨t, ht, rfl⟩ := List.mem_map.mp hr
  rw [(outcome_of_traded (h.exists_scalar ht).2).2 hopen]
  rfl

/-- The outcomes of tickets that traded are four. -/
theorem length_outcomes {l : List TicketOutcome} (h : TicketOutcome.none ∉ l) :
    l.count .won + l.count .open + l.count .lost + l.count .flat = l.length := by
  induction l with
  | nil => rfl
  | cons outcome l ih =>
      have hrest := ih fun hmem => h (List.mem_cons_of_mem _ hmem)
      simp only [List.count_cons, List.length_cons]
      cases outcome with
      | none => exact absurd List.mem_cons_self h
      | «open» => simp; omega
      | won => simp; omega
      | lost => simp; omega
      | flat => simp; omega

end Populations

/-! ## The figures of one summary -/

/-- What the panels of a summary have to do with each other and with the
tickets. -/
structure Reconciles (scalars : List TicketScalar) (s : Summary) : Prop where
  attempted : s.attempted = s.byStatus.values.sum ∧ s.attempted = scalars.length
  outcomes : (s.outcomeMix.map Prod.snd).sum = s.attempted
  leagues : (s.byLeague.map (·.tickets)).sum = s.attempted ∧
    (s.byLeague.map fun r => r.net.getD 0).sum = s.netProfit.getD 0
  marketTypes : (s.byMarketType.map (·.tickets)).sum = s.attempted ∧
    (s.byMarketType.map fun r => r.net.getD 0).sum = s.netProfit.getD 0
  venues : (s.byVenue.map (·.deployed)).sum = s.capitalDeployed.getD 0 ∧
    ∀ v ∈ s.byVenue, v.deployed = v.returned - v.net + v.open
  reasons : (s.rejectionReasons.map Prod.snd).sum =
    scalars.countP fun s => s.rejectionReason.isSome

section Summary

variable {scalars : List TicketScalar} {traded : List TicketEntry}

theorem attempted_eq (scalars : List TicketScalar) (traded : List TicketEntry) :
    (summarize scalars traded).attempted = scalars.length := by
  show ((Dict.tally (scalars.map (·.status))).entries.map Prod.snd).sum = scalars.length
  rw [← List.length_map (·.status), ← Dict.sumBy_tally]
  rfl

/-- The slices: the traded tickets by outcome, the others by status. -/
theorem outcomeMix_eq (rows : List Row) (byStatus : Dict String ℕ) :
    outcomeMix rows byStatus =
      [("Settled won", (rows.map (·.outcome)).count .won),
        ("Open", (rows.map (·.outcome)).count .open),
        ("Settled lost", (rows.map (·.outcome)).count .lost),
        ("Flat", (rows.map (·.outcome)).count .flat),
        ("Never filled", byStatus.getD "rejected" 0 + byStatus.getD "missed" 0)] := by
  have hzero : ∀ key, (Dict.ofList (outcomeMixOrder.map fun slice => (slice.2, 0))).getD key 0 =
      0 := by
    intro key
    cases key <;> rfl
  -- the slice of the tickets that never traded is written last, over its count
  have hcount : ∀ key, key ≠ .none → ((Dict.tallyOn
      (Dict.ofList (outcomeMixOrder.map fun slice => (slice.2, 0))) (rows.map (·.outcome))).set
        .none (byStatus.getD "rejected" 0 + byStatus.getD "missed" 0)).getD key 0 =
      (rows.map (·.outcome)).count key := by
    intro key hkey
    rw [Dict.getD_set_ne _ hkey, Dict.getD_tallyOn, hzero, Nat.zero_add]
  rw [outcomeMix, ← hcount .won (by decide), ← hcount .open (by decide),
    ← hcount .lost (by decide), ← hcount .flat (by decide)]
  simp only [outcomeMixOrder, List.map_cons, List.map_nil, Dict.getD_set_self]

theorem sum_outcomeMix (hstatus : ∀ s ∈ scalars, s.status ∈ ticketStatuses)
    (h : TradedOf scalars traded) :
    ((summarize scalars traded).outcomeMix.map Prod.snd).sum = scalars.length := by
  have hnone : TicketOutcome.none ∉ (traded.map Row.ofTicket).map (·.outcome) := by
    intro hmem
    rw [List.map_map] at hmem
    obtain ⟨t, ht, hout⟩ := List.mem_map.mp hmem
    exact (outcome_of_traded (h.exists_scalar ht).2).1 hout
  have hrows := length_outcomes hnone
  rw [List.length_map, List.length_map, h.length_traded] at hrows
  have hmix : (summarize scalars traded).outcomeMix =
      outcomeMix (traded.map Row.ofTicket) (Dict.tally (scalars.map (·.status))) := rfl
  rw [hmix, outcomeMix_eq, length_scalars hstatus, ← hrows, Dict.getD_tally, Dict.getD_tally]
  simp only [List.map_cons, List.map_nil, List.sum_cons, List.sum_nil, Nat.add_zero,
    Nat.add_assoc]

/-- A panel's buckets are filled from the same ids on both sides. -/
theorem sum_net_panel (h : TradedOf scalars traded) {scalarKey : String × String → String}
    {rowKey : Row → String}
    (hkey : ∀ t, rowKey (Row.ofTicket t) = scalarKey (parseGroupId t.ticket.eventGroupId)) :
    ((groupBy scalars (traded.map Row.ofTicket) scalarKey rowKey).map fun r => r.net.getD 0).sum =
      (summarize scalars traded).netProfit.getD 0 := by
  have hnet : (summarize scalars traded).netProfit =
      sumOrNone (((traded.map Row.ofTicket).filter Row.isSettled).map (·.net)) := rfl
  have hrows : ∀ r ∈ traded.map Row.ofTicket,
      ∃ s ∈ scalars, rowKey r = scalarKey (parseGroupId s.eventGroupId) := by
    intro r hr
    obtain ⟨t, ht, rfl⟩ := List.mem_map.mp hr
    exact ⟨_, (h.exists_scalar ht).1, hkey t⟩
  rw [sum_net_groupBy hrows, ← sum_net_settled h, hnet, getD_sumOrNone, List.map_map]
  rfl

theorem sum_deployed (scalars : List TicketScalar) (traded : List TicketEntry) :
    ((summarize scalars traded).byVenue.map (·.deployed)).sum =
      (summarize scalars traded).capitalDeployed.getD 0 := by
  have hcapital : (summarize scalars traded).capitalDeployed =
      sumOrNone ((traded.map Row.ofTicket).map (·.capital)) := rfl
  have hvenues : (summarize scalars traded).byVenue = byVenue traded := rfl
  have hlegs : ∀ t : TicketEntry,
      (Row.ofTicket t).capital.getD 0 = (t.legs.map fun leg => (legCost leg).getD 0).sum := by
    intro t
    have hcost : (Row.ofTicket t).capital = sumOrNone (t.legs.map legCost) := rfl
    rw [hcost, getD_sumOrNone, List.map_map]
    rfl
  rw [hvenues, byVenue_eq, ((List.mergeSort_perm _ _).map _).sum_eq, Dict.values, List.map_map,
    hcapital, getD_sumOrNone]
  refine Eq.trans (venuesOf_spec _).1 ?_
  induction traded with
  | nil => rfl
  | cons t traded ih =>
      simp only [List.flatMap_cons, List.map_append, List.sum_append, List.map_cons, List.sum_cons,
        hlegs, ih rfl rfl]

/-- **The dashboard reconciles with itself**, over every ledger. -/
theorem dashboard_reconciles (hstatus : ∀ s ∈ scalars, s.status ∈ ticketStatuses)
    (h : TradedOf scalars traded) : Reconciles scalars (summarize scalars traded) where
  attempted := ⟨rfl, attempted_eq scalars traded⟩
  outcomes := (sum_outcomeMix hstatus h).trans (attempted_eq scalars traded).symm
  leagues := by
    have hpanel : (summarize scalars traded).byLeague = groupBy scalars (traded.map Row.ofTicket)
        (fun key => key.1.toUpper) (fun r => r.sport.toUpper) := rfl
    rw [hpanel]
    refine ⟨sum_tickets_groupBy.trans (attempted_eq scalars traded).symm, sum_net_panel h ?_⟩
    intro t
    simp only [Row.ofTicket]
  marketTypes := by
    have hpanel : (summarize scalars traded).byMarketType =
        groupBy scalars (traded.map Row.ofTicket) Prod.snd (·.marketType) := rfl
    rw [hpanel]
    refine ⟨sum_tickets_groupBy.trans (attempted_eq scalars traded).symm, sum_net_panel h ?_⟩
    intro t
    simp only [Row.ofTicket]
  venues := by
    refine ⟨sum_deployed scalars traded, fun v hv => ?_⟩
    have hvenues : (summarize scalars traded).byVenue = byVenue traded := rfl
    rw [hvenues, byVenue_eq, List.mem_mergeSort] at hv
    obtain ⟨⟨id, w⟩, he, rfl⟩ := List.mem_map.mp hv
    exact (venuesOf_spec _).2 id w (Dict.mem_entries_iff.mp he)
  reasons := by
    have hreasons : (summarize scalars traded).rejectionReasons =
        topReasons (Dict.tally (scalars.filterMap (·.rejectionReason))) := rfl
    rw [hreasons, sum_topReasons, Dict.sumBy_tally, List.length_filterMap_eq_countP]

/-- What the endpoint reads of the ledger, where its limit keeps no traded
ticket out. -/
theorem tradedOf_ledger (db : LedgerDb) (accountId : AccountId) (since : Option ℚ)
    (source : Option String) {limit : ℕ}
    (hlimit : (db.tickets.filter
      (ticketFilters accountId since (some tradedStatuses) source)).length ≤ limit) :
    TradedOf (paperTicketScalars db accountId since source)
      (db.listPaperTickets accountId limit (some tradedStatuses) source since none none) := by
  have hfilter : ∀ t, ticketFilters accountId since (some tradedStatuses) source t =
      (ticketFilters accountId since none source t && tradedStatuses.contains t.status) := by
    intro t
    simp only [ticketFilters, statusIn, Option.all_some, Option.all_none]
    cases tradedStatuses.contains t.status <;> simp
  have hlen : ((db.tickets.filter (ticketFilters accountId since (some tradedStatuses)
      source)).mergeSort LedgerDb.ticketAfter).length = (db.tickets.filter
        (ticketFilters accountId since (some tradedStatuses) source)).length :=
    List.length_mergeSort _
  have hread : (db.listPaperTickets accountId limit (some tradedStatuses) source since none
      none).map (fun t => t.ticket) = (db.tickets.filter
        (ticketFilters accountId since (some tradedStatuses) source)).mergeSort
          LedgerDb.ticketAfter := by
    simp only [LedgerDb.listPaperTickets, LedgerDb.outcomeClause, Option.all_none, Bool.and_true,
      List.map_map, Function.comp_def, List.map_id']
    rw [List.take_of_length_le (by rw [hlen]; exact hlimit)]
  have hticket : ((db.listPaperTickets accountId limit (some tradedStatuses) source since none
      none).map fun t => TicketScalar.ofTicket t.ticket) =
      ((db.tickets.filter (ticketFilters accountId since (some tradedStatuses) source)).mergeSort
        LedgerDb.ticketAfter).map TicketScalar.ofTicket := by
    rw [← hread, List.map_map]
    rfl
  rw [TradedOf, hticket, paperTicketScalars, List.filter_map, List.filter_filter]
  refine ((List.mergeSort_perm _ _).map _).trans (List.Perm.of_eq ?_)
  refine congrArg (List.map TicketScalar.ofTicket) (List.filter_congr fun t _ => ?_)
  rw [hfilter, Bool.and_comm]
  rfl

end Summary

/-! ## A ledger of two tickets -/

def aTicket (id : TicketId) (status : String) (rejectionReason : Option String) : PaperTicket where
  id := id
  accountId := "default"
  eventGroupId := "mlb-BOS-NYY-2026-09-05"
  titleSnapshot := "Red Sox vs Yankees"
  startsAt := none
  source := "auto"
  status := status
  rejectionReason := rejectionReason
  excludedReason := none
  totalStake := none
  expectedProfit := none
  expectedEdgeBps := none
  submittedAt := 10

def anOrder (id : String) (venueId : VenueId) (outcomeId : OutcomeId) : PaperOrder where
  id := id
  accountId := "default"
  venueId := venueId
  outcomeId := outcomeId
  isBuy := true
  qty := 10
  limitPrice := 1 / 2
  status := "filled"
  submittedAt := 10
  ticketId := some "filled"
  rejectionReason := none

/-- One ticket filled at two venues, of which one has settled, and one rejected. -/
def aLedger : LedgerDb where
  tickets := [aTicket "filled" "filled" none, aTicket "rejected" "rejected" (some "stale_quote")]
  orders := [anOrder "o1" "kalshi" "kalshi:BOS:YES", anOrder "o2" "polymarket_us" "poly:NYY"]
  fills := [⟨"o1", 10, 1 / 2, 1 / 10⟩, ⟨"o2", 10, 2 / 5, 0⟩]
  settlements := [⟨"kalshi:BOS:YES", 1, 20, "venue"⟩]
  tickets_nodup := by decide
  orders_nodup := by decide

theorem dashboard_reconciles_aLedger :
    Reconciles (paperTicketScalars aLedger "default" none none)
      (summarize (paperTicketScalars aLedger "default" none none)
        (aLedger.listPaperTickets "default" 10 (some tradedStatuses) none none none none)) :=
  dashboard_reconciles (by decide) (tradedOf_ledger aLedger "default" none none (by decide))

end Arbys.Performance
