import Arbys.EventLoop
import Arbys.Lib.Runs

/-!
# The prices a ticket was judged at, and those it fills at

`implausible_edge` and `stale_leg_skew` judge the book of the call; the fill
reads the book again after the `pending` write and takes any better price.
Both guards are properties of a book and the legs of a ticket (`GuardsHold`),
and a quote that lands in the window is the only thing that can undo them.
Where no such quote does, they hold of the prices filled.
-/

namespace Arbys

open World Router PaperExecutionAdapter

/-- The guards as the book has them now: at the asks, and by the stamps. -/
structure GuardsHold (cfg : Settings) (book : QuoteBook) (legs : List IntentLeg) : Prop where
  edge_le : ∀ ceiling ∈ cfg.maxPlausibleEdge,
    netEdgePerContract (legs.map fun leg => book.askOf leg.outcomeId) ≤ ceiling
  together : ∀ limit ∈ cfg.maxLegAgeSkewS, ∀ leg ∈ legs, ∀ leg' ∈ legs,
    book.stampOf leg.outcomeId - book.stampOf leg'.outcomeId ≤ limit

instance (cfg : Settings) (book : QuoteBook) (legs : List IntentLeg) :
    Decidable (GuardsHold cfg book legs) :=
  decidable_of_iff (_ ∧ _) ⟨fun h => ⟨h.1, h.2⟩, fun h => ⟨h.edge_le, h.together⟩⟩

/-- The guards, of the prices a ticket that ended filled was filled at, and of
the ages its legs' quotes had at that moment. -/
def FilledWithinGuards (cfg : Settings) : Happening → Prop
  | .committed _ _ t before fills (.ok _) => (∀ f ∈ fills, f.order.isBuy = true) →
      (∀ ceiling ∈ cfg.maxPlausibleEdge, 1 - (fills.map fun f => f.fill.price).sum ≤ ceiling) ∧
      ∀ limit ∈ cfg.maxLegAgeSkewS, ∀ f ∈ fills, ∀ f' ∈ fills,
        ∀ entry ∈ before.book.getWithAge t.now f.order.outcomeId,
        ∀ entry' ∈ before.book.getWithAge t.now f'.order.outcomeId, entry.2 - entry'.2 ≤ limit
  | _ => True

instance (cfg : Settings) : (x : Happening) → Decidable (FilledWithinGuards cfg x)
  | .committed _ _ _ _ _ (.ok _) => inferInstanceAs (Decidable (_ → _ ∧ _))
  | .committed _ _ _ _ _ (.error _) | .settled .. | .refused .. | .raised .. => isTrue trivial

/-- Every ticket that ended filled is within the guards. -/
def FillsWithinGuards (cfg : Settings) (history : List Happening) : Prop :=
  ∀ x ∈ history, FilledWithinGuards cfg x

instance (cfg : Settings) (history : List Happening) :
    Decidable (FillsWithinGuards cfg history) :=
  inferInstanceAs (Decidable (∀ x ∈ history, FilledWithinGuards cfg x))

theorem filledWithinGuards_of_not_isCommit (cfg : Settings) {x : Happening}
    (h : x.isCommit = false) : FilledWithinGuards cfg x := by
  cases x with
  | committed ticketId acct t before fills result => cases h
  | settled v o => trivial
  | refused ticketId status reason => trivial
  | raised ticketId error => trivial

/-- The condition on a step: a quote for an outcome that a ticket in the window
buys leaves the guards of that ticket as they were, satisfied. -/
def QuotesKeepGuards (cfg : Settings) (w : World) : Event → Prop
  | .quote t quote => ∀ ticket ∈ w.tickets.entries,
      (∃ leg ∈ ticket.2.intent.legs, leg.outcomeId = quote.outcomeId) →
      GuardsHold cfg (w.state.book.upsert t.now quote) ticket.2.intent.legs
  | _ => True

instance (cfg : Settings) (w : World) : (e : Event) → Decidable (QuotesKeepGuards cfg w e)
  | .quote _ _ => inferInstanceAs (Decidable (∀ ticket ∈ w.tickets.entries, _ → _))
  | .submit .. | .resume .. | .tick _ | .pass .. | .registerGroup _ | .retireGroup _
  | .beginDraining => isTrue trivial

section Admission

variable {cfg : Settings} {book : QuoteBook} {now : ℚ}

theorem askOf_of_get? {o : OutcomeId} {quote : Quote} {at_ : ℚ}
    (h : book.quotes.get? o = some (quote, at_)) :
    book.askOf o = quote.ask ∧ book.stampOf o = at_ := by
  rw [QuoteBook.askOf, QuoteBook.stampOf, h]
  exact ⟨rfl, rfl⟩

/-- The ages of legs that all buy quoted outcomes. -/
theorem legAges_eq (book : QuoteBook) (now : ℚ) {legs : List ArbLeg} (hbuy : ∀ leg ∈ legs, leg.isBuy = true)
    (hquoted : ∀ leg ∈ legs, (book.quotes.get? leg.outcomeId).isSome = true)
    (ages : Dict OutcomeId ℚ) :
    ∃ ages', legAges book now legs ages = some ages' ∧ ∀ o, ages'.get? o =
      if o ∈ legs.map (·.outcomeId) then some (now - book.stampOf o) else ages.get? o := by
  induction legs generalizing ages with
  | nil => exact ⟨ages, rfl, fun o => by simp⟩
  | cons leg legs ih =>
      obtain ⟨entry, hentry⟩ := Option.isSome_iff_exists.mp (hquoted leg List.mem_cons_self)
      obtain ⟨ages', hages, hget⟩ := ih (fun l hl => hbuy l (List.mem_cons_of_mem _ hl))
        (fun l hl => hquoted l (List.mem_cons_of_mem _ hl))
        (ages.set leg.outcomeId (now - entry.2))
      refine ⟨ages', ?_, fun o => ?_⟩
      · simp only [legAges, hbuy leg List.mem_cons_self, if_true, QuoteBook.getWithAge, hentry,
          Option.map_some]
        exact hages
      · rw [hget o, List.map_cons]
        by_cases ho : o = leg.outcomeId
        · subst ho
          have hstamp : book.stampOf leg.outcomeId = entry.2 := (askOf_of_get? hentry).2
          simp [hstamp]
        · simp [ho, Dict.get?_set_ne _ ho]

/-- Two ages among those of the guard are within the limit it passed. -/
theorem age_sub_age_le {ages : Dict OutcomeId ℚ} {limit oldest youngest : ℚ} (hlimit : 0 < limit)
    (hmax : ages.values.max? = some oldest) (hmin : ages.values.min? = some youngest)
    (h : ages.values.length < 2 ∨ oldest - youngest ≤ limit) {o o' : OutcomeId} {age age' : ℚ}
    (ho : ages.get? o = some age) (ho' : ages.get? o' = some age') : age - age' ≤ limit := by
  have hmem : ∀ {o age}, ages.get? o = some age → (o, age) ∈ ages.entries := fun h =>
    Dict.mem_entries_iff.mpr h
  by_cases hoo : o = o'
  · subst hoo
    rw [ho] at ho'
    cases ho'
    linarith
  · rcases h with hlen | hskew
    · -- two distinct outcomes are two entries
      have hsub : [(o, age), (o', age')] ⊆ ages.entries := by
        intro e he
        rcases List.mem_pair.mp he with rfl | rfl
        · exact hmem ho
        · exact hmem ho'
      have hnodup : [(o, age), (o', age')].Nodup := by simp [hoo]
      have hle := (hnodup.subperm hsub).length_le
      simp only [Dict.values, List.length_map] at hlen
      simp only [List.length_cons, List.length_nil] at hle
      omega
    · have hval : ∀ {o age}, ages.get? o = some age → age ∈ ages.values := fun h =>
        List.mem_map.mpr ⟨_, hmem h, rfl⟩
      have h1 := (List.max?_eq_some_iff.mp hmax).2 age (hval ho)
      have h2 := (List.min?_eq_some_iff.mp hmin).2 age' (hval ho')
      linarith

/-- **At the call the guards hold**, of the book the ticket was judged on. -/
theorem Admitted.guardsHold {s : AppState} {t : Instant} {opp live : ArbOpportunity}
    {acct : AccountId} (h : Admitted cfg s t opp acct live) (ticketId : Option TicketId) :
    GuardsHold cfg s.book (live.toIntent acct ticketId).legs := by
  have hlegs := h.legs.1
  have hbuys : live.legs.filter (fun leg => leg.isBuy) = live.legs :=
    List.filter_eq_self.mpr fun leg hleg => (hlegs leg hleg).1
  constructor
  · intro ceiling hceiling
    have hedge_le := h.edge_le
    simp only [implausibleEdge, Option.mem_def.mp hceiling, hbuys] at hedge_le
    split at hedge_le
    · rename_i hedge
      refine le_of_eq_of_le (congrArg netEdgePerContract ?_) hedge
      simp only [ArbOpportunity.toIntent, List.map_map]
      refine List.map_congr_left fun leg hleg => ?_
      obtain ⟨_, _, quote, at_, hat, hprice⟩ := hlegs leg hleg
      exact (askOf_of_get? hat).1.trans hprice.symm
    · cases hedge_le
  · intro limit hlimit leg hleg leg' hleg'
    have hpos := cfg.maxLegAgeSkewS_pos limit hlimit
    obtain ⟨arb, harb, rfl⟩ := List.mem_map.mp hleg
    obtain ⟨arb', harb', rfl⟩ := List.mem_map.mp hleg'
    obtain ⟨ages, hages, hget⟩ := legAges_eq s.book t.now
      (fun l hl => (hlegs l hl).1) (fun l hl => by
        obtain ⟨_, _, quote, at_, hat, _⟩ := hlegs l hl
        rw [hat]
        rfl) Dict.empty
    have hfresh := h.fresh
    simp only [staleLegSkew, Option.mem_def.mp hlimit, hages] at hfresh
    have hage : ∀ l ∈ live.legs, ages.get? l.outcomeId =
        some (t.now - s.book.stampOf l.outcomeId) := fun l hl => by
      rw [hget, if_pos (List.mem_map_of_mem hl)]
    -- there is an age for each leg, so the oldest and the youngest exist
    have hne : ages.values ≠ [] := fun hnil => by
      have hmem : t.now - s.book.stampOf arb.outcomeId ∈ ages.values :=
        List.mem_map.mpr ⟨_, Dict.mem_entries_iff.mpr (hage arb harb), rfl⟩
      rw [hnil] at hmem
      cases hmem
    obtain ⟨oldest, hmax⟩ := Option.ne_none_iff_exists'.mp (mt List.max?_eq_none_iff.mp hne)
    obtain ⟨youngest, hmin⟩ := Option.ne_none_iff_exists'.mp (mt List.min?_eq_none_iff.mp hne)
    simp only [hmax, hmin] at hfresh
    split at hfresh
    · rename_i hskew
      have := age_sub_age_le hpos hmax hmin hskew (hage arb' harb') (hage arb harb)
      simp only [ArbLeg.toIntent]
      linarith
    · cases hfresh

/-- Guards are read off the entries of the legs. -/
theorem GuardsHold.congr {book' : QuoteBook} {legs : List IntentLeg}
    (h : GuardsHold cfg book legs)
    (hsame : ∀ leg ∈ legs, book'.quotes.get? leg.outcomeId = book.quotes.get? leg.outcomeId) :
    GuardsHold cfg book' legs := by
  have hstamp : ∀ leg ∈ legs, book'.stampOf leg.outcomeId = book.stampOf leg.outcomeId :=
    fun leg hleg => by rw [QuoteBook.stampOf, hsame leg hleg, ← QuoteBook.stampOf]
  constructor
  · intro ceiling hceiling
    refine le_of_eq_of_le (congrArg netEdgePerContract ?_) (h.edge_le ceiling hceiling)
    refine List.map_congr_left fun leg hleg => ?_
    rw [QuoteBook.askOf, hsame leg hleg, ← QuoteBook.askOf]
  · intro limit hlimit leg hleg leg' hleg'
    rw [hstamp leg hleg, hstamp leg' hleg']
    exact h.together limit hlimit leg hleg leg' hleg'

end Admission

/-! ## What a commit fills at -/

/-- No broker slips in the taker's favour. -/
def Brokers.SlipsAdversely (b : Brokers) : Prop :=
  ∀ v a, b.get? v = some a → 0 ≤ a.slippageBps

theorem Brokers.SlipsAdversely.put {b : Brokers} (h : b.SlipsAdversely)
    {a a' : PaperExecutionAdapter} {v : VenueId} (ha : b.get? v = some a)
    (hs : a'.slippageBps = a.slippageBps) : (b.put a').SlipsAdversely := by
  intro w c hc
  rw [get?_put] at hc
  split at hc
  · cases hc
    rw [hs]
    exact h v a ha
  · exact h w c hc

theorem Brokers.SlipsAdversely.related {b b' : Brokers} (h : b.SlipsAdversely)
    (hrel : b.Related Released b') : b'.SlipsAdversely := by
  intro v a' ha'
  obtain ⟨a, ha, hr⟩ := hrel.back ha'
  rw [hr.slippageBps]
  exact h v a ha

/-- **A ticket of buys whose every leg fills** pays, in all, the asks of the
book it fills against or more, an outcome for every leg. -/
theorem fillRecords_prices {book : QuoteBook} {clock : ℕ → ℚ} {acct : AccountId}
    {ticketId : Option TicketId} {n : ℕ} {b : Brokers} {legs : List IntentLeg}
    (hslip : b.SlipsAdversely) (hbuy : ∀ leg ∈ legs, leg.isBuy = true)
    (hall : (commitLegs book clock acct ticketId n b legs).failure = none) :
    (legs.map fun leg => book.askOf leg.outcomeId).sum ≤
        ((fillRecords book clock acct ticketId n b legs).map fun f => f.fill.price).sum ∧
      (commitLegs book clock acct ticketId n b legs).brokers.SlipsAdversely := by
  induction legs generalizing n b with
  | nil => exact ⟨le_refl _, hslip⟩
  | cons leg legs ih =>
      rcases fillRecords_cons b book clock acct ticketId n leg legs with
        ⟨_, hfail⟩ | ⟨a, px, cost, ha, hprice, hcons, hfailure, hbrokers⟩
      · exact absurd hall hfail
      · rw [hfailure] at hall
        have hside := hbuy leg List.mem_cons_self
        have hput : (b.put (a.acceptLeg acct leg ticketId px).adapter).SlipsAdversely :=
          hslip.put ha rfl
        obtain ⟨hrest, hafter⟩ := ih hput (fun l hl => hbuy l (List.mem_cons_of_mem _ hl)) hall
        rw [hcons, hbrokers]
        refine ⟨?_, hafter⟩
        simp only [priceLeg, ha, hside] at hprice
        obtain ⟨quote, hquote, _, hpx, _, _⟩ := previewFill_eq_ok hprice
        obtain ⟨at_, hat, _⟩ := QuoteBook.get_eq_some_iff.mp hquote
        have hask : book.askOf leg.outcomeId ≤ px := by
          rw [(askOf_of_get? hat).1, hpx]
          exact le_applySlippage (hslip _ a ha) quote.ask_nonneg quote.ask_le_one
        simp only [List.map_cons, List.sum_cons]
        exact add_le_add hask hrest

/-! ## Runs -/

/-- The invariant: every ticket in the window buys, and would pass its guards
now. -/
structure PricesGuarded (cfg : Settings) (w : World) : Prop where
  slippage : w.state.brokers.SlipsAdversely
  buys : ∀ id task, w.tickets.get? id = some task → ∀ leg ∈ task.intent.legs, leg.isBuy = true
  window : ∀ id task, w.tickets.get? id = some task →
    GuardsHold cfg w.state.book task.intent.legs
  history : ∀ x ∈ w.history, FilledWithinGuards cfg x

variable {cfg : Settings} {w : World} {e : Event}

/-- A commit of a ticket whose guards hold fills within them. -/
theorem PricesGuarded.commitment (h : PricesGuarded cfg w) {t : Instant} {id : TicketId}
    {task : TicketTask} (htask : w.tickets.get? id = some task) :
    FilledWithinGuards cfg (w.commitment t id task.intent) := by
  have hguards := h.window id task htask
  rcases commitAtomically_cases w.state.brokers w.state.book (fun _ => t.now) task.intent with
    ⟨hall, _, orders, hresult⟩ | ⟨_, error, hresult⟩
  · simp only [World.commitment, hresult]
    intro _
    refine ⟨fun ceiling hceiling => ?_, ?_⟩
    · have hsum := (fillRecords_prices h.slippage (h.buys id task htask) hall).1
      have hedge := hguards.edge_le ceiling hceiling
      rw [netEdgePerContract] at hedge
      linarith
    · intro limit hlimit f hf f' hf' entry hentry entry' hentry'
      obtain ⟨leg, hleg, _, ho, _⟩ := exists_leg_of_mem_fillRecords hf
      obtain ⟨leg', hleg', _, ho', _⟩ := exists_leg_of_mem_fillRecords hf'
      have hage : ∀ {o entry}, w.state.book.getWithAge t.now o = some entry →
          entry.2 = t.now - w.state.book.stampOf o := by
        intro o entry hentry
        obtain ⟨stored, hstored, rfl⟩ := Option.map_eq_some_iff.mp hentry
        rw [(askOf_of_get? hstored).2]
      rw [hage hentry, hage hentry', ho, ho']
      have := hguards.together limit hlimit leg' hleg' leg hleg
      linarith
  · simp only [World.commitment, hresult]
    trivial

/-- **The step lemma.** -/
theorem PricesGuarded.step (h : PricesGuarded cfg w) (hok : QuotesKeepGuards cfg w e) :
    PricesGuarded cfg (w.step cfg e) := by
  constructor
  · rcases brokers_step cfg w e with hrel | ⟨t, id, task, _, htask, _, hall, hbrokers⟩
    · exact h.slippage.related hrel
    · rw [hbrokers]
      exact (fillRecords_prices h.slippage (h.buys id task htask) hall).2
  · intro id task htask leg hleg
    rcases tickets_step htask with ⟨task₀, htask₀, hintent⟩ | ⟨t, opp, acct, live, _, hadm, hintent⟩
    · exact h.buys id task₀ htask₀ leg (hintent ▸ hleg)
    · rw [hintent] at hleg
      obtain ⟨arb, harb, rfl⟩ := List.mem_map.mp hleg
      exact (hadm.legs.1 arb harb).1
  · intro id task htask
    rcases tickets_step htask with ⟨task₀, htask₀, hintent⟩ | ⟨t, opp, acct, live, rfl, hadm, hintent⟩
    · rw [hintent]
      rcases book_step cfg w e with hbook | ⟨t, quote, rfl, hbook⟩
      · rw [hbook]
        exact h.window id task₀ htask₀
      · rw [hbook]
        -- a quote touches the tickets that buy its outcome, and no other
        by_cases hbuys : ∃ leg ∈ task₀.intent.legs, leg.outcomeId = quote.outcomeId
        · exact hok (id, task₀) (Dict.mem_entries_iff.mpr htask₀) hbuys
        · refine (h.window id task₀ htask₀).congr fun leg hleg => ?_
          exact QuoteBook.upsert_get?_ne _ _ _ fun ho => hbuys ⟨leg, hleg, ho⟩
    · rcases book_step cfg w (.submit t id opp acct) with hbook | ⟨t', quote, hne, _⟩
      · rw [hintent, hbook]
        exact hadm.guardsHold _
      · cases hne
  · intro x hx
    obtain ⟨new, hnew, hkind⟩ := history_step cfg w e
    rw [hnew] at hx
    rcases List.mem_append.mp hx with hold | hx
    · exact h.history x hold
    · rcases hkind with hquiet | ⟨t, id, task, _, htask, rfl⟩
      · exact filledWithinGuards_of_not_isCommit cfg (hquiet x hx).1
      · rw [List.mem_singleton.mp hx]
        exact h.commitment htask

/-- **The guards hold for the prices filled**, in every run of the loop from a
state whose brokers do not slip in the taker's favour, when no quote that
lands in a ticket's window undoes them. -/
theorem price_guards_hold (cfg : Settings) (s : AppState)
    (hslip : ∀ v a, s.brokers.get? v = some a → 0 ≤ a.slippageBps) (events : List Event)
    (h : Runs.Guarded (World.step cfg) (QuotesKeepGuards cfg) { state := s } events) :
    FillsWithinGuards cfg (Runs.run (World.step cfg) { state := s } events).history :=
  (h.inv (I := PricesGuarded cfg) (fun _ _ hi hok => hi.step hok)
    ⟨hslip, fun _ _ htask => (by cases htask), fun _ _ htask => (by cases htask),
      fun _ hx => (by cases hx)⟩).history

/-! ## A quote in the window -/

namespace QuoteInWindow

def t : Instant := ⟨0, 0⟩

/-- A ticket is admitted, a quote lands on its YES leg, and the ticket goes on
to its end. -/
def events (quote : Quote) : List Event :=
  [.submit t "ticket" TwoVenues.opportunity "default", .quote t quote, .resume t "ticket",
    .resume t "ticket", .resume t "ticket"]

/-- A cent better. -/
def better : Quote := TwoVenues.quote "p-yes" (44 / 100) (by norm_num) (by norm_num)

/-- A book that is not real. -/
def broken : Quote := TwoVenues.quote "p-yes" (20 / 100) (by norm_num) (by norm_num)

end QuoteInWindow

theorem price_guards_hold_better :
    FillsWithinGuards .default (Runs.run (World.step .default) { state := TwoVenues.state }
      (QuoteInWindow.events QuoteInWindow.better)).history :=
  price_guards_hold .default TwoVenues.state
    (fun v a ha => by
      have hslip : ∀ e ∈ TwoVenues.state.brokers.adapters.entries, 0 ≤ e.2.slippageBps := by
        decide +kernel
      exact hslip (v, a) (Dict.mem_entries_iff.mpr ha))
    (QuoteInWindow.events QuoteInWindow.better) (by decide +kernel)

/-- The ticket ends filled at 0.20 and 0.48: an edge of 0.32 where 0.15 is
the most a ticket may claim. -/
theorem not_filledWithinGuards_broken :
    ¬ FillsWithinGuards .default (Runs.run (World.step .default) { state := TwoVenues.state }
      (QuoteInWindow.events QuoteInWindow.broken)).history := by
  decide +kernel

end Arbys
