import Arbys.ArbEngine
import Arbys.Lib.Clusters
import Arbys.QuoteBook

/-!
# The engine runtime

`ingest/engine_runtime.py`: which groups an outcome belongs to, and the
detectors run on a group against the current book. `outcomeToGroups` holds a
set of group ids for each outcome, kept as a list without repetitions.
`clock n` is the reading at which the quote of a group's `n`-th leg is looked
up.
-/

namespace Arbys

/-- `DEFAULT_MAX_TICKET_STAKE`. -/
def defaultMaxTicketStake : ℚ := 200

structure EngineRuntime where
  fees : FeeModelRegistry
  maxTicketStake : Option ℚ := some defaultMaxTicketStake
  minQty : ℚ := 0
  crossVenueOnly : Bool := true
  groups : Dict GroupId EventGroup := Dict.empty
  outcomeToGroups : Dict OutcomeId (List GroupId) := Dict.empty

namespace EngineRuntime

/-- `self._outcome_to_groups[outcome_id].add(group_id)`. -/
def index (d : Dict OutcomeId (List GroupId)) (o : OutcomeId) (gid : GroupId) :
    Dict OutcomeId (List GroupId) :=
  d.set o ((d.getD o []).insert gid)

def registerGroup (e : EngineRuntime) (group : EventGroup) : EngineRuntime :=
  { e with
    groups := e.groups.set group.id group
    outcomeToGroups :=
      group.legs.foldl (fun d leg => index d leg.outcomeId group.id) e.outcomeToGroups }

def unregisterGroup (e : EngineRuntime) (gid : GroupId) : EngineRuntime :=
  match e.groups.get? gid with
  | none => e
  | some group =>
      { e with
        groups := e.groups.erase gid
        outcomeToGroups := group.legs.foldl
          (fun d leg => d.set leg.outcomeId ((d.getD leg.outcomeId []).erase gid))
          e.outcomeToGroups }

/-- The legs' quotes that are live, each looked up once. -/
def liveQuotes (book : QuoteBook) (clock : ℕ → ℚ) :
    ℕ → List EventGroupLeg → Dict OutcomeId Quote → Dict OutcomeId Quote
  | _, [], d => d
  | n, leg :: legs, d =>
      liveQuotes book clock (n + 1) legs
        (match book.get (clock n) leg.outcomeId with
        | some quote => d.set leg.outcomeId quote
        | none => d.erase leg.outcomeId)

/-- What the detectors see of a group. -/
def market (e : EngineRuntime) (book : QuoteBook) (clock : ℕ → ℚ) (group : EventGroup) :
    Market where
  quotes := liveQuotes book clock 0 group.legs Dict.empty
  fees := e.fees
  maxTicketStake := e.maxTicketStake
  minQty := e.minQty

/-- The legs of a group by venue. -/
def byVenue (legs : List EventGroupLeg) : Dict VenueId (List EventGroupLeg) :=
  legs.foldl (fun d leg => d.set leg.venueId (d.getD leg.venueId [] ++ [leg])) Dict.empty

/-- `evaluate_now`: every detector, against the current book. -/
def evaluateNow (e : EngineRuntime) (book : QuoteBook) (clock : ℕ → ℚ) (gid : GroupId) :
    Except DecimalError (List ArbOpportunity) :=
  match e.groups.get? gid with
  | none => .ok []
  | some group => do
      let market := e.market book clock group
      let cross ← market.detectCrossVenueTwoLeg group
      let found := cross.toList
      if e.crossVenueOnly then pure found
      else
        (byVenue group.legs).entries.foldlM (fun found (venueId, legs) =>
          if legs.length < 2 then pure found
          else do
            let comp ← market.detectComplementarySet (gid ++ ":" ++ venueId) legs
            pure (found ++ comp.toList)) found

/-- Evaluate groups in turn: the opportunities reported, and what was raised. -/
def evaluateAll (e : EngineRuntime) (book : QuoteBook) (clock : ℕ → ℚ) :
    List GroupId → List ArbOpportunity × Option DecimalError
  | [] => ([], none)
  | gid :: gids =>
      match e.evaluateNow book clock gid with
      | .error err => ([], some err)
      | .ok found =>
          let rest := evaluateAll e book clock gids
          (found ++ rest.1, rest.2)

/-- `on_quote`: evaluate the groups of the quote's outcome. -/
def onQuote (e : EngineRuntime) (book : QuoteBook) (clock : ℕ → ℚ) (quote : Quote) :
    List ArbOpportunity × Option DecimalError :=
  e.evaluateAll book clock (e.outcomeToGroups.getD quote.outcomeId [])

/-! ## What is looked up, and what is registered -/

/-- **The rule of the quotes looked up**: what holds of whatever the book
answers, and of the quotes there before, holds of the quotes looked up. -/
theorem liveQuotes_forall {P : OutcomeId → Quote → Prop} {book : QuoteBook} {clock : ℕ → ℚ}
    (hbook : ∀ now o q, book.get now o = some q → P o q) (n : ℕ) (legs : List EventGroupLeg)
    {d : Dict OutcomeId Quote} (hd : ∀ o q, d.get? o = some q → P o q) {o : OutcomeId}
    {q : Quote} (h : (liveQuotes book clock n legs d).get? o = some q) : P o q := by
  induction legs generalizing n d with
  | nil => exact hd o q h
  | cons leg legs ih =>
      refine ih (n + 1) (fun o' q' h' => ?_) h
      cases hb : book.get (clock n) leg.outcomeId with
      | none =>
          -- a stale or unknown quote is dropped from what was held
          rw [hb, Dict.get?_erase] at h'
          split at h'
          · cases h'
          · exact hd o' q' h'
      | some quote =>
          rw [hb, Dict.get?_set] at h'
          split at h'
          · rename_i ho
            cases h'
            exact hbook (clock n) o' q' (ho ▸ hb)
          · exact hd o' q' h'

/-- Where nothing expires, a looked-up quote is the quote of every reading. -/
theorem get_of_liveQuotes {book : QuoteBook} (hage : book.maxAgeS = none) {clock : ℕ → ℚ}
    (n : ℕ) (legs : List EventGroupLeg) {d : Dict OutcomeId Quote}
    (hd : ∀ o q, d.get? o = some q → ∀ now, book.get now o = some q) (o : OutcomeId) (q : Quote)
    (h : (liveQuotes book clock n legs d).get? o = some q) (now : ℚ) :
    book.get now o = some q := by
  have hbook : ∀ now o q, book.get now o = some q → ∀ now', book.get now' o = some q := by
    intro now o q hq now'
    rw [← hq]
    exact QuoteBook.get_of_maxAge_none hage now' now o
  exact liveQuotes_forall hbook n legs hd h now

/-- A looked-up quote is the one of a stored entry. -/
theorem entry_of_liveQuotes {book : QuoteBook} {clock : ℕ → ℚ} (n : ℕ)
    (legs : List EventGroupLeg) {d : Dict OutcomeId Quote}
    (hd : ∀ o q, d.get? o = some q → ∃ at_, book.quotes.get? o = some (q, at_))
    {o : OutcomeId} {q : Quote} (h : (liveQuotes book clock n legs d).get? o = some q) :
    ∃ at_, book.quotes.get? o = some (q, at_) := by
  have hbook : ∀ now o q, book.get now o = some q →
      ∃ at_, book.quotes.get? o = some (q, at_) := by
    intro now o q hq
    obtain ⟨at_, hat, _⟩ := QuoteBook.get_eq_some_iff.mp hq
    exact ⟨at_, hat⟩
  exact liveQuotes_forall hbook n legs hd h

/-- The legs of a venue are legs of the group. -/
theorem mem_of_byVenue {legs venueLegs : List EventGroupLeg} {v : VenueId}
    (h : (v, venueLegs) ∈ (byVenue legs).entries) {leg : EventGroupLeg} (hleg : leg ∈ venueLegs) :
    leg ∈ legs := by
  have hgroup : (v, venueLegs) ∈ (Dict.groupBy (fun leg : EventGroupLeg => leg.venueId) legs).entries :=
    h
  rw [Dict.entries_groupBy] at hgroup
  obtain ⟨w, -, he⟩ := List.mem_map.mp hgroup
  cases he
  exact List.mem_of_mem_filter hleg

/-- **The rule of an evaluation**: what holds of everything a detector makes of
the group holds of everything found. -/
theorem of_evaluateNow {e : EngineRuntime} {book : QuoteBook} {clock : ℕ → ℚ} {gid : GroupId}
    {P : EventGroup → ArbOpportunity → Prop}
    (hcross : ∀ group opp,
      (e.market book clock group).detectCrossVenueTwoLeg group = .ok (some opp) → P group opp)
    (hcomp : ∀ group v legs opp, (∀ leg ∈ legs, leg ∈ group.legs) →
      (e.market book clock group).detectComplementarySet (gid ++ ":" ++ v) legs = .ok (some opp) →
        P group opp)
    {found : List ArbOpportunity} (h : e.evaluateNow book clock gid = .ok found)
    {opp : ArbOpportunity} (hopp : opp ∈ found) :
    ∃ group, e.groups.get? gid = some group ∧ P group opp := by
  unfold evaluateNow at h
  cases hg : e.groups.get? gid with
  | none =>
      rw [hg] at h
      cases h
      cases hopp
  | some group =>
      refine ⟨group, rfl, ?_⟩
      simp only [hg] at h
      cases hd : (e.market book clock group).detectCrossVenueTwoLeg group with
      | error err => rw [hd] at h; cases h
      | ok cross =>
          rw [hd] at h
          have hfirst : ∀ o ∈ cross.toList, P group o := by
            intro o ho
            rw [Option.mem_toList] at ho
            exact hcross group o (hd.trans (by rw [ho]))
          change (if e.crossVenueOnly = true then _ else _) = _ at h
          split at h
          · cases h
            exact hfirst opp hopp
          · -- the invariant of the loop over the venues: it holds of all found so far
            refine Runs.foldlM_inv (I := fun found => ∀ o ∈ found, P group o)
              (fun found entry found' hentry hfound hstep => ?_) hfirst h opp hopp
            obtain ⟨venueId, legs⟩ := entry
            simp only at hstep
            split at hstep
            · cases hstep
              exact hfound
            · cases hset : (e.market book clock group).detectComplementarySet
                (gid ++ ":" ++ venueId) legs with
              | error err => rw [hset] at hstep; cases hstep
              | ok comp =>
                  rw [hset] at hstep
                  cases hstep
                  intro o ho
                  rcases List.mem_append.mp ho with ho | ho
                  · exact hfound o ho
                  · rw [Option.mem_toList] at ho
                    exact hcomp group venueId legs o (fun leg => mem_of_byVenue hentry)
                      (hset.trans (by rw [ho]))

/-- **What an evaluation finds** is quoted in the market of the group. -/
theorem quoted_of_evaluateNow {e : EngineRuntime} {book : QuoteBook} {clock : ℕ → ℚ}
    {gid : GroupId} {found : List ArbOpportunity} (h : e.evaluateNow book clock gid = .ok found)
    {opp : ArbOpportunity} (hopp : opp ∈ found) :
    ∃ group, e.groups.get? gid = some group ∧ (e.market book clock group).Quoted opp :=
  of_evaluateNow (fun _ _ hd => Market.quoted_of_detectCrossVenueTwoLeg _ hd)
    (fun _ _ _ _ _ hd => Market.quoted_of_detectComplementarySet _ hd) h hopp

/-- An opportunity of a group: filed under its id, or under its id and a venue,
and made of its legs. -/
structure OfGroup (gid : GroupId) (group : EventGroup) (opp : ArbOpportunity) : Prop where
  names : opp.eventGroupId = gid ∨ ∃ v : VenueId, opp.eventGroupId = gid ++ ":" ++ v
  legs : ∀ leg ∈ opp.legs, ∃ of ∈ group.legs,
    leg.outcomeId = of.outcomeId ∧ leg.venueId = of.venueId

/-- **What an evaluation finds** is the group's own. -/
theorem ofGroup_of_evaluateNow {e : EngineRuntime} {book : QuoteBook} {clock : ℕ → ℚ}
    {gid : GroupId} (hid : ∀ group, e.groups.get? gid = some group → group.id = gid)
    {found : List ArbOpportunity} (h : e.evaluateNow book clock gid = .ok found)
    {opp : ArbOpportunity} (hopp : opp ∈ found) :
    ∃ group, e.groups.get? gid = some group ∧ OfGroup gid group opp := by
  have hrule : ∃ group, e.groups.get? gid = some group ∧
      ((group.id = gid → opp.eventGroupId = gid) ∨
        ∃ v : VenueId, opp.eventGroupId = gid ++ ":" ++ v) ∧
      ∀ leg ∈ opp.legs, ∃ of ∈ group.legs,
        leg.outcomeId = of.outcomeId ∧ leg.venueId = of.venueId := by
    refine of_evaluateNow (P := fun group opp =>
      ((group.id = gid → opp.eventGroupId = gid) ∨
        ∃ v : VenueId, opp.eventGroupId = gid ++ ":" ++ v) ∧
      ∀ leg ∈ opp.legs, ∃ of ∈ group.legs,
        leg.outcomeId = of.outcomeId ∧ leg.venueId = of.venueId) ?_ ?_ h hopp
    · intro group opp hd
      obtain ⟨heid, y, n, hy, hn, -, -, -, _, _, _, _, _, yLeg, nLeg, -, hyb, hnb, hlegs, -⟩ :=
        Market.crossVenue_of_detect _ hd
      refine ⟨Or.inl fun hgid => heid.trans hgid, fun leg hleg => ?_⟩
      rw [hlegs] at hleg
      rcases List.mem_pair.mp hleg with rfl | rfl
      · exact ⟨y, hy, hyb.outcomeId, hyb.venueId⟩
      · exact ⟨n, hn, hnb.outcomeId, hnb.venueId⟩
    · intro group v legs opp hsub hd
      obtain ⟨heid, hlegs⟩ := Market.legs_of_detectComplementarySet _ hd
      refine ⟨Or.inr ⟨v, heid⟩, fun leg hleg => ?_⟩
      obtain ⟨of, hof, ho, hv⟩ := hlegs leg hleg
      exact ⟨of, hsub of hof, ho, hv⟩
  obtain ⟨group, hg, hnames, hlegs⟩ := hrule
  exact ⟨group, hg, hnames.imp_left fun himp => himp (hid group hg), hlegs⟩

theorem length_index_le (d : Dict OutcomeId (List GroupId)) (o o' : OutcomeId) (gid : GroupId) :
    ((index d o gid).getD o' []).length ≤
      (d.getD o' []).length + (if o = o' then 1 else 0) := by
  simp only [index, Dict.getD_set]
  by_cases ho : o' = o
  · subst ho
    rw [if_pos rfl, if_pos rfl, List.length_insert]
    split <;> omega
  · rw [if_neg ho, if_neg (Ne.symm ho)]
    omega

/-- An outcome is filed under at most as many groups as it has legs. -/
theorem length_outcomeToGroups_registerGroup (e : EngineRuntime) (group : EventGroup)
    (o : OutcomeId) :
    ((e.registerGroup group).outcomeToGroups.getD o []).length ≤
      (e.outcomeToGroups.getD o []).length + (group.legs.map (·.outcomeId)).count o := by
  simp only [registerGroup]
  generalize e.outcomeToGroups = d
  induction group.legs generalizing d with
  | nil => simp
  | cons leg legs ih =>
      have hrest := ih (index d leg.outcomeId group.id)
      have hhead := length_index_le d leg.outcomeId o group.id
      simp only [List.foldl_cons, List.map_cons, List.count_cons, beq_iff_eq] at hrest ⊢
      omega

/-- The engine after registering the groups of a list. -/
def registerAll (e : EngineRuntime) (groups : List EventGroup) : EngineRuntime :=
  groups.foldl registerGroup e

theorem mem_of_registerAll {groups : List EventGroup} {e : EngineRuntime} {gid : GroupId}
    {group : EventGroup} (h : (e.registerAll groups).groups.get? gid = some group) :
    group ∈ groups ∨ e.groups.get? gid = some group := by
  induction groups generalizing e with
  | nil => exact .inr h
  | cons g groups ih =>
      rcases ih h with hmem | he
      · exact .inl (List.mem_cons_of_mem _ hmem)
      · simp only [registerGroup, Dict.get?_set] at he
        split at he
        · cases he
          exact .inl List.mem_cons_self
        · exact .inr he

theorem length_outcomeToGroups_registerAll (e : EngineRuntime) (groups : List EventGroup)
    (o : OutcomeId) :
    ((e.registerAll groups).outcomeToGroups.getD o []).length ≤
      (e.outcomeToGroups.getD o []).length +
        ((groups.flatMap (·.legs)).map (·.outcomeId)).count o := by
  induction groups generalizing e with
  | nil => simp [registerAll]
  | cons g groups ih =>
      have hrest := ih (e.registerGroup g)
      have hhead := e.length_outcomeToGroups_registerGroup g o
      simp only [registerAll, List.foldl_cons, List.flatMap_cons, List.map_append,
        List.count_append] at hrest ⊢
      omega

/-- Registering keeps the configuration. -/
theorem registerAll_config (e : EngineRuntime) (groups : List EventGroup) :
    (e.registerAll groups).fees = e.fees ∧
      (e.registerAll groups).crossVenueOnly = e.crossVenueOnly := by
  induction groups generalizing e with
  | nil => exact ⟨rfl, rfl⟩
  | cons g groups ih => exact ih (e.registerGroup g)

/-- **With one group for each outcome** and no complementary sets, a quote
reports at most one opportunity, that of a registered group, or raises. -/
theorem onQuote_single {e : EngineRuntime} (hcross : e.crossVenueOnly = true) {quote : Quote}
    (hone : (e.outcomeToGroups.getD quote.outcomeId []).length ≤ 1) (book : QuoteBook)
    (clock : ℕ → ℚ) :
    e.onQuote book clock quote = ([], none) ∨
    (∃ err, e.onQuote book clock quote = ([], some err)) ∨
    ∃ gid group opp, e.groups.get? gid = some group ∧
      (e.market book clock group).detectCrossVenueTwoLeg group = .ok (some opp) ∧
      e.onQuote book clock quote = ([opp], none) := by
  unfold onQuote
  match hl : e.outcomeToGroups.getD quote.outcomeId [] with
  | [] => exact .inl rfl
  | _ :: _ :: _ => rw [hl] at hone; simp at hone
  | [gid] =>
      simp only [evaluateAll, evaluateNow, hcross, if_true]
      cases hg : e.groups.get? gid with
      | none => exact .inl rfl
      | some group =>
          simp only
          cases hd : (e.market book clock group).detectCrossVenueTwoLeg group with
          | error err => exact .inr (.inl ⟨err, rfl⟩)
          | ok found =>
              cases found with
              | none => exact .inl rfl
              | some opp => exact .inr (.inr ⟨gid, group, opp, hg, hd, rfl⟩)

end EngineRuntime

end Arbys
