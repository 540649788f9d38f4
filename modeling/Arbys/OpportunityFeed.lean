import Arbys.Lib.Hub
import Arbys.Publication

/-!
# The opportunity feed

What `_set_group_opportunities` tells the world. An opportunity that a group
offers and did not offer before is news: it is handed to `_persist_opp` and put
into the queue of every subscriber, of which there may be any number. Nothing
is said of an opportunity that is gone; `FeedNote` keeps the record of both, so
that the feed can be compared with the published sets (`Told`).
-/

namespace Arbys

/-- Of an opportunity, what makes it the same edge seen twice. -/
abbrev Fingerprint := GroupId × List (VenueId × OutcomeId × Bool × ℚ × ℚ)

/-- `_opp_fingerprint`. -/
def ArbOpportunity.fingerprint (opp : ArbOpportunity) : Fingerprint :=
  (opp.eventGroupId,
    opp.legs.map fun leg => (leg.venueId, leg.outcomeId, leg.isBuy, leg.price, leg.qty))

/-- The edges a group offers. -/
def AppState.offered (s : AppState) (gid : GroupId) : List Fingerprint :=
  (s.oppsByGroup.getD gid []).map (·.fingerprint)

/-- The edges among `opps` that the group did not offer before. -/
def AppState.appeared (s : AppState) (gid : GroupId) (opps : List ArbOpportunity) :
    List ArbOpportunity :=
  opps.filter fun opp => opp.fingerprint ∉ s.offered gid

/-- The edges of the group that are not among `opps` any more. -/
def AppState.gone (s : AppState) (gid : GroupId) (opps : List ArbOpportunity) :
    List Fingerprint :=
  (s.offered gid).filter fun fp => fp ∉ opps.map (·.fingerprint)

/-- A group began to offer an edge, or ceased to. -/
structure FeedNote where
  groupId : GroupId
  fingerprint : Fingerprint
  offered : Bool

structure OpportunityFeed where
  app : AppState
  /-- `_opp_subscribers`, each an `asyncio.Queue(maxsize=100)`. -/
  hub : Hub ArbOpportunity := { bound := 100 }
  /-- What was handed to `_persist_opp`. -/
  tape : List ArbOpportunity := []
  notes : List FeedNote := []

namespace OpportunityFeed

/-- `_set_group_opportunities`. -/
def setGroupOpportunities (f : OpportunityFeed) (gid : GroupId) (opps : List ArbOpportunity) :
    OpportunityFeed :=
  let news := f.app.appeared gid opps
  { app := f.app.setGroupOpportunities gid opps
    hub := news.foldl Hub.publish f.hub
    tape := f.tape ++ news
    notes := f.notes ++ (f.app.gone gid opps).map (⟨gid, ·, false⟩) ++
      (news.map (·.fingerprint)).map (⟨gid, ·, true⟩) }

/-- `clear_group_opportunities`. -/
def clearGroupOpportunities (f : OpportunityFeed) (gid : GroupId) : OpportunityFeed :=
  { f with
    app := f.app.clearGroupOpportunities gid
    notes := f.notes ++ (f.app.offered gid).map (⟨gid, ·, false⟩) }

/-- Evaluate groups in turn and publish what each offers, until one raises. -/
def evaluateGroups (f : OpportunityFeed) (clock : ℕ → ℚ) : List GroupId → OpportunityFeed
  | [] => f
  | gid :: gids =>
      match f.app.engine.evaluateNow f.app.book clock gid with
      | .error _ => f
      | .ok found => evaluateGroups (f.setGroupOpportunities gid found) clock gids

/-- A stretch of a registration, of a pass or of a quote. -/
def registry (f : OpportunityFeed) : RegistryOp → OpportunityFeed
  | .onQuote clock quote =>
      f.evaluateGroups clock (f.app.engine.outcomeToGroups.getD quote.outcomeId [])
  | .retireGroup gid => clearGroupOpportunities { f with app := f.app.retireGroup gid } gid
  | op => { f with app := RegistryOp.step f.app op }

end OpportunityFeed

/-- `subscribe_opportunities` and `unsubscribe_opportunities`, the reads of a
subscriber, and everything that may change what is published. -/
inductive FeedEvent where
  | registry (op : RegistryOp)
  | subscribe
  | unsubscribe (i : ℕ)
  | take (i : ℕ)

namespace OpportunityFeed

def step (f : OpportunityFeed) : FeedEvent → OpportunityFeed
  | .registry op => f.registry op
  | .subscribe => { f with hub := f.hub.subscribe }
  | .unsubscribe i => { f with hub := f.hub.unsubscribe i }
  | .take i => { f with hub := f.hub.take i }

/-! ## The feed and the published sets -/

theorem app_evaluateGroups (f : OpportunityFeed) (clock : ℕ → ℚ) (gids : List GroupId) :
    (f.evaluateGroups clock gids).app = f.app.evaluateGroups clock gids := by
  induction gids generalizing f with
  | nil => rfl
  | cons gid gids ih =>
      unfold evaluateGroups AppState.evaluateGroups
      cases f.app.engine.evaluateNow f.app.book clock gid with
      | error err => rfl
      | ok found => exact ih _

/-- The feed publishes what the application publishes. -/
theorem app_registry (f : OpportunityFeed) (op : RegistryOp) :
    (f.registry op).app = RegistryOp.step f.app op := by
  cases op with
  | onQuote clock quote => exact app_evaluateGroups f clock _
  | createGroup group => rfl
  | deleteGroup gid => rfl
  | upsertGroup group existing => rfl
  | retireGroup gid => rfl
  | upsertQuote now quote => rfl

/-- The stretches of a run. -/
def registryOps (es : List FeedEvent) : List RegistryOp :=
  es.filterMap fun
    | .registry op => some op
    | _ => none

theorem app_run (f : OpportunityFeed) (es : List FeedEvent) :
    (Runs.run step f es).app = Runs.run RegistryOp.step f.app (registryOps es) := by
  induction es generalizing f with
  | nil => rfl
  | cons e es ih =>
      rw [Runs.run_cons, ih]
      cases e with
      | registry op =>
          rw [step, app_registry]
          rfl
      | subscribe => rfl
      | unsubscribe i => rfl
      | take i => rfl

/-- What a note says of one edge: it may not begin twice, nor end before it
began. -/
def applyNote (gid : GroupId) (fp : Fingerprint) (live : Bool) (n : FeedNote) : Option Bool :=
  if n.groupId = gid ∧ n.fingerprint = fp then
    if n.offered = live then none else some n.offered
  else some live

/-- Whether the notes leave an edge offered, if they make sense. -/
def replay (gid : GroupId) (fp : Fingerprint) (notes : List FeedNote) : Option Bool :=
  notes.foldlM (applyNote gid fp) false

theorem replay_append (gid : GroupId) (fp : Fingerprint) (notes notes' : List FeedNote) :
    replay gid fp (notes ++ notes') =
      (replay gid fp notes).bind fun live => notes'.foldlM (applyNote gid fp) live :=
  List.foldlM_append

/-- Notes of one kind, on edges that all were the other way before. -/
theorem foldlM_applyNote {gid : GroupId} {fp : Fingerprint} (group : GroupId) (on live : Bool)
    {fps : List Fingerprint} (hnodup : fps.Nodup)
    (hlive : group = gid → fp ∈ fps → live = !on) :
    (fps.map (⟨group, ·, on⟩)).foldlM (applyNote gid fp) live =
      some (if group = gid ∧ fp ∈ fps then on else live) := by
  induction fps generalizing live with
  | nil => simp
  | cons p fps ih =>
      obtain ⟨hp, hrest⟩ := List.nodup_cons.mp hnodup
      rw [List.map_cons, List.foldlM_cons]
      by_cases hthis : group = gid ∧ p = fp
      · obtain ⟨rfl, rfl⟩ := hthis
        have hon : live = !on := hlive rfl List.mem_cons_self
        have hnote : applyNote group p live ⟨group, p, on⟩ = some on := by
          rw [applyNote, if_pos ⟨rfl, rfl⟩, if_neg (by simp [hon])]
        rw [hnote, Option.bind_eq_bind, Option.bind_some,
          ih on hrest fun _ hmem => absurd hmem hp]
        simp
      · have hnote : applyNote gid fp live ⟨group, p, on⟩ = some live := if_neg hthis
        rw [hnote, Option.bind_eq_bind, Option.bind_some,
          ih live hrest fun hg hmem => hlive hg (List.mem_cons_of_mem _ hmem)]
        have hiff : group = gid ∧ fp ∈ p :: fps ↔ group = gid ∧ fp ∈ fps := by
          rw [List.mem_cons]
          constructor
          · rintro ⟨hg, rfl | hmem⟩
            · exact absurd ⟨hg, rfl⟩ hthis
            · exact ⟨hg, hmem⟩
          · rintro ⟨hg, hmem⟩
            exact ⟨hg, .inr hmem⟩
        simp only [hiff]

/-- The feed has told what there is to tell: no group offers an edge twice, the
notes replay to what is offered now, and what was announced is what began. -/
structure Told (f : OpportunityFeed) : Prop where
  keyed : ∀ gid group, f.app.engine.groups.get? gid = some group → group.id = gid
  nodup : ∀ gid, (f.app.offered gid).Nodup
  replayed : ∀ gid fp, replay gid fp f.notes = some (decide (fp ∈ f.app.offered gid))
  announced : f.tape.map (·.fingerprint) =
    (f.notes.filter (·.offered)).map (·.fingerprint)

end OpportunityFeed

/-! ## No evaluation finds an edge twice -/

namespace EngineRuntime

theorem synthetic_ne (gid : GroupId) (v : VenueId) : gid ++ ":" ++ v ≠ gid := by
  intro h
  have hlen := congrArg String.length h
  simp only [String.length_append] at hlen
  have hcolon : ":".length = 1 := rfl
  omega

theorem synthetic_inj (gid : GroupId) : Function.Injective fun v : VenueId => gid ++ ":" ++ v := by
  intro v w h
  have hlist := congrArg String.toList h
  simp only [String.toList_append] at hlist
  exact String.toList_injective (List.append_cancel_left hlist)

/-- What one venue adds to what is found. -/
theorem complementary_step {m : Market} {gid : GroupId} {so so' : List ArbOpportunity}
    {entry : VenueId × List EventGroupLeg}
    (h : (if entry.2.length < 2 then pure so
      else do
        let comp ← m.detectComplementarySet (gid ++ ":" ++ entry.1) entry.2
        pure (so ++ comp.toList)) = (.ok so' : Except DecimalError _)) :
    ∃ new, so' = so ++ new ∧
      (new.map fun opp : ArbOpportunity => opp.eventGroupId).Sublist [gid ++ ":" ++ entry.1] := by
  split at h
  · cases h
    exact ⟨[], (List.append_nil _).symm, List.nil_sublist _⟩
  · cases hset : m.detectComplementarySet (gid ++ ":" ++ entry.1) entry.2 with
    | error err => rw [hset] at h; cases h
    | ok comp =>
        rw [hset] at h
        cases h
        refine ⟨comp.toList, rfl, ?_⟩
        cases comp with
        | none => exact List.nil_sublist _
        | some opp =>
            have hopp := Market.legs_of_detectComplementarySet _ hset
            rw [Option.toList_some, List.map_singleton, hopp.1]

/-- What an evaluation finds is filed under different ids: the group's own for
the pair across venues, and one for each venue. -/
theorem nodup_ids_of_evaluateNow {e : EngineRuntime} {book : QuoteBook} {clock : ℕ → ℚ}
    {gid : GroupId} (hid : ∀ group, e.groups.get? gid = some group → group.id = gid)
    {found : List ArbOpportunity} (h : e.evaluateNow book clock gid = .ok found) :
    (found.map (·.eventGroupId)).Nodup := by
  unfold evaluateNow at h
  cases hg : e.groups.get? gid with
  | none =>
      rw [hg] at h
      cases h
      exact List.nodup_nil
  | some group =>
      simp only [hg] at h
      cases hd : (e.market book clock group).detectCrossVenueTwoLeg group with
      | error err => rw [hd] at h; cases h
      | ok cross =>
          rw [hd] at h
          have hcross : (cross.toList.map (·.eventGroupId)).Sublist [gid] := by
            cases cross with
            | none => exact List.nil_sublist _
            | some opp =>
                have hopp := Market.crossVenue_of_detect _ hd
                rw [Option.toList_some, List.map_singleton, hopp.1, hid group hg]
          -- the pair across venues comes first, then a set for each venue
          change (if e.crossVenueOnly = true then _ else _) = _ at h
          split at h
          · cases h
            exact hcross.nodup (List.nodup_singleton _)
          · obtain ⟨comps, rfl, hcomps⟩ := Runs.foldlM_sublist
              (fun opp : ArbOpportunity => opp.eventGroupId)
              (fun entry : VenueId × List EventGroupLeg => gid ++ ":" ++ entry.1)
              (fun so entry _ so' hstep => complementary_step hstep) h
            have hvenues : ((byVenue group.legs).entries.map fun entry =>
                gid ++ ":" ++ entry.1).Nodup := by
              have hkeys := (byVenue group.legs).nodup.map (synthetic_inj gid)
              rwa [List.map_map] at hkeys
            rw [List.map_append]
            refine (hcross.append hcomps).nodup (List.nodup_cons.mpr ⟨fun hmem => ?_, hvenues⟩)
            obtain ⟨entry, -, hv⟩ := List.mem_map.mp hmem
            exact synthetic_ne gid entry.1 hv

end EngineRuntime

/-! ## Every step is told -/

namespace AppState

theorem offered_setGroupOpportunities (s : AppState) (gid j : GroupId)
    (opps : List ArbOpportunity) :
    (s.setGroupOpportunities gid opps).offered j =
      if j = gid then opps.map (·.fingerprint) else s.offered j := by
  unfold offered setGroupOpportunities Dict.getD
  by_cases hopps : opps = []
  · subst hopps
    simp only [ne_eq, not_true_eq_false, if_false, Dict.get?_erase]
    split <;> rfl
  · simp only [ne_eq, hopps, not_false_eq_true, if_true, Dict.get?_set]
    split <;> rfl

theorem mem_appeared {s : AppState} {gid : GroupId} {opps : List ArbOpportunity}
    {fp : Fingerprint} :
    fp ∈ (s.appeared gid opps).map (·.fingerprint) ↔
      fp ∈ opps.map (·.fingerprint) ∧ fp ∉ s.offered gid := by
  constructor
  · intro h
    obtain ⟨opp, hopp, rfl⟩ := List.mem_map.mp h
    have hboth := List.mem_filter.mp hopp
    exact ⟨List.mem_map_of_mem hboth.1, by simpa using hboth.2⟩
  · rintro ⟨h, hnew⟩
    obtain ⟨opp, hopp, rfl⟩ := List.mem_map.mp h
    exact List.mem_map_of_mem (List.mem_filter.mpr ⟨hopp, by simpa using hnew⟩)

theorem mem_gone {s : AppState} {gid : GroupId} {opps : List ArbOpportunity} {fp : Fingerprint} :
    fp ∈ s.gone gid opps ↔ fp ∈ s.offered gid ∧ fp ∉ opps.map (·.fingerprint) := by
  simp [gone]

end AppState

namespace OpportunityFeed

theorem filter_ended (gid : GroupId) (fps : List Fingerprint) :
    (fps.map (⟨gid, ·, false⟩)).filter FeedNote.offered = [] := by
  apply List.filter_eq_nil_iff.mpr
  intro note hnote
  obtain ⟨fp, -, rfl⟩ := List.mem_map.mp hnote
  exact Bool.false_ne_true

theorem filter_began (gid : GroupId) (fps : List Fingerprint) :
    (fps.map (⟨gid, ·, true⟩)).filter FeedNote.offered = fps.map (⟨gid, ·, true⟩) := by
  apply List.filter_eq_self.mpr
  intro note hnote
  obtain ⟨fp, -, rfl⟩ := List.mem_map.mp hnote
  rfl

variable {f : OpportunityFeed}

/-- A stretch that publishes nothing. -/
theorem Told.of_app (h : Told f) {app : AppState} (hopps : app.oppsByGroup = f.app.oppsByGroup)
    (hkeyed : ∀ gid group, app.engine.groups.get? gid = some group → group.id = gid) :
    Told { f with app } := by
  have hoffered : ∀ gid, app.offered gid = f.app.offered gid := by
    intro gid
    rw [AppState.offered, AppState.offered, hopps]
  refine ⟨hkeyed, fun gid => ?_, fun gid fp => ?_, h.announced⟩
  · rw [hoffered]
    exact h.nodup gid
  · rw [hoffered]
    exact h.replayed gid fp

/-- What a group offers now is told, if it offers nothing twice. -/
theorem Told.setGroup (h : Told f) (gid : GroupId) {opps : List ArbOpportunity}
    (hopps : (opps.map (·.fingerprint)).Nodup) : Told (f.setGroupOpportunities gid opps) := by
  constructor
  · exact h.keyed
  · intro j
    rw [setGroupOpportunities, AppState.offered_setGroupOpportunities]
    split
    · exact hopps
    · exact h.nodup j
  · intro j fp
    -- the endings are announced before the beginnings
    have hgone : (f.app.gone gid opps).Nodup := (h.nodup gid).filter _
    have hnews : ((f.app.appeared gid opps).map (·.fingerprint)).Nodup :=
      (List.filter_sublist.map _).nodup hopps
    rw [setGroupOpportunities, AppState.offered_setGroupOpportunities, replay_append,
      replay_append, h.replayed, Option.bind_some,
      foldlM_applyNote gid false _ hgone fun hgid hfp => ?ended, Option.bind_some,
      foldlM_applyNote gid true _ hnews fun hgid hfp => ?began]
    case ended =>
      subst hgid
      simpa using (AppState.mem_gone.mp hfp).1
    case began =>
      subst hgid
      have hnot := (AppState.mem_appeared.mp hfp).2
      simp [hnot]
    by_cases hgid : gid = j
    · subst hgid
      simp only [AppState.mem_gone, AppState.mem_appeared, true_and, if_true]
      -- offered now or not, offered before or not
      by_cases hnow : fp ∈ opps.map (·.fingerprint)
      · by_cases hthen : fp ∈ f.app.offered gid
        · simp [hnow, hthen]
        · simp [hnow, hthen]
      · by_cases hthen : fp ∈ f.app.offered gid
        · simp [hnow, hthen]
        · simp [hnow, hthen]
    · simp [hgid, Ne.symm hgid]
  · rw [setGroupOpportunities]
    simp only [List.map_append, List.filter_append, filter_ended, filter_began,
      List.append_nil, h.announced]
    rw [List.map_map]
    exact congrArg _ (List.map_id _).symm

/-- The same, of a group that is forgotten. -/
theorem Told.clear (h : Told f) (gid : GroupId) : Told (f.clearGroupOpportunities gid) := by
  have hset : Told (f.setGroupOpportunities gid []) := h.setGroup gid List.nodup_nil
  have hgone : f.app.gone gid [] = f.app.offered gid := by simp [AppState.gone]
  have heq : f.setGroupOpportunities gid [] = f.clearGroupOpportunities gid := by
    simp [setGroupOpportunities, clearGroupOpportunities, AppState.appeared, hgone,
      AppState.setGroupOpportunities, AppState.clearGroupOpportunities]
  rwa [heq] at hset

/-- Edges filed under different ids are different edges. -/
theorem nodup_fingerprints {opps : List ArbOpportunity}
    (h : (opps.map (·.eventGroupId)).Nodup) : (opps.map (·.fingerprint)).Nodup := by
  have hids : opps.map (·.eventGroupId) = (opps.map (·.fingerprint)).map Prod.fst := by
    rw [List.map_map]
    rfl
  rw [hids] at h
  exact h.of_map _

theorem Told.evaluateGroups (clock : ℕ → ℚ) (gids : List GroupId) (h : Told f) :
    Told (f.evaluateGroups clock gids) := by
  induction gids generalizing f with
  | nil => exact h
  | cons gid gids ih =>
      unfold OpportunityFeed.evaluateGroups
      cases hd : f.app.engine.evaluateNow f.app.book clock gid with
      | error err => exact h
      | ok found =>
          have hids := EngineRuntime.nodup_ids_of_evaluateNow (h.keyed gid) hd
          exact ih (h.setGroup gid (nodup_fingerprints hids))

theorem keyed_register {groups : Dict GroupId EventGroup}
    (h : ∀ gid group, groups.get? gid = some group → group.id = gid) (group : EventGroup) :
    ∀ gid g, (groups.set group.id group).get? gid = some g → g.id = gid := by
  intro gid g hg
  rw [Dict.get?_set] at hg
  split at hg
  · rename_i hgid
    cases hg
    exact hgid.symm
  · exact h gid g hg

theorem keyed_unregister {e : EngineRuntime}
    (h : ∀ gid group, e.groups.get? gid = some group → group.id = gid) (gid : GroupId) :
    ∀ j g, (e.unregisterGroup gid).groups.get? j = some g → g.id = j := by
  intro j g hg
  rw [AppState.get?_groups_unregisterGroup] at hg
  split at hg
  · cases hg
  · exact h j g hg

/-- **One step** is told. -/
theorem Told.step (h : Told f) (e : FeedEvent) : Told (f.step e) := by
  cases e with
  | subscribe => exact ⟨h.keyed, h.nodup, h.replayed, h.announced⟩
  | unsubscribe i => exact ⟨h.keyed, h.nodup, h.replayed, h.announced⟩
  | take i => exact ⟨h.keyed, h.nodup, h.replayed, h.announced⟩
  | registry op =>
      cases op with
      | createGroup group => exact h.of_app rfl (keyed_register h.keyed group)
      | deleteGroup gid => exact h.of_app rfl (keyed_unregister h.keyed gid)
      | upsertGroup group existing =>
          cases existing with
          | none => exact h.of_app rfl (keyed_register h.keyed group)
          | some old =>
              exact h.of_app rfl (keyed_register (keyed_unregister h.keyed group.id) group)
      | retireGroup gid =>
          have hretired : Told { f with app := f.app.retireGroup gid } :=
            h.of_app rfl (keyed_unregister h.keyed gid)
          exact hretired.clear gid
      | upsertQuote now quote => exact h.of_app rfl h.keyed
      | onQuote clock quote => exact h.evaluateGroups clock _

theorem told_booted {s : AppState} (hs : AppState.Booted s) : Told { app := s } := by
  have hoffered : ∀ gid, s.offered gid = [] := by
    intro gid
    rw [AppState.offered, hs.nothing]
    rfl
  constructor
  · intro gid group hg
    exact hs.keyed gid group ((hs.registered gid).symm.trans hg)
  · intro gid
    exact (hoffered gid).symm ▸ List.nodup_nil
  · intro gid fp
    simp [replay, hoffered]
  · rfl

end OpportunityFeed

open OpportunityFeed

/-! ## What a subscriber hears -/

namespace AppState

/-- What the evaluations of groups in turn announce. -/
def evaluateNews (s : AppState) (clock : ℕ → ℚ) : List GroupId → List ArbOpportunity
  | [] => []
  | gid :: gids =>
      match s.engine.evaluateNow s.book clock gid with
      | .error _ => []
      | .ok found =>
          s.appeared gid found ++ evaluateNews (s.setGroupOpportunities gid found) clock gids

/-- What a stretch announces. -/
def news (s : AppState) : RegistryOp → List ArbOpportunity
  | .onQuote clock quote =>
      s.evaluateNews clock (s.engine.outcomeToGroups.getD quote.outcomeId [])
  | _ => []

end AppState

/-- Whether an event reaches the subscriber `i`. -/
def FeedEvent.concerns (i : ℕ) : FeedEvent → Bool
  | .registry _ => true
  | .subscribe => false
  | .unsubscribe j => j == i
  | .take j => j == i

namespace OpportunityFeed

/-- There is room for all that a step announces in the queue of `i`. -/
def HasRoom (i : ℕ) (f : OpportunityFeed) : FeedEvent → Prop
  | .registry op => ∀ sub ∈ f.hub.subscribers.get? i,
      f.app.news op = [] ∨ sub.queue.length + (f.app.news op).length ≤ f.hub.bound
  | _ => True

theorem announced_evaluateGroups (f : OpportunityFeed) (clock : ℕ → ℚ) (gids : List GroupId) :
    (f.evaluateGroups clock gids).tape = f.tape ++ f.app.evaluateNews clock gids ∧
      (f.evaluateGroups clock gids).hub =
        (f.app.evaluateNews clock gids).foldl Hub.publish f.hub := by
  induction gids generalizing f with
  | nil => exact ⟨(List.append_nil _).symm, rfl⟩
  | cons gid gids ih =>
      unfold evaluateGroups AppState.evaluateNews
      cases f.app.engine.evaluateNow f.app.book clock gid with
      | error err => exact ⟨(List.append_nil _).symm, rfl⟩
      | ok found =>
          obtain ⟨htape, hhub⟩ := ih (f.setGroupOpportunities gid found)
          constructor
          · exact htape.trans (List.append_assoc ..)
          · exact hhub.trans (List.foldl_append ..).symm

/-- **What a stretch announces** is handed over to be stored, and offered to
every subscriber. -/
theorem announced_registry (f : OpportunityFeed) (op : RegistryOp) :
    (f.registry op).tape = f.tape ++ f.app.news op ∧
      (f.registry op).hub = (f.app.news op).foldl Hub.publish f.hub := by
  cases op with
  | onQuote clock quote => exact announced_evaluateGroups f clock _
  | createGroup group => exact ⟨(List.append_nil _).symm, rfl⟩
  | deleteGroup gid => exact ⟨(List.append_nil _).symm, rfl⟩
  | upsertGroup group existing => exact ⟨(List.append_nil _).symm, rfl⟩
  | retireGroup gid => exact ⟨(List.append_nil _).symm, rfl⟩
  | upsertQuote now quote => exact ⟨(List.append_nil _).symm, rfl⟩

/-- What the events are to the hub. -/
def hubEvents (s : AppState) : List FeedEvent → List (Hub.Event ArbOpportunity)
  | [] => []
  | .registry op :: es => (s.news op).map .publish ++ hubEvents (RegistryOp.step s op) es
  | .subscribe :: es => .subscribe :: hubEvents s es
  | .unsubscribe i :: es => .unsubscribe i :: hubEvents s es
  | .take i :: es => .take i :: hubEvents s es

theorem run_publish (h : Hub ArbOpportunity) (xs : List ArbOpportunity) :
    Runs.run Hub.step h (xs.map .publish) = xs.foldl Hub.publish h := by
  rw [Runs.run, List.foldl_map]
  rfl

theorem published_map (xs : List ArbOpportunity) :
    Hub.published (xs.map Hub.Event.publish) = xs := by
  induction xs with
  | nil => rfl
  | cons x xs ih => rw [List.map_cons, Hub.published_publish, ih]

/-- **The feed is a run of its hub.** -/
theorem hub_run (f : OpportunityFeed) (es : List FeedEvent) :
    (Runs.run step f es).hub = Runs.run Hub.step f.hub (hubEvents f.app es) ∧
      (Runs.run step f es).tape = f.tape ++ Hub.published (hubEvents f.app es) := by
  induction es generalizing f with
  | nil => exact ⟨rfl, (List.append_nil _).symm⟩
  | cons e es ih =>
      obtain ⟨hhub, htape⟩ := ih (f.step e)
      rw [Runs.run_cons, hhub, htape]
      cases e with
      | registry op =>
          obtain ⟨hsaid, hput⟩ := announced_registry f op
          rw [step, hsaid, hput, app_registry, hubEvents, Runs.run_append, run_publish,
            Hub.published_append, published_map, List.append_assoc]
          exact ⟨rfl, rfl⟩
      | subscribe => exact ⟨rfl, rfl⟩
      | unsubscribe i => exact ⟨rfl, rfl⟩
      | take i => exact ⟨rfl, rfl⟩

end OpportunityFeed

/-- **The feed follows what is published**, in every run: an edge a group
begins to offer is handed over to be stored once, and offered once to every
subscriber there is at that point; one it offers already is not announced
again, and the notes replay to what each group offers now. The subscribers'
queues are those of a hub to which nothing else was published. -/
theorem feed_follows_published (s : AppState) (hs : AppState.Booted s) (es : List FeedEvent) :
    let f := Runs.run step { app := s } es
    f.app = Runs.run RegistryOp.step s (registryOps es) ∧
      (∀ gid fp, replay gid fp f.notes = some (decide (fp ∈ f.app.offered gid))) ∧
      f.tape.map (·.fingerprint) = (f.notes.filter (·.offered)).map (·.fingerprint) ∧
      f.hub = Runs.run Hub.step { bound := 100 } (hubEvents s es) ∧
      Hub.published (hubEvents s es) = f.tape := by
  have htold : Told (Runs.run step { app := s } es) :=
    Runs.run_inv (fun _ e h => h.step e) es (told_booted hs)
  obtain ⟨hhub, htape⟩ := hub_run { app := s } es
  exact ⟨app_run _ es, htold.replayed, htold.announced, hhub, htape.symm⟩

namespace TwoVenues

/-- A subscriber comes, and the group begins to offer the pair. -/
def heard : List FeedEvent :=
  [.subscribe, .registry (.onQuote (fun _ => 0) pYes), .registry (.onQuote (fun _ => 0) pYes),
    .take 0]

end TwoVenues

open TwoVenues in
theorem feed_follows_published_heard :
    let f := Runs.run step { app := state } heard
    f.tape.map (·.fingerprint) = (f.notes.filter (·.offered)).map (·.fingerprint) ∧
      f.hub = Runs.run Hub.step { bound := 100 } (hubEvents state heard) ∧
      Hub.published (hubEvents state heard) = f.tape :=
  (feed_follows_published state booted_state heard).2.2

open TwoVenues in
/-- The pair is announced once, however often it is found. -/
example : (Runs.run step { app := state } heard).tape = [opportunity] := by decide +kernel

namespace OpportunityFeed

theorem bound_step (f : OpportunityFeed) (e : FeedEvent) : (f.step e).hub.bound = f.hub.bound := by
  have hrun : ∀ (h : Hub ArbOpportunity) (es : List (Hub.Event ArbOpportunity)),
      (Runs.run Hub.step h es).bound = h.bound := by
    intro h es
    exact Runs.run_inv (I := fun g => g.bound = h.bound)
      (fun g e hg => (Hub.bound_step g e).trans hg) es rfl
  have hstep := (hub_run f [e]).1
  rw [Runs.run_cons, Runs.run_nil] at hstep
  rw [hstep, hrun]

/-- The events of a hub that concern a subscriber are those of the feed that
do. -/
theorem filter_hubEvents (i : ℕ) (s : AppState) (es : List FeedEvent) :
    (hubEvents s es).filter (Hub.Event.concerns i) =
      hubEvents s (es.filter (FeedEvent.concerns i)) := by
  induction es generalizing s with
  | nil => rfl
  | cons e es ih =>
      cases e with
      | registry op =>
          have hall : ((s.news op).map Hub.Event.publish).filter (Hub.Event.concerns i) =
              (s.news op).map .publish := by
            apply List.filter_eq_self.mpr
            intro e he
            obtain ⟨x, -, rfl⟩ := List.mem_map.mp he
            rfl
          rw [hubEvents, List.filter_append, hall, ih,
            List.filter_cons_of_pos (show FeedEvent.concerns i (.registry op) = true from rfl),
            hubEvents]
      | subscribe => exact ih s
      | unsubscribe j =>
          cases hj : FeedEvent.concerns i (.unsubscribe j) with
          | true =>
              rw [hubEvents, List.filter_cons_of_pos (by exact hj), ih,
                List.filter_cons_of_pos hj, hubEvents]
          | false =>
              have hnot : ¬ FeedEvent.concerns i (.unsubscribe j) = true := by simp [hj]
              rw [hubEvents, List.filter_cons_of_neg (by exact hnot), ih,
                List.filter_cons_of_neg hnot]
      | take j =>
          cases hj : FeedEvent.concerns i (.take j) with
          | true =>
              rw [hubEvents, List.filter_cons_of_pos (by exact hj), ih,
                List.filter_cons_of_pos hj, hubEvents]
          | false =>
              have hnot : ¬ FeedEvent.concerns i (.take j) = true := by simp [hj]
              rw [hubEvents, List.filter_cons_of_neg (by exact hnot), ih,
                List.filter_cons_of_neg hnot]

theorem stays_hubEvents {i : ℕ} {s : AppState} {es : List FeedEvent}
    (h : FeedEvent.unsubscribe i ∉ es) : Hub.Stays i (hubEvents s es) := by
  induction es generalizing s with
  | nil => exact fun e he => absurd he List.not_mem_nil
  | cons e es ih =>
      have hrest := fun t => ih (s := t) fun hmem => h (List.mem_cons_of_mem _ hmem)
      cases e with
      | registry op =>
          intro e he j hj
          rcases List.mem_append.mp he with he | he
          · obtain ⟨x, -, rfl⟩ := List.mem_map.mp he
            cases hj
          · exact hrest _ e he j hj
      | subscribe =>
          intro e he j hj
          rcases List.mem_cons.mp he with rfl | he
          · cases hj
          · exact hrest s e he j hj
      | unsubscribe k =>
          intro e he j hj
          rcases List.mem_cons.mp he with rfl | he
          · cases hj
            rintro rfl
            exact h List.mem_cons_self
          · exact hrest s e he j hj
      | take k =>
          intro e he j hj
          rcases List.mem_cons.mp he with rfl | he
          · cases hj
          · exact hrest s e he j hj

/-- Room along a run of the feed is room along the run of the hub. -/
theorem guarded_hubEvents {i : ℕ} {f : OpportunityFeed} {sub : Hub.Subscriber ArbOpportunity}
    {es : List FeedEvent} (hi : i < f.hub.drawn) (hsub : f.hub.subscribers.get? i = some sub)
    (hes : FeedEvent.unsubscribe i ∉ es) :
    Runs.Guarded (Hub.localStep f.hub.bound i) (Hub.Roomy f.hub.bound) (some sub)
        (hubEvents f.app es) ↔ Runs.Guarded step (HasRoom i) f es := by
  induction es generalizing f sub with
  | nil => exact Iff.rfl
  | cons e es ih =>
      have hstays : Hub.Stays i (hubEvents f.app [e]) :=
        stays_hubEvents fun hmem => hes (List.mem_singleton.mp hmem ▸ List.mem_cons_self)
      obtain ⟨sub', -, hsub', -⟩ := Hub.stream_run f.hub.bound hstays sub
      have hone := (hub_run f [e]).1
      rw [Runs.run_cons, Runs.run_nil] at hone
      have hnext : (f.step e).hub.subscribers.get? i = some sub' := by
        rw [hone, Hub.get?_run hi, hsub, hsub']
      have hdrawn : i < (f.step e).hub.drawn := by
        rw [hone]
        exact Runs.run_inv (I := fun g : Hub ArbOpportunity => i < g.drawn)
          (fun g e hg => lt_of_lt_of_le hg (g.drawn_le_step e)) _ hi
      have hrest := ih hdrawn hnext fun hmem => hes (List.mem_cons_of_mem _ hmem)
      rw [bound_step] at hrest
      -- one event of the feed is a run of events of the hub
      have hsplit : hubEvents f.app (e :: es) =
          hubEvents f.app [e] ++ hubEvents (f.step e).app es := by
        cases e with
        | registry op => rw [step, app_registry, hubEvents, hubEvents, hubEvents, List.append_nil]
        | subscribe => rfl
        | unsubscribe j => rfl
        | take j => rfl
      rw [hsplit, Runs.guarded_append, hsub', hrest, Runs.Guarded]
      refine and_congr_left fun _ => ?_
      cases e with
      | registry op =>
          rw [hubEvents, hubEvents, List.append_nil, Hub.guarded_publish]
          exact ⟨fun h s hs => by cases hsub.symm.trans hs; exact h, fun h => h sub hsub⟩
      | subscribe => simp [hubEvents, Runs.Guarded, Hub.Roomy, HasRoom]
      | unsubscribe j => simp [hubEvents, Runs.Guarded, Hub.Roomy, HasRoom]
      | take j => simp [hubEvents, Runs.Guarded, Hub.Roomy, HasRoom]

end OpportunityFeed

/-- **What a subscriber hears** that came after any run and did not leave: of
what was handed over to be stored since then, in that order, a part; all of it
exactly if no step announced more than it had room for. At most a hundred wait
for it, and whatever the others do is the same to it. -/
theorem subscriber_hears (s : AppState) (before after : List FeedEvent) :
    let f₀ := Runs.run step { app := s } before
    let i := f₀.hub.drawn
    let f₁ := f₀.step .subscribe
    let f := Runs.run step f₁ after
    FeedEvent.unsubscribe i ∉ after →
    ∃ sub news, f.hub.subscribers.get? i = some sub ∧ sub.queue.length ≤ 100 ∧
      f.tape = f₀.tape ++ news ∧ sub.stream.Sublist news ∧
      (sub.stream = news ↔ Runs.Guarded step (HasRoom i) f₁ after) ∧
      (Runs.run step f₁ (after.filter (FeedEvent.concerns i))).hub.subscribers.get? i =
        some sub := by
  intro f₀ i f₁ f hstay
  have hbound : f₁.hub.bound = 100 := by
    have hrun : f₀.hub.bound = 100 :=
      Runs.run_inv (I := fun g : OpportunityFeed => g.hub.bound = 100)
        (fun g e hg => (bound_step g e).trans hg) before rfl
    exact hrun
  have hi : i < f₁.hub.drawn := Nat.lt_succ_self _
  have hfresh : f₁.hub.subscribers.get? i = some {} := Dict.get?_set_self ..
  obtain ⟨hhub, htape⟩ := hub_run f₁ after
  obtain ⟨sub, kept, hsub, hstream, hkept, hall⟩ :=
    Hub.stream_run f₁.hub.bound (stays_hubEvents (s := f₁.app) hstay) {}
  have hget : f.hub.subscribers.get? i = some sub := by
    rw [show f.hub = _ from hhub, Hub.get?_run hi, hfresh, hsub]
  have hstream' : sub.stream = kept := hstream.trans (List.nil_append _)
  refine ⟨sub, Hub.published (hubEvents f₁.app after), hget, ?_, htape, hstream' ▸ hkept, ?_, ?_⟩
  · exact hbound ▸ Hub.length_queue_le (Nat.zero_le _) hsub
  · rw [hstream', hall, guarded_hubEvents hi hfresh hstay]
  · rw [(hub_run f₁ _).1, ← filter_hubEvents, ← Hub.get?_run_concerns hi, ← hhub]
    exact hget

open TwoVenues in
theorem subscriber_hears_pair :
    ∃ sub news, (Runs.run step { app := state } heard).hub.subscribers.get? 0 = some sub ∧
      (Runs.run step { app := state } heard).tape = news ∧ sub.stream.Sublist news := by
  obtain ⟨sub, news, hsub, -, htape, hpart, -⟩ :=
    subscriber_hears state [] heard.tail (by simp [heard])
  exact ⟨sub, news, hsub, htape, hpart⟩

end Arbys
