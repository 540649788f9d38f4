import Arbys.Discovery.Service

/-!
# The published opportunities

Three structures say which groups there are and what they offer: the groups of
`AppState`, the registry of the engine, and the published sets. The endpoints
of `backend/app.py`, the two halves of a discovery pass and the quotes each
change some of them. `RegistryOp` is one stretch of any of these, and
`Published` says how the three belong together.
-/

namespace Arbys

open EngineRuntime

/-- Sorted before, by the return and then by the profit. -/
def richer (o p : ArbOpportunity) : Prop :=
  p.guaranteedProfitBps < o.guaranteedProfitBps ∨
    p.guaranteedProfitBps = o.guaranteedProfitBps ∧ p.guaranteedProfit ≤ o.guaranteedProfit

instance : DecidableRel richer := fun _ _ => inferInstanceAs (Decidable (_ ∨ _))

namespace AppState

/-- `opportunities`: every published one, richest first. -/
def opportunities (s : AppState) : List ArbOpportunity :=
  s.oppsByGroup.values.flatten.insertionSort richer

/-- Evaluate groups in turn and publish what each offers, until one raises. -/
def evaluateGroups (s : AppState) (clock : ℕ → ℚ) : List GroupId → AppState
  | [] => s
  | gid :: gids =>
      match s.engine.evaluateNow s.book clock gid with
      | .error _ => s
      | .ok found => evaluateGroups (s.setGroupOpportunities gid found) clock gids

/-- The engine's `on_quote`, publishing. -/
def onQuote (s : AppState) (clock : ℕ → ℚ) (quote : Quote) : AppState :=
  s.evaluateGroups clock (s.engine.outcomeToGroups.getD quote.outcomeId [])

end AppState

/-- One stretch between two awaits: `POST /event-groups` and `DELETE
/event-groups` once their write is committed, one group that a discovery pass
registers or retires, a quote that is stored, and a quote that is evaluated. -/
inductive RegistryOp where
  | createGroup (group : EventGroup)
  | deleteGroup (gid : GroupId)
  | upsertGroup (group : EventGroup) (existing : Option EventGroup)
  | retireGroup (gid : GroupId)
  | upsertQuote (now : ℚ) (quote : Quote)
  | onQuote (clock : ℕ → ℚ) (quote : Quote)

namespace RegistryOp

def step (s : AppState) : RegistryOp → AppState
  | .createGroup group => s.registerGroup group
  | .deleteGroup gid => s.retireGroup gid
  | .upsertGroup group existing => s.upsertGroup (group, existing)
  | .retireGroup gid => (s.retireGroup gid).clearGroupOpportunities gid
  | .upsertQuote now quote => { s with book := s.book.upsert now quote }
  | .onQuote clock quote => s.onQuote clock quote

end RegistryOp

/-! ## What a pass of discovery does, step by step -/

open RegistryOp

namespace AppState

theorem upsertBatches_state (s : AppState) (writes : PassWrites)
    (batches : List (ℕ × List (EventGroup × Option EventGroup))) :
    (s.upsertBatches writes batches).state = Runs.run step s
      ((batches.filter fun b => writes.upserts b.1).flatMap fun b =>
        b.2.map fun e => .upsertGroup e.1 e.2) := by
  have hbatch : ∀ (l : List (EventGroup × Option EventGroup)) (s : AppState),
      l.foldl upsertGroup s = Runs.run step s (l.map fun e => .upsertGroup e.1 e.2) := by
    intro l s
    rw [Runs.run, List.foldl_map]
    rfl
  induction batches using List.reverseRecOn with
  | nil => rfl
  | append_singleton batches b ih =>
      unfold upsertBatches at ih ⊢
      rw [List.foldl_append, List.filter_append, List.flatMap_append, Runs.run_append, ← ih]
      by_cases hb : writes.upserts b.1 = true
      · have hkeep : [b].filter (fun b => writes.upserts b.1) = [b] := by simp [hb]
        simp only [hkeep, List.foldl_cons, List.foldl_nil, if_pos hb, List.flatMap_cons,
          List.flatMap_nil, List.append_nil]
        exact hbatch b.2 _
      · simp [hb]

/-- **A pass** is a run of registrations and retirements. -/
theorem runOnce_state (s : AppState) (found : Discovered) (writes : PassWrites) :
    ∃ ops : List RegistryOp, (s.runOnce found writes).state = Runs.run step s ops ∧
      ∀ op ∈ ops, (∃ group existing, op = .upsertGroup group existing) ∨
        ∃ gid, op = .retireGroup gid := by
  have hupserts := s.upsertBatches_state writes
    ((batch (s.pendingGroups found.groups) groupWriteBatch).zipIdx.map Prod.swap)
  generalize hops : List.flatMap _ _ = ops at hupserts
  have hkind : ∀ op ∈ ops, (∃ group existing, op = .upsertGroup group existing) ∨
      ∃ gid, op = .retireGroup gid := by
    intro op hop
    rw [← hops] at hop
    obtain ⟨b, -, hop⟩ := List.mem_flatMap.mp hop
    obtain ⟨e, -, rfl⟩ := List.mem_map.mp hop
    exact Or.inl ⟨_, _, rfl⟩
  unfold runOnce
  simp only
  split
  · generalize List.map (fun g => g.id) found.groups = foundIds
    generalize s.upsertBatches writes _ = upserted at hupserts
    refine ⟨ops ++ (upserted.state.retireMissing writes foundIds).retired.map .retireGroup, ?_, ?_⟩
    · rw [Runs.run_append, ← hupserts, Runs.run, List.foldl_map]
      rfl
    · intro op hop
      rcases List.mem_append.mp hop with hop | hop
      · exact hkind op hop
      · obtain ⟨gid, -, rfl⟩ := List.mem_map.mp hop
        exact Or.inr ⟨gid, rfl⟩
  · exact ⟨ops, hupserts, hkind⟩

/-! ## The invariant -/

/-- Every published opportunity is of a group registered now. -/
def PublishedReal (s : AppState) : Prop :=
  ∀ opp ∈ s.opportunities, ∃ gid group, s.eventGroups.get? gid = some group ∧ OfGroup gid group opp

/-- The engine has the groups, each under its id, and what a group offers is
its own. -/
structure Published (s : AppState) : Prop where
  registered : ∀ gid, s.engine.groups.get? gid = s.eventGroups.get? gid
  keyed : ∀ gid group, s.eventGroups.get? gid = some group → group.id = gid
  offers : ∀ gid opps, s.oppsByGroup.get? gid = some opps → ∀ opp ∈ opps,
    ∃ group, s.eventGroups.get? gid = some group ∧ OfGroup gid group opp

/-- A process that has published nothing yet. -/
structure Booted (s : AppState) : Prop where
  registered : ∀ gid, s.engine.groups.get? gid = s.eventGroups.get? gid
  keyed : ∀ gid group, s.eventGroups.get? gid = some group → group.id = gid
  nothing : s.oppsByGroup = Dict.empty

/-- What a group's id still offers is made of the group's legs. -/
def StillOffers (s : AppState) (group : EventGroup) : Prop :=
  ∀ opp ∈ s.oppsByGroup.getD group.id [], ∀ leg ∈ opp.legs, ∃ of ∈ group.legs,
    leg.outcomeId = of.outcomeId ∧ leg.venueId = of.venueId

/-- The step leaves no published opportunity behind. -/
def KeepsPublished (s : AppState) : RegistryOp → Prop
  | .createGroup group => s.StillOffers group
  | .deleteGroup gid => s.oppsByGroup.getD gid [] = []
  | .upsertGroup group _ => s.StillOffers group
  | .retireGroup _ => True
  | .upsertQuote _ _ => True
  | .onQuote _ _ => True

variable {s : AppState}

theorem Booted.published (h : Booted s) : Published s := by
  refine ⟨h.registered, h.keyed, fun gid opps hopps => ?_⟩
  rw [h.nothing] at hopps
  cases hopps

theorem Published.real (h : Published s) : PublishedReal s := by
  intro opp hopp
  have hflat := (List.perm_insertionSort richer s.oppsByGroup.values.flatten).mem_iff.mp hopp
  obtain ⟨opps, hopps, hmem⟩ := List.mem_flatten.mp hflat
  obtain ⟨⟨gid, _⟩, hentry, rfl⟩ := List.mem_map.mp hopps
  obtain ⟨group, hg, hof⟩ := h.offers gid _ (Dict.mem_entries_iff.mp hentry) opp hmem
  exact ⟨gid, group, hg, hof⟩

theorem get?_groups_unregisterGroup (e : EngineRuntime) (gid j : GroupId) :
    (e.unregisterGroup gid).groups.get? j = if j = gid then none else e.groups.get? j := by
  unfold EngineRuntime.unregisterGroup
  cases hg : e.groups.get? gid with
  | none =>
      by_cases hj : j = gid
      · rw [if_pos hj, hj, hg]
      · rw [if_neg hj]
  | some group => exact Dict.get?_erase ..

/-- Registering a group over whatever was under its id. -/
theorem Published.register (h : Published s) {group : EventGroup} {s' : AppState}
    (hoffers : s.StillOffers group) (heng : ∀ gid, s'.engine.groups.get? gid =
      if gid = group.id then some group else s.engine.groups.get? gid)
    (hgroups : s'.eventGroups = s.eventGroups.set group.id group)
    (hopps : s'.oppsByGroup = s.oppsByGroup) : Published s' := by
  constructor
  · intro gid
    rw [heng, hgroups, Dict.get?_set, h.registered]
  · intro gid g hg
    rw [hgroups, Dict.get?_set] at hg
    split at hg
    · rename_i hgid
      cases hg
      exact hgid.symm
    · exact h.keyed gid g hg
  · intro gid opps hget opp hopp
    rw [hopps] at hget
    obtain ⟨g, hg, hof⟩ := h.offers gid opps hget opp hopp
    rw [hgroups, Dict.get?_set]
    by_cases hgid : gid = group.id
    · subst hgid
      rw [if_pos rfl]
      exact ⟨group, rfl, hof.names, hoffers opp (by rwa [Dict.getD_of_get? hget])⟩
    · rw [if_neg hgid]
      exact ⟨g, hg, hof⟩

/-- Taking a group out, once nothing it offered is left. -/
theorem Published.retire (h : Published s) (gid : GroupId) {s' : AppState}
    (heng : ∀ j, s'.engine.groups.get? j = if j = gid then none else s.engine.groups.get? j)
    (hgroups : s'.eventGroups = s.eventGroups.erase gid)
    (hopps : ∀ j opps, s'.oppsByGroup.get? j = some opps → opps ≠ [] →
      j ≠ gid ∧ s.oppsByGroup.get? j = some opps) : Published s' := by
  constructor
  · intro j
    rw [heng, hgroups, Dict.get?_erase, h.registered]
  · intro j g hg
    rw [hgroups, Dict.get?_erase] at hg
    split at hg
    · cases hg
    · exact h.keyed j g hg
  · intro j opps hget opp hopp
    obtain ⟨hj, hold⟩ := hopps j opps hget (List.ne_nil_of_mem hopp)
    rw [hgroups, Dict.get?_erase, if_neg hj]
    exact h.offers j opps hold opp hopp

/-- What an evaluation finds replaces what the group offered. -/
theorem Published.evaluateGroups (clock : ℕ → ℚ) (gids : List GroupId) (h : Published s) :
    Published (s.evaluateGroups clock gids) := by
  induction gids generalizing s with
  | nil => exact h
  | cons gid gids ih =>
      unfold AppState.evaluateGroups
      cases hd : s.engine.evaluateNow s.book clock gid with
      | error err => exact h
      | ok found =>
          refine ih ⟨h.registered, h.keyed, fun j opps hget opp hopp => ?_⟩
          have hother : j ≠ gid → s.oppsByGroup.get? j = some opps := by
            intro hj
            simp only [setGroupOpportunities] at hget
            split at hget
            · rwa [Dict.get?_set_ne _ hj] at hget
            · rwa [Dict.get?_erase, if_neg hj] at hget
          by_cases hj : j = gid
          · subst hj
            have hfound : opps = found := by
              simp only [setGroupOpportunities] at hget
              split at hget
              · rw [Dict.get?_set_self] at hget
                exact (Option.some.inj hget).symm
              · rw [Dict.get?_erase, if_pos rfl] at hget
                cases hget
            obtain ⟨group, hg, hof⟩ := ofGroup_of_evaluateNow
              (fun g hg => h.keyed j g ((h.registered j).symm.trans hg)) hd (hfound ▸ hopp)
            exact ⟨group, (h.registered j).symm.trans hg, hof⟩
          · exact h.offers j opps (hother hj) opp hopp

/-- **One step** keeps the three together, if it leaves nothing behind. -/
theorem Published.step (h : Published s) {op : RegistryOp} (hop : s.KeepsPublished op) :
    Published (step s op) := by
  cases op with
  | createGroup group =>
      exact h.register hop (fun gid => Dict.get?_set ..) rfl rfl
  | deleteGroup gid =>
      refine h.retire gid (get?_groups_unregisterGroup s.engine gid) rfl fun j opps hget hne => ?_
      refine ⟨?_, hget⟩
      rintro rfl
      exact hne ((Dict.getD_of_get? hget []).symm.trans hop)
  | upsertGroup group existing =>
      cases existing with
      | none => exact h.register hop (fun gid => Dict.get?_set ..) rfl rfl
      | some old =>
          refine h.register hop (fun gid => ?_) rfl rfl
          refine (Dict.get?_set ..).trans ?_
          rw [get?_groups_unregisterGroup]
          split <;> rfl
  | retireGroup gid =>
      refine h.retire gid (get?_groups_unregisterGroup s.engine gid) rfl fun j opps hget _ => ?_
      have hget' : (s.oppsByGroup.erase gid).get? j = some opps := hget
      rw [Dict.get?_erase] at hget'
      split at hget'
      · cases hget'
      · rename_i hj
        exact ⟨hj, hget'⟩
  | upsertQuote now quote => exact ⟨h.registered, h.keyed, h.offers⟩
  | onQuote clock quote => exact h.evaluateGroups clock _

end AppState

open AppState

/-- **Published opportunities are real**, in every run whose registrations and
deletions leave no published opportunity behind. -/
theorem published_real (s : AppState) (hs : Booted s) (ops : List RegistryOp)
    (h : Runs.Guarded step KeepsPublished s ops) : PublishedReal (Runs.run step s ops) :=
  (h.inv (fun _ _ hi hop => Published.step hi hop) hs.published).real

/-! ## A group that is deleted while it offers something -/

namespace TwoVenues

/-- Nothing is quoted any more below a dollar for the pair. -/
def closed : Quote := quote "k-no" (60 / 100) (by norm_num) (by norm_num)

def offered : List RegistryOp := [.onQuote (fun _ => 0) pYes]

def withdrawn : List RegistryOp :=
  [.upsertQuote 0 closed, .onQuote (fun _ => 0) closed, .deleteGroup "eg-1"]

theorem booted_state : Booted state := by
  refine ⟨fun gid => rfl, fun gid group hg => ?_, rfl⟩
  change Dict.get? (Dict.empty.set TwoVenues.group.id TwoVenues.group) gid = some group at hg
  rw [Dict.get?_set] at hg
  split at hg
  · rename_i hgid
    cases hg
    exact hgid.symm
  · cases hg

end TwoVenues

open TwoVenues in
theorem published_real_withdrawn :
    PublishedReal (Runs.run step state (offered ++ withdrawn)) :=
  published_real state booted_state (offered ++ withdrawn)
    ⟨trivial, trivial, trivial, (by decide +kernel : _ = _), trivial⟩

open TwoVenues in
/-- The deletion leaves the opportunity published. -/
theorem not_published_real_deleted :
    ¬ PublishedReal (Runs.run step state (offered ++ [.deleteGroup "eg-1"])) := by
  intro h
  have hpublished : (Runs.run step state (offered ++ [.deleteGroup "eg-1"])).opportunities =
      [opportunity] := by decide +kernel
  have hgroups : (Runs.run step state (offered ++ [.deleteGroup "eg-1"])).eventGroups =
      Dict.empty := by decide +kernel
  obtain ⟨gid, group, hg, -⟩ := h opportunity (hpublished ▸ List.mem_singleton_self _)
  rw [hgroups] at hg
  cases hg

end Arbys
