import Arbys.Discovery.Service
import Arbys.Lib.InvertedIndex

/-!
# Which groups a quote concerns

`EngineRuntime` keeps, beside its groups, the groups of each outcome.
`register_group` adds a group under the legs it is given and takes nothing
away, `unregister_group` discards it under the legs of the group that is
registered. A group that is registered over itself, as `POST /event-groups`
does, stays under the outcomes it no longer has; a discovery pass unregisters
it first.
-/

namespace Arbys

namespace EngineRuntime

/-- The outcomes of a group's legs. -/
def legOutcomes (group : EventGroup) : List OutcomeId := group.legs.map (·.outcomeId)

/-- A registered group that has the outcome as a leg. -/
def Affected (e : EngineRuntime) (o : OutcomeId) (gid : GroupId) : Prop :=
  ∃ group, e.groups.get? gid = some group ∧ o ∈ legOutcomes group

/-- Under every outcome are the registered groups that have it, each once. -/
def IndexExact (e : EngineRuntime) : Prop :=
  InvertedIndex.Exact legOutcomes e.groups e.outcomeToGroups

/-- A quote evaluates the groups its outcome affects, and no other. -/
def EvaluatesAffected (e : EngineRuntime) : Prop :=
  ∀ (book : QuoteBook) (clock : ℕ → ℚ) (quote : Quote), ∃ gids : List GroupId,
    e.onQuote book clock quote = e.evaluateAll book clock gids ∧ gids.Nodup ∧
      ∀ gid, gid ∈ gids ↔ e.Affected quote.outcomeId gid

variable {e : EngineRuntime}

theorem indexExact_of_empty (hgroups : e.groups = Dict.empty)
    (hindex : e.outcomeToGroups = Dict.empty) : e.IndexExact := by
  rw [IndexExact, hgroups, hindex]
  exact InvertedIndex.exact_empty

theorem IndexExact.evaluatesAffected (h : e.IndexExact) : e.EvaluatesAffected :=
  fun _ _ quote => ⟨_, rfl, h.sets quote.outcomeId, fun gid => h.mem_iff quote.outcomeId gid⟩

/-! ## One operation -/

/-- `register_group` and `unregister_group`. -/
inductive IndexOp where
  | register (group : EventGroup)
  | unregister (gid : GroupId)

namespace IndexOp

def step (e : EngineRuntime) : IndexOp → EngineRuntime
  | .register group => e.registerGroup group
  | .unregister gid => e.unregisterGroup gid

/-- A group that is registered over itself keeps the outcomes it had. -/
def KeepsLegs (e : EngineRuntime) : IndexOp → Prop
  | .register group => ∀ old ∈ e.groups.get? group.id, ∀ o ∈ legOutcomes old,
      o ∈ legOutcomes group
  | .unregister _ => True

instance (e : EngineRuntime) : DecidablePred (KeepsLegs e)
  | .register group => inferInstanceAs (Decidable (∀ old ∈ e.groups.get? group.id,
      ∀ o ∈ legOutcomes old, o ∈ legOutcomes group))
  | .unregister _ => isTrue trivial

end IndexOp

theorem outcomeToGroups_registerGroup (e : EngineRuntime) (group : EventGroup) :
    (e.registerGroup group).outcomeToGroups =
      InvertedIndex.addAll e.outcomeToGroups (legOutcomes group) group.id := by
  rw [InvertedIndex.addAll, legOutcomes, List.foldl_map]
  rfl

/-- **Registering** keeps the index exact exactly where no outcome is lost. -/
theorem indexExact_registerGroup_iff (h : e.IndexExact) (group : EventGroup) :
    (e.registerGroup group).IndexExact ↔ IndexOp.KeepsLegs e (.register group) := by
  rw [IndexExact, outcomeToGroups_registerGroup]
  exact InvertedIndex.exact_put_iff h group.id group

theorem IndexExact.unregisterGroup (h : e.IndexExact) (gid : GroupId) :
    (e.unregisterGroup gid).IndexExact := by
  unfold EngineRuntime.unregisterGroup
  cases hget : e.groups.get? gid with
  | none => exact h
  | some group =>
      have hindex : group.legs.foldl
          (fun d leg => d.set leg.outcomeId ((d.getD leg.outcomeId []).erase gid))
          e.outcomeToGroups =
          InvertedIndex.discardAll e.outcomeToGroups (legOutcomes group) gid := by
        rw [InvertedIndex.discardAll, legOutcomes, List.foldl_map]
        rfl
      simp only [hindex]
      exact InvertedIndex.Exact.erase h hget

/-- **One operation.** -/
theorem indexExact_step_iff (h : e.IndexExact) (op : IndexOp) :
    (op.step e).IndexExact ↔ op.KeepsLegs e := by
  cases op with
  | register group => exact indexExact_registerGroup_iff h group
  | unregister gid => exact ⟨fun _ => trivial, fun _ => h.unregisterGroup gid⟩

/-- Unregistered first, a group may change its legs. -/
theorem IndexExact.replace (h : e.IndexExact) (group : EventGroup) :
    ((e.unregisterGroup group.id).registerGroup group).IndexExact := by
  refine (indexExact_registerGroup_iff (h.unregisterGroup group.id) group).mpr ?_
  intro old hold
  rw [Option.mem_def, EngineRuntime.unregisterGroup] at hold
  split at hold
  · rename_i hnone
    rw [hnone] at hold
    cases hold
  · rw [Dict.get?_erase, if_pos rfl] at hold
    cases hold

/-- The registration of a discovery pass, over a group it knows. -/
theorem indexExact_upsertGroup {s : AppState} (h : s.engine.IndexExact)
    (group existing : EventGroup) : (s.upsertGroup (group, some existing)).engine.IndexExact :=
  h.replace group

/-! ## Every sequence -/

/-- **The outcome index is exact** all along a sequence of registrations and
removals exactly when no group is registered over itself without an outcome it
had. -/
theorem outcome_index_exact_iff (h : e.IndexExact) (ops : List IndexOp) :
    (∀ before after, ops = before ++ after →
      (Runs.run IndexOp.step e before).IndexExact ∧
        (Runs.run IndexOp.step e before).EvaluatesAffected) ↔
      Runs.Guarded IndexOp.step IndexOp.KeepsLegs e ops := by
  rw [← Runs.forall_prefix_iff h fun _ op _ hexact => indexExact_step_iff hexact op]
  constructor
  · exact fun hall before after hsplit => (hall before after hsplit).1
  · exact fun hall before after hsplit =>
      ⟨hall before after hsplit, (hall before after hsplit).evaluatesAffected⟩

namespace Posted

def engine : EngineRuntime := { fees := Dict.empty }

/-- A group posted by hand, and posted again at another contract. -/
def first : EventGroup :=
  { id := "eg-1", legs := [⟨"k-yes", "kalshi", true⟩, ⟨"p-no", "polymarket_us", false⟩] }

def again : EventGroup :=
  { id := "eg-1", legs := [⟨"k-yes-2", "kalshi", true⟩, ⟨"p-no", "polymarket_us", false⟩] }

end Posted

open Posted in
theorem outcome_index_exact_replaced :
    (Runs.run IndexOp.step engine
      [.register first, .unregister "eg-1", .register again]).IndexExact :=
  ((outcome_index_exact_iff (indexExact_of_empty rfl rfl)
    [.register first, .unregister "eg-1", .register again]).mpr (by decide +kernel)
      _ [] rfl).1

open Posted in
/-- Posted twice, the group stays under the contract it has left, even when it
is deleted. -/
theorem outcome_index_stale :
    let e := Runs.run IndexOp.step engine [.register first, .register again]
    e.outcomeToGroups.getD "k-yes" [] = ["eg-1"] ∧ ¬ e.Affected "k-yes" "eg-1" ∧
      ¬ e.IndexExact ∧
      (e.unregisterGroup "eg-1").outcomeToGroups.getD "k-yes" [] = ["eg-1"] ∧
      (e.unregisterGroup "eg-1").groups.get? "eg-1" = none := by
  intro e
  have hstale : e.outcomeToGroups.getD "k-yes" [] = ["eg-1"] := by decide +kernel
  have hgroup : e.groups.get? "eg-1" = some again := by decide +kernel
  have hnot : ¬ e.Affected "k-yes" "eg-1" := by
    rintro ⟨group, hget, hleg⟩
    rw [hgroup] at hget
    cases hget
    revert hleg
    decide
  refine ⟨hstale, hnot, fun hexact => hnot ?_, by decide +kernel, by decide +kernel⟩
  exact (hexact.mem_iff "k-yes" "eg-1").mp (by rw [hstale]; exact List.mem_singleton_self _)

end EngineRuntime

end Arbys
