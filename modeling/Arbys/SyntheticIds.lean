import Mathlib.Data.List.TakeWhile
import Arbys.AuditTrail
import Arbys.Publication

/-!
# Synthetic opportunity ids

The engine publishes what a group offers across venues under the group's id and
what it offers within one venue under `<group>:<venue>`. Five readers are given
such an id and look the group up: `live_opportunities_for`, `_title`,
`_starts_at`, `_group_outcomes` and `AutoSettleService.is_settled`. Each cuts the
id at its first colon, and `POST /event-groups` takes any text for an id, so
what they find is the group exactly when its own id has no colon.
-/

namespace Arbys

/-- The ids a group's opportunities are published under, of one venue. -/
def publishedIds (gid : GroupId) (venueId : VenueId) : List GroupId :=
  [gid, gid ++ ":" ++ venueId]

/-- The five readers of an id look at the group `gid`. -/
structure LooksAt (id gid : GroupId) : Prop where
  live : ∀ (s : AppState) (now : ℚ),
    s.liveOpportunitiesFor now id = s.engine.evaluateNow s.book (fun _ => now) gid
  title : ∀ s : AppState, titleOf s id = ((s.eventGroups.get? gid).map (·.title)).getD id
  startsAt : ∀ s : AppState, startsAtOf s id = (s.eventGroups.get? gid).bind (·.startTime)
  outcomes : ∀ (s : AppState) (opp : ArbOpportunity), opp.eventGroupId = id →
    groupOutcomes s opp = ((s.eventGroups.get? gid).map fun group =>
      group.legs.map (·.outcomeId)).getD (opp.legs.map (·.outcomeId))
  settled : ∀ service : AutoSettleService, service.isSettled id = service.settled.contains gid

theorem looksAt_baseId (id : GroupId) : LooksAt id (baseId id) where
  live _ _ := rfl
  title _ := rfl
  startsAt _ := rfl
  outcomes s opp hid := by
    rw [groupOutcomes, hid]
    cases s.eventGroups.get? (baseId id) <;> rfl
  settled _ := rfl

/-- The settled check alone tells which group is looked at. -/
theorem looksAt_iff {id gid : GroupId} : LooksAt id gid ↔ baseId id = gid := by
  constructor
  · intro h
    have hsettled := h.settled { settled := [gid] }
    simpa [AutoSettleService.isSettled] using hsettled
  · rintro rfl
    exact looksAt_baseId id

theorem toList_baseId (id : GroupId) : (baseId id).toList = id.toList.takeWhile (· ≠ ':') := by
  rw [baseId, String.toList_ofList]

/-- An id without a colon is its own base, whatever venue is written after it. -/
theorem baseId_of_colon_notMem {gid : GroupId} (h : ':' ∉ gid.toList) {venueId : VenueId}
    {id : GroupId} (hid : id ∈ publishedIds gid venueId) : baseId id = gid := by
  have hall : ∀ c ∈ gid.toList, decide (c ≠ ':') = true := by
    intro c hc
    rw [decide_eq_true_iff]
    rintro rfl
    exact h hc
  rw [← String.toList_inj, toList_baseId]
  simp only [publishedIds, List.mem_cons, List.not_mem_nil, or_false] at hid
  rcases hid with rfl | rfl
  · -- the id of the group itself
    exact List.takeWhile_eq_self_iff.mpr hall
  · have hcolon : ":".toList = [':'] := rfl
    rw [String.toList_append, String.toList_append, hcolon, List.append_assoc,
      List.takeWhile_append_of_pos hall]
    simp

/-- A base has no colon. -/
theorem colon_notMem_baseId (id : GroupId) : ':' ∉ (baseId id).toList := by
  rw [toList_baseId]
  intro hmem
  have := List.mem_takeWhile_imp hmem
  simp at this

/-- What is found under a group is published under one of its ids. -/
theorem mem_publishedIds_of_evaluateNow {e : EngineRuntime} {book : QuoteBook} {clock : ℕ → ℚ}
    {gid : GroupId} (hid : ∀ group, e.groups.get? gid = some group → group.id = gid)
    {found : List ArbOpportunity} (h : e.evaluateNow book clock gid = .ok found)
    {opp : ArbOpportunity} (hopp : opp ∈ found) :
    ∃ venueId, opp.eventGroupId ∈ publishedIds gid venueId := by
  obtain ⟨group, -, hof⟩ := EngineRuntime.ofGroup_of_evaluateNow hid h hopp
  rcases hof.names with hname | ⟨v, hname⟩
  · exact ⟨"", hname ▸ List.mem_cons_self⟩
  · exact ⟨v, hname ▸ List.mem_cons_of_mem _ List.mem_cons_self⟩

/-- **Synthetic ids lead back to their group** exactly when the group's id has
no colon. -/
theorem published_ids_look_at_group_iff (gid : GroupId) (venueId : VenueId) :
    (∀ id ∈ publishedIds gid venueId, LooksAt id gid) ↔ ':' ∉ gid.toList := by
  constructor
  · intro h
    have hbase := looksAt_iff.mp (h gid List.mem_cons_self)
    rw [← hbase]
    exact colon_notMem_baseId gid
  · intro h id hid
    exact looksAt_iff.mpr (baseId_of_colon_notMem h hid)

/-- A group registered by hand under an id with a colon. -/
def colonGroup : EventGroup where
  id := "cup:final"
  title := "The final"
  legs := [⟨"k-yes", "kalshi", true⟩, ⟨"p-no", "polymarket_us", false⟩]

/-- Registered and settled, it is traded again, under its id for a title. -/
theorem colonGroup_not_looked_at :
    let s := RegistryOp.step TwoVenues.state (.createGroup colonGroup)
    let service := AutoSettleService.markSettled {} "cup:final"
    s.eventGroups.get? "cup:final" = some colonGroup ∧
      service.isSettled "cup:final" = false ∧ titleOf s "cup:final" ≠ colonGroup.title ∧
      ¬ ∀ id ∈ publishedIds "cup:final" "kalshi", LooksAt id "cup:final" := by
  refine ⟨by decide +kernel, by decide, by decide +kernel, ?_⟩
  intro h
  have hsettled := (h "cup:final" List.mem_cons_self).settled { settled := ["cup:final"] }
  revert hsettled
  decide

end Arbys
