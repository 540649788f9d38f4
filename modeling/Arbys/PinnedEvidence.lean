import Arbys.AutoSettleRuns

/-!
# The price route's evidence

The price route settles a group at the third poll in a row that finds one side
pinned. What "in a row" rests on is `_hits`, a count per group that every path
of the tick has to forget when it breaks the row. All of them do, except the
one of a group reported ended: when its last book names no winner the count
stays, and the row goes on where it was if the report is taken back. In every
run in which that path is only taken without a count on record, or settles the
group, three polls are behind every call.
-/

namespace Arbys

open AppState

/-- At this turn the group was registered, not reported ended, had started,
and the side was pinned on fresh quotes. -/
def Judgment.Pinned (j : Judgment) (gid : GroupId) (winner : Bool) : Prop :=
  match j.item with
  | .retired _ _ => False
  | .registered gid' group => gid' = gid ∧ group.ended ≠ some true ∧
      hasStarted j.t.utc group = true ∧
      j.before.winningSide j.t.now group askThreshold false = some winner

instance (j : Judgment) (gid : GroupId) (winner : Bool) : Decidable (j.Pinned gid winner) :=
  match j with
  | ⟨_, _, _, .retired _ _⟩ => inferInstanceAs (Decidable False)
  | ⟨_, _, _, .registered _ _⟩ => inferInstanceAs (Decidable (_ ∧ _))

/-- It was, at a turn `ago` ticks before tick `tickNo`. -/
def Seen.PinnedAgo (x : Seen) (tickNo ago : ℕ) (gid : GroupId) (winner : Bool) : Prop :=
  match x with
  | .judged j => j.tickNo + ago = tickNo ∧ j.Pinned gid winner
  | .marked _ => False

instance (x : Seen) (tickNo ago : ℕ) (gid : GroupId) (winner : Bool) :
    Decidable (x.PinnedAgo tickNo ago gid winner) :=
  match x with
  | .judged _ => inferInstanceAs (Decidable (_ ∧ _))
  | .marked _ => inferInstanceAs (Decidable False)

/-- If the turn calls `_settle_group` by the price route, the same side was
pinned at that tick and at the ticks just before it. -/
def Seen.Evidenced (history : List Seen) (x : Seen) : Prop :=
  match x with
  | .judged j => ∀ st ∈ j.calls, st.pinned = true →
      ∀ ago < consecutiveHits, ∃ y ∈ history, y.PinnedAgo j.tickNo ago st.gid st.winner
  | .marked _ => True

instance (history : List Seen) (x : Seen) : Decidable (x.Evidenced history) :=
  match x with
  | .judged j => inferInstanceAs (Decidable (∀ st ∈ j.calls, _))
  | .marked _ => inferInstanceAs (Decidable True)

/-- Every settlement by the price route has its consecutive evidence. -/
def ConsecutiveEvidence (history : List Seen) : Prop := ∀ x ∈ history, x.Evidenced history

instance (history : List Seen) : Decidable (ConsecutiveEvidence history) :=
  inferInstanceAs (Decidable (∀ x ∈ history, _))

/-- The condition on a step: a turn that finds a group registered, not settled
and reported ended, with a count on record, settles it. -/
def EndedSettles (w : AutoRun) : AutoMove → Prop
  | .judge t =>
      match w.settling, w.agenda with
      | none, .registered gid group :: _ =>
          group.ended = some true → gid ∉ w.app.autoSettle.settled →
            w.app.autoSettle.hits.get? gid ≠ none →
              hasStarted t.utc group = true ∧
                w.app.winningSide t.now group resolvedAskThreshold true ≠ none
      | _, _ => True
  | _ => True

instance (w : AutoRun) (m : AutoMove) : Decidable (EndedSettles w m) :=
  match w, m with
  | ⟨_, none, .registered _ _ :: _, _, _⟩, .judge _ =>
      inferInstanceAs (Decidable (_ → _ → _ → _ ∧ _))
  | ⟨_, none, .retired _ _ :: _, _, _⟩, .judge _ => isTrue trivial
  | ⟨_, none, [], _, _⟩, .judge _ => isTrue trivial
  | ⟨_, some _, _, _, _⟩, .judge _ => isTrue trivial
  | _, .begin => isTrue trivial
  | _, .settle => isTrue trivial
  | _, .world _ => isTrue trivial
  | _, .markSettled _ => isTrue trivial

/-! ## What a turn counts -/

namespace AppState

variable {s : AppState} {t : Instant} {item : TickItem}

/-- A retired group's count is forgotten with it. -/
theorem judge_retired_hits (s : AppState) (t : Instant) (gid : GroupId) (group : EventGroup) :
    (s.judge t (.retired gid group)).1.autoSettle.hits.get? gid = none := by
  have hgone : (s.forgotten gid).autoSettle.hits.get? gid = none :=
    (Dict.get?_erase _ _ _).trans (if_pos rfl)
  rw [judge_retired]
  split
  · exact hgone
  · obtain ⟨⟨unresolved, hu⟩, -⟩ := settleFinal_spec (s.forgotten gid) t group
    rw [hu]
    exact hgone

/-- Whoever has a count after its turn was seen in it. -/
theorem judge_hits_seen (h : (s.judge t item).1.autoSettle.hits.get? item.gid ≠ none) :
    (s.judge t item).1.autoSettle.seen.get? item.gid ≠ none := by
  rw [(judge_spec s t item).seen]
  cases item with
  | registered gid group => exact Option.some_ne_none _
  | retired gid group => exact absurd (judge_retired_hits s t gid group) h

/-- **The count after a turn**, of a group not settled: what it was, on the path
of a group reported ended, and otherwise one more for the side that is pinned. -/
theorem judge_hits {winner : Bool} {n : ℕ} (hin : item.gid ∉ s.autoSettle.settled)
    (h : (s.judge t item).1.autoSettle.hits.get? item.gid = some (winner, n)) :
    ∃ gid group, item = .registered gid group ∧
      ((group.ended = some true ∧ s.autoSettle.hits.get? gid = some (winner, n)) ∨
        (group.ended ≠ some true ∧ hasStarted t.utc group = true ∧
          s.winningSide t.now group askThreshold false = some winner ∧
          n = (if (s.autoSettle.hits.getD gid (winner, 0)).1 = winner then
            (s.autoSettle.hits.getD gid (winner, 0)).2 else 0) + 1)) := by
  cases item with
  | retired gid group =>
      change gid ∉ s.autoSettle.settled at hin
      rw [judge_retired, if_neg hin] at h
      obtain ⟨⟨unresolved, hs⟩, -⟩ := settleFinal_spec (s.forgotten gid) t group
      rw [hs] at h
      have hgone : (s.forgotten gid).autoSettle.hits.get? gid = none :=
        (Dict.get?_erase _ _ _).trans (if_pos rfl)
      exact absurd (hgone.symm.trans h) (by simp)
  | registered gid group =>
      refine ⟨gid, group, rfl, ?_⟩
      change gid ∉ s.autoSettle.settled at hin
      rw [judge_registered, if_neg hin] at h
      -- an ended group is left before its count is looked at
      by_cases hended : group.ended = some true
      · rw [if_pos hended] at h
        obtain ⟨⟨unresolved, hs⟩, -⟩ := settleFinal_spec (s.noted gid group) t group
        rw [hs] at h
        exact .inl ⟨hended, h⟩
      rw [if_neg hended] at h
      -- one that has not started loses its count, as does one that is not pinned
      by_cases hstarted : hasStarted t.utc group = false
      · rw [if_pos hstarted] at h
        have hgone : ((s.noted gid group).uncounted gid).autoSettle.hits.get? gid = none :=
          (Dict.get?_erase _ _ _).trans (if_pos rfl)
        exact absurd (hgone.symm.trans h) (by simp)
      rw [if_neg hstarted] at h
      rcases settlePinned_cases (s.noted gid group) t gid group with
        ⟨-, hp⟩ | ⟨winner', count, hside, hcount, hp⟩
      · rw [hp] at h
        have hgone : ((s.noted gid group).uncounted gid).autoSettle.hits.get? gid = none :=
          (Dict.get?_erase _ _ _).trans (if_pos rfl)
        exact absurd (hgone.symm.trans h) (by simp)
      · rw [hp] at h
        have hnow := (Dict.get?_set_self s.autoSettle.hits gid (winner', count)).symm.trans h
        obtain ⟨rfl, rfl⟩ := Prod.mk.inj (Option.some.inj hnow)
        exact .inr ⟨hended, (Bool.not_eq_false _).mp hstarted, hside, hcount⟩

/-- **A call by the price route** comes with a count of three. -/
theorem judge_pinned {st : Settling} (h : (s.judge t item).2 = some st)
    (hpinned : st.pinned = true) :
    ∃ group, item = .registered st.gid group ∧ group.ended ≠ some true ∧ ∃ n,
      consecutiveHits ≤ n ∧
        (s.judge t item).1.autoSettle.hits.get? st.gid = some (st.winner, n) := by
  cases item with
  | retired gid group =>
      rw [judge_retired] at h
      split at h
      · cases h
      · rw [((settleFinal_spec _ t group).2 st h).2.1] at hpinned
        cases hpinned
  | registered gid group =>
      rw [judge_registered] at h ⊢
      split at h
      · cases h
      rename_i hin
      rw [if_neg hin]
      split at h
      · rw [((settleFinal_spec _ t group).2 st h).2.1] at hpinned
        cases hpinned
      rename_i hended
      rw [if_neg hended]
      split at h
      · cases h
      rename_i hstarted
      rw [if_neg hstarted]
      rcases settlePinned_cases (s.noted gid group) t gid group with
        ⟨-, hp⟩ | ⟨winner, count, -, -, hp⟩
      · rw [hp] at h
        cases h
      · rw [hp] at h ⊢
        by_cases hc : consecutiveHits ≤ count
        · simp only [if_pos hc, Option.some.injEq] at h
          subst h
          exact ⟨group, rfl, hended, count, hc, Dict.get?_set_self _ _ _⟩
        · simp only [if_neg hc] at h
          cases h

/-- The path of a group reported ended, where its last book names a winner. -/
theorem judge_ended {gid : GroupId} {group : EventGroup} {winner : Bool}
    (hin : gid ∉ s.autoSettle.settled) (hended : group.ended = some true)
    (hstarted : hasStarted t.utc group = true)
    (hside : s.winningSide t.now group resolvedAskThreshold true = some winner) :
    (s.judge t (.registered gid group)).2 = some ⟨group.id, winner, group.legs, false⟩ := by
  have hsame : (s.noted gid group).winningSide t.now group resolvedAskThreshold true =
    some winner := hside
  rw [judge_registered, if_neg hin, if_pos hended, settleFinal,
    if_neg (by rw [hstarted]; exact Bool.false_ne_true.symm), hsame]

end AppState

/-! ## The row behind a count -/

/-- One for a group the tick under way has not come to. -/
def pending (agenda : List TickItem) (gid : GroupId) : ℕ :=
  if gid ∈ agenda.map TickItem.gid then 1 else 0

/-- The invariant: whoever has a count on record was seen, so the next tick
comes to it; and a count of `n`, of a group neither settled nor being settled,
stands for the last `n` ticks that came to the group. -/
structure Counting (w : AutoRun) : Prop where
  evidence : ConsecutiveEvidence w.history
  seen : ∀ gid, w.app.autoSettle.hits.get? gid ≠ none →
    w.app.autoSettle.seen.get? gid ≠ none
  row : ∀ gid winner n, w.app.autoSettle.hits.get? gid = some (winner, n) →
    gid ∉ w.app.autoSettle.settled → (∀ st ∈ w.settling, st.gid ≠ gid) →
      ∀ ago < n, ∃ x ∈ w.history, x.PinnedAgo w.ticks (ago + pending w.agenda gid) gid winner

theorem Seen.Evidenced.mono {history new : List Seen} {x : Seen} (h : x.Evidenced history) :
    x.Evidenced (history ++ new) := by
  cases x with
  | marked gid => trivial
  | judged j =>
      intro st hst hpinned ago hago
      obtain ⟨y, hy, hrow⟩ := h st hst hpinned ago hago
      exact ⟨y, List.mem_append_left _ hy, hrow⟩

theorem ConsecutiveEvidence.append {history : List Seen} {x : Seen}
    (h : ConsecutiveEvidence history) (hx : x.Evidenced (history ++ [x])) :
    ConsecutiveEvidence (history ++ [x]) := by
  intro y hy
  rcases List.mem_append.mp hy with hy | hy
  · exact (h y hy).mono
  · rw [List.mem_singleton.mp hy]
    exact hx

namespace Counting

variable {w : AutoRun}

theorem step_begin (h : Counting w) : Counting (w.step .begin) := by
  simp only [AutoRun.step]
  split
  · rename_i hs ha
    refine ⟨h.evidence, h.seen, fun gid winner n hhits hin hset ago hago => ?_⟩
    obtain ⟨x, hx, hrow⟩ := h.row gid winner n hhits hin (fun st hst => hset st hst) ago hago
    -- the group was seen, so this tick's agenda has it
    have hseen := h.seen gid (by rw [hhits]; simp)
    have hagenda : gid ∈ w.app.tickAgenda.map TickItem.gid := by
      rw [map_gid_tickAgenda, List.mem_append]
      cases hreg : w.app.eventGroups.get? gid with
      | none =>
          refine .inl (List.mem_filter.mpr ⟨Dict.mem_keys_iff.mpr ?_, by rw [hreg]; rfl⟩)
          exact Option.isSome_iff_ne_none.mpr hseen
      | some group => exact .inr (Dict.mem_keys_iff.mpr (by rw [hreg]; rfl))
    have hbefore : pending w.agenda gid = 0 := by simp [pending, ha]
    refine ⟨x, hx, ?_⟩
    rw [hbefore] at hrow
    cases x with
    | marked _ => exact hrow.elim
    | judged j =>
        refine ⟨?_, hrow.2⟩
        have htick := hrow.1
        simp only [pending, hagenda, if_true]
        omega
  · exact h

/-- The turn that finds the side pinned continues the row. -/
theorem row_of_turn (h : Counting w) {t : Instant} {gid : GroupId} {group : EventGroup}
    {agenda : List TickItem} {winner : Bool} (hs : w.settling = none)
    (ha : w.agenda = .registered gid group :: agenda) (hin : gid ∉ w.app.autoSettle.settled)
    (hended : group.ended ≠ some true) (hstarted : hasStarted t.utc group = true)
    (hside : w.app.winningSide t.now group askThreshold false = some winner) :
    ∀ ago < (if (w.app.autoSettle.hits.getD gid (winner, 0)).1 = winner then
        (w.app.autoSettle.hits.getD gid (winner, 0)).2 else 0) + 1,
      ∃ x ∈ w.history ++ [.judged ⟨w.ticks, t, w.app, .registered gid group⟩],
        x.PinnedAgo w.ticks ago gid winner := by
  intro ago hago
  cases ago with
  | zero =>
      refine ⟨_, List.mem_append_right _ (List.mem_singleton_self _), ?_⟩
      exact ⟨rfl, rfl, hended, hstarted, hside⟩
  | succ ago =>
      -- the rest of the row is what was on record for the same side
      have hpend : pending w.agenda gid = 1 := by simp [pending, ha, TickItem.gid]
      cases hhits : w.app.autoSettle.hits.get? gid with
      | none =>
          rw [Dict.getD_of_get?_none hhits] at hago
          simp at hago
      | some prev =>
          obtain ⟨side, n⟩ := prev
          rw [Dict.getD_of_get? hhits] at hago
          by_cases hsame : side = winner
          · subst hsame
            obtain ⟨x, hx, hrow⟩ := h.row gid side n hhits hin (by rw [hs]; simp) ago
              (by simpa using hago)
            rw [hpend] at hrow
            exact ⟨x, List.mem_append_left _ hx, hrow⟩
          · simp [hsame] at hago

/-- The count of a group whose own turn it was. -/
theorem row_judge (h : Counting w) (hacts : Acting w) {t : Instant} {item : TickItem}
    {agenda : List TickItem} (hok : EndedSettles w (.judge t)) (hs : w.settling = none)
    (ha : w.agenda = item :: agenda) {winner : Bool} {n : ℕ}
    (hhits : (w.app.judge t item).1.autoSettle.hits.get? item.gid = some (winner, n))
    (hin : item.gid ∉ w.app.autoSettle.settled)
    (hset : ∀ st ∈ (w.app.judge t item).2, st.gid ≠ item.gid) :
    ∀ ago < n, ∃ x ∈ w.history ++ [.judged ⟨w.ticks, t, w.app, item⟩],
      x.PinnedAgo w.ticks ago item.gid winner := by
  have hkey := hacts.agenda item (ha ▸ List.mem_cons_self)
  obtain ⟨gid, group, rfl, hcase⟩ := judge_hits hin hhits
  rcases hcase with ⟨hended, hold⟩ | ⟨hended, hstarted, hside, hcount⟩
  · -- a count on record: the condition says the turn settles the group
    have hset' := hok
    simp only [EndedSettles, hs, ha] at hset'
    obtain ⟨hstarted, hside⟩ := hset' hended hin (by rw [hold]; simp)
    obtain ⟨side, hside⟩ := Option.ne_none_iff_exists'.mp hside
    have hcall := judge_ended hin hended hstarted hside
    exact absurd hkey (hset _ hcall)
  · rw [hcount]
    exact h.row_of_turn hs ha hin hended hstarted hside

theorem step_judge (h : Counting w) (hacts : Acting w) {t : Instant}
    (hok : EndedSettles w (.judge t)) : Counting (w.step (.judge t)) := by
  rcases w.step_judge_cases t with hidle | ⟨item, agenda, hs, ha⟩
  · rw [hidle]
    exact h
  have hspec := judge_spec w.app t item
  have hnodup := hacts.nodup
  rw [ha, List.map_cons, List.nodup_cons] at hnodup
  rw [AutoRun.step_judge hs ha]
  constructor
  · refine h.evidence.append fun st hst hpinned => ?_
    obtain ⟨hin, hstarted, -⟩ := hspec.calls st hst
    obtain ⟨group, hitem, hended, n, hn, hhits⟩ := judge_pinned hst hpinned
    subst hitem
    obtain ⟨gid', group', heq, hcase⟩ := judge_hits hin hhits
    cases heq
    -- the count that settles came from the branch that counts
    rcases hcase with ⟨hended', -⟩ | ⟨-, -, hside, hcount⟩
    · exact absurd hended' hended
    · intro ago hago
      exact h.row_of_turn hs ha hin hended hstarted hside ago (by omega)
  · intro gid hhits
    by_cases hgid : gid = item.gid
    · subst hgid
      exact judge_hits_seen hhits
    · rw [hspec.hits_off gid hgid] at hhits
      rw [hspec.seen_off gid hgid]
      exact h.seen gid hhits
  · intro gid winner n hhits hin hset
    rw [hspec.settled] at hin
    by_cases hgid : gid = item.gid
    · subst hgid
      have hpend : pending agenda item.gid = 0 := if_neg hnodup.1
      show ∀ ago < n, ∃ x ∈ _, Seen.PinnedAgo x w.ticks (ago + pending agenda item.gid) _ winner
      rw [hpend]
      exact h.row_judge hacts hok hs ha hhits hin hset
    · rw [hspec.hits_off gid hgid] at hhits
      intro ago hago
      obtain ⟨x, hx, hrow⟩ := h.row gid winner n hhits hin (by rw [hs]; simp) ago hago
      have hpend : pending agenda gid = pending w.agenda gid := by
        simp [pending, ha, hgid]
      refine ⟨x, List.mem_append_left _ hx, ?_⟩
      show x.PinnedAgo w.ticks (ago + pending agenda gid) gid winner
      rw [hpend]
      exact hrow

theorem step_settle (h : Counting w) : Counting (w.step .settle) := by
  rcases w.step_settle_cases with hidle | ⟨st, hs⟩
  · rw [hidle]
    exact h
  rw [AutoRun.step_settle hs]
  rcases settleNext_spec w.app st with ⟨st', v, o, hr, hgid, -, hauto⟩ | ⟨hr, hauto⟩
  · refine ⟨h.evidence, by rw [hauto]; exact h.seen, ?_⟩
    rw [hauto, hr]
    intro gid winner n hhits hin hset
    refine h.row gid winner n hhits hin fun st₀ hst₀ => ?_
    rw [hs, Option.mem_some] at hst₀
    exact hst₀ ▸ hgid ▸ hset st' rfl
  · -- a settled group is forgotten, with its count; the others keep theirs
    have hhits : ∀ gid, gid ≠ st.gid →
        (w.app.settledGroup st).autoSettle.hits.get? gid =
          w.app.autoSettle.hits.get? gid := by
      intro gid hne
      simp only [settledGroup]
      split
      · rw [Dict.get?_erase, if_neg hne]
      · rfl
    refine ⟨h.evidence, ?_, ?_⟩
    · rw [hauto]
      intro gid hne
      by_cases hgid : gid = st.gid
      · refine h.seen gid fun hnone => hne ?_
        simp only [settledGroup]
        split
        · rw [Dict.get?_erase, hnone, if_pos hgid]
        · exact hnone
      · rw [hhits gid hgid] at hne
        exact h.seen gid hne
    · rw [hauto]
      intro gid winner n hrow hin _
      have hne : gid ≠ st.gid := fun he => hin (List.mem_insert_iff.mpr (.inl he))
      rw [hhits gid hne] at hrow
      refine h.row gid winner n hrow (fun hmem => hin (List.mem_insert_iff.mpr (.inr hmem)))
        fun st₀ hst₀ => ?_
      rw [hs, Option.mem_some] at hst₀
      exact hst₀ ▸ hne.symm

theorem step_world (h : Counting w) (app : AppState) : Counting (w.step (.world app)) := by
  simp only [AutoRun.step]
  split
  · exact ⟨h.evidence, h.seen, h.row⟩
  · exact h

theorem step_markSettled (h : Counting w) (gid : GroupId) :
    Counting (w.step (.markSettled gid)) := by
  simp only [AutoRun.step, AutoSettleService.markSettled]
  refine ⟨h.evidence.append trivial, ?_, ?_⟩
  · intro gid' hne
    refine h.seen gid' fun hnone => hne ?_
    rw [Dict.get?_erase, hnone]
    split <;> rfl
  · intro gid' winner n hhits hin hset ago hago
    have hne : gid' ≠ gid := fun he => hin (List.mem_insert_iff.mpr (.inl he))
    rw [Dict.get?_erase, if_neg hne] at hhits
    obtain ⟨x, hx, hrow⟩ := h.row gid' winner n hhits
      (fun hmem => hin (List.mem_insert_iff.mpr (.inr hmem))) hset ago hago
    exact ⟨x, List.mem_append_left _ hx, hrow⟩

/-- **The step lemma.** -/
theorem step (h : Counting w) (hacts : Acting w) {m : AutoMove} (hok : EndedSettles w m) :
    Counting (w.step m) := by
  cases m with
  | begin => exact h.step_begin
  | judge t => exact h.step_judge hacts hok
  | settle => exact h.step_settle
  | world app => exact h.step_world app
  | markSettled gid => exact h.step_markSettled gid

theorem start (app : AppState) : Counting (AutoRun.start app) := by
  refine ⟨fun x hx => ?_, fun gid hne => absurd rfl hne, fun gid winner n hhits => ?_⟩
  · cases hx
  · cases hhits

end Counting

/-- **Price-pinned settlement needs consecutive evidence**: in every run whose
turns settle the group whenever they find it reported ended with a count on
record, the side that a call by the price route pays was pinned at that tick
and at the ticks just before it, three in all. -/
theorem pinned_has_consecutive_evidence (app : AppState) (moves : List AutoMove)
    (h : Runs.Guarded AutoRun.step EndedSettles (AutoRun.start app) moves) :
    ConsecutiveEvidence (Runs.run AutoRun.step (AutoRun.start app) moves).history :=
  (h.inv (I := fun w => Acting w ∧ Counting w)
    (fun _ m hi hok => ⟨hi.1.step m, hi.2.step hi.1 hok⟩)
    ⟨Acting.start app, Counting.start app⟩).2.evidence

/-! ## A report taken back -/

namespace TakenBack

def group (ended : Option Bool) : EventGroup where
  id := "eg-1"
  legs := [⟨"p-yes", "polymarket_us", true⟩, ⟨"k-no", "kalshi", false⟩]
  ended := ended

/-- The group registered, with quotes taken at `now`. -/
def app (now : ℚ) (ended : Option Bool) (pYes kNo : Quote) : AppState where
  brokers := TwoVenues.brokers
  book := ((QuoteBook.mk Dict.empty (some defaultMaxAgeS)).upsert now pYes).upsert now kNo
  engine := { fees := TwoVenues.fees }
  eventGroups := Dict.ofList [("eg-1", group ended)]

/-- YES pinned. -/
def pinned (now : ℚ) (ended : Option Bool) : AppState :=
  app now ended (TwoVenues.quote "p-yes" (995 / 1000) (by norm_num) (by norm_num))
    (TwoVenues.quote "k-no" (1 / 100) (by norm_num) (by norm_num))

/-- A book that names no winner. -/
def open_ (now : ℚ) (ended : Option Bool) : AppState :=
  app now ended TwoVenues.pYes TwoVenues.kNo

/-- Two polls find YES pinned; the third finds the game reported ended and an
open book; at the fourth the report is gone and YES is pinned again. -/
def moves : List AutoMove :=
  [.world (pinned 0 none), .begin, .judge ⟨0, 0⟩, .begin, .judge ⟨10, 10⟩,
    .world (open_ 20 (some true)), .begin, .judge ⟨20, 20⟩,
    .world (pinned 30 (some false)), .begin, .judge ⟨30, 30⟩]

/-- Three polls in a row, and the settlement of both legs. -/
def movesInARow : List AutoMove :=
  [.world (pinned 0 none), .begin, .judge ⟨0, 0⟩, .begin, .judge ⟨10, 10⟩, .begin,
    .judge ⟨20, 20⟩, .settle, .settle, .settle]

end TakenBack

theorem pinned_has_consecutive_evidence_inARow :
    ConsecutiveEvidence (Runs.run AutoRun.step (AutoRun.start (TakenBack.open_ 0 none))
      TakenBack.movesInARow).history :=
  pinned_has_consecutive_evidence _ _ (by decide +kernel)

theorem not_consecutiveEvidence_takenBack :
    ¬ ConsecutiveEvidence (Runs.run AutoRun.step (AutoRun.start (TakenBack.open_ 0 none))
      TakenBack.moves).history := by
  decide +kernel

end Arbys
