import Arbys.ArbEngine
import Arbys.Lib.Windows

/-!
# The auto-trader

`handle` of `ingest/auto_trade_service.py`: which opportunities are submitted,
and which of the submissions ask for a row where they do not fill. Two
dictionaries of deadlines pace it, one set by fills and one by other outcomes,
and a deadline that is past is dropped only when its group is looked up. The
clock, the flags and the submission are injected into the service; a
`Handling` is one call with what they answer.
-/

namespace Arbys

/-- What awaiting the submission comes to. -/
inductive SubmitOutcome where
  | returned (status : String)
  | raised
  deriving DecidableEq

/-- `status == "filled"`. -/
def SubmitOutcome.filled : SubmitOutcome → Bool
  | .returned status => status = "filled"
  | .raised => false

/-- A status other than "filled". -/
def SubmitOutcome.nonfill : SubmitOutcome → Bool
  | .returned status => status ≠ "filled"
  | .raised => false

theorem SubmitOutcome.filled_of_nonfill {outcome : SubmitOutcome}
    (h : outcome.nonfill = true) : outcome.filled = false := by
  cases outcome with
  | raised => rfl
  | returned status => exact decide_eq_false (of_decide_eq_true h)

/-- One opportunity handed to `handle`, with the readings of the flags and of
the clock: where the cooldown is looked up, where the log window is, and where
the submission ends. -/
structure Handling where
  opp : ArbOpportunity
  enabled : Bool := true
  crossVenueOnly : Bool := true
  wouldBreachCap : Bool := false
  wouldStartTooLate : Bool := false
  cooldownAt : ℚ
  recordAt : ℚ
  submit : Bool → SubmitOutcome
  doneAt : ℚ

/-- The readings of the clock, in order. -/
def Handling.readings (h : Handling) : List ℚ := [h.cooldownAt, h.recordAt, h.doneAt]

/-- A submission that was made: whether it asked for a row of a non-fill, when
it began and ended, and what it came to. -/
structure AutoSubmission where
  groupId : GroupId
  record : Bool
  startedAt : ℚ
  doneAt : ℚ
  outcome : SubmitOutcome
  deriving DecidableEq

structure AutoTradeService where
  cooldownS : ℚ
  nonfillLogS : ℚ
  cooldownUntil : Dict GroupId ℚ := Dict.empty
  nonfillLoggedUntil : Dict GroupId ℚ := Dict.empty

namespace AutoTradeService

variable (s : AutoTradeService)

/-- The cooldown check of `handle`: `none` where it returns, and otherwise an
expired deadline is dropped. -/
def passCooldown (groupId : GroupId) (now : ℚ) : Option AutoTradeService :=
  match s.cooldownUntil.get? groupId with
  | none => some s
  | some until_ =>
      if now < until_ then none
      else some { s with cooldownUntil := s.cooldownUntil.erase groupId }

/-- `_should_record_nonfill`. -/
def shouldRecordNonfill (groupId : GroupId) (now : ℚ) : Bool × AutoTradeService :=
  if s.nonfillLogS ≤ 0 then (true, s)
  else
    match s.nonfillLoggedUntil.get? groupId with
    | none => (true, s)
    | some until_ =>
        if now < until_ then (false, s)
        else (true, { s with nonfillLoggedUntil := s.nonfillLoggedUntil.erase groupId })

/-- What `handle` does once the submission has ended. -/
def afterSubmit (groupId : GroupId) (record : Bool) (now : ℚ) : SubmitOutcome → AutoTradeService
  | .returned status =>
      if status = "filled" then
        let s := { s with nonfillLoggedUntil := s.nonfillLoggedUntil.erase groupId }
        if 0 < s.cooldownS then
          { s with cooldownUntil := s.cooldownUntil.set groupId (now + s.cooldownS) }
        else s
      else if record then
        { s with nonfillLoggedUntil := s.nonfillLoggedUntil.set groupId (now + s.nonfillLogS) }
      else s
  | .raised => s

/-- `handle` from the log window on. -/
def attempt (h : Handling) : AutoTradeService × AutoSubmission :=
  let groupId := h.opp.eventGroupId
  let (record, s) := s.shouldRecordNonfill groupId h.recordAt
  let outcome := h.submit record
  (s.afterSubmit groupId record h.doneAt outcome,
    ⟨groupId, record, h.recordAt, h.doneAt, outcome⟩)

/-- `handle`: the service afterwards, and the submission if one was made. -/
def handle (h : Handling) : AutoTradeService × Option AutoSubmission :=
  if ¬ h.enabled then (s, none)
  else if h.crossVenueOnly ∧ (h.opp.legs.map ArbLeg.venueId).dedup.length < 2 then (s, none)
  else
    match s.passCooldown h.opp.eventGroupId h.cooldownAt with
    | none => (s, none)
    | some s =>
        if h.wouldBreachCap then (s, none)
        else if h.wouldStartTooLate then (s, none)
        else
          let (s, submission) := s.attempt h
          (s, some submission)

/-- One opportunity of a sequence, with the submissions made so far. -/
def step (p : AutoTradeService × List AutoSubmission) (h : Handling) :
    AutoTradeService × List AutoSubmission :=
  ((p.1.handle h).1, p.2 ++ (p.1.handle h).2.toList)

/-- A sequence of opportunities, handled one at a time. -/
def handleAll (p : AutoTradeService × List AutoSubmission) (calls : List Handling) :
    AutoTradeService × List AutoSubmission :=
  Runs.run step p calls

/-- The submissions of a new service. -/
def submissions (cooldownS nonfillLogS : ℚ) (calls : List Handling) : List AutoSubmission :=
  (handleAll ({ cooldownS := cooldownS, nonfillLogS := nonfillLogS }, []) calls).2

/-! ## What one call does -/

/-- The checks of `handle`; the log window is none of them. -/
structure Passes (h : Handling) : Prop where
  enabled : h.enabled = true
  venues : h.crossVenueOnly = true → 2 ≤ (h.opp.legs.map ArbLeg.venueId).dedup.length
  cooled : ∀ until_ ∈ s.cooldownUntil.get? h.opp.eventGroupId, until_ ≤ h.cooldownAt
  cap : h.wouldBreachCap = false
  start : h.wouldStartTooLate = false

variable {s}

theorem passCooldown_eq_some {s' : AutoTradeService} {groupId : GroupId} {now : ℚ}
    (h : s.passCooldown groupId now = some s') :
    (∀ until_ ∈ s.cooldownUntil.get? groupId, until_ ≤ now) ∧
      (s' = s ∨ s' = { s with cooldownUntil := s.cooldownUntil.erase groupId }) := by
  unfold passCooldown at h
  split at h
  · rename_i hnone
    cases h
    refine ⟨fun u hu => ?_, .inl rfl⟩
    rw [hnone] at hu
    cases hu
  · rename_i until_ hsome
    split at h
    · cases h
    · rename_i hpast
      cases h
      refine ⟨fun u hu => ?_, .inr rfl⟩
      rw [hsome] at hu
      cases hu
      exact not_lt.mp hpast

theorem passCooldown_isSome {groupId : GroupId} {now : ℚ}
    (h : ∀ until_ ∈ s.cooldownUntil.get? groupId, until_ ≤ now) :
    ∃ s', s.passCooldown groupId now = some s' := by
  unfold passCooldown
  split
  · exact ⟨s, rfl⟩
  · rename_i until_ hsome
    rw [if_neg (not_lt.mpr (h until_ hsome))]
    exact ⟨_, rfl⟩

/-- Where a row is asked for, the log window is off or past; and a window that
is past may have been dropped. -/
theorem shouldRecordNonfill_cases (s : AutoTradeService) (groupId : GroupId) (now : ℚ) :
    ((s.shouldRecordNonfill groupId now).1 = true → 0 < s.nonfillLogS →
        ∀ until_ ∈ s.nonfillLoggedUntil.get? groupId, until_ ≤ now) ∧
      ((s.shouldRecordNonfill groupId now).2 = s ∨
        (∀ until_ ∈ s.nonfillLoggedUntil.get? groupId, until_ ≤ now) ∧
          (s.shouldRecordNonfill groupId now).2 =
            { s with nonfillLoggedUntil := s.nonfillLoggedUntil.erase groupId }) := by
  unfold shouldRecordNonfill
  split
  · rename_i hoff
    exact ⟨fun _ hon => absurd hon (not_lt.mpr hoff), .inl rfl⟩
  split
  · rename_i hnone
    refine ⟨fun _ _ u hu => ?_, .inl rfl⟩
    rw [hnone] at hu
    cases hu
  · rename_i until_ hsome
    have honly : ∀ u ∈ s.nonfillLoggedUntil.get? groupId, u = until_ := by
      intro u hu
      rw [hsome] at hu
      cases hu
      rfl
    split
    · exact ⟨fun hrecord => absurd hrecord Bool.false_ne_true, .inl rfl⟩
    · rename_i hpast
      have hle : ∀ u ∈ s.nonfillLoggedUntil.get? groupId, u ≤ now := by
        intro u hu
        rw [honly u hu]
        exact not_lt.mp hpast
      exact ⟨fun _ _ => hle, .inr ⟨hle, rfl⟩⟩

/-- **A call has two ends**: it is passed over, or it passes the checks and is
submitted. -/
theorem handle_cases (s : AutoTradeService) (h : Handling) :
    (¬ s.Passes h ∧ (s.handle h).2 = none ∧ ((s.handle h).1 = s ∨
      s.passCooldown h.opp.eventGroupId h.cooldownAt = some (s.handle h).1)) ∨
    (s.Passes h ∧ ∃ s', s.passCooldown h.opp.eventGroupId h.cooldownAt = some s' ∧
      s.handle h = ((s'.attempt h).1, some (s'.attempt h).2)) := by
  unfold handle
  split
  · rename_i hoff
    exact .inl ⟨fun hp => hoff hp.enabled, rfl, .inl rfl⟩
  rename_i henabled
  split
  · rename_i hone
    exact .inl ⟨fun hp => absurd (hp.venues hone.1) (not_le.mpr hone.2), rfl, .inl rfl⟩
  rename_i hvenues
  cases hpass : s.passCooldown h.opp.eventGroupId h.cooldownAt with
  | none =>
      refine .inl ⟨fun hp => ?_, rfl, .inl rfl⟩
      obtain ⟨s', hs'⟩ := passCooldown_isSome hp.cooled
      rw [hpass] at hs'
      cases hs'
  | some s' =>
      simp only
      split
      · rename_i hcap
        refine .inl ⟨fun hp => ?_, rfl, .inr rfl⟩
        rw [hp.cap] at hcap
        cases hcap
      split
      · rename_i hlate
        refine .inl ⟨fun hp => ?_, rfl, .inr rfl⟩
        rw [hp.start] at hlate
        cases hlate
      rename_i hcap hlate
      refine .inr ⟨⟨by simpa using henabled, fun hcross => ?_, (passCooldown_eq_some hpass).1,
        by simpa using hcap, by simpa using hlate⟩, s', rfl, rfl⟩
      exact not_lt.mp fun hlt => hvenues ⟨hcross, hlt⟩

/-- **Always submitted**: a call that passes the checks is, whether or not it
asks for a row. -/
theorem submitted_iff (s : AutoTradeService) (h : Handling) :
    (∃ e, (s.handle h).2 = some e ∧ e.groupId = h.opp.eventGroupId ∧
      e.outcome = h.submit e.record) ↔ s.Passes h := by
  rcases handle_cases s h with ⟨hnot, hnone, -⟩ | ⟨hpasses, s', -, hattempt⟩
  · refine iff_of_false ?_ hnot
    rintro ⟨e, he, -⟩
    rw [hnone] at he
    cases he
  · refine iff_of_true ⟨(s'.attempt h).2, by rw [hattempt], rfl, rfl⟩ hpasses

/-! ## The two windows -/

/-- The service was made with two lengths, and keeps them. -/
def SameConfig (s s' : AutoTradeService) : Prop :=
  s'.cooldownS = s.cooldownS ∧ s'.nonfillLogS = s.nonfillLogS

theorem SameConfig.refl (s : AutoTradeService) : s.SameConfig s := ⟨rfl, rfl⟩

theorem SameConfig.trans {s' s'' : AutoTradeService} (h : s.SameConfig s')
    (h' : s'.SameConfig s'') : s.SameConfig s'' :=
  ⟨h'.1.trans h.1, h'.2.trans h.2⟩

/-- A fill cools its group down. -/
def cooling (s : AutoTradeService) : Windows AutoSubmission GroupId ℚ where
  key := AutoSubmission.groupId
  ends := AutoSubmission.doneAt
  opens e := e.outcome.filled
  closes _ := false
  length := s.cooldownS

/-- A recorded non-fill keeps the next ones of its group off the log, until a
fill. -/
def noting (s : AutoTradeService) : Windows AutoSubmission GroupId ℚ where
  key := AutoSubmission.groupId
  ends := AutoSubmission.doneAt
  opens e := e.record && e.outcome.nonfill
  closes e := e.outcome.filled
  length := s.nonfillLogS

/-- The deadlines are those of the submissions made. -/
structure Tracked (s : AutoTradeService) (now : ℚ) (trace : List AutoSubmission) : Prop where
  cooling : 0 < s.cooldownS → s.cooling.Tracks s.cooldownUntil now trace
  noting : s.noting.Tracks s.nonfillLoggedUntil now trace

section Tracked

variable {now : ℚ} {trace : List AutoSubmission}

theorem Tracked.later (h : s.Tracked now trace) {now' : ℚ} (hnow : now ≤ now') :
    s.Tracked now' trace :=
  ⟨fun hon => (h.cooling hon).later hnow, h.noting.later hnow⟩

/-- The cooldown check. -/
theorem Tracked.passCooldown (h : s.Tracked now trace) {s' : AutoTradeService}
    {groupId : GroupId} (hpass : s.passCooldown groupId now = some s') :
    s'.Tracked now trace ∧ s.SameConfig s' ∧
      (0 < s.cooldownS → ∀ u ∈ s.cooling.due groupId trace, u ≤ now) := by
  obtain ⟨hpast, hstate⟩ := passCooldown_eq_some hpass
  have hdue : 0 < s.cooldownS → ∀ u ∈ s.cooling.due groupId trace, u ≤ now :=
    fun hon => (h.cooling hon).past hpast
  rcases hstate with rfl | rfl
  · exact ⟨h, .refl _, hdue⟩
  · exact ⟨⟨fun hon => (h.cooling hon).lapse hpast, h.noting⟩, ⟨rfl, rfl⟩, hdue⟩

/-- The log window check. -/
theorem Tracked.shouldRecordNonfill (h : s.Tracked now trace) (groupId : GroupId) :
    (s.shouldRecordNonfill groupId now).2.Tracked now trace ∧
      s.SameConfig (s.shouldRecordNonfill groupId now).2 ∧
      ((s.shouldRecordNonfill groupId now).1 = true → 0 < s.nonfillLogS →
        ∀ u ∈ s.noting.due groupId trace, u ≤ now) := by
  obtain ⟨hrecord, hstate⟩ := shouldRecordNonfill_cases s groupId now
  have hdue : (s.shouldRecordNonfill groupId now).1 = true → 0 < s.nonfillLogS →
      ∀ u ∈ s.noting.due groupId trace, u ≤ now :=
    fun hasked hon => h.noting.past (hrecord hasked hon)
  rcases hstate with hsame | ⟨hpast, herased⟩
  · rw [hsame]
    exact ⟨h, .refl s, hdue⟩
  · rw [herased]
    exact ⟨⟨h.cooling, h.noting.lapse hpast⟩, ⟨rfl, rfl⟩, hdue⟩

/-- What the end of a submission does to the deadlines. -/
theorem Tracked.afterSubmit (h : s.Tracked now trace) (e : AutoSubmission) :
    (s.afterSubmit e.groupId e.record e.doneAt e.outcome).Tracked now (trace ++ [e]) ∧
      s.SameConfig (s.afterSubmit e.groupId e.record e.doneAt e.outcome) := by
  cases hout : e.outcome with
  | raised =>
      -- the exception leaves before either deadline is set
      have hfill : e.outcome.filled = false := by
        rw [hout]
        rfl
      have hnote : (e.record && e.outcome.nonfill) = false := by
        rw [hout]
        exact Bool.and_false _
      exact ⟨⟨fun hon => (h.cooling hon).neither (e := e) rfl hfill,
        h.noting.neither (e := e) hfill hnote⟩, rfl, rfl⟩
  | returned status =>
      unfold AutoTradeService.afterSubmit
      simp only
      split
      · rename_i hfilled
        have hfill : e.outcome.filled = true := by
          rw [hout]
          exact decide_eq_true hfilled
        have hnoted := h.noting.closed (e := e) hfill
        split
        · exact ⟨⟨fun hon => (h.cooling hon).opened (e := e) rfl hfill, hnoted⟩, rfl, rfl⟩
        · rename_i hoff
          exact ⟨⟨fun hon => absurd hon hoff, hnoted⟩, rfl, rfl⟩
      · rename_i hnot
        have hfill : e.outcome.filled = false := by
          rw [hout]
          exact decide_eq_false hnot
        have hnonfill : e.outcome.nonfill = true := by
          rw [hout]
          exact decide_eq_true hnot
        split
        · rename_i hrecord
          have hnote : (e.record && e.outcome.nonfill) = true := by
            rw [hrecord, hnonfill, Bool.and_true]
          exact ⟨⟨fun hon => (h.cooling hon).neither (e := e) rfl hfill,
            h.noting.opened (e := e) hfill hnote⟩, rfl, rfl⟩
        · rename_i hrecord
          have hnote : (e.record && e.outcome.nonfill) = false := by
            rw [Bool.eq_false_of_not_eq_true hrecord, Bool.false_and]
          exact ⟨⟨fun hon => (h.cooling hon).neither (e := e) rfl hfill,
            h.noting.neither (e := e) hfill hnote⟩, rfl, rfl⟩

end Tracked

/-! ## Whole sequences -/

/-- Where a submission stands among those before it: it waited for its
cooldown, and asked for a row only where the log window had run out. -/
structure Waited (s : AutoTradeService) (before : List AutoSubmission) (e : AutoSubmission) :
    Prop where
  ended : e.startedAt ≤ e.doneAt
  after : ∀ x ∈ before, x.doneAt ≤ e.startedAt
  cooled : 0 < s.cooldownS → ∀ u ∈ s.cooling.due e.groupId before, u ≤ e.startedAt
  logged : 0 < s.nonfillLogS → e.record = true →
    ∀ u ∈ s.noting.due e.groupId before, u ≤ e.startedAt

/-- It is the same for any state of the service. -/
theorem Waited.congr {s' : AutoTradeService} {before : List AutoSubmission} {e : AutoSubmission}
    (h : s.Waited before e) (hconfig : s.SameConfig s') : s'.Waited before e := by
  obtain ⟨cooldownS, nonfillLogS, cooldownUntil, nonfillLoggedUntil⟩ := s
  obtain ⟨cooldownS', nonfillLogS', cooldownUntil', nonfillLoggedUntil'⟩ := s'
  obtain ⟨rfl, rfl⟩ := hconfig
  exact ⟨h.ended, h.after, h.cooled, h.logged⟩

/-- The submissions of a service that has been at work until `now`. -/
structure Paced (s : AutoTradeService) (now : ℚ) (trace : List AutoSubmission) : Prop where
  tracked : s.Tracked now trace
  ended : ∀ x ∈ trace, x.doneAt ≤ now
  waited : Windows.Each s.Waited trace

theorem Paced.new (cooldownS nonfillLogS now : ℚ) :
    Paced { cooldownS := cooldownS, nonfillLogS := nonfillLogS } now [] :=
  ⟨⟨fun _ => Windows.Tracks.nil _ now, Windows.Tracks.nil _ now⟩, List.forall_mem_nil _,
    Windows.Each.nil _⟩

/-- **One call**, at readings in order. -/
theorem Paced.step {now : ℚ} {trace : List AutoSubmission} (h : s.Paced now trace)
    {call : Handling} (hcool : now ≤ call.cooldownAt) (hrecord : call.cooldownAt ≤ call.recordAt)
    (hdone : call.recordAt ≤ call.doneAt) :
    (step (s, trace) call).1.Paced call.doneAt (step (s, trace) call).2 ∧
      s.SameConfig (step (s, trace) call).1 := by
  have hcooled := h.tracked.later hcool
  have hended : ∀ x ∈ trace, x.doneAt ≤ call.recordAt :=
    fun x hx => (h.ended x hx).trans (hcool.trans hrecord)
  unfold AutoTradeService.step
  simp only
  rcases handle_cases s call with ⟨-, hnone, hstate⟩ | ⟨-, s', hpass, hattempt⟩
  · -- passed over: at most a deadline that is past has been dropped
    have hkept : (s.handle call).1.Tracked call.cooldownAt trace ∧
        s.SameConfig (s.handle call).1 := by
      rcases hstate with hsame | hpass
      · rw [hsame]
        exact ⟨hcooled, .refl s⟩
      · obtain ⟨htracked, hconfig, -⟩ := hcooled.passCooldown hpass
        exact ⟨htracked, hconfig⟩
    obtain ⟨htracked, hconfig⟩ := hkept
    rw [hnone, Option.toList_none, List.append_nil]
    refine ⟨⟨htracked.later (hrecord.trans hdone), fun x hx => (hended x hx).trans hdone, ?_⟩,
      hconfig⟩
    exact fun before e after hsplit => (h.waited before e after hsplit).congr hconfig
  · -- submitted: the three readings carry the deadlines from one check to the next
    obtain ⟨htracked, hconfig, hpast⟩ := hcooled.passCooldown hpass
    obtain ⟨hnoted, hconfig', hlogged⟩ :=
      (htracked.later hrecord).shouldRecordNonfill call.opp.eventGroupId
    obtain ⟨hafter, hconfig''⟩ := (hnoted.later hdone).afterSubmit (s'.attempt call).2
    have hall : s.SameConfig (s'.attempt call).1 := (hconfig.trans hconfig').trans hconfig''
    have hwaited : s.Waited trace (s'.attempt call).2 := by
      have hsame : s'.noting = s.noting := by rw [noting, noting, hconfig.2]
      refine ⟨hdone, hended, fun hon u hu => (hpast hon u hu).trans hrecord, fun hon hasked => ?_⟩
      rw [← hsame]
      rw [← hconfig.2] at hon
      exact hlogged hasked hon
    rw [hattempt, Option.toList_some]
    refine ⟨⟨hafter, fun x hx => ?_, ?_⟩, hall⟩
    · rcases List.mem_append.mp hx with hx | hx
      · exact (hended x hx).trans hdone
      · rw [List.mem_singleton.mp hx]
        exact le_refl call.doneAt
    · exact fun before e after hsplit =>
        (h.waited.concat hwaited before e after hsplit).congr hall

/-- **A whole sequence**, under a clock that does not go back. -/
theorem Paced.handleAll {now : ℚ} {trace : List AutoSubmission} (h : s.Paced now trace)
    {calls : List Handling}
    (hclock : (now :: calls.flatMap Handling.readings).Pairwise (· ≤ ·)) :
    let p := AutoTradeService.handleAll (s, trace) calls
    ∃ now', p.1.Paced now' p.2 ∧ s.SameConfig p.1 := by
  induction calls generalizing s now trace with
  | nil => exact ⟨now, h, .refl s⟩
  | cons call calls ih =>
      simp only [List.flatMap_cons, Handling.readings, List.cons_append, List.nil_append,
        List.pairwise_cons] at hclock
      obtain ⟨hnow, hcool, hrecord, hdone, hrest⟩ := hclock
      obtain ⟨hpaced, hconfig⟩ := h.step (hnow _ List.mem_cons_self)
        (hcool _ List.mem_cons_self) (hrecord _ List.mem_cons_self)
      obtain ⟨now', hpaced', hconfig'⟩ := ih hpaced (List.pairwise_cons.mpr ⟨hdone, hrest⟩)
      exact ⟨now', hpaced', hconfig.trans hconfig'⟩

section Apart

variable {now : ℚ} {before between after : List AutoSubmission} {first second : AutoSubmission}

theorem Paced.waited_second
    (h : s.Paced now (before ++ first :: (between ++ second :: after))) :
    s.Waited (before ++ first :: between) second :=
  h.waited _ _ after (by rw [List.append_assoc, List.cons_append])

/-- What comes between ends no sooner than the first. -/
theorem Paced.doneAt_le (h : s.Paced now (before ++ first :: (between ++ second :: after))) :
    ∀ x ∈ between, first.doneAt ≤ x.doneAt := by
  intro x hx
  obtain ⟨front, rest, rfl⟩ := List.append_of_mem hx
  have hw := h.waited (before ++ first :: front) x (rest ++ second :: after) (by simp)
  exact (hw.after first (by simp)).trans hw.ended

/-- A group that has filled is left alone for the cooldown. -/
theorem Paced.cooled (h : s.Paced now (before ++ first :: (between ++ second :: after)))
    (hgroup : first.groupId = second.groupId) (hon : 0 < s.cooldownS)
    (hfill : first.outcome.filled = true) : first.doneAt + s.cooldownS ≤ second.startedAt := by
  obtain ⟨u, hu, hle⟩ := Windows.exists_due (w := s.cooling) before hfill rfl
    h.doneAt_le fun _ _ _ => rfl
  exact hle.trans (h.waited_second.cooled hon u (hgroup ▸ hu))

/-- Two rows of a group are asked for a window apart, or around a fill. -/
theorem Paced.logged (h : s.Paced now (before ++ first :: (between ++ second :: after)))
    (hgroup : first.groupId = second.groupId) (hfirst : first.record = true)
    (hnonfill : first.outcome.nonfill = true) (hsecond : second.record = true) :
    first.doneAt + s.nonfillLogS ≤ second.startedAt ∨
      ∃ fill ∈ between, fill.groupId = first.groupId ∧ fill.outcome.filled = true := by
  by_cases hon : 0 < s.nonfillLogS
  · -- a window nobody has closed is still due when the second asks
    by_cases hfilled : ∃ fill ∈ between, fill.groupId = first.groupId ∧
        fill.outcome.filled = true
    · exact .inr hfilled
    · left
      have hopens : (first.record && first.outcome.nonfill) = true := by
        rw [hfirst, hnonfill, Bool.and_true]
      have hclosed : ∀ x ∈ between, x.groupId = first.groupId → x.outcome.filled = false :=
        fun x hx hkey => Bool.eq_false_of_not_eq_true fun hfill => hfilled ⟨x, hx, hkey, hfill⟩
      obtain ⟨u, hu, hle⟩ := Windows.exists_due (w := s.noting) before hopens
        (SubmitOutcome.filled_of_nonfill hnonfill) h.doneAt_le hclosed
      exact hle.trans (h.waited_second.logged hon hsecond u (hgroup ▸ hu))
  · -- with the window off every row is asked for, and the order is enough
    left
    have hle := h.waited_second.after first (by simp)
    linarith [not_lt.mp hon]

end Apart

end AutoTradeService

open AutoTradeService in
/-- **The pacing of the auto-trader.** Of every sequence of opportunities, under
a clock that does not go back: a fill begins no sooner than a whole cooldown
after the one before it in its group; of two non-fills whose rows were asked
for, the second begins a whole log window after the first has returned, or the
group filled between; and what passes the checks is submitted. -/
theorem auto_trade_pacing (cooldownS nonfillLogS : ℚ) {calls : List Handling}
    (hclock : (calls.flatMap Handling.readings).Pairwise (· ≤ ·)) :
    (∀ before first between second after,
      submissions cooldownS nonfillLogS calls = before ++ first :: (between ++ second :: after) →
      first.groupId = second.groupId →
      (0 < cooldownS → first.outcome.filled = true → second.outcome.filled = true →
        first.doneAt + cooldownS ≤ second.startedAt) ∧
      (first.record = true → first.outcome.nonfill = true → second.record = true →
        second.outcome.filled = false →
        first.doneAt + nonfillLogS ≤ second.startedAt ∨
          ∃ fill ∈ between, fill.groupId = first.groupId ∧ fill.outcome.filled = true)) ∧
    (∀ (s : AutoTradeService) (call : Handling), s.Passes call ↔
      ∃ e, (s.handle call).2 = some e ∧ e.groupId = call.opp.eventGroupId ∧
        e.outcome = call.submit e.record) := by
  refine ⟨fun before first between second after hsplit hgroup => ?_,
    fun s call => (submitted_iff s call).symm⟩
  -- the service is made no later than its first reading
  have hstart : ∃ now : ℚ, (now :: calls.flatMap Handling.readings).Pairwise (· ≤ ·) := by
    cases hreadings : calls.flatMap Handling.readings with
    | nil => exact ⟨0, List.pairwise_singleton _ _⟩
    | cons now rest =>
        rw [hreadings] at hclock
        refine ⟨now, List.pairwise_cons.mpr ⟨fun x hx => ?_, hclock⟩⟩
        rcases List.mem_cons.mp hx with rfl | hx
        · exact le_refl _
        · exact (List.pairwise_cons.mp hclock).1 x hx
  obtain ⟨now, hnow⟩ := hstart
  obtain ⟨now', hpaced, hcooldown, hlog⟩ := (Paced.new cooldownS nonfillLogS now).handleAll hnow
  rw [← submissions, hsplit] at hpaced
  have hcooled := hpaced.cooled hgroup
  have hlogged := hpaced.logged hgroup
  rw [hcooldown] at hcooled
  rw [hlog] at hlogged
  exact ⟨fun hon hfirst _ => hcooled hon hfirst,
    fun hfirst hnonfill hsecond _ => hlogged hfirst hnonfill hsecond⟩

namespace Pacing

def opportunity : ArbOpportunity where
  eventGroupId := "eg-1"
  legs := [⟨"p-yes", "polymarket_us", true, 2 / 5, 10, 0⟩, ⟨"k-no", "kalshi", true, 1 / 2, 10, 0⟩]
  totalStake := 9
  guaranteedProfit := 1
  guaranteedProfitBps := 10000 / 9

/-- The opportunity, handled at an instant. -/
def call (at_ : ℚ) (outcome : SubmitOutcome) : Handling where
  opp := opportunity
  cooldownAt := at_
  recordAt := at_
  submit _ := outcome
  doneAt := at_

def fill (at_ : ℚ) : AutoSubmission := ⟨"eg-1", true, at_, at_, .returned "filled"⟩

end Pacing

open AutoTradeService Pacing in
/-- A call in between, thirty seconds after the first, is passed over. -/
theorem auto_trade_pacing_fills :
    (fill 1000).doneAt + 60 ≤ (fill 1060).startedAt := by
  have hclock : ([call 1000 (.returned "filled"), call 1030 (.returned "filled"),
      call 1060 (.returned "filled")].flatMap Handling.readings).Pairwise (· ≤ ·) := by
    decide +kernel
  exact ((auto_trade_pacing 60 60 hclock).1 [] (fill 1000) [] (fill 1060) []
    (by decide +kernel) rfl).1 (by decide +kernel) (by decide +kernel) (by decide +kernel)

open AutoTradeService Pacing in
/-- A submission that raises starts no window: the miss a second later asks for
its row as well. -/
theorem raised_submission_starts_no_window :
    ([call 1000 .raised, call 1001 (.returned "missed")].flatMap
        Handling.readings).Pairwise (· ≤ ·) ∧
      ∃ first second,
        submissions 60 60 [call 1000 .raised, call 1001 (.returned "missed")] = [first, second] ∧
        first.groupId = second.groupId ∧ first.record = true ∧ second.record = true ∧
        first.outcome.filled = false ∧ second.outcome.filled = false ∧
        second.doneAt < first.startedAt + 60 := by
  refine ⟨by decide +kernel, ⟨"eg-1", true, 1000, 1000, .raised⟩,
    ⟨"eg-1", true, 1001, 1001, .returned "missed"⟩, by decide +kernel, rfl, rfl, rfl, rfl,
    by decide +kernel, by decide +kernel⟩

end Arbys
