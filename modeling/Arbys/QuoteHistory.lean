import Arbys.Lib.Runs
import Arbys.QuoteBook

/-!
# Runs of the quote book

What holds of `shared/quotebook.py` over a whole run of calls.

The regression guard compares an arriving stamp with the stored one, so one
update moves the stored stamp back by `regressionToleranceS` at the most, and
several small steps back add up (`stored_run_ge`).

`purge_stale` deletes the stamp the guard compares with, after which a quote
the guard would have dropped is taken. Such a quote is older than an entry
that was withheld already, so no reader sees it: the two books agree on
everything a reader can be given (`Agree`), at every reading of a monotone
clock.
-/

namespace Arbys

namespace QuoteBook

/-! ## The calls -/

inductive Call where
  | upsert (quote : Quote)
  | get (outcomeId : OutcomeId)
  | snapshot
  | purgeStale
  deriving DecidableEq

/-- What a reader is handed. -/
inductive Reading where
  | quote (found : Option Quote)
  | quotes (fresh : Dict OutcomeId Quote)
  deriving DecidableEq

/-- Equality of what two calls return: dictionaries are equal when they hold
the same values, in whatever order they were first written. -/
def Reading.Same : Reading → Reading → Prop
  | .quote found, .quote found' => found = found'
  | .quotes fresh, .quotes fresh' => ∀ o, fresh.get? o = fresh'.get? o
  | _, _ => False

/-- One call at a clock reading. -/
def step (b : QuoteBook) (call : ℚ × Call) : QuoteBook :=
  match call.2 with
  | .upsert quote => b.upsert call.1 quote
  | .purgeStale => (b.purgeStale call.1).1
  | _ => b

/-- What a call hands its reader; a write and a purge have none. -/
def reading (b : QuoteBook) (call : ℚ × Call) : Option Reading :=
  match call.2 with
  | .get o => some (.quote (b.get call.1 o))
  | .snapshot => some (.quotes (b.snapshot call.1))
  | _ => none

/-- What the readers of a run are handed, in order. -/
def readings : QuoteBook → List (ℚ × Call) → List Reading
  | _, [] => []
  | b, call :: calls => (b.reading call).toList ++ readings (step b call) calls

/-- The calls of a run that are not purges. -/
def withoutPurges (calls : List (ℚ × Call)) : List (ℚ × Call) :=
  calls.filter fun call => call.2 ≠ .purgeStale

/-- The clock never reads less than it did. -/
def Monotone (calls : List (ℚ × Call)) : Prop := calls.Pairwise fun c c' => c.1 ≤ c'.1

/-- The stamp stored for an outcome. -/
def stored (b : QuoteBook) (o : OutcomeId) : Option ℚ := (b.quotes.get? o).map Prod.snd

/-! ## Stepping back -/

/-- The book after a run of upserts. -/
def upserts (b : QuoteBook) (calls : List (ℚ × Quote)) : QuoteBook :=
  Runs.run (fun b call => b.upsert call.1 call.2) b calls

/-- The upsert stores an older stamp for the outcome than the one it
replaces. -/
def StepsBack (o : OutcomeId) (b : QuoteBook) (call : ℚ × Quote) : Prop :=
  ∃ s ∈ b.stored o, ∃ s' ∈ (b.upsert call.1 call.2).stored o, s' < s

instance (o : OutcomeId) (b : QuoteBook) (call : ℚ × Quote) : Decidable (StepsBack o b call) :=
  inferInstanceAs (Decidable (∃ s ∈ b.stored o, ∃ s' ∈ (b.upsert call.1 call.2).stored o, s' < s))

/-- How many upserts of a run step back. -/
def stepsBack (o : OutcomeId) (b : QuoteBook) (calls : List (ℚ × Quote)) : ℕ :=
  Runs.tally (fun b call => b.upsert call.1 call.2)
    (fun b call => if StepsBack o b call then 1 else 0) b calls

/-- **One upsert**: a stored stamp stays, or is replaced by one that is not
older than it by more than the tolerance. -/
theorem stored_upsert_ge {b : QuoteBook} {o : OutcomeId} {s : ℚ} (h : b.stored o = some s)
    (now : ℚ) (q : Quote) :
    ∃ s', (b.upsert now q).stored o = some s' ∧ s - regressionToleranceS ≤ s' := by
  have htol : 0 ≤ regressionToleranceS := by norm_num [regressionToleranceS]
  by_cases ho : o = q.outcomeId
  · subst ho
    obtain ⟨⟨old, at_⟩, hget, hs⟩ := Option.map_eq_some_iff.mp h
    simp only at hs
    subst hs
    simp only [upsert, hget]
    split
    · exact ⟨at_, h, by linarith⟩
    · rename_i hnot
      refine ⟨stamp now q, ?_, not_lt.mp hnot⟩
      show (Dict.get? _ _).map Prod.snd = _
      rw [Dict.get?_set_self]
      rfl
  · refine ⟨s, ?_, by linarith⟩
    rw [stored, upsert_get?_ne b now q ho]
    exact h

/-- **A run of upserts**: a stamp that was stored once is at most the
tolerance ahead for every upsert since that stepped back. -/
theorem stored_run_ge {b : QuoteBook} {o : OutcomeId} {s : ℚ} (h : b.stored o = some s)
    (calls : List (ℚ × Quote)) :
    ∃ cur, (b.upserts calls).stored o = some cur ∧
      s - regressionToleranceS * stepsBack o b calls ≤ cur := by
  induction calls generalizing b s with
  | nil => exact ⟨s, h, by simp [stepsBack, Runs.tally]⟩
  | cons call calls ih =>
      obtain ⟨s', hs', hge⟩ := stored_upsert_ge h call.1 call.2
      obtain ⟨cur, hcur, hrest⟩ := ih hs'
      refine ⟨cur, hcur, le_trans ?_ hrest⟩
      have hcount : stepsBack o b (call :: calls) =
          (if StepsBack o b call then 1 else 0) + stepsBack o (b.upsert call.1 call.2) calls := rfl
      rw [hcount]
      by_cases hback : StepsBack o b call
      · rw [if_pos hback]
        push_cast
        linarith
      · rw [if_neg hback]
        -- the stamp did not move back at all
        have hle : s ≤ s' := by
          by_contra hlt
          exact hback ⟨s, h, s', hs', not_le.mp hlt⟩
        push_cast
        linarith

/-- A new book. -/
def new (maxAgeS : Option ℚ) : QuoteBook := { maxAgeS := maxAgeS }

/-- **The stored stamp over a whole run**: it is older than any stamp that was
stored before it by the tolerance, at the most, for every upsert since that
stepped back. -/
theorem stored_ge_of_stored (maxAgeS : Option ℚ) (before after : List (ℚ × Quote))
    (o : OutcomeId) (s : ℚ) (h : ((new maxAgeS).upserts before).stored o = some s) :
    ∃ cur, ((new maxAgeS).upserts (before ++ after)).stored o = some cur ∧
      s - regressionToleranceS * stepsBack o ((new maxAgeS).upserts before) after ≤ cur := by
  rw [upserts, Runs.run_append]
  exact stored_run_ge h after

/-- A quote of one outcome, `age` seconds old when it arrives. -/
def agedQuote (age : ℚ) : Quote where
  outcomeId := "m:LONG"
  bid := 2 / 5
  ask := 41 / 100
  sourceAgeS := some age
  bid_nonneg := by norm_num
  ask_le_one := by norm_num
  bid_le_ask := by norm_num

/-- Three upserts at one instant, each five seconds older than the last. -/
def driftingRun : List (ℚ × Quote) :=
  [(1000, agedQuote 0), (1000, agedQuote 5), (1000, agedQuote 10)]

theorem stored_ge_of_stored_drifting :
    ∃ cur, ((new (some 600)).upserts driftingRun).stored "m:LONG" = some cur ∧
      1000 - regressionToleranceS *
        stepsBack "m:LONG" ((new (some 600)).upserts [(1000, agedQuote 0)])
          [(1000, agedQuote 5), (1000, agedQuote 10)] ≤ cur :=
  stored_ge_of_stored (some 600) [(1000, agedQuote 0)] [(1000, agedQuote 5), (1000, agedQuote 10)]
    "m:LONG" 1000 (by decide +kernel)

/-- Small steps back add up: the stored stamp can be further behind one that
was stored before than the tolerance. -/
theorem not_stored_ge_of_stored :
    ¬ ∀ (maxAgeS : Option ℚ) (before after : List (ℚ × Quote)),
      ((before ++ after).Pairwise fun c c' => c.1 ≤ c'.1) → ∀ (o : OutcomeId),
        ∀ s ∈ ((new maxAgeS).upserts before).stored o,
        ∀ cur ∈ ((new maxAgeS).upserts (before ++ after)).stored o,
          s - regressionToleranceS ≤ cur := by
  intro hall
  have hbound := hall (some 600) [(1000, agedQuote 0)]
    [(1000, agedQuote 5), (1000, agedQuote 10)] (by decide +kernel) "m:LONG" 1000
    (by decide +kernel) 990 (by decide +kernel)
  revert hbound
  decide +kernel

/-! ## Purging -/

/-- What one book holds of an outcome and what a book that was purged on the
way holds of it, at a clock reading: the same entry, or an old one no reader
is given, against one that is older still or gone. -/
def Agree (maxAgeS : Option ℚ) (now : ℚ) (purged plain : Option (Quote × ℚ)) : Prop :=
  purged = plain ∨ ∃ maxAge ∈ maxAgeS, ∃ old ∈ plain, maxAge < now - old.2 ∧
    ∀ entry ∈ purged, entry.2 < old.2 - regressionToleranceS

/-- Time passes: what is withheld stays withheld. -/
theorem Agree.later {maxAgeS : Option ℚ} {now now' : ℚ} {purged plain : Option (Quote × ℚ)}
    (h : Agree maxAgeS now purged plain) (hnow : now ≤ now') :
    Agree maxAgeS now' purged plain := by
  rcases h with heq | ⟨maxAge, hmax, old, hold, hstale, hpurged⟩
  · exact .inl heq
  · exact .inr ⟨maxAge, hmax, old, hold, by linarith, hpurged⟩

/-- Two books that agree on every outcome. -/
structure Alike (now : ℚ) (purged plain : QuoteBook) : Prop where
  maxAgeS : purged.maxAgeS = plain.maxAgeS
  entries : ∀ o, Agree plain.maxAgeS now (purged.quotes.get? o) (plain.quotes.get? o)

/-- Two books that agree answer every reader alike. -/
theorem Alike.get {now : ℚ} {purged plain : QuoteBook} (h : Alike now purged plain)
    (o : OutcomeId) : purged.get now o = plain.get now o := by
  have hagree := h.entries o
  unfold QuoteBook.get isStale
  rw [h.maxAgeS]
  rcases hagree with heq | ⟨maxAge, hmax, old, hold, hstale, hpurged⟩
  · rw [heq]
  · rw [Option.mem_def] at hmax hold
    rw [hmax, hold]
    simp only [decide_eq_true hstale, if_true]
    -- the purged book's entry is older than one that is withheld
    cases hentry : purged.quotes.get? o with
    | none => rfl
    | some entry =>
        have holder := hpurged entry hentry
        have htol : 0 ≤ regressionToleranceS := by norm_num [regressionToleranceS]
        have hentryStale : maxAge < now - entry.2 := by linarith
        simp only [decide_eq_true hentryStale, if_true]

/-- An upsert, entry by entry. -/
theorem get?_upsert (b : QuoteBook) (now : ℚ) (q : Quote) (o : OutcomeId) :
    (b.upsert now q).quotes.get? o =
      if o = q.outcomeId ∧
          ∀ existing ∈ b.quotes.get? o, existing.2 - regressionToleranceS ≤ stamp now q then
        some (q, stamp now q)
      else b.quotes.get? o := by
  by_cases ho : o = q.outcomeId
  · subst ho
    simp only [upsert, true_and]
    cases hget : b.quotes.get? q.outcomeId with
    | none => simp
    | some existing =>
        simp only [Option.mem_some_iff, forall_eq']
        by_cases hlt : stamp now q < existing.2 - regressionToleranceS
        · rw [if_pos hlt, if_neg (not_le.mpr hlt)]
          exact hget
        · rw [if_neg hlt, if_pos (not_lt.mp hlt)]
          exact Dict.get?_set_self ..
  · rw [upsert_get?_ne b now q ho, if_neg fun h => ho h.1]

/-- The same quote arrives at both books. -/
theorem Alike.upsert {now : ℚ} {purged plain : QuoteBook} (h : Alike now purged plain)
    (q : Quote) : Alike now (purged.upsert now q) (plain.upsert now q) := by
  constructor
  · rw [upsert_maxAgeS, upsert_maxAgeS]
    exact h.maxAgeS
  · intro o
    rw [upsert_maxAgeS, get?_upsert, get?_upsert]
    rcases h.entries o with heq | ⟨maxAge, hmax, old, hold, hstale, hpurged⟩
    · rw [heq]
      exact .inl rfl
    by_cases ho : o = q.outcomeId
    swap
    · rw [if_neg fun h => ho h.1, if_neg fun h => ho h.1]
      exact .inr ⟨maxAge, hmax, old, hold, hstale, hpurged⟩
    by_cases hlate : old.2 - regressionToleranceS ≤ stamp now q
    · -- both books take it
      have hplain : ∀ existing ∈ plain.quotes.get? o,
          existing.2 - regressionToleranceS ≤ stamp now q := by
        intro existing he
        rw [Option.mem_unique he hold]
        exact hlate
      have hpurged : ∀ existing ∈ purged.quotes.get? o,
          existing.2 - regressionToleranceS ≤ stamp now q := by
        intro existing he
        have hlt := hpurged existing he
        have htol : 0 ≤ regressionToleranceS := by norm_num [regressionToleranceS]
        linarith
      rw [if_pos ⟨ho, hpurged⟩, if_pos ⟨ho, hplain⟩]
      exact .inl rfl
    · -- the guard drops it; whether the purged book takes it or not, its entry is older
      have hrefused : ¬ (o = q.outcomeId ∧ ∀ existing ∈ plain.quotes.get? o,
          existing.2 - regressionToleranceS ≤ stamp now q) := fun h => hlate (h.2 old hold)
      rw [if_neg hrefused]
      refine .inr ⟨maxAge, hmax, old, hold, hstale, fun entry hentry => ?_⟩
      split at hentry
      · cases hentry
        exact not_le.mp hlate
      · exact hpurged entry hentry

/-- A purge of one of the books. -/
theorem Alike.purgeStale {now : ℚ} {purged plain : QuoteBook} (h : Alike now purged plain) :
    Alike now (purged.purgeStale now).1 plain := by
  constructor
  · rw [purgeStale_maxAgeS]
    exact h.maxAgeS
  · intro o
    rw [purgeStale_get?]
    rcases h.entries o with heq | ⟨maxAge, hmax, old, hold, hstale, hpurged⟩
    · rw [heq]
      cases hget : plain.quotes.get? o with
      | none => exact .inl rfl
      | some entry =>
          cases hmax : plain.maxAgeS with
          | none => simp [Agree, isStale, h.maxAgeS, hmax]
          | some maxAge =>
              by_cases hstale : maxAge < now - entry.2
              · refine .inr ⟨maxAge, rfl, entry, rfl, hstale, ?_⟩
                intro purgedEntry hleft
                obtain ⟨hentry, hfresh⟩ := Option.mem_filter_iff.mp hleft
                cases hentry
                simp [isStale, h.maxAgeS, hmax, hstale] at hfresh
              · refine .inl ?_
                simp [isStale, h.maxAgeS, hmax, hstale]
    · refine .inr ⟨maxAge, hmax, old, hold, hstale, fun entry hentry => ?_⟩
      exact hpurged entry (Option.mem_filter_iff.mp hentry).1

/-- **The purges of a run are invisible**, from any two books that agree. -/
theorem Alike.readings {now : ℚ} {purged plain : QuoteBook} (h : Alike now purged plain)
    {calls : List (ℚ × Call)} (hfrom : ∀ call ∈ calls, now ≤ call.1) (hclock : Monotone calls) :
    List.Forall₂ Reading.Same (readings purged calls) (readings plain (withoutPurges calls)) := by
  induction calls generalizing now purged plain with
  | nil => exact .nil
  | cons call calls ih =>
      obtain ⟨at_, call⟩ := call
      obtain ⟨hlater, hrest⟩ := List.pairwise_cons.mp hclock
      have hat : now ≤ at_ := hfrom (at_, call) List.mem_cons_self
      have halike : Alike at_ purged plain := ⟨h.maxAgeS, fun o => (h.entries o).later hat⟩
      cases call with
      | upsert q => exact ih (halike.upsert q) hlater hrest
      | purgeStale => exact ih halike.purgeStale hlater hrest
      | get o => exact .cons (halike.get o) (ih halike hlater hrest)
      | snapshot =>
          refine .cons (fun o => ?_) (ih halike hlater hrest)
          rw [get?_snapshot, get?_snapshot]
          exact halike.get o

/-- **Purging is invisible to readers**: the readers of a run are handed what
they would be handed had none of its purges been made. -/
theorem readings_withoutPurges (b : QuoteBook) (calls : List (ℚ × Call))
    (hclock : Monotone calls) :
    List.Forall₂ Reading.Same (readings b calls) (readings b (withoutPurges calls)) := by
  cases calls with
  | nil => exact .nil
  | cons call calls =>
      have halike : Alike call.1 b b := ⟨rfl, fun _ => .inl rfl⟩
      refine halike.readings (fun call' hcall' => ?_) hclock
      rcases List.mem_cons.mp hcall' with rfl | hcall'
      · exact le_refl call'.1
      · exact (List.pairwise_cons.mp hclock).1 call' hcall'

/-- A quote expires and is purged; a replay of an older book, which the guard
would have dropped, is then taken and read by nobody. -/
def replayAfterPurge : List (ℚ × Call) :=
  [(1000, .upsert (agedQuote 0)), (1700, .get "m:LONG"), (1700, .purgeStale),
    (1701, .upsert (agedQuote 2000)), (1701, .get "m:LONG"), (1702, .snapshot),
    (1703, .upsert (agedQuote 1)), (1703, .get "m:LONG")]

theorem readings_withoutPurges_replay :
    List.Forall₂ Reading.Same (readings (new (some 600)) replayAfterPurge)
      (readings (new (some 600)) (withoutPurges replayAfterPurge)) :=
  readings_withoutPurges (new (some 600)) replayAfterPurge (by
    unfold Monotone
    decide +kernel)

end QuoteBook

end Arbys
