import Arbys.Types

/-!
# The top-of-book cache

`shared/quotebook.py`. Every entry carries the stamp it is aged from: the
arrival time on a monotonic clock, moved back by `sourceAgeS` where the quote
reports one. Anything older than `maxAgeS` is withheld by `get` and
`snapshot`, and an update materially older than the stored entry is dropped.
A clock reading is an argument, `now`, of the operation that takes it.
-/

namespace Arbys

/-- `DEFAULT_MAX_AGE_S`. -/
def defaultMaxAgeS : ℚ := 600

/-- `REGRESSION_TOLERANCE_S`. -/
def regressionToleranceS : ℚ := 5

structure QuoteBook where
  quotes : Dict OutcomeId (Quote × ℚ) := Dict.empty
  maxAgeS : Option ℚ

namespace QuoteBook

/-- The stamp an arriving quote is aged from. -/
def stamp (now : ℚ) (quote : Quote) : ℚ :=
  match quote.sourceAgeS with
  | some age => if 0 < age then now - age else now
  | none => now

def upsert (b : QuoteBook) (now : ℚ) (quote : Quote) : QuoteBook :=
  let at_ := stamp now quote
  match b.quotes.get? quote.outcomeId with
  | some existing =>
      -- never replace a newer book with a materially older one
      if at_ < existing.2 - regressionToleranceS then b
      else { b with quotes := b.quotes.set quote.outcomeId (quote, at_) }
  | none => { b with quotes := b.quotes.set quote.outcomeId (quote, at_) }

def isStale (b : QuoteBook) (at_ now : ℚ) : Bool :=
  match b.maxAgeS with
  | none => false
  | some maxAge => decide (maxAge < now - at_)

/-- Latest quote, unless there is none or it has gone stale. -/
def get (b : QuoteBook) (now : ℚ) (outcomeId : OutcomeId) : Option Quote :=
  match b.quotes.get? outcomeId with
  | none => none
  | some (quote, at_) => if b.isStale at_ now then none else some quote

/-- Latest quote and its age, even when stale. -/
def getWithAge (b : QuoteBook) (now : ℚ) (outcomeId : OutcomeId) : Option (Quote × ℚ) :=
  (b.quotes.get? outcomeId).map fun entry => (entry.1, now - entry.2)

/-- Fresh quotes only. -/
def snapshot (b : QuoteBook) (now : ℚ) : Dict OutcomeId Quote :=
  b.quotes.filterMapVal fun _ entry => if b.isStale entry.2 now then none else some entry.1

/-- Drop stale entries outright, and say how many. -/
def purgeStale (b : QuoteBook) (now : ℚ) : QuoteBook × ℕ :=
  let dead := (b.quotes.entries.filter fun e => b.isStale e.2.2 now).map Prod.fst
  ({ b with quotes := b.quotes.eraseAll dead }, dead.length)

/-- The stored ask of an outcome, stale or not. -/
def askOf (b : QuoteBook) (outcomeId : OutcomeId) : ℚ :=
  ((b.quotes.get? outcomeId).map fun entry => entry.1.ask).getD 0

/-- The stamp an outcome's stored quote is aged from. -/
def stampOf (b : QuoteBook) (outcomeId : OutcomeId) : ℚ :=
  ((b.quotes.get? outcomeId).map fun entry => entry.2).getD 0

@[simp] theorem upsert_maxAgeS (b : QuoteBook) (now : ℚ) (q : Quote) :
    (b.upsert now q).maxAgeS = b.maxAgeS := by
  simp only [upsert]
  split
  · split <;> rfl
  · rfl

/-- An update touches the entry of its own outcome only. -/
theorem upsert_get?_ne (b : QuoteBook) (now : ℚ) (q : Quote) {o : OutcomeId}
    (h : o ≠ q.outcomeId) : (b.upsert now q).quotes.get? o = b.quotes.get? o := by
  simp only [upsert]
  split
  · split
    · rfl
    · exact Dict.get?_set_ne _ h _
  · exact Dict.get?_set_ne _ h _

theorem get_eq_some_iff {b : QuoteBook} {now : ℚ} {o : OutcomeId} {q : Quote} :
    b.get now o = some q ↔
      ∃ at_, b.quotes.get? o = some (q, at_) ∧ b.isStale at_ now = false := by
  unfold get
  split
  · rename_i h
    simp [h]
  · rename_i quote at_ h
    cases hs : b.isStale at_ now <;> simp [h, hs]

/-- A snapshot holds what `get` would answer. -/
theorem get?_snapshot (b : QuoteBook) (now : ℚ) (o : OutcomeId) :
    (b.snapshot now).get? o = b.get now o := by
  rw [snapshot, Dict.get?_filterMapVal, get]
  cases b.quotes.get? o <;> rfl

@[simp] theorem purgeStale_maxAgeS (b : QuoteBook) (now : ℚ) :
    (b.purgeStale now).1.maxAgeS = b.maxAgeS := rfl

/-- A purge takes the stale entries and leaves the others. -/
theorem purgeStale_get? (b : QuoteBook) (now : ℚ) (o : OutcomeId) :
    (b.purgeStale now).1.quotes.get? o =
      (b.quotes.get? o).filter fun entry => !b.isStale entry.2 now := by
  simp only [purgeStale, Dict.get?_eraseAll]
  split
  · rename_i hdead
    obtain ⟨⟨o', entry⟩, hmem, rfl⟩ := List.mem_map.mp hdead
    obtain ⟨hentry, hstale⟩ := List.mem_filter.mp hmem
    rw [Dict.mem_entries_iff.mp hentry, Option.filter_some, if_neg]
    rw [hstale]
    exact Bool.false_ne_true
  · rename_i halive
    cases hget : b.quotes.get? o with
    | none => rfl
    | some entry =>
        have hfresh : b.isStale entry.2 now = false := by
          by_contra hstale
          apply halive
          refine List.mem_map.mpr ⟨(o, entry), List.mem_filter.mpr ⟨?_, ?_⟩, rfl⟩
          · exact Dict.mem_entries_iff.mpr hget
          · simpa using hstale
        rw [Option.filter_some, if_pos]
        rw [hfresh]
        rfl

/-- With no age limit nothing expires, whatever the clock reads. -/
theorem get_of_maxAge_none {b : QuoteBook} (h : b.maxAgeS = none) (now now' : ℚ)
    (o : OutcomeId) : b.get now o = b.get now' o := by
  simp only [get, isStale, h]

end QuoteBook

end Arbys
