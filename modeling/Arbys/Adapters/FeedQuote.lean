import Arbys.Lib.PyJson
import Arbys.Types

/-!
# Quotes as the feeds build them

A feed hands `Quote` whatever numbers its frame spelled. `__post_init__`
compares bid and ask with the bounds and with each other, so an infinity is out
of range and a NaN makes the comparison raise; the sizes are not looked at.
`FeedQuote` carries the check it passed, so its prices are rationals in
`[0, 1]` (`FeedQuote.prices`).
-/

namespace Arbys

open DecimalArith (Number Signal)
open PyJson

/-- `Decimal("0") <= x <= Decimal("1")`. -/
def inUnit (x : Number) : Except Raised Bool := do
  if ← raising ((Number.num 0).le x) then raising (x.le (.num 1)) else pure false

/-- `Quote.__post_init__`. -/
def postInit (bid ask : Number) : Except Raised Unit := do
  if ← inUnit bid then
    if ← inUnit ask then
      if ← raising (ask.lt bid) then .error .valueError else .ok ()
    else .error .valueError
  else .error .valueError

/-- A `Quote` a feed has built; a size is `none` when the venue did not say. -/
structure FeedQuote where
  outcomeId : OutcomeId
  bid : Number
  ask : Number
  bidSize : Option Number
  askSize : Option Number
  sourceAgeS : Option ℚ
  valid : postInit bid ask = .ok ()
  deriving DecidableEq

namespace FeedQuote

/-- `Quote(...)`. -/
def new (outcomeId : OutcomeId) (bid ask : Number) (bidSize askSize : Option Number)
    (sourceAgeS : Option ℚ) : Except Raised FeedQuote :=
  match h : postInit bid ask with
  | .ok () => .ok ⟨outcomeId, bid, ask, bidSize, askSize, sourceAgeS, h⟩
  | .error e => .error e

end FeedQuote

/-! ## What the check lets through -/

theorem inUnit_num (q : ℚ) : inUnit (.num q) = .ok (decide (0 ≤ q ∧ q ≤ 1)) := by
  unfold inUnit
  by_cases h : 0 ≤ q
  · simp [h, bind, Except.bind]
  · simp [h, bind, Except.bind, pure, Except.pure]

theorem inUnit_inf (neg : Bool) : inUnit (.inf neg) = .ok false := by
  cases neg <;> rfl

theorem inUnit_of_isNan {x : Number} (h : x.isNan = true) :
    inUnit x = .error (.decimal .invalidOperation) := by
  cases x with
  | num q => cases h
  | inf neg => cases h
  | nan => rfl
  | snan => rfl

/-- A range check fails on a NaN only. -/
theorem inUnit_of_not_isNan {x : Number} (h : x.isNan = false) : ∃ ok, inUnit x = .ok ok := by
  cases x with
  | num q => exact ⟨_, inUnit_num q⟩
  | inf neg => exact ⟨_, inUnit_inf neg⟩
  | nan => cases h
  | snan => cases h

/-- What is in range is a rational. -/
theorem inUnit_eq_true_iff {x : Number} :
    inUnit x = .ok true ↔ ∃ q : ℚ, x = .num q ∧ 0 ≤ q ∧ q ≤ 1 := by
  cases x with
  | num q => simp [inUnit_num]
  | inf neg => simp [inUnit_inf]
  | nan => simp [inUnit_of_isNan (x := .nan) rfl]
  | snan => simp [inUnit_of_isNan (x := .snan) rfl]

section Check

variable {bid ask : Number}

/-- **The three ends of the check**: a NaN among the prices it gets to raises
`InvalidOperation`; two rationals in order in `[0, 1]` pass; anything else is a
`ValueError`. -/
theorem postInit_cases (bid ask : Number) :
    ((bid.isNan = true ∨ inUnit bid = .ok true ∧ ask.isNan = true) ∧
      postInit bid ask = .error (.decimal .invalidOperation)) ∨
    (¬ (bid.isNan = true ∨ inUnit bid = .ok true ∧ ask.isNan = true) ∧
      (postInit bid ask = .ok () ∨ postInit bid ask = .error .valueError)) := by
  -- a NaN raises at its first comparison, so which price is looked at first matters
  cases hb : bid.isNan with
  | true =>
      refine .inl ⟨.inl rfl, ?_⟩
      rw [postInit, inUnit_of_isNan hb]
      rfl
  | false =>
      obtain ⟨ok, hok⟩ := inUnit_of_not_isNan hb
      cases ok with
      | false =>
          refine .inr ⟨by simp [hok], .inr ?_⟩
          rw [postInit, hok]
          rfl
      | true =>
          cases ha : ask.isNan with
          | true =>
              refine .inl ⟨.inr ⟨hok, rfl⟩, ?_⟩
              rw [postInit, hok, inUnit_of_isNan ha]
              rfl
          | false =>
              refine .inr ⟨by simp, ?_⟩
              obtain ⟨ok', hok'⟩ := inUnit_of_not_isNan ha
              rw [postInit, hok, hok']
              cases ok' with
              | false => exact .inr rfl
              | true =>
                  -- neither is a NaN here, so the last comparison cannot raise
                  cases hlt : ask.lt bid with
                  | error s =>
                      have hnan := (Number.lt_eq_error_iff.mp hlt).1
                      rw [ha, hb] at hnan
                      simp at hnan
                  | ok below => cases below <;> simp [bind, Except.bind]

theorem postInit_eq_ok_iff :
    postInit bid ask = .ok () ↔
      ∃ b a : ℚ, bid = .num b ∧ ask = .num a ∧ 0 ≤ b ∧ b ≤ a ∧ a ≤ 1 := by
  constructor
  · intro h
    have hb : inUnit bid = .ok true := by
      cases hb : inUnit bid with
      | error e => rw [postInit, hb] at h; cases h
      | ok ok =>
          cases ok with
          | true => rfl
          | false => rw [postInit, hb] at h; cases h
    have ha : inUnit ask = .ok true := by
      cases ha : inUnit ask with
      | error e => rw [postInit, hb, ha] at h; cases h
      | ok ok =>
          cases ok with
          | true => rfl
          | false => rw [postInit, hb, ha] at h; cases h
    rw [postInit, hb, ha] at h
    obtain ⟨b, rfl, hb0, -⟩ := inUnit_eq_true_iff.mp hb
    obtain ⟨a, rfl, -, ha1⟩ := inUnit_eq_true_iff.mp ha
    refine ⟨b, a, rfl, rfl, hb0, ?_, ha1⟩
    by_contra hlt
    have hlt : a < b := not_le.mp hlt
    simp [bind, Except.bind, hlt] at h
  · rintro ⟨b, a, rfl, rfl, hb0, hba, ha1⟩
    have hb1 : b ≤ 1 := le_trans hba ha1
    have ha0 : 0 ≤ a := le_trans hb0 hba
    rw [postInit, inUnit_num, inUnit_num]
    simp [bind, Except.bind, hb0, hb1, ha0, ha1, not_lt.mpr hba]

end Check

namespace FeedQuote

variable {o : OutcomeId} {bid ask : Number} {bidSize askSize : Option Number} {age : Option ℚ}

theorem new_of_ok (h : postInit bid ask = .ok ()) :
    new o bid ask bidSize askSize age = .ok ⟨o, bid, ask, bidSize, askSize, age, h⟩ := by
  unfold new
  split
  · rfl
  · rename_i e he
    rw [h] at he
    cases he

theorem new_of_error {e : Raised} (h : postInit bid ask = .error e) :
    new o bid ask bidSize askSize age = .error e := by
  unfold new
  split
  · rename_i he
    rw [h] at he
    cases he
  · rename_i e' he
    rw [h] at he
    cases he
    rfl

/-- The prices of a quote are rationals in order in `[0, 1]`. -/
theorem prices (q : FeedQuote) :
    ∃ b a : ℚ, q.bid = .num b ∧ q.ask = .num a ∧ 0 ≤ b ∧ b ≤ a ∧ a ≤ 1 :=
  postInit_eq_ok_iff.mp q.valid

end FeedQuote

end Arbys
