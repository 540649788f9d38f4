import Arbys.Lib.DecimalArith
import Arbys.Lib.RelativeError
import Mathlib.Tactic.FieldSimp

/-!
# The context decimals are computed in

The code computes on `decimal.Decimal`: the result of each operation is exact
and is then rounded by the context. Where that matters the model is written
over the context, so that one definition is the code's in `Context.default`
and the exact one in `Context.exact`.
-/

namespace Arbys

open DecimalArith Rounding

/-- What a context makes of the exact result of an operation. -/
abbrev Context := ℚ → ℚ

namespace Context

/-- No rounding at all. -/
def exact : Context := id

/-- The default context: 28 significant digits, half to even. The bounds on
its exponent, a million places off, are not modelled. -/
def default : Context := fun q => roundTo 10 prec (Int.log 10 |q| - (prec - 1)) q

/-- Where the smallest exponent is out of the way, this is what the arithmetic
of `DecimalArith` rounds to. -/
theorem default_eq_rounded {q : ℚ} (h : etiny ≤ Int.log 10 |q| - (prec - 1)) :
    Context.default q = rounded q := by
  have hplace : place 10 prec (Int.log 10 |q| - (prec - 1)) q = place 10 prec etiny q := by
    rw [place, place, max_self, max_eq_left h]
  rw [Context.default, rounded, roundTo, roundTo, hplace]

/-! ## How far off a result is -/

/-- Half a unit of the 28th digit, as a share of the number. -/
def ulp : ℚ := 5 / 10 ^ 28

/-- The factor by which one rounding is off. -/
def slack : ℚ := (1 + ulp) / (1 - ulp)

theorem abs_default_sub_le (q : ℚ) : |Context.default q - q| ≤ ulp * |q| := by
  rcases eq_or_ne q 0 with rfl | hq
  · simp [Context.default]
  have hpos : 0 < |q| := abs_pos.mpr hq
  have hplace : place 10 prec (Int.log 10 |q| - (prec - 1)) q = Int.log 10 |q| - 27 := by
    rw [place, max_self]
    norm_num [prec]
  have hhalf : |Context.default q - q| ≤
      ((10 : ℕ) : ℚ) ^ place 10 prec (Int.log 10 |q| - (prec - 1)) q / 2 :=
    abs_roundTo_sub_le (by norm_num)
  have hlog : ((10 : ℕ) : ℚ) ^ Int.log 10 |q| ≤ |q| := Int.zpow_log_le_self (by norm_num) hpos
  calc |Context.default q - q| ≤ ((10 : ℕ) : ℚ) ^ (Int.log 10 |q| - 27) / 2 := by
        rw [← hplace]
        exact hhalf
    _ = ulp * ((10 : ℕ) : ℚ) ^ Int.log 10 |q| := by
        rw [zpow_sub₀ (by norm_num), ulp]
        norm_num
        ring
    _ ≤ ulp * |q| := mul_le_mul_of_nonneg_left hlog (by norm_num [ulp])

/-- **The default context is off by `slack` at most.** -/
theorem within_default : RelativeError.Within slack Context.default := by
  have herror : ∀ q : ℚ, 0 ≤ q → (1 - ulp) * q ≤ Context.default q ∧
      Context.default q ≤ (1 + ulp) * q := by
    intro q hq
    have h := abs_le.mp (abs_default_sub_le q)
    rw [abs_of_nonneg hq] at h
    constructor
    · linarith [h.1]
    · linarith [h.2]
  refine ⟨by norm_num [slack, ulp], fun q hq => ?_, fun q hq => ?_, fun q hq => ?_⟩
  · refine (herror q hq).2.trans (mul_le_mul_of_nonneg_right ?_ hq)
    norm_num [slack, ulp]
  · have hlow := (herror q hq).1
    have hnonneg : 0 ≤ Context.default q :=
      (mul_nonneg (by norm_num [ulp]) hq).trans hlow
    calc q = (1 - ulp) * q / (1 - ulp) := by
          rw [mul_div_cancel_left₀]
          norm_num [ulp]
      _ ≤ Context.default q / (1 - ulp) :=
          div_le_div_of_nonneg_right hlow (by norm_num [ulp])
      _ ≤ slack * Context.default q := by
          rw [slack, div_mul_eq_mul_div]
          refine div_le_div_of_nonneg_right ?_ (by norm_num [ulp])
          have hone : (1 : ℚ) ≤ 1 + ulp := by norm_num [ulp]
          simpa using mul_le_mul_of_nonneg_right hone hnonneg
  · have h := (abs_le.mp (abs_default_sub_le q)).2
    rw [abs_of_nonpos hq] at h
    have hshare : ulp * -q ≤ 1 * -q :=
      mul_le_mul_of_nonneg_right (by norm_num [ulp]) (neg_nonneg.mpr hq)
    linarith

/-- A hundred roundings are off in the 26th digit at the earliest. -/
example : slack ^ 100 ≤ 1 + 2 / 10 ^ 25 := by
  norm_num [slack, ulp]

/-! ## Sums that do not round -/

/-- Adding either of two amounts to a sum, on its own, is exact. -/
def Adds (ctx : Context) (sum x y : ℚ) : Prop :=
  ctx (sum + x) = sum + x ∧ ctx (sum + y) = sum + y

/-- Then it does not matter which is added first, even where adding both
rounds. -/
theorem Adds.comm {ctx : Context} {sum x y : ℚ} (h : ctx.Adds sum x y) :
    ctx (ctx (sum + x) + y) = ctx (ctx (sum + y) + x) := by
  rw [h.1, h.2, add_right_comm]

end Context

end Arbys
