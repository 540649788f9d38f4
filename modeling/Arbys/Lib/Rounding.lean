import Mathlib.Algebra.Order.Floor.Ring
import Mathlib.Algebra.Order.Ring.Abs
import Mathlib.Data.Int.Log
import Mathlib.Data.Rat.Floor
import Mathlib.Tactic.FieldSimp
import Mathlib.Tactic.Linarith
import Mathlib.Tactic.NormNum
import Mathlib.Tactic.Positivity
import Mathlib.Tactic.Ring

/-!
# Rounding to a number of significant digits

`roundTo b p emin x` is the rational `x` rounded, half to even, to `p`
significant digits in base `b`, no digit standing below `b ^ emin`. A multiple
of the unit of its last place is not moved (`roundTo_eq_self`); rounding never
crosses such a multiple (`roundTo_le_of_le`, `le_roundTo_of_le`), which is what
makes it monotone across the places where the unit changes (`roundTo_mono`).
-/

namespace Rounding

/-- The nearest integer, the even one of two equally near. -/
def halfEven (x : ℚ) : ℤ :=
  if x - ⌊x⌋ < 1 / 2 then ⌊x⌋
  else if 1 / 2 < x - ⌊x⌋ then ⌊x⌋ + 1
  else if ⌊x⌋ % 2 = 0 then ⌊x⌋ else ⌊x⌋ + 1

theorem floor_le_halfEven (x : ℚ) : ⌊x⌋ ≤ halfEven x := by
  unfold halfEven
  split_ifs <;> omega

theorem halfEven_le_floor_add_one (x : ℚ) : halfEven x ≤ ⌊x⌋ + 1 := by
  unfold halfEven
  split_ifs <;> omega

@[simp] theorem halfEven_intCast (k : ℤ) : halfEven k = k := by
  rw [halfEven, Int.floor_intCast, sub_self, if_pos (by norm_num)]

theorem halfEven_mono {x y : ℚ} (h : x ≤ y) : halfEven x ≤ halfEven y := by
  have hfloor : ⌊x⌋ ≤ ⌊y⌋ := Int.floor_le_floor h
  rcases eq_or_lt_of_le hfloor with heq | hlt
  · have hfrac : x - ⌊x⌋ ≤ y - ⌊x⌋ := by linarith
    unfold halfEven
    rw [← heq]
    split_ifs <;> first | omega | (exfalso; linarith)
  · have hx := halfEven_le_floor_add_one x
    have hy := floor_le_halfEven y
    omega

/-- Ties go to even on both sides of zero. -/
theorem halfEven_neg (x : ℚ) : halfEven (-x) = -halfEven x := by
  rcases eq_or_ne (x - ⌊x⌋) 0 with hzero | hfrac
  · have hx : x = (⌊x⌋ : ℤ) := by linarith
    rw [hx, ← Int.cast_neg, halfEven_intCast, halfEven_intCast]
  · have hpos : 0 < x - ⌊x⌋ := lt_of_le_of_ne (by linarith [Int.floor_le x]) (Ne.symm hfrac)
    have hone : x - ⌊x⌋ < 1 := by linarith [Int.lt_floor_add_one x]
    have hfloor : ⌊-x⌋ = -⌊x⌋ - 1 := by
      rw [Int.floor_eq_iff]
      push_cast
      constructor <;> linarith
    unfold halfEven
    rw [hfloor]
    push_cast
    split_ifs <;> first | omega | (exfalso; linarith)

theorem halfEven_le_of_le {x : ℚ} {k : ℤ} (h : x ≤ k) : halfEven x ≤ k := by
  rw [← halfEven_intCast k]
  exact halfEven_mono h

theorem le_halfEven_of_le {x : ℚ} {k : ℤ} (h : (k : ℚ) ≤ x) : k ≤ halfEven x := by
  rw [← halfEven_intCast k]
  exact halfEven_mono h

/-- Rounding to an integer moves a number by a half at most. -/
theorem abs_halfEven_sub_le (x : ℚ) : |(halfEven x : ℚ) - x| ≤ 1 / 2 := by
  have hlow := Int.floor_le x
  have hhigh := Int.lt_floor_add_one x
  rw [abs_le]
  unfold halfEven
  split_ifs <;> push_cast <;> constructor <;> linarith

/-- An even shift keeps ties where they are. -/
theorem halfEven_add_even (x : ℚ) (m : ℤ) : halfEven (x + (2 * m : ℤ)) = halfEven x + 2 * m := by
  have hfrac : x + (2 * m : ℤ) - ⌊x + (2 * m : ℤ)⌋ = x - ⌊x⌋ := by
    rw [Int.floor_add_intCast]
    push_cast
    ring
  unfold halfEven
  rw [hfrac, Int.floor_add_intCast]
  split_ifs <;> omega

/-! ## Significant digits -/

section Digits

variable (b p : ℕ) (emin : ℤ)

/-- The exponent of the last place of `x`. -/
def place (x : ℚ) : ℤ := max (Int.log b |x| - (p - 1)) emin

/-- `x` rounded to `p` significant digits. -/
def roundTo (x : ℚ) : ℚ := halfEven (x / (b : ℚ) ^ place b p emin x) * (b : ℚ) ^ place b p emin x

/-- A multiple of the unit of a place. -/
def OnPlace (e : ℤ) (x : ℚ) : Prop := ∃ k : ℤ, x = k * (b : ℚ) ^ e

variable {b p emin} {x y z : ℚ} {e : ℤ}

@[simp] theorem roundTo_zero : roundTo b p emin 0 = 0 := by
  have h : halfEven 0 = 0 := by exact_mod_cast halfEven_intCast 0
  rw [roundTo, zero_div, h, Int.cast_zero, zero_mul]

theorem place_neg (x : ℚ) : place b p emin (-x) = place b p emin x := by
  rw [place, place, abs_neg]

theorem roundTo_neg (x : ℚ) : roundTo b p emin (-x) = -roundTo b p emin x := by
  rw [roundTo, roundTo, place_neg, neg_div, halfEven_neg]
  push_cast
  ring

/-- The last place of a larger number stands no lower. -/
theorem place_mono (hx : 0 < x) (h : x ≤ y) : place b p emin x ≤ place b p emin y := by
  have hlog : Int.log b |x| ≤ Int.log b |y| := by
    rw [abs_of_pos hx, abs_of_pos (lt_of_lt_of_le hx h)]
    exact Int.log_mono_right hx h
  unfold place
  omega

section Base

variable (hb : 1 < b)
include hb

theorem base_pos : (0 : ℚ) < b := by exact_mod_cast (by omega : 0 < b)

theorem unit_pos (e : ℤ) : (0 : ℚ) < (b : ℚ) ^ e := zpow_pos (base_pos hb) e

/-- A multiple of a unit is a multiple of every smaller one. -/
theorem OnPlace.mono {e' : ℤ} (h : OnPlace b e x) (he : e' ≤ e) : OnPlace b e' x := by
  obtain ⟨k, rfl⟩ := h
  refine ⟨k * (b : ℤ) ^ (e - e').toNat, ?_⟩
  have hsplit : (b : ℚ) ^ e = (b : ℚ) ^ (e - e').toNat * (b : ℚ) ^ e' := by
    rw [← zpow_natCast, Int.toNat_of_nonneg (by omega), ← zpow_add₀ (ne_of_gt (base_pos hb))]
    congr 1
    omega
  rw [hsplit]
  push_cast
  ring

/-- A power of the base is a multiple of every smaller one. -/
theorem onPlace_zpow {e' : ℤ} (he : e' ≤ e) : OnPlace b e' ((b : ℚ) ^ e) :=
  OnPlace.mono hb ⟨1, by rw [Int.cast_one, one_mul]⟩ he

/-- Rounding does not pass a multiple of the unit from below. -/
theorem roundTo_le_of_le (hz : OnPlace b (place b p emin x) z) (h : x ≤ z) :
    roundTo b p emin x ≤ z := by
  obtain ⟨k, rfl⟩ := hz
  have hunit := unit_pos hb (place b p emin x)
  have hle : halfEven (x / (b : ℚ) ^ place b p emin x) ≤ k := by
    apply halfEven_le_of_le
    rwa [div_le_iff₀ hunit]
  rw [roundTo]
  exact mul_le_mul_of_nonneg_right (by exact_mod_cast hle) (le_of_lt hunit)

/-- Rounding does not pass a multiple of the unit from above. -/
theorem le_roundTo_of_le (hz : OnPlace b (place b p emin x) z) (h : z ≤ x) :
    z ≤ roundTo b p emin x := by
  obtain ⟨k, rfl⟩ := hz
  have hunit := unit_pos hb (place b p emin x)
  have hle : k ≤ halfEven (x / (b : ℚ) ^ place b p emin x) := by
    apply le_halfEven_of_le
    rwa [le_div_iff₀ hunit]
  rw [roundTo]
  exact mul_le_mul_of_nonneg_right (by exact_mod_cast hle) (le_of_lt hunit)

/-- A multiple of the unit of its last place is not moved. -/
theorem roundTo_eq_self (hx : OnPlace b (place b p emin x) x) : roundTo b p emin x = x :=
  le_antisymm (roundTo_le_of_le hb hx (le_refl x)) (le_roundTo_of_le hb hx (le_refl x))

/-- **Few digits are exact**: a number that has at most `p` of them, none
below `b ^ emin`. -/
theorem roundTo_of_digits {k : ℤ} (hk : |k| < (b : ℤ) ^ p) (he : emin ≤ e) :
    roundTo b p emin (k * (b : ℚ) ^ e) = k * (b : ℚ) ^ e := by
  rcases eq_or_ne k 0 with rfl | hne
  · rw [Int.cast_zero, zero_mul, roundTo_zero]
  apply roundTo_eq_self hb
  refine OnPlace.mono hb ⟨k, rfl⟩ ?_
  have hunit := unit_pos hb e
  have habs : |(k : ℚ) * (b : ℚ) ^ e| = |(k : ℚ)| * (b : ℚ) ^ e := by
    rw [abs_mul, abs_of_pos hunit]
  have hpos : 0 < |(k : ℚ) * (b : ℚ) ^ e| := by
    rw [habs]
    exact mul_pos (abs_pos.mpr (by exact_mod_cast hne)) hunit
  have hlt : |(k : ℚ) * (b : ℚ) ^ e| < (b : ℚ) ^ (p + e : ℤ) := by
    rw [habs, zpow_add₀ (ne_of_gt (base_pos hb)), zpow_natCast]
    exact mul_lt_mul_of_pos_right (by exact_mod_cast hk) hunit
  have hlog := (Int.lt_zpow_iff_log_lt hb hpos).mp hlt
  rw [place, max_le_iff]
  omega

theorem roundTo_nonneg (h : 0 ≤ x) : 0 ≤ roundTo b p emin x :=
  le_roundTo_of_le hb ⟨0, by rw [Int.cast_zero, zero_mul]⟩ h

variable (hp : 0 < p)
include hp

theorem roundTo_mono_of_pos (hx : 0 < x) (h : x ≤ y) :
    roundTo b p emin x ≤ roundTo b p emin y := by
  have hy : 0 < y := lt_of_lt_of_le hx h
  have hplaces : place b p emin x ≤ place b p emin y := place_mono hx h
  rcases eq_or_lt_of_le hplaces with heq | hlt
  · -- one unit for both
    have hunit := unit_pos hb (place b p emin x)
    rw [roundTo, roundTo, ← heq]
    apply mul_le_mul_of_nonneg_right _ (le_of_lt hunit)
    exact_mod_cast halfEven_mono (div_le_div_of_nonneg_right h (le_of_lt hunit))
  · -- the power of the base between the two is a multiple of both units
    have hplace : place b p emin y = Int.log b |y| - (p - 1) := by
      unfold place at hlt ⊢
      omega
    have hlog : Int.log b |x| < Int.log b |y| := by
      unfold place at hlt
      omega
    have hxy : place b p emin x ≤ Int.log b |y| := by omega
    have hyy : place b p emin y ≤ Int.log b |y| := by omega
    rw [abs_of_pos hx, abs_of_pos hy] at hlog
    rw [abs_of_pos hy] at hxy hyy
    have hbelow : x ≤ (b : ℚ) ^ Int.log b y :=
      le_of_lt ((Int.lt_zpow_iff_log_lt hb hx).mpr hlog)
    have habove : (b : ℚ) ^ Int.log b y ≤ y := Int.zpow_log_le_self hb hy
    exact le_trans (roundTo_le_of_le hb (onPlace_zpow hb hxy) hbelow)
      (le_roundTo_of_le hb (onPlace_zpow hb hyy) habove)

/-- **Rounding is monotone.** -/
theorem roundTo_mono (h : x ≤ y) : roundTo b p emin x ≤ roundTo b p emin y := by
  rcases lt_trichotomy 0 x with hx | rfl | hx
  · exact roundTo_mono_of_pos hb hp hx h
  · rw [roundTo_zero]
    exact roundTo_nonneg hb h
  · rcases lt_or_ge y 0 with hy | hy
    · have hneg : roundTo b p emin (-y) ≤ roundTo b p emin (-x) :=
        roundTo_mono_of_pos hb hp (neg_pos.mpr hy) (neg_le_neg h)
      rwa [roundTo_neg, roundTo_neg, neg_le_neg_iff] at hneg
    · have hneg : 0 ≤ roundTo b p emin (-x) := roundTo_nonneg hb (le_of_lt (neg_pos.mpr hx))
      rw [roundTo_neg] at hneg
      exact le_trans (by linarith) (roundTo_nonneg hb hy)

end Base

end Digits

/-! ### How far rounding moves a number -/

section Error

variable {b p : ℕ} {emin : ℤ} {x y : ℚ}

theorem onPlace_roundTo : OnPlace b (place b p emin x) (roundTo b p emin x) := ⟨_, rfl⟩

/-- Rounding moves a number by half a unit of its last place at most. -/
theorem abs_roundTo_sub_le (hb : 1 < b) :
    |roundTo b p emin x - x| ≤ (b : ℚ) ^ place b p emin x / 2 := by
  have hunit := unit_pos hb (place b p emin x)
  have hx : x = x / (b : ℚ) ^ place b p emin x * (b : ℚ) ^ place b p emin x :=
    (div_mul_cancel₀ x (ne_of_gt hunit)).symm
  have hdiff : roundTo b p emin x - x =
      ((halfEven (x / (b : ℚ) ^ place b p emin x) : ℚ) - x / (b : ℚ) ^ place b p emin x) *
        (b : ℚ) ^ place b p emin x := by
    rw [sub_mul, ← hx]
    rfl
  rw [hdiff, abs_mul, abs_of_pos hunit]
  have hhalf := abs_halfEven_sub_le (x / (b : ℚ) ^ place b p emin x)
  calc _ ≤ 1 / 2 * (b : ℚ) ^ place b p emin x := mul_le_mul_of_nonneg_right hhalf (le_of_lt hunit)
    _ = (b : ℚ) ^ place b p emin x / 2 := by ring

theorem OnPlace.add {e : ℤ} (hx : OnPlace b e x) (hy : OnPlace b e y) : OnPlace b e (x + y) := by
  obtain ⟨k, rfl⟩ := hx
  obtain ⟨l, rfl⟩ := hy
  exact ⟨k + l, by push_cast; ring⟩

/-- Of two multiples of a unit, one that is less than a unit below the other is
not below it. -/
theorem OnPlace.le_of_sub_lt (hb : 1 < b) {e : ℤ} (hx : OnPlace b e x) (hy : OnPlace b e y)
    (h : x - (b : ℚ) ^ e < y) : x ≤ y := by
  obtain ⟨k, rfl⟩ := hx
  obtain ⟨l, rfl⟩ := hy
  have hunit := unit_pos hb e
  have hlt : ((k - 1 : ℤ) : ℚ) < (l : ℚ) := by
    refine lt_of_mul_lt_mul_right ?_ (le_of_lt hunit)
    push_cast
    linarith
  have hkl : k ≤ l := by
    have hlt' : k - 1 < l := by exact_mod_cast hlt
    omega
  exact mul_le_mul_of_nonneg_right (by exact_mod_cast hkl) (le_of_lt hunit)

/-- A number that is on its last place, but for an even number of units, has
the complement it should. -/
theorem roundTo_sub_of_place_eq (hb : 1 < b) {m : ℤ}
    (hz : y = ((2 * m : ℤ) : ℚ) * (b : ℚ) ^ place b p emin x)
    (hplace : place b p emin (y - x) = place b p emin x) :
    roundTo b p emin (y - x) = y - roundTo b p emin x := by
  have hunit := unit_pos hb (place b p emin x)
  have hdiv : (y - x) / (b : ℚ) ^ place b p emin x =
      -(x / (b : ℚ) ^ place b p emin x) + (2 * m : ℤ) := by
    rw [sub_div, hz, mul_div_cancel_right₀ _ (ne_of_gt hunit)]
    ring
  rw [roundTo, roundTo, hplace, hdiv, halfEven_add_even, halfEven_neg, hz]
  push_cast
  ring

/-- Rounding leaves at most `p` digits, but for the power of the base it may
round up to. -/
theorem abs_halfEven_le (hb : 1 < b) :
    |halfEven (x / (b : ℚ) ^ place b p emin x)| ≤ (b : ℤ) ^ p := by
  rcases eq_or_ne x 0 with rfl | hne
  · have h : halfEven 0 = 0 := by exact_mod_cast halfEven_intCast 0
    rw [zero_div, h, abs_zero]
    positivity
  have hunit := unit_pos hb (place b p emin x)
  have hx : |x| < (b : ℚ) ^ (place b p emin x + p) := by
    rw [Int.lt_zpow_iff_log_lt hb (abs_pos.mpr hne)]
    unfold place
    omega
  have hdigits : |x / (b : ℚ) ^ place b p emin x| ≤ (((b : ℤ) ^ p : ℤ) : ℚ) := by
    rw [abs_div, abs_of_pos hunit, div_le_iff₀ hunit]
    rw [add_comm, zpow_add₀ (ne_of_gt (base_pos hb)), zpow_natCast] at hx
    push_cast
    exact le_of_lt hx
  obtain ⟨hlow, hhigh⟩ := abs_le.mp hdigits
  refine abs_le.mpr ⟨le_halfEven_of_le ?_, halfEven_le_of_le hhigh⟩
  push_cast at hlow ⊢
  exact hlow

/-- **What is rounded is not moved again.** -/
theorem roundTo_roundTo (hb : 1 < b) (hp : 0 < p) :
    roundTo b p emin (roundTo b p emin x) = roundTo b p emin x := by
  have he : emin ≤ place b p emin x := le_max_right _ _
  have hdigits : |halfEven (x / (b : ℚ) ^ place b p emin x)| ≤ (b : ℤ) ^ p := abs_halfEven_le hb
  rcases lt_or_eq_of_le hdigits with hlt | heq
  · exact roundTo_of_digits hb hlt he
  · have hone : |(1 : ℤ)| < (b : ℤ) ^ p := by
      rw [abs_one]
      exact one_lt_pow₀ (by exact_mod_cast hb) (by omega)
    have hpower : roundTo b p emin (((1 : ℤ) : ℚ) * (b : ℚ) ^ (place b p emin x + p)) =
        ((1 : ℤ) : ℚ) * (b : ℚ) ^ (place b p emin x + p) :=
      roundTo_of_digits hb hone (by omega)
    have hsplit : ((b : ℤ) ^ p : ℤ) * (b : ℚ) ^ place b p emin x =
        ((1 : ℤ) : ℚ) * (b : ℚ) ^ (place b p emin x + p) := by
      rw [zpow_add₀ (ne_of_gt (base_pos hb)), zpow_natCast]
      push_cast
      ring
    rw [← hsplit] at hpower
    show roundTo b p emin ((halfEven (x / (b : ℚ) ^ place b p emin x) : ℚ) *
      (b : ℚ) ^ place b p emin x) = (halfEven (x / (b : ℚ) ^ place b p emin x) : ℚ) *
        (b : ℚ) ^ place b p emin x
    generalize halfEven (x / (b : ℚ) ^ place b p emin x) = k at heq ⊢
    rcases abs_choice k with habs | habs
    · rw [← habs, heq]
      exact hpower
    · have hk : k = -(b : ℤ) ^ p := by omega
      rw [hk, Int.cast_neg, neg_mul, roundTo_neg, hpower]

end Error

end Rounding
