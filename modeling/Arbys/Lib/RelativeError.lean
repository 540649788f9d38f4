import Mathlib.Algebra.Order.Field.Basic
import Mathlib.Tactic.Linarith
import Mathlib.Tactic.Positivity
import Mathlib.Tactic.Ring

/-!
# Results that are off by a factor

A rounding moves a nonnegative value by no more than a factor `g`, up or down
(`Within`). A result of several rounded operations on nonnegative values is
then off by at most a power of `g`, and the powers add up along products and
quotients, while a sum keeps the worse of its two. `x ≤ g ^ k * y` is written
`Upto g k x y`.
-/

universe u

namespace RelativeError

variable {α : Type u} [Field α] [LinearOrder α] [IsStrictOrderedRing α]

/-- `r` moves no nonnegative value by more than the factor `g`, and keeps
signs. -/
structure Within (g : α) (r : α → α) : Prop where
  one_le : 1 ≤ g
  le : ∀ x, 0 ≤ x → r x ≤ g * x
  ge : ∀ x, 0 ≤ x → x ≤ g * r x
  nonpos : ∀ x, x ≤ 0 → r x ≤ 0

/-- `x` is at most `y`, up to `k` factors. -/
def Upto (g : α) (k : ℕ) (x y : α) : Prop := x ≤ g ^ k * y

section Rounding

variable {g : α} {r : α → α}

theorem Within.pos (h : Within g r) : 0 < g := lt_of_lt_of_le one_pos h.one_le

theorem Within.nonneg (h : Within g r) {x : α} (hx : 0 ≤ x) : 0 ≤ r x := by
  have hge := h.ge x hx
  exact nonneg_of_mul_nonneg_right (hx.trans hge) h.pos

omit [IsStrictOrderedRing α] in
theorem Within.pos_of_rounded (h : Within g r) {x : α} (hx : 0 < r x) : 0 < x :=
  not_le.mp fun hle => absurd hx (not_lt.mpr (h.nonpos x hle))

omit [IsStrictOrderedRing α] in
/-- A value rounded is the value, up to one factor, and the other way round. -/
theorem Within.upto (h : Within g r) {x : α} (hx : 0 ≤ x) : Upto g 1 (r x) x := by
  rw [Upto, pow_one]
  exact h.le x hx

omit [IsStrictOrderedRing α] in
theorem Within.upto' (h : Within g r) {x : α} (hx : 0 ≤ x) : Upto g 1 x (r x) := by
  rw [Upto, pow_one]
  exact h.ge x hx

end Rounding

section Calculus

variable {g : α} {j k : ℕ} {x y z w : α}

omit [IsStrictOrderedRing α] in
theorem Upto.of_le (h : x ≤ y) : Upto g 0 x y := by
  rw [Upto, pow_zero, one_mul]
  exact h

theorem Upto.trans (hg : 1 ≤ g) (h : Upto g j x y) (h' : Upto g k y z) : Upto g (j + k) x z := by
  have hpow : 0 ≤ g ^ j := pow_nonneg (zero_le_one.trans hg) j
  calc x ≤ g ^ j * y := h
    _ ≤ g ^ j * (g ^ k * z) := mul_le_mul_of_nonneg_left h' hpow
    _ = g ^ (j + k) * z := by rw [pow_add, mul_assoc]

theorem Upto.mono (hg : 1 ≤ g) (hy : 0 ≤ y) (hjk : j ≤ k) (h : Upto g j x y) : Upto g k x y :=
  le_trans h (mul_le_mul_of_nonneg_right (pow_le_pow_right₀ hg hjk) hy)

/-- A sum is off by no more than its terms. -/
theorem Upto.add (h : Upto g k x y) (h' : Upto g k z w) : Upto g k (x + z) (y + w) := by
  rw [Upto, mul_add]
  exact add_le_add h h'

theorem Upto.mul_left (h : Upto g k x y) (hz : 0 ≤ z) : Upto g k (z * x) (z * y) := by
  calc z * x ≤ z * (g ^ k * y) := mul_le_mul_of_nonneg_left h hz
    _ = g ^ k * (z * y) := by ring

theorem Upto.mul_right (h : Upto g k x y) (hz : 0 ≤ z) : Upto g k (x * z) (y * z) := by
  rw [mul_comm x, mul_comm y]
  exact h.mul_left hz

theorem Upto.div_right (h : Upto g k x y) (hz : 0 ≤ z) : Upto g k (x / z) (y / z) := by
  rw [div_eq_mul_inv, div_eq_mul_inv]
  exact h.mul_right (inv_nonneg.mpr hz)

end Calculus

section Sums

variable {ι : Type*} {g : α} {r : α → α} {value exact : ι → α} {k : ℕ}

/-- Adding up one after another, each sum rounded. -/
def sumUp (r : α → α) (acc : α) (xs : List α) : α := xs.foldl (fun acc x => r (acc + x)) acc

theorem sumUp_nonneg (h : Within g r) {acc : α} {xs : List α} (hacc : 0 ≤ acc)
    (hxs : ∀ x ∈ xs, 0 ≤ x) : 0 ≤ sumUp r acc xs := by
  induction xs generalizing acc with
  | nil => exact hacc
  | cons x xs ih =>
      obtain ⟨hx, hrest⟩ := List.forall_mem_cons.mp hxs
      exact ih (h.nonneg (add_nonneg hacc hx)) hrest

/-- **A sum is off by one factor for each addition**, and by what its terms
are. -/
theorem upto_sumUp (h : Within g r) {acc : α} {xs : List α} (hacc : 0 ≤ acc)
    (hxs : ∀ x ∈ xs, 0 ≤ x) : Upto g xs.length (acc + xs.sum) (sumUp r acc xs) := by
  induction xs generalizing acc with
  | nil =>
      rw [List.sum_nil, add_zero]
      exact .of_le (le_refl acc)
  | cons x xs ih =>
      obtain ⟨hx, hrest⟩ := List.forall_mem_cons.mp hxs
      have hsum : 0 ≤ xs.sum := List.sum_nonneg hrest
      have hfirst : Upto g 1 (acc + x + xs.sum) (r (acc + x) + xs.sum) :=
        (h.upto' (add_nonneg hacc hx)).add ((Upto.of_le (le_refl _)).mono h.one_le hsum
          (Nat.zero_le 1))
      have hall := hfirst.trans h.one_le (ih (h.nonneg (add_nonneg hacc hx)) hrest)
      rw [List.sum_cons, ← add_assoc, List.length_cons, add_comm xs.length 1]
      exact hall

theorem sumUp_upto (h : Within g r) {acc : α} {xs : List α} (hacc : 0 ≤ acc)
    (hxs : ∀ x ∈ xs, 0 ≤ x) : Upto g xs.length (sumUp r acc xs) (acc + xs.sum) := by
  induction xs generalizing acc with
  | nil =>
      rw [List.sum_nil, add_zero]
      exact .of_le (le_refl acc)
  | cons x xs ih =>
      obtain ⟨hx, hrest⟩ := List.forall_mem_cons.mp hxs
      have hsum : 0 ≤ xs.sum := List.sum_nonneg hrest
      have hlast : Upto g 1 (r (acc + x) + xs.sum) (acc + x + xs.sum) :=
        (h.upto (add_nonneg hacc hx)).add ((Upto.of_le (le_refl _)).mono h.one_le hsum
          (Nat.zero_le 1))
      have hall := (ih (h.nonneg (add_nonneg hacc hx)) hrest).trans h.one_le hlast
      rw [List.sum_cons, ← add_assoc, List.length_cons]
      exact hall

/-- Item by item the same, up to `k` factors; so are the totals. -/
theorem upto_sum_map {items : List ι} (h : ∀ x ∈ items, Upto g k (value x) (exact x)) :
    Upto g k (items.map value).sum (items.map exact).sum := by
  induction items with
  | nil =>
      rw [Upto, List.map_nil, List.map_nil, List.sum_nil, mul_zero]
  | cons x items ih =>
      obtain ⟨hx, hrest⟩ := List.forall_mem_cons.mp h
      rw [List.map_cons, List.map_cons, List.sum_cons, List.sum_cons]
      exact hx.add (ih hrest)

end Sums

end RelativeError
