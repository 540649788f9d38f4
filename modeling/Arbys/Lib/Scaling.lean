import Mathlib.Algebra.BigOperators.Group.List.Basic
import Mathlib.Algebra.Order.Field.Basic
import Mathlib.Data.List.Forall2

/-!
# Scaling to budgets

Items are held under keys, and each key has a budget for what its items cost
together. If every item is scaled by some factor of its own, none above a
common one (`Scaled`), then the cost under every key and in all is scaled by
no more than that (`Scaled.costOn_le`, `Scaled.sum_le`); and if the common
factor is no more than each key's budget over its cost, every key stays within
its budget (`Scaled.within`).
-/

universe u v w

namespace Scaling

variable {ι : Type u} {κ : Type v} {α : Type w} [DecidableEq κ]

/-- What the items under a key cost. -/
def costOn [AddMonoid α] (key : ι → κ) (cost : ι → α) (l : List ι) (k : κ) : α :=
  ((l.filter fun x => key x = k).map cost).sum

section Costs

variable [AddMonoid α] (key : ι → κ) (cost : ι → α)

@[simp] theorem costOn_nil (k : κ) : costOn key cost [] k = 0 := rfl

theorem costOn_cons (x : ι) (l : List ι) (k : κ) :
    costOn key cost (x :: l) k = (if key x = k then cost x else 0) + costOn key cost l k := by
  by_cases hk : key x = k
  · simp [costOn, hk]
  · simp [costOn, hk]

end Costs

variable [Field α] [LinearOrder α] [IsStrictOrderedRing α] {key : ι → κ} {cost : ι → α} {s : α}
  {l l' : List ι}

/-- Item by item, the same key at no more than `s` times the cost. -/
def Scaled (key : ι → κ) (cost : ι → α) (s : α) (l l' : List ι) : Prop :=
  List.Forall₂ (fun a b => key b = key a ∧ cost b ≤ s * cost a) l l'

omit [DecidableEq κ] in
theorem Scaled.sum_le (h : Scaled key cost s l l') :
    (l'.map cost).sum ≤ s * (l.map cost).sum := by
  induction h with
  | nil => simp
  | @cons a b l l' hab _ ih =>
      rw [List.map_cons, List.sum_cons, List.map_cons, List.sum_cons, mul_add]
      exact add_le_add hab.2 ih

theorem Scaled.costOn_le (h : Scaled key cost s l l') (k : κ) :
    costOn key cost l' k ≤ s * costOn key cost l k := by
  induction h with
  | nil => simp
  | @cons a b l l' hab _ ih =>
      -- both sides count the item, or neither does
      rw [costOn_cons, costOn_cons, mul_add, hab.1]
      refine add_le_add ?_ ih
      split
      · exact hab.2
      · rw [mul_zero]

/-- **The budget rule.** -/
theorem Scaled.within (h : Scaled key cost s l l') {k : κ} {budget : α}
    (hcost : 0 < costOn key cost l k) (hs : s ≤ budget / costOn key cost l k) :
    costOn key cost l' k ≤ budget :=
  (h.costOn_le k).trans ((le_div_iff₀ hcost).mp hs)

end Scaling
