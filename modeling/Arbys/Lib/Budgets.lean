import Mathlib.Algebra.Order.Monoid.Defs
import Mathlib.Data.List.Infix

/-!
# Budgets read off a trace

A trace is the list of what a system did, oldest first. Some of its events
spend from a budget and some restore it in full; `spent` is what has been spent
since it was last restored. Where that never passes a cap along the trace
(`Within`), no stretch free of restoring events spends more than the cap
(`Within.countP_le`): a bound on one counter, kept step by step, bounds what
happens between two events. `Spaced` says the same of times: a list to which
each entry is added at a distance from the last is spaced throughout.
-/

universe u v

namespace Budgets

variable {ε : Type u}

/-- What one event makes of the amount spent. -/
def spend (spends clears : ε → Bool) (n : ℕ) (e : ε) : ℕ :=
  if clears e then 0 else if spends e then n + 1 else n

/-- What has been spent since the budget was last restored. -/
def spent (spends clears : ε → Bool) (trace : List ε) : ℕ :=
  trace.foldl (spend spends clears) 0

/-- Nowhere along the trace is more spent than the cap. -/
def Within (spends clears : ε → Bool) (cap : ℕ) (trace : List ε) : Prop :=
  ∀ before, before <+: trace → spent spends clears before ≤ cap

section Spent

variable {spends clears : ε → Bool}

@[simp] theorem spent_nil : spent spends clears [] = 0 := rfl

theorem spent_concat (trace : List ε) (e : ε) :
    spent spends clears (trace ++ [e]) = spend spends clears (spent spends clears trace) e := by
  rw [spent, List.foldl_append]
  rfl

/-- An event of neither kind. -/
theorem spent_concat_of_not {e : ε} (hs : spends e = false) (hc : clears e = false)
    (trace : List ε) : spent spends clears (trace ++ [e]) = spent spends clears trace := by
  rw [spent_concat, spend, hc, hs]
  rfl

theorem spent_concat_clears {e : ε} (hc : clears e = true) (trace : List ε) :
    spent spends clears (trace ++ [e]) = 0 := by
  rw [spent_concat, spend, if_pos hc]

theorem spent_concat_spends {e : ε} (hs : spends e = true) (hc : clears e = false)
    (trace : List ε) : spent spends clears (trace ++ [e]) = spent spends clears trace + 1 := by
  rw [spent_concat, spend, hc, hs]
  rfl

/-- A stretch that restores nothing adds what it spends. -/
theorem spent_append (before : List ε) {segment : List ε}
    (h : ∀ e ∈ segment, clears e = false) :
    spent spends clears (before ++ segment) =
      spent spends clears before + segment.countP spends := by
  induction segment generalizing before with
  | nil => simp
  | cons e segment ih =>
      have happend : before ++ e :: segment = (before ++ [e]) ++ segment := by simp
      rw [happend, ih _ fun x hx => h x (List.mem_cons_of_mem _ hx), spent_concat, spend,
        h e List.mem_cons_self, List.countP_cons]
      cases spends e <;> simp; omega

end Spent

namespace Within

variable {spends clears : ε → Bool} {cap : ℕ}

theorem nil : Within spends clears cap [] := by
  intro before hbefore
  rw [List.prefix_nil.mp hbefore]
  exact Nat.zero_le cap

theorem concat {trace : List ε} (h : Within spends clears cap trace) {e : ε}
    (he : spent spends clears (trace ++ [e]) ≤ cap) :
    Within spends clears cap (trace ++ [e]) := by
  intro before hbefore
  rcases List.prefix_concat_iff.mp hbefore with rfl | hbefore
  · exact he
  · exact h before hbefore

/-- **Between two events that restore the budget at most the cap is spent.** -/
theorem countP_le {before segment after : List ε}
    (h : Within spends clears cap (before ++ segment ++ after))
    (hclears : ∀ e ∈ segment, clears e = false) : segment.countP spends ≤ cap := by
  have hspent := h (before ++ segment) (List.prefix_append _ _)
  rw [spent_append before hclears] at hspent
  omega

end Within

/-! ## Spaced times -/

section Spaced

variable {α : Type v} [AddCommMonoid α] [LinearOrder α] [IsOrderedAddMonoid α]

/-- Every two of the times, in their order, are at least `d` apart. -/
def Spaced (d : α) (times : List α) : Prop := times.Pairwise fun s t => s + d ≤ t

omit [IsOrderedAddMonoid α] in
theorem Spaced.nil (d : α) : Spaced d [] := List.Pairwise.nil

/-- It is enough to keep the distance from the last. -/
theorem Spaced.concat {d : α} (hd : 0 ≤ d) {times : List α} (h : Spaced d times) {t : α}
    (hlast : ∀ last, times.getLast? = some last → last + d ≤ t) : Spaced d (times ++ [t]) := by
  refine List.pairwise_append.mpr ⟨h, List.pairwise_singleton _ _, fun s hs u hu => ?_⟩
  rw [List.mem_singleton.mp hu]
  rcases List.eq_nil_or_concat times with rfl | ⟨front, last, rfl⟩
  · cases hs
  · rw [List.concat_eq_append] at h hs hlast
    have hlast := hlast last List.getLast?_concat
    rcases List.mem_append.mp hs with hs | hs
    · have hsl : s + d ≤ last :=
        (List.pairwise_append.mp h).2.2 s hs last (List.mem_singleton_self last)
      calc s + d ≤ last := hsl
        _ ≤ last + d := le_add_of_nonneg_right hd
        _ ≤ t := hlast
    · rw [List.mem_singleton.mp hs]
      exact hlast

end Spaced

end Budgets
