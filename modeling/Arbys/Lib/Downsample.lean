import Mathlib.Data.Int.CardIntervalMod

/-!
# Every so many items, and the last

A series is thinned by keeping the items whose index is a multiple of a
stride, and the last one whatever its index. `length_kept_le_iff` says when
that keeps at most `m + 1` items, and `le_stride_iff` when the stride `n / m`,
rounded down, is long enough for it.
-/

namespace Downsample

variable {step n i : ℕ}

/-- The items that stay. -/
def Kept (step n i : ℕ) : Prop := i % step = 0 ∨ i = n - 1

instance : Decidable (Kept step n i) := inferInstanceAs (Decidable (_ ∨ _))

/-- The same of an item beside its index. -/
def stays {α : Type*} (step n : ℕ) (e : α × ℕ) : Bool := Kept step n e.2

/-- Their indices, in order. -/
def kept (step n : ℕ) : List ℕ := (List.range n).filter fun i => Kept step n i

/-- The multiples of the stride before the last index, and that index. -/
theorem kept_succ (step n : ℕ) :
    kept step (n + 1) = ((List.range n).filter fun i => i % step = 0) ++ [n] := by
  have hbefore : ((List.range n).filter fun i => Kept step (n + 1) i) =
      (List.range n).filter fun i => i % step = 0 := by
    refine List.filter_congr fun i hi => ?_
    have hlt : i ≠ n := Nat.ne_of_lt (List.mem_range.mp hi)
    simp [Kept, hlt]
  have hlast : Kept step (n + 1) n := Or.inr rfl
  rw [kept, List.range_succ, List.filter_append, hbefore, List.filter_cons_of_pos (by simpa),
    List.filter_nil]

/-- What is kept is at most `m + 1` items where `m` strides reach the last one. -/
theorem length_kept_le_iff (hstep : 0 < step) (hn : 0 < n) (m : ℕ) :
    (kept step n).length ≤ m + 1 ↔ n ≤ m * step + 1 := by
  obtain ⟨k, rfl⟩ := Nat.exists_eq_add_of_lt hn
  have hcount : ((List.range k).filter fun i => i % step = 0).length =
      k / step + if 0 < k % step then 1 else 0 := by
    have h := Nat.count_modEq_card k hstep 0
    rw [Nat.zero_mod] at h
    rw [← h, Nat.count, List.countP_eq_length_filter]
    refine congrArg List.length (List.filter_congr fun i _ => ?_)
    exact decide_eq_decide.mpr (by rw [Nat.ModEq, Nat.zero_mod])
  rw [Nat.zero_add, kept_succ, List.length_append, List.length_singleton, hcount,
    Nat.add_le_add_iff_right, Nat.add_le_add_iff_right]
  have hsplit := Nat.div_add_mod k step
  have hmod := Nat.mod_lt k hstep
  rw [Nat.mul_comm m step]
  by_cases hr : 0 < k % step
  · -- a remainder is one stride more
    rw [if_pos hr]
    constructor
    · intro h
      have := Nat.mul_le_mul_left step h
      rw [Nat.mul_add, Nat.mul_one] at this
      omega
    · intro h
      exact Nat.lt_of_mul_lt_mul_left (a := step) (by omega)
  · rw [if_neg hr, Nat.add_zero]
    constructor
    · intro h
      have := Nat.mul_le_mul_left step h
      omega
    · intro h
      exact Nat.le_of_mul_le_mul_left (by omega) hstep

/-- The stride that is `n / m` rounded down, and at least 1. -/
theorem le_stride_iff {m : ℕ} (hm : 0 < m) :
    n ≤ m * max 1 (n / m) + 1 ↔ n < m ∨ n % m ≤ 1 := by
  have hsplit := Nat.div_add_mod n m
  by_cases hlt : n < m
  · rw [Nat.div_eq_of_lt hlt, Nat.max_eq_left (Nat.zero_le 1)]
    omega
  · have hone : 1 ≤ n / m := (Nat.one_le_div_iff hm).mpr (Nat.not_lt.mp hlt)
    rw [Nat.max_eq_right hone]
    omega

/-! ## The items of a list that stay -/

section Stays

variable {α : Type*}

/-- Their indices are the indices that are kept. -/
theorem map_snd_filter_stays (step : ℕ) (l : List α) :
    (l.zipIdx.filter (stays step l.length)).map Prod.snd = kept step l.length := by
  rw [kept, List.range_eq_range', ← List.zipIdx_map_snd, List.filter_map]
  rfl

/-- They are in the order of the list. -/
theorem map_fst_filter_stays (step n : ℕ) (l : List α) :
    ((l.zipIdx.filter (stays step n)).map Prod.fst).Sublist l := by
  have hsub := (List.filter_sublist (p := stays step n) (l := l.zipIdx)).map Prod.fst
  rwa [List.zipIdx_map_fst] at hsub

/-- The first of all stays. -/
theorem head?_filter_stays (step n : ℕ) (x : α) (l : List α) :
    ((x :: l).zipIdx.filter (stays step n)).head? = some (x, 0) := by
  have hzero : stays step n (x, 0) = true := decide_eq_true (Or.inl (Nat.zero_mod step))
  rw [List.zipIdx_cons, List.filter_cons_of_pos hzero]
  rfl

/-- So does the last of all, whatever its index. -/
theorem getLast?_filter_stays (step : ℕ) (l : List α) (x : α) :
    ((l ++ [x]).zipIdx.filter (stays step (l ++ [x]).length)).getLast? = some (x, l.length) := by
  have hlast : stays step (l ++ [x]).length (x, 0 + l.length) = true := by
    refine decide_eq_true (Or.inr ?_)
    simp
  rw [List.zipIdx_append, List.filter_append, List.zipIdx_singleton,
    List.filter_cons_of_pos hlast, List.filter_nil, List.getLast?_concat, Nat.zero_add]

end Stays

end Downsample
