import Arbys.Types

/-!
# How much of an arbitrage is tradeable

`shared/qty.py`. Depth and budget bound a quantity, which is then rounded down
to a multiple of the tick.
-/

namespace Arbys

/-- `quantize(Decimal("1"), rounding=ROUND_DOWN)`: towards zero. -/
def truncate (x : ℚ) : ℤ := if 0 ≤ x then ⌊x⌋ else ⌈x⌉

/-- `_round_down_tick`. -/
def roundDownTick (value tick : ℚ) : ℚ :=
  if tick ≤ 0 then value else truncate (value / tick) * tick

/-- `LEGACY_UNBOUNDED_QTY`. -/
def legacyUnboundedQty : ℚ := 100

/-- `min(known) if known else None`. -/
def minKnown : List ℚ → Option ℚ
  | [] => none
  | d :: rest => some (rest.foldl min d)

/-- The bound before rounding. -/
def boundedQty (unitCost : ℚ) (depths : List (Option ℚ)) (maxStake : Option ℚ) : ℚ :=
  let qty := minKnown (depths.filterMap id)
  let qty :=
    match maxStake with
    | some stake =>
        if 0 < stake ∧ 0 < unitCost then
          let budgetQty := stake / unitCost
          match qty with
          | none => some budgetQty
          | some q => some (min q budgetQty)
        else qty
    | none => qty
  qty.getD legacyUnboundedQty

/-- `tradeable_qty`: an explicit size of zero on any leg is known empty,
`none` is unknown and imposes nothing. -/
def tradeableQty (unitCost : ℚ) (depths : List (Option ℚ)) (maxStake : Option ℚ)
    (tick : ℚ) : ℚ :=
  if depths.any fun d => d.any (· ≤ 0) then 0
  else
    let qty := boundedQty unitCost depths maxStake
    let qty := if 0 < tick then roundDownTick qty tick else qty
    if 0 < qty then qty else 0

theorem roundDownTick_le {value tick : ℚ} (hv : 0 ≤ value) : roundDownTick value tick ≤ value := by
  simp only [roundDownTick]
  split
  · exact le_refl value
  · rename_i ht
    have ht : 0 < tick := not_le.mp ht
    have hdiv : 0 ≤ value / tick := div_nonneg hv (le_of_lt ht)
    simp only [truncate, if_pos hdiv]
    calc (⌊value / tick⌋ : ℚ) * tick ≤ value / tick * tick :=
          mul_le_mul_of_nonneg_right (Int.floor_le _) (le_of_lt ht)
      _ = value := div_mul_cancel₀ value (ne_of_gt ht)

theorem roundDownTick_nonpos {value tick : ℚ} (hv : value ≤ 0) : roundDownTick value tick ≤ 0 := by
  simp only [roundDownTick]
  split
  · exact hv
  · rename_i ht
    have ht : 0 < tick := not_le.mp ht
    have hdiv : value / tick ≤ 0 := div_nonpos_of_nonpos_of_nonneg hv (le_of_lt ht)
    refine mul_nonpos_of_nonpos_of_nonneg ?_ (le_of_lt ht)
    simp only [truncate]
    split
    · exact_mod_cast le_trans (Int.floor_le _) hdiv
    · exact_mod_cast Int.ceil_le.mpr (by simpa using hdiv)

theorem foldl_min_le_init (l : List ℚ) (d : ℚ) : l.foldl min d ≤ d := by
  induction l generalizing d with
  | nil => exact le_refl d
  | cons a l ih => exact le_trans (ih (min d a)) (min_le_left d a)

theorem foldl_min_mem (l : List ℚ) (d : ℚ) : l.foldl min d ∈ d :: l := by
  induction l generalizing d with
  | nil => exact List.mem_cons_self
  | cons x l ih =>
      rcases List.mem_cons.mp (ih (min d x)) with hhead | htail
      · rw [List.foldl_cons, hhead]
        rcases min_choice d x with h | h
        · rw [h]
          exact List.mem_cons_self
        · rw [h]
          exact List.mem_cons_of_mem _ List.mem_cons_self
      · exact List.mem_cons_of_mem _ (List.mem_cons_of_mem _ htail)

theorem foldl_min_le_mem {l : List ℚ} {d x : ℚ} (h : x ∈ l) : l.foldl min d ≤ x := by
  induction l generalizing d with
  | nil => cases h
  | cons a l ih =>
      rcases List.mem_cons.mp h with rfl | h
      · exact le_trans (foldl_min_le_init l _) (min_le_right d x)
      · exact ih h

/-- The bound is at most every known depth. -/
theorem boundedQty_le_depth {unitCost : ℚ} {depths : List (Option ℚ)} {maxStake : Option ℚ}
    {x : ℚ} (h : some x ∈ depths) : boundedQty unitCost depths maxStake ≤ x := by
  have hx : x ∈ depths.filterMap id := List.mem_filterMap.mpr ⟨some x, h, rfl⟩
  cases hk : depths.filterMap id with
  | nil => rw [hk] at hx; cases hx
  | cons d rest =>
      have hmin : rest.foldl min d ≤ x := by
        rw [hk] at hx
        rcases List.mem_cons.mp hx with rfl | hx
        · exact foldl_min_le_init rest x
        · exact foldl_min_le_mem hx
      simp only [boundedQty, hk, minKnown]
      cases maxStake with
      | none => exact hmin
      | some stake =>
          simp only
          split
          · exact le_trans (min_le_left _ _) hmin
          · exact hmin

/-- **Depth**: a positive tradeable quantity is at most every known size, and
no known size is empty. -/
theorem tradeableQty_depth {unitCost : ℚ} {depths : List (Option ℚ)} {maxStake : Option ℚ}
    {tick x : ℚ} (hq : 0 < tradeableQty unitCost depths maxStake tick)
    (h : some x ∈ depths) :
    0 < x ∧ tradeableQty unitCost depths maxStake tick ≤ x := by
  unfold tradeableQty at hq ⊢
  by_cases hany : (depths.any fun d => d.any (· ≤ 0)) = true
  · rw [if_pos hany] at hq
    exact absurd hq (lt_irrefl 0)
  · rw [if_neg hany] at hq ⊢
    have hx : 0 < x := by
      by_contra hx
      exact hany (List.any_eq_true.mpr ⟨some x, h, by simpa using not_lt.mp hx⟩)
    refine ⟨hx, ?_⟩
    have hle : boundedQty unitCost depths maxStake ≤ x := boundedQty_le_depth h
    have hround : (if 0 < tick then roundDownTick (boundedQty unitCost depths maxStake) tick
        else boundedQty unitCost depths maxStake) ≤ x := by
      split
      · rcases le_total 0 (boundedQty unitCost depths maxStake) with h0 | h0
        · exact le_trans (roundDownTick_le h0) hle
        · exact le_trans (roundDownTick_nonpos h0) (le_of_lt hx)
      · exact hle
    simp only
    generalize (if 0 < tick then roundDownTick (boundedQty unitCost depths maxStake) tick
        else boundedQty unitCost depths maxStake) = rounded at hround ⊢
    split
    · exact hround
    · exact le_of_lt hx

/-! ## The largest quantity that fits -/

/-- A positive multiple of the tick inside every bound: each size that is
known, the budget, and the ceiling that stands where there is neither. -/
structure Fits (cost : ℚ → ℚ) (depths : List (Option ℚ)) (maxStake : Option ℚ)
    (tick q : ℚ) : Prop where
  pos : 0 < q
  multiple : ∃ k : ℕ, q = k * tick
  depth : ∀ size, some size ∈ depths → q ≤ size
  budget : ∀ stake ∈ maxStake, cost q ≤ stake
  ceiling : (∀ d ∈ depths, d = none) → maxStake = none → q ≤ legacyUnboundedQty

theorem le_foldl_min_iff {l : List ℚ} {d q : ℚ} :
    q ≤ l.foldl min d ↔ q ≤ d ∧ ∀ x ∈ l, q ≤ x := by
  induction l generalizing d with
  | nil => simp
  | cons a l ih => simp [ih, and_assoc]

section Bounds

variable {unitCost : ℚ} {cost : ℚ → ℚ} {depths : List (Option ℚ)} {maxStake : Option ℚ}
  {tick q : ℚ}

/-- What lies below the bound is what every known size, the budget and the
ceiling allow. -/
theorem le_boundedQty_iff (hunit : 0 < unitCost) (hstake : ∀ stake ∈ maxStake, 0 < stake) :
    q ≤ boundedQty unitCost depths maxStake ↔
      (∀ size, some size ∈ depths → q ≤ size) ∧ (∀ stake ∈ maxStake, q * unitCost ≤ stake) ∧
        ((∀ d ∈ depths, d = none) → maxStake = none → q ≤ legacyUnboundedQty) := by
  have hknown : ∀ size, some size ∈ depths ↔ size ∈ depths.filterMap id := by
    intro size
    simp
  have hempty : (∀ d ∈ depths, d = none) ↔ depths.filterMap id = [] := by
    rw [List.filterMap_eq_nil_iff]
    rfl
  simp only [hknown, hempty, boundedQty]
  cases hk : depths.filterMap id with
  | nil =>
      cases maxStake with
      | none => simp [minKnown]
      | some stake =>
          have hpos : 0 < stake := hstake stake rfl
          simp [minKnown, hpos, hunit, le_div_iff₀ hunit]
  | cons d rest =>
      cases maxStake with
      | none => simp [minKnown, le_foldl_min_iff]
      | some stake =>
          have hpos : 0 < stake := hstake stake rfl
          simp [minKnown, hpos, hunit, le_div_iff₀ hunit, le_foldl_min_iff, and_assoc]

/-- Rounding down to a tick is the largest multiple that is not above. -/
theorem le_roundDownTick_iff {value : ℚ} (hv : 0 ≤ value) (ht : 0 < tick) (k : ℕ) :
    k * tick ≤ roundDownTick value tick ↔ k * tick ≤ value := by
  have hdiv : 0 ≤ value / tick := div_nonneg hv (le_of_lt ht)
  rw [roundDownTick, if_neg (not_le.mpr ht), truncate, if_pos hdiv, mul_le_mul_iff_left₀ ht,
    ← le_div_iff₀ ht]
  exact_mod_cast (Int.le_floor : (k : ℤ) ≤ ⌊value / tick⌋ ↔ ((k : ℤ) : ℚ) ≤ value / tick)

theorem roundDownTick_eq_mul {value : ℚ} (hv : 0 ≤ value) (ht : 0 < tick) :
    ∃ k : ℕ, roundDownTick value tick = k * tick := by
  have hdiv : 0 ≤ value / tick := div_nonneg hv (le_of_lt ht)
  refine ⟨⌊value / tick⌋.toNat, ?_⟩
  rw [roundDownTick, if_neg (not_le.mpr ht), truncate, if_pos hdiv]
  have hcast : ((⌊value / tick⌋.toNat : ℤ)) = ⌊value / tick⌋ :=
    Int.toNat_of_nonneg (Int.floor_nonneg.mpr hdiv)
  rw [← hcast]
  norm_cast

theorem tradeableQty_nonneg (unitCost : ℚ) (depths : List (Option ℚ)) (maxStake : Option ℚ)
    (tick : ℚ) : 0 ≤ tradeableQty unitCost depths maxStake tick := by
  unfold tradeableQty
  split
  · exact le_refl 0
  · simp only
    generalize (if 0 < tick then roundDownTick (boundedQty unitCost depths maxStake) tick
      else boundedQty unitCost depths maxStake) = rounded
    split
    · rename_i hpos
      exact le_of_lt hpos
    · exact le_refl 0

variable (depths) in
/-- **Sizing**: nothing that fits is larger than the tradeable quantity, which
fits itself unless it is zero. -/
theorem tradeableQty_spec (hcost : ∀ q, 0 < q → cost q = q * unitCost) (hunit : 0 < unitCost)
    (hstake : ∀ stake ∈ maxStake, 0 < stake) (ht : 0 < tick) :
    (∀ q, Fits cost depths maxStake tick q → q ≤ tradeableQty unitCost depths maxStake tick) ∧
      (0 < tradeableQty unitCost depths maxStake tick →
        Fits cost depths maxStake tick (tradeableQty unitCost depths maxStake tick)) := by
  unfold tradeableQty
  by_cases hany : (depths.any fun d => d.any (· ≤ 0)) = true
  · -- a size known to be empty leaves nothing that fits
    rw [if_pos hany]
    refine ⟨fun q hq => ?_, fun h => absurd h (lt_irrefl 0)⟩
    obtain ⟨d, hd, hempty⟩ := List.any_eq_true.mp hany
    cases d with
    | none => cases hempty
    | some size =>
        have hsize : size ≤ 0 := by simpa using hempty
        exact le_trans (hq.depth size hd) hsize
  rw [if_neg hany]
  simp only [if_pos ht]
  have hpos : ∀ size, some size ∈ depths → 0 < size := by
    intro size hmem
    by_contra hle
    exact hany (List.any_eq_true.mpr ⟨some size, hmem, by simpa using not_lt.mp hle⟩)
  have hbound : 0 ≤ boundedQty unitCost depths maxStake := by
    rw [le_boundedQty_iff hunit hstake]
    refine ⟨fun size hmem => le_of_lt (hpos size hmem), fun stake hs => ?_, fun _ _ => ?_⟩
    · rw [zero_mul]
      exact le_of_lt (hstake stake hs)
    · norm_num [legacyUnboundedQty]
  constructor
  · intro q hq
    obtain ⟨k, hk⟩ := hq.multiple
    have hle : q ≤ boundedQty unitCost depths maxStake := by
      rw [le_boundedQty_iff hunit hstake]
      refine ⟨hq.depth, fun stake hs => ?_, hq.ceiling⟩
      rw [← hcost q hq.pos]
      exact hq.budget stake hs
    have hround : q ≤ roundDownTick (boundedQty unitCost depths maxStake) tick := by
      rw [hk] at hle ⊢
      exact (le_roundDownTick_iff hbound ht k).mpr hle
    rw [if_pos (lt_of_lt_of_le hq.pos hround)]
    exact hround
  · intro hq
    split at hq
    · rename_i hround
      rw [if_pos hround]
      have hle : roundDownTick (boundedQty unitCost depths maxStake) tick ≤
          boundedQty unitCost depths maxStake := roundDownTick_le hbound
      obtain ⟨hdepth, hbudget, hceiling⟩ := (le_boundedQty_iff hunit hstake).mp hle
      refine ⟨hround, roundDownTick_eq_mul hbound ht, hdepth, fun stake hs => ?_, hceiling⟩
      rw [hcost _ hround]
      exact hbudget stake hs
    · exact absurd hq (lt_irrefl 0)

/-- A positive tradeable quantity is the largest that fits. -/
theorem tradeableQty_eq_iff (hcost : ∀ q, 0 < q → cost q = q * unitCost)
    (hunit : 0 < unitCost) (hstake : ∀ stake ∈ maxStake, 0 < stake) (ht : 0 < tick) (hq : 0 < q) :
    tradeableQty unitCost depths maxStake tick = q ↔
      IsGreatest {q | Fits cost depths maxStake tick q} q := by
  obtain ⟨hmax, hfits⟩ := tradeableQty_spec depths hcost hunit hstake ht
  constructor
  · rintro rfl
    exact ⟨hfits hq, fun q' hq' => hmax q' hq'⟩
  · intro h
    have hle : q ≤ tradeableQty unitCost depths maxStake tick := hmax q h.1
    exact le_antisymm (h.2 (hfits (lt_of_lt_of_le hq hle))) hle

end Bounds

end Arbys
