import Mathlib.Algebra.Order.BigOperators.Group.List
import Mathlib.Algebra.Order.Group.Unbundled.Basic
import Mathlib.Data.List.Nodup
import Mathlib.Tactic.Abel

/-!
# Meeting demands from supplies

A list of demands is met from a list of supplies, both in their order: each
demand draws on the first supply left until one of the two is used up. The
moves this takes pay out every supply and meet every demand exactly when the
supplies add up to the demands (`paid_level`, `got_level`), and no supply and
demand meet twice, so a supply makes at most as many moves as there are
demands and a demand is met in at most as many as there are supplies
(`length_paid_level_le`, `length_got_level_le`).

A plan rarely moves the exact amounts. `sum_sub_sum_round` bounds what a
rounding that never exceeds an amount, and falls short of it by at most `ε`,
leaves unpaid.
-/

universe u v

namespace Levelling

/-- One payment. -/
structure Move (κ : Type u) (α : Type v) where
  payer : κ
  payee : κ
  amount : α

variable {κ : Type u} {α : Type v} [DecidableEq κ]

/-- The moves a key pays. -/
def paidBy (moves : List (Move κ α)) (k : κ) : List (Move κ α) := moves.filter (·.payer = k)

/-- The moves that pay a key. -/
def gotBy (moves : List (Move κ α)) (k : κ) : List (Move κ α) := moves.filter (·.payee = k)

section Sums

variable [AddCommMonoid α]

/-- What a list of moves adds up to. -/
def total (moves : List (Move κ α)) : α := (moves.map (·.amount)).sum

/-- What a list of entries holds under a key. -/
def amountOf (l : List (κ × α)) (k : κ) : α := ((l.filter (·.1 = k)).map Prod.snd).sum

omit [DecidableEq κ] in
@[simp] theorem total_nil : total ([] : List (Move κ α)) = 0 := rfl

omit [DecidableEq κ] in
@[simp] theorem total_cons (m : Move κ α) (moves : List (Move κ α)) :
    total (m :: moves) = m.amount + total moves := by
  simp [total]

omit [DecidableEq κ] in
@[simp] theorem total_append (moves moves' : List (Move κ α)) :
    total (moves ++ moves') = total moves + total moves' := by
  simp [total]

@[simp] theorem amountOf_nil (k : κ) : amountOf ([] : List (κ × α)) k = 0 := rfl

theorem amountOf_cons (e : κ × α) (l : List (κ × α)) (k : κ) :
    amountOf (e :: l) k = (if e.1 = k then e.2 else 0) + amountOf l k := by
  unfold amountOf
  by_cases h : e.1 = k <;> simp [h]

theorem amountOf_of_notMem {l : List (κ × α)} {k : κ} (h : k ∉ l.map Prod.fst) :
    amountOf l k = 0 := by
  rw [amountOf, List.filter_eq_nil_iff.mpr]
  · rfl
  · intro e he hk
    exact h (List.mem_map.mpr ⟨e, he, of_decide_eq_true hk⟩)

/-- With distinct keys a key holds what its entry does. -/
theorem amountOf_of_mem {l : List (κ × α)} (hl : (l.map Prod.fst).Nodup) {k : κ} {x : α}
    (h : (k, x) ∈ l) : amountOf l k = x := by
  induction l with
  | nil => cases h
  | cons e l ih =>
      obtain ⟨hnot, hl⟩ := List.nodup_cons.mp hl
      rw [amountOf_cons]
      rcases List.mem_cons.mp h with rfl | h
      · rw [if_pos rfl, amountOf_of_notMem hnot, add_zero]
      · have hne : e.1 ≠ k := by
          intro hk
          exact hnot (hk ▸ List.mem_map.mpr ⟨(k, x), h, rfl⟩)
        rw [if_neg hne, zero_add, ih hl h]

end Sums

theorem paidBy_cons (m : Move κ α) (moves : List (Move κ α)) (k : κ) :
    paidBy (m :: moves) k = if m.payer = k then m :: paidBy moves k else paidBy moves k := by
  by_cases h : m.payer = k <;> simp [paidBy, h]

@[simp] theorem paidBy_append (moves moves' : List (Move κ α)) (k : κ) :
    paidBy (moves ++ moves') k = paidBy moves k ++ paidBy moves' k :=
  List.filter_append ..

@[simp] theorem gotBy_append (moves moves' : List (Move κ α)) (k : κ) :
    gotBy (moves ++ moves') k = gotBy moves k ++ gotBy moves' k :=
  List.filter_append ..

section Order

variable [AddCommGroup α] [LinearOrder α]

/-- Meet one demand: the moves made, and the supplies left. -/
def meet (payee : κ) : α → List (κ × α) → List (Move κ α) × List (κ × α)
  | _, [] => ([], [])
  | want, (payer, spare) :: supply =>
      if want ≤ 0 then ([], (payer, spare) :: supply)
      else if spare ≤ want then
        let rest := meet payee (want - spare) supply
        (⟨payer, payee, spare⟩ :: rest.1, rest.2)
      else ([⟨payer, payee, want⟩], (payer, spare - want) :: supply)

/-- Meet every demand. -/
def level : List (κ × α) → List (κ × α) → List (Move κ α) × List (κ × α)
  | [], supply => ([], supply)
  | (payee, want) :: demand, supply =>
      let met := meet payee want supply
      let rest := level demand met.2
      (met.1 ++ rest.1, rest.2)

variable {payee : κ} {want : α} {supply demand : List (κ × α)}

omit [DecidableEq κ] in
/-- **The induction of the inner loop**, without its demand of nothing. -/
theorem meet_cases {P : α → List (κ × α) → List (Move κ α) → List (κ × α) → Prop}
    (empty : ∀ want, P want [] [] [])
    (met : ∀ want payer spare supply, want ≤ 0 →
      P want ((payer, spare) :: supply) [] ((payer, spare) :: supply))
    (drain : ∀ want payer spare supply, 0 < want → spare ≤ want →
      P (want - spare) supply (meet payee (want - spare) supply).1
        (meet payee (want - spare) supply).2 →
      P want ((payer, spare) :: supply)
        (⟨payer, payee, spare⟩ :: (meet payee (want - spare) supply).1)
        (meet payee (want - spare) supply).2)
    (enough : ∀ want payer spare supply, 0 < want → want < spare →
      P want ((payer, spare) :: supply) [⟨payer, payee, want⟩]
        ((payer, spare - want) :: supply))
    (want : α) (supply : List (κ × α)) :
    P want supply (meet payee want supply).1 (meet payee want supply).2 := by
  induction supply generalizing want with
  | nil => exact empty want
  | cons e supply ih =>
      obtain ⟨payer, spare⟩ := e
      rw [meet]
      by_cases hwant : want ≤ 0
      · rw [if_pos hwant]
        exact met want payer spare supply hwant
      · rw [if_neg hwant]
        by_cases hspare : spare ≤ want
        · rw [if_pos hspare]
          exact drain want payer spare supply (not_le.mp hwant) hspare (ih (want - spare))
        · rw [if_neg hspare]
          exact enough want payer spare supply (not_le.mp hwant) (not_le.mp hspare)

/-! ## One demand -/

omit [DecidableEq κ] in
theorem payee_of_mem_meet {m : Move κ α} (h : m ∈ (meet payee want supply).1) :
    m.payee = payee := by
  refine meet_cases (P := fun _ _ moves _ => ∀ m ∈ moves, m.payee = payee) ?_ ?_ ?_ ?_ want supply
    m h
  · intro _ m h
    cases h
  · intro _ _ _ _ _ m h
    cases h
  · intro want payer spare supply _ _ ih m h
    rcases List.mem_cons.mp h with rfl | h
    · rfl
    · exact ih m h
  · intro want payer spare supply _ _ m h
    rw [List.mem_singleton.mp h]

omit [DecidableEq κ] in
/-- Each supply pays one demand once, in the order of the supplies. -/
theorem payers_meet_sublist (payee : κ) (want : α) (supply : List (κ × α)) :
    ((meet payee want supply).1.map (·.payer)).Sublist (supply.map Prod.fst) := by
  refine meet_cases (P := fun _ supply moves _ =>
    (moves.map (·.payer)).Sublist (supply.map Prod.fst)) ?_ ?_ ?_ ?_ want supply
  · intro _
    exact List.Sublist.slnil
  · intro _ _ _ _ _
    exact List.nil_sublist _
  · intro want payer spare supply _ _ ih
    exact ih.cons_cons payer
  · intro want payer spare supply _ _
    exact (List.nil_sublist _).cons_cons payer

omit [DecidableEq κ] in
/-- The supplies left are some of the supplies there were. -/
theorem left_meet_sublist (payee : κ) (want : α) (supply : List (κ × α)) :
    ((meet payee want supply).2.map Prod.fst).Sublist (supply.map Prod.fst) := by
  refine meet_cases (P := fun _ supply _ left =>
    (left.map Prod.fst).Sublist (supply.map Prod.fst)) ?_ ?_ ?_ ?_ want supply
  · intro _
    exact List.Sublist.slnil
  · intro _ _ _ _ _
    exact List.Sublist.refl _
  · intro want payer spare supply _ _ ih
    exact ih.cons payer
  · intro want payer spare supply _ _
    exact List.Sublist.refl _

/-- What is paid comes out of the supply. -/
theorem paid_meet (payee : κ) (want : α) (supply : List (κ × α)) (k : κ) :
    total (paidBy (meet payee want supply).1 k) + amountOf (meet payee want supply).2 k =
      amountOf supply k := by
  refine meet_cases (P := fun _ supply moves left =>
    total (paidBy moves k) + amountOf left k = amountOf supply k) ?_ ?_ ?_ ?_ want supply
  · intro _
    simp [paidBy]
  · intro _ payer spare supply _
    simp [paidBy]
  · intro want payer spare supply _ _ ih
    rw [paidBy_cons, amountOf_cons, ← ih]
    by_cases hk : payer = k
    · rw [if_pos hk, if_pos hk, total_cons, add_assoc]
    · rw [if_neg hk, if_neg hk, zero_add]
  · intro want payer spare supply _ _
    rw [paidBy_cons, amountOf_cons, amountOf_cons]
    by_cases hk : payer = k
    · simp only [if_pos hk, total_cons]
      show want + 0 + (spare - want + amountOf supply k) = spare + amountOf supply k
      abel
    · simp only [if_neg hk]
      exact zero_add _

variable [IsOrderedAddMonoid α]

omit [DecidableEq κ] in
theorem sum_snd_nonneg {l : List (κ × α)} (h : ∀ e ∈ l, 0 ≤ e.2) : 0 ≤ (l.map Prod.snd).sum := by
  apply List.sum_nonneg
  intro x hx
  obtain ⟨e, he, rfl⟩ := List.mem_map.mp hx
  exact h e he

variable (payee want) in
omit [DecidableEq κ] in
/-- With positive supplies every move is positive and so is every supply
left. -/
theorem meet_pos (hsupply : ∀ e ∈ supply, 0 < e.2) :
    (∀ m ∈ (meet payee want supply).1, 0 < m.amount) ∧
      ∀ e ∈ (meet payee want supply).2, 0 < e.2 := by
  revert hsupply
  refine meet_cases (P := fun _ supply moves left => (∀ e ∈ supply, 0 < e.2) →
    (∀ m ∈ moves, 0 < m.amount) ∧ ∀ e ∈ left, 0 < e.2) ?_ ?_ ?_ ?_ want supply
  · intro _ _
    simp
  · intro _ _ _ _ _ hsupply
    exact ⟨by simp, hsupply⟩
  · intro want payer spare supply _ _ ih hsupply
    obtain ⟨hspare, hsupply⟩ := List.forall_mem_cons.mp hsupply
    obtain ⟨hmoves, hleft⟩ := ih hsupply
    exact ⟨List.forall_mem_cons.mpr ⟨hspare, hmoves⟩, hleft⟩
  · intro want payer spare supply hwant hlt hsupply
    obtain ⟨-, hsupply⟩ := List.forall_mem_cons.mp hsupply
    refine ⟨?_, List.forall_mem_cons.mpr ⟨sub_pos.mpr hlt, hsupply⟩⟩
    intro m hm
    rw [List.mem_singleton.mp hm]
    exact hwant

variable (payee) in
omit [DecidableEq κ] in
/-- **One demand**: it is met whole, if the supplies left suffice for it. -/
theorem total_meet (hwant : 0 ≤ want) (henough : want ≤ (supply.map Prod.snd).sum) :
    total (meet payee want supply).1 = want ∧
      ((meet payee want supply).2.map Prod.snd).sum = (supply.map Prod.snd).sum - want := by
  revert hwant henough
  refine meet_cases (P := fun want supply moves left => 0 ≤ want →
    want ≤ (supply.map Prod.snd).sum →
      total moves = want ∧ (left.map Prod.snd).sum = (supply.map Prod.snd).sum - want)
    ?_ ?_ ?_ ?_ want supply
  · intro want hwant henough
    have hzero : want = 0 := le_antisymm (by simpa using henough) hwant
    simp [total, hzero]
  · intro want payer spare supply hle hwant _
    have hzero : want = 0 := le_antisymm hle hwant
    simp [total, hzero]
  · intro want payer spare supply _ hspare ih _ henough
    rw [List.map_cons, List.sum_cons] at henough ⊢
    have hrest : want - spare ≤ (supply.map Prod.snd).sum := by
      rw [sub_le_iff_le_add']
      exact henough
    obtain ⟨htotal, hleft⟩ := ih (sub_nonneg.mpr hspare) hrest
    constructor
    · rw [total_cons, htotal]
      abel
    · rw [hleft]
      abel
  · intro want payer spare supply _ _ _ _
    constructor
    · simp [total]
    · simp only [List.map_cons, List.sum_cons]
      abel

/-! ## All demands -/

omit [DecidableEq κ] [IsOrderedAddMonoid α] in
theorem payee_of_mem_level {m : Move κ α} (h : m ∈ (level demand supply).1) :
    m.payee ∈ demand.map Prod.fst := by
  induction demand generalizing supply with
  | nil => cases h
  | cons e demand ih =>
      obtain ⟨payee, want⟩ := e
      rcases List.mem_append.mp h with h | h
      · rw [payee_of_mem_meet h]
        exact List.mem_cons_self
      · exact List.mem_cons_of_mem _ (ih h)

omit [DecidableEq κ] [IsOrderedAddMonoid α] in
theorem payer_of_mem_level {m : Move κ α} (h : m ∈ (level demand supply).1) :
    m.payer ∈ supply.map Prod.fst := by
  induction demand generalizing supply with
  | nil => cases h
  | cons e demand ih =>
      obtain ⟨payee, want⟩ := e
      rcases List.mem_append.mp h with h | h
      · exact (payers_meet_sublist payee want supply).subset (List.mem_map_of_mem h)
      · exact (left_meet_sublist payee want supply).subset (ih h)

variable (demand) in
omit [DecidableEq κ] in
theorem level_pos (hsupply : ∀ e ∈ supply, 0 < e.2) :
    (∀ m ∈ (level demand supply).1, 0 < m.amount) ∧
      ∀ e ∈ (level demand supply).2, 0 < e.2 := by
  induction demand generalizing supply with
  | nil => exact ⟨by simp [level], hsupply⟩
  | cons e demand ih =>
      obtain ⟨payee, want⟩ := e
      obtain ⟨hmoves, hleft⟩ := meet_pos payee want hsupply
      obtain ⟨hrest, hlast⟩ := ih hleft
      refine ⟨fun m hm => ?_, hlast⟩
      rcases List.mem_append.mp hm with hm | hm
      · exact hmoves m hm
      · exact hrest m hm

omit [IsOrderedAddMonoid α] in
theorem paid_level (demand supply : List (κ × α)) (k : κ) :
    total (paidBy (level demand supply).1 k) + amountOf (level demand supply).2 k =
      amountOf supply k := by
  induction demand generalizing supply with
  | nil => simp [level, paidBy, total]
  | cons e demand ih =>
      obtain ⟨payee, want⟩ := e
      have hmeet := paid_meet payee want supply k
      have hrest := ih (meet payee want supply).2
      rw [level, paidBy_append, total_append, add_assoc, hrest, hmeet]

omit [DecidableEq κ] in
theorem sum_left_level (hdemand : ∀ e ∈ demand, 0 ≤ e.2)
    (henough : (demand.map Prod.snd).sum ≤ (supply.map Prod.snd).sum) :
    ((level demand supply).2.map Prod.snd).sum =
      (supply.map Prod.snd).sum - (demand.map Prod.snd).sum := by
  induction demand generalizing supply with
  | nil => simp [level]
  | cons e demand ih =>
      obtain ⟨payee, want⟩ := e
      obtain ⟨hwant, hdemand⟩ := List.forall_mem_cons.mp hdemand
      rw [List.map_cons, List.sum_cons] at henough ⊢
      have hfirst : want ≤ (supply.map Prod.snd).sum :=
        le_trans (le_add_of_nonneg_right (sum_snd_nonneg hdemand)) henough
      obtain ⟨-, hleft⟩ := total_meet payee hwant hfirst
      have hrest : (demand.map Prod.snd).sum ≤ ((meet payee want supply).2.map Prod.snd).sum := by
        rw [hleft, le_sub_iff_add_le']
        exact henough
      rw [level, ih hdemand hrest, hleft]
      abel

/-- **Every demand is met**, when the supplies suffice for all of them. -/
theorem got_level (hdemand : ∀ e ∈ demand, 0 ≤ e.2)
    (henough : (demand.map Prod.snd).sum ≤ (supply.map Prod.snd).sum) (k : κ) :
    total (gotBy (level demand supply).1 k) = amountOf demand k := by
  induction demand generalizing supply with
  | nil => simp [level, gotBy, total, amountOf]
  | cons e demand ih =>
      obtain ⟨payee, want⟩ := e
      obtain ⟨hwant, hdemand⟩ := List.forall_mem_cons.mp hdemand
      rw [List.map_cons, List.sum_cons] at henough
      have hfirst : want ≤ (supply.map Prod.snd).sum :=
        le_trans (le_add_of_nonneg_right (sum_snd_nonneg hdemand)) henough
      obtain ⟨htotal, hleft⟩ := total_meet payee hwant hfirst
      have hrest : (demand.map Prod.snd).sum ≤ ((meet payee want supply).2.map Prod.snd).sum := by
        rw [hleft, le_sub_iff_add_le']
        exact henough
      have ih := ih hdemand hrest
      have hmeet : gotBy (meet payee want supply).1 k =
          if payee = k then (meet payee want supply).1 else [] := by
        unfold gotBy
        split
        · rename_i hk
          rw [List.filter_eq_self]
          intro m hm
          simp [payee_of_mem_meet hm, hk]
        · rename_i hk
          rw [List.filter_eq_nil_iff]
          intro m hm
          simp [payee_of_mem_meet hm, hk]
      rw [level, gotBy_append, total_append, hmeet, ih, amountOf_cons]
      by_cases hk : payee = k
      · rw [if_pos hk, if_pos hk, htotal]
      · rw [if_neg hk, if_neg hk, total_nil]

/-- **Every supply is paid out**, when the demands need all of them. -/
theorem paid_level_eq (hsupply : ∀ e ∈ supply, 0 < e.2) (hdemand : ∀ e ∈ demand, 0 ≤ e.2)
    (hsum : (demand.map Prod.snd).sum = (supply.map Prod.snd).sum) (k : κ) :
    total (paidBy (level demand supply).1 k) = amountOf supply k := by
  have hleft : (level demand supply).2 = [] := by
    have hsum0 := sum_left_level hdemand (le_of_eq hsum)
    rw [hsum, sub_self] at hsum0
    cases hl : (level demand supply).2 with
    | nil => rfl
    | cons e left =>
        have hpos := (level_pos demand hsupply).2
        rw [hl] at hpos hsum0
        obtain ⟨he, hrest⟩ := List.forall_mem_cons.mp hpos
        rw [List.map_cons, List.sum_cons] at hsum0
        have hnonneg : 0 ≤ (left.map Prod.snd).sum :=
          sum_snd_nonneg fun e he => le_of_lt (hrest e he)
        exact absurd hsum0 (ne_of_gt (add_pos_of_pos_of_nonneg he hnonneg))
  have hpaid := paid_level demand supply k
  rw [hleft] at hpaid
  simpa [amountOf] using hpaid

/-! ## How many moves -/

variable (demand) in
omit [IsOrderedAddMonoid α] in
/-- A supply pays each demand once at the most. -/
theorem length_paid_level_le (hsupply : (supply.map Prod.fst).Nodup) (k : κ) :
    (paidBy (level demand supply).1 k).length ≤ demand.length := by
  induction demand generalizing supply with
  | nil => simp [level, paidBy]
  | cons e demand ih =>
      obtain ⟨payee, want⟩ := e
      have hfirst : (paidBy (meet payee want supply).1 k).length ≤ 1 := by
        have hnodup := hsupply.sublist (payers_meet_sublist payee want supply)
        have hcount : ((meet payee want supply).1.map (·.payer)).count k ≤ 1 :=
          List.nodup_iff_count_le_one.mp hnodup k
        rw [List.count_eq_length_filter, List.filter_map, List.length_map] at hcount
        exact hcount
      have hrest := ih (hsupply.sublist (left_meet_sublist payee want supply))
      rw [level, paidBy_append, List.length_append, List.length_cons]
      omega

variable (supply) in
omit [IsOrderedAddMonoid α] in
/-- A demand is met by each supply once at the most. -/
theorem length_got_level_le (hdemand : (demand.map Prod.fst).Nodup) (k : κ) :
    (gotBy (level demand supply).1 k).length ≤ supply.length := by
  induction demand generalizing supply with
  | nil => simp [level, gotBy]
  | cons e demand ih =>
      obtain ⟨payee, want⟩ := e
      obtain ⟨hpayee, hdemand⟩ := List.nodup_cons.mp hdemand
      rw [level, gotBy_append, List.length_append]
      by_cases hk : payee = k
      · -- its own demand comes first, and no later one is its
        have hnone : gotBy (level demand (meet payee want supply).2).1 k = [] := by
          rw [gotBy, List.filter_eq_nil_iff]
          intro m hm hm'
          have hmem := payee_of_mem_level hm
          rw [of_decide_eq_true hm', ← hk] at hmem
          exact hpayee hmem
        have hlen := (payers_meet_sublist payee want supply).length_le
        rw [List.length_map, List.length_map] at hlen
        have hle : (gotBy (meet payee want supply).1 k).length ≤
            (meet payee want supply).1.length := List.length_filter_le ..
        rw [hnone, List.length_nil]
        omega
      · have hnone : gotBy (meet payee want supply).1 k = [] := by
          rw [gotBy, List.filter_eq_nil_iff]
          intro m hm
          simp [payee_of_mem_meet hm, hk]
        have hrest := ih (meet payee want supply).2 hdemand
        have hlen := (left_meet_sublist payee want supply).length_le
        rw [List.length_map, List.length_map] at hlen
        rw [hnone, List.length_nil]
        omega

/-! ## Rounded amounts -/

/-- A rounding that never exceeds an amount and falls short of it by at most
`ε` leaves at most `ε` a move unpaid. -/
theorem sum_sub_sum_round (round : α → α) {ε : α} {amounts : List α}
    (hle : ∀ x ∈ amounts, round x ≤ x) (hshort : ∀ x ∈ amounts, x - round x ≤ ε) :
    0 ≤ amounts.sum - (amounts.map round).sum ∧
      amounts.sum - (amounts.map round).sum ≤ amounts.length • ε := by
  induction amounts with
  | nil => simp
  | cons x amounts ih =>
      obtain ⟨hx, hle⟩ := List.forall_mem_cons.mp hle
      obtain ⟨hxs, hshort⟩ := List.forall_mem_cons.mp hshort
      obtain ⟨ihl, ihu⟩ := ih hle hshort
      rw [List.map_cons, List.sum_cons, List.sum_cons, add_sub_add_comm, List.length_cons,
        succ_nsmul']
      exact ⟨add_nonneg (sub_nonneg.mpr hx) ihl, add_le_add hxs ihu⟩

end Order

end Levelling
