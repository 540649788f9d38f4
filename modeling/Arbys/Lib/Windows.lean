import Mathlib.Algebra.Order.Monoid.Defs
import Arbys.Lib.Dict

/-!
# Windows that events open

Events happen under keys, in the order of a clock. From the moment it ends, an
event may open a window of a fixed length under its key, and another may close
it. `due` reads off a trace when the window open under a key runs out. A
dictionary of deadlines, from which any that is past may have been dropped,
`Tracks` it; and an event that waits for nothing to be due comes a whole window
after every event that opened one, if nothing has closed it (`exists_due`).
-/

universe u v w

/-- Which events open a window, from when, and which close it. -/
structure Windows (ε : Type u) (κ : Type v) (α : Type w) where
  key : ε → κ
  ends : ε → α
  opens : ε → Bool
  closes : ε → Bool
  length : α

namespace Windows

variable {ε : Type u} {κ : Type v} {α : Type w} [DecidableEq κ]

section Due

variable [Add α] (w : Windows ε κ α)

/-- What one event makes of the deadline under a key. One that closes the
window does not open it. -/
def turn (k : κ) (deadline : Option α) (e : ε) : Option α :=
  if w.key e = k then
    if w.closes e then none
    else if w.opens e then some (w.ends e + w.length)
    else deadline
  else deadline

/-- When the window open under a key runs out. -/
def due (k : κ) (trace : List ε) : Option α := trace.foldl (w.turn k) none

theorem due_concat (k : κ) (trace : List ε) (e : ε) :
    w.due k (trace ++ [e]) = w.turn k (w.due k trace) e := by
  rw [due, List.foldl_append]
  rfl

theorem turn_of_ne {k : κ} {e : ε} (h : w.key e ≠ k) (deadline : Option α) :
    w.turn k deadline e = deadline := if_neg h

theorem turn_of_closes {e : ε} (h : w.closes e = true) (deadline : Option α) :
    w.turn (w.key e) deadline e = none := by
  rw [turn, if_pos rfl, if_pos h]

theorem turn_of_opens {e : ε} (hc : w.closes e = false) (ho : w.opens e = true)
    (deadline : Option α) : w.turn (w.key e) deadline e = some (w.ends e + w.length) := by
  rw [turn, if_pos rfl, if_neg (by simp [hc]), if_pos ho]

theorem turn_of_neither {k : κ} {e : ε} (hc : w.closes e = false) (ho : w.opens e = false)
    (deadline : Option α) : w.turn k deadline e = deadline := by
  simp [turn, hc, ho]

end Due

section Order

variable [AddCommMonoid α] [LinearOrder α] [IsOrderedAddMonoid α] {w : Windows ε κ α}

omit [IsOrderedAddMonoid α] in
/-- A window that is not closed runs out no sooner for what comes after. -/
theorem le_foldl_turn {k : κ} {u v : α} (huv : u ≤ v) {between : List ε}
    (hlater : ∀ e ∈ between, u ≤ w.ends e + w.length)
    (hclosed : ∀ e ∈ between, w.key e = k → w.closes e = false) :
    ∃ v', between.foldl (w.turn k) (some v) = some v' ∧ u ≤ v' := by
  induction between generalizing v with
  | nil => exact ⟨v, rfl, huv⟩
  | cons e between ih =>
      have hrest := fun {v} (huv : u ≤ v) => ih huv
        (fun x hx => hlater x (List.mem_cons_of_mem _ hx))
        fun x hx => hclosed x (List.mem_cons_of_mem _ hx)
      rw [List.foldl_cons]
      by_cases hk : w.key e = k
      · -- an opening under the key only moves the deadline back
        have hc := hclosed e List.mem_cons_self hk
        cases ho : w.opens e with
        | true =>
            rw [← hk, w.turn_of_opens hc ho, hk]
            exact hrest (hlater e List.mem_cons_self)
        | false =>
            rw [w.turn_of_neither hc ho]
            exact hrest huv
      · rw [w.turn_of_ne hk]
        exact hrest huv

/-- **What is due after an opening** that nothing has closed. -/
theorem exists_due (before : List ε) {between : List ε} {e : ε} (hopens : w.opens e = true)
    (hnot : w.closes e = false) (hlater : ∀ x ∈ between, w.ends e ≤ w.ends x)
    (hclosed : ∀ x ∈ between, w.key x = w.key e → w.closes x = false) :
    ∃ u ∈ w.due (w.key e) (before ++ e :: between), w.ends e + w.length ≤ u := by
  obtain ⟨u, hu, hle⟩ := le_foldl_turn (le_refl (w.ends e + w.length))
    (fun x hx => add_le_add_left (hlater x hx) _) hclosed
  refine ⟨u, ?_, hle⟩
  rw [Option.mem_def, due, List.foldl_append, List.foldl_cons, w.turn_of_opens hnot hopens, hu]

end Order

/-! ## Deadlines kept in a dictionary -/

variable [AddCommMonoid α] [LinearOrder α] {w : Windows ε κ α} {d : Dict κ α} {now : α}
  {trace : List ε} {k : κ}

/-- Under every key the dictionary holds the deadline of the trace, or has
dropped one that is past. -/
def Tracks (w : Windows ε κ α) (d : Dict κ α) (now : α) (trace : List ε) : Prop :=
  ∀ k, d.get? k = w.due k trace ∨ d.get? k = none ∧ ∀ u ∈ w.due k trace, u ≤ now

namespace Tracks

theorem nil (w : Windows ε κ α) (now : α) : w.Tracks Dict.empty now [] :=
  fun _ => .inl rfl

theorem later (h : w.Tracks d now trace) {now' : α} (hnow : now ≤ now') :
    w.Tracks d now' trace := by
  intro k
  rcases h k with heq | ⟨hnone, hpast⟩
  · exact .inl heq
  · exact .inr ⟨hnone, fun u hu => (hpast u hu).trans hnow⟩

/-- Nothing is due where the dictionary holds nothing that is not past. -/
theorem past (h : w.Tracks d now trace) (hk : ∀ u ∈ d.get? k, u ≤ now) :
    ∀ u ∈ w.due k trace, u ≤ now := by
  rcases h k with heq | ⟨-, hpast⟩
  · rwa [← heq]
  · exact hpast

/-- A deadline that is past may be dropped. -/
theorem lapse (h : w.Tracks d now trace) (hk : ∀ u ∈ d.get? k, u ≤ now) :
    w.Tracks (d.erase k) now trace := by
  intro j
  rw [Dict.get?_erase]
  split
  · rename_i hj
    exact .inr ⟨rfl, hj ▸ h.past hk⟩
  · exact h j

theorem opened (h : w.Tracks d now trace) {e : ε} (hc : w.closes e = false)
    (ho : w.opens e = true) :
    w.Tracks (d.set (w.key e) (w.ends e + w.length)) now (trace ++ [e]) := by
  intro j
  rw [Dict.get?_set, w.due_concat]
  split
  · rename_i hj
    rw [hj, w.turn_of_opens hc ho]
    exact .inl rfl
  · rename_i hj
    rw [w.turn_of_ne (Ne.symm hj)]
    exact h j

theorem closed (h : w.Tracks d now trace) {e : ε} (hc : w.closes e = true) :
    w.Tracks (d.erase (w.key e)) now (trace ++ [e]) := by
  intro j
  rw [Dict.get?_erase, w.due_concat]
  split
  · rename_i hj
    rw [hj, w.turn_of_closes hc]
    exact .inl rfl
  · rename_i hj
    rw [w.turn_of_ne (Ne.symm hj)]
    exact h j

theorem neither (h : w.Tracks d now trace) {e : ε} (hc : w.closes e = false)
    (ho : w.opens e = false) : w.Tracks d now (trace ++ [e]) := by
  intro j
  rw [w.due_concat, w.turn_of_neither hc ho]
  exact h j

end Tracks

/-! ## Every event and those before it -/

/-- Every event of the trace stands to those before it as `P` says. -/
def Each (P : List ε → ε → Prop) (trace : List ε) : Prop :=
  ∀ before e after, trace = before ++ e :: after → P before e

omit [DecidableEq κ] [AddCommMonoid α] [LinearOrder α] in
theorem Each.nil (P : List ε → ε → Prop) : Each P [] := by
  intro before e after h
  cases before <;> cases h

theorem Each.concat {P : List ε → ε → Prop} (h : Each P trace) {x : ε} (hx : P trace x) :
    Each P (trace ++ [x]) := by
  intro before e after hsplit
  rcases List.eq_nil_or_concat after with rfl | ⟨rest, last, rfl⟩
  · -- the event split off is the last
    obtain ⟨rfl, hlast⟩ := List.append_inj' hsplit rfl
    cases hlast
    exact hx
  · rw [List.concat_eq_append, ← List.cons_append, ← List.append_assoc] at hsplit
    exact h before e rest (List.append_inj' hsplit rfl).1

end Windows
