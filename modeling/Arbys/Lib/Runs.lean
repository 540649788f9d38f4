import Mathlib.Algebra.Group.Basic
import Mathlib.Data.List.Basic
import Mathlib.Data.List.Forall2

/-!
# Runs of a step function

A system is a total step function `step : σ → ι → σ`; an input that is not
enabled in a state leaves it alone. A run folds the step over a list of
inputs. `Guarded step ok s as` says that every step of the run meets the
condition `ok` in the state it is taken from, and `Guarded.inv` is the
induction every safety result here goes through: what holds at the start and
is kept by each step that meets the condition holds wherever such a run ends.
Since prefixes of guarded runs are guarded (`Guarded.of_append`), that is
every state the run reaches.
-/

universe u v w

namespace Runs

variable {σ : Type u} {ι : Type v} {τ : Type w}

/-- The state after a list of inputs. -/
def run (step : σ → ι → σ) (s : σ) (as : List ι) : σ := as.foldl step s

/-- Every step meets `ok` in the state it is taken from. -/
def Guarded (step : σ → ι → σ) (ok : σ → ι → Prop) : σ → List ι → Prop
  | _, [] => True
  | s, a :: as => ok s a ∧ Guarded step ok (step s a) as

variable {step : σ → ι → σ} {ok : σ → ι → Prop}

/-- Whether a run meets its condition can be computed when it can for a
step. -/
instance decidableGuarded (step : σ → ι → σ) (ok : σ → ι → Prop)
    [∀ s a, Decidable (ok s a)] : ∀ s as, Decidable (Guarded step ok s as)
  | _, [] => isTrue trivial
  | s, a :: as =>
      have := decidableGuarded step ok (step s a) as
      inferInstanceAs (Decidable (ok s a ∧ Guarded step ok (step s a) as))

@[simp] theorem run_nil (s : σ) : run step s [] = s := rfl

@[simp] theorem run_cons (s : σ) (a : ι) (as : List ι) :
    run step s (a :: as) = run step (step s a) as := rfl

theorem run_append (s : σ) (as bs : List ι) :
    run step s (as ++ bs) = run step (run step s as) bs :=
  List.foldl_append ..

theorem guarded_append {s : σ} {as bs : List ι} :
    Guarded step ok s (as ++ bs) ↔
      Guarded step ok s as ∧ Guarded step ok (run step s as) bs := by
  induction as generalizing s with
  | nil => simp [Guarded]
  | cons a as ih => simp [Guarded, ih, and_assoc]

theorem Guarded.of_append {s : σ} {as : List ι} (bs : List ι)
    (h : Guarded step ok s (as ++ bs)) : Guarded step ok s as :=
  (guarded_append.mp h).1

theorem Guarded.mono {ok' : σ → ι → Prop} (himp : ∀ s a, ok s a → ok' s a)
    {s : σ} {as : List ι} (h : Guarded step ok s as) : Guarded step ok' s as := by
  induction as generalizing s with
  | nil => trivial
  | cons a as ih => exact ⟨himp s a h.1, ih h.2⟩

/-- Two systems that take the same steps wherever the condition is met have
the same runs that meet it. -/
theorem Guarded.congr {step' : σ → ι → σ} (hstep : ∀ s a, ok s a → step' s a = step s a)
    {s : σ} {as : List ι} (h : Guarded step' ok s as) :
    Guarded step ok s as ∧ run step' s as = run step s as := by
  induction as generalizing s with
  | nil => exact ⟨trivial, rfl⟩
  | cons a as ih =>
      obtain ⟨hok, hrest⟩ := h
      obtain ⟨hguard, hrun⟩ := ih hrest
      rw [hstep s a hok] at hguard hrun
      refine ⟨⟨hok, hguard⟩, ?_⟩
      rw [run_cons, run_cons, hstep s a hok, hrun]

/-- **The guarded invariant rule.** -/
theorem Guarded.inv {I : σ → Prop} (hstep : ∀ s a, I s → ok s a → I (step s a))
    {s : σ} {as : List ι} (h : Guarded step ok s as) (h0 : I s) : I (run step s as) := by
  induction as generalizing s with
  | nil => exact h0
  | cons a as ih => exact ih h.2 (hstep s a h0 h.1)

/-- **The invariant rule**: no condition on the steps. -/
theorem run_inv {I : σ → Prop} (hstep : ∀ s a, I s → I (step s a))
    {s : σ} (as : List ι) (h0 : I s) : I (run step s as) := by
  induction as generalizing s with
  | nil => exact h0
  | cons a as ih => exact ih (hstep s a h0)

/-- The same, where the inputs of the run alone keep it. -/
theorem run_inv_mem {I : σ → Prop} {as : List ι} (hstep : ∀ s, ∀ a ∈ as, I s → I (step s a))
    {s : σ} (h0 : I s) : I (run step s as) := by
  induction as generalizing s with
  | nil => exact h0
  | cons a as ih =>
      exact ih (fun t b hb => hstep t b (List.mem_cons_of_mem _ hb))
        (hstep s a List.mem_cons_self h0)

/-- **The exact condition**: where each step keeps an invariant exactly if it
meets its condition, the invariant holds all along a run exactly if every step
of it does. -/
theorem forall_prefix_iff {I : σ → Prop} {as : List ι} {s : σ} (h0 : I s)
    (hstep : ∀ s, ∀ a ∈ as, I s → (I (step s a) ↔ ok s a)) :
    (∀ before after, as = before ++ after → I (run step s before)) ↔ Guarded step ok s as := by
  induction as generalizing s with
  | nil =>
      refine ⟨fun _ => trivial, fun _ before after hsplit => ?_⟩
      rw [(List.append_eq_nil_iff.mp hsplit.symm).1]
      exact h0
  | cons a as ih =>
      have hrest := fun t b hb => hstep t b (List.mem_cons_of_mem a hb)
      have hfirst := hstep s a List.mem_cons_self h0
      constructor
      · intro h
        have hnext : I (step s a) := h [a] as rfl
        refine ⟨hfirst.mp hnext, (ih hnext hrest).mp fun before after hsplit => ?_⟩
        exact h (a :: before) after (by rw [hsplit]; rfl)
      · rintro ⟨hok, hguarded⟩ before after hsplit
        have hnext : I (step s a) := hfirst.mpr hok
        cases before with
        | nil => exact h0
        | cons b before =>
            obtain ⟨rfl, htail⟩ := List.cons_eq_cons.mp hsplit
            exact (ih hnext hrest).mpr hguarded before after htail

/-! ## Quantities read off the steps of a run -/

section Tally

variable {α : Type w}

/-- The sum, over the steps of a run, of a quantity `q` read off each step. -/
def tally [AddCommMonoid α] (step : σ → ι → σ) (q : σ → ι → α) : σ → List ι → α
  | _, [] => 0
  | s, a :: as => q s a + tally step q (step s a) as

theorem tally_add [AddCommMonoid α] (q r : σ → ι → α) (s : σ) (as : List ι) :
    tally step (fun s a => q s a + r s a) s as = tally step q s as + tally step r s as := by
  induction as generalizing s with
  | nil => simp [tally]
  | cons a as ih => simp only [tally, ih, add_add_add_comm]

theorem tally_sub [AddCommGroup α] (q r : σ → ι → α) (s : σ) (as : List ι) :
    tally step (fun s a => q s a - r s a) s as = tally step q s as - tally step r s as := by
  rw [eq_sub_iff_add_eq, ← tally_add]
  simp only [sub_add_cancel]

/-- **The telescoping rule**: a potential that every step of the run moves by
`q` ends where the tally of `q` says. -/
theorem Guarded.telescope [AddCommGroup α] {q : σ → ι → α} {Φ : σ → α} {I : σ → Prop}
    (hinv : ∀ s a, I s → ok s a → I (step s a))
    (hstep : ∀ s a, I s → ok s a → Φ (step s a) = Φ s + q s a)
    {s : σ} {as : List ι} (h : Guarded step ok s as) (h0 : I s) :
    Φ (run step s as) = Φ s + tally step q s as := by
  induction as generalizing s with
  | nil => simp [tally]
  | cons a as ih =>
      rw [run_cons, ih h.2 (hinv s a h0 h.1), hstep s a h0 h.1, tally, add_assoc]

end Tally

/-! ## Loops that may raise -/

/-- What every turn of a fallible loop keeps holds when the loop returns. -/
theorem foldlM_inv {ε : Type w} {f : σ → ι → Except ε σ} {I : σ → Prop} {as : List ι}
    (hstep : ∀ s a s', a ∈ as → I s → f s a = .ok s' → I s') {s r : σ} (h0 : I s)
    (h : as.foldlM f s = .ok r) : I r := by
  induction as generalizing s with
  | nil =>
      cases h
      exact h0
  | cons a as ih =>
      rw [List.foldlM_cons] at h
      cases hf : f s a with
      | error e => rw [hf] at h; cases h
      | ok s' =>
          rw [hf] at h
          exact ih (fun t b t' hb => hstep t b t' (List.mem_cons_of_mem _ hb))
            (hstep s a s' List.mem_cons_self h0 hf) h

/-! ### Loops that keep what was done before a raise -/

/-- A loop that collects: what it collects comes from the items, one after the
other, where each step adds at most what its own item is filed under. -/
theorem foldlM_sublist {ε : Type w} {α β κ : Type v} {f : List β → α → Except ε (List β)}
    (id : β → κ) (key : α → κ) {as : List α} (hstep : ∀ so, ∀ a ∈ as, ∀ so',
      f so a = .ok so' → ∃ new, so' = so ++ new ∧ (new.map id).Sublist [key a])
    {so found : List β} (h : as.foldlM f so = .ok found) :
    ∃ new, found = so ++ new ∧ (new.map id).Sublist (as.map key) := by
  induction as generalizing so with
  | nil =>
      cases h
      exact ⟨[], (List.append_nil _).symm, List.Sublist.refl _⟩
  | cons a as ih =>
      rw [List.foldlM_cons] at h
      cases hfirst : f so a with
      | error e => rw [hfirst] at h; cases h
      | ok so' =>
          rw [hfirst] at h
          obtain ⟨new, rfl, hnew⟩ := hstep so a List.mem_cons_self so' hfirst
          obtain ⟨rest, rfl, hrest⟩ :=
            ih (fun so b hb => hstep so b (List.mem_cons_of_mem _ hb)) h
          refine ⟨new ++ rest, List.append_assoc .., ?_⟩
          rw [List.map_append]
          exact hnew.append hrest

/-- **What a loop collects** that may give up at any item. -/
theorem forall₂_of_mapM {α : Type v} {β : Type w} {f : α → Option β} {as : List α} {bs : List β}
    (h : as.mapM f = some bs) : List.Forall₂ (fun a b => f a = some b) as bs := by
  induction as generalizing bs with
  | nil =>
      cases h
      exact .nil
  | cons a as ih =>
      rw [List.mapM_cons] at h
      cases hfirst : f a with
      | none =>
          rw [hfirst] at h
          cases h
      | some b =>
          cases hrest : as.mapM f with
          | none =>
              rw [hfirst, hrest] at h
              cases h
          | some rest =>
              rw [hfirst, hrest] at h
              cases h
              exact .cons hfirst (ih hrest)

/-- What has been collected was collected from somewhere. -/
theorem exists_of_mem_collected {α : Type v} {β : Type w} {R : α → β → Prop} {as : List α}
    {bs : List β} (h : List.Forall₂ R as bs) {b : β} (hb : b ∈ bs) : ∃ a ∈ as, R a b := by
  induction h with
  | nil => cases hb
  | cons hfirst _ ih =>
      rcases List.mem_cons.mp hb with rfl | hb
      · exact ⟨_, List.mem_cons_self, hfirst⟩
      · obtain ⟨a, ha, hab⟩ := ih hb
        exact ⟨a, List.mem_cons_of_mem _ ha, hab⟩

section Loop

variable {ε : Type w} {α : Type v}

/-- A loop whose body may raise: it stops there, and what was done stays done. -/
def loop (f : σ → α → σ × Option ε) : σ → List α → σ × Option ε
  | s, [] => (s, none)
  | s, a :: as =>
      match f s a with
      | (s, none) => loop f s as
      | (s, some e) => (s, some e)

variable {f : σ → α → σ × Option ε} {I : σ → Prop}

@[simp] theorem loop_nil (s : σ) : loop f s [] = (s, none) := rfl

theorem loop_cons_ok {s s' : σ} {a : α} (h : f s a = (s', none)) (as : List α) :
    loop f s (a :: as) = loop f s' as := by
  rw [loop, h]

theorem loop_cons_error {s s' : σ} {a : α} {e : ε} (h : f s a = (s', some e)) (as : List α) :
    loop f s (a :: as) = (s', some e) := by
  rw [loop, h]

/-- What every turn keeps holds when the loop ends, however it ends. -/
theorem loop_inv {as : List α} (hstep : ∀ s, ∀ a ∈ as, I s → I (f s a).1) {s : σ} (h0 : I s) :
    I (loop f s as).1 := by
  induction as generalizing s with
  | nil => exact h0
  | cons a as ih =>
      have hfirst := hstep s a List.mem_cons_self h0
      have hrest := fun {s'} => ih (s := s') fun t b hb => hstep t b (List.mem_cons_of_mem _ hb)
      rcases hf : f s a with ⟨s', r⟩
      rw [hf] at hfirst
      cases r with
      | none =>
          rw [loop_cons_ok hf]
          exact hrest hfirst
      | some e =>
          rw [loop_cons_error hf]
          exact hfirst

/-- A loop whose turns do not raise goes through. -/
theorem loop_total {as : List α} (hstep : ∀ s, ∀ a ∈ as, I s → I (f s a).1 ∧ (f s a).2 = none)
    {s : σ} (h0 : I s) : (loop f s as).2 = none := by
  induction as generalizing s with
  | nil => rfl
  | cons a as ih =>
      obtain ⟨hfirst, hnone⟩ := hstep s a List.mem_cons_self h0
      rcases hf : f s a with ⟨s', r⟩
      rw [hf] at hfirst hnone
      cases hnone
      rw [loop_cons_ok hf]
      exact ih (fun t b hb => hstep t b (List.mem_cons_of_mem _ hb)) hfirst

/-- **What the turn of one item brings about, and no turn undoes, holds at the
end** of a loop that does not raise. -/
theorem loop_reaches {P : σ → Prop} {as : List α} {a : α} (ha : a ∈ as)
    (hstep : ∀ s, ∀ b ∈ as, I s → I (f s b).1 ∧ (f s b).2 = none)
    (hkeep : ∀ s, ∀ b ∈ as, I s → P s → P (f s b).1) (hdone : ∀ s, I s → P (f s a).1)
    {s : σ} (h0 : I s) : P (loop f s as).1 := by
  induction as generalizing s with
  | nil => cases ha
  | cons b as ih =>
      obtain ⟨hfirst, hnone⟩ := hstep s b List.mem_cons_self h0
      have hstep' := fun t c (hc : c ∈ as) => hstep t c (List.mem_cons_of_mem b hc)
      have hkeep' := fun t c (hc : c ∈ as) => hkeep t c (List.mem_cons_of_mem b hc)
      have hdone' := hdone s h0
      rcases hf : f s b with ⟨s', r⟩
      rw [hf] at hfirst hnone
      cases hnone
      rw [loop_cons_ok hf]
      rcases List.mem_cons.mp ha with rfl | ha
      · rw [hf] at hdone'
        have hboth : I (loop f s' as).1 ∧ P (loop f s' as).1 :=
          loop_inv (I := fun t => I t ∧ P t)
            (fun t c hc h => ⟨(hstep' t c hc h.1).1, hkeep' t c hc h.1 h.2⟩) ⟨hfirst, hdone'⟩
        exact hboth.2
      · exact ih ha hstep' hkeep' hfirst

/-- Items that are passed over may be left out. -/
theorem loop_filter {keep : α → Bool} {as : List α}
    (hskip : ∀ s, ∀ a ∈ as, I s → keep a = false → f s a = (s, none))
    (hstep : ∀ s, ∀ a ∈ as, I s → I (f s a).1) {s : σ} (h0 : I s) :
    loop f s as = loop f s (as.filter keep) := by
  induction as generalizing s with
  | nil => rfl
  | cons a as ih =>
      have hrest := fun {s'} => ih (s := s')
        (fun t b hb => hskip t b (List.mem_cons_of_mem _ hb))
        fun t b hb => hstep t b (List.mem_cons_of_mem _ hb)
      cases hkeep : keep a with
      | false =>
          rw [List.filter_cons_of_neg (by rw [hkeep]; exact Bool.false_ne_true),
            loop_cons_ok (hskip s a List.mem_cons_self h0 hkeep)]
          exact hrest h0
      | true =>
          rw [List.filter_cons_of_pos hkeep]
          have hfirst := hstep s a List.mem_cons_self h0
          rcases hf : f s a with ⟨s', r⟩
          rw [hf] at hfirst
          cases r with
          | none =>
              rw [loop_cons_ok hf, loop_cons_ok hf]
              exact hrest hfirst
          | some e => rw [loop_cons_error hf, loop_cons_error hf]

end Loop

end Runs
