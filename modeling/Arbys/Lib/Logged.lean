import Mathlib.Data.List.Basic

/-!
# Computations that keep a log of their calls

A `Logged κ α` is a run of a program that calls out: the calls it made, in
order, and what it returned, or nothing when it raised. Nothing is called
after a raise. Whether a run raises can be read off its log when every call
says whether it is fatal, and `Accounted` is closed under everything such a
program is built from.
-/

universe u v w

/-- The calls made, and what was returned or `none` for an exception. -/
structure Logged (κ : Type u) (α : Type v) where
  calls : List κ
  value : Option α

namespace Logged

variable {κ : Type u} {α β : Type v}

/-- One call, with what reading its answer gives. -/
def call (c : κ) (value : Option α) : Logged κ α := ⟨[c], value⟩

/-- An exception raised without calling. -/
def raised : Logged κ α := ⟨[], none⟩

protected def bind (x : Logged κ α) (f : α → Logged κ β) : Logged κ β :=
  match x.value with
  | none => ⟨x.calls, none⟩
  | some a => ⟨x.calls ++ (f a).calls, (f a).value⟩

instance : Monad (Logged κ) where
  pure a := ⟨[], some a⟩
  bind := Logged.bind

/-- `[await f(x) for x in l]`. -/
def forEach {ι : Type w} (f : ι → Logged κ β) : List ι → Logged κ (List β)
  | [] => pure []
  | x :: l => do
      let y ← f x
      let ys ← forEach f l
      pure (y :: ys)

/-- Two runs side by side: both make their calls, and either one's exception
is the exception of the pair. -/
def both (x : Logged κ α) (y : Logged κ β) : Logged κ (α × β) :=
  ⟨x.calls ++ y.calls, x.value.bind fun a => y.value.map fun b => (a, b)⟩

theorem value_bind (x : Logged κ α) (f : α → Logged κ β) :
    (x >>= f).value = x.value.bind fun a => (f a).value := by
  show (Logged.bind x f).value = _
  unfold Logged.bind
  cases x.value <;> rfl

@[simp] theorem value_pure (a : α) : (pure a : Logged κ α).value = some a := rfl

@[simp] theorem value_call (c : κ) (value : Option α) : (call c value).value = value := rfl

/-- What a loop returned came from one of its turns. -/
theorem of_mem_forEach {ι : Type w} {f : ι → Logged κ β} {l : List ι} {ys : List β}
    (h : (forEach f l).value = some ys) {y : β} (hy : y ∈ ys) :
    ∃ x ∈ l, (f x).value = some y := by
  induction l generalizing ys with
  | nil =>
      cases h
      cases hy
  | cons x l ih =>
      simp only [forEach, value_bind, value_pure, Option.bind_eq_some_iff, Option.some.injEq] at h
      obtain ⟨z, hz, zs, hzs, rfl⟩ := h
      rcases List.mem_cons.mp hy with rfl | hy
      · exact ⟨x, List.mem_cons_self, hz⟩
      · obtain ⟨w, hw, hfw⟩ := ih hzs hy
        exact ⟨w, List.mem_cons_of_mem _ hw, hfw⟩

/-- The run raised exactly if one of its calls was fatal. -/
def Accounted (fatal : κ → Prop) (x : Logged κ α) : Prop :=
  x.value = none ↔ ∃ c ∈ x.calls, fatal c

variable {fatal : κ → Prop}

theorem accounted_pure (a : α) : Accounted fatal (pure a : Logged κ α) := by
  constructor
  · rintro ⟨⟩
  · rintro ⟨c, ⟨⟩, -⟩

theorem accounted_call {c : κ} {value : Option α} (h : value = none ↔ fatal c) :
    Accounted fatal (call c value) := by
  simpa [Accounted, call] using h

theorem Accounted.bind {x : Logged κ α} {f : α → Logged κ β} (hx : Accounted fatal x)
    (hf : ∀ a, x.value = some a → Accounted fatal (f a)) : Accounted fatal (x >>= f) := by
  show Accounted fatal (Logged.bind x f)
  unfold Accounted Logged.bind
  cases hv : x.value with
  | none => exact ⟨fun _ => hx.mp hv, fun _ => rfl⟩
  | some a =>
      -- `x` returned, so none of its own calls was fatal
      have hno : ¬ ∃ c ∈ x.calls, fatal c := mt hx.mpr (by simp [hv])
      constructor
      · intro h
        obtain ⟨c, hc, hfatal⟩ := (hf a hv).mp h
        exact ⟨c, List.mem_append_right _ hc, hfatal⟩
      · rintro ⟨c, hc, hfatal⟩
        rcases List.mem_append.mp hc with hc | hc
        · exact absurd ⟨c, hc, hfatal⟩ hno
        · exact (hf a hv).mpr ⟨c, hc, hfatal⟩

theorem Accounted.forEach {ι : Type w} {f : ι → Logged κ β} {l : List ι}
    (hf : ∀ x, Accounted fatal (f x)) : Accounted fatal (forEach f l) := by
  induction l with
  | nil => exact accounted_pure _
  | cons x l ih => exact (hf x).bind fun y _ => ih.bind fun ys _ => accounted_pure _

theorem Accounted.both {x : Logged κ α} {y : Logged κ β} (hx : Accounted fatal x)
    (hy : Accounted fatal y) : Accounted fatal (both x y) := by
  have hvalue : (Logged.both x y).value = none ↔ x.value = none ∨ y.value = none := by
    cases hv : x.value <;> cases hw : y.value <;> simp [Logged.both, hv, hw]
  refine (hvalue.trans (or_congr hx hy)).trans ?_
  simp [Logged.both, or_and_right, exists_or]

end Logged
