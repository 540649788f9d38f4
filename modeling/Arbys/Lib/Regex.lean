import Mathlib.Data.List.Basic

/-!
# Backtracking regular expressions

A pattern is run as a backtracking engine runs it: each alternative in the
order of its priority, with what is to be matched after it as a continuation,
and the first alternative whose continuation succeeds is the match. Repetition
is of a character class, at least once: `many` prefers to go on, `manyLazy`
prefers to stop. A group records what it consumed.

Each operator has one lemma that says where its match ends: a class sequence
where it fits (`run_classes`), a greedy repetition at the end of its class
(`runMany_append`), a lazy one at the first place where what follows succeeds
(`runLazy_append`).
-/

universe u v

namespace Regex

variable {α : Type u} {β : Type v}

/-- A pattern over an alphabet, its groups numbered. -/
inductive Pattern (α : Type u) where
  | eps
  | sat (p : α → Bool)
  | atEnd (p : List α → Bool)
  | seq (r s : Pattern α)
  | opt (r : Pattern α)
  | many (p : α → Bool)
  | manyLazy (p : α → Bool)
  | group (n : ℕ) (r : Pattern α)

/-- What the groups consumed, the latest first. -/
abbrev Groups (α : Type u) := List (ℕ × List α)

/-- `p+`. -/
def runMany (p : α → Bool) (k : List α → Option β) : List α → Option β
  | [] => none
  | a :: l => if p a then (runMany p k l).or (k l) else none

/-- `p+?`. -/
def runLazy (p : α → Bool) (k : List α → Option β) : List α → Option β
  | [] => none
  | a :: l => if p a then (k l).or (runLazy p k l) else none

namespace Pattern

/-- Match at the start of `l`, and go on with what is left. -/
def run : Pattern α → Groups α → List α → (Groups α → List α → Option β) → Option β
  | eps, g, l, k => k g l
  | sat _, _, [], _ => none
  | sat p, g, a :: l, k => if p a then k g l else none
  | atEnd p, g, l, k => if p l then k g l else none
  | seq r s, g, l, k => r.run g l fun g l => s.run g l k
  | opt r, g, l, k => (r.run g l k).or (k g l)
  | many p, g, l, k => runMany p (k g) l
  | manyLazy p, g, l, k => runLazy p (k g) l
  | group n r, g, l, k =>
      r.run g l fun g rest => k ((n, l.take (l.length - rest.length)) :: g) rest

/-- `re.match`: the groups of the match. -/
def groups (r : Pattern α) (l : List α) : Option (Groups α) := r.run [] l fun g _ => some g

/-- One pattern after the other. -/
def concat (rs : List (Pattern α)) : Pattern α := rs.foldr seq eps

end Pattern

/-- `match.group(n)`. -/
def Groups.get (g : Groups α) (n : ℕ) : Option (List α) :=
  (g.find? fun e => e.1 = n).map Prod.snd

open Pattern

/-! ## What is left after an operator -/

section Run

variable {p : α → Bool} {g : Groups α} {l rest : List α} {k : Groups α → List α → Option β}

@[simp] theorem run_eps : eps.run g l k = k g l := rfl

@[simp] theorem run_seq (r s : Pattern α) :
    (r.seq s).run g l k = r.run g l fun g l => s.run g l k := rfl

@[simp] theorem run_sat_nil : (sat p).run g [] k = none := rfl

@[simp] theorem run_sat_cons (a : α) : (sat p).run g (a :: l) k = if p a then k g l else none := rfl

@[simp] theorem run_atEnd (q : List α → Bool) :
    (atEnd q).run g l k = if q l then k g l else none := rfl

@[simp] theorem run_concat_nil : (concat []).run g l k = k g l := rfl

@[simp] theorem run_concat_cons (r : Pattern α) (rs : List (Pattern α)) :
    (concat (r :: rs)).run g l k = r.run g l fun g l => (concat rs).run g l k := rfl

/-- An option whose inside cannot match is passed over. -/
theorem run_opt_none {r : Pattern α} (h : r.run g l k = none) : r.opt.run g l k = k g l := by
  rw [run, h, Option.none_or]

/-- An option whose inside leads to a match is taken. -/
theorem run_opt_some {r : Pattern α} {b : β} (h : r.run g l k = some b) :
    r.opt.run g l k = some b := by
  rw [run, h, Option.some_or]

/-- What was consumed is what stands before the rest. -/
theorem take_append_length (u rest : List α) :
    (u ++ rest).take ((u ++ rest).length - rest.length) = u := by
  rw [List.length_append, Nat.add_sub_cancel, List.take_left']
  rfl

/-! ## Character classes in sequence -/

/-- The classes fit the start of `l`, one element each. -/
def fits : List (α → Bool) → List α → Bool
  | [], _ => true
  | _ :: _, [] => false
  | p :: ps, a :: l => p a && fits ps l

/-- **A sequence of classes** matches where it fits. -/
theorem run_classes (ps : List (α → Bool)) (g : Groups α) (l : List α)
    (k : Groups α → List α → Option β) :
    (concat (ps.map sat)).run g l k = if fits ps l then k g (l.drop ps.length) else none := by
  induction ps generalizing l with
  | nil => rfl
  | cons p ps ih =>
      cases l with
      | nil => rfl
      | cons a l =>
          rw [List.map_cons, run_concat_cons, run_sat_cons, ih, fits]
          cases p a with
          | true => simp
          | false => simp

theorem length_le_of_fits {ps : List (α → Bool)} {l : List α} (h : fits ps l = true) :
    ps.length ≤ l.length := by
  induction ps generalizing l with
  | nil => exact Nat.zero_le _
  | cons p ps ih =>
      cases l with
      | nil => cases h
      | cons a l =>
          rw [fits, Bool.and_eq_true] at h
          exact Nat.succ_le_succ (ih h.2)

/-- A group around a sequence of classes records what they fit. -/
theorem run_group_classes (n : ℕ) (ps : List (α → Bool)) (g : Groups α) (l : List α)
    (k : Groups α → List α → Option β) :
    (group n (concat (ps.map sat))).run g l k =
      if fits ps l then k ((n, l.take ps.length) :: g) (l.drop ps.length) else none := by
  rw [run, run_classes]
  split
  · rename_i hfits
    have hlen := length_le_of_fits hfits
    have hconsumed : l.length - (l.drop ps.length).length = ps.length := by
      rw [List.length_drop]
      omega
    rw [hconsumed]
  · rfl

theorem fits_append {ps : List (α → Bool)} {u : List α} (h : fits ps u = true) (rest : List α) :
    fits ps (u ++ rest) = true := by
  induction ps generalizing u with
  | nil => rfl
  | cons p ps ih =>
      cases u with
      | nil => cases h
      | cons a u =>
          rw [fits, Bool.and_eq_true] at h
          rw [List.cons_append, fits, h.1, ih h.2]
          rfl

/-- A text that is long enough fits by its start alone. -/
theorem fits_of_append {ps : List (α → Bool)} {u rest : List α} (hlen : ps.length ≤ u.length)
    (h : fits ps (u ++ rest) = true) : fits ps u = true := by
  induction ps generalizing u with
  | nil => rfl
  | cons p ps ih =>
      cases u with
      | nil => exact absurd hlen (by simp)
      | cons a u =>
          rw [List.cons_append, fits, Bool.and_eq_true] at h
          rw [fits, h.1, ih (Nat.le_of_succ_le_succ hlen) h.2]
          rfl

/-- Each class of a sequence that fits has its element. -/
theorem exists_of_fits {ps : List (α → Bool)} {l : List α} (h : fits ps l = true) {i : ℕ}
    {p : α → Bool} (hp : ps[i]? = some p) : ∃ a, l[i]? = some a ∧ p a = true := by
  induction ps generalizing l i with
  | nil => cases hp
  | cons q ps ih =>
      cases l with
      | nil => cases h
      | cons a l =>
          rw [fits, Bool.and_eq_true] at h
          cases i with
          | zero =>
              cases hp
              exact ⟨a, rfl, h.1⟩
          | succ i => exact ih h.2 hp

/-! ## Repetition -/

/-- **A greedy repetition** ends where its class ends, if what follows matches
there. -/
theorem runMany_append {k : List α → Option β} {u : List α} {b : β}
    (hu : ∀ a ∈ u, p a = true) (hne : u ≠ []) (hrest : ∀ a ∈ rest.head?, p a = false)
    (hk : k rest = some b) : runMany p k (u ++ rest) = some b := by
  induction u with
  | nil => exact absurd rfl hne
  | cons a u ih =>
      rw [List.cons_append, runMany, if_pos (hu a List.mem_cons_self)]
      cases u with
      | nil =>
          have hstop : runMany p k rest = none := by
            cases rest with
            | nil => rfl
            | cons c rest =>
                rw [runMany, hrest c rfl]
                rfl
          rw [List.nil_append, hstop, Option.none_or, hk]
      | cons c u =>
          rw [ih (fun a ha => hu a (List.mem_cons_of_mem _ ha)) (List.cons_ne_nil c u),
            Option.some_or]

/-- **A lazy repetition** ends at the first place where what follows
matches. -/
theorem runLazy_append {k : List α → Option β} {u : List α} {b : β}
    (hu : ∀ a ∈ u, p a = true) (hne : u ≠ [])
    (hbefore : ∀ v w, v ≠ [] → w ≠ [] → u = v ++ w → k (w ++ rest) = none)
    (hk : k rest = some b) : runLazy p k (u ++ rest) = some b := by
  induction u with
  | nil => exact absurd rfl hne
  | cons a u ih =>
      rw [List.cons_append, runLazy, if_pos (hu a List.mem_cons_self)]
      cases u with
      | nil => rw [List.nil_append, hk, Option.some_or]
      | cons c u =>
          have hfirst : k ((c :: u) ++ rest) = none :=
            hbefore [a] (c :: u) (List.cons_ne_nil _ _) (List.cons_ne_nil _ _) rfl
          rw [hfirst, Option.none_or]
          refine ih (fun a ha => hu a (List.mem_cons_of_mem _ ha)) (List.cons_ne_nil c u) ?_
          intro v w hv hw hsplit
          exact hbefore (a :: v) w (List.cons_ne_nil _ _) hw (by rw [hsplit, List.cons_append])

/-- A group around a greedy repetition records all of its class. -/
theorem run_group_many {n : ℕ} {u : List α} {b : β} (hu : ∀ a ∈ u, p a = true) (hne : u ≠ [])
    (hrest : ∀ a ∈ rest.head?, p a = false) (hk : k ((n, u) :: g) rest = some b) :
    (group n (many p)).run g (u ++ rest) k = some b := by
  refine runMany_append hu hne hrest ?_
  show k ((n, (u ++ rest).take ((u ++ rest).length - rest.length)) :: g) rest = some b
  rw [take_append_length, hk]

/-- A group around a lazy repetition records what stands before the first
place where what follows matches. -/
theorem run_group_manyLazy {n : ℕ} {u : List α} {b : β} (hu : ∀ a ∈ u, p a = true) (hne : u ≠ [])
    (hbefore : ∀ v w, v ≠ [] → w ≠ [] → u = v ++ w → k ((n, v) :: g) (w ++ rest) = none)
    (hk : k ((n, u) :: g) rest = some b) :
    (group n (manyLazy p)).run g (u ++ rest) k = some b := by
  refine runLazy_append hu hne (fun v w hv hw hsplit => ?_) ?_
  · show k ((n, (u ++ rest).take ((u ++ rest).length - (w ++ rest).length)) :: g)
      (w ++ rest) = none
    rw [hsplit, List.append_assoc, take_append_length]
    exact hbefore v w hv hw hsplit
  · show k ((n, (u ++ rest).take ((u ++ rest).length - rest.length)) :: g) rest = some b
    rw [take_append_length, hk]

end Run

end Regex
