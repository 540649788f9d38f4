import Mathlib.Data.List.Basic
import Mathlib.Data.List.Infix

/-!
# Words without separators

Two words of a code written one after the other come apart where the first
ends, if no word of the code begins another (`PrefixFree`): no shorter
beginning is a word, so the first place at which both parts are words is that
one. Where the words have a class of symbols to themselves, the word in front
of a run of other symbols is told by the classes alone
(`eq_of_append_class`).
-/

universe u v

namespace PrefixCode

variable {α : Type u} {β : Type v}

/-- No word begins another. -/
def PrefixFree (code : List α → Prop) : Prop :=
  ∀ x y, code x → code y → x <+: y → x = y

/-- A beginning shorter than the first word is no word. -/
theorem PrefixFree.not_take {code : List α → Prop} (h : PrefixFree code) {a : List α}
    (ha : code a) (b : List α) {i : ℕ} (hi : i < a.length) : ¬ code ((a ++ b).take i) := by
  intro hcode
  rw [List.take_append_of_le_length (Nat.le_of_lt hi)] at hcode
  have hsame := h _ _ hcode ha (List.take_prefix i a)
  have hlen := congrArg List.length hsame
  rw [List.length_take, Nat.min_eq_left (Nat.le_of_lt hi)] at hlen
  omega

/-- The first place, in order, at which a search finds something. -/
theorem findSome?_of_sorted {f : ℕ → Option β} {places : List ℕ} {k : ℕ} {r : β}
    (hsorted : places.Pairwise (· < ·)) (hk : k ∈ places) (hbefore : ∀ i < k, f i = none)
    (hfound : f k = some r) : places.findSome? f = some r := by
  obtain ⟨before, after, rfl⟩ := List.append_of_mem hk
  have hnone : before.findSome? f = none := by
    rw [List.findSome?_eq_none_iff]
    intro i hi
    exact hbefore i ((List.pairwise_append.mp hsorted).2.2 i hi k List.mem_cons_self)
  rw [List.findSome?_append, hnone, Option.none_or, List.findSome?_cons, hfound]

/-- A word and the run behind it, told by the class of their symbols. -/
theorem eq_of_append_class {p : α → Bool} {w w' n n' : List α} (hw : ∀ x ∈ w, p x = false)
    (hw' : ∀ x ∈ w', p x = false) (hn : ∀ x ∈ n, p x = true) (hn' : ∀ x ∈ n', p x = true)
    (h : w ++ n = w' ++ n') : w = w' := by
  have hword : ∀ w n : List α, (∀ x ∈ w, p x = false) → (∀ x ∈ n, p x = true) →
      (w ++ n).takeWhile (fun x => !p x) = w := by
    intro w n hw hn
    have hrun : n.takeWhile (fun x => !p x) = [] := by
      cases n with
      | nil => rfl
      | cons x n => exact List.takeWhile_cons_of_neg (by simp [hn x List.mem_cons_self])
    rw [List.takeWhile_append_of_pos (fun x hx => by simp [hw x hx]), hrun, List.append_nil]
  rw [← hword w n hw hn, h, hword w' n' hw' hn']

end PrefixCode
