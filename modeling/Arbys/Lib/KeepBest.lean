import Mathlib.Data.List.MinMax

/-!
# Loops that keep the best

A loop over items, each of which may offer candidates, that has the best
candidate so far as its accumulator ends with the best of all that were
offered, the first of equal ones. The accumulator may hold it in an encoding of
its own, and a turn may fail.
-/

universe u v w x y

namespace KeepBest

variable {ι : Type u} {α : Type v} {σ : Type w} {ε : Type x} {δ : Type y} [LinearOrder δ]

/-- **The rule**: if a turn from the best of the candidates seen goes to the
best of these and the ones its item offers, so does the loop. -/
theorem foldlM_argmax (score : α → δ) (offers : ι → List α) (enc : Option α → σ)
    {turn : σ → ι → Except ε σ} {items : List ι}
    (hturn : ∀ seen : List α, ∀ item ∈ items,
      turn (enc (seen.argmax score)) item = .ok (enc ((seen ++ offers item).argmax score)))
    (seen : List α) :
    items.foldlM turn (enc (seen.argmax score)) =
      .ok (enc ((seen ++ items.flatMap offers).argmax score)) := by
  induction items generalizing seen with
  | nil =>
      rw [List.flatMap_nil, List.append_nil]
      rfl
  | cons item items ih =>
      rw [List.foldlM_cons, hturn seen item List.mem_cons_self, List.flatMap_cons,
        ← List.append_assoc]
      exact ih (fun seen i hi => hturn seen i (List.mem_cons_of_mem _ hi)) _

end KeepBest
