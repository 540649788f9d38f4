import Mathlib.Algebra.BigOperators.Group.Finset.Piecewise
import Arbys.Lib.Dict

/-!
# Tallies

Dictionaries built by counting or by gathering under a key, and what their
entries sum to: every item lies in the bucket of its key and in no other, so
a sum over the buckets is the sum over the items.
-/

universe u v w x

namespace Dict

variable {ι : Type u} {κ : Type v} {ν : Type w} [DecidableEq κ]

/-- `for k in l: d[k] = d.get(k, 0) + 1`. -/
def tallyOn (d : Dict κ ℕ) (l : List κ) : Dict κ ℕ :=
  l.foldl (fun d k => d.set k (d.getD k 0 + 1)) d

/-- The same, from no counts. -/
def tally (l : List κ) : Dict κ ℕ := tallyOn empty l

/-- `for x in l: d.setdefault(key(x), []).append(value(x))`. -/
def gather (key : ι → κ) (value : ι → ν) (l : List ι) : Dict κ (List ν) :=
  l.foldl (fun d x => d.set (key x) (d.getD (key x) [] ++ [value x])) empty

/-- `for x in l: d[key(x)] = d.get(key(x), 0) + value(x)`. -/
def totals [AddMonoid ν] (key : ι → κ) (value : ι → ν) (l : List ι) : Dict κ ν :=
  l.foldl (fun d x => d.set (key x) (d.getD (key x) 0 + value x)) empty

/-! ## A dictionary written item by item -/

/-- **The rule of the loops above**: what such a loop leaves under a key is
what it makes of the items of the key alone. -/
theorem getD_foldl_set (key : ι → κ) (f : ν → ι → ν) (z : ν) (d : Dict κ ν) (l : List ι)
    (k : κ) :
    (l.foldl (fun d x => d.set (key x) (f (d.getD (key x) z) x)) d).getD k z =
      (l.filter fun x => key x = k).foldl f (d.getD k z) := by
  induction l generalizing d with
  | nil => rfl
  | cons x l ih =>
      rw [List.foldl_cons, ih, getD_set]
      by_cases hk : k = key x
      · rw [if_pos hk, List.filter_cons_of_pos (by simp [hk]), List.foldl_cons, hk]
      · rw [if_neg hk, List.filter_cons_of_neg (by simpa using Ne.symm hk)]

/-- Its keys are those of the items, and those there before. -/
theorem mem_keys_foldl_set (key : ι → κ) (f : ν → ι → ν) (z : ν) {d : Dict κ ν} {l : List ι}
    {k : κ} :
    k ∈ (l.foldl (fun d x => d.set (key x) (f (d.getD (key x) z) x)) d).keys ↔
      k ∈ d.keys ∨ k ∈ l.map key := by
  induction l generalizing d with
  | nil => simp
  | cons x l ih =>
      rw [List.foldl_cons, ih, mem_keys_set, List.map_cons, List.mem_cons, or_assoc,
        or_left_comm]

/-- A loop whose turns each rewrite the entry of their own key, no key twice:
every turn has met its entry as it was before the loop. -/
theorem get?_foldl_local (key : ι → κ) (g : ι → Option ν → Option ν) {f : Dict κ ν → ι → Dict κ ν}
    (hf : ∀ d x k, (f d x).get? k = if k = key x then g x (d.get? k) else d.get? k)
    {l : List ι} (hl : (l.map key).Nodup) (d : Dict κ ν) :
    (∀ x ∈ l, (l.foldl f d).get? (key x) = g x (d.get? (key x))) ∧
      ∀ k, k ∉ l.map key → (l.foldl f d).get? k = d.get? k := by
  induction l generalizing d with
  | nil => simp
  | cons x l ih =>
      obtain ⟨hx, hl⟩ := List.nodup_cons.mp hl
      obtain ⟨hin, hout⟩ := ih hl (f d x)
      constructor
      · intro y hy
        rw [List.foldl_cons]
        rcases List.mem_cons.mp hy with rfl | hy
        · rw [hout _ hx, hf, if_pos rfl]
        · have hne : key y ≠ key x := fun h => hx (h ▸ List.mem_map_of_mem hy)
          rw [hin y hy, hf, if_neg hne]
      · intro k hk
        obtain ⟨hne, hrest⟩ := not_or.mp (mt List.mem_cons.mpr hk)
        rw [List.foldl_cons, hout k hrest, hf, if_neg hne]

theorem getD_tallyOn (d : Dict κ ℕ) (l : List κ) (k : κ) :
    (tallyOn d l).getD k 0 = d.getD k 0 + l.count k := by
  calc (tallyOn d l).getD k 0 = (l.filter fun j => j = k).foldl (fun n _ => n + 1) (d.getD k 0) :=
        getD_foldl_set (fun j => j) (fun n _ => n + 1) 0 d l k
    _ = d.getD k 0 + l.count k := by
        rw [List.foldl_add_const, one_mul, List.count_eq_length_filter]
        simp [beq_eq_decide]

theorem getD_tally (l : List κ) (k : κ) : (tally l).getD k 0 = l.count k := by
  rw [tally, getD_tallyOn, getD_empty, Nat.zero_add]

theorem mem_keys_tally {l : List κ} {k : κ} : k ∈ (tally l).keys ↔ k ∈ l := by
  rw [tally, tallyOn, mem_keys_foldl_set (fun j => j) (fun n _ => n + 1) 0]
  simp

theorem getD_gather (key : ι → κ) (value : ι → ν) (l : List ι) (k : κ) :
    (gather key value l).getD k [] = (l.filter fun x => key x = k).map value := by
  rw [gather, getD_foldl_set key (fun bucket x => bucket ++ [value x]) [], getD_empty,
    List.foldl_append_eq_append, List.nil_append]
  exact List.map_eq_flatMap.symm

section Totals

variable [AddMonoid ν] (key : ι → κ) (value : ι → ν)

theorem getD_totals (l : List ι) (k : κ) :
    (totals key value l).getD k 0 = ((l.filter fun x => key x = k).map value).sum := by
  rw [totals, getD_foldl_set key (fun total x => total + value x) 0, getD_empty,
    List.sum_eq_foldl, List.foldl_map]

/-- Totals kept on top of what is there. -/
theorem getD_foldl_add (d : Dict κ ν) (l : List ι) (k : κ) :
    (l.foldl (fun d x => d.set (key x) (d.getD (key x) 0 + value x)) d).getD k 0 =
      d.getD k 0 + ((l.filter fun x => key x = k).map value).sum := by
  rw [getD_foldl_set key (fun total x => total + value x) 0]
  generalize l.filter (fun x => key x = k) = mine
  generalize d.getD k 0 = total
  induction mine generalizing total with
  | nil => simp
  | cons x mine ih => rw [List.foldl_cons, ih, List.map_cons, List.sum_cons, add_assoc]

end Totals

section Sums

variable {α : Type x} [AddCommMonoid α]

/-- What contributes nothing may be left out of a sum. -/
theorem sum_filter_of_eq_zero {p : ι → Bool} {f : ι → α} {l : List ι}
    (h : ∀ x ∈ l, p x = false → f x = 0) : ((l.filter p).map f).sum = (l.map f).sum := by
  induction l with
  | nil => rfl
  | cons x l ih =>
      have hrest := ih fun y hy => h y (List.mem_cons_of_mem _ hy)
      cases hx : p x with
      | true => rw [List.filter_cons_of_pos hx, List.map_cons, List.sum_cons, hrest, List.map_cons,
          List.sum_cons]
      | false => rw [List.filter_cons_of_neg (by simp [hx]), hrest, List.map_cons, List.sum_cons,
          h x List.mem_cons_self hx, zero_add]

/-- A sum over entries that are all of one key is what that key contributes. -/
theorem sum_filter_entries (f : κ → ν → α) (d : Dict κ ν) (k : κ) {p : κ × ν → Bool}
    (hkey : ∀ e ∈ d.entries, p e = true → e.1 = k)
    (hrest : ∀ x, d.get? k = some x → p (k, x) = false → f k x = 0) :
    ((d.entries.filter p).map fun e => f e.1 e.2).sum = contrib f d k := by
  have hpart : ((d.entries.filter p).map fun e => f e.1 e.2).sum =
      sumBy (fun j x => if j = k then f j x else 0) d := by
    have hzero := sum_filter_of_eq_zero (p := p) (l := d.entries)
      (f := fun e => if e.1 = k then f e.1 e.2 else 0) fun e he hp => by
        split
        · rename_i hek
          subst hek
          exact hrest e.2 (mem_entries_iff.mp he) hp
        · rfl
    rw [sumBy, ← hzero]
    refine congrArg List.sum (List.map_congr_left fun e he => ?_)
    obtain ⟨hmem, hp⟩ := List.mem_filter.mp he
    exact (if_pos (hkey e hmem hp)).symm
  rw [hpart, sumBy_eq_sum_contrib _ d (s := insert k d.keys.toFinset) (by simp +contextual),
    Finset.sum_eq_single_of_mem k (Finset.mem_insert_self k _)]
  · cases hx : d.get? k with
    | none => rw [contrib_of_get?_none hx, contrib_of_get?_none hx]
    | some x => rw [contrib_of_get? hx, contrib_of_get? hx, if_pos rfl]
  · intro j _ hj
    cases hx : d.get? j with
    | none => exact contrib_of_get?_none hx
    | some x => rw [contrib_of_get? hx, if_neg hj]

/-- **The bucket rule**: sums over the buckets of a dictionary's keys add up to
the sum over the items, where every item's key is one. -/
theorem sumBy_buckets (key : ι → κ) (f : ι → α) {l : List ι} {d : Dict κ ν}
    (hl : ∀ x ∈ l, key x ∈ d.keys) :
    sumBy (fun k _ => ((l.filter fun x => key x = k).map f).sum) d = (l.map f).sum := by
  have hsum : ∀ l : List ι, (∀ x ∈ l, key x ∈ d.keys) →
      ∑ k ∈ d.keys.toFinset, ((l.filter fun x => key x = k).map f).sum = (l.map f).sum := by
    intro l hl
    induction l with
    | nil => simp
    | cons x l ih =>
        have hx : key x ∈ d.keys.toFinset := List.mem_toFinset.mpr (hl x List.mem_cons_self)
        have hone : ∀ k, (((x :: l).filter fun y => key y = k).map f).sum =
            (if key x = k then f x else 0) + ((l.filter fun y => key y = k).map f).sum := by
          intro k
          by_cases hk : key x = k
          · simp [hk]
          · simp [hk]
        simp only [hone, Finset.sum_add_distrib, Finset.sum_ite_eq, if_pos hx,
          ih fun y hy => hl y (List.mem_cons_of_mem _ hy), List.map_cons, List.sum_cons]
  have hnodup : d.keys.Nodup := d.nodup
  rw [← hsum l hl, List.sum_toFinset _ hnodup, sumBy, keys, List.map_map]
  rfl

/-- The counts of a tally add up to the number of items. -/
theorem sumBy_tally (l : List κ) : sumBy (fun _ n => n) (tally l) = l.length := by
  have hcount : ∀ k, contrib (fun _ n => n) (tally l) k =
      contrib (fun k (_ : ℕ) => ((l.filter fun j => j = k).map fun _ => 1).sum) (tally l) k := by
    intro k
    rw [contrib_eq_getD rfl, getD_tally]
    cases hget : (tally l).get? k with
    | none =>
        have hk : k ∉ l := by
          rw [← mem_keys_tally, mem_keys_iff, hget]
          simp
        rw [contrib_of_get?_none hget, List.count_eq_zero_of_not_mem hk]
    | some n =>
        rw [contrib_of_get? hget, List.count_eq_length_filter]
        simp [beq_eq_decide]
  rw [sumBy_congr hcount, sumBy_buckets (fun j => j) (fun _ => 1) fun j hj => mem_keys_tally.mpr hj]
  simp

end Sums

end Dict
