import Arbys.ArbEngine
import Arbys.DecimalContext
import Arbys.Lib.Scaling

/-!
# Re-sizing an opportunity

`shared/sizing.py`. An opportunity is scaled by the least ratio of a venue's
bankroll to what the legs on it cost, and then each leg is rounded down to the
tick of its venue, so that every leg has a factor of its own, none above the
common one.

All of it is computed on decimals, so a ratio, a scaled quantity or a fee is
cut to 28 digits wherever it is longer, and cut either way: a venue can be
asked for a little more than its bankroll, in the last digits. The functions
are therefore written over the context they run in. What they return is
compared with the budget by counting the roundings on the way, each of them
off by `Context.slack` at most: on prices and fees that are not negative
nothing cancels, so the factors of a chain of operations multiply, and the
count grows with the number of legs only, through the sums.
-/

namespace Arbys

open RelativeError

section Code

variable (ctx : Context)

/-- `leg.price * leg.qty + leg.fee`. -/
def ArbLeg.costIn (leg : ArbLeg) : ℚ := ctx (ctx (leg.price * leg.qty) + leg.fee)

/-- `per_venue_cost`: the legs of a venue add up, in their order. -/
def perVenueCost (legs : List ArbLeg) : Dict VenueId ℚ :=
  legs.foldl (fun costs leg =>
    costs.set leg.venueId (ctx (costs.getD leg.venueId 0 + leg.costIn ctx))) Dict.empty

/-- `total_stake`. -/
def stakeOf (legs : List ArbLeg) : ℚ := sumUp ctx 0 (legs.map (ArbLeg.costIn ctx))

/-- One turn of the loop over the venues: `none` where the function returns
None from inside it, and the least ratio so far. -/
def scaleStep (bankrollByVenue : Dict VenueId ℚ) (scale : Option ℚ) (entry : VenueId × ℚ) :
    Option (Option ℚ) :=
  let bank := bankrollByVenue.getD entry.1 0
  if bank ≤ 0 ∨ entry.2 ≤ 0 then none
  else
    let s := ctx (bank / entry.2)
    some (some (match scale with
      | none => s
      | some least => min least s))

/-- `_round_down_tick`, for a positive tick. `quantize` signals where the whole
number of ticks has more digits than the context. -/
def roundDownTickIn (value tick : ℚ) : Except DecimalArith.Signal ℚ :=
  let count := truncate (ctx (value / tick))
  if 10 ^ DecimalArith.prec ≤ |count| then .error .invalidOperation
  else .ok (ctx (count * tick))

/-- One turn of the loop over the legs: `none` where the function returns None
from inside it. -/
def resizeLeg (tickByVenue : Dict VenueId ℚ) (scale : ℚ) (leg : ArbLeg) :
    Except DecimalArith.Signal (Option ArbLeg) := do
  let tick := tickByVenue.getD leg.venueId 0
  let newQty ←
    if 0 < tick then roundDownTickIn ctx (ctx (leg.qty * scale)) tick
    else pure (ctx (leg.qty * scale))
  if newQty ≤ 0 then pure none
  else
    let newFee := if 0 < leg.qty then ctx (leg.fee * ctx (newQty / leg.qty)) else 0
    pure (some { leg with qty := newQty, fee := newFee })

/-- The loop over the legs. -/
def resizeLegs (tickByVenue : Dict VenueId ℚ) (scale : ℚ) :
    List ArbLeg → Except DecimalArith.Signal (Option (List ArbLeg))
  | [] => pure (some [])
  | leg :: legs => do
      match ← resizeLeg ctx tickByVenue scale leg with
      | none => pure none
      | some new =>
          match ← resizeLegs tickByVenue scale legs with
          | none => pure none
          | some rest => pure (some (new :: rest))

/-- `size_to_bankroll`, from the scale on. -/
def sizeBy (opp : ArbOpportunity) (tickByVenue : Dict VenueId ℚ) (scale : ℚ) :
    Except DecimalArith.Signal (Option ArbOpportunity) := do
  match ← resizeLegs ctx tickByVenue scale opp.legs with
  | none => pure none
  | some newLegs =>
      let totalStake := stakeOf ctx newLegs
      -- both sides are equal in a two-leg arb; the code takes the least to be safe
      let guaranteedPayoff := (minKnown (newLegs.map ArbLeg.qty)).getD 0
      let profit := ctx (guaranteedPayoff - totalStake)
      if profit ≤ 0 then pure none
      else if totalStake = 0 then .error .divisionByZero
      else
        pure (some {
          eventGroupId := opp.eventGroupId
          legs := newLegs
          totalStake := totalStake
          guaranteedProfit := profit
          guaranteedProfitBps := ctx (ctx (profit / totalStake) * 10000) })

/-- `size_to_bankroll`. -/
def sizeToBankroll (opp : ArbOpportunity) (bankrollByVenue : Dict VenueId ℚ)
    (tickByVenue : Option (Dict VenueId ℚ)) :
    Except DecimalArith.Signal (Option ArbOpportunity) :=
  let tickByVenue := tickByVenue.getD Dict.empty
  if opp.legs = [] then .ok none
  else
    match (perVenueCost ctx opp.legs).entries.foldlM (scaleStep ctx bankrollByVenue) none with
    | none => .ok none
    | some none => .ok none
    | some (some scale) => if scale ≤ 0 then .ok none else sizeBy ctx opp tickByVenue scale

/-- `size_to_max_stake`. The stake is taken as the opportunity states it. -/
def sizeToMaxStake (opp : ArbOpportunity) (maxStake : ℚ)
    (tickByVenue : Option (Dict VenueId ℚ)) :
    Except DecimalArith.Signal (Option ArbOpportunity) :=
  if opp.totalStake ≤ 0 ∨ maxStake ≤ 0 then .ok none
  else if opp.totalStake ≤ maxStake then .ok (some opp)
  else
    let scale := ctx (maxStake / opp.totalStake)
    sizeToBankroll ctx opp ((perVenueCost ctx opp.legs).mapVal fun _ c => ctx (c * scale))
      tickByVenue

end Code

/-- What the legs on a venue cost, exactly. -/
def spentOn (legs : List ArbLeg) (v : VenueId) : ℚ :=
  Scaling.costOn ArbLeg.venueId ArbLeg.cost legs v

/-- Every leg is for something and costs something, and neither its price nor
its fee is negative. -/
def ArbOpportunity.Sizable (opp : ArbOpportunity) : Prop :=
  ∀ leg ∈ opp.legs, 0 < leg.qty ∧ 0 ≤ leg.price ∧ 0 ≤ leg.fee ∧ 0 < leg.cost

instance (opp : ArbOpportunity) : Decidable opp.Sizable :=
  inferInstanceAs (Decidable
    (∀ leg ∈ opp.legs, 0 < leg.qty ∧ 0 ≤ leg.price ∧ 0 ≤ leg.fee ∧ 0 < leg.cost))

/-! ## The scale -/

/-- The legs whose costs a venue adds up. -/
theorem getD_foldl_costs (ctx : Context) (costs : Dict VenueId ℚ) (legs : List ArbLeg)
    (v : VenueId) :
    (legs.foldl (fun costs leg =>
        costs.set leg.venueId (ctx (costs.getD leg.venueId 0 + leg.costIn ctx))) costs).getD v 0 =
      sumUp ctx (costs.getD v 0)
        ((legs.filter fun leg => leg.venueId = v).map (ArbLeg.costIn ctx)) := by
  induction legs generalizing costs with
  | nil => rfl
  | cons leg legs ih =>
      rw [List.foldl_cons, ih, Dict.getD_set]
      by_cases hv : leg.venueId = v
      · subst hv
        simp [sumUp]
      · simp [hv, Ne.symm hv]

theorem mem_keys_foldl_costs (ctx : Context) (costs : Dict VenueId ℚ) (legs : List ArbLeg)
    {v : VenueId} (h : (costs.get? v).isSome ∨ ∃ leg ∈ legs, leg.venueId = v) :
    ((legs.foldl (fun costs leg =>
        costs.set leg.venueId (ctx (costs.getD leg.venueId 0 + leg.costIn ctx)))
      costs).get? v).isSome := by
  induction legs generalizing costs with
  | nil =>
      rcases h with h | ⟨leg, hleg, _⟩
      · exact h
      · cases hleg
  | cons first legs ih =>
      refine ih _ ?_
      by_cases hv : v = first.venueId
      · subst hv
        exact .inl (by rw [Dict.get?_set_self]; rfl)
      · rw [Dict.get?_set_ne _ hv]
        rcases h with h | ⟨leg, hleg, hvenue⟩
        · exact .inl h
        · rcases List.mem_cons.mp hleg with rfl | hleg
          · exact absurd hvenue.symm hv
          · exact .inr ⟨leg, hleg, hvenue⟩

/-- What the code takes the legs on a venue to cost. -/
def costTaken (ctx : Context) (legs : List ArbLeg) (v : VenueId) : ℚ :=
  sumUp ctx 0 ((legs.filter fun leg => leg.venueId = v).map (ArbLeg.costIn ctx))

theorem get?_perVenueCost {ctx : Context} {legs : List ArbLeg} {leg : ArbLeg}
    (hleg : leg ∈ legs) :
    (perVenueCost ctx legs).get? leg.venueId = some (costTaken ctx legs leg.venueId) := by
  have hkey := mem_keys_foldl_costs ctx Dict.empty legs (.inr ⟨leg, hleg, rfl⟩)
  have hvalue := getD_foldl_costs ctx Dict.empty legs leg.venueId
  obtain ⟨cost, hcost⟩ := Option.isSome_iff_exists.mp hkey
  rw [Dict.getD, hcost, Option.getD_some] at hvalue
  rw [perVenueCost, hcost, hvalue]
  rfl

section Costs

variable {ctx : Context} {g : ℚ} (hctx : Within g ctx) {leg : ArbLeg}

include hctx

/-- A leg's cost and what the code takes it to be: two roundings apart. -/
theorem upto_costIn (hprice : 0 ≤ leg.price) (hqty : 0 ≤ leg.qty) (hfee : 0 ≤ leg.fee) :
    Upto g 2 leg.cost (leg.costIn ctx) := by
  have hpq : 0 ≤ leg.price * leg.qty := mul_nonneg hprice hqty
  have hfirst : Upto g 1 leg.cost (ctx (leg.price * leg.qty) + leg.fee) :=
    (hctx.upto' hpq).add ((Upto.of_le (le_refl _)).mono hctx.one_le hfee (Nat.zero_le 1))
  have hboth := hfirst.trans hctx.one_le (hctx.upto' (add_nonneg (hctx.nonneg hpq) hfee))
  exact hboth

theorem costIn_upto (hprice : 0 ≤ leg.price) (hqty : 0 ≤ leg.qty) (hfee : 0 ≤ leg.fee) :
    Upto g 2 (leg.costIn ctx) leg.cost := by
  have hpq : 0 ≤ leg.price * leg.qty := mul_nonneg hprice hqty
  have hlast : Upto g 1 (ctx (leg.price * leg.qty) + leg.fee) leg.cost :=
    (hctx.upto hpq).add ((Upto.of_le (le_refl _)).mono hctx.one_le hfee (Nat.zero_le 1))
  have hboth := (hctx.upto (add_nonneg (hctx.nonneg hpq) hfee)).trans hctx.one_le hlast
  exact hboth

theorem costIn_nonneg (hprice : 0 ≤ leg.price) (hqty : 0 ≤ leg.qty) (hfee : 0 ≤ leg.fee) :
    0 ≤ leg.costIn ctx :=
  hctx.nonneg (add_nonneg (hctx.nonneg (mul_nonneg hprice hqty)) hfee)

/-- A venue's legs cost what the code takes them to cost, up to two roundings
and one for each leg. -/
theorem spentOn_upto {legs : List ArbLeg}
    (hlegs : ∀ leg ∈ legs, 0 < leg.qty ∧ 0 ≤ leg.price ∧ 0 ≤ leg.fee ∧ 0 < leg.cost)
    (v : VenueId) : Upto g (legs.length + 2) (spentOn legs v) (costTaken ctx legs v) := by
  have hmem : ∀ leg ∈ legs.filter fun leg => leg.venueId = v,
      0 ≤ leg.price ∧ 0 ≤ leg.qty ∧ 0 ≤ leg.fee := by
    intro leg hleg
    obtain ⟨hqty, hprice, hfee, _⟩ := hlegs leg (List.mem_filter.mp hleg).1
    exact ⟨hprice, le_of_lt hqty, hfee⟩
  have hterms : Upto g 2 (spentOn legs v)
      (((legs.filter fun leg => leg.venueId = v).map (ArbLeg.costIn ctx)).sum) :=
    upto_sum_map fun leg hleg =>
      upto_costIn hctx (hmem leg hleg).1 (hmem leg hleg).2.1 (hmem leg hleg).2.2
  have hnonneg : ∀ x ∈ (legs.filter fun leg => leg.venueId = v).map (ArbLeg.costIn ctx), 0 ≤ x := by
    refine List.forall_mem_map.mpr fun leg hleg => ?_
    exact costIn_nonneg hctx (hmem leg hleg).1 (hmem leg hleg).2.1 (hmem leg hleg).2.2
  have hsum := upto_sumUp hctx (le_refl 0) hnonneg
  rw [zero_add, List.length_map] at hsum
  have hcount : (legs.filter fun leg => leg.venueId = v).length ≤ legs.length :=
    List.length_filter_le _ _
  exact (hterms.trans hctx.one_le hsum).mono hctx.one_le
    (sumUp_nonneg hctx (le_refl 0) hnonneg) (by omega)

/-- The same of all legs together. -/
theorem cost_upto_stakeOf {legs : List ArbLeg}
    (hlegs : ∀ leg ∈ legs, 0 < leg.qty ∧ 0 ≤ leg.price ∧ 0 ≤ leg.fee ∧ 0 < leg.cost) :
    Upto g (2 + legs.length) (legs.map ArbLeg.cost).sum (stakeOf ctx legs) := by
  have hterms : Upto g 2 (legs.map ArbLeg.cost).sum (legs.map (ArbLeg.costIn ctx)).sum :=
    upto_sum_map fun leg hleg => upto_costIn hctx (hlegs leg hleg).2.1
      (le_of_lt (hlegs leg hleg).1) (hlegs leg hleg).2.2.1
  have hnonneg : ∀ cost ∈ legs.map (ArbLeg.costIn ctx), 0 ≤ cost :=
    List.forall_mem_map.mpr fun leg hleg => costIn_nonneg hctx (hlegs leg hleg).2.1
      (le_of_lt (hlegs leg hleg).1) (hlegs leg hleg).2.2.1
  have hsum := upto_sumUp hctx (le_refl 0) hnonneg
  rw [zero_add, List.length_map] at hsum
  have hboth := hterms.trans hctx.one_le hsum
  exact hboth

theorem stakeOf_upto_cost {legs : List ArbLeg}
    (hlegs : ∀ leg ∈ legs, 0 ≤ leg.price ∧ 0 ≤ leg.qty ∧ 0 ≤ leg.fee) :
    Upto g (legs.length + 2) (stakeOf ctx legs) (legs.map ArbLeg.cost).sum := by
  have hterms : Upto g 2 (legs.map (ArbLeg.costIn ctx)).sum (legs.map ArbLeg.cost).sum :=
    upto_sum_map fun leg hleg => costIn_upto hctx (hlegs leg hleg).1 (hlegs leg hleg).2.1
      (hlegs leg hleg).2.2
  have hnonneg : ∀ cost ∈ legs.map (ArbLeg.costIn ctx), 0 ≤ cost :=
    List.forall_mem_map.mpr fun leg hleg => costIn_nonneg hctx (hlegs leg hleg).1
      (hlegs leg hleg).2.1 (hlegs leg hleg).2.2
  have hsum := sumUp_upto hctx (le_refl 0) hnonneg
  rw [zero_add, List.length_map] at hsum
  have hboth := hsum.trans hctx.one_le hterms
  exact hboth

end Costs

/-- **The least ratio.** A loop that runs to its end has met a bankroll and a
cost above zero everywhere, and its scale is no more than any ratio. -/
theorem scale_le_of_loop {ctx : Context} {bankroll : Dict VenueId ℚ}
    {entries : List (VenueId × ℚ)} {acc : Option ℚ} {scale : ℚ}
    (h : entries.foldlM (scaleStep ctx bankroll) acc = some (some scale)) :
    (∀ least ∈ acc, scale ≤ least) ∧
      ∀ entry ∈ entries, 0 < bankroll.getD entry.1 0 ∧ 0 < entry.2 ∧
        scale ≤ ctx (bankroll.getD entry.1 0 / entry.2) := by
  induction entries generalizing acc with
  | nil =>
      cases h
      exact ⟨fun least hleast => le_of_eq (Option.some.inj hleast), fun _ h => by cases h⟩
  | cons entry entries ih =>
      rw [List.foldlM_cons] at h
      unfold scaleStep at h
      simp only at h
      split at h
      · cases h
      · rename_i hpos
        rw [not_or, not_le, not_le] at hpos
        -- the least so far, of which the new ratio is part, bounds the scale
        obtain ⟨hacc, hrest⟩ := ih h
        have hfirst := hacc _ rfl
        cases acc with
        | none =>
            refine ⟨fun _ hnone => (Option.not_mem_none _ hnone).elim, fun e he => ?_⟩
            rcases List.mem_cons.mp he with rfl | he
            · exact ⟨hpos.1, hpos.2, hfirst⟩
            · exact hrest e he
        | some least =>
            refine ⟨fun least' hleast => ?_, fun e he => ?_⟩
            · cases hleast
              exact hfirst.trans (min_le_left _ _)
            · rcases List.mem_cons.mp he with rfl | he
              · exact ⟨hpos.1, hpos.2, hfirst.trans (min_le_right _ _)⟩
              · exact hrest e he

/-! ## One leg -/

/-- What a leg becomes: no more than scaled, up to three roundings, on the tick
of its venue, at the same price and with the same fee for a contract. -/
structure Resized (ctx : Context) (g : ℚ) (tickByVenue : Dict VenueId ℚ) (scale : ℚ)
    (leg new : ArbLeg) : Prop where
  outcomeId : new.outcomeId = leg.outcomeId
  venueId : new.venueId = leg.venueId
  price : new.price = leg.price
  qty_pos : 0 < new.qty
  qty_upto : Upto g 3 new.qty (leg.qty * scale)
  tick : 0 < tickByVenue.getD leg.venueId 0 →
    ∃ k : ℕ, 0 < k ∧ new.qty = ctx (k * tickByVenue.getD leg.venueId 0)
  fee : new.fee = ctx (leg.fee * ctx (new.qty / leg.qty))

section Leg

variable {ctx : Context} {g : ℚ} (hctx : Within g ctx) {ticks : Dict VenueId ℚ} {scale : ℚ}
  {leg new : ArbLeg}

include hctx

/-- Rounding down to the tick: a whole number of ticks, no more than the value
up to two roundings. -/
theorem roundDownTickIn_spec {value tick qty : ℚ} (hvalue : 0 ≤ value) (htick : 0 < tick)
    (h : roundDownTickIn ctx value tick = .ok qty) :
    ∃ k : ℕ, qty = ctx (k * tick) ∧ Upto g 2 qty value := by
  unfold roundDownTickIn at h
  simp only at h
  split at h
  · cases h
  cases h
  have hratio : 0 ≤ value / tick := div_nonneg hvalue (le_of_lt htick)
  have hrounded : 0 ≤ ctx (value / tick) := hctx.nonneg hratio
  have hfloor : truncate (ctx (value / tick)) = ⌊ctx (value / tick)⌋ := if_pos hrounded
  obtain ⟨k, hk⟩ := Int.eq_ofNat_of_zero_le (Int.floor_nonneg.mpr hrounded)
  have hcount : ((⌊ctx (value / tick)⌋ : ℤ) : ℚ) = k := by rw [hk]; rfl
  rw [hfloor, hcount]
  refine ⟨k, rfl, ?_⟩
  have hwhole : Upto g 0 ((k : ℚ) * tick) (ctx (value / tick) * tick) :=
    .of_le (mul_le_mul_of_nonneg_right (hcount ▸ Int.floor_le _) (le_of_lt htick))
  have hvalue' : Upto g 1 (ctx (value / tick) * tick) (value / tick * tick) :=
    (hctx.upto hratio).mul_right (le_of_lt htick)
  rw [div_mul_cancel₀ _ (ne_of_gt htick)] at hvalue'
  have hlast : Upto g 1 (ctx (k * tick)) (k * tick) :=
    hctx.upto (mul_nonneg (Nat.cast_nonneg k) (le_of_lt htick))
  have hall := (hlast.trans hctx.one_le hwhole).trans hctx.one_le hvalue'
  exact hall

theorem resized_of_resizeLeg (hscale : 0 < scale) (hqty : 0 < leg.qty)
    (h : resizeLeg ctx ticks scale leg = .ok (some new)) :
    Resized ctx g ticks scale leg new := by
  have hwhole : 0 ≤ leg.qty * scale := le_of_lt (mul_pos hqty hscale)
  have hscaled : Upto g 1 (ctx (leg.qty * scale)) (leg.qty * scale) := hctx.upto hwhole
  unfold resizeLeg at h
  simp only [if_pos hqty] at h
  by_cases htick : 0 < ticks.getD leg.venueId 0
  · rw [if_pos htick] at h
    cases hdown : roundDownTickIn ctx (ctx (leg.qty * scale)) (ticks.getD leg.venueId 0) with
    | error e => rw [hdown] at h; cases h
    | ok newQty =>
        obtain ⟨k, hk, hupto⟩ := roundDownTickIn_spec hctx (hctx.nonneg hwhole) htick hdown
        rw [hdown] at h
        change (if newQty ≤ 0 then pure none else _) = _ at h
        split at h
        · cases h
        rename_i hnew
        cases h
        have hthree := hupto.trans hctx.one_le hscaled
        refine ⟨rfl, rfl, rfl, not_le.mp hnew, hthree, fun _ => ?_, rfl⟩
        -- no tick at all would be a quantity of zero, which was refused
        refine ⟨k, Nat.pos_of_ne_zero fun hzero => hnew ?_, hk⟩
        rw [hk, hzero, Nat.cast_zero, zero_mul]
        exact hctx.nonpos 0 (le_refl 0)
  · rw [if_neg htick] at h
    change (if ctx (leg.qty * scale) ≤ 0 then pure none else _) = _ at h
    split at h
    · cases h
    rename_i hnew
    cases h
    exact ⟨rfl, rfl, rfl, not_le.mp hnew, hscaled.mono hctx.one_le hwhole (by decide),
      fun hpos => absurd hpos htick, rfl⟩

/-- **The cost follows the quantity**, up to five roundings. -/
theorem Resized.cost_upto (h : Resized ctx g ticks scale leg new) (hscale : 0 ≤ scale)
    (hqty : 0 < leg.qty) (hprice : 0 ≤ leg.price) (hfee : 0 ≤ leg.fee) :
    Upto g 5 new.cost (scale * leg.cost) := by
  have hshare : 0 ≤ new.qty / leg.qty := div_nonneg (le_of_lt h.qty_pos) (le_of_lt hqty)
  have hpaid : Upto g 3 (new.price * new.qty) (leg.price * (leg.qty * scale)) := by
    rw [h.price]
    exact h.qty_upto.mul_left hprice
  have hfraction : Upto g 3 (new.qty / leg.qty) scale := by
    have hdiv := h.qty_upto.div_right (le_of_lt hqty)
    rwa [mul_div_cancel_left₀ _ (ne_of_gt hqty)] at hdiv
  have hfees : Upto g 5 new.fee (leg.fee * scale) := by
    rw [h.fee]
    have houter := hctx.upto (mul_nonneg hfee (hctx.nonneg hshare))
    have hinner := (hctx.upto hshare).mul_left hfee
    have hfive := (houter.trans hctx.one_le hinner).trans hctx.one_le (hfraction.mul_left hfee)
    exact hfive
  have hgross : 0 ≤ leg.price * (leg.qty * scale) :=
    mul_nonneg hprice (mul_nonneg (le_of_lt hqty) hscale)
  have htotal := (hpaid.mono hctx.one_le hgross (by decide : 3 ≤ 5)).add hfees
  have hsum : leg.price * (leg.qty * scale) + leg.fee * scale = scale * leg.cost := by
    rw [ArbLeg.cost]
    ring
  rwa [hsum] at htotal

theorem Resized.fee_nonneg (h : Resized ctx g ticks scale leg new) (hqty : 0 < leg.qty)
    (hfee : 0 ≤ leg.fee) : 0 ≤ new.fee := by
  rw [h.fee]
  exact hctx.nonneg (mul_nonneg hfee
    (hctx.nonneg (div_nonneg (le_of_lt h.qty_pos) (le_of_lt hqty))))

end Leg

/-! ## A re-sized opportunity -/

/-- Every leg scaled, and the stake and the profit taken from the new legs. -/
structure SizedBy (ctx : Context) (g : ℚ) (ticks : Dict VenueId ℚ) (scale : ℚ)
    (opp out : ArbOpportunity) : Prop where
  scale_pos : 0 < scale
  legs : List.Forall₂ (fun leg new => (0 < leg.qty ∧ 0 ≤ leg.price ∧ 0 ≤ leg.fee ∧ 0 < leg.cost) ∧
    Resized ctx g ticks scale leg new) opp.legs out.legs
  totalStake : out.totalStake = stakeOf ctx out.legs
  guaranteedProfit :
    out.guaranteedProfit = ctx ((minKnown (out.legs.map ArbLeg.qty)).getD 0 - out.totalStake)
  arbitrage : 0 < out.guaranteedProfit

section Sized

variable {ctx : Context} {g : ℚ} (hctx : Within g ctx) {opp out : ArbOpportunity}
  {ticks : Dict VenueId ℚ} {scale : ℚ}

/-- The loop over the legs gives back a leg for each, or stops. -/
theorem forall₂_of_resizeLegs {legs newLegs : List ArbLeg}
    (h : resizeLegs ctx ticks scale legs = .ok (some newLegs)) :
    List.Forall₂ (fun leg new => resizeLeg ctx ticks scale leg = .ok (some new)) legs newLegs := by
  -- one leg that cannot be resized stops the loop, and none comes back
  induction legs generalizing newLegs with
  | nil =>
      cases h
      exact .nil
  | cons leg legs ih =>
      unfold resizeLegs at h
      cases hleg : resizeLeg ctx ticks scale leg with
      | error e => rw [hleg] at h; cases h
      | ok first =>
          rw [hleg] at h
          cases first with
          | none => cases h
          | some new =>
              cases hrest : resizeLegs ctx ticks scale legs with
              | error e =>
                  change (resizeLegs ctx ticks scale legs >>= _) = _ at h
                  rw [hrest] at h
                  cases h
              | ok rest =>
                  change (resizeLegs ctx ticks scale legs >>= _) = _ at h
                  rw [hrest] at h
                  cases rest with
                  | none => cases h
                  | some rest =>
                      cases h
                      exact .cons hleg (ih hrest)

include hctx

theorem sizedBy_of_sizeBy (hopp : opp.Sizable) (hscale : 0 < scale)
    (h : sizeBy ctx opp ticks scale = .ok (some out)) : SizedBy ctx g ticks scale opp out := by
  unfold sizeBy at h
  cases hlegs : resizeLegs ctx ticks scale opp.legs with
  | error e => rw [hlegs] at h; cases h
  | ok newLegs =>
      rw [hlegs] at h
      cases newLegs with
      | none => cases h
      | some newLegs =>
          change (if _ ≤ 0 then pure none else _) = _ at h
          split at h
          · cases h
          rename_i hprofit
          split at h
          · cases h
          cases h
          refine ⟨hscale, ?_, rfl, rfl, not_le.mp hprofit⟩
          have hboth := (List.forall₂_and_left _ _).mpr ⟨hopp, forall₂_of_resizeLegs hlegs⟩
          exact hboth.imp fun leg new hleg =>
            ⟨hleg.1, resized_of_resizeLeg hctx hscale hleg.1.1 hleg.2⟩

/-- **What sizing to a bankroll returns**: the opportunity scaled by a factor
that is no more than any venue's bankroll over its cost, as the code divides. -/
theorem sizedBy_of_sizeToBankroll (hopp : opp.Sizable) {bankroll : Dict VenueId ℚ}
    {ticks : Option (Dict VenueId ℚ)}
    (h : sizeToBankroll ctx opp bankroll ticks = .ok (some out)) :
    ∃ scale, SizedBy ctx g (ticks.getD Dict.empty) scale opp out ∧ opp.legs ≠ [] ∧
      ∀ leg ∈ opp.legs, 0 < bankroll.getD leg.venueId 0 ∧
        0 < costTaken ctx opp.legs leg.venueId ∧
        scale ≤ ctx (bankroll.getD leg.venueId 0 / costTaken ctx opp.legs leg.venueId) := by
  unfold sizeToBankroll at h
  simp only at h
  split at h
  · cases h
  rename_i hlegs
  split at h
  · cases h
  · cases h
  rename_i scale hloop
  split at h
  · cases h
  rename_i hscale
  refine ⟨scale, sizedBy_of_sizeBy hctx hopp (not_le.mp hscale) h, hlegs, fun leg hleg => ?_⟩
  exact (scale_le_of_loop hloop).2 _ (Dict.mem_entries_iff.mpr (get?_perVenueCost hleg))

/-- The exact costs are scaled, up to five roundings. -/
theorem SizedBy.scaled (h : SizedBy ctx g ticks scale opp out) :
    Scaling.Scaled ArbLeg.venueId ArbLeg.cost (g ^ 5 * scale) opp.legs out.legs := by
  refine h.legs.imp fun leg new hleg => ⟨hleg.2.venueId, ?_⟩
  obtain ⟨⟨hqty, hprice, hfee, _⟩, hresized⟩ := hleg
  rw [mul_assoc]
  exact hresized.cost_upto hctx (le_of_lt h.scale_pos) hqty hprice hfee

omit hctx in
theorem SizedBy.exists_leg (h : SizedBy ctx g ticks scale opp out) {new : ArbLeg}
    (hnew : new ∈ out.legs) :
    ∃ leg ∈ opp.legs, (0 < leg.qty ∧ 0 ≤ leg.price ∧ 0 ≤ leg.fee ∧ 0 < leg.cost) ∧
      Resized ctx g ticks scale leg new := by
  obtain ⟨leg, hleg, hresized⟩ := Runs.exists_of_mem_collected h.legs hnew
  exact ⟨leg, hleg, hresized⟩

/-- What is staked is what the old legs cost, scaled, up to seven roundings and
one for each leg. -/
theorem SizedBy.totalStake_upto (h : SizedBy ctx g ticks scale opp out) :
    Upto g (out.legs.length + 7) out.totalStake (scale * (opp.legs.map ArbLeg.cost).sum) := by
  have hlegs : ∀ new ∈ out.legs, 0 ≤ new.price ∧ 0 ≤ new.qty ∧ 0 ≤ new.fee := by
    intro new hnew
    obtain ⟨leg, _, ⟨hqty, hprice, hfee, _⟩, hresized⟩ := h.exists_leg hnew
    refine ⟨?_, le_of_lt hresized.qty_pos, hresized.fee_nonneg hctx hqty hfee⟩
    rw [hresized.price]
    exact hprice
  rw [h.totalStake]
  have hscaled : Upto g 5 (out.legs.map ArbLeg.cost).sum
      (scale * (opp.legs.map ArbLeg.cost).sum) := by
    rw [Upto, ← mul_assoc]
    exact (h.scaled hctx).sum_le
  have hall := (stakeOf_upto_cost hctx hlegs).trans hctx.one_le hscaled
  rwa [add_assoc] at hall

end Sized

/-- `min` of quantities is one of them, and no other is less. -/
theorem exists_least_leg {legs : List ArbLeg} (hne : legs ≠ []) :
    ∃ leg ∈ legs, (∀ other ∈ legs, leg.qty ≤ other.qty) ∧
      (minKnown (legs.map ArbLeg.qty)).getD 0 = leg.qty := by
  cases legs with
  | nil => exact absurd rfl hne
  | cons first rest =>
      have hmem := foldl_min_mem (rest.map ArbLeg.qty) first.qty
      rw [← List.map_cons, List.mem_map] at hmem
      obtain ⟨leg, hleg, hqty⟩ := hmem
      refine ⟨leg, hleg, fun other hother => ?_, hqty.symm⟩
      rw [hqty]
      rcases List.mem_cons.mp hother with rfl | hother
      · exact foldl_min_le_init _ _
      · exact foldl_min_le_mem (List.mem_map_of_mem hother)

/-- **Inside its budgets, and an arbitrage**: on every venue all legs together
cost no more than its bankroll, up to the roundings on the way; every quantity
is positive, and a whole number of a positive tick, rounded; and the least
quantity, which is what is paid, exceeds the stake, by the profit that is
stated once rounded. -/
structure WithinBankroll (ctx : Context) (g : ℚ) (bankroll ticks : Dict VenueId ℚ)
    (out : ArbOpportunity) : Prop where
  budget : ∀ leg ∈ out.legs,
    Upto g (out.legs.length + 8) (spentOn out.legs leg.venueId) (bankroll.getD leg.venueId 0)
  qty_pos : ∀ leg ∈ out.legs, 0 < leg.qty
  tick : ∀ leg ∈ out.legs, 0 < ticks.getD leg.venueId 0 →
    ∃ k : ℕ, 0 < k ∧ leg.qty = ctx (k * ticks.getD leg.venueId 0)
  totalStake : out.totalStake = stakeOf ctx out.legs
  guaranteedProfit : ∃ leg ∈ out.legs, (∀ other ∈ out.legs, leg.qty ≤ other.qty) ∧
    0 < leg.qty - out.totalStake ∧ out.guaranteedProfit = ctx (leg.qty - out.totalStake)
  arbitrage : 0 < out.guaranteedProfit

section Within

variable {ctx : Context} {g : ℚ} (hctx : Within g ctx) {opp out : ArbOpportunity}

include hctx

theorem withinBankroll_of_sizeToBankroll (hopp : opp.Sizable) {bankroll : Dict VenueId ℚ}
    {ticks : Option (Dict VenueId ℚ)}
    (h : sizeToBankroll ctx opp bankroll ticks = .ok (some out)) :
    WithinBankroll ctx g bankroll (ticks.getD Dict.empty) out := by
  obtain ⟨scale, hsized, hlegs, hratio⟩ := sizedBy_of_sizeToBankroll hctx hopp h
  have hlength : opp.legs.length = out.legs.length := hsized.legs.length_eq
  have hne : out.legs ≠ [] := by
    intro hnil
    rw [hnil, List.length_nil, List.length_eq_zero_iff] at hlength
    exact hlegs hlength
  refine ⟨fun new hnew => ?_, fun new hnew => ?_, fun new hnew htick => ?_, hsized.totalStake,
    ?_, hsized.arbitrage⟩
  · obtain ⟨leg, hleg, _, hresized⟩ := hsized.exists_leg hnew
    obtain ⟨hbank, hcost, hle⟩ := hratio leg hleg
    rw [hresized.venueId]
    generalize leg.venueId = v at hbank hcost hle
    -- the legs cost what they did, scaled; they did cost what the code divides by
    have hspent : Upto g 5 (spentOn out.legs v) (scale * spentOn opp.legs v) := by
      rw [Upto, ← mul_assoc]
      exact (hsized.scaled hctx).costOn_le v
    have hscale := (Upto.of_le hle).trans hctx.one_le
      (hctx.upto (le_of_lt (div_pos hbank hcost)))
    have htaken : Upto g (opp.legs.length + 2) (spentOn opp.legs v) (costTaken ctx opp.legs v) :=
      spentOn_upto hctx hopp v
    have hshare := htaken.mul_left (le_of_lt hsized.scale_pos)
    have hbudget := hscale.mul_right (le_of_lt hcost)
    rw [div_mul_cancel₀ _ (ne_of_gt hcost)] at hbudget
    refine ((hspent.trans hctx.one_le hshare).trans hctx.one_le hbudget).mono hctx.one_le
      (le_of_lt hbank) ?_
    omega
  · obtain ⟨leg, _, _, hresized⟩ := hsized.exists_leg hnew
    exact hresized.qty_pos
  · obtain ⟨leg, hleg, _, hresized⟩ := hsized.exists_leg hnew
    rw [hresized.venueId] at htick ⊢
    exact hresized.tick htick
  · obtain ⟨leg, hleg, hleast, hmin⟩ := exists_least_leg hne
    have hprofit := hsized.guaranteedProfit
    rw [hmin] at hprofit
    have hpos := hsized.arbitrage
    rw [hprofit] at hpos
    exact ⟨leg, hleg, hleast, hctx.pos_of_rounded hpos, hprofit⟩

/-! ## To a stake -/

/-- A cut to a stake scales by no more than its share of the stake, up to three
roundings. -/
theorem sizedBy_of_sizeToMaxStake (hopp : opp.Sizable) {maxStake : ℚ}
    {ticks : Option (Dict VenueId ℚ)} (h : sizeToMaxStake ctx opp maxStake ticks = .ok (some out)) :
    (out = opp ∧ opp.totalStake ≤ maxStake) ∨
      ∃ scale, SizedBy ctx g (ticks.getD Dict.empty) scale opp out ∧ 0 < maxStake ∧
        maxStake < opp.totalStake ∧ Upto g 3 scale (maxStake / opp.totalStake) := by
  unfold sizeToMaxStake at h
  split at h
  · cases h
  rename_i hpos
  rw [not_or, not_le, not_le] at hpos
  split at h
  · rename_i hfits
    cases h
    exact .inl ⟨rfl, hfits⟩
  rename_i hover
  obtain ⟨scale, hsized, hlegs, hratio⟩ := sizedBy_of_sizeToBankroll hctx hopp h
  refine .inr ⟨scale, hsized, hpos.2, not_le.mp hover, ?_⟩
  -- every venue has the same share of its cost, so any leg tells the scale
  obtain ⟨leg, rest, hcons⟩ := List.exists_cons_of_ne_nil hlegs
  have hleg : leg ∈ opp.legs := by
    rw [hcons]
    exact List.mem_cons_self
  obtain ⟨_, hcost, hle⟩ := hratio leg hleg
  rw [Dict.getD, Dict.get?_mapVal, get?_perVenueCost hleg, Option.map_some,
    Option.getD_some] at hle
  have hshare : 0 ≤ maxStake / opp.totalStake := le_of_lt (div_pos hpos.2 hpos.1)
  have hgiven : 0 ≤ costTaken ctx opp.legs leg.venueId * ctx (maxStake / opp.totalStake) :=
    mul_nonneg (le_of_lt hcost) (hctx.nonneg hshare)
  have hbank := (hctx.upto hgiven).div_right (le_of_lt hcost)
  rw [mul_div_cancel_left₀ _ (ne_of_gt hcost)] at hbank
  have hdivided := hctx.upto (div_nonneg (hctx.nonneg hgiven) (le_of_lt hcost))
  have hall := ((Upto.of_le hle).trans hctx.one_le hdivided).trans hctx.one_le hbank
  have hthree := hall.trans hctx.one_le (hctx.upto hshare)
  exact hthree

/-- **A cut to a stake** leaves no leg larger, up to the roundings on the way,
and stays inside the stake, up to as many more as there are legs, where the
opportunity does not understate what its legs cost. -/
structure WithinStake (ctx : Context) (g : ℚ) (maxStake : ℚ) (opp out : ArbOpportunity) :
    Prop where
  stake : stakeOf ctx opp.legs ≤ opp.totalStake →
    Upto g (2 * opp.legs.length + 12) out.totalStake maxStake
  legs : List.Forall₂ (fun leg new => new.outcomeId = leg.outcomeId ∧ new.venueId = leg.venueId ∧
    Upto g 6 new.qty leg.qty) opp.legs out.legs

theorem withinStake_of_sizeToMaxStake (hopp : opp.Sizable) {maxStake : ℚ}
    {ticks : Option (Dict VenueId ℚ)} (h : sizeToMaxStake ctx opp maxStake ticks = .ok (some out))
    (hstake : 0 ≤ maxStake) : WithinStake ctx g maxStake opp out := by
  rcases sizedBy_of_sizeToMaxStake hctx hopp h with
    -- either it fits as it is, or every leg is scaled down
    ⟨rfl, hfits⟩ | ⟨scale, hsized, hmax, hover, hscale⟩
  · refine ⟨fun _ => (Upto.of_le hfits).mono hctx.one_le hstake (Nat.zero_le _), ?_⟩
    refine List.forall₂_same.mpr fun leg hleg => ⟨rfl, rfl, ?_⟩
    exact (Upto.of_le (le_refl _)).mono hctx.one_le (le_of_lt (hopp leg hleg).1) (Nat.zero_le _)
  · have htotal : 0 < opp.totalStake := hmax.trans hover
    have hlength : opp.legs.length = out.legs.length := hsized.legs.length_eq
    constructor
    · intro hcost
      -- each of these steps rounds upwards by a bounded number of roundings
      have hexact := (cost_upto_stakeOf hctx hopp).trans hctx.one_le (Upto.of_le hcost)
      have hscaled := hexact.mul_left (le_of_lt hsized.scale_pos)
      have hshare := hscale.mul_right (le_of_lt htotal)
      rw [div_mul_cancel₀ _ (ne_of_gt htotal)] at hshare
      have hall := ((hsized.totalStake_upto hctx).trans hctx.one_le hscaled).trans hctx.one_le
        hshare
      exact hall.mono hctx.one_le hstake (by omega)
    · -- a scaled quantity is no larger, since the scale is below one
      refine hsized.legs.imp fun leg new hleg => ⟨hleg.2.outcomeId, hleg.2.venueId, ?_⟩
      have hqty : 0 ≤ leg.qty := le_of_lt hleg.1.1
      have hshare : maxStake / opp.totalStake ≤ 1 := (div_le_one htotal).mpr (le_of_lt hover)
      have hgrown := (hscale.trans hctx.one_le (.of_le hshare)).mul_left hqty
      rw [mul_one] at hgrown
      exact (hleg.2.qty_upto.trans hctx.one_le hgrown).mono hctx.one_le hqty (by decide)

end Within

/-- **Re-sizing stays within its budgets and stays an arbitrage**, for any legs
of positive quantity and cost whose prices and fees are not negative, up to the
28 digits it is computed in. -/
theorem resizing_within_budgets {opp : ArbOpportunity} (hopp : opp.Sizable) :
    (∀ bankroll ticks out, sizeToBankroll .default opp bankroll ticks = .ok (some out) →
      WithinBankroll .default Context.slack bankroll (ticks.getD Dict.empty) out) ∧
    (∀ maxStake ticks out, sizeToMaxStake .default opp maxStake ticks = .ok (some out) →
      WithinStake .default Context.slack maxStake opp out) := by
  refine ⟨fun bankroll ticks out h => ?_, fun maxStake ticks out h => ?_⟩
  · exact withinBankroll_of_sizeToBankroll Context.within_default hopp h
  · have hpos : 0 < maxStake := by
      unfold sizeToMaxStake at h
      split at h
      · cases h
      · rename_i hpos
        exact not_le.mp (not_or.mp hpos).2
    exact withinStake_of_sizeToMaxStake Context.within_default hopp h (le_of_lt hpos)

namespace NinetyFive

/-- A hundred of each side for 95. -/
def opportunity : ArbOpportunity where
  eventGroupId := "eg"
  legs := [⟨"y", "poly", true, 45 / 100, 100, 0⟩, ⟨"n", "kals", true, 1 / 2, 100, 0⟩]
  totalStake := 95
  guaranteedProfit := 5
  guaranteedProfitBps := 50000 / 95

def bankroll : Dict VenueId ℚ := Dict.ofList [("poly", 9 / 2), ("kals", 50)]

def ticks : Dict VenueId ℚ := Dict.ofList [("poly", 3), ("kals", 3)]

/-- As much of it as fits in 4.5 on one venue, in threes. -/
def nine : ArbOpportunity where
  eventGroupId := "eg"
  legs := [⟨"y", "poly", true, 45 / 100, 9, 0⟩, ⟨"n", "kals", true, 1 / 2, 9, 0⟩]
  totalStake := 171 / 20
  guaranteedProfit := 9 / 20
  guaranteedProfitBps := 5263157894736842105263157895 / 10 ^ 25

/-- Half of it. -/
def fifty : ArbOpportunity where
  eventGroupId := "eg"
  legs := [⟨"y", "poly", true, 45 / 100, 50, 0⟩, ⟨"n", "kals", true, 1 / 2, 50, 0⟩]
  totalStake := 95 / 2
  guaranteedProfit := 5 / 2
  guaranteedProfitBps := 5263157894736842105263157895 / 10 ^ 25

/-- The same legs, said to cost 40. -/
def understated : ArbOpportunity := { opportunity with totalStake := 40 }

/-- 182 of each side, with the fees of Polymarket US and Kalshi. -/
def longshot : ArbOpportunity where
  eventGroupId := "eg"
  legs := [⟨"y", "poly", true, 9 / 100, 182, 1043406 / 10 ^ 6⟩,
    ⟨"n", "kals", true, 2 / 5, 182, 26208 / 10 ^ 4⟩]
  totalStake := 92844206 / 10 ^ 6
  guaranteedProfit := 89155794 / 10 ^ 6
  guaranteedProfitBps := 9602731052490232939253096741 / 10 ^ 24

/-- Cut to 83. -/
def eightyThree : ArbOpportunity where
  eventGroupId := "eg"
  legs := [⟨"y", "poly", true, 9 / 100, 1627026677356689333958007030 / 10 ^ 25,
      9327743941285899951581254303 / 10 ^ 28⟩,
    ⟨"n", "kals", true, 2 / 5, 1627026677356689333958007030 / 10 ^ 25,
      2342918415393632640899530123 / 10 ^ 27⟩]
  totalStake := 83 + 2 / 10 ^ 26
  guaranteedProfit := 7970266773566893339580070298 / 10 ^ 26
  guaranteedProfitBps := 9602731052490232939253096742 / 10 ^ 24

end NinetyFive

open NinetyFive in
theorem resizing_within_budgets_ninetyFive :
    WithinBankroll .default Context.slack bankroll ticks nine ∧
      WithinStake .default Context.slack (95 / 2) opportunity fifty := by
  have hopp : opportunity.Sizable := by decide +kernel
  obtain ⟨hbankroll, hstake⟩ := resizing_within_budgets hopp
  exact ⟨hbankroll bankroll (some ticks) nine (by decide +kernel),
    hstake (95 / 2) none fifty (by decide +kernel)⟩

open NinetyFive in
/-- **Neither bound is exact.** Where the opportunity understates its cost, so
does its cut; and where it does not, 28 digits leave a cut to 83 above 83. -/
theorem stake_exceeded :
    (understated.Sizable ∧ sizeToMaxStake .default understated 20 none = .ok (some fifty) ∧
      ¬ fifty.totalStake ≤ 20) ∧
    longshot.Sizable ∧ longshot.totalStake = stakeOf .default longshot.legs ∧
      ∃ out, sizeToMaxStake .default longshot 83 none = .ok (some out) ∧
        out.totalStake = 83 + 2 / 10 ^ 26 ∧ ¬ out.totalStake ≤ 83 := by
  refine ⟨⟨by decide +kernel, by decide +kernel, by decide +kernel⟩, by decide +kernel,
    by decide +kernel, ?_⟩
  exact ⟨eightyThree, by decide +kernel, by decide +kernel, by decide +kernel⟩

end Arbys
