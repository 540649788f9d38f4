import Arbys.Cash
import Arbys.Lib.Levelling
import Arbys.TwoLegTicket

/-!
# Levelling is safe and levels

`plan_transfers` meets the deficits from the surpluses and rounds the moves:
a move is floored to the cent and dropped when that is under `minTransfer`, so
every transfer of the plan is at most its move and short of it by less than
`minTransfer` and a cent (`planTransfers_eq`, `sub_executed_le`).

A plan that asks no venue for more than it holds goes through whole, and moves
what it says (`applyTransfers_eq`). Together: no transfer of the plan is
refused, no venue crosses the equal share on the way, and each ends within one
rounding for every venue it dealt with.
-/

namespace Arbys

open AccountState PaperExecutionAdapter Levelling

/-! ## One transfer -/

section Transfers

variable {acct : AccountId} {a : PaperExecutionAdapter} {amount : ℚ}

/-- A withdrawal goes through exactly if it is of something there is. -/
theorem withdraw_snd : (a.withdraw acct amount).2 = true ↔ 0 < amount ∧ amount ≤ a.cash acct := by
  unfold PaperExecutionAdapter.withdraw PaperExecutionAdapter.cash
  simp only
  split
  · rename_i h
    constructor
    · intro hfalse
      cases hfalse
    · rintro ⟨hpos, hle⟩
      rcases h with h | h
      · exact absurd hpos (not_lt.mpr h)
      · exact absurd hle (not_le.mpr h)
  · rename_i h
    obtain ⟨hpos, hle⟩ := not_or.mp h
    exact ⟨fun _ => ⟨not_le.mp hpos, not_lt.mp hle⟩, fun _ => rfl⟩

theorem cash_withdraw (h : (a.withdraw acct amount).2 = true) :
    (a.withdraw acct amount).1.cash acct = a.cash acct - amount := by
  obtain ⟨hpos, hle⟩ := withdraw_snd.mp h
  have hok : ¬ (amount ≤ 0 ∨ (a.account acct).cash a.venueId < amount) := by
    rintro (h | h)
    · exact absurd hpos (not_lt.mpr h)
    · exact absurd hle (not_le.mpr h)
  unfold PaperExecutionAdapter.withdraw
  simp only [if_neg hok]
  show ((PaperExecutionAdapter.setAccount ..).account acct).cash a.venueId = _
  rw [account_setAccount, if_pos rfl]
  exact Dict.getD_set_self ..

theorem venueId_withdraw : (a.withdraw acct amount).1.venueId = a.venueId := by
  unfold PaperExecutionAdapter.withdraw
  simp only
  split <;> rfl

end Transfers

/-- Cash of the account on a venue, if there is a broker for it. -/
def Brokers.cashAt (b : Brokers) (acct : AccountId) (v : VenueId) : Option ℚ :=
  (b.get? v).map fun a => a.cash acct

/-- What a plan takes from a venue. -/
def paidOut (plan : List CashTransfer) (v : VenueId) : ℚ :=
  ((plan.filter (·.fromVenue = v)).map (·.amount)).sum

/-- What a plan gives to a venue. -/
def takenIn (plan : List CashTransfer) (v : VenueId) : ℚ :=
  ((plan.filter (·.toVenue = v)).map (·.amount)).sum

theorem paidOut_cons (t : CashTransfer) (plan : List CashTransfer) (v : VenueId) :
    paidOut (t :: plan) v = (if t.fromVenue = v then t.amount else 0) + paidOut plan v := by
  unfold paidOut
  by_cases h : t.fromVenue = v <;> simp [h]

theorem takenIn_cons (t : CashTransfer) (plan : List CashTransfer) (v : VenueId) :
    takenIn (t :: plan) v = (if t.toVenue = v then t.amount else 0) + takenIn plan v := by
  unfold takenIn
  by_cases h : t.toVenue = v <;> simp [h]

/-- One transfer that goes through, in cash. -/
theorem cashAt_transfer {b : Brokers} {acct : AccountId} {t : CashTransfer}
    {src : PaperExecutionAdapter} (hsrc : b.get? t.fromVenue = some src)
    (hpaid : (src.withdraw acct t.amount).2 = true) (hne : t.fromVenue ≠ t.toVenue)
    (v : VenueId) :
    ((b.put (src.withdraw acct t.amount).1).modify t.toVenue
        fun dst => dst.deposit acct t.amount).cashAt acct v =
      (b.cashAt acct v).map fun cash => cash - (if t.fromVenue = v then t.amount else 0) +
        (if t.toVenue = v then t.amount else 0) := by
  have hvenue : (src.withdraw acct t.amount).1.venueId = t.fromVenue := by
    rw [venueId_withdraw]
    exact Brokers.venueId_of_get? hsrc
  unfold Brokers.cashAt
  rw [Brokers.get?_modify (f := fun dst => dst.deposit acct t.amount) _ _ _ fun _ => rfl,
    Brokers.get?_put, hvenue]
  by_cases hfrom : v = t.fromVenue
  · have hto : ¬ v = t.toVenue := fun h => hne (hfrom.symm.trans h)
    rw [if_neg hto, if_pos hfrom, hfrom, hsrc]
    simp [cash_withdraw hpaid, hne.symm]
  · by_cases hto : v = t.toVenue
    · rw [if_pos hto, if_neg hfrom]
      cases hget : b.get? v with
      | none => rfl
      | some dst => simp [cash_deposit, Ne.symm hfrom, hto.symm]
    · rw [if_neg hto, if_neg hfrom]
      cases hget : b.get? v with
      | none => rfl
      | some dst => simp [Ne.symm hfrom, Ne.symm hto]

/-! ## A plan that is covered -/

/-- The plan moves amounts between two brokers there are, and asks none for
more cash than it has. -/
structure Fundable (b : Brokers) (acct : AccountId) (plan : List CashTransfer) : Prop where
  nonneg : ∀ t ∈ plan, 0 ≤ t.amount
  venues : ∀ t ∈ plan, t.fromVenue ≠ t.toVenue ∧ (b.get? t.fromVenue).isSome ∧
    (b.get? t.toVenue).isSome
  cash : ∀ t ∈ plan, ∀ cash ∈ b.cashAt acct t.fromVenue, paidOut plan t.fromVenue ≤ cash

theorem paidOut_nonneg {plan : List CashTransfer} (h : ∀ t ∈ plan, 0 ≤ t.amount) (v : VenueId) :
    0 ≤ paidOut plan v := by
  apply List.sum_nonneg
  intro x hx
  obtain ⟨t, ht, rfl⟩ := List.mem_map.mp hx
  exact h t (List.mem_filter.mp ht).1

theorem takenIn_nonneg {plan : List CashTransfer} (h : ∀ t ∈ plan, 0 ≤ t.amount) (v : VenueId) :
    0 ≤ takenIn plan v := by
  apply List.sum_nonneg
  intro x hx
  obtain ⟨t, ht, rfl⟩ := List.mem_map.mp hx
  exact h t (List.mem_filter.mp ht).1

namespace Fundable

variable {b : Brokers} {acct : AccountId} {t : CashTransfer} {plan : List CashTransfer}

theorem ne (h : Fundable b acct (t :: plan)) : t.fromVenue ≠ t.toVenue :=
  (h.venues t List.mem_cons_self).1

/-- The first transfer's broker has cash for it. -/
theorem amount_le (h : Fundable b acct (t :: plan)) {src : PaperExecutionAdapter}
    (hsrc : b.get? t.fromVenue = some src) : t.amount ≤ src.cash acct := by
  have hcash : paidOut (t :: plan) t.fromVenue ≤ src.cash acct :=
    h.cash t List.mem_cons_self (src.cash acct) (by simp [Brokers.cashAt, hsrc])
  rw [paidOut_cons, if_pos rfl] at hcash
  have hrest := paidOut_nonneg (List.forall_mem_cons.mp h.nonneg).2 t.fromVenue
  linarith

/-- A transfer of nothing is refused, and the rest is covered as it was. -/
theorem skip (h : Fundable b acct (t :: plan)) (hzero : t.amount = 0) : Fundable b acct plan := by
  refine ⟨(List.forall_mem_cons.mp h.nonneg).2, (List.forall_mem_cons.mp h.venues).2,
    fun t' ht' cash hc => ?_⟩
  have hle := h.cash t' (List.mem_cons_of_mem _ ht') cash hc
  rw [paidOut_cons, hzero, ite_self, zero_add] at hle
  exact hle

/-- What is left of the plan is covered by what the first transfer leaves of
the cash. -/
theorem transfer (h : Fundable b acct (t :: plan)) {src : PaperExecutionAdapter}
    (hsrc : b.get? t.fromVenue = some src) (hpaid : (src.withdraw acct t.amount).2 = true) :
    Fundable ((b.put (src.withdraw acct t.amount).1).modify t.toVenue
      fun dst => dst.deposit acct t.amount) acct plan := by
  obtain ⟨hamount, hnonneg⟩ := List.forall_mem_cons.mp h.nonneg
  obtain ⟨-, hvenues⟩ := List.forall_mem_cons.mp h.venues
  have hstep := cashAt_transfer hsrc hpaid h.ne
  -- a transfer closes no broker: where there was cash, there is cash
  have hsome : ∀ v, (((b.put (src.withdraw acct t.amount).1).modify t.toVenue
      fun dst => dst.deposit acct t.amount).get? v).isSome = (b.get? v).isSome := by
    intro v
    have := congrArg Option.isSome (hstep v)
    simpa only [Brokers.cashAt, Option.isSome_map] using this
  refine ⟨hnonneg, fun t' ht' => ?_, fun t' ht' cash hc => ?_⟩
  · rw [hsome, hsome]
    exact hvenues t' ht'
  · rw [hstep, Option.mem_map] at hc
    obtain ⟨cash', hc', rfl⟩ := hc
    have hle := h.cash t' (List.mem_cons_of_mem _ ht') cash' hc'
    rw [paidOut_cons] at hle
    have hgot : 0 ≤ if t.toVenue = t'.fromVenue then t.amount else 0 := by
      split
      · exact hamount
      · exact le_refl 0
    linarith

end Fundable

/-- **A covered plan goes through**: every transfer of something is made, and
the cash moves as the plan says. -/
theorem applyTransfers_eq {b : Brokers} {acct : AccountId} {plan : List CashTransfer}
    (h : Fundable b acct plan) :
    (applyTransfers acct b plan).2 = plan.filter (0 < ·.amount) ∧
      ∀ v, (applyTransfers acct b plan).1.cashAt acct v =
        (b.cashAt acct v).map fun cash => cash - paidOut plan v + takenIn plan v := by
  induction plan generalizing b with
  | nil => exact ⟨rfl, fun v => by simp [applyTransfers, paidOut, takenIn]⟩
  | cons t plan ih =>
      obtain ⟨-, hfrom, hto⟩ := h.venues t List.mem_cons_self
      obtain ⟨src, hsrc⟩ := Option.isSome_iff_exists.mp hfrom
      obtain ⟨dst, hdst⟩ := Option.isSome_iff_exists.mp hto
      unfold applyTransfers
      simp only [hsrc, hdst]
      by_cases hpos : 0 < t.amount
      · have hpaid : (src.withdraw acct t.amount).2 = true :=
          withdraw_snd.mpr ⟨hpos, h.amount_le hsrc⟩
        rw [if_pos hpaid, List.filter_cons_of_pos (by simpa using hpos)]
        obtain ⟨happlied, hafter⟩ := ih (h.transfer hsrc hpaid)
        refine ⟨congrArg (t :: ·) happlied, fun v => ?_⟩
        show Brokers.cashAt _ acct v = _
        rw [hafter, cashAt_transfer hsrc hpaid h.ne, Option.map_map, paidOut_cons, takenIn_cons]
        congr 1
        funext cash
        simp only [Function.comp_apply]
        ring
      · -- nothing is asked for, and the withdrawal is refused
        have hzero : t.amount = 0 :=
          le_antisymm (not_lt.mp hpos) (h.nonneg t List.mem_cons_self)
        have hrefused : ¬ (src.withdraw acct t.amount).2 = true := fun hok =>
          hpos (withdraw_snd.mp hok).1
        rw [if_neg hrefused, List.filter_cons_of_neg (by simpa using hpos)]
        obtain ⟨happlied, hafter⟩ := ih (h.skip hzero)
        refine ⟨happlied, fun v => ?_⟩
        rw [hafter, paidOut_cons, takenIn_cons, hzero, ite_self, ite_self, zero_add, zero_add]

/-- **Cash is neither made nor lost**, whatever the plan. -/
theorem totalCash_applyTransfers (acct : AccountId) (b : Brokers) (plan : List CashTransfer) :
    (applyTransfers acct b plan).1.totalCash acct = b.totalCash acct := by
  induction plan generalizing b with
  | nil => rfl
  | cons t plan ih =>
      unfold applyTransfers
      cases hsrc : b.get? t.fromVenue with
      | none => exact ih b
      | some src =>
      cases hdst : b.get? t.toVenue with
      | none => exact ih b
      | some dst =>
          simp only
          -- a withdrawal that is refused ends the transfer, and nothing is deposited
          by_cases hpaid : (src.withdraw acct t.amount).2 = true
          swap
          · rw [if_neg hpaid]
            exact ih b
          rw [if_pos hpaid]
          refine (ih _).trans ?_
          have hvenue : (src.withdraw acct t.amount).1.venueId = t.fromVenue := by
            rw [venueId_withdraw]
            exact Brokers.venueId_of_get? hsrc
          have hout : (b.put (src.withdraw acct t.amount).1).totalCash acct =
              b.totalCash acct - t.amount := by
            unfold Brokers.totalCash
            rw [Brokers.total_put (a := src) _ (by rw [hvenue, hsrc]), cash_withdraw hpaid]
            ring
          obtain ⟨dst', hdst'⟩ : ∃ dst', (b.put (src.withdraw acct t.amount).1).get? t.toVenue =
              some dst' := by
            rw [Brokers.get?_put]
            split
            · exact ⟨_, rfl⟩
            · exact ⟨dst, hdst⟩
          have hin : (dst'.deposit acct t.amount).venueId = t.toVenue := by
            show dst'.venueId = t.toVenue
            exact Brokers.venueId_of_get? hdst'
          unfold Brokers.totalCash at hout ⊢
          rw [Brokers.modify, hdst', Brokers.total_put (a := dst') _ (by rw [hin, hdst']), hout,
            cash_deposit]
          ring

/-! ## The plan -/

/-- The equal share of a balances map. -/
def equalShare (balances : Dict VenueId ℚ) : ℚ :=
  balances.values.sum / balances.entries.length

/-- What the venues above a share have over it, in the order they pay. -/
def surplusOver (share : ℚ) (entries : List (VenueId × ℚ)) : List (VenueId × ℚ) :=
  ((entries.filter fun e => share < e.2).map fun e => (e.1, e.2 - share)).mergeSort dearerFirst

/-- What the venues below a share lack, in the order they are paid. -/
def deficitUnder (share : ℚ) (entries : List (VenueId × ℚ)) : List (VenueId × ℚ) :=
  ((entries.filter fun e => e.2 < share).map fun e => (e.1, share - e.2)).mergeSort dearerFirst

/-- The transfer planned for a move. -/
def rounded (minTransfer : ℚ) (m : Move VenueId ℚ) : Option CashTransfer :=
  if minTransfer ≤ floorCent m.amount then some ⟨m.payer, m.payee, floorCent m.amount⟩ else none

/-- What is transferred of an amount that should move. -/
def executed (minTransfer x : ℚ) : ℚ := if minTransfer ≤ floorCent x then floorCent x else 0

theorem meetDeficit_eq (minTransfer : ℚ) (toVenue : VenueId) (want : ℚ)
    (surplus : List (VenueId × ℚ)) :
    meetDeficit minTransfer toVenue want surplus =
      ((meet toVenue want surplus).1.filterMap (rounded minTransfer),
        (meet toVenue want surplus).2) := by
  induction surplus generalizing want with
  | nil => rfl
  | cons e surplus ih =>
      obtain ⟨fromVenue, spare⟩ := e
      rw [meetDeficit, meet]
      by_cases hwant : want ≤ 0
      · rw [if_pos hwant, if_pos hwant]
        rfl
      · rw [if_neg hwant, if_neg hwant]
        by_cases hspare : spare ≤ want
        · have hmove : min want spare = spare := min_eq_right hspare
          simp only [hmove, sub_self, le_refl, if_true, if_pos hspare, ih]
          rw [List.filterMap_cons, rounded]
          by_cases hmin : minTransfer ≤ floorCent spare <;> simp [hmin]
        · have hlt : want < spare := not_le.mp hspare
          have hmove : min want spare = want := min_eq_left (le_of_lt hlt)
          have hleft : ¬ spare - want ≤ 0 := not_le.mpr (sub_pos.mpr hlt)
          simp only [hmove, if_neg hleft, if_neg hspare]
          rw [List.filterMap_cons, rounded]
          by_cases hmin : minTransfer ≤ floorCent want <;> simp [hmin]

/-- The outer loop. -/
theorem foldl_meetDeficit (minTransfer : ℚ) (deficit surplus : List (VenueId × ℚ))
    (plan : List CashTransfer) :
    (deficit.foldl (fun (plan : List CashTransfer × List (VenueId × ℚ)) d =>
        let met := meetDeficit minTransfer d.1 d.2 plan.2
        (plan.1 ++ met.1, met.2)) (plan, surplus)).1 =
      plan ++ (level deficit surplus).1.filterMap (rounded minTransfer) := by
  induction deficit generalizing plan surplus with
  | nil => simp [level]
  | cons d deficit ih =>
      obtain ⟨toVenue, want⟩ := d
      rw [List.foldl_cons]
      refine (ih _ _).trans ?_
      simp only [meetDeficit_eq]
      rw [level, List.filterMap_append, List.append_assoc]

/-- **The plan** is the rounded moves that meet the deficits from the
surpluses. -/
theorem planTransfers_eq {balances : Dict VenueId ℚ} (hlen : 2 ≤ balances.entries.length)
    (htotal : 0 < balances.values.sum) (minTransfer : ℚ) :
    planTransfers balances minTransfer =
      (level (deficitUnder (equalShare balances) balances.entries)
        (surplusOver (equalShare balances) balances.entries)).1.filterMap
          (rounded minTransfer) := by
  rw [planTransfers, if_neg (not_lt.mpr hlen)]
  simp only [if_neg (not_le.mpr htotal)]
  exact (foldl_meetDeficit minTransfer _ _ []).trans (List.nil_append _)

/-! ### Rounding -/

theorem floorCent_nonneg {x : ℚ} (hx : 0 ≤ x) : 0 ≤ floorCent x := by
  have h100 : 0 ≤ x * 100 := by linarith
  rw [floorCent, truncate, if_pos h100]
  have hfloor : (0 : ℚ) ≤ ⌊x * 100⌋ := by exact_mod_cast Int.floor_nonneg.mpr h100
  linarith

theorem floorCent_le {x : ℚ} (hx : 0 ≤ x) : floorCent x ≤ x := by
  have h100 : 0 ≤ x * 100 := by linarith
  rw [floorCent, truncate, if_pos h100]
  have hfloor := Int.floor_le (x * 100)
  linarith

theorem sub_floorCent_le {x : ℚ} (hx : 0 ≤ x) : x - floorCent x ≤ 1 / 100 := by
  have h100 : 0 ≤ x * 100 := by linarith
  rw [floorCent, truncate, if_pos h100]
  have hfloor := Int.lt_floor_add_one (x * 100)
  linarith

theorem executed_le {minTransfer x : ℚ} (hx : 0 ≤ x) : executed minTransfer x ≤ x := by
  unfold executed
  split
  · exact floorCent_le hx
  · exact hx

theorem sub_executed_le {minTransfer x : ℚ} (hmin : 0 ≤ minTransfer) (hx : 0 ≤ x) :
    x - executed minTransfer x ≤ minTransfer + 1 / 100 := by
  have hcent := sub_floorCent_le hx
  unfold executed
  split
  · linarith
  · rename_i hdropped
    have hsmall : floorCent x < minTransfer := not_le.mp hdropped
    linarith

/-- The rounded moves between chosen venues sum to their rounded amounts. -/
theorem sum_rounded (minTransfer : ℚ) (p : VenueId → VenueId → Bool)
    (moves : List (Move VenueId ℚ)) :
    (((moves.filterMap (rounded minTransfer)).filter fun t => p t.fromVenue t.toVenue).map
        (·.amount)).sum =
      (((moves.filter fun m => p m.payer m.payee).map (·.amount)).map (executed minTransfer)).sum := by
  induction moves with
  | nil => rfl
  | cons m moves ih =>
      rw [List.filterMap_cons]
      by_cases hmin : minTransfer ≤ floorCent m.amount
      · have hkept : rounded minTransfer m = some ⟨m.payer, m.payee, floorCent m.amount⟩ :=
          if_pos hmin
        rw [hkept]
        cases hp : p m.payer m.payee <;> simp [hp, ih, executed, hmin]
      · have hdropped : rounded minTransfer m = none := if_neg hmin
        rw [hdropped]
        cases hp : p m.payer m.payee <;> simp [hp, ih, executed, hmin]

theorem paidOut_rounded (minTransfer : ℚ) (moves : List (Move VenueId ℚ)) (v : VenueId) :
    paidOut (moves.filterMap (rounded minTransfer)) v =
      (((paidBy moves v).map (·.amount)).map (executed minTransfer)).sum :=
  sum_rounded minTransfer (fun payer _ => payer = v) moves

theorem takenIn_rounded (minTransfer : ℚ) (moves : List (Move VenueId ℚ)) (v : VenueId) :
    takenIn (moves.filterMap (rounded minTransfer)) v =
      (((gotBy moves v).map (·.amount)).map (executed minTransfer)).sum :=
  sum_rounded minTransfer (fun _ payee => payee = v) moves

/-- Rounding a few moves takes at most a step from each. -/
theorem total_sub_executed {minTransfer : ℚ} (hmin : 0 ≤ minTransfer)
    {moves : List (Move VenueId ℚ)} (hpos : ∀ m ∈ moves, 0 < m.amount) {n : ℕ}
    (hlen : moves.length ≤ n) :
    0 ≤ total moves - ((moves.map (·.amount)).map (executed minTransfer)).sum ∧
      total moves - ((moves.map (·.amount)).map (executed minTransfer)).sum ≤
        n * (minTransfer + 1 / 100) := by
  have hnonneg : ∀ x ∈ moves.map (·.amount), 0 ≤ x := by
    intro x hx
    obtain ⟨m, hm, rfl⟩ := List.mem_map.mp hx
    exact le_of_lt (hpos m hm)
  obtain ⟨hlow, hhigh⟩ := sum_sub_sum_round (executed minTransfer)
    (fun x hx => executed_le (hnonneg x hx)) (fun x hx => sub_executed_le hmin (hnonneg x hx))
  refine ⟨hlow, hhigh.trans ?_⟩
  rw [nsmul_eq_mul, List.length_map]
  exact mul_le_mul_of_nonneg_right (by exact_mod_cast hlen) (by linarith)

/-! ### Who pays and who is paid -/

section Sides

variable {share : ℚ} {entries : List (VenueId × ℚ)}

/-- What a side holds: an entry of its own, with its amount. -/
theorem mem_side {keep : VenueId × ℚ → Bool} {f : VenueId × ℚ → ℚ} {v : VenueId} {d : ℚ} :
    (v, d) ∈ ((entries.filter keep).map fun e => (e.1, f e)).mergeSort dearerFirst ↔
      ∃ x, (v, x) ∈ entries ∧ keep (v, x) = true ∧ d = f (v, x) := by
  rw [List.mem_mergeSort, List.mem_map]
  constructor
  · rintro ⟨⟨v', x⟩, hmem, heq⟩
    obtain ⟨hentry, hkeep⟩ := List.mem_filter.mp hmem
    cases heq
    exact ⟨x, hentry, hkeep, rfl⟩
  · rintro ⟨x, hentry, hkeep, rfl⟩
    exact ⟨(v, x), List.mem_filter.mpr ⟨hentry, hkeep⟩, rfl⟩

theorem mem_surplusOver {v : VenueId} {d : ℚ} :
    (v, d) ∈ surplusOver share entries ↔ ∃ x, (v, x) ∈ entries ∧ share < x ∧ d = x - share := by
  rw [surplusOver, mem_side]
  simp only [decide_eq_true_eq]

theorem mem_deficitUnder {v : VenueId} {d : ℚ} :
    (v, d) ∈ deficitUnder share entries ↔ ∃ x, (v, x) ∈ entries ∧ x < share ∧ d = share - x := by
  rw [deficitUnder, mem_side]
  simp only [decide_eq_true_eq]

/-- A reordered part of the entries, with other amounts, keeps keys apart. -/
theorem nodup_keys_mergeSort {f : VenueId × ℚ → ℚ} {keep : VenueId × ℚ → Bool}
    (h : (entries.map Prod.fst).Nodup) :
    ((((entries.filter keep).map fun e => (e.1, f e)).mergeSort dearerFirst).map
      Prod.fst).Nodup := by
  have hperm := (List.mergeSort_perm ((entries.filter keep).map fun e => (e.1, f e))
    dearerFirst).map Prod.fst
  rw [hperm.nodup_iff, List.map_map]
  exact h.sublist (List.filter_sublist.map Prod.fst)

theorem length_sides_le (share : ℚ) (entries : List (VenueId × ℚ)) :
    (surplusOver share entries).length + (deficitUnder share entries).length ≤
      entries.length := by
  simp only [surplusOver, deficitUnder, List.length_mergeSort, List.length_map]
  induction entries with
  | nil => simp
  | cons e entries ih =>
      rw [List.filter_cons, List.filter_cons, List.length_cons]
      by_cases habove : share < e.2
      · have hbelow : ¬ e.2 < share := not_lt.mpr (le_of_lt habove)
        simp only [habove, hbelow, decide_true, decide_false, if_true, List.length_cons,
          Bool.false_eq_true, if_false]
        omega
      · by_cases hbelow : e.2 < share
        · simp only [habove, hbelow, decide_true, decide_false, if_true, List.length_cons,
            Bool.false_eq_true, if_false]
          omega
        · simp only [habove, hbelow, decide_false, Bool.false_eq_true, if_false]
          omega

/-- What lies above the share exceeds what lacks by what the entries exceed
the share by. -/
theorem sum_sides (share : ℚ) (entries : List (VenueId × ℚ)) :
    ((surplusOver share entries).map Prod.snd).sum -
        ((deficitUnder share entries).map Prod.snd).sum =
      (entries.map Prod.snd).sum - entries.length * share := by
  have hsurplus := ((List.mergeSort_perm ((entries.filter fun e => share < e.2).map
    fun e => (e.1, e.2 - share)) dearerFirst).map Prod.snd).sum_eq
  have hdeficit := ((List.mergeSort_perm ((entries.filter fun e => e.2 < share).map
    fun e => (e.1, share - e.2)) dearerFirst).map Prod.snd).sum_eq
  rw [surplusOver, deficitUnder, hsurplus, hdeficit]
  clear hsurplus hdeficit
  induction entries with
  | nil => simp
  | cons e entries ih =>
      rw [List.filter_cons, List.filter_cons, List.map_cons, List.sum_cons, List.length_cons]
      push_cast
      rcases lt_trichotomy share e.2 with habove | heq | hbelow
      · have hnot : ¬ e.2 < share := not_lt.mpr (le_of_lt habove)
        simp only [habove, hnot, decide_true, decide_false, if_true, Bool.false_eq_true, if_false,
          List.map_cons, List.sum_cons]
        linarith
      · simp only [← heq, lt_irrefl, decide_false, Bool.false_eq_true, if_false]
        linarith
      · have hnot : ¬ share < e.2 := not_lt.mpr (le_of_lt hbelow)
        simp only [hbelow, hnot, decide_true, decide_false, if_true, Bool.false_eq_true, if_false,
          List.map_cons, List.sum_cons]
        linarith

end Sides

/-! ### What the plan asks of a venue -/

section Plan

variable {balances : Dict VenueId ℚ} {minTransfer : ℚ}

/-- The shares add up to the total, so the surpluses add up to the deficits. -/
theorem sum_deficit_eq (hlen : 2 ≤ balances.entries.length) :
    ((deficitUnder (equalShare balances) balances.entries).map Prod.snd).sum =
      ((surplusOver (equalShare balances) balances.entries).map Prod.snd).sum := by
  have hsides := sum_sides (equalShare balances) balances.entries
  have hn : (balances.entries.length : ℚ) ≠ 0 := by
    exact_mod_cast (by omega : balances.entries.length ≠ 0)
  have hshare : balances.entries.length * equalShare balances =
      (balances.entries.map Prod.snd).sum := mul_div_cancel₀ _ hn
  linarith

theorem surplusOver_pos {share : ℚ} {entries : List (VenueId × ℚ)} :
    ∀ e ∈ surplusOver share entries, 0 < e.2 := by
  rintro ⟨v, d⟩ h
  obtain ⟨x, -, hlt, rfl⟩ := mem_surplusOver.mp h
  exact sub_pos.mpr hlt

theorem deficitUnder_pos {share : ℚ} {entries : List (VenueId × ℚ)} :
    ∀ e ∈ deficitUnder share entries, 0 < e.2 := by
  rintro ⟨v, d⟩ h
  obtain ⟨x, -, hlt, rfl⟩ := mem_deficitUnder.mp h
  exact sub_pos.mpr hlt

/-- The surplus and the deficit of one venue. -/
theorem amountOf_sides (share : ℚ) {v : VenueId} {x : ℚ} (h : balances.get? v = some x) :
    amountOf (surplusOver share balances.entries) v = max (x - share) 0 ∧
      amountOf (deficitUnder share balances.entries) v = max (share - x) 0 := by
  have hmem : (v, x) ∈ balances.entries := Dict.mem_entries_iff.mpr h
  have honly : ∀ y, (v, y) ∈ balances.entries → y = x := by
    intro y hy
    rw [Dict.mem_entries_iff, h] at hy
    exact (Option.some.inj hy).symm
  constructor
  · by_cases hlt : share < x
    · rw [max_eq_left (le_of_lt (sub_pos.mpr hlt))]
      exact amountOf_of_mem (nodup_keys_mergeSort balances.nodup)
        (mem_surplusOver.mpr ⟨x, hmem, hlt, rfl⟩)
    · rw [max_eq_right (sub_nonpos.mpr (not_lt.mp hlt))]
      apply amountOf_of_notMem
      intro hkey
      obtain ⟨⟨v', d⟩, hd, rfl⟩ := List.mem_map.mp hkey
      obtain ⟨y, hy, hy', -⟩ := mem_surplusOver.mp hd
      rw [honly y hy] at hy'
      exact hlt hy'
  · by_cases hlt : x < share
    · rw [max_eq_left (le_of_lt (sub_pos.mpr hlt))]
      exact amountOf_of_mem (nodup_keys_mergeSort balances.nodup)
        (mem_deficitUnder.mpr ⟨x, hmem, hlt, rfl⟩)
    · rw [max_eq_right (sub_nonpos.mpr (not_lt.mp hlt))]
      apply amountOf_of_notMem
      intro hkey
      obtain ⟨⟨v', d⟩, hd, rfl⟩ := List.mem_map.mp hkey
      obtain ⟨y, hy, hy', -⟩ := mem_deficitUnder.mp hd
      rw [honly y hy] at hy'
      exact hlt hy'

variable (hmin : 0 ≤ minTransfer) (hlen : 2 ≤ balances.entries.length)
  (htotal : 0 < balances.values.sum)

include hmin hlen htotal

/-- What a plan takes from a venue is its surplus, short of it by a rounding
for every venue that is paid. -/
theorem paidOut_plan (v : VenueId) :
    0 ≤ amountOf (surplusOver (equalShare balances) balances.entries) v -
        paidOut (planTransfers balances minTransfer) v ∧
      amountOf (surplusOver (equalShare balances) balances.entries) v -
          paidOut (planTransfers balances minTransfer) v ≤
        (deficitUnder (equalShare balances) balances.entries).length * (minTransfer + 1 / 100) := by
  set surplus := surplusOver (equalShare balances) balances.entries with hs
  set deficit := deficitUnder (equalShare balances) balances.entries with hd
  have hexact : total (paidBy (level deficit surplus).1 v) = amountOf surplus v :=
    paid_level_eq surplusOver_pos (fun e he => le_of_lt (deficitUnder_pos e he))
      (sum_deficit_eq hlen) v
  have hpos : ∀ m ∈ paidBy (level deficit surplus).1 v, 0 < m.amount := by
    intro m hm
    exact (level_pos _ surplusOver_pos).1 m (List.mem_filter.mp hm).1
  rw [planTransfers_eq hlen htotal, ← hs, ← hd, paidOut_rounded, ← hexact]
  exact total_sub_executed hmin hpos
    (length_paid_level_le deficit (nodup_keys_mergeSort balances.nodup) v)

/-- What a plan gives a venue is its deficit, short of it by a rounding for
every venue that pays. -/
theorem takenIn_plan (v : VenueId) :
    0 ≤ amountOf (deficitUnder (equalShare balances) balances.entries) v -
        takenIn (planTransfers balances minTransfer) v ∧
      amountOf (deficitUnder (equalShare balances) balances.entries) v -
          takenIn (planTransfers balances minTransfer) v ≤
        (surplusOver (equalShare balances) balances.entries).length * (minTransfer + 1 / 100) := by
  set surplus := surplusOver (equalShare balances) balances.entries with hs
  set deficit := deficitUnder (equalShare balances) balances.entries with hd
  have hexact : total (gotBy (level deficit surplus).1 v) = amountOf deficit v :=
    got_level (fun e he => le_of_lt (deficitUnder_pos e he)) (le_of_eq (sum_deficit_eq hlen)) v
  have hpos : ∀ m ∈ gotBy (level deficit surplus).1 v, 0 < m.amount := by
    intro m hm
    exact (level_pos _ surplusOver_pos).1 m (List.mem_filter.mp hm).1
  rw [planTransfers_eq hlen htotal, ← hs, ← hd, takenIn_rounded, ← hexact]
  exact total_sub_executed hmin hpos
    (length_got_level_le surplus (nodup_keys_mergeSort balances.nodup) v)

omit hmin in
/-- A transfer of the plan is from a venue above the share to one below it. -/
theorem sides_of_mem_plan {t : CashTransfer} (ht : t ∈ planTransfers balances minTransfer) :
    0 ≤ t.amount ∧ (∃ x, balances.get? t.fromVenue = some x ∧ equalShare balances < x) ∧
      ∃ x, balances.get? t.toVenue = some x ∧ x < equalShare balances := by
  rw [planTransfers_eq hlen htotal] at ht
  obtain ⟨m, hm, hrounded⟩ := List.mem_filterMap.mp ht
  have hamount : 0 ≤ m.amount := le_of_lt ((level_pos _ surplusOver_pos).1 m hm)
  obtain ⟨⟨payer, d⟩, hpayer, hfrom⟩ := List.mem_map.mp (payer_of_mem_level hm)
  obtain ⟨⟨payee, d'⟩, hpayee, hto⟩ := List.mem_map.mp (payee_of_mem_level hm)
  obtain ⟨x, hx, hlt, -⟩ := mem_surplusOver.mp hpayer
  obtain ⟨x', hx', hlt', -⟩ := mem_deficitUnder.mp hpayee
  unfold rounded at hrounded
  split at hrounded
  · cases hrounded
    subst hfrom hto
    exact ⟨floorCent_nonneg hamount, ⟨x, Dict.mem_entries_iff.mp hx, hlt⟩, x',
      Dict.mem_entries_iff.mp hx', hlt'⟩
  · cases hrounded

end Plan

/-! ## Applying the plan -/

theorem paidOut_append (plan plan' : List CashTransfer) (v : VenueId) :
    paidOut (plan ++ plan') v = paidOut plan v + paidOut plan' v := by
  simp [paidOut]

theorem takenIn_append (plan plan' : List CashTransfer) (v : VenueId) :
    takenIn (plan ++ plan') v = takenIn plan v + takenIn plan' v := by
  simp [takenIn]

/-- The transfers of a plan are applied one after the other: what the first
ones leave is the state an intermediate step is in. -/
theorem applyTransfers_append (acct : AccountId) (b : Brokers) (plan plan' : List CashTransfer) :
    applyTransfers acct b (plan ++ plan') =
      ((applyTransfers acct (applyTransfers acct b plan).1 plan').1,
        (applyTransfers acct b plan).2 ++ (applyTransfers acct (applyTransfers acct b plan).1 plan').2)
    := by
  induction plan generalizing b with
  | nil => rfl
  | cons t plan ih =>
      rw [List.cons_append, applyTransfers, applyTransfers]
      cases b.get? t.fromVenue with
      | none => exact ih b
      | some src =>
      cases b.get? t.toVenue with
      | none => exact ih b
      | some dst =>
          simp only
          split
          · rw [ih]
            rfl
          · exact ih b

section Levels

variable {b : Brokers} {acct : AccountId} {balances : Dict VenueId ℚ} {minTransfer : ℚ}
  (hb : ∀ v, b.cashAt acct v = balances.get? v) (hmin : 0 ≤ minTransfer)
  (hlen : 2 ≤ balances.entries.length) (htotal : 0 < balances.values.sum)

include hb hmin hlen htotal

/-- The first transfers of the plan ask no venue for more than it holds. -/
theorem fundable_plan {before after : List CashTransfer}
    (hplan : planTransfers balances minTransfer = before ++ after) : Fundable b acct before := by
  have hside := fun t (ht : t ∈ before) =>
    sides_of_mem_plan hlen htotal (hplan ▸ List.mem_append_left after ht)
  have hnonneg : ∀ t ∈ before ++ after, 0 ≤ t.amount := fun t ht =>
    (sides_of_mem_plan hlen htotal (hplan ▸ ht)).1
  refine ⟨fun t ht => (hside t ht).1, fun t ht => ?_, fun t ht cash hcash => ?_⟩
  · obtain ⟨-, ⟨x, hx, hlt⟩, x', hx', hlt'⟩ := hside t ht
    have hfrom := hb t.fromVenue
    have hto := hb t.toVenue
    rw [hx, Brokers.cashAt, Option.map_eq_some_iff] at hfrom
    rw [hx', Brokers.cashAt, Option.map_eq_some_iff] at hto
    obtain ⟨a, ha, -⟩ := hfrom
    obtain ⟨a', ha', -⟩ := hto
    refine ⟨fun heq => ?_, by rw [ha]; rfl, by rw [ha']; rfl⟩
    rw [heq, hx'] at hx
    cases hx
    exact absurd hlt (not_lt.mpr (le_of_lt hlt'))
  · obtain ⟨-, ⟨x, hx, hlt⟩, -⟩ := hside t ht
    rw [Option.mem_def, hb, hx] at hcash
    cases hcash
    -- the whole plan takes no more than the surplus, and the share is positive
    have hwhole := (paidOut_plan hmin hlen htotal t.fromVenue).1
    rw [(amountOf_sides _ hx).1, max_eq_left (le_of_lt (sub_pos.mpr hlt)), hplan, paidOut_append]
      at hwhole
    have hrest := paidOut_nonneg (fun t ht => hnonneg t (List.mem_append_right before ht))
      t.fromVenue
    have hshare : 0 < equalShare balances :=
      div_pos htotal (by exact_mod_cast (by omega : 0 < balances.entries.length))
    linarith

/-- **No venue crosses the share**, after any number of the plan's transfers. -/
theorem same_side_plan {before after : List CashTransfer}
    (hplan : planTransfers balances minTransfer = before ++ after) {v : VenueId} {x : ℚ}
    (hx : balances.get? v = some x) :
    ∃ cash, (applyTransfers acct b before).1.cashAt acct v = some cash ∧
      (equalShare balances ≤ x → equalShare balances ≤ cash) ∧
      (x ≤ equalShare balances → cash ≤ equalShare balances) := by
  have hnonneg : ∀ t ∈ before ++ after, 0 ≤ t.amount := fun t ht =>
    (sides_of_mem_plan hlen htotal (hplan ▸ ht)).1
  have hafter := (applyTransfers_eq (fundable_plan hb hmin hlen htotal hplan)).2 v
  rw [hb, hx] at hafter
  refine ⟨_, hafter, ?_⟩
  obtain ⟨hsurplus, hdeficit⟩ := amountOf_sides (equalShare balances) hx
  have hpaid := (paidOut_plan hmin hlen htotal v).1
  have htaken := (takenIn_plan hmin hlen htotal v).1
  rw [hsurplus, hplan, paidOut_append] at hpaid
  rw [hdeficit, hplan, takenIn_append] at htaken
  have hpaid0 := paidOut_nonneg (fun t ht => hnonneg t (List.mem_append_left after ht)) v
  have htaken0 := takenIn_nonneg (fun t ht => hnonneg t (List.mem_append_left after ht)) v
  have hpaid1 := paidOut_nonneg (fun t ht => hnonneg t (List.mem_append_right before ht)) v
  have htaken1 := takenIn_nonneg (fun t ht => hnonneg t (List.mem_append_right before ht)) v
  constructor
  · intro hle
    rw [max_eq_left (sub_nonneg.mpr hle)] at hpaid
    linarith
  · intro hle
    rw [max_eq_left (sub_nonneg.mpr hle)] at htaken
    linarith

/-- **Every venue ends near the share**: within a rounding for each other
venue. -/
theorem near_share_plan {v : VenueId} {x : ℚ} (hx : balances.get? v = some x) :
    ∃ cash, (applyTransfers acct b (planTransfers balances minTransfer)).1.cashAt acct v =
        some cash ∧
      |cash - equalShare balances| ≤
        (balances.entries.length - 1) * (minTransfer + 1 / 100) := by
  have hplan := (List.append_nil (planTransfers balances minTransfer)).symm
  have hafter := (applyTransfers_eq (fundable_plan hb hmin hlen htotal hplan)).2 v
  rw [hb, hx] at hafter
  refine ⟨_, hafter, ?_⟩
  obtain ⟨hsurplus, hdeficit⟩ := amountOf_sides (equalShare balances) hx
  obtain ⟨hpaid, hpaid'⟩ := paidOut_plan hmin hlen htotal v
  obtain ⟨htaken, htaken'⟩ := takenIn_plan hmin hlen htotal v
  rw [hsurplus] at hpaid hpaid'
  rw [hdeficit] at htaken htaken'
  have hsides := length_sides_le (equalShare balances) balances.entries
  have hnonneg : ∀ t ∈ planTransfers balances minTransfer, 0 ≤ t.amount := fun t ht =>
    (sides_of_mem_plan hlen htotal ht).1
  have hpaid0 := paidOut_nonneg hnonneg v
  have htaken0 := takenIn_nonneg hnonneg v
  have hstep : 0 ≤ minTransfer + 1 / 100 := by linarith
  have hmem : (v, x) ∈ balances.entries := Dict.mem_entries_iff.mpr hx
  rcases lt_trichotomy (equalShare balances) x with habove | heq | hbelow
  · -- it pays, so the venues paid are among the others
    have hpays : 0 < (surplusOver (equalShare balances) balances.entries).length :=
      List.length_pos_of_mem (mem_surplusOver.mpr ⟨x, hmem, habove, rfl⟩)
    have hcount : ((deficitUnder (equalShare balances) balances.entries).length : ℚ) ≤
        balances.entries.length - 1 := by
      rw [le_sub_iff_add_le]
      exact_mod_cast (by omega : (deficitUnder (equalShare balances) balances.entries).length + 1 ≤
        balances.entries.length)
    have hbound := mul_le_mul_of_nonneg_right hcount hstep
    rw [max_eq_left (le_of_lt (sub_pos.mpr habove))] at hpaid hpaid'
    rw [max_eq_right (by linarith)] at htaken htaken'
    rw [abs_le]
    constructor <;> linarith
  · rw [heq, sub_self, max_self] at hpaid hpaid' htaken htaken'
    have hcount : (0 : ℚ) ≤ balances.entries.length - 1 := by
      have : (2 : ℚ) ≤ balances.entries.length := by exact_mod_cast hlen
      linarith
    have hbound := mul_nonneg hcount hstep
    rw [abs_le]
    constructor <;> linarith
  · -- it is paid, so the venues that pay are among the others
    have hpaidTo : 0 < (deficitUnder (equalShare balances) balances.entries).length :=
      List.length_pos_of_mem (mem_deficitUnder.mpr ⟨x, hmem, hbelow, rfl⟩)
    have hcount : ((surplusOver (equalShare balances) balances.entries).length : ℚ) ≤
        balances.entries.length - 1 := by
      rw [le_sub_iff_add_le]
      exact_mod_cast (by omega : (surplusOver (equalShare balances) balances.entries).length + 1 ≤
        balances.entries.length)
    have hbound := mul_le_mul_of_nonneg_right hcount hstep
    rw [max_eq_left (le_of_lt (sub_pos.mpr hbelow))] at htaken htaken'
    rw [max_eq_right (by linarith)] at hpaid hpaid'
    rw [abs_le]
    constructor <;> linarith

end Levels

/-- **Levelling is safe and levels.** Every planned transfer of something is
made, cash is kept, no venue crosses the equal share at any step, and with a
positive total each venue ends within a rounding for each other venue of it. -/
theorem applyTransfers_planTransfers (b : Brokers) (acct : AccountId)
    (balances : Dict VenueId ℚ) (minTransfer : ℚ) (hne : balances.entries ≠ [])
    (hmin : 0 ≤ minTransfer) (hb : ∀ v, b.cashAt acct v = balances.get? v) :
    (applyTransfers acct b (planTransfers balances minTransfer)).2 =
        (planTransfers balances minTransfer).filter (0 < ·.amount) ∧
      (applyTransfers acct b (planTransfers balances minTransfer)).1.totalCash acct =
        b.totalCash acct ∧
      (∀ before after, planTransfers balances minTransfer = before ++ after →
        ∀ v x, balances.get? v = some x →
          ∃ cash, (applyTransfers acct b before).1.cashAt acct v = some cash ∧
            (equalShare balances ≤ x → equalShare balances ≤ cash) ∧
            (x ≤ equalShare balances → cash ≤ equalShare balances)) ∧
      (0 < balances.values.sum → ∀ v x, balances.get? v = some x →
        ∃ cash, (applyTransfers acct b (planTransfers balances minTransfer)).1.cashAt acct v =
            some cash ∧
          |cash - equalShare balances| ≤
            (balances.entries.length - 1) * (minTransfer + 1 / 100)) := by
  by_cases hlevel : 2 ≤ balances.entries.length ∧ 0 < balances.values.sum
  · obtain ⟨hlen, htotal⟩ := hlevel
    have hplan := (List.append_nil (planTransfers balances minTransfer)).symm
    exact ⟨(applyTransfers_eq (fundable_plan hb hmin hlen htotal hplan)).1,
      totalCash_applyTransfers acct b _,
      fun before after hsplit v x hx => same_side_plan hb hmin hlen htotal hsplit hx,
      fun _ v x hx => near_share_plan hb hmin hlen htotal hx⟩
  -- a single venue, or nothing to share: the plan is empty
  have hempty : planTransfers balances minTransfer = [] := by
    unfold planTransfers
    by_cases hlen : balances.entries.length < 2
    · rw [if_pos hlen]
    · rw [if_neg hlen]
      have htotal : balances.values.sum ≤ 0 :=
        not_lt.mp fun htotal => hlevel ⟨not_lt.mp hlen, htotal⟩
      exact if_pos htotal
  rw [hempty]
  refine ⟨rfl, rfl, fun before after hsplit v x hx => ?_, fun htotal v x hx => ?_⟩
  · obtain ⟨rfl, -⟩ := List.append_eq_nil_iff.mp hsplit.symm
    refine ⟨x, ?_, id, id⟩
    show b.cashAt acct v = some x
    rw [hb, hx]
  · refine ⟨x, ?_, ?_⟩
    · show b.cashAt acct v = some x
      rw [hb, hx]
    · -- one venue holds the whole, which is its share
      have hlen : balances.entries.length = 1 := by
        have hpos := List.length_pos_iff.mpr hne
        have hnot : ¬ 2 ≤ balances.entries.length := fun h => hlevel ⟨h, htotal⟩
        omega
      obtain ⟨e, he⟩ := List.length_eq_one_iff.mp hlen
      have hmem := Dict.mem_entries_iff.mpr hx
      rw [he, List.mem_singleton] at hmem
      simp [equalShare, Dict.values, he, ← hmem]

namespace UnevenVenues

/-- Three brokers of one account: one holds nearly everything. -/
def brokers : Brokers :=
  ((Brokers.empty.put ((PaperExecutionAdapter.new "kalshi" .kalshi 0).deposit "default" 1000)).put
    ((PaperExecutionAdapter.new "novig" .novig 0).deposit "default" 7)).put
      (PaperExecutionAdapter.new "polymarket_us" .polymarketUs 0)

def balances : Dict VenueId ℚ := brokers.adapters.mapVal fun _ a => a.cash "default"

end UnevenVenues

open UnevenVenues in
theorem applyTransfers_planTransfers_uneven :
    (applyTransfers "default" brokers (planTransfers balances 1)).2 =
        (planTransfers balances 1).filter (0 < ·.amount) ∧
      (applyTransfers "default" brokers (planTransfers balances 1)).1.totalCash "default" =
        brokers.totalCash "default" ∧
      (∀ before after, planTransfers balances 1 = before ++ after →
        ∀ v x, balances.get? v = some x →
          ∃ cash, (applyTransfers "default" brokers before).1.cashAt "default" v = some cash ∧
            (equalShare balances ≤ x → equalShare balances ≤ cash) ∧
            (x ≤ equalShare balances → cash ≤ equalShare balances)) ∧
      (0 < balances.values.sum → ∀ v x, balances.get? v = some x →
        ∃ cash, (applyTransfers "default" brokers (planTransfers balances 1)).1.cashAt
            "default" v = some cash ∧
          |cash - equalShare balances| ≤ (balances.entries.length - 1) * (1 + 1 / 100)) :=
  applyTransfers_planTransfers brokers "default" balances 1 (by decide +kernel) (by norm_num)
    fun v => (Dict.get?_mapVal (fun _ (a : PaperExecutionAdapter) => a.cash "default")
      brokers.adapters v).symm

end Arbys
