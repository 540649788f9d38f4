import Arbys.ExecutionRouter
import Arbys.Qty

/-!
# Levelling free cash

`shared/cash.py` and `CashSweepService.sweep_once`: venues above an equal
share pay venues below it, the largest surplus first, in whole cents and
nothing under `minTransfer`. A sweep moves cash between the brokers of one
account and changes nothing else of them (`CashMoved`).
-/

namespace Arbys

open AccountState PaperExecutionAdapter

structure CashTransfer where
  fromVenue : VenueId
  toVenue : VenueId
  amount : ℚ
  deriving DecidableEq

/-- `_floor_cent`. -/
def floorCent (amount : ℚ) : ℚ := truncate (amount * 100) / 100

/-- The order of the key `(-amount, venue)`. -/
def dearerFirst (p q : VenueId × ℚ) : Bool :=
  decide (q.2 < p.2) || (decide (p.2 = q.2) && decide (p.1 ≤ q.1))

/-- The inner loop of `plan_transfers`: meet one deficit from the surpluses
left, and return the moves planned and the surpluses left after it. -/
def meetDeficit (minTransfer : ℚ) (toVenue : VenueId) :
    ℚ → List (VenueId × ℚ) → List CashTransfer × List (VenueId × ℚ)
  | _, [] => ([], [])
  | remaining, (fromVenue, spare) :: surplus =>
      if remaining ≤ 0 then ([], (fromVenue, spare) :: surplus)
      else
        let move := min remaining spare
        let amount := floorCent move
        let planned := if minTransfer ≤ amount then [⟨fromVenue, toVenue, amount⟩] else []
        if spare - move ≤ 0 then
          let rest := meetDeficit minTransfer toVenue (remaining - move) surplus
          (planned ++ rest.1, rest.2)
        -- spare is left, so nothing remains to be met and the loop ends
        else (planned, (fromVenue, spare - move) :: surplus)

/-- `plan_transfers`. -/
def planTransfers (balances : Dict VenueId ℚ) (minTransfer : ℚ) : List CashTransfer :=
  if balances.entries.length < 2 then []
  else
    let total := balances.values.sum
    if total ≤ 0 then []
    else
      let target := total / balances.entries.length
      let surplus := ((balances.entries.filter fun e => target < e.2).map fun e =>
        (e.1, e.2 - target)).mergeSort dearerFirst
      let deficit := ((balances.entries.filter fun e => e.2 < target).map fun e =>
        (e.1, target - e.2)).mergeSort dearerFirst
      (deficit.foldl (fun (plan : List CashTransfer × List (VenueId × ℚ)) d =>
        let met := meetDeficit minTransfer d.1 d.2 plan.2
        (plan.1 ++ met.1, met.2)) ([], surplus)).1

/-- `apply_transfers`: the brokers after it, and what actually moved. -/
def applyTransfers (acct : AccountId) : Brokers → List CashTransfer → Brokers × List CashTransfer
  | b, [] => (b, [])
  | b, t :: plan =>
      match b.get? t.fromVenue, b.get? t.toVenue with
      | some src, some _ =>
          let paid := src.withdraw acct t.amount
          if paid.2 then
            let rest := applyTransfers acct
              ((b.put paid.1).modify t.toVenue fun dst => dst.deposit acct t.amount) plan
            (rest.1, t :: rest.2)
          else applyTransfers acct b plan
      | _, _ => applyTransfers acct b plan

/-- `sweep_once` for one account, before it is persisted. -/
def sweepAccount (b : Brokers) (acct : AccountId) (minTransfer : ℚ) :
    Brokers × List CashTransfer :=
  applyTransfers acct b (planTransfers (b.adapters.mapVal fun _ a => a.cash acct) minTransfer)

/-- The venues a list of transfers touches. -/
def touched (moved : List CashTransfer) : List VenueId :=
  (moved.map (·.fromVenue) ++ moved.map (·.toVenue)).eraseDups

/-! ## A sweep moves cash only -/

/-- `a'` is `a` with some of the account's cash moved. -/
structure CashMoved (acct : AccountId) (a a' : PaperExecutionAdapter) : Prop where
  venueId : a'.venueId = a.venueId
  fees : a'.fees = a.fees
  slippageBps : a'.slippageBps = a.slippageBps
  log : a'.log = a.log
  others : ∀ j, j ≠ acct → a'.account j = a.account j
  held : ∃ balances, a'.account acct = { a.account acct with balances := balances }

namespace CashMoved

variable {acct : AccountId} {a a' a'' : PaperExecutionAdapter}

theorem refl (acct : AccountId) (a : PaperExecutionAdapter) : CashMoved acct a a :=
  ⟨rfl, rfl, rfl, rfl, fun _ _ => rfl, _, rfl⟩

theorem trans (h : CashMoved acct a a') (h' : CashMoved acct a' a'') : CashMoved acct a a'' := by
  obtain ⟨balances, hb⟩ := h.held
  obtain ⟨balances', hb'⟩ := h'.held
  refine ⟨h'.venueId.trans h.venueId, h'.fees.trans h.fees, h'.slippageBps.trans h.slippageBps,
    h'.log.trans h.log, fun j hj => (h'.others j hj).trans (h.others j hj), balances', ?_⟩
  rw [hb', hb]

theorem setBalances (acct : AccountId) (a : PaperExecutionAdapter) (balances : Dict VenueId ℚ) :
    CashMoved acct a (a.setAccount acct { a.account acct with balances := balances }) := by
  refine ⟨rfl, rfl, rfl, rfl, fun j hj => ?_, balances, ?_⟩
  · rw [account_setAccount, if_neg hj]
  · rw [account_setAccount, if_pos rfl]

theorem deposit (acct : AccountId) (a : PaperExecutionAdapter) (amount : ℚ) :
    CashMoved acct a (a.deposit acct amount) :=
  setBalances acct a _

theorem withdraw (acct : AccountId) (a : PaperExecutionAdapter) (amount : ℚ) :
    CashMoved acct a (a.withdraw acct amount).1 := by
  unfold PaperExecutionAdapter.withdraw
  simp only
  split
  · exact refl acct a
  · exact setBalances acct a _

end CashMoved

/-- Brokers that differ by cash of one account, on the venues of a list. -/
def Brokers.CashMoved (acct : AccountId) (venues : List VenueId) (b b' : Brokers) : Prop :=
  ∀ v, (v ∉ venues → b'.get? v = b.get? v) ∧
    Option.Rel (Arbys.CashMoved acct) (b.get? v) (b'.get? v)

namespace Brokers

variable {acct : AccountId} {venues venues' : List VenueId} {b b' b'' : Brokers}

theorem CashMoved.refl (acct : AccountId) (b : Brokers) : b.CashMoved acct [] b := by
  intro v
  refine ⟨fun _ => rfl, ?_⟩
  cases b.get? v with
  | none => exact .none
  | some a => exact .some (.refl acct a)

theorem CashMoved.trans (h : b.CashMoved acct venues b') (h' : b'.CashMoved acct venues' b'') :
    b.CashMoved acct (venues ++ venues') b'' := by
  intro v
  obtain ⟨hoff, hv⟩ := h v
  obtain ⟨hoff', hv'⟩ := h' v
  refine ⟨fun hmem => ?_, ?_⟩
  · obtain ⟨h1, h2⟩ := not_or.mp (mt List.mem_append.mpr hmem)
    rw [hoff' h2, hoff h1]
  · clear hoff hoff'
    revert hv hv'
    generalize b.get? v = x, b'.get? v = y, b''.get? v = z
    rintro (hxy | _) (hyz | _)
    · exact .some (hxy.trans hyz)
    · exact .none

/-- Moving cash of one broker. -/
theorem cashMoved_modify (acct : AccountId) (b : Brokers) (v : VenueId)
    {f : PaperExecutionAdapter → PaperExecutionAdapter} (hf : ∀ a, Arbys.CashMoved acct a (f a)) :
    b.CashMoved acct [v] (b.modify v f) := by
  intro w
  rw [get?_modify b v w fun a => (hf a).venueId]
  by_cases hw : w = v
  · refine ⟨fun h => absurd (List.mem_singleton.mpr hw) h, ?_⟩
    rw [if_pos hw]
    cases b.get? w with
    | none => exact .none
    | some a => exact .some (hf a)
  · rw [if_neg hw]
    exact ⟨fun _ => rfl, (CashMoved.refl acct b w).2⟩

end Brokers

theorem mem_touched {moved : List CashTransfer} {v : VenueId} :
    v ∈ touched moved ↔ ∃ t ∈ moved, v = t.fromVenue ∨ v = t.toVenue := by
  rw [touched, List.mem_eraseDups, List.mem_append, List.mem_map, List.mem_map]
  constructor
  · rintro (⟨t, ht, rfl⟩ | ⟨t, ht, rfl⟩)
    · exact ⟨t, ht, .inl rfl⟩
    · exact ⟨t, ht, .inr rfl⟩
  · rintro ⟨t, ht, rfl | rfl⟩
    · exact .inl ⟨t, ht, rfl⟩
    · exact .inr ⟨t, ht, rfl⟩

/-- One transfer, paid and received, and those after it. -/
theorem Brokers.cashMoved_transfer {acct : AccountId} {b b' : Brokers} {t : CashTransfer}
    {moved : List CashTransfer} {src src' : PaperExecutionAdapter}
    {receive : PaperExecutionAdapter → PaperExecutionAdapter}
    (hsrc : b.get? t.fromVenue = some src) (hpaid : Arbys.CashMoved acct src src')
    (hreceive : ∀ a, Arbys.CashMoved acct a (receive a))
    (hrest : ((b.put src').modify t.toVenue receive).CashMoved acct (touched moved) b') :
    b.CashMoved acct (touched (t :: moved)) b' := by
  have hput : b.CashMoved acct [t.fromVenue] (b.put src') := by
    have hv : src'.venueId = t.fromVenue := hpaid.venueId.trans (venueId_of_get? hsrc)
    intro v
    rw [get?_put, hv]
    by_cases hw : v = t.fromVenue
    · rw [if_pos hw, hw, hsrc]
      exact ⟨fun h => absurd (List.mem_singleton.mpr rfl) h, .some hpaid⟩
    · rw [if_neg hw]
      exact ⟨fun _ => rfl, (CashMoved.refl acct b v).2⟩
  have hall := (hput.trans ((b.put src').cashMoved_modify acct t.toVenue hreceive)).trans hrest
  intro v
  refine ⟨fun hv => (hall v).1 fun hmem => hv ?_, (hall v).2⟩
  rw [mem_touched]
  simp only [List.mem_append, List.mem_singleton] at hmem
  rcases hmem with (rfl | rfl) | hmem
  · exact ⟨t, List.mem_cons_self, .inl rfl⟩
  · exact ⟨t, List.mem_cons_self, .inr rfl⟩
  · obtain ⟨t', ht', h⟩ := mem_touched.mp hmem
    exact ⟨t', List.mem_cons_of_mem _ ht', h⟩

/-- **What applying a plan does**: it moves cash of the account on the venues
of the transfers that went through. -/
theorem applyTransfers_cashMoved (acct : AccountId) (b : Brokers) (plan : List CashTransfer) :
    b.CashMoved acct (touched (applyTransfers acct b plan).2) (applyTransfers acct b plan).1 := by
  induction plan generalizing b with
  | nil => exact .refl acct b
  | cons t plan ih =>
      unfold applyTransfers
      cases hs : b.get? t.fromVenue with
      | none => exact ih b
      | some src =>
      cases hd : b.get? t.toVenue with
      | none => exact ih b
      | some dst =>
          simp only
          by_cases hpaid : (src.withdraw acct t.amount).2 = true
          · rw [if_pos hpaid]
            exact Brokers.cashMoved_transfer hs (.withdraw acct src t.amount)
              (fun a => .deposit acct a t.amount) (ih _)
          · rw [if_neg hpaid]
            exact ih b

end Arbys
