import Arbys.Movement

/-!
# The execution router

`shared/execution_router.py` over paper adapters. A ticket is previewed leg by
leg against the untouched accounts; if every leg passes, all are applied with
no `await` in between, and a leg refused then unwinds the ones before it.

The previews and the commits each read the book once a leg: `clock n` is the
reading of the `n`-th look-up of a submission, so a quote may expire between
the preview of a leg and its commit.
-/

namespace Arbys

/-- The brokers by venue; each is filed under its own `venue_id`. -/
structure Brokers where
  adapters : Dict VenueId PaperExecutionAdapter
  keyed : ∀ v a, adapters.get? v = some a → a.venueId = v

namespace Brokers

def get? (b : Brokers) (v : VenueId) : Option PaperExecutionAdapter := b.adapters.get? v

/-- No broker. -/
def empty : Brokers := ⟨Dict.empty, fun _ _ h => by cases h⟩

/-- File a broker under its venue. -/
def put (b : Brokers) (a : PaperExecutionAdapter) : Brokers where
  adapters := b.adapters.set a.venueId a
  keyed := by
    intro v a' h
    rw [Dict.get?_set] at h
    split at h
    · rename_i hv
      cases h
      exact hv.symm
    · exact b.keyed v a' h

/-- Apply an operation to the broker of a venue, if there is one. -/
def modify (b : Brokers) (v : VenueId)
    (f : PaperExecutionAdapter → PaperExecutionAdapter) : Brokers :=
  match b.get? v with
  | none => b
  | some a => b.put (f a)

theorem venueId_of_get? {b : Brokers} {v : VenueId} {a : PaperExecutionAdapter}
    (h : b.get? v = some a) : a.venueId = v := b.keyed v a h

theorem get?_put (b : Brokers) (a : PaperExecutionAdapter) (v : VenueId) :
    (b.put a).get? v = if v = a.venueId then some a else b.get? v :=
  Dict.get?_set ..

theorem get?_modify (b : Brokers) (v w : VenueId)
    {f : PaperExecutionAdapter → PaperExecutionAdapter} (hf : ∀ a, (f a).venueId = a.venueId) :
    (b.modify v f).get? w = if w = v then (b.get? w).map f else b.get? w := by
  unfold modify
  cases h : b.get? v with
  | none =>
      by_cases hw : w = v
      · subst hw
        simp [h]
      · simp [hw]
  | some a =>
      simp only [get?_put, hf, venueId_of_get? h]
      by_cases hw : w = v
      · subst hw
        simp [h]
      · simp [hw]

/-- The same venues, each broker related to the one before it. -/
def Related (R : PaperExecutionAdapter → PaperExecutionAdapter → Prop) (b b' : Brokers) : Prop :=
  ∀ v, Option.Rel R (b.get? v) (b'.get? v)

section Related

variable {R : PaperExecutionAdapter → PaperExecutionAdapter → Prop} {b b' b'' : Brokers}

theorem Related.refl (hR : ∀ a, R a a) (b : Brokers) : b.Related R b := by
  intro v
  cases b.get? v with
  | none => exact .none
  | some a => exact .some (hR a)

theorem Related.trans (hR : ∀ {a a' a''}, R a a' → R a' a'' → R a a'') (h : b.Related R b')
    (h' : b'.Related R b'') : b.Related R b'' := by
  intro v
  have hv := h v
  have hv' := h' v
  revert hv hv'
  generalize b.get? v = x, b'.get? v = y, b''.get? v = z
  rintro (hxy | _) (hyz | _)
  · exact .some (hR hxy hyz)
  · exact .none

/-- An operation on one broker relates it to what it was. -/
theorem related_modify (hR : ∀ a, R a a) (b : Brokers) (v : VenueId)
    {f : PaperExecutionAdapter → PaperExecutionAdapter} (hf : ∀ a, R a (f a))
    (hv : ∀ a, (f a).venueId = a.venueId) : b.Related R (b.modify v f) := by
  intro w
  rw [get?_modify b v w hv]
  split
  · cases b.get? w with
    | none => exact .none
    | some a => exact .some (hf a)
  · exact Related.refl hR b w

/-- What every turn of a loop relates, the loop relates. -/
theorem Related.foldl {ι : Type} (hR : ∀ a, R a a)
    (htrans : ∀ {a a' a''}, R a a' → R a' a'' → R a a'') {f : Brokers → ι → Brokers}
    (hf : ∀ (b : Brokers) x, b.Related R (f b x)) (l : List ι) (b : Brokers) :
    b.Related R (l.foldl f b) := by
  induction l generalizing b with
  | nil => exact .refl hR b
  | cons x l ih => exact Related.trans htrans (hf b x) (ih (f b x))

theorem Related.eq_none_iff (h : b.Related R b') (v : VenueId) :
    b'.get? v = none ↔ b.get? v = none := by
  have hv := h v
  revert hv
  generalize b.get? v = x, b'.get? v = y
  rintro (_ | _) <;> simp

/-- A broker afterwards has one before it. -/
theorem Related.back (h : b.Related R b') {v : VenueId} {a' : PaperExecutionAdapter}
    (ha' : b'.get? v = some a') : ∃ a, b.get? v = some a ∧ R a a' := by
  have hv := h v
  rw [ha'] at hv
  generalize b.get? v = x at hv ⊢
  rcases hv with ⟨hr⟩
  exact ⟨_, rfl, hr⟩

end Related

end Brokers

/-! ## Previewing a ticket -/

structure LegRejection where
  venueId : VenueId
  outcomeId : OutcomeId
  reason : RejectReason
  deriving DecidableEq

/-- A ticket that could not be submitted: refused by the preview, or a leg
refused after it. -/
inductive InsufficientLegsError where
  | preview (rejections : List LegRejection)
  | postPreview (venueId : VenueId) (reason : RejectReason)
  deriving DecidableEq

namespace InsufficientLegsError

/-- The failing legs by name. -/
def rejections : InsufficientLegsError → List LegRejection
  | .preview rs => rs
  | .postPreview _ _ => []

/-- `str(e)`. -/
def message : InsufficientLegsError → String
  | .preview rs => ", ".intercalate (rs.map fun r => r.venueId ++ ":" ++ r.reason.text)
  | .postPreview v reason => "post-preview rejection on " ++ v ++ ": " ++ reason.text

end InsufficientLegsError

namespace PaperExecutionAdapter

/-- The broker after a leg was refused and its order forgotten. -/
def refused (a : PaperExecutionAdapter) (leg : IntentLeg) (ticketId : Option TicketId)
    (reason : RejectReason) : PaperExecutionAdapter :=
  (a.reject leg.outcomeId leg.isBuy leg.qty leg.limitPrice ticketId reason).adapter.forgetOrder
    a.nextId

/-- A leg accepted at price `px`. -/
def acceptLeg (a : PaperExecutionAdapter) (acct : AccountId) (leg : IntentLeg)
    (ticketId : Option TicketId) (px : ℚ) : Applied :=
  a.accept acct leg.outcomeId leg.isBuy leg.qty leg.limitPrice ticketId px

/-- The fill of a leg accepted at price `px`. -/
def fillOf (a : PaperExecutionAdapter) (leg : IntentLeg) (px : ℚ) : Fill :=
  ⟨a.nextId, leg.qty, px, a.fees.fee px leg.qty leg.isBuy⟩

end PaperExecutionAdapter

namespace Router

open PaperExecutionAdapter

/-- `_preview_fill` of the broker a leg is routed to. -/
def priceLeg (b : Brokers) (book : QuoteBook) (now : ℚ) (leg : IntentLeg) :
    Except RejectReason (ℚ × ℚ) :=
  match b.get? leg.venueId with
  | none => .error .noAdapter
  | some a => a.previewFill book now leg.outcomeId leg.isBuy leg.qty leg.limitPrice

/-- What the preview holds against a leg: no adapter, a refused fill, or a buy
dearer than the cash on its venue. -/
def previewLeg (b : Brokers) (book : QuoteBook) (now : ℚ) (acct : AccountId)
    (leg : IntentLeg) : Option LegRejection :=
  match priceLeg b book now leg with
  | .error reason => some ⟨leg.venueId, leg.outcomeId, reason⟩
  | .ok (_, cost) =>
      let cash := ((b.get? leg.venueId).map fun a => a.cash acct).getD 0
      if leg.isBuy ∧ cash < cost then
        some ⟨leg.venueId, leg.outcomeId, .insufficientFunds⟩
      else none

def previewLegs (b : Brokers) (book : QuoteBook) (clock : ℕ → ℚ) (acct : AccountId) :
    ℕ → List IntentLeg → List LegRejection
  | _, [] => []
  | n, leg :: legs =>
      (previewLeg b book (clock n) acct leg).toList ++
        previewLegs b book clock acct (n + 1) legs

/-! ## Committing a ticket -/

/-- What a commit leaves: the brokers, the legs applied in order, and the leg
that was refused, if one was. -/
structure Commit where
  brokers : Brokers
  applied : List (VenueId × Order × Fill)
  failure : Option (VenueId × RejectReason)

/-- Apply the legs until one is refused; the refused order is forgotten. -/
def commitLegs (book : QuoteBook) (clock : ℕ → ℚ) (acct : AccountId)
    (ticketId : Option TicketId) : ℕ → Brokers → List IntentLeg → Commit
  | _, b, [] => ⟨b, [], none⟩
  | n, b, leg :: legs =>
      match b.get? leg.venueId with
      -- not reached: the preview has seen the adapter of every leg
      | none => ⟨b, [], some (leg.venueId, .noAdapter)⟩
      | some a =>
          let r := a.applyFill book (clock n) acct leg.outcomeId leg.isBuy leg.qty
            leg.limitPrice ticketId
          match r.fill with
          | none =>
              ⟨b.put (r.adapter.forgetOrder r.order.id), [],
                some (leg.venueId, r.reason.getD .noQuote)⟩
          | some fill =>
              let rest := commitLegs book clock acct ticketId (n + 1) (b.put r.adapter) legs
              { rest with applied := (leg.venueId, r.order, fill) :: rest.applied }

/-- One snapshot for each distinct adapter of the ticket. -/
def snapshots (b : Brokers) (acct : AccountId) (legs : List IntentLeg) :
    List (VenueId × AccountSnapshot) :=
  (legs.map (·.venueId)).eraseDups.filterMap fun v =>
    (b.get? v).map fun a => (v, a.snapshotAccount acct)

def restoreAll (acct : AccountId) (b : Brokers) (snaps : List (VenueId × AccountSnapshot)) :
    Brokers :=
  snaps.foldl (fun b s => b.modify s.1 fun a => a.restoreAccount acct s.2) b

def forgetAll (b : Brokers) (applied : List (VenueId × Order × Fill)) : Brokers :=
  applied.foldl (fun b e => b.modify e.1 fun a => a.forgetOrder e.2.1.id) b

/-- `_commit_atomically`. -/
def commitAtomically (b : Brokers) (book : QuoteBook) (clock : ℕ → ℚ)
    (intent : ExecutionIntent) : Brokers × Except InsufficientLegsError (List Order) :=
  let snaps := snapshots b intent.accountId intent.legs
  let c := commitLegs book clock intent.accountId intent.ticketId 0 b intent.legs
  match c.failure with
  | some (v, reason) =>
      (forgetAll (restoreAll intent.accountId c.brokers snaps) c.applied,
        .error (.postPreview v reason))
  | none => (c.brokers, .ok (c.applied.map fun e => e.2.1))

/-- `ExecutionRouter.submit`. -/
def submit (b : Brokers) (book : QuoteBook) (clock : ℕ → ℚ) (intent : ExecutionIntent) :
    Brokers × Except InsufficientLegsError (List Order) :=
  match previewLegs b book clock intent.accountId 0 intent.legs with
  | [] => commitAtomically b book (fun n => clock (intent.legs.length + n)) intent
  | r :: rs => (b, .error (.preview (r :: rs)))

/-- A leg that a commit reaches ends in one of three ways. -/
theorem commitLegs_cons (b : Brokers) (book : QuoteBook) (clock : ℕ → ℚ) (acct : AccountId)
    (ticketId : Option TicketId) (n : ℕ) (leg : IntentLeg) (legs : List IntentLeg) :
    (b.get? leg.venueId = none ∧
      commitLegs book clock acct ticketId n b (leg :: legs) =
        ⟨b, [], some (leg.venueId, .noAdapter)⟩) ∨
    (∃ a reason, b.get? leg.venueId = some a ∧
      (∀ px cost, priceLeg b book (clock n) leg = .ok (px, cost) →
        leg.isBuy = true ∧ a.cash acct < cost) ∧
      commitLegs book clock acct ticketId n b (leg :: legs) =
        ⟨b.put (a.refused leg ticketId reason), [], some (leg.venueId, reason)⟩) ∨
    (∃ a px cost, b.get? leg.venueId = some a ∧
      priceLeg b book (clock n) leg = .ok (px, cost) ∧
      (leg.isBuy = true → cost ≤ a.cash acct) ∧
      commitLegs book clock acct ticketId n b (leg :: legs) =
        let rest := commitLegs book clock acct ticketId (n + 1)
          (b.put (a.acceptLeg acct leg ticketId px).adapter) legs
        { rest with applied := (leg.venueId, (a.acceptLeg acct leg ticketId px).order,
            a.fillOf leg px) :: rest.applied }) := by
  cases hb : b.get? leg.venueId with
  | none => exact .inl ⟨rfl, by simp only [commitLegs, hb]⟩
  | some a =>
      refine .inr ?_
      simp only [priceLeg, hb]
      -- the broker refuses at its price, refuses for want of cash, or accepts
      rcases applyFill_cases a book (clock n) acct leg.outcomeId leg.isBuy leg.qty
        leg.limitPrice ticketId with
        ⟨reason, hp, hr⟩ | ⟨px, cost, hp, hbuy, hcash, hr⟩ | ⟨px, cost, hp, hcash, hr⟩
      · refine .inl ⟨a, reason, rfl, fun px cost h => ?_, ?_⟩
        · rw [hp] at h
          cases h
        · simp only [commitLegs, hb, hr]
          rfl
      · refine .inl ⟨a, .insufficientFunds, rfl, fun px' cost' h => ?_, ?_⟩
        · rw [hp] at h
          cases h
          exact ⟨hbuy, hcash⟩
        · simp only [commitLegs, hb, hr]
          rfl
      · refine .inr ⟨a, px, cost, rfl, hp, hcash, ?_⟩
        simp only [commitLegs, hb, hr]
        rfl

/-- A priced leg that its broker can pay for is accepted at that price. -/
theorem commitLegs_cons_of_priced {b : Brokers} {book : QuoteBook} {clock : ℕ → ℚ}
    {acct : AccountId} {n : ℕ} (leg : IntentLeg) {a : PaperExecutionAdapter} {px cost : ℚ}
    (ha : b.get? leg.venueId = some a) (hp : priceLeg b book (clock n) leg = .ok (px, cost))
    (hcash : cost ≤ a.cash acct) (ticketId : Option TicketId) (legs : List IntentLeg) :
    commitLegs book clock acct ticketId n b (leg :: legs) =
      let rest := commitLegs book clock acct ticketId (n + 1)
        (b.put (a.acceptLeg acct leg ticketId px).adapter) legs
      { rest with applied := (leg.venueId, (a.acceptLeg acct leg ticketId px).order,
          a.fillOf leg px) :: rest.applied } := by
  rcases commitLegs_cons b book clock acct ticketId n leg legs with
    ⟨hnone, -⟩ | ⟨a', _, hget, hpoor, -⟩ | ⟨a', px', cost', hget, hprice, -, hc⟩
  · rw [ha] at hnone
    cases hnone
  · rw [ha] at hget
    cases hget
    exact absurd hcash (not_le.mpr (hpoor px cost hp).2)
  · rw [ha] at hget
    cases hget
    rw [hp] at hprice
    cases hprice
    exact hc

end Router

end Arbys
