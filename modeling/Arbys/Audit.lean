import Arbys.Restart
import Arbys.TwoLegTicket

/-!
# Who has been paid for what

Memory and the tables evolve apart: the transaction of a settlement may be
dropped, a balance is absolute and is written again by whatever comes next, and
a restart recombines what is stored. `Audited` runs the brokers and the tables
with tallies beside them that no part of the program reads: the contracts
bought, the cash settlements have credited, and the contracts held that no
settlement has paid, each as the balances in memory hold it and as the stored
balances do.
-/

namespace Arbys

open AccountState PaperExecutionAdapter PaperSystem

/-- What each outcome resolves at. -/
structure Results where
  value : OutcomeId → ℚ
  nonneg : ∀ o, 0 ≤ value o

/-- A figure for each account, venue and outcome. -/
abbrev Tally := AccountId → VenueId → OutcomeId → ℚ

/-- A tally with one figure replaced. -/
def Tally.set (t : Tally) (j : AccountId) (v : VenueId) (o : OutcomeId) (x : ℚ) : Tally :=
  fun j' v' o' => if (j', v', o') = (j, v, o) then x else t j' v' o'

namespace Brokers

/-- What an account holds of an outcome on a venue. -/
def qtyOn (b : Brokers) (j : AccountId) (v : VenueId) (o : OutcomeId) : ℚ :=
  ((b.get? v).map fun a => (a.account j).qty o).getD 0

/-- The cash of an account on a venue. -/
def cashOn (b : Brokers) (j : AccountId) (v : VenueId) : ℚ :=
  ((b.get? v).map fun a => a.cash j).getD 0

/-- The accounts long an outcome on a venue. -/
def longOn (b : Brokers) (v : VenueId) (o : OutcomeId) : List AccountId :=
  match b.get? v with
  | none => []
  | some a => (a.accounts.entries.filter fun e => 0 < e.2.qty o).map Prod.fst

end Brokers

/-- The quantity a position row stores. -/
def Db.qtyOn (db : Db) (j : AccountId) (v : VenueId) (o : OutcomeId) : ℚ :=
  (db.positions.getD (j, v, o) {}).qty

/-- The balances an event writes. -/
def SinkEvent.balances : SinkEvent → List (AccountId × VenueId)
  | .onBalance acct v _ => [(acct, v)]
  | .onSettled _ _ v _ closed => closed.map fun c => (c.1, v)
  | .onOrder .. | .onFill .. | .onPosition .. => []

namespace PaperSystem

/-- The balances written for an operation of one broker. -/
def balancesOf (s : PaperSystem) (v : VenueId)
    (op : PaperExecutionAdapter → PaperExecutionAdapter × List SinkEvent) :
    List (AccountId × VenueId) :=
  match s.brokers.get? v with
  | none => []
  | some a => (op a).2.flatMap SinkEvent.balances

end PaperSystem

/-! ## The audited system -/

/-- The system and its tallies. `paid` is the cash settlements have credited,
as the balances in memory hold it, and `unpaid` the contracts of the positions
in memory that those balances were not paid for; `storedPaid` and
`storedUnpaid` are the same of the stored balances and positions. `unrecorded`
lists the payouts of dropped settlements that no write of the balance has
stored since. -/
structure Audited where
  system : PaperSystem
  bought : Tally
  paid : Tally
  storedPaid : Tally
  unpaid : Tally
  storedUnpaid : Tally
  unrecorded : List (AccountId × VenueId × OutcomeId)

/-- `SETTLEMENT_SOURCE`. -/
def settlementSource : String := "venue_result"

/-- One step. `settleOutcomeAsync` is a settlement by either service, of an
outcome held or not; `settleOnce` is what a pass does with one outcome it
comes to, be it held in the first phase or unrecorded in the second. `landed`
tells whether the settlement's transaction commits. -/
inductive AuditOp where
  | placeOrder (v : VenueId) (book : QuoteBook) (now : ℚ) (j : AccountId) (o : OutcomeId)
      (isBuy : Bool) (qty limitPrice : ℚ) (ticketId : Option TicketId)
  | settleOutcomeAsync (v : VenueId) (o : OutcomeId) (source : String) (landed : Bool)
  | settleOnce (v : VenueId) (o : OutcomeId) (landed : Bool)
  | sweepOne (j : AccountId) (minTransfer : ℚ)
  | restart

namespace Audited

/-- Balances are written: they hold from now on what those in memory hold. -/
def balancesWritten (s : Audited) (written : List (AccountId × VenueId)) : Audited :=
  { s with
    storedPaid := fun j v o => if (j, v) ∈ written then s.paid j v o else s.storedPaid j v o
    storedUnpaid := fun j v o =>
      if (j, v) ∈ written then s.unpaid j v o else s.storedUnpaid j v o
    unrecorded := s.unrecorded.filter fun e => (e.1, e.2.1) ∉ written }

/-- An order moved what `j` holds of `o`. What it adds to a long position is
unpaid; what it takes off, it takes off the unpaid contracts first. -/
def traded (s : Audited) (system : PaperSystem) (j : AccountId) (v : VenueId) (o : OutcomeId) :
    Audited :=
  let before := s.system.brokers.qtyOn j v o
  let after := system.brokers.qtyOn j v o
  { s with
    system := system
    bought := s.bought.set j v o (s.bought j v o + max (after - before) 0)
    unpaid := s.unpaid.set j v o (max 0 (min after (s.unpaid j v o + (after - before)))) }

/-- A settlement of `o` on `v` moved cash and closed the positions. -/
def settled (s : Audited) (system : PaperSystem) (v : VenueId) (o : OutcomeId) : Audited :=
  { s with
    system := system
    paid := fun j w o' =>
      if w = v ∧ o' = o then
        s.paid j w o' + max (system.brokers.cashOn j v - s.system.brokers.cashOn j v) 0
      else s.paid j w o'
    unpaid := fun j w o' => if w = v ∧ o' = o then 0 else s.unpaid j w o' }

/-- `settle_outcome_async`, its transaction landed or dropped. -/
def settleOutcomeAsync (acct : AccountId) (r : Results) (s : Audited) (v : VenueId)
    (o : OutcomeId) (source : String) (landed : Bool) : Audited :=
  let op := fun a : PaperExecutionAdapter => a.settleOutcomeAsync o (r.value o) source
  let system := s.system.onBroker acct v op
  if landed then (s.settled system v o).balancesWritten (s.system.balancesOf v op)
  else
    let paidOff := s.settled ⟨system.brokers, s.system.db⟩ v o
    { paidOff with
      unrecorded := s.unrecorded ++ (s.system.brokers.longOn v o).map fun j => (j, v, o) }

/-- `close_already_settled`: the positions held are gone, in memory and in
their rows. -/
def closeAlreadySettled (acct : AccountId) (s : Audited) (v : VenueId) (o : OutcomeId) :
    Audited :=
  { s with
    system := s.system.onBroker acct v fun a => a.closeAlreadySettled o
    unpaid := fun j w o' => if w = v ∧ o' = o then 0 else s.unpaid j w o'
    storedUnpaid := fun j w o' =>
      if w = v ∧ o' = o ∧ s.system.brokers.qtyOn j v o ≠ 0 then 0 else s.storedUnpaid j w o' }

/-- What a new process hydrates of a stored tally. -/
def hydratedTally (acct : AccountId) (b : Brokers) (t : Tally) : Tally := fun j v o =>
  if j = acct ∧ (b.get? v).isSome then t j v o else 0

/-- A new process, over the tables as they are. -/
def restart (acct : AccountId) (s : Audited) : Audited :=
  let booted := bootstrap acct s.system.brokers.fresh s.system.db
  { s with
    system := ⟨booted.1, booted.2⟩
    paid := hydratedTally acct s.system.brokers s.storedPaid
    unpaid := hydratedTally acct s.system.brokers s.storedUnpaid
    unrecorded := [] }

/-- The balances a step writes. -/
def written (r : Results) (s : Audited) : AuditOp → List (AccountId × VenueId)
  | .placeOrder v book now j o isBuy qty limitPrice ticketId =>
      s.system.balancesOf v fun a => a.placeOrder book now j o isBuy qty limitPrice ticketId
  | .settleOutcomeAsync v o source landed =>
      if landed then
        s.system.balancesOf v fun a => a.settleOutcomeAsync o (r.value o) source
      else []
  | .settleOnce v o landed =>
      if s.system.db.hasSettlementRow o = false ∧ landed = true then
        s.system.balancesOf v fun a => a.settleOutcomeAsync o (r.value o) settlementSource
      else []
  | .sweepOne j minTransfer =>
      (touched (sweepAccount s.system.brokers j minTransfer).2).map fun v => (j, v)
  | .restart => []

def step (acct : AccountId) (r : Results) (s : Audited) : AuditOp → Audited
  | .placeOrder v book now j o isBuy qty limitPrice ticketId =>
      let op := fun a : PaperExecutionAdapter =>
        a.placeOrder book now j o isBuy qty limitPrice ticketId
      (s.traded (s.system.onBroker acct v op) j v o).balancesWritten (s.system.balancesOf v op)
  | .settleOutcomeAsync v o source landed => s.settleOutcomeAsync acct r v o source landed
  | .settleOnce v o landed =>
      if s.system.db.hasSettlementRow o then s.closeAlreadySettled acct v o
      else s.settleOutcomeAsync acct r v o settlementSource landed
  | .sweepOne j minTransfer =>
      { s with system := s.system.sweepOne minTransfer j }.balancesWritten
        ((touched (sweepAccount s.system.brokers j minTransfer).2).map fun v => (j, v))
  | .restart => s.restart acct

/-- The first start, on empty tables: nothing is held, nothing was paid. -/
def start (acct : AccountId) (fleet : Brokers) : Audited where
  system := ⟨(bootstrap acct fleet.fresh {}).1, (bootstrap acct fleet.fresh {}).2⟩
  bought := fun _ _ _ => 0
  paid := fun _ _ _ => 0
  storedPaid := fun _ _ _ => 0
  unpaid := fun _ _ _ => 0
  storedUnpaid := fun _ _ _ => 0
  unrecorded := []

end Audited

/-! ## Reading quantities -/

namespace Brokers

variable {b : Brokers} {v : VenueId}

theorem qtyOn_of_some {a : PaperExecutionAdapter} (ha : b.get? v = some a) (j : AccountId)
    (o : OutcomeId) : b.qtyOn j v o = (a.account j).qty o := by
  rw [qtyOn, ha]
  rfl

theorem qtyOn_of_none (ha : b.get? v = none) (j : AccountId) (o : OutcomeId) :
    b.qtyOn j v o = 0 := by
  rw [qtyOn, ha]
  rfl

theorem cashOn_of_some {a : PaperExecutionAdapter} (ha : b.get? v = some a) (j : AccountId) :
    b.cashOn j v = a.cash j := by
  rw [cashOn, ha]
  rfl

/-- Whoever is long is listed. -/
theorem mem_longOn {o : OutcomeId} {j : AccountId} (h : 0 < b.qtyOn j v o) :
    j ∈ b.longOn v o := by
  cases ha : b.get? v with
  | none => exact absurd h (by rw [qtyOn_of_none ha]; exact lt_irrefl 0)
  | some a =>
      rw [qtyOn_of_some ha] at h
      simp only [longOn, ha]
      cases hj : a.accounts.get? j with
      | none =>
          have hempty : a.account j = {} := Dict.getD_of_get?_none hj {}
          rw [hempty] at h
          exact absurd h (lt_irrefl 0)
      | some st =>
          have hst : a.account j = st := Dict.getD_of_get? hj {}
          rw [hst] at h
          exact List.mem_map.mpr ⟨(j, st), List.mem_filter.mpr
            ⟨Dict.mem_entries_iff.mpr hj, by simpa using h⟩, rfl⟩

end Brokers

theorem Tally.set_self (t : Tally) (j : AccountId) (v : VenueId) (o : OutcomeId) (x : ℚ) :
    t.set j v o x j v o = x :=
  if_pos rfl

theorem Tally.set_ne (t : Tally) {j j' : AccountId} {v v' : VenueId} {o o' : OutcomeId}
    (h : (j', v', o') ≠ (j, v, o)) (x : ℚ) : t.set j v o x j' v' o' = t j' v' o' :=
  if_neg h

/-! ## What a step does to quantities -/

/-- The accounts a settlement closes are those that hold. -/
theorem PaperExecutionAdapter.closedBy_accounts (a : PaperExecutionAdapter) (o : OutcomeId)
    (value : ℚ) (j : AccountId) :
    ((a.closedBy o value).map Prod.fst).Nodup ∧
      ((a.account j).qty o ≠ 0 →
        (j, ((a.account j).settle a.venueId o value).cash a.venueId,
          ((a.account j).settle a.venueId o value).realizedOn o,
          ((a.account j).settle a.venueId o value).openFees o) ∈ a.closedBy o value) ∧
      ((a.account j).qty o = 0 → j ∉ (a.closedBy o value).map Prod.fst) :=
  mem_holders a o (fun st =>
    ((st.settle a.venueId o value).cash a.venueId, (st.settle a.venueId o value).realizedOn o,
      (st.settle a.venueId o value).openFees o)) j

/-- A position table with the rows of the holders of an outcome written flat. -/
theorem qty_closedRows {σ : Type} (a : PaperExecutionAdapter) (o : OutcomeId)
    (f : AccountState → σ) (row : AccountId × σ → PositionRow) (hrow : ∀ c, (row c).qty = 0)
    (d : Dict (AccountId × VenueId × OutcomeId) PositionRow) (j : AccountId) (w : VenueId)
    (o' : OutcomeId) :
    let holders := (a.accounts.entries.filter fun e => e.2.qty o ≠ 0).map fun e => (e.1, f e.2)
    ((d.setAll (holders.map fun c => ((c.1, a.venueId, o), row c))).getD (j, w, o') {}).qty =
      if w = a.venueId ∧ o' = o ∧ (a.account j).qty o ≠ 0 then 0
      else (d.getD (j, w, o') {}).qty := by
  intro holders
  obtain ⟨hnodup, hheld, hflat⟩ := mem_holders a o f j
  obtain ⟨hin, hout, hoff⟩ := setAll_by_account (fun j => (j, a.venueId, o))
    (fun _ _ he => congrArg Prod.fst he) hnodup row d j
  by_cases hkey : w = a.venueId ∧ o' = o
  · obtain ⟨rfl, rfl⟩ := hkey
    by_cases hq : (a.account j).qty o' = 0
    · rw [if_neg fun h => h.2.2 hq]
      exact congrArg (fun x => (Option.getD x {}).qty) (hout (hflat hq))
    · rw [if_pos ⟨rfl, rfl, hq⟩]
      exact (congrArg (fun x => (Option.getD x {}).qty) (hin _ (hheld hq))).trans (hrow _)
  · rw [if_neg fun h => hkey ⟨h.1, h.2.1⟩]
    refine congrArg (fun x => (Option.getD x {}).qty) (hoff _ fun i he => hkey ?_)
    cases he
    exact ⟨rfl, rfl⟩

namespace PaperSystem

variable {s : PaperSystem} {scope : AccountId} {v : VenueId}

/-- An operation of a venue without a broker does nothing. -/
theorem onBroker_of_none (ha : s.brokers.get? v = none)
    (op : PaperExecutionAdapter → PaperExecutionAdapter × List SinkEvent) :
    s.onBroker scope v op = s := by
  rw [onBroker, ha]

theorem onBroker_of_some {a : PaperExecutionAdapter} (ha : s.brokers.get? v = some a)
    (op : PaperExecutionAdapter → PaperExecutionAdapter × List SinkEvent) :
    s.onBroker scope v op = ⟨s.brokers.put (op a).1, s.db.writeAll scope (op a).2⟩ := by
  rw [onBroker, ha]

/-- No operation adds or drops a broker. -/
theorem get?_onBroker (s : PaperSystem) (scope : AccountId) (v : VenueId)
    (op : PaperExecutionAdapter → PaperExecutionAdapter × List SinkEvent)
    (hv : ∀ a, (op a).1.venueId = a.venueId) (w : VenueId) :
    ((s.onBroker scope v op).brokers.get? w).isSome = (s.brokers.get? w).isSome := by
  cases ha : s.brokers.get? v with
  | none => rw [onBroker_of_none ha]
  | some a =>
      rw [onBroker_of_some ha, Brokers.get?_put, hv, Brokers.venueId_of_get? ha]
      split
      · rename_i hw
        rw [hw, ha]
        rfl
      · rfl

theorem balancesOf_of_none (ha : s.brokers.get? v = none)
    (op : PaperExecutionAdapter → PaperExecutionAdapter × List SinkEvent) :
    s.balancesOf v op = [] := by
  rw [balancesOf, ha]

theorem balancesOf_of_some {a : PaperExecutionAdapter} (ha : s.brokers.get? v = some a)
    (op : PaperExecutionAdapter → PaperExecutionAdapter × List SinkEvent) :
    s.balancesOf v op = (op a).2.flatMap SinkEvent.balances := by
  rw [balancesOf, ha]

/-- An operation of one broker moves what is held on its venue. -/
theorem qtyOn_put {b : Brokers} {a : PaperExecutionAdapter} (ha : b.get? v = some a)
    (a' : PaperExecutionAdapter) (hv : a'.venueId = a.venueId) (j : AccountId) (w : VenueId) (o : OutcomeId) :
    (b.put a').qtyOn j w o = if w = v then (a'.account j).qty o else b.qtyOn j w o := by
  have hav : a'.venueId = v := hv.trans (Brokers.venueId_of_get? ha)
  simp only [Brokers.qtyOn, Brokers.get?_put, hav]
  split
  · rfl
  · rfl

theorem qtyOn_put_same {b : Brokers} {a : PaperExecutionAdapter} (ha : b.get? v = some a)
    (a' : PaperExecutionAdapter) (hv : a'.venueId = a.venueId) (hacct : ∀ j, a'.account j = a.account j) (j : AccountId)
    (w : VenueId) (o : OutcomeId) : (b.put a').qtyOn j w o = b.qtyOn j w o := by
  rw [qtyOn_put ha a' hv]
  split
  · rename_i hw
    rw [hw, hacct, Brokers.qtyOn_of_some ha]
  · rfl

/-! ### Orders -/

/-- **An order** moves one quantity, in memory and in its row alike, and then
writes that account's balance; or it moves and writes nothing. -/
theorem placeOrder_effect (s : PaperSystem) (scope : AccountId) (v : VenueId)
    (book : QuoteBook) (now : ℚ) (j : AccountId) (o : OutcomeId) (isBuy : Bool)
    (qty limit : ℚ) (ticketId : Option TicketId) :
    let op := fun a : PaperExecutionAdapter => a.placeOrder book now j o isBuy qty limit ticketId
    let s' := s.onBroker scope v op
    s'.db.settlements = s.db.settlements ∧
      (∀ i w o', (i, w, o') ≠ (j, v, o) →
        s'.brokers.qtyOn i w o' = s.brokers.qtyOn i w o' ∧
          s'.db.qtyOn i w o' = s.db.qtyOn i w o') ∧
      (s.balancesOf v op = [] ∧ s'.brokers.qtyOn j v o = s.brokers.qtyOn j v o ∧
          s'.db.qtyOn j v o = s.db.qtyOn j v o ∨
        s.balancesOf v op = [(j, v)] ∧ s'.db.qtyOn j v o = s'.brokers.qtyOn j v o) := by
  intro op s'
  cases ha : s.brokers.get? v with
  | none =>
      have hs : s' = s := onBroker_of_none ha op
      rw [hs]
      exact ⟨rfl, fun _ _ _ _ => ⟨rfl, rfl⟩, .inl ⟨balancesOf_of_none ha op, rfl, rfl⟩⟩
  | some a =>
      have hav := Brokers.venueId_of_get? ha
      subst hav
      have hs : s' = ⟨s.brokers.put (op a).1, s.db.writeAll scope (op a).2⟩ :=
        onBroker_of_some ha op
      rw [hs, balancesOf_of_some ha]
      simp only [op, PaperExecutionAdapter.placeOrder]
      -- refused for its price, refused for want of cash, or accepted
      rcases applyFill_cases a book now j o isBuy qty limit ticketId with
        ⟨reason, _, hr⟩ | ⟨_, _, _, _, _, hr⟩ | ⟨px, _, _, _, hr⟩ <;> rw [hr]
      · have hq := qtyOn_put_same ha (a.reject o isBuy qty limit ticketId reason).adapter
          rfl fun _ => rfl
        exact ⟨rfl, fun i w o' _ => ⟨hq i w o', rfl⟩, .inl ⟨rfl, hq _ _ _, rfl⟩⟩
      · have hq := qtyOn_put_same ha (a.reject o isBuy qty limit ticketId
          .insufficientFunds).adapter rfl fun _ => rfl
        exact ⟨rfl, fun i w o' _ => ⟨hq i w o', rfl⟩, .inl ⟨rfl, hq _ _ _, rfl⟩⟩
      · have hq := qtyOn_put ha (a.accept j o isBuy qty limit ticketId px).adapter rfl
        obtain ⟨_, _, _, _, _, m⟩ := movement_bookFill (a.account j) a.venueId o isBuy qty px
          (a.fees.fee px qty isBuy)
        refine ⟨rfl, fun i w o' hne => ⟨?_, ?_⟩, .inr ⟨rfl, ?_⟩⟩
        · rw [hq, account_accept]
          split
          · rename_i hw
            subst hw
            rw [Brokers.qtyOn_of_some ha]
            split
            · rename_i hi
              subst hi
              exact m.qty_off o' fun ho => hne (by rw [ho])
            · rfl
          · rfl
        · exact congrArg PositionRow.qty (Dict.getD_set_ne _ hne ..)
        · rw [hq, if_pos rfl]
          exact congrArg PositionRow.qty (Dict.getD_set_self ..)

/-- The rows of a balance that an order does not write are as they were. -/
theorem storedQty_placeOrder_off (s : PaperSystem) (scope : AccountId) (v : VenueId)
    (book : QuoteBook) (now : ℚ) (j : AccountId) (o : OutcomeId) (isBuy : Bool)
    (qty limit : ℚ) (ticketId : Option TicketId) {i : AccountId} {w : VenueId}
    (hp : (i, w) ∉ s.balancesOf v fun a => a.placeOrder book now j o isBuy qty limit ticketId)
    (o' : OutcomeId) :
    (s.onBroker scope v fun a => a.placeOrder book now j o isBuy qty limit
      ticketId).db.qtyOn i w o' = s.db.qtyOn i w o' := by
  obtain ⟨_, hoff, hon⟩ := placeOrder_effect s scope v book now j o isBuy qty limit ticketId
  by_cases he : (i, w, o') = (j, v, o)
  · cases he
    rcases hon with ⟨_, _, hsame⟩ | ⟨hlist, _⟩
    · exact hsame
    · rw [hlist] at hp
      exact absurd (List.mem_singleton_self _) hp
  · exact (hoff i w o' he).2

/-! ### Settlements -/

/-- What closes an outcome in every account of a broker closes it on the venue. -/
theorem qtyOn_closes (s : PaperSystem) (scope : AccountId) (v : VenueId) (o : OutcomeId)
    (op : PaperExecutionAdapter → PaperExecutionAdapter × List SinkEvent)
    (hv : ∀ a, (op a).1.venueId = a.venueId)
    (hqty : ∀ a j o', ((op a).1.account j).qty o' = if o' = o then 0 else (a.account j).qty o')
    (j : AccountId) (w : VenueId) (o' : OutcomeId) :
    (s.onBroker scope v op).brokers.qtyOn j w o' =
      if w = v ∧ o' = o then 0 else s.brokers.qtyOn j w o' := by
  cases ha : s.brokers.get? v with
  | none =>
      rw [onBroker_of_none ha]
      split
      · rename_i h
        rw [h.1, Brokers.qtyOn_of_none ha]
      · rfl
  | some a =>
      rw [onBroker_of_some ha]
      refine (qtyOn_put ha (op a).1 (hv a) j w o').trans ?_
      rw [hqty]
      by_cases hw : w = v
      · subst hw
        simp only [if_true, true_and, Brokers.qtyOn_of_some ha]
      · simp only [if_neg hw, if_neg fun h : w = v ∧ o' = o => hw h.1]

section Settlement

variable (s : PaperSystem) (scope : AccountId) (v : VenueId) (o : OutcomeId) (value : ℚ)
  (source : String)

/-- A settlement closes its outcome for everyone on its venue. -/
theorem qtyOn_settle (j : AccountId) (w : VenueId) (o' : OutcomeId) :
    (s.onBroker scope v fun a => a.settleOutcomeAsync o value source).brokers.qtyOn j w o' =
      if w = v ∧ o' = o then 0 else s.brokers.qtyOn j w o' := by
  refine qtyOn_closes s scope v o _ (fun _ => rfl) (fun a j o' => ?_) j w o'
  rw [account_settleOutcomeAsync, qty_settle]

/-- A settlement pays what is held at the value it resolves. -/
theorem cashOn_settle (j : AccountId) :
    (s.onBroker scope v fun a => a.settleOutcomeAsync o value source).brokers.cashOn j v =
      s.brokers.cashOn j v + value * s.brokers.qtyOn j v o := by
  cases ha : s.brokers.get? v with
  | none => rw [onBroker_of_none ha, Brokers.qtyOn_of_none ha, mul_zero, add_zero]
  | some a =>
      have hav := Brokers.venueId_of_get? ha
      subst hav
      rw [onBroker_of_some ha, Brokers.cashOn_of_some ha, Brokers.qtyOn_of_some ha]
      have hget : (s.brokers.put (a.settleOutcomeAsync o value source).1).get? a.venueId =
          some (a.settleOutcomeAsync o value source).1 := by
        rw [Brokers.get?_put]
        exact if_pos rfl
      rw [Brokers.cashOn_of_some hget, PaperExecutionAdapter.cash, account_settleOutcomeAsync]
      exact cash_settle ..

/-- The transaction of a settlement writes the balances of those who held. -/
theorem mem_balancesOf_settle (j : AccountId) (w : VenueId) :
    (j, w) ∈ s.balancesOf v (fun a => a.settleOutcomeAsync o value source) ↔
      w = v ∧ s.brokers.qtyOn j v o ≠ 0 := by
  cases ha : s.brokers.get? v with
  | none =>
      rw [balancesOf_of_none ha, Brokers.qtyOn_of_none ha]
      simp
  | some a =>
      have hav := Brokers.venueId_of_get? ha
      subst hav
      obtain ⟨_, hheld, hflat⟩ := a.closedBy_accounts o value j
      have hlist : s.balancesOf a.venueId (fun a => a.settleOutcomeAsync o value source) =
          (a.closedBy o value).map fun c => (c.1, a.venueId) := by
        rw [balancesOf_of_some ha]
        exact List.append_nil _
      rw [hlist, Brokers.qtyOn_of_some ha, List.mem_map]
      constructor
      · rintro ⟨c, hc, he⟩
        cases he
        exact ⟨rfl, fun hq => hflat hq (List.mem_map.mpr ⟨c, hc, rfl⟩)⟩
      · rintro ⟨rfl, hq⟩
        exact ⟨_, hheld hq, rfl⟩

/-- The rows of a settlement: the position of each account that held is
closed. -/
theorem storedQty_settle (j : AccountId) (w : VenueId) (o' : OutcomeId) :
    (s.onBroker scope v fun a => a.settleOutcomeAsync o value source).db.qtyOn j w o' =
      if w = v ∧ o' = o ∧ s.brokers.qtyOn j v o ≠ 0 then 0 else s.db.qtyOn j w o' := by
  cases ha : s.brokers.get? v with
  | none =>
      rw [onBroker_of_none ha, Brokers.qtyOn_of_none ha]
      simp
  | some a =>
      have hav := Brokers.venueId_of_get? ha
      subst hav
      have htable := (onSettled_tables s.db o value a.venueId source (a.closedBy o value)).2.1
      rw [onBroker_of_some ha, Brokers.qtyOn_of_some ha]
      refine (congrArg (fun d => (Dict.getD d (j, w, o') {}).qty) htable).trans ?_
      exact qty_closedRows a o (fun st => ((st.settle a.venueId o value).cash a.venueId,
          (st.settle a.venueId o value).realizedOn o, (st.settle a.venueId o value).openFees o))
        (fun c => ⟨0, 0, c.2.2.1, c.2.2.2⟩) (fun _ => rfl) s.db.positions j w o'

/-- The rows of a balance that a settlement does not write are as they were. -/
theorem storedQty_settle_off {j : AccountId} {w : VenueId}
    (hp : (j, w) ∉ s.balancesOf v fun a => a.settleOutcomeAsync o value source)
    (o' : OutcomeId) :
    (s.onBroker scope v fun a => a.settleOutcomeAsync o value source).db.qtyOn j w o' =
      s.db.qtyOn j w o' := by
  rw [storedQty_settle, if_neg]
  rintro ⟨hw, _, hq⟩
  exact hp ((mem_balancesOf_settle s v o value source j w).mpr ⟨hw, hq⟩)

/-- The record of a settlement is of its own outcome. -/
theorem hasSettlementRow_settle (o' : OutcomeId) :
    (s.onBroker scope v fun a => a.settleOutcomeAsync o value source).db.hasSettlementRow o' =
        true →
      s.db.hasSettlementRow o' = true ∨ o' = o := by
  cases ha : s.brokers.get? v with
  | none =>
      rw [onBroker_of_none ha]
      exact .inl
  | some a =>
      rw [onBroker_of_some ha]
      intro h
      have hrows := (onSettled_tables s.db o value a.venueId source (a.closedBy o value)).2.2
      have h' : (s.db.onSettled o value a.venueId source (a.closedBy o value)).settlements.any
          (fun row => row.outcomeId = o') = true := h
      rw [hrows, List.any_append, Bool.or_eq_true] at h'
      refine h'.imp id fun hlast => ?_
      simpa [eq_comm] using hlast

end Settlement

/-! ### Closing -/

section Closing

variable (s : PaperSystem) (scope : AccountId) (v : VenueId) (o : OutcomeId)

theorem qtyOn_close (j : AccountId) (w : VenueId) (o' : OutcomeId) :
    (s.onBroker scope v fun a => a.closeAlreadySettled o).brokers.qtyOn j w o' =
      if w = v ∧ o' = o then 0 else s.brokers.qtyOn j w o' := by
  refine qtyOn_closes s scope v o _ (fun _ => rfl) (fun a j o' => ?_) j w o'
  rw [account_closeAlreadySettled]
  have m := movement_closeOut (a.account j) a.venueId o
  by_cases ho : o' = o
  · rw [if_pos ho, ho]
    split
    · rename_i hq
      exact hq
    · exact m.qty
  · rw [if_neg ho]
    split
    · rfl
    · exact m.qty_off o' ho

/-- Closing writes the rows of the positions closed, no balance and no
settlement. -/
theorem db_close :
    let db' := (s.onBroker scope v fun a => a.closeAlreadySettled o).db
    db'.settlements = s.db.settlements ∧ ∀ j w o', db'.qtyOn j w o' =
      if w = v ∧ o' = o ∧ s.brokers.qtyOn j v o ≠ 0 then 0 else s.db.qtyOn j w o' := by
  intro db'
  cases ha : s.brokers.get? v with
  | none =>
      have hdb : db' = s.db := by
        simp only [db']
        rw [onBroker_of_none ha]
      refine ⟨by rw [hdb], fun j w o' => ?_⟩
      rw [hdb, Brokers.qtyOn_of_none ha]
      simp
  | some a =>
      have hav := Brokers.venueId_of_get? ha
      subst hav
      obtain ⟨_, hrows, hpos⟩ := writeAll_onPosition s.db scope o a.venueId
        ((a.accounts.entries.filter fun e => e.2.qty o ≠ 0).map fun e => (e.1, e.2.realizedOn o))
      have hdb : db' = s.db.writeAll scope (a.closeAlreadySettled o).2 :=
        congrArg PaperSystem.db (onBroker_of_some ha _)
      rw [List.map_map] at hrows hpos
      rw [hdb]
      refine ⟨hrows, fun j w o' => ?_⟩
      · rw [Brokers.qtyOn_of_some ha]
        refine (congrArg (fun d => (Dict.getD d (j, w, o') {}).qty) hpos).trans ?_
        exact qty_closedRows a o (fun st => st.realizedOn o) (fun c => ⟨0, 0, c.2, 0⟩)
          (fun _ => rfl) s.db.positions j w o'

end Closing

/-! ### Sweeps -/

/-- A sweep moves no position, in memory or stored, and records no
settlement. -/
theorem sweepOne_effect (s : PaperSystem) (minTransfer : ℚ) (j : AccountId) :
    let s' := s.sweepOne minTransfer j
    s'.db.settlements = s.db.settlements ∧
      (∀ w, (s'.brokers.get? w).isSome = (s.brokers.get? w).isSome) ∧
      (∀ i w o, s'.brokers.qtyOn i w o = s.brokers.qtyOn i w o) ∧
      ∀ i w o, s'.db.qtyOn i w o = s.db.qtyOn i w o := by
  intro s'
  have hmoved := applyTransfers_cashMoved j s.brokers
    (planTransfers (s.brokers.adapters.mapVal fun _ a => a.cash j) minTransfer)
  -- a sweep that moves nothing writes nothing
  have hdb : s'.db.positions = s.db.positions ∧ s'.db.settlements = s.db.settlements := by
    simp only [s', PaperSystem.sweepOne]
    split
    · exact ⟨rfl, rfl⟩
    · obtain ⟨hpos, hrows, _⟩ := persistSweep_tables s.db j (sweepAccount s.brokers j minTransfer).1
        (sweepAccount s.brokers j minTransfer).2
      exact ⟨hpos, hrows⟩
  refine ⟨hdb.2, fun w => ?_, fun i w o => ?_, fun i w o => ?_⟩
  · have hw := (hmoved w).2
    have hb : s'.brokers.get? w = (applyTransfers j s.brokers (planTransfers
      (s.brokers.adapters.mapVal fun _ a => a.cash j) minTransfer)).1.get? w := rfl
    rw [hb]
    revert hw
    generalize s.brokers.get? w = x, (applyTransfers j s.brokers (planTransfers
      (s.brokers.adapters.mapVal fun _ a => a.cash j) minTransfer)).1.get? w = y
    rintro (_ | _)
    · rfl
    · rfl
  · have hw := (hmoved w).2
    have hb : s'.brokers.qtyOn i w o = (Option.map (fun a : PaperExecutionAdapter =>
        (a.account i).qty o) ((applyTransfers j s.brokers (planTransfers
          (s.brokers.adapters.mapVal fun _ a => a.cash j) minTransfer)).1.get? w)).getD 0 := rfl
    rw [hb, Brokers.qtyOn]
    revert hw
    generalize s.brokers.get? w = x, (applyTransfers j s.brokers (planTransfers
      (s.brokers.adapters.mapVal fun _ a => a.cash j) minTransfer)).1.get? w = y
    rintro (hc | _)
    · rename_i a a'
      by_cases hi : i = j
      · subst hi
        obtain ⟨balances, hheld⟩ := hc.held
        simp only [Option.map_some, Option.getD_some, hheld]
        rfl
      · simp only [Option.map_some, Option.getD_some, hc.others i hi]
    · rfl
  · rw [Db.qtyOn, hdb.1, Db.qtyOn]

end PaperSystem

/-! ### Restarts -/

section Bootstrap

variable {acct : AccountId}

/-- **A restart** holds the stored positions of the account it serves, on the
venues that have a broker, and nothing for anyone else. -/
theorem qtyOn_restart (b : Brokers) (db : Db) (j : AccountId) (v : VenueId) (o : OutcomeId) :
    (bootstrap acct b.fresh db).1.qtyOn j v o =
      if j = acct ∧ (b.get? v).isSome then db.qtyOn j v o else 0 := by
  cases hb : b.get? v with
  | none =>
      have hnone : (bootstrap acct b.fresh db).1.get? v = none := by
        rw [bootstrap_eq_none, get?_fresh, hb]
        rfl
      rw [Brokers.qtyOn_of_none hnone]
      simp
  | some a =>
      have hf : b.fresh.get? v = some (PaperExecutionAdapter.new v a.fees a.slippageBps) := by
        rw [get?_fresh, hb]
        rfl
      obtain ⟨_, a', ha', _, _, _, hrow, _⟩ := hydrated acct b.fresh db hf rfl
      rw [Brokers.qtyOn_of_some ha']
      by_cases hj : j = acct
      · subst hj
        rw [if_pos ⟨rfl, rfl⟩]
        exact congrArg PositionRow.qty (hrow o)
      · rw [if_neg fun h => hj h.1]
        obtain ⟨a₀, ha₀, hsame⟩ := (bootstrap_others acct b.fresh db).back ha'
        rw [hf] at ha₀
        cases ha₀
        rw [hsame j hj]
        rfl

end Bootstrap

/-- Nothing is held at the first start. -/
theorem Audited.start_qty (acct : AccountId) (fleet : Brokers) (j : AccountId) (v : VenueId)
    (o : OutcomeId) :
    (start acct fleet).system.brokers.qtyOn j v o = 0 ∧
      (start acct fleet).system.db.qtyOn j v o = 0 := by
  have hdb : (start acct fleet).system.db.qtyOn j v o = 0 := by
    rw [Db.qtyOn, start, (bootstrap_tables _ _).1]
    rfl
  refine ⟨(qtyOn_restart fleet {} j v o).trans ?_, hdb⟩
  split
  · rfl
  · rfl

/-! ## A market that the NO side wins -/

namespace NoWins

def results : Results where
  value o := if o = "k-no" then 1 else 0
  nonneg o := by split <;> norm_num

/-- A hundred contracts of the NO side. -/
def buy : AuditOp :=
  .placeOrder "kalshi" TwoVenues.book 0 "default" "k-no" true 100 (48 / 100) none

/-- The settlement of the NO leg by the service that reads the book. -/
def settlement (landed : Bool) : AuditOp := .settleOutcomeAsync "kalshi" "k-no" "heuristic" landed

/-- The pass that asks the venue. -/
def pass : AuditOp := .settleOnce "kalshi" "k-no" true

/-- The next cash sweep. -/
def sweep : AuditOp := .sweepOne "default" 1

end NoWins

end Arbys
