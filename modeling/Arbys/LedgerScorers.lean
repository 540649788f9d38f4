import Mathlib.Data.List.MinMax
import Mathlib.Data.Sign.Basic
import Arbys.LedgerPopulation

/-!
# The two ticket scorers

`ticket_outcomes` sums a ticket's gains over the outer join and takes the value
of an outcome from the settlement row stored last; `list_paper_tickets` sums
over the legs it builds and takes it from the row with the latest `ts`. On the
same values the two sums are one (`profitAt`), and both leave the ticket open
on the same condition (`Open`). What is left between them is the choice among
several settlement rows of one outcome, which is where they part.
-/

namespace Arbys.LedgerDb

open OuterJoin

/-! ## The two choices of a settlement row -/

/-- The row of an outcome with the latest timestamp. -/
def newest (rows : List PaperSettlement) (o : OutcomeId) : Option PaperSettlement :=
  (rows.filter fun row => row.outcomeId = o).argmax (·.ts)

/-- No outcome has two rows with one timestamp. -/
def DistinctTs (rows : List PaperSettlement) : Prop :=
  rows.Pairwise fun r s => r.outcomeId = s.outcomeId → r.ts ≠ s.ts

instance : Std.Symm fun r s : PaperSettlement => r.outcomeId = s.outcomeId → r.ts ≠ s.ts :=
  ⟨fun _ _ h ho => (h ho.symm).symm⟩

/-- `order_by(PaperSettlement.ts.desc())`. -/
abbrev newestFirst (r s : PaperSettlement) : Bool := decide (s.ts ≤ r.ts)

/-- The first row of an outcome in a list with the newest first is its newest. -/
theorem find?_sorted_eq_newest {rows : List PaperSettlement} (hts : DistinctTs rows)
    (o : OutcomeId) :
    (rows.mergeSort newestFirst).find? (fun row => row.outcomeId = o) = newest rows o := by
  have hperm := List.mergeSort_perm rows newestFirst
  have hsorted : (rows.mergeSort newestFirst).Pairwise fun r s => s.ts ≤ r.ts := by
    have htrans : ∀ a b c, newestFirst a b = true → newestFirst b c = true →
        newestFirst a c = true := by
      intro a b c hab hbc
      simp only [newestFirst, decide_eq_true_eq] at *
      exact le_trans hbc hab
    have htotal : ∀ a b, (newestFirst a b || newestFirst b a) = true := by
      intro a b
      simp only [newestFirst, Bool.or_eq_true, decide_eq_true_eq]
      exact le_total _ _
    have h := List.pairwise_mergeSort htrans htotal rows
    simpa [newestFirst] using h
  cases hfind : (rows.mergeSort newestFirst).find? fun row => row.outcomeId = o with
  | none =>
      have hnone : rows.filter (fun row => row.outcomeId = o) = [] := by
        refine List.filter_eq_nil_iff.mpr fun row hrow => ?_
        exact List.find?_eq_none.mp hfind row (hperm.mem_iff.mpr hrow)
      rw [newest, hnone]
      rfl
  | some row =>
      obtain ⟨ho, before, after, hsplit, hbefore⟩ := List.find?_eq_some_iff_append.mp hfind
      have hrow : row ∈ rows := hperm.mem_iff.mp (List.mem_of_find?_eq_some hfind)
      -- every row of the outcome stands at or behind the one found
      have hmax : ∀ s ∈ rows, s.outcomeId = o → s.ts ≤ row.ts := by
        intro s hs hso
        have hmem := hperm.mem_iff.mpr hs
        rw [hsplit] at hmem hsorted
        rcases List.mem_append.mp hmem with hs | hs
        · exact absurd (hbefore s hs) (by simp [hso])
        · rcases List.mem_cons.mp hs with rfl | hs
          · exact le_rfl
          · exact (List.pairwise_cons.mp (List.pairwise_append.mp hsorted).2.1).1 s hs
      have hro : row.outcomeId = o := by simpa using ho
      have hmem : row ∈ rows.filter fun row => row.outcomeId = o :=
        List.mem_filter.mpr ⟨hrow, by simpa using hro⟩
      symm
      refine List.mem_argmax_iff.mpr ⟨hmem, fun s hs => ?_, fun s hs hle => ?_⟩
      · obtain ⟨hs, hso⟩ := List.mem_filter.mp hs
        exact hmax s hs (by simpa using hso)
      · -- two rows of one outcome at one timestamp are the same row
        obtain ⟨hs, hso⟩ := List.mem_filter.mp hs
        have hso : s.outcomeId = o := by simpa using hso
        have heq : s.ts = row.ts := le_antisymm (hmax s hs hso) hle
        have hsame : s = row := by
          by_contra hne
          exact hts.forall hs hrow hne (hso.trans hro.symm) heq
        rw [hsame]

theorem find_map_eq_find? (l : List PaperSettlement) (o : OutcomeId) :
    Dict.find o (l.map fun row => (row.outcomeId, row.resolvedValue)) =
      (l.find? fun row => row.outcomeId = o).map (·.resolvedValue) := by
  induction l with
  | nil => rfl
  | cons row l ih =>
      rw [List.map_cons, Dict.find, List.find?_cons]
      by_cases h : row.outcomeId = o
      · simp [h]
      · simp [h, ih]

/-- `list_paper_settlements` keeps the first row of each outcome. -/
theorem keepFirst_foldl (o : OutcomeId) (rows : List PaperSettlement) :
    ∀ (seen : List OutcomeId) (out : List PaperSettlement),
      (∀ j, j ∈ seen ↔ j ∈ out.map (·.outcomeId)) → (out.map (·.outcomeId)).Nodup →
      let kept := (rows.foldl (fun (acc : List OutcomeId × List PaperSettlement) r =>
        if r.outcomeId ∈ acc.1 then acc else (r.outcomeId :: acc.1, acc.2 ++ [r])) (seen, out)).2
      (kept.map (·.outcomeId)).Nodup ∧
        kept.find? (fun row => row.outcomeId = o) =
          (out.find? fun row => row.outcomeId = o).or
            (rows.find? fun row => row.outcomeId = o) := by
  induction rows with
  | nil =>
      intro seen out _ hnodup
      exact ⟨hnodup, by simp⟩
  | cons r rows ih =>
      intro seen out hseen hnodup
      simp only [List.foldl_cons]
      by_cases hr : r.outcomeId ∈ seen
      · rw [if_pos hr]
        obtain ⟨hkept, hfind⟩ := ih seen out hseen hnodup
        refine ⟨hkept, hfind.trans ?_⟩
        rw [List.find?_cons]
        by_cases ho : r.outcomeId = o
        · -- the outcome is in already, so the row is passed over
          have hin : (out.find? fun row => row.outcomeId = o).isSome := by
            obtain ⟨row, hrow, hid⟩ := List.mem_map.mp ((hseen _).mp hr)
            exact List.find?_isSome.mpr ⟨row, hrow, by simpa using hid.trans ho⟩
          obtain ⟨row, hrow⟩ := Option.isSome_iff_exists.mp hin
          rw [hrow, Option.some_or, Option.some_or]
        · rw [decide_eq_false ho]
      · rw [if_neg hr]
        have hout : ∀ j, j ∈ r.outcomeId :: seen ↔ j ∈ (out ++ [r]).map (·.outcomeId) := by
          intro j
          rw [List.mem_cons, hseen, List.map_append, List.mem_append, or_comm]
          simp
        have hnodup' : ((out ++ [r]).map (·.outcomeId)).Nodup := by
          rw [List.map_append, List.nodup_append]
          refine ⟨hnodup, List.nodup_singleton _, fun j hj k hk => ?_⟩
          rw [List.map_singleton, List.mem_singleton] at hk
          rintro rfl
          exact hr ((hseen _).mpr (hk ▸ hj))
        obtain ⟨hkept, hfind⟩ := ih _ _ hout hnodup'
        refine ⟨hkept, hfind.trans ?_⟩
        rw [← List.find?_append, List.append_assoc, List.singleton_append, List.find?_append]

theorem get?_latestValues {db : LedgerDb} (hts : DistinctTs db.settlements) (o : OutcomeId) :
    db.latestValues.get? o = (newest db.settlements o).map (·.resolvedValue) := by
  obtain ⟨hnodup, hfind⟩ := keepFirst_foldl o (db.settlements.mergeSort newestFirst) [] []
    (by simp) List.nodup_nil
  have hkeys : ((db.listPaperSettlements.map fun row =>
      (row.outcomeId, row.resolvedValue)).map Prod.fst).Nodup := by
    rw [List.map_map]
    exact hnodup
  rw [latestValues, Dict.get?, Dict.entries_ofList hkeys, find_map_eq_find?,
    ← find?_sorted_eq_newest hts]
  exact congrArg _ hfind

/-! ## The profit of a ticket at given values -/

/-- At most one fill per order. -/
def OneFill (db : LedgerDb) : Prop := (db.fills.map (·.orderId)).Nodup

/-- The orders of a ticket, as they are stored. -/
def ordersOf (db : LedgerDb) (t : PaperTicket) : List PaperOrder := db.orders.filter (orderOf t)

/-- What an order gains at `value`, through its fill. -/
def orderGain (db : LedgerDb) (value : OutcomeId → ℚ) (o : PaperOrder) : ℚ :=
  ((db.fills.find? fun f => f.orderId = o.id).map fun f =>
    legGain o f (value o.outcomeId)).getD 0

/-- The sum over a ticket's orders, each at the value of its outcome. -/
def profitAt (db : LedgerDb) (t : PaperTicket) (value : OutcomeId → ℚ) : ℚ :=
  ((db.ordersOf t).map (db.orderGain value)).sum

/-- The value a table of settlement rows ends up with when each row is written
over the one before. -/
def storedValue (rows : List PaperSettlement) (o : OutcomeId) : ℚ :=
  ((lastStored rows o).map (·.resolvedValue)).getD 0

/-- The value of the row with the latest timestamp. -/
def newestValue (rows : List PaperSettlement) (o : OutcomeId) : ℚ :=
  ((newest rows o).map (·.resolvedValue)).getD 0

section Closed

variable {db : LedgerDb} {t : PaperTicket}

theorem filter_orderId {fills : List PaperFill} (h : (fills.map (·.orderId)).Nodup)
    {f : PaperFill} (hf : f ∈ fills) :
    fills.filter (fun g => g.orderId = f.orderId) = [f] := by
  induction fills with
  | nil => cases hf
  | cons g fills ih =>
      obtain ⟨hg, hnodup⟩ := List.nodup_cons.mp h
      rcases List.mem_cons.mp hf with rfl | hf
      · have hrest : fills.filter (fun g => g.orderId = f.orderId) = [] := by
          refine List.filter_eq_nil_iff.mpr fun k hk hid => hg ?_
          exact List.mem_map.mpr ⟨k, hk, by simpa using hid⟩
        rw [List.filter_cons_of_pos (by simp), hrest]
      · have hne : g.orderId ≠ f.orderId := fun hid => hg (List.mem_map.mpr ⟨f, hf, hid.symm⟩)
        rw [List.filter_cons_of_neg (by simpa using hne), ih hnodup hf]

/-- A ticket that is not open has orders, each with a fill and a settled
outcome. -/
theorem of_not_open (h : ¬ db.Open t) :
    db.ordersOf t ≠ [] ∧ ∀ o ∈ db.ordersOf t, (∃ f ∈ db.fills, f.orderId = o.id) ∧
      ∃ s ∈ db.settlements, s.outcomeId = o.outcomeId := by
  rw [Open, not_or] at h
  obtain ⟨hsome, hall⟩ := h
  push Not at hsome hall
  obtain ⟨o, ho, hid⟩ := hsome
  constructor
  · exact List.ne_nil_of_mem (List.mem_filter.mpr ⟨ho, orderOf_iff.mpr hid⟩)
  · intro o ho
    obtain ⟨ho, hid⟩ := List.mem_filter.mp ho
    exact hall o ho (orderOf_iff.mp hid)

/-- The joined rows of one ticket. -/
theorem filter_joinedRows {where_ : PaperTicket → Bool} (ht : t ∈ db.tickets)
    (hw : where_ t = true) :
    (db.joinedRows where_).filter (fun row => row.1.1.id = t.id) = db.joinedOn [t] := by
  have honly : db.tickets.filter (fun u => decide (u.id = t.id) && where_ u) = [t] := by
    have hone : ∀ tickets : List PaperTicket, (tickets.map (·.id)).Nodup → t ∈ tickets →
        tickets.filter (fun u => decide (u.id = t.id) && where_ u) = [t] := by
      intro tickets
      induction tickets with
      | nil => intro _ h; cases h
      | cons u tickets ih =>
          intro hnodup hmem
          obtain ⟨hu, hnodup⟩ := List.nodup_cons.mp hnodup
          rcases List.mem_cons.mp hmem with rfl | hmem
          · have hrest : tickets.filter (fun u => decide (u.id = t.id) && where_ u) = [] := by
              refine List.filter_eq_nil_iff.mpr fun k hk hkt => hu ?_
              rw [Bool.and_eq_true, decide_eq_true_eq] at hkt
              exact List.mem_map.mpr ⟨k, hk, hkt.1⟩
            rw [List.filter_cons_of_pos (by simp [hw]), hrest]
          · have hne : u.id ≠ t.id := fun hid => hu (List.mem_map.mpr ⟨t, hmem, hid.symm⟩)
            rw [List.filter_cons_of_neg (by simp [hne]), ih hnodup hmem]
    exact hone db.tickets db.tickets_nodup ht
  rw [joinedRows, List.filter_filter, joinedOn, joinedOn,
    filter_leftJoin (fun p : PaperTicket × Option PaperOrder =>
      decide (p.1.id = t.id) && where_ p.1),
    filter_leftJoin (fun u => decide (u.id = t.id) && where_ u), honly]

/-- **The sum over the join is the sum over the orders**: of a ticket all of
whose legs are filled and settled, the joined rows add up to its profit at the
values they are scored with. -/
theorem sum_joinedOn (hfill : db.OneFill) {settled : Dict OutcomeId ℚ} (hopen : ¬ db.Open t)
    (hsettled : ∀ o, settled.get? o = none ↔ ∀ s ∈ db.settlements, s.outcomeId ≠ o) :
    ((db.joinedOn [t]).filterMap (rowGain settled)).sum =
      db.profitAt t fun o => settled.getD o 0 := by
  obtain ⟨hne, hlegs⟩ := of_not_open hopen
  -- the ticket has an order, so the outer join has no row without one
  have hpartners : partners orderOf db.orders t = (db.ordersOf t).map some := by
    rw [partners]
    split
    · rename_i hnil
      exact absurd hnil hne
    · rfl
  have hrun : ∀ os : List PaperOrder, (∀ o ∈ os, o ∈ db.ordersOf t) →
      ((leftJoin fillOf (os.map fun o => (t, some o)) db.fills).filterMap
        (rowGain settled)).sum = (os.map (db.orderGain fun o => settled.getD o 0)).sum := by
    intro os
    induction os with
    | nil => intro _; rfl
    | cons o os ih =>
        intro hos
        obtain ⟨⟨f, hf, hfo⟩, s, hs, hso⟩ := hlegs o (hos o List.mem_cons_self)
        -- an order has one fill, so it makes one row
        have hone : db.fills.filter (fillOf (t, some o)) = [f] := by
          have h := filter_orderId hfill hf
          rw [hfo] at h
          exact h
        have hfind : db.fills.find? (fun g => g.orderId = o.id) = some f := by
          rw [← List.head?_filter]
          exact congrArg List.head? hone
        obtain ⟨v, hv⟩ := Option.ne_none_iff_exists'.mp
          (mt (hsettled o.outcomeId).mp fun h => h s hs hso)
        have hrow : leftJoin fillOf ((o :: os).map fun o => (t, some o)) db.fills =
            ((t, some o), some f) :: leftJoin fillOf (os.map fun o => (t, some o)) db.fills := by
          simp [leftJoin, partners, hone]
        have hgain : rowGain settled ((t, some o), some f) =
            some (db.orderGain (fun o => settled.getD o 0) o) := by
          rw [rowGain_filled, hv, orderGain, hfind]
          simp [Dict.getD, hv]
        rw [hrow, List.filterMap_cons_some hgain, List.sum_cons, List.map_cons, List.sum_cons,
          ih fun o' ho' => hos o' (List.mem_cons_of_mem _ ho')]
  rw [joinedOn, show leftJoin orderOf [t] db.orders = (db.ordersOf t).map fun o => (t, some o) by
    simp [leftJoin, hpartners], profitAt]
  exact hrun _ fun o ho => ho

end Closed

/-! ## What each of them makes of a ticket -/

section Scorers

variable {db : LedgerDb} {t : PaperTicket}

/-- **`ticket_outcomes` of one ticket**: open, or the sign of its profit at the
stored values. -/
theorem get?_ticketOutcomes (hfill : db.OneFill) (ht : t ∈ db.tickets)
    (hstatus : t.status = "filled") (hkept : t.excludedReason = none) {since : Option ℚ}
    (hsince : since.all fun s => decide (s ≤ t.submittedAt)) :
    (db.ticketOutcomes t.accountId since).get? t.id =
      some (if db.Open t then .open
        else outcomeOfTotal (db.profitAt t (storedValue db.settlements))) := by
  have hw : outcomeFilters t.accountId since t = true := by
    simp [ticketFilters, statusIn, hstatus, hkept, hsince]
  have hseen : t.id ∈ (db.outcomeTally t.accountId since).seen := by
    obtain ⟨oo, hoo⟩ : ∃ oo, (t, oo) ∈ OuterJoin.leftJoin orderOf db.tickets db.orders :=
      OuterJoin.exists_mem_leftJoin ht
    obtain ⟨of, hof⟩ : ∃ of, ((t, oo), of) ∈ db.joinedOn db.tickets :=
      OuterJoin.exists_mem_leftJoin hoo
    refine (mem_seen_foldl _ _ _ _).mpr (.inr ⟨((t, oo), of), ?_, rfl⟩)
    exact List.mem_filter.mpr ⟨hof, hw⟩
  have hopen : t.id ∈ (db.outcomeTally t.accountId since).isOpen ↔ db.Open t := by
    rw [outcomeTally, mem_isOpen_foldl, exists_openRow_id_iff, mem_openIds]
    constructor
    · rintro (hmem | ⟨u, hu, -, hopen, hid⟩)
      · cases hmem
      · rwa [← eq_of_id_eq hu ht hid]
    · exact fun hopen => .inr ⟨t, ht, hw, hopen, rfl⟩
  have hvalue : (fun o => db.storedValues.getD o 0) = storedValue db.settlements := by
    funext o
    rw [Dict.getD, get?_storedValues, storedValue]
  rw [← Dict.mem_entries_iff, entries_ticketOutcomes, List.mem_map]
  refine ⟨t.id, hseen, ?_⟩
  rw [OutcomeTally.outcome]
  by_cases h : db.Open t
  · rw [if_pos (hopen.mpr h), if_pos h]
  · rw [if_neg (mt hopen.mp h), if_neg h, outcomeTally, profit_foldl, filter_joinedRows ht hw,
      sum_joinedOn hfill h fun o => get?_storedValues_eq_none, hvalue]
    simp [Dict.getD, Dict.get?_empty]

/-- The fill of an order as `fills_by_order` has it: price and fee. -/
theorem get?_fillsByOrder {fills : List PaperFill} (h : (fills.map (·.orderId)).Nodup)
    (id : String) :
    (fillsByOrder fills).get? id =
      (fills.find? fun f => f.orderId = id).map fun f => (f.price, f.fee) := by
  have hrun : ∀ (fills : List PaperFill) (d : Dict String (ℚ × ℚ)),
      (fills.map (·.orderId)).Nodup → (∀ f ∈ fills, d.get? f.orderId = none) →
      (fills.foldl (fun d f => d.set f.orderId (f.price, (d.getD f.orderId (0, 0)).2 + f.fee))
        d).get? id =
        ((fills.find? fun f => f.orderId = id).map fun f => (f.price, f.fee)).or (d.get? id) := by
    intro fills
    induction fills with
    | nil => intro d _ _; simp
    | cons f fills ih =>
        intro d hnodup hd
        obtain ⟨hf, hnodup⟩ := List.nodup_cons.mp hnodup
        have hfee : (d.getD f.orderId (0, 0)).2 + f.fee = f.fee := by
          rw [Dict.getD_of_get?_none (hd f List.mem_cons_self)]
          exact zero_add _
        have hnext : ∀ g ∈ fills,
            (d.set f.orderId (f.price, f.fee)).get? g.orderId = none := by
          intro g hg
          have hne : g.orderId ≠ f.orderId := fun hid => hf (List.mem_map.mpr ⟨g, hg, hid⟩)
          rw [Dict.get?_set_ne _ hne]
          exact hd g (List.mem_cons_of_mem _ hg)
        rw [List.foldl_cons, hfee, ih _ hnodup hnext, List.find?_cons]
        by_cases hid : f.orderId = id
        · subst hid
          have hrest : (fills.find? fun g => g.orderId = f.orderId) = none :=
            List.find?_eq_none.mpr fun g hg hid =>
              hf (List.mem_map.mpr ⟨g, hg, by simpa using hid⟩)
          simp [hrest]
        · rw [decide_eq_false hid, Dict.get?_set_ne _ (Ne.symm hid)]
  rw [fillsByOrder, hrun fills _ h fun f _ => Dict.get?_empty _, Dict.get?_empty, Option.or_none]

/-- What one leg adds to the score; `none` where it leaves the ticket open. -/
def legScore (settled : Dict OutcomeId ℚ) (fills : Dict String (ℚ × ℚ)) (o : PaperOrder) :
    Option ℚ := do
  let fill ← fills.get? o.id
  let resolved ← settled.get? o.outcomeId
  pure (o.direction * (resolved - fill.1) * o.qty - fill.2)

/-- **`_score_ticket`** on the legs of a list of orders: their scores added up,
once there is one and every leg has its score. -/
theorem scoreLegs_map (settled : Dict OutcomeId ℚ) (fills : Dict String (ℚ × ℚ))
    (os : List PaperOrder) :
    scoreLegs (os.map (legOf settled fills)) settled =
      if os ≠ [] ∧ ∀ o ∈ os, (legScore settled fills o).isSome then
        some (os.map fun o => (legScore settled fills o).getD 0).sum
      else none := by
  have hstep : ∀ (total : ℚ) (o : PaperOrder),
      (do
        let fillPrice ← (legOf settled fills o).fillPrice
        let resolved ← settled.get? (legOf settled fills o).order.outcomeId
        pure (total + ((legOf settled fills o).order.direction * (resolved - fillPrice) *
          (legOf settled fills o).order.qty - (legOf settled fills o).fee)) : Option ℚ) =
        (legScore settled fills o).map (total + ·) := by
    intro total o
    cases hf : fills.get? o.id with
    | none => simp [legOf, legScore, hf]
    | some fill => cases hs : settled.get? o.outcomeId <;> simp [legOf, legScore, hf, hs]
  -- one leg without a score and the whole ticket has none
  have hrun : ∀ (os : List PaperOrder) (total : ℚ),
      (os.map (legOf settled fills)).foldlM (fun total leg => do
        let fillPrice ← leg.fillPrice
        let resolved ← settled.get? leg.order.outcomeId
        pure (total + (leg.order.direction * (resolved - fillPrice) * leg.order.qty - leg.fee)))
        total =
        if ∀ o ∈ os, (legScore settled fills o).isSome then
          some (total + (os.map fun o => (legScore settled fills o).getD 0).sum)
        else none := by
    intro os
    induction os with
    | nil => intro total; simp
    | cons o os ih =>
        intro total
        rw [List.map_cons, List.foldlM_cons, hstep]
        cases h : legScore settled fills o with
        | none => simp [h]
        | some gain =>
            have hrest := ih (total + gain)
            simp only [Option.map_some, Option.bind_eq_bind, Option.bind_some,
              List.forall_mem_cons, h, Option.isSome_some, true_and, List.map_cons,
              List.sum_cons, Option.getD_some] at hrest ⊢
            rw [hrest, add_assoc]
  rw [scoreLegs, hrun]
  cases os with
  | nil => rfl
  | cons o os => simp

/-- The orders `list_paper_tickets` reads for a page of tickets. -/
def pageOrders (db : LedgerDb) (page : List PaperTicket) : List PaperOrder :=
  (db.orders.filter fun o =>
    o.ticketId.any fun id => (page.map (·.id)).contains id).mergeSort orderBefore

/-- And their fills. -/
def pageFills (db : LedgerDb) (page : List PaperTicket) : Dict String (ℚ × ℚ) :=
  fillsByOrder (db.fills.filter fun f => ((db.pageOrders page).map (·.id)).contains f.orderId)

theorem pageOrders_perm (db : LedgerDb) {page : List PaperTicket} (ht : t ∈ page) :
    ((db.pageOrders page).filter fun o => o.ticketId = some t.id).Perm (db.ordersOf t) := by
  refine ((List.mergeSort_perm _ _).filter _).trans (.of_eq ?_)
  rw [List.filter_filter, ordersOf]
  refine List.filter_congr fun o _ => ?_
  by_cases hid : o.ticketId = some t.id
  · have hin : t.id ∈ page.map (·.id) := List.mem_map_of_mem ht
    simp only [hid, orderOf, decide_true, Bool.true_and, Option.any_some]
    exact List.contains_iff_mem.mpr hin
  · simp [hid, orderOf]

theorem get?_pageFills (hfill : db.OneFill) {page : List PaperTicket} (ht : t ∈ page)
    {o : PaperOrder} (ho : o ∈ db.ordersOf t) :
    (db.pageFills page).get? o.id =
      (db.fills.find? fun f => f.orderId = o.id).map fun f => (f.price, f.fee) := by
  have hin : o.id ∈ (db.pageOrders page).map (·.id) :=
    List.mem_map_of_mem (List.mem_of_mem_filter ((pageOrders_perm db ht).mem_iff.mpr ho))
  rw [pageFills, get?_fillsByOrder ((List.filter_sublist.map _).nodup hfill), List.find?_filter]
  congr 2
  funext f
  by_cases hid : f.orderId = o.id
  · simp only [hid, List.contains_iff_mem.mpr hin, decide_true, and_self]
  · simp [hid]

/-- What a page's leg adds, read off the tables. -/
theorem legScore_page (hfill : db.OneFill) (hts : DistinctTs db.settlements)
    {page : List PaperTicket} (ht : t ∈ page) {o : PaperOrder} (ho : o ∈ db.ordersOf t) :
    legScore db.latestValues (db.pageFills page) o =
      (db.fills.find? fun f => f.orderId = o.id).bind fun f =>
        (newest db.settlements o.outcomeId).map fun s => legGain o f s.resolvedValue := by
  rw [legScore, get?_pageFills hfill ht ho, get?_latestValues hts]
  cases db.fills.find? fun f => f.orderId = o.id with
  | none => rfl
  | some f =>
      cases newest db.settlements o.outcomeId with
      | none => rfl
      | some s => rfl

theorem newest_eq_none {rows : List PaperSettlement} {o : OutcomeId} :
    newest rows o = none ↔ ∀ s ∈ rows, s.outcomeId ≠ o := by
  simp [newest]

/-- A row of the ledger is scored from the legs of its page. -/
theorem exists_page {acct : AccountId} {limit : ℕ} {status : Option (List String)}
    {source : Option String} {since : Option ℚ} {outcome : Option TicketOutcome}
    {cursor : Option (ℚ × TicketId)} {e : TicketEntry}
    (he : e ∈ db.listPaperTickets acct limit status source since outcome cursor) :
    ∃ page : List PaperTicket, e.ticket ∈ page ∧
      e.realizedProfit = scoreLegs (((db.pageOrders page).filter fun o =>
        o.ticketId = some e.ticket.id).map (legOf db.latestValues (db.pageFills page)))
        db.latestValues := by
  rw [listPaperTickets] at he
  cases hclause : db.outcomeClause acct since outcome with
  | none =>
      rw [hclause] at he
      cases he
  | some clause =>
      rw [hclause] at he
      obtain ⟨t, ht, rfl⟩ := List.mem_map.mp he
      exact ⟨_, ht, rfl⟩

/-- **`list_paper_tickets` of one ticket**: none while it is open, then its
profit at the newest values. -/
theorem realizedProfit_eq (hfill : db.OneFill) (hts : DistinctTs db.settlements)
    {acct : AccountId} {limit : ℕ} {status : Option (List String)} {source : Option String}
    {since : Option ℚ} {outcome : Option TicketOutcome} {cursor : Option (ℚ × TicketId)}
    {e : TicketEntry}
    (he : e ∈ db.listPaperTickets acct limit status source since outcome cursor) :
    e.realizedProfit =
      if db.Open e.ticket then none
      else some (db.profitAt e.ticket (newestValue db.settlements)) := by
  obtain ⟨page, ht, hscored⟩ := exists_page he
  generalize e.ticket = t at ht hscored ⊢
  have hos := pageOrders_perm db ht
  have hscore := fun {o} ho => legScore_page (o := o) hfill hts ht ho
  rw [hscored, scoreLegs_map]
  by_cases hopen : db.Open t
  · rw [if_pos hopen, if_neg]
    rintro ⟨hne, hall⟩
    -- open for want of an order, a fill or a settlement: no score in any of the three
    rcases hopen with hnone | ⟨o, ho, hid, hmiss⟩
    · obtain ⟨o, ho⟩ := List.exists_mem_of_ne_nil _ hne
      obtain ⟨ho, hid⟩ := List.mem_filter.mp (hos.mem_iff.mp ho)
      exact hnone o ho (orderOf_iff.mp hid)
    · have hmem : o ∈ db.ordersOf t := List.mem_filter.mpr ⟨ho, orderOf_iff.mpr hid⟩
      have hsome := hall o (hos.mem_iff.mpr hmem)
      rw [hscore hmem] at hsome
      rcases hmiss with hnofill | hnosettle
      · have hfind : (db.fills.find? fun f => f.orderId = o.id) = none :=
          List.find?_eq_none.mpr fun f hf => by simpa using hnofill f hf
        rw [hfind] at hsome
        cases hsome
      · rw [newest_eq_none.mpr hnosettle] at hsome
        simp at hsome
  · obtain ⟨hne, hlegs⟩ := of_not_open hopen
    have hgain : ∀ o ∈ db.ordersOf t, legScore db.latestValues (db.pageFills page) o =
        some (db.orderGain (newestValue db.settlements) o) := by
      intro o ho
      obtain ⟨⟨f, hf, hfo⟩, s, hs, hso⟩ := hlegs o ho
      have hfound : (db.fills.find? fun f => f.orderId = o.id).isSome :=
        List.find?_isSome.mpr ⟨f, hf, by simpa using hfo⟩
      obtain ⟨g, hg⟩ := Option.isSome_iff_exists.mp hfound
      obtain ⟨r, hr⟩ := Option.ne_none_iff_exists'.mp
        (mt newest_eq_none.mp fun h => h s hs hso)
      rw [hscore ho, hg, hr, orderGain, hg, newestValue, hr]
      rfl
    rw [if_neg hopen, if_pos]
    · rw [(hos.map _).sum_eq, profitAt]
      congr 2
      exact List.map_congr_left fun o ho => by rw [hgain o ho]; rfl
    · refine ⟨fun hnil => hne (List.nil_perm.mp (hnil ▸ hos)), fun o ho => ?_⟩
      rw [hgain o (hos.mem_iff.mp ho)]
      rfl

end Scorers

/-! ## Where they agree -/

/-- What the realized profit of a row says of its ticket. -/
def outcomeOfProfit : Option ℚ → TicketOutcome
  | none => .open
  | some profit => outcomeOfTotal profit

/-- The two scorers agree on a ticket: whatever page of the ledger shows it and
from whichever date `ticket_outcomes` starts before it, the outcome is what the
row's realized profit says. -/
def ScorersAgree (db : LedgerDb) (t : PaperTicket) : Prop :=
  ∀ (from_ : Option ℚ) (limit : ℕ) (status : Option (List String)) (source : Option String)
    (since : Option ℚ) (outcome : Option TicketOutcome) (cursor : Option (ℚ × TicketId)),
    from_.all (fun s => decide (s ≤ t.submittedAt)) →
    ∀ e ∈ db.listPaperTickets t.accountId limit status source since outcome cursor,
      e.ticket = t →
        (db.ticketOutcomes t.accountId from_).get? t.id = some (outcomeOfProfit e.realizedProfit)

section Agree

variable {db : LedgerDb} {t : PaperTicket}

/-- The whole ledger of an account, on one page, shows the ticket. -/
theorem exists_entry (ht : t ∈ db.tickets) (hkept : t.excludedReason = none) :
    ∃ e ∈ db.listPaperTickets t.accountId db.tickets.length none none none none none,
      e.ticket = t := by
  have hmem : t ∈ (((db.tickets.filter fun u =>
      ticketFilters t.accountId none none none u && true &&
        (none : Option (ℚ × TicketId)).all fun c => beforeCursor c u).mergeSort
          ticketAfter).take db.tickets.length) := by
    rw [List.take_of_length_le]
    · rw [List.mem_mergeSort, List.mem_filter]
      exact ⟨ht, by simp [ticketFilters, statusIn, hkept]⟩
    · rw [List.length_mergeSort]
      exact List.length_filter_le _ _
  exact ⟨_, List.mem_map_of_mem hmem, rfl⟩

theorem outcomeOfTotal_cases (x : ℚ) :
    (outcomeOfTotal x = .lost ∧ SignType.sign x = -1) ∨
      (outcomeOfTotal x = .flat ∧ SignType.sign x = 0) ∨
      (outcomeOfTotal x = .won ∧ SignType.sign x = 1) := by
  rcases lt_trichotomy x 0 with hx | rfl | hx
  · exact .inl ⟨by rw [outcomeOfTotal, if_neg hx.not_gt, if_pos hx], sign_neg hx⟩
  · exact .inr (.inl ⟨rfl, sign_zero⟩)
  · exact .inr (.inr ⟨by rw [outcomeOfTotal, if_pos hx], sign_pos hx⟩)

theorem outcomeOfTotal_eq_iff {x y : ℚ} :
    outcomeOfTotal x = outcomeOfTotal y ↔ SignType.sign x = SignType.sign y := by
  rcases outcomeOfTotal_cases x with ⟨hx, hsx⟩ | ⟨hx, hsx⟩ | ⟨hx, hsx⟩ <;>
    rcases outcomeOfTotal_cases y with ⟨hy, hsy⟩ | ⟨hy, hsy⟩ | ⟨hy, hsy⟩ <;>
    rw [hx, hy, hsx, hsy] <;> decide

/-- **When they agree on a ticket**: while it is open always, afterwards when
its profit has one sign at the stored values and at the newest ones. -/
theorem scorersAgree_iff (hfill : db.OneFill) (hts : DistinctTs db.settlements)
    (ht : t ∈ db.tickets) (hstatus : t.status = "filled") (hkept : t.excludedReason = none) :
    db.ScorersAgree t ↔
      db.Open t ∨ SignType.sign (db.profitAt t (storedValue db.settlements)) =
        SignType.sign (db.profitAt t (newestValue db.settlements)) := by
  constructor
  · intro hagree
    obtain ⟨e, he, het⟩ := exists_entry ht hkept
    have h := hagree none _ none none none none none rfl e he het
    rw [get?_ticketOutcomes hfill ht hstatus hkept rfl, realizedProfit_eq hfill hts he, het,
      Option.some_inj] at h
    by_cases hopen : db.Open t
    · exact .inl hopen
    · rw [if_neg hopen, if_neg hopen] at h
      exact .inr (outcomeOfTotal_eq_iff.mp h)
  · intro hcond from_ limit status source since outcome cursor hfrom e he het
    rw [get?_ticketOutcomes hfill ht hstatus hkept hfrom, realizedProfit_eq hfill hts he, het,
      Option.some_inj]
    by_cases hopen : db.Open t
    · rw [if_pos hopen, if_pos hopen]
      rfl
    · rw [if_neg hopen, if_neg hopen]
      exact outcomeOfTotal_eq_iff.mpr (hcond.resolve_left hopen)

/-- A filled ticket of one leg, one contract bought at `price`. -/
def oneLegLedger (rows : List PaperSettlement) (o : OutcomeId) (price : ℚ) : LedgerDb where
  tickets := [
    { id := "t1"
      accountId := "default"
      eventGroupId := "g1"
      titleSnapshot := "Red Sox vs Yankees"
      startsAt := none
      source := "auto"
      status := "filled"
      rejectionReason := none
      excludedReason := none
      totalStake := some price
      expectedProfit := none
      expectedEdgeBps := none
      submittedAt := 0 }]
  orders := [
    { id := "o1"
      accountId := "default"
      venueId := "kalshi"
      outcomeId := o
      isBuy := true
      qty := 1
      limitPrice := price
      status := "filled"
      submittedAt := 0
      ticketId := some "t1"
      rejectionReason := none }]
  fills := [⟨"o1", 1, price, 0⟩]
  settlements := rows
  tickets_nodup := List.nodup_singleton _
  orders_nodup := List.nodup_singleton _

theorem profitAt_oneLegLedger (rows : List PaperSettlement) (o : OutcomeId) (price : ℚ)
    (value : OutcomeId → ℚ) :
    ∀ t ∈ (oneLegLedger rows o price).tickets,
      (oneLegLedger rows o price).profitAt t value = value o - price := by
  intro t ht
  rw [List.mem_singleton.mp ht]
  simp [profitAt, ordersOf, orderOf, orderGain, legGain, oneLegLedger, PaperOrder.direction]

theorem oneFill_oneLegLedger (rows : List PaperSettlement) (o : OutcomeId) (price : ℚ) :
    (oneLegLedger rows o price).OneFill :=
  List.nodup_singleton _

theorem not_open_oneLegLedger {rows : List PaperSettlement} {o : OutcomeId} (price : ℚ)
    {s : PaperSettlement} (hs : s ∈ rows) (hso : s.outcomeId = o) :
    ∀ t ∈ (oneLegLedger rows o price).tickets, ¬ (oneLegLedger rows o price).Open t := by
  intro t ht
  rw [List.mem_singleton.mp ht]
  simp only [Open, oneLegLedger, List.mem_singleton, forall_eq, exists_eq_left, ne_eq,
    not_true_eq_false, true_and, false_or]
  exact fun h => h s hs hso

/-- **Where the two scorers agree.** On a table of settlement rows, they agree
on every ticket of every ledger that holds it exactly when the last stored row
of each outcome carries the value of its newest row; and on a table where that
fails, they agree on a ticket exactly when it is open or its profit at the
stored values has the sign of its profit at the newest ones. -/
theorem scorers_agree_iff (rows : List PaperSettlement) (hts : DistinctTs rows) :
    ((∀ db : LedgerDb, db.settlements = rows → db.OneFill →
        ∀ t ∈ db.tickets, t.status = "filled" → t.excludedReason = none → db.ScorersAgree t) ↔
      ∀ o, storedValue rows o = newestValue rows o) ∧
    ∀ db : LedgerDb, db.settlements = rows → db.OneFill →
      ∀ t ∈ db.tickets, t.status = "filled" → t.excludedReason = none →
        (db.ScorersAgree t ↔ db.Open t ∨ SignType.sign (db.profitAt t (storedValue rows)) =
          SignType.sign (db.profitAt t (newestValue rows))) := by
  have hticket : ∀ db : LedgerDb, db.settlements = rows → db.OneFill →
      ∀ t ∈ db.tickets, t.status = "filled" → t.excludedReason = none →
        (db.ScorersAgree t ↔ db.Open t ∨ SignType.sign (db.profitAt t (storedValue rows)) =
          SignType.sign (db.profitAt t (newestValue rows))) := by
    rintro db rfl hfill t ht hstatus hkept
    exact scorersAgree_iff hfill hts ht hstatus hkept
  refine ⟨⟨fun hall o => ?_, fun hsame db hrows hfill t ht hstatus hkept => ?_⟩, hticket⟩
  · -- one contract bought at the newest value: flat there, off zero at the stored one
    by_contra hne
    have hrow : ∃ s ∈ rows, s.outcomeId = o := by
      by_contra hnone
      push Not at hnone
      refine hne ?_
      rw [storedValue, newestValue, lastStored_eq_none.mpr hnone, newest_eq_none.mpr hnone]
    obtain ⟨s, hs, hso⟩ := hrow
    have hfill := oneFill_oneLegLedger rows o (newestValue rows o)
    have hin : ∃ t ∈ (oneLegLedger rows o (newestValue rows o)).tickets,
        t.status = "filled" ∧ t.excludedReason = none :=
      ⟨_, List.mem_singleton_self _, rfl, rfl⟩
    obtain ⟨t, ht, hstatus, hkept⟩ := hin
    have hagree := (hticket _ rfl hfill t ht hstatus hkept).mp
      (hall _ rfl hfill t ht hstatus hkept)
    have hsign := hagree.resolve_left (not_open_oneLegLedger _ hs hso t ht)
    rw [profitAt_oneLegLedger _ _ _ _ t ht, profitAt_oneLegLedger _ _ _ _ t ht, sub_self,
      sign_zero, sign_eq_zero_iff, sub_eq_zero] at hsign
    exact hne hsign
  · refine (hticket db hrows hfill t ht hstatus hkept).mpr (.inr ?_)
    rw [show storedValue rows = newestValue rows from funext hsame]

/-- An outcome resolved at 1 and, two seconds earlier but stored after it, at 0. -/
def correctedRows : List PaperSettlement :=
  [⟨"kalshi:BOS:YES", 1, 12, "venue"⟩, ⟨"kalshi:BOS:YES", 0, 10, "heuristic"⟩]

/-- A contract bought at a half, over a table whose rows are stored in the order
of their timestamps. -/
theorem scorers_agree_ordered :
    ∃ t ∈ (oneLegLedger correctedRows.reverse "kalshi:BOS:YES" (1 / 2)).tickets,
      t.status = "filled" ∧ t.excludedReason = none ∧
        (oneLegLedger correctedRows.reverse "kalshi:BOS:YES" (1 / 2)).ScorersAgree t := by
  have hagree := ((scorers_agree_iff correctedRows.reverse
    (by simp [DistinctTs, correctedRows])).1).mpr fun o => by
      by_cases h : o = "kalshi:BOS:YES"
      · subst h
        norm_num [storedValue, newestValue, lastStored, newest, correctedRows,
          List.argmax_cons]
      · simp [storedValue, newestValue, lastStored, newest, correctedRows, Ne.symm h]
  exact ⟨_, List.mem_singleton_self _, rfl, rfl,
    hagree _ rfl (oneFill_oneLegLedger _ _ _) _ (List.mem_singleton_self _) rfl rfl⟩

/-- One contract bought at a half: `ticket_outcomes` calls it lost, its row in
the ledger says it made a half. -/
theorem scorers_disagree :
    ∃ t ∈ (oneLegLedger correctedRows "kalshi:BOS:YES" (1 / 2)).tickets,
      t.status = "filled" ∧ t.excludedReason = none ∧
        ¬ (oneLegLedger correctedRows "kalshi:BOS:YES" (1 / 2)).ScorersAgree t := by
  have hts : DistinctTs correctedRows := by simp [DistinctTs, correctedRows]
  have hin : ∃ t ∈ (oneLegLedger correctedRows "kalshi:BOS:YES" (1 / 2)).tickets,
      t.status = "filled" ∧ t.excludedReason = none :=
    ⟨_, List.mem_singleton_self _, rfl, rfl⟩
  obtain ⟨t, ht, hstatus, hkept⟩ := hin
  refine ⟨t, ht, hstatus, hkept, fun hagree => ?_⟩
  have hrow : ⟨"kalshi:BOS:YES", 1, 12, "venue"⟩ ∈ correctedRows := List.mem_cons_self
  have hcond := (scorersAgree_iff (oneFill_oneLegLedger correctedRows _ _) hts ht hstatus
    hkept).mp hagree
  have hsign := hcond.resolve_left (not_open_oneLegLedger (1 / 2) hrow rfl t ht)
  have hstored : storedValue correctedRows "kalshi:BOS:YES" = 0 := rfl
  have hnewest : newestValue correctedRows "kalshi:BOS:YES" = 1 := by
    norm_num [newestValue, newest, correctedRows, List.argmax_cons]
  have hlost : (0 : ℚ) - 1 / 2 < 0 := by norm_num
  have hwon : (0 : ℚ) < 1 - 1 / 2 := by norm_num
  have hrows : (oneLegLedger correctedRows "kalshi:BOS:YES" (1 / 2)).settlements =
    correctedRows := rfl
  rw [profitAt_oneLegLedger _ _ _ _ t ht, profitAt_oneLegLedger _ _ _ _ t ht, hrows, hstored,
    hnewest, sign_neg hlost, sign_pos hwon] at hsign
  exact absurd hsign (by decide)

end Agree

end Arbys.LedgerDb
