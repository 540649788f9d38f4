import Mathlib.Data.List.Perm.Lattice
import Arbys.LedgerQueries

/-!
# Which tickets the ledger's queries count

`ticket_outcomes`, `count_paper_tickets` and `count_open_paper_tickets` are
written separately over one join of tickets, orders and fills. What each of
them makes of a ticket is read off the join once: a ticket is open when it has
no order, an order without a fill, or an outcome without a settlement row
(`Open`). The first two queries keep the tickets that are not withheld; the
last one has clauses of its own that keep the withheld ones too, and
`openCounter_iff` says exactly when that makes its count differ.
-/

namespace Arbys.LedgerDb

open OuterJoin

/-! ## Rows of the join -/

variable {db : LedgerDb}

/-- What a row of the join is: a ticket that meets the clauses, one of its
orders or none, one of that order's fills or none. -/
theorem mem_joinedRows {where_ : PaperTicket → Bool} {row : JoinedRow} :
    row ∈ db.joinedRows where_ ↔
      row.1.1 ∈ db.tickets ∧ where_ row.1.1 = true ∧
        row.1.2 ∈ partners orderOf db.orders row.1.1 ∧ row.2 ∈ partners fillOf db.fills row.1 := by
  obtain ⟨⟨t, oo⟩, of⟩ := row
  rw [joinedRows, List.mem_filter, joinedOn, mem_leftJoin, mem_leftJoin]
  constructor
  · rintro ⟨⟨⟨ht, ho⟩, hf⟩, hw⟩
    exact ⟨ht, hw, ho, hf⟩
  · rintro ⟨ht, hw, ho, hf⟩
    exact ⟨⟨⟨ht, ho⟩, hf⟩, hw⟩

theorem orderOf_iff {t : PaperTicket} {o : PaperOrder} :
    orderOf t o = true ↔ o.ticketId = some t.id := by
  simp [orderOf]

/-- The row of an outcome that is stored last. -/
def lastStored (rows : List PaperSettlement) (o : OutcomeId) : Option PaperSettlement :=
  (rows.filter fun row => row.outcomeId = o).getLast?

/-- Written one over the other, the last row of an outcome is what stays. -/
theorem get?_storedValues (db : LedgerDb) (o : OutcomeId) :
    db.storedValues.get? o = (lastStored db.settlements o).map (·.resolvedValue) := by
  rw [storedValues, Dict.get?_ofList, Dict.lastWritten, List.filter_map, List.getLast?_map,
    Option.map_map, lastStored]
  rfl

theorem lastStored_eq_none {rows : List PaperSettlement} {o : OutcomeId} :
    lastStored rows o = none ↔ ∀ s ∈ rows, s.outcomeId ≠ o := by
  simp [lastStored]

/-- The keys of a stored value are the outcomes with a settlement row. -/
theorem get?_storedValues_eq_none {o : OutcomeId} :
    db.storedValues.get? o = none ↔ ∀ s ∈ db.settlements, s.outcomeId ≠ o := by
  rw [get?_storedValues, Option.map_eq_none_iff, lastStored_eq_none]

theorem rowGain_filled (settled : Dict OutcomeId ℚ) (t : PaperTicket) (o : PaperOrder)
    (f : PaperFill) :
    rowGain settled ((t, some o), some f) = (settled.get? o.outcomeId).map (legGain o f) := by
  simp only [rowGain, Option.bind_eq_bind, Option.bind_some, Option.pure_def,
    Option.map_eq_bind]
  rfl

/-! ## Open tickets -/

/-- A ticket is open when it has no order, or an order without a fill, or one
whose outcome carries no settlement row. -/
def Open (db : LedgerDb) (t : PaperTicket) : Prop :=
  (∀ o ∈ db.orders, o.ticketId ≠ some t.id) ∨
    ∃ o ∈ db.orders, o.ticketId = some t.id ∧
      ((∀ f ∈ db.fills, f.orderId ≠ o.id) ∨ ∀ s ∈ db.settlements, s.outcomeId ≠ o.outcomeId)

instance (db : LedgerDb) (t : PaperTicket) : Decidable (db.Open t) :=
  inferInstanceAs (Decidable (_ ∨ _))

/-- The test of `count_open_paper_tickets` is that of `ticket_outcomes`. -/
theorem rowOpen_eq (row : JoinedRow) :
    rowOpen (db.settlements.map (·.outcomeId)).dedup row =
      (rowGain db.storedValues row).isNone := by
  obtain ⟨⟨t, _ | o⟩, _ | f⟩ := row
  · rfl
  · rfl
  · rfl
  · have hsettled : (db.settlements.map (·.outcomeId)).dedup.contains o.outcomeId =
        (db.storedValues.get? o.outcomeId).isSome := by
      rw [Bool.eq_iff_iff, List.contains_iff_mem, List.mem_dedup, List.mem_map,
        Option.isSome_iff_ne_none, ne_eq, get?_storedValues_eq_none]
      simp
    rw [rowGain_filled, Option.isNone_map, ← Option.not_isSome, ← hsettled]
    rfl

/-- **A ticket is open when one of its joined rows says so.** -/
theorem exists_openRow_iff {where_ : PaperTicket → Bool} {t : PaperTicket}
    (ht : t ∈ db.tickets) (hw : where_ t = true) :
    (∃ row ∈ db.joinedRows where_, row.1.1 = t ∧ rowGain db.storedValues row = none) ↔
      db.Open t := by
  constructor
  · rintro ⟨⟨⟨t', oo⟩, of⟩, hrow, rfl, hgain⟩
    obtain ⟨-, -, ho, hf⟩ := mem_joinedRows.mp hrow
    cases oo with
    | none =>
        refine .inl fun o hmem hid => ?_
        have hno := mem_partners_none.mp ho o hmem
        rw [orderOf_iff.mpr hid] at hno
        exact Bool.false_ne_true hno.symm
    | some o =>
        obtain ⟨hmem, hon⟩ := mem_partners_some.mp ho
        refine .inr ⟨o, hmem, orderOf_iff.mp hon, ?_⟩
        cases of with
        | none =>
            refine .inl fun f hfmem hid => ?_
            have hno := mem_partners_none.mp hf f hfmem
            simp [fillOf, hid] at hno
        | some f =>
            refine .inr (get?_storedValues_eq_none.mp ?_)
            simpa [rowGain_filled] using hgain
  · rintro (hnone | ⟨o, hmem, hid, hopen⟩)
    · -- no order: the ticket stands beside nothing
      have ho : none ∈ partners orderOf db.orders t := by
        refine mem_partners_none.mpr fun o hmem => ?_
        simpa [orderOf] using hnone o hmem
      have hf : none ∈ partners fillOf db.fills (t, none) :=
        mem_partners_none.mpr fun f _ => rfl
      exact ⟨((t, none), none), mem_joinedRows.mpr ⟨ht, hw, ho, hf⟩, rfl, rfl⟩
    · have ho : some o ∈ partners orderOf db.orders t :=
        mem_partners_some.mpr ⟨hmem, orderOf_iff.mpr hid⟩
      obtain ⟨of, hof⟩ := List.exists_mem_of_ne_nil _ (partners_ne_nil fillOf db.fills (t, some o))
      refine ⟨((t, some o), of), mem_joinedRows.mpr ⟨ht, hw, ho, hof⟩, rfl, ?_⟩
      cases of with
      | none => rfl
      | some f =>
          obtain ⟨hf, hfo⟩ := mem_partners_some.mp hof
          rcases hopen with hnofill | hnosettle
          · exact absurd (by simpa [fillOf] using hfo) (hnofill f hf)
          · rw [rowGain_filled, get?_storedValues_eq_none.mpr hnosettle]
            rfl

/-! ## The loop of `ticket_outcomes` -/

section Tally

variable (settled : Dict OutcomeId ℚ) (rows : List JoinedRow) (s : OutcomeTally) (id : TicketId)

theorem add_of_none {settled : Dict OutcomeId ℚ} {row : JoinedRow}
    (h : rowGain settled row = none) :
    s.add settled row =
      { s with seen := s.seen.insert row.1.1.id, isOpen := s.isOpen.insert row.1.1.id } := by
  simp only [OutcomeTally.add, h]

theorem add_of_some {settled : Dict OutcomeId ℚ} {row : JoinedRow} {gain : ℚ}
    (h : rowGain settled row = some gain) :
    s.add settled row =
      { s with
        seen := s.seen.insert row.1.1.id
        profit := s.profit.set row.1.1.id (s.profit.getD row.1.1.id 0 + gain) } := by
  simp only [OutcomeTally.add, h]

theorem seen_add (row : JoinedRow) :
    (s.add settled row).seen = s.seen.insert row.1.1.id := by
  cases h : rowGain settled row with
  | none => rw [add_of_none s h]
  | some gain => rw [add_of_some s h]

theorem nodup_seen_foldl (h : s.seen.Nodup) :
    (rows.foldl (OutcomeTally.add settled) s).seen.Nodup := by
  induction rows generalizing s with
  | nil => exact h
  | cons row rows ih =>
      refine ih _ ?_
      rw [seen_add]
      exact h.insert

theorem mem_seen_foldl :
    id ∈ (rows.foldl (OutcomeTally.add settled) s).seen ↔
      id ∈ s.seen ∨ ∃ row ∈ rows, row.1.1.id = id := by
  induction rows generalizing s with
  | nil => simp
  | cons row rows ih =>
      rw [List.foldl_cons, ih, seen_add, List.mem_insert_iff]
      constructor
      · rintro ((rfl | h) | ⟨r, hr, hid⟩)
        · exact .inr ⟨row, List.mem_cons_self, rfl⟩
        · exact .inl h
        · exact .inr ⟨r, List.mem_cons_of_mem _ hr, hid⟩
      · rintro (h | ⟨r, hr, hid⟩)
        · exact .inl (.inr h)
        · rcases List.mem_cons.mp hr with rfl | hr
          · exact .inl (.inl hid.symm)
          · exact .inr ⟨r, hr, hid⟩

/-- A ticket is marked open by one of its rows, and stays so. -/
theorem mem_isOpen_foldl :
    id ∈ (rows.foldl (OutcomeTally.add settled) s).isOpen ↔
      id ∈ s.isOpen ∨ ∃ row ∈ rows, row.1.1.id = id ∧ rowGain settled row = none := by
  induction rows generalizing s with
  | nil => simp
  | cons row rows ih =>
      rw [List.foldl_cons, ih]
      cases h : rowGain settled row with
      | none =>
          rw [add_of_none s h, List.mem_insert_iff]
          constructor
          · rintro ((rfl | hs) | ⟨r, hr, hid⟩)
            · exact .inr ⟨row, List.mem_cons_self, rfl, h⟩
            · exact .inl hs
            · exact .inr ⟨r, List.mem_cons_of_mem _ hr, hid⟩
          · rintro (hs | ⟨r, hr, hid, hgain⟩)
            · exact .inl (.inr hs)
            · rcases List.mem_cons.mp hr with rfl | hr
              · exact .inl (.inl hid.symm)
              · exact .inr ⟨r, hr, hid, hgain⟩
      | some gain =>
          rw [add_of_some s h]
          constructor
          · rintro (hs | ⟨r, hr, hid⟩)
            · exact .inl hs
            · exact .inr ⟨r, List.mem_cons_of_mem _ hr, hid⟩
          · rintro (hs | ⟨r, hr, hid, hgain⟩)
            · exact .inl hs
            · rcases List.mem_cons.mp hr with rfl | hr
              · rw [h] at hgain
                cases hgain
              · exact .inr ⟨r, hr, hid, hgain⟩

/-- The profit of a ticket is the sum of what its settled rows add. -/
theorem profit_foldl :
    (rows.foldl (OutcomeTally.add settled) s).profit.getD id 0 =
      s.profit.getD id 0 +
        ((rows.filter fun row => row.1.1.id = id).filterMap (rowGain settled)).sum := by
  induction rows generalizing s with
  | nil => simp
  | cons row rows ih =>
      rw [List.foldl_cons, ih, List.filter_cons]
      cases h : rowGain settled row with
      | none =>
          rw [add_of_none s h]
          split
          · rw [List.filterMap_cons_none h]
          · rfl
      | some gain =>
          rw [add_of_some s h]
          by_cases hid : row.1.1.id = id
          · subst hid
            simp only [Dict.getD_set_self, decide_true, if_true, List.filterMap_cons_some h,
              List.sum_cons]
            ring
          · simp only [Dict.getD_set_ne _ (Ne.symm hid), hid, decide_false, Bool.false_eq_true,
              if_false]

end Tally

/-- The clauses of `ticket_outcomes`. -/
abbrev outcomeFilters (accountId : AccountId) (since : Option ℚ) : PaperTicket → Bool :=
  ticketFilters accountId since (some ["filled"]) none

/-- The tally `ticket_outcomes` ends its loop with. -/
def outcomeTally (db : LedgerDb) (accountId : AccountId) (since : Option ℚ) : OutcomeTally :=
  (db.joinedRows (outcomeFilters accountId since)).foldl (OutcomeTally.add db.storedValues) {}

theorem nodup_seen (db : LedgerDb) (accountId : AccountId) (since : Option ℚ) :
    (db.outcomeTally accountId since).seen.Nodup :=
  nodup_seen_foldl _ _ _ List.nodup_nil

/-- The tickets of `ticket_outcomes`, each with its outcome. -/
theorem entries_ticketOutcomes (db : LedgerDb) (accountId : AccountId) (since : Option ℚ) :
    (db.ticketOutcomes accountId since).entries =
      (db.outcomeTally accountId since).seen.map fun id =>
        (id, (db.outcomeTally accountId since).outcome id) := by
  simp only [ticketOutcomes, outcomeTally]
  split
  · rename_i h
    rw [h]
    rfl
  · refine Dict.entries_ofList ?_
    rw [List.map_map]
    exact (List.map_id _).symm ▸ nodup_seen db accountId since

/-! ## The counts -/

section Counts

variable {where_ : PaperTicket → Bool} {accountId : AccountId} {since : Option ℚ}

theorem eq_of_id_eq {t u : PaperTicket} (ht : t ∈ db.tickets) (hu : u ∈ db.tickets)
    (h : t.id = u.id) : t = u :=
  List.inj_on_of_nodup_map db.tickets_nodup ht hu h

/-- The ids of the tickets that meet the clauses and are open. -/
def openIds (db : LedgerDb) (where_ : PaperTicket → Bool) : List TicketId :=
  (db.tickets.filter fun t => where_ t && decide (db.Open t)).map (·.id)

theorem nodup_openIds (db : LedgerDb) (where_ : PaperTicket → Bool) :
    (db.openIds where_).Nodup :=
  (List.filter_sublist.map _).nodup db.tickets_nodup

theorem mem_openIds {id : TicketId} :
    id ∈ db.openIds where_ ↔
      ∃ t ∈ db.tickets, where_ t = true ∧ db.Open t ∧ t.id = id := by
  simp [openIds, and_assoc]

/-- The ids a loop over the join collects from its open rows. -/
theorem exists_openRow_id_iff {id : TicketId} :
    (∃ row ∈ db.joinedRows where_, row.1.1.id = id ∧ rowGain db.storedValues row = none) ↔
      id ∈ db.openIds where_ := by
  rw [mem_openIds]
  constructor
  · rintro ⟨row, hrow, hid, hgain⟩
    obtain ⟨ht, hw, -⟩ := mem_joinedRows.mp hrow
    exact ⟨row.1.1, ht, hw, (exists_openRow_iff ht hw).mp ⟨row, hrow, rfl, hgain⟩, hid⟩
  · rintro ⟨t, ht, hw, hopen, hid⟩
    obtain ⟨row, hrow, rfl, hgain⟩ := (exists_openRow_iff ht hw).mpr hopen
    exact ⟨row, hrow, hid, hgain⟩

theorem outcome_eq_open_iff {s : OutcomeTally} {id : TicketId} :
    s.outcome id = .open ↔ id ∈ s.isOpen := by
  by_cases h : id ∈ s.isOpen
  · simp [OutcomeTally.outcome, h]
  · refine iff_of_false ?_ h
    rw [OutcomeTally.outcome, if_neg h, outcomeOfTotal]
    split_ifs <;> simp

/-- `_ids_for_outcome("open")` is the ids of the open tickets that are not
withheld, in some order. -/
theorem idsForOutcome_open_perm (db : LedgerDb) (accountId : AccountId) (since : Option ℚ) :
    (db.idsForOutcome accountId since .open).Perm
      (db.openIds (outcomeFilters accountId since)) := by
  have hids : db.idsForOutcome accountId since .open =
      (db.outcomeTally accountId since).seen.filter fun id =>
        (db.outcomeTally accountId since).outcome id = .open := by
    simp [idsForOutcome, entries_ticketOutcomes, List.filter_map, Function.comp_def]
  refine (List.perm_ext_iff_of_nodup ?_ (nodup_openIds db _)).mpr fun id => ?_
  · rw [hids]
    exact (nodup_seen db accountId since).filter _
  · rw [hids, List.mem_filter, decide_eq_true_eq, outcome_eq_open_iff, outcomeTally,
      mem_seen_foldl, mem_isOpen_foldl, ← exists_openRow_id_iff]
    constructor
    · rintro ⟨-, hmem | hrow⟩
      · cases hmem
      · exact hrow
    · rintro ⟨row, hrow, hid, hgain⟩
      exact ⟨.inr ⟨row, hrow, hid⟩, .inr ⟨row, hrow, hid, hgain⟩⟩

/-- `count_paper_tickets(outcome="open")` counts them. -/
theorem countPaperTickets_open (db : LedgerDb) (accountId : AccountId) :
    db.countPaperTickets accountId none none none (some .open) =
      (db.openIds (outcomeFilters accountId none)).length := by
  have hperm := idsForOutcome_open_perm db accountId none
  simp only [countPaperTickets]
  split
  · rename_i h
    rw [← hperm.length_eq, h]
    rfl
  · rw [openIds, List.length_map]
    congr 1
    refine List.filter_congr fun t ht => ?_
    rw [Bool.eq_iff_iff, Bool.and_eq_true, Bool.and_eq_true, List.contains_iff_mem,
      hperm.mem_iff, mem_openIds, decide_eq_true_eq]
    constructor
    · rintro ⟨-, u, hu, hw, hopen, hid⟩
      obtain rfl := eq_of_id_eq hu ht hid
      exact ⟨hw, hopen⟩
    · rintro ⟨hw, hopen⟩
      refine ⟨?_, t, ht, hw, hopen, rfl⟩
      simp only [ticketFilters, statusIn, Option.all_none, Bool.and_true, Bool.and_eq_true]
        at hw ⊢
      exact hw.1

/-- The tickets `ticket_outcomes` calls open. -/
theorem get?_ticketOutcomes_eq_open_iff {db : LedgerDb} {accountId : AccountId} {since : Option ℚ}
    {id : TicketId} :
    (db.ticketOutcomes accountId since).get? id = some .open ↔
      id ∈ db.openIds (outcomeFilters accountId since) := by
  rw [← (idsForOutcome_open_perm db accountId since).mem_iff, ← Dict.mem_entries_iff]
  simp [idsForOutcome]

/-- How many tickets `ticket_outcomes` calls open. -/
theorem length_open_ticketOutcomes (db : LedgerDb) (accountId : AccountId) (since : Option ℚ) :
    ((db.ticketOutcomes accountId since).values.filter (· = .open)).length =
      (db.openIds (outcomeFilters accountId since)).length := by
  rw [← (idsForOutcome_open_perm db accountId since).length_eq]
  simp [idsForOutcome, Dict.values, List.filter_map, Function.comp_def]

/-- `count_open_paper_tickets` counts the open tickets of its own two clauses. -/
theorem countOpenPaperTickets_eq (db : LedgerDb) (accountId : AccountId) :
    db.countOpenPaperTickets accountId = (db.openIds (openCountFilters accountId)).length := by
  -- the set the loop builds, as its members and without repetition
  have hrun : ∀ (rows : List JoinedRow) (ids : List TicketId), ids.Nodup →
      (rows.foldl (fun openIds row =>
          if rowOpen (db.settlements.map (·.outcomeId)).dedup row then openIds.insert row.1.1.id
          else openIds) ids).Nodup ∧
        ∀ id, id ∈ rows.foldl (fun openIds row =>
            if rowOpen (db.settlements.map (·.outcomeId)).dedup row then
              openIds.insert row.1.1.id
            else openIds) ids ↔
          id ∈ ids ∨ ∃ row ∈ rows, row.1.1.id = id ∧ rowGain db.storedValues row = none := by
    intro rows
    induction rows with
    | nil => intro ids h; simpa using h
    | cons row rows ih =>
        intro ids h
        rw [List.foldl_cons, rowOpen_eq]
        cases hgain : rowGain db.storedValues row with
        | none =>
            obtain ⟨hnodup, hmem⟩ := ih _ (h.insert (a := row.1.1.id))
            refine ⟨hnodup, fun id => ?_⟩
            rw [Option.isNone_none, if_pos rfl, hmem]
            simp only [List.mem_insert_iff, List.mem_cons, exists_eq_or_imp, hgain, and_true]
            tauto
        | some gain =>
            obtain ⟨hnodup, hmem⟩ := ih _ h
            refine ⟨hnodup, fun id => ?_⟩
            rw [Option.isNone_some, if_neg Bool.false_ne_true, hmem]
            simp only [List.mem_cons, exists_eq_or_imp, hgain, reduceCtorEq, and_false, false_or]
  obtain ⟨hnodup, hmem⟩ := hrun (db.joinedRows (openCountFilters accountId)) [] List.nodup_nil
  have hperm := (List.perm_ext_iff_of_nodup hnodup
    (nodup_openIds db (openCountFilters accountId))).mpr fun id => by
      rw [hmem, ← exists_openRow_id_iff]
      simp
  rw [← hperm.length_eq, countOpenPaperTickets]
  split
  · rename_i h
    rw [h]
    rfl
  · rfl

end Counts

/-! ## One population -/

/-- The filled tickets of the account that are withheld. -/
def Withheld (accountId : AccountId) (t : PaperTicket) : Prop :=
  t.accountId = accountId ∧ t.status = "filled" ∧ t.excludedReason ≠ none

theorem outcomeFilters_none_eq (accountId : AccountId) (t : PaperTicket) :
    outcomeFilters accountId none t =
      (openCountFilters accountId t && t.excludedReason.isNone) := by
  simp only [ticketFilters, openCountFilters, statusIn, Option.all_none, Option.all_some,
    Bool.and_true, List.contains_cons, List.contains_nil, Bool.or_false]
  rw [Bool.and_right_comm]
  rfl

/-- The open count takes in the withheld tickets as well. -/
theorem length_openIds_eq_iff (db : LedgerDb) (accountId : AccountId) :
    (db.openIds (outcomeFilters accountId none)).length =
        (db.openIds (openCountFilters accountId)).length ↔
      ¬ ∃ t ∈ db.tickets, Withheld accountId t ∧ db.Open t := by
  have hfilter : (db.tickets.filter fun t =>
      outcomeFilters accountId none t && decide (db.Open t)) =
      (db.tickets.filter fun t => openCountFilters accountId t && decide (db.Open t)).filter
        fun t => t.excludedReason.isNone := by
    rw [List.filter_filter]
    refine List.filter_congr fun t _ => ?_
    rw [outcomeFilters_none_eq, Bool.and_right_comm, Bool.and_comm]
  rw [openIds, openIds, List.length_map, List.length_map, hfilter,
    List.length_filter_eq_length_iff]
  simp only [List.mem_filter, Bool.and_eq_true, openCountFilters, decide_eq_true_eq, Withheld,
    Option.isNone_iff_eq_none]
  constructor
  · rintro h ⟨t, ht, ⟨hacct, hstatus, hexcluded⟩, hopen⟩
    exact hexcluded (h t ⟨ht, ⟨hacct, hstatus⟩, hopen⟩)
  · rintro h t ⟨ht, ⟨hacct, hstatus⟩, hopen⟩
    by_contra hexcluded
    exact h ⟨t, ht, ⟨hacct, hstatus, hexcluded⟩, hopen⟩

/-- **The open counter and the open rows**: `count_paper_tickets(outcome="open")`
is how many tickets `ticket_outcomes` calls open, on every ledger; and
`count_open_paper_tickets` is that number exactly when no withheld ticket of
the account is open. -/
theorem openCounter_iff (db : LedgerDb) (accountId : AccountId) :
    db.countPaperTickets accountId none none none (some .open) =
        ((db.ticketOutcomes accountId none).values.filter (· = .open)).length ∧
      (db.countOpenPaperTickets accountId =
          db.countPaperTickets accountId none none none (some .open) ↔
        ¬ ∃ t ∈ db.tickets, Withheld accountId t ∧ db.Open t) := by
  rw [countPaperTickets_open, length_open_ticketOutcomes, countOpenPaperTickets_eq, eq_comm
    (a := (db.openIds (openCountFilters accountId)).length)]
  exact ⟨rfl, length_openIds_eq_iff db accountId⟩

/-- A filled ticket withheld for an outage, its one leg filled and unsettled. -/
def outageLedger : LedgerDb where
  tickets := [
    { id := "tkt-void"
      accountId := "default"
      eventGroupId := "g1"
      titleSnapshot := "Red Sox vs Yankees"
      startsAt := none
      source := "auto"
      status := "filled"
      rejectionReason := none
      excludedReason := some "polymarket_outage_2026-09-05"
      totalStake := some 5
      expectedProfit := some 1
      expectedEdgeBps := some 100
      submittedAt := 10 }]
  orders := [
    { id := "o1"
      accountId := "default"
      venueId := "kalshi"
      outcomeId := "kalshi:BOS:YES"
      isBuy := true
      qty := 10
      limitPrice := 1 / 2
      status := "filled"
      submittedAt := 10
      ticketId := some "tkt-void"
      rejectionReason := none }]
  fills := [⟨"o1", 10, 1 / 2, 0⟩]
  settlements := []
  tickets_nodup := List.nodup_singleton _
  orders_nodup := List.nodup_singleton _

/-- The counter says one ticket is open; the ledger shows none. -/
theorem openCounter_outage :
    outageLedger.countOpenPaperTickets "default" ≠
      outageLedger.countPaperTickets "default" none none none (some .open) := by
  rw [countPaperTickets_open, countOpenPaperTickets_eq]
  decide

end Arbys.LedgerDb
