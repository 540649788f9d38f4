import Arbys.LedgerPopulation
import Arbys.SchemaBook

/-!
# The ledger after a reset

The ledger's queries read `LedgerDb`, under its primary keys; `ledgerDb` reads
it off a database, whose constraints are where those come from. A reset takes
one account's tickets and every settlement there is, so a filled ticket of
another account, settled or not, is open again.
-/

namespace Arbys

open Tables LedgerDb

namespace Schema

/-! ## Reading the ledger off the rows -/

def ticketOf : Row → Option PaperTicket
  | .paperTicket r => some r
  | _ => none

def orderRowOf : Row → Option PaperOrder
  | .paperOrder r => some r
  | _ => none

def fillRowOf : Row → Option PaperFill
  | .paperFill r => some r
  | _ => none

def settlementRowOf : Row → Option PaperSettlement
  | .paperSettlement r => some r
  | _ => none

theorem ticketOf_eq_some {r : Row} {t : PaperTicket} (h : ticketOf r = some t) :
    r = .paperTicket t := by
  cases r with
  | paperTicket t' =>
      cases h
      rfl
  | _ => cases h

theorem orderRowOf_eq_some {r : Row} {o : PaperOrder} (h : orderRowOf r = some o) :
    r = .paperOrder o := by
  cases r with
  | paperOrder o' =>
      cases h
      rfl
  | _ => cases h

theorem tickets_nodup (db : Database) : ((db.rows.filterMap ticketOf).map (·.id)).Nodup := by
  refine List.pairwise_map.mpr (List.pairwise_filterMap.mpr ?_)
  refine db.pairwise_not_clash.imp fun {r r'} hclash t ht t' ht' heq => hclash (.inl ?_)
  obtain rfl := ticketOf_eq_some ht
  obtain rfl := ticketOf_eq_some ht'
  exact ⟨.paperTicket t.id, rfl, by simp [heq]⟩

theorem orders_nodup (db : Database) : ((db.rows.filterMap orderRowOf).map (·.id)).Nodup := by
  refine List.pairwise_map.mpr (List.pairwise_filterMap.mpr ?_)
  refine db.pairwise_not_clash.imp fun {r r'} hclash o ho o' ho' heq => hclash (.inl ?_)
  obtain rfl := orderRowOf_eq_some ho
  obtain rfl := orderRowOf_eq_some ho'
  exact ⟨.paperOrder o.id, rfl, by simp [heq]⟩

/-- The ledger of a database. -/
def ledgerDb (db : Database) : LedgerDb where
  tickets := db.rows.filterMap ticketOf
  orders := db.rows.filterMap orderRowOf
  fills := db.rows.filterMap fillRowOf
  settlements := db.rows.filterMap settlementRowOf
  tickets_nodup := tickets_nodup db
  orders_nodup := orders_nodup db

/-! ## What is open when nothing is settled -/

/-- With no settlement every ticket is open, whether it has orders or not. -/
theorem open_of_settlements_eq_nil {db : LedgerDb} (h : db.settlements = []) (t : PaperTicket) :
    db.Open t := by
  by_cases ho : ∃ o ∈ db.orders, o.ticketId = some t.id
  · obtain ⟨o, hmem, hot⟩ := ho
    refine .inr ⟨o, hmem, hot, .inr fun s hs => ?_⟩
    rw [h] at hs
    cases hs
  · exact .inl fun o hmem hot => ho ⟨o, hmem, hot⟩

theorem countOpenPaperTickets_of_settlements_eq_nil {db : LedgerDb} (h : db.settlements = [])
    (b : AccountId) :
    db.countOpenPaperTickets b = (db.tickets.filter (openCountFilters b)).length := by
  rw [countOpenPaperTickets_eq, openIds, List.length_map]
  congr 1
  refine List.filter_congr fun t _ => ?_
  simp [open_of_settlements_eq_nil h t]

/-- What `ticket_outcomes` says of a ticket is then that it is open. -/
theorem ticketOutcomes_of_settlements_eq_nil {db : LedgerDb} (h : db.settlements = [])
    {b : AccountId} {since : Option ℚ} {id : TicketId} {outcome : TicketOutcome}
    (hout : (db.ticketOutcomes b since).get? id = some outcome) :
    outcome = .open ∧ ∃ t ∈ db.tickets, t.accountId = b ∧ t.id = id := by
  have hentry := Dict.mem_entries_iff.mpr hout
  rw [entries_ticketOutcomes, List.mem_map] at hentry
  obtain ⟨id', hseen, heq⟩ := hentry
  obtain rfl := congrArg Prod.fst heq
  rw [outcomeTally, mem_seen_foldl] at hseen
  obtain ⟨row, hrow, hid⟩ := hseen.resolve_left List.not_mem_nil
  obtain ⟨ht, hw, -⟩ := mem_joinedRows.mp hrow
  have hopen : (db.ticketOutcomes b since).get? id' = some .open :=
    get?_ticketOutcomes_eq_open_iff.mpr
      (mem_openIds.mpr ⟨row.1.1, ht, hw, open_of_settlements_eq_nil h _, hid⟩)
  refine ⟨Option.some.inj (hout.symm.trans hopen), row.1.1, ht, ?_, hid⟩
  simp only [ticketFilters, Bool.and_eq_true, decide_eq_true_eq] at hw
  exact hw.1.1.1.1

/-! ## The reset -/

theorem tickets_deletePaperHistory {db db' : Database} {a : AccountId}
    (h : deletePaperHistory a db = some db') :
    (ledgerDb db').tickets = (ledgerDb db).tickets.filter fun t => decide (t.accountId ≠ a) := by
  show db'.rows.filterMap ticketOf = (db.rows.filterMap ticketOf).filter _
  rw [rows_of_deletePaperHistory h]
  refine filterMap_deleted (fun r t ht => ?_) _
  rw [ticketOf_eq_some ht, inHistory_of_owner rfl]
  simp

theorem settlements_deletePaperHistory {db db' : Database} {a : AccountId}
    (h : deletePaperHistory a db = some db') : (ledgerDb db').settlements = [] := by
  refine filterMap_settlements_eq_nil (fun r hr => ?_) h
  cases r with
  | paperSettlement s => cases hr
  | _ => rfl

theorem run_append_singleton (ws : List Write) (w : Write) :
    run (ws ++ [w]) = Store.commit w.tx (run ws) := by
  rw [run, Runs.run_append]
  rfl

/-- The order of the one row, if it is on the ticket of the other, is not left
without it. -/
def sparesOrder (a : AccountId) : Row → Row → Bool
  | .paperOrder o, .paperTicket t =>
      !(decide (o.ticketId = some t.id) && decide (t.accountId = a)) || decide (o.accountId = a)
  | _, _ => true

theorem ownOrders_iff (a : AccountId) (db : Database) :
    OwnOrders a db ↔ ∀ r ∈ db.rows, ∀ r' ∈ db.rows, sparesOrder a r r' = true := by
  constructor
  · intro hown r hr r' hr'
    cases r with
    | paperOrder o =>
        cases r' with
        | paperTicket t =>
            by_cases hot : o.ticketId = some t.id
            · by_cases hta : t.accountId = a
              · simp [sparesOrder, hown o t hr hr' hot hta]
              · simp [sparesOrder, hta]
            · simp [sparesOrder, hot]
        | _ => rfl
    | _ => rfl
  · intro hrows o t ho ht hot hta
    simpa [sparesOrder, hot, hta] using hrows _ ho _ ht

instance decidableOwnOrders (a : AccountId) (db : Database) : Decidable (OwnOrders a db) :=
  decidable_of_iff _ (ownOrders_iff a db).symm

def filledTicket (id : TicketId) (accountId : AccountId) : PaperTicket where
  id := id
  accountId := accountId
  eventGroupId := "g"
  titleSnapshot := "G"
  startsAt := none
  source := "manual"
  status := "filled"
  rejectionReason := none
  excludedReason := none
  totalStake := none
  expectedProfit := none
  expectedEdgeBps := none
  submittedAt := 0

/-- One account's ticket has settled when another account is opened. -/
def twoAccounts : List Write :=
  [.bootstrap "default", .ticket (filledTicket "t" "default"),
    .orders [⟨"o", "default", "kalshi", "yes", true, 1, 1 / 2, "filled", 0, some "t", none⟩],
    .fill ⟨"o", 1, 1 / 2, 0⟩, .settled ⟨"yes", 1, 0, "kalshi"⟩ "kalshi" [],
    .ticket (filledTicket "u" "other")]

/-- **A reset and the ledger of every account**: it goes through exactly when
no other account has an order on a ticket of this one; then this account's
tickets are gone and every filled ticket of every other account counts as
open, and none as won, lost or flat. A reset that is refused changes nothing. -/
theorem ledger_of_reset (ws : List Write) (a b : AccountId) :
    (OwnOrders a (run ws) →
      (ledgerDb (run (ws ++ [.reset a]))).tickets =
          (ledgerDb (run ws)).tickets.filter (fun t => decide (t.accountId ≠ a)) ∧
        (ledgerDb (run (ws ++ [.reset a]))).countOpenPaperTickets b =
          (if b = a then 0
          else ((ledgerDb (run ws)).tickets.filter (openCountFilters b)).length) ∧
        ∀ since id outcome,
          ((ledgerDb (run (ws ++ [.reset a]))).ticketOutcomes b since).get? id = some outcome →
            outcome = .open ∧ b ≠ a) ∧
      (¬OwnOrders a (run ws) → run (ws ++ [.reset a]) = run ws) := by
  rw [run_append_singleton]
  refine ⟨fun hown => ?_, fun hnot => ?_⟩
  · -- The reset commits, and what it leaves is read off the rows it keeps.
    obtain ⟨db', hdb'⟩ :=
      Option.isSome_iff_exists.mp ((deletePaperHistory_isSome_iff a (run ws)).mpr hown)
    rw [show Store.commit (Write.reset a).tx (run ws) = db' from Store.commit_of_eq_some hdb']
    have htickets := tickets_deletePaperHistory hdb'
    have hsettlements := settlements_deletePaperHistory hdb'
    refine ⟨htickets, ?_, fun since id outcome hout => ?_⟩
    · rw [countOpenPaperTickets_of_settlements_eq_nil hsettlements, htickets, List.filter_filter]
      split
      · rename_i hb
        rw [hb, List.length_eq_zero_iff, List.filter_eq_nil_iff]
        intro t _
        simpa [openCountFilters] using fun ht (_ : t.status = "filled") => ht
      · rename_i hb
        congr 1
        refine List.filter_congr fun t _ => ?_
        by_cases ht : t.accountId = b
        · simp [openCountFilters, ht, hb]
        · simp [openCountFilters, ht]
    · obtain ⟨hopen, t, ht, htb, -⟩ := ticketOutcomes_of_settlements_eq_nil hsettlements hout
      rw [htickets, List.mem_filter] at ht
      exact ⟨hopen, htb ▸ by simpa using ht.2⟩
  · refine Store.commit_of_eq_none ?_
    rw [← Option.not_isSome_iff_eq_none]
    exact mt (deletePaperHistory_isSome_iff a (run ws)).mp hnot

theorem ledger_of_reset_twoAccounts :
    (ledgerDb (run twoAccounts)).countOpenPaperTickets "default" = 0 ∧
      (ledgerDb (run (twoAccounts ++ [.reset "other"]))).countOpenPaperTickets "default" = 1 := by
  refine ⟨by decide +kernel, ?_⟩
  obtain ⟨-, hcount, -⟩ :=
    (ledger_of_reset twoAccounts "other" "default").1 (by decide +kernel)
  rw [hcount]
  decide +kernel

end Schema

end Arbys
