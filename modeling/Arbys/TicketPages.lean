import Mathlib.Data.Prod.Lex
import Mathlib.Data.String.Basic
import Arbys.Lib.Keyset
import Arbys.Lib.PyJson
import Arbys.LedgerQueries

/-!
# The pages of the ledger

`GET /paper/{account_id}/tickets` of `backend/app.py` with its cursor. A cursor
is written `<iso>|<id>` and read back at its last bar, so it is read as it was
written exactly where an id has no bar in it; the ids are `uuid4().hex`.
The listing is `Keyset.descending` by submission time and id, and each page is
a `Keyset.page` of it.
-/

namespace Arbys

open LedgerDb

/-- An `HTTPException`. -/
structure HttpException where
  status : ℕ
  detail : String
  deriving DecidableEq

/-- How the standard library writes an instant and reads it. -/
structure IsoTime where
  isoformat : ℚ → String
  fromIsoformat : String → Option ℚ

/-- `_MAX_PAGE`. -/
def maxPage : ℕ := 500

/-- `_LEDGER_OUTCOMES`: the outcome a text names. -/
def ledgerOutcome : String → Option TicketOutcome
  | "won" => some .won
  | "lost" => some .lost
  | "flat" => some .flat
  | "open" => some .open
  | "none" => some .none
  | _ => none

def TicketOutcome.text : TicketOutcome → String
  | .won => "won"
  | .lost => "lost"
  | .flat => "flat"
  | .open => "open"
  | .none => "none"

@[simp] theorem ledgerOutcome_text (o : TicketOutcome) : ledgerOutcome o.text = some o := by
  cases o <;> rfl

/-- `_encode_cursor`, of the row a page ended on. -/
def encodeCursor (w : IsoTime) (row : PaperTicket) : String :=
  w.isoformat row.submittedAt ++ "|" ++ row.id

/-- `_decode_cursor`. -/
def decodeCursor (w : IsoTime) : Option String → Except HttpException (Option (ℚ × TicketId))
  | none => .ok none
  | some cursor =>
      let (raw, ticketId) := (PyJson.rpartition '|' cursor).getD ("", cursor)
      match w.fromIsoformat raw with
      | some at_ => .ok (some (at_, ticketId))
      | none => .error ⟨422, "malformed cursor"⟩

/-- `TicketPageOut`. -/
structure TicketPage where
  items : List TicketEntry
  total : ℕ
  nextCursor : Option String

/-- `limit = max(1, min(limit, _MAX_PAGE))`. -/
def pageLimit (limit : ℤ) : ℕ := (max 1 (min limit maxPage)).toNat

theorem pageLimit_pos (limit : ℤ) : 0 < pageLimit limit := by
  unfold pageLimit
  omega

/-- The query parameters of a page, its cursor apart. -/
structure LedgerQuery where
  accountId : AccountId
  limit : ℤ := 100
  status : Option String := none
  source : Option String := none
  since : Option ℚ := none
  outcome : Option String := none

/-- The outcome a query asks for, 422 where it is none of the five. -/
def LedgerQuery.parsedOutcome (q : LedgerQuery) : Except HttpException (Option TicketOutcome) :=
  match q.outcome with
  | none => .ok none
  | some text =>
      match ledgerOutcome text with
      | some outcome => .ok (some outcome)
      | none =>
          .error ⟨422, "outcome must be one of ['flat', 'lost', 'none', 'open', 'won']"⟩

/-- `paper_tickets`: one page of the ledger. -/
def paperTickets (w : IsoTime) (db : LedgerDb) (q : LedgerQuery) (cursor : Option String) :
    Except HttpException TicketPage := do
  let outcome ← q.parsedOutcome
  let limit := pageLimit q.limit
  let status := q.status.map fun s => [s]
  let decoded ← decodeCursor w cursor
  let items := db.listPaperTickets q.accountId limit status q.source q.since outcome decoded
  let total := db.countPaperTickets q.accountId q.since status q.source outcome
  let nextCursor :=
    if items.length = limit then items.getLast?.map fun row => encodeCursor w row.ticket else none
  pure { items, total, nextCursor }

/-- A page as `Keyset.follow` asks for it. -/
def fetchPage (w : IsoTime) (db : LedgerDb) (q : LedgerQuery) (cursor : Option String) :
    Except HttpException (List TicketEntry × Option String) := do
  let page ← paperTickets w db q cursor
  pure (page.items, page.nextCursor)

/-! ## The cursor -/

/-- The key of the listing, `(submitted_at, id)`. -/
def ticketKey (t : PaperTicket) : Lex (ℚ × TicketId) := toLex (t.submittedAt, t.id)

/-- A cursor is read as it was written. -/
theorem decodeCursor_encodeCursor {w : IsoTime} {t : PaperTicket}
    (hiso : w.fromIsoformat (w.isoformat t.submittedAt) = some t.submittedAt)
    (hid : '|' ∉ t.id.toList) :
    decodeCursor w (some (encodeCursor w t)) = .ok (some (t.submittedAt, t.id)) := by
  have hparts : PyJson.rpartition '|' (encodeCursor w t) =
      some (w.isoformat t.submittedAt, t.id) := PyJson.rpartition_append hid _
  simp only [decodeCursor, hparts, Option.getD_some, hiso]

/-! ## The listing -/

namespace LedgerDb

/-- What a query selects. -/
def selects (db : LedgerDb) (accountId : AccountId) (status : Option (List String))
    (source : Option String) (since : Option ℚ) (outcome : Option TicketOutcome)
    (t : PaperTicket) : Bool :=
  ticketFilters accountId since status source t &&
    (db.outcomeClause accountId since outcome).any fun clause => clause t

/-- A ticket carries the outcome asked for: it never traded, or it settled so. -/
def Carries (db : LedgerDb) (accountId : AccountId) (since : Option ℚ) (t : PaperTicket) :
    Option TicketOutcome → Prop
  | none => True
  | some .none => t.status ∈ neverTraded
  | some outcome => (db.ticketOutcomes accountId since).get? t.id = some outcome

variable {db : LedgerDb} {accountId : AccountId} {status : Option (List String)}
  {source : Option String} {since : Option ℚ} {outcome : Option TicketOutcome}

theorem mem_idsForOutcome {o : TicketOutcome} {id : TicketId} :
    id ∈ db.idsForOutcome accountId since o ↔
      (db.ticketOutcomes accountId since).get? id = some o := by
  unfold idsForOutcome
  rw [← Dict.mem_entries_iff, List.mem_map]
  constructor
  · rintro ⟨⟨j, p⟩, hmem, rfl⟩
    obtain ⟨hmem, hp⟩ := List.mem_filter.mp hmem
    rw [← of_decide_eq_true hp]
    exact hmem
  · intro hmem
    exact ⟨(id, o), List.mem_filter.mpr ⟨hmem, decide_eq_true rfl⟩, rfl⟩

/-- **What is selected** meets the filters and carries the outcome. -/
theorem selects_iff {t : PaperTicket} :
    db.selects accountId status source since outcome t = true ↔
      ticketFilters accountId since status source t = true ∧
        db.Carries accountId since t outcome := by
  have hids : ∀ o : TicketOutcome,
      ((if db.idsForOutcome accountId since o = [] then none
        else some fun t : PaperTicket => (db.idsForOutcome accountId since o).contains t.id).any
          fun clause => clause t) = true ↔
        (db.ticketOutcomes accountId since).get? t.id = some o := by
    intro o
    rw [← mem_idsForOutcome]
    by_cases hnil : db.idsForOutcome accountId since o = []
    · simp [hnil]
    · simp [hnil]
  unfold selects
  rw [Bool.and_eq_true]
  refine and_congr_right fun _ => ?_
  unfold outcomeClause Carries
  cases outcome with
  | none => simp
  | some o =>
      cases o with
      | none => simp
      | «open» => exact hids _
      | won => exact hids _
      | lost => exact hids _
      | flat => exact hids _

/-- **The total** counts what the query selects. -/
theorem countPaperTickets_eq :
    db.countPaperTickets accountId since status source outcome =
      (db.tickets.filter (db.selects accountId status source since outcome)).length := by
  have hids : ∀ ids : List TicketId,
      (if ids = [] then 0 else (db.tickets.filter fun t =>
        ticketFilters accountId since status source t && ids.contains t.id).length) =
      (db.tickets.filter fun t => ticketFilters accountId since status source t &&
        (if ids = [] then none else some fun t : PaperTicket => ids.contains t.id).any
          fun clause => clause t).length := by
    intro ids
    by_cases hnil : ids = []
    · simp [hnil]
    · simp only [if_neg hnil, Option.any_some]
  unfold countPaperTickets selects outcomeClause
  cases outcome with
  | none => simp
  | some o =>
      cases o with
      | none => rfl
      | «open» => exact hids _
      | won => exact hids _
      | lost => exact hids _
      | flat => exact hids _

theorem distinct_ticketKey (db : LedgerDb) (p : PaperTicket → Bool) :
    Keyset.Distinct ticketKey (db.tickets.filter p) := by
  have hids : ((db.tickets.filter p).map (·.id)).Nodup :=
    db.tickets_nodup.sublist (List.filter_sublist.map _)
  refine List.Nodup.of_map (fun key => (ofLex key).2) ?_
  rw [List.map_map]
  exact hids

theorem ticketAfter_eq (t u : PaperTicket) :
    ticketAfter t u = decide (ticketKey u ≤ ticketKey t) := by
  unfold ticketAfter ticketKey
  exact decide_eq_decide.mpr (Prod.Lex.toLex_le_toLex (x := (u.submittedAt, u.id))
    (y := (t.submittedAt, t.id))).symm

theorem beforeCursor_eq (cursor : ℚ × TicketId) (t : PaperTicket) :
    beforeCursor cursor t = decide (ticketKey t < toLex cursor) := by
  unfold beforeCursor ticketKey
  exact decide_eq_decide.mpr
    (Prod.Lex.toLex_lt_toLex (x := (t.submittedAt, t.id)) (y := cursor)).symm

/-- **The tickets of a page**: `list_paper_tickets` is a keyset page of what
the query selects. -/
theorem map_ticket_listPaperTickets (limit : ℕ) (cursor : Option (ℚ × TicketId)) :
    (db.listPaperTickets accountId limit status source since outcome cursor).map (·.ticket) =
      Keyset.page ticketKey (db.tickets.filter (db.selects accountId status source since outcome))
        limit (cursor.map toLex) := by
  have hbelow : ∀ t, (cursor.all fun c => beforeCursor c t) =
      Keyset.below ticketKey (cursor.map toLex) t := by
    intro t
    cases cursor with
    | none => rfl
    | some c => exact beforeCursor_eq c t
  have hafter : ticketAfter = fun t u => decide (ticketKey u ≤ ticketKey t) := by
    funext t u
    exact ticketAfter_eq t u
  unfold listPaperTickets Keyset.page Keyset.descending selects
  rw [List.filter_filter]
  cases hclause : db.outcomeClause accountId since outcome with
  | none => simp
  | some clause =>
      simp only [List.map_map, Function.comp_def, List.map_id', Option.any_some, hbelow, hafter]
      congr 3
      funext t
      rw [Bool.and_comm]

end LedgerDb

/-! ## Following the cursors -/

section Pages

variable {w : IsoTime} {db : LedgerDb} {q : LedgerQuery} {outcome : Option TicketOutcome}

/-- What a query selects, in the order it is listed. -/
def LedgerQuery.listing (q : LedgerQuery) (db : LedgerDb) (outcome : Option TicketOutcome) :
    List PaperTicket :=
  Keyset.descending ticketKey (db.tickets.filter
    (db.selects q.accountId (q.status.map fun s => [s]) q.source q.since outcome))

/-- **The endpoint hands out the listing**, page by page. -/
theorem handsOut_fetchPage (houtcome : q.parsedOutcome = .ok outcome)
    (hiso : ∀ t ∈ db.tickets, w.fromIsoformat (w.isoformat t.submittedAt) = some t.submittedAt)
    (hids : ∀ t ∈ db.tickets, '|' ∉ t.id.toList) :
    Keyset.HandsOut (fetchPage w db q) (·.ticket) (encodeCursor w) (pageLimit q.limit)
      (q.listing db outcome) := by
  intro pre suf hsplit
  have hdecode : decodeCursor w (pre.getLast?.map (encodeCursor w)) =
      .ok (pre.getLast?.map fun t => (t.submittedAt, t.id)) := by
    cases hlast : pre.getLast? with
    | none => rfl
    | some t =>
        have hlisted : t ∈ q.listing db outcome := by
          rw [hsplit]
          exact List.mem_append_left _ (List.mem_of_getLast? hlast)
        have ht : t ∈ db.tickets :=
          List.mem_of_mem_filter ((Keyset.descending_perm _).mem_iff.mp hlisted)
        exact decodeCursor_encodeCursor (hiso t ht) (hids t ht)
  generalize hlist : db.listPaperTickets q.accountId (pageLimit q.limit)
    (q.status.map fun s => [s]) q.source q.since outcome
    (pre.getLast?.map fun t => (t.submittedAt, t.id)) = items
  have hitems : items.map (·.ticket) = suf.take (pageLimit q.limit) := by
    rw [← hlist, map_ticket_listPaperTickets, Option.map_map]
    exact Keyset.page_eq_take (db.distinct_ticketKey _) hsplit _
  refine ⟨items, ?_, hitems⟩
  have hlen : items.length = (suf.take (pageLimit q.limit)).length := by
    rw [← hitems, List.length_map]
  have hnext : (items.getLast?.map fun row => encodeCursor w row.ticket) =
      (suf.take (pageLimit q.limit)).getLast?.map (encodeCursor w) := by
    rw [← hitems, List.getLast?_map, Option.map_map]
    rfl
  simp only [fetchPage, paperTickets, houtcome, hdecode, bind, Except.bind, pure, Except.pure,
    hlist, hlen, hnext]

end Pages

/-- Newer in the ledger: submitted later, or at the same time under a greater id. -/
def ListedBefore (t u : PaperTicket) : Prop :=
  u.submittedAt < t.submittedAt ∨ u.submittedAt = t.submittedAt ∧ u.id < t.id

/-- **Paging is a partition of the ledger**: the cursors lead through every
ticket a query selects, each once, newest first, and to an end; and they lead
through as many as the query counts. -/
theorem paging_visits_each_once (w : IsoTime) (db : LedgerDb) (q : LedgerQuery)
    (outcome : Option TicketOutcome) (houtcome : q.outcome = outcome.map TicketOutcome.text)
    (hiso : ∀ t ∈ db.tickets, w.fromIsoformat (w.isoformat t.submittedAt) = some t.submittedAt)
    (hids : ∀ t ∈ db.tickets, '|' ∉ t.id.toList) :
    ∃ visited : List TicketEntry,
      (∃ pages, ∀ fuel, pages ≤ fuel →
        Keyset.follow (fetchPage w db q) fuel none = .ok (some visited)) ∧
      (∀ t, t ∈ visited.map (·.ticket) ↔ t ∈ db.tickets ∧
        ticketFilters q.accountId q.since (q.status.map fun s => [s]) q.source t = true ∧
        db.Carries q.accountId q.since t outcome) ∧
      (visited.map (·.ticket)).Nodup ∧
      (visited.map (·.ticket)).Pairwise ListedBefore ∧
      visited.length = db.countPaperTickets q.accountId q.since (q.status.map fun s => [s])
        q.source outcome := by
  have hparsed : q.parsedOutcome = .ok outcome := by
    unfold LedgerQuery.parsedOutcome
    cases outcome with
    | none => rw [houtcome, Option.map_none]
    | some o => simp [houtcome]
  obtain ⟨visited, hvisited, hfollow⟩ :=
    Keyset.follow_eq (handsOut_fetchPage hparsed hiso hids) (pageLimit_pos q.limit)
  have hperm : (visited.map (·.ticket)).Perm (db.tickets.filter
      (db.selects q.accountId (q.status.map fun s => [s]) q.source q.since outcome)) := by
    rw [hvisited]
    exact Keyset.descending_perm _
  have hpairwise : (visited.map (·.ticket)).Pairwise ListedBefore := by
    rw [hvisited]
    refine (Keyset.pairwise_descending (db.distinct_ticketKey _)).imp fun {t u} h => ?_
    exact Prod.Lex.toLex_lt_toLex.mp h
  refine ⟨visited, ⟨_, hfollow⟩, fun t => ?_, ?_, hpairwise, ?_⟩
  · rw [hperm.mem_iff, List.mem_filter, selects_iff]
  · have hnodup : db.tickets.Nodup := db.tickets_nodup.of_map _
    exact hperm.nodup_iff.mpr (hnodup.filter _)
  · rw [countPaperTickets_eq, ← hperm.length_eq, List.length_map]

namespace TiedLedger

def ticket (id : TicketId) (status : String) (submittedAt : ℚ) : PaperTicket where
  id := id
  accountId := "default"
  eventGroupId := "g1"
  titleSnapshot := "Red Sox vs Yankees"
  startsAt := none
  source := "auto"
  status := status
  rejectionReason := none
  excludedReason := none
  totalStake := none
  expectedProfit := none
  expectedEdgeBps := none
  submittedAt := submittedAt

/-- Three tickets of one second, and one of the second before. -/
def ledger : LedgerDb where
  tickets := [ticket "t-02" "rejected" 1785888000, ticket "t-01" "missed" 1785887940,
    ticket "t-04" "filled" 1785888000, ticket "t-03" "rejected" 1785888000]
  orders := []
  fills := []
  settlements := []
  tickets_nodup := by decide
  orders_nodup := List.nodup_nil

/-- The two instants of the ledger, as they are written. -/
def isoTime : IsoTime where
  isoformat at_ :=
    if at_ = 1785888000 then "2026-08-05T00:00:00+00:00" else "2026-08-04T23:59:00+00:00"
  fromIsoformat text :=
    if text = "2026-08-05T00:00:00+00:00" then some 1785888000
    else if text = "2026-08-04T23:59:00+00:00" then some 1785887940
    else none

end TiedLedger

open TiedLedger in
theorem paging_visits_each_once_tied :
    ∃ visited : List TicketEntry,
      (∃ pages, ∀ fuel, pages ≤ fuel → Keyset.follow (fetchPage isoTime ledger
        { accountId := "default", limit := 2 }) fuel none = .ok (some visited)) ∧
      (visited.map (·.ticket)).Nodup ∧ visited.length = 4 := by
  obtain ⟨visited, hfollow, -, hnodup, -, hcount⟩ := paging_visits_each_once isoTime ledger
    { accountId := "default", limit := 2 } none rfl (by decide +kernel) (by decide +kernel)
  exact ⟨visited, hfollow, hnodup, hcount⟩

end Arbys
