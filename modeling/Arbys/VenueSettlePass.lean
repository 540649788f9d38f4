import Arbys.LedgerQueries
import Arbys.Lib.PyJson
import Arbys.Lib.Runs
import Arbys.SettleServices

/-!
# A pass of the venue settlement, from beginning to end

`_settle_once` beside the ledger it asks and writes, while nothing else runs: a
settlement row lands before the pass goes on. The loops are those of the
source (`settleHeld`, `settleVenue`, `recordOutcome`), each of which stops
where a lookup raises; `settleOnce_ends` says that the stretches of
`AppState.pass` come to the same.
-/

namespace Arbys

open PyJson (Raised)

namespace LedgerDb

/-- `_has_settlement_row`. -/
def hasSettlementRow (db : LedgerDb) (o : OutcomeId) : Bool :=
  db.settlements.any fun row => row.outcomeId = o

/-- `on_settlement`. -/
def onSettlement (db : LedgerDb) (row : PaperSettlement) : LedgerDb :=
  { db with settlements := db.settlements ++ [row] }

/-- `_unrecorded_outcomes`: the orders of filled tickets that are not withheld,
with a fill and without a settlement row. -/
def unrecordedOutcomes (db : LedgerDb) : List (VenueId × OutcomeId) :=
  ((db.orders.filter fun o =>
    (db.tickets.any fun t => orderOf t o && decide (t.status = "filled") &&
      t.excludedReason.isNone) &&
    (db.fills.any fun f => decide (f.orderId = o.id)) &&
    !db.hasSettlementRow o.outcomeId).map fun o => (o.venueId, o.outcomeId)).dedup

/-- The tickets, orders and fills are the same. -/
structure SameTrades (db db' : LedgerDb) : Prop where
  tickets : db'.tickets = db.tickets
  orders : db'.orders = db.orders
  fills : db'.fills = db.fills

theorem SameTrades.refl (db : LedgerDb) : SameTrades db db := ⟨rfl, rfl, rfl⟩

theorem SameTrades.trans {db db' db'' : LedgerDb} (h : SameTrades db db')
    (h' : SameTrades db' db'') : SameTrades db db'' :=
  ⟨h'.tickets.trans h.tickets, h'.orders.trans h.orders, h'.fills.trans h.fills⟩

theorem hasSettlementRow_iff {db : LedgerDb} {o : OutcomeId} :
    db.hasSettlementRow o = true ↔ ∃ row ∈ db.settlements, row.outcomeId = o := by
  simp [hasSettlementRow]

theorem hasSettlementRow_onSettlement (db : LedgerDb) (row : PaperSettlement) (o : OutcomeId) :
    (db.onSettlement row).hasSettlementRow o =
      (db.hasSettlementRow o || decide (row.outcomeId = o)) := by
  simp [hasSettlementRow, onSettlement]

end LedgerDb

/-- What a lookup of a venue comes to. -/
abbrev Resolve := VenueId → OutcomeId → Except Raised (Option ℚ)

/-- `VenueSettleResult`, its counters apart. -/
structure VenueSettleResult where
  settled : List (VenueId × OutcomeId × ℚ) := []
  unresolved : List (VenueId × OutcomeId) := []
  ghostsClosed : List (VenueId × OutcomeId) := []
  recorded : List (VenueId × OutcomeId × ℚ) := []

/-- The application and the ledger, with the locals of a pass. -/
structure VenuePass where
  app : AppState
  db : LedgerDb
  heldByVenue : Dict VenueId (List OutcomeId) := Dict.empty
  result : VenueSettleResult := {}

namespace VenuePass

open Runs

/-! ## `_settle_once` -/

/-- `settle_outcome_async` at the venue's result, its row written, and
`_close_group`. -/
def settle (b : VenuePass) (ts : ℚ) (v : VenueId) (o : OutcomeId) (value : ℚ) : VenuePass :=
  { b with
    app := { b.app with
      brokers := b.app.brokers.settleAt v o value "venue_result" }.closeGroup v o
    db := b.db.onSettlement ⟨o, value, ts, "venue_result"⟩ }

/-- `close_already_settled` and `_close_group`. -/
def closeGhost (b : VenuePass) (v : VenueId) (o : OutcomeId) : VenuePass :=
  { b with
    app := { b.app with
      brokers := b.app.brokers.modify v fun a => (a.closeAlreadySettled o).1 }.closeGroup v o
    result := { b.result with ghostsClosed := b.result.ghostsClosed ++ [(v, o)] } }

/-- The outcome has been paid. -/
def notePaid (b : VenuePass) (v : VenueId) (o : OutcomeId) (value : ℚ) : VenuePass :=
  { b with result := { b.result with settled := b.result.settled ++ [(v, o, value)] } }

/-- The outcome's missing record has been written. -/
def noteRecorded (b : VenuePass) (v : VenueId) (o : OutcomeId) (value : ℚ) : VenuePass :=
  { b with result := { b.result with recorded := b.result.recorded ++ [(v, o, value)] } }

/-- A lookup that tells nothing. -/
def leave (b : VenuePass) (v : VenueId) (o : OutcomeId) : VenuePass :=
  { b with result := { b.result with unresolved := b.result.unresolved ++ [(v, o)] } }

variable (resolve : Resolve) (ts : ℚ) (pending : List (VenueId × OutcomeId))

/-- The first phase, on one outcome of a broker. -/
def settleHeld (v : VenueId) (b : VenuePass) (o : OutcomeId) : VenuePass × Option Raised :=
  if pending.contains (v, o) then (b, none)
  else if b.db.hasSettlementRow o then (b.closeGhost v o, none)
  else
    match resolve v o with
    | .ok (some value) => ((b.settle ts v o value).notePaid v o value, none)
    | .ok none => (b.leave v o, none)
    | .error e => (b, some e)

/-- The first phase, on one broker. -/
def settleVenue (b : VenuePass) (v : VenueId) : VenuePass × Option Raised :=
  match b.app.brokers.get? v with
  | none => (b, none)
  | some a =>
      if v ∉ b.app.resolvers then (b, none)
      else
        -- the positions are listed before the first lookup
        let held := b.app.heldBy a
        loop (settleHeld resolve ts pending v)
          { b with heldByVenue := b.heldByVenue.set v held } held

/-- The second phase leaves the outcome alone. -/
def Skips (b : VenuePass) (item : VenueId × OutcomeId) : Prop :=
  b.app.brokers.get? item.1 = none ∨ item.1 ∉ b.app.resolvers ∨
    item.2 ∈ b.heldByVenue.getD item.1 [] ∨ item ∈ pending

instance (b : VenuePass) (item : VenueId × OutcomeId) : Decidable (Skips pending b item) :=
  inferInstanceAs (Decidable (_ ∨ _))

/-- The broker of the venue holds the outcome. -/
def Holds (s : AppState) (v : VenueId) (o : OutcomeId) : Prop :=
  ∃ a ∈ s.brokers.get? v, o ∈ s.heldBy a

instance (s : AppState) (v : VenueId) (o : OutcomeId) : Decidable (Holds s v o) :=
  inferInstanceAs (Decidable (∃ a ∈ s.brokers.get? v, _))

/-- The second phase, on one outcome. -/
def recordOutcome (b : VenuePass) (item : VenueId × OutcomeId) : VenuePass × Option Raised :=
  if Skips pending b item then (b, none)
  else
    match resolve item.1 item.2 with
    | .error e => (b, some e)
    | .ok none => (b.leave item.1 item.2, none)
    | .ok (some value) =>
        -- a fill that landed meanwhile is left to the next pass
        if Holds b.app item.1 item.2 then (b, none)
        else ((b.settle ts item.1 item.2 value).noteRecorded item.1 item.2 value, none)

/-- The first phase. -/
def settlePhase (b : VenuePass) : VenuePass × Option Raised :=
  loop (settleVenue resolve ts pending) b b.app.brokers.adapters.keys

/-- The second phase, unless the first has raised. -/
def recordPhase (r : VenuePass × Option Raised) : VenuePass × Option Raised :=
  match r with
  | (b, none) => loop (recordOutcome resolve ts pending) b b.db.unrecordedOutcomes
  | r => r

/-- `_settle_once`: what it leaves, and what it raises. -/
def settleOnce (resolve : Resolve) (t : Instant) (s : AppState) (db : LedgerDb) :
    VenuePass × Option Raised :=
  let pending := s.notStarted t.utc
  recordPhase resolve t.utc pending (settlePhase resolve t.utc pending { app := s, db := db })

/-! ### What one turn does -/

section Turn

variable {resolve : Resolve} {ts : ℚ} {pending : List (VenueId × OutcomeId)} {b : VenuePass}
  {v : VenueId} {o : OutcomeId}

theorem settleHeld_ghost (hnot : (v, o) ∉ pending) (hrow : b.db.hasSettlementRow o = true) :
    settleHeld resolve ts pending v b o = (b.closeGhost v o, none) := by
  simp [settleHeld, hnot, hrow]

theorem settleHeld_error (hnot : (v, o) ∉ pending) (hrow : b.db.hasSettlementRow o = false)
    {e : Raised} (h : resolve v o = .error e) :
    settleHeld resolve ts pending v b o = (b, some e) := by
  simp [settleHeld, hnot, hrow, h]

theorem settleHeld_none (hnot : (v, o) ∉ pending) (hrow : b.db.hasSettlementRow o = false)
    (h : resolve v o = .ok none) :
    settleHeld resolve ts pending v b o = (b.leave v o, none) := by
  simp [settleHeld, hnot, hrow, h]

theorem settleHeld_value (hnot : (v, o) ∉ pending) (hrow : b.db.hasSettlementRow o = false)
    {value : ℚ} (h : resolve v o = .ok (some value)) :
    settleHeld resolve ts pending v b o = ((b.settle ts v o value).notePaid v o value, none) := by
  simp [settleHeld, hnot, hrow, h]

theorem recordOutcome_error (hnot : ¬ Skips pending b (v, o)) {e : Raised}
    (h : resolve v o = .error e) : recordOutcome resolve ts pending b (v, o) = (b, some e) := by
  simp [recordOutcome, hnot, h]

theorem recordOutcome_none (hnot : ¬ Skips pending b (v, o)) (h : resolve v o = .ok none) :
    recordOutcome resolve ts pending b (v, o) = (b.leave v o, none) := by
  simp [recordOutcome, hnot, h]

theorem recordOutcome_held (hnot : ¬ Skips pending b (v, o)) {value : ℚ}
    (h : resolve v o = .ok (some value)) (hheld : Holds b.app v o) :
    recordOutcome resolve ts pending b (v, o) = (b, none) := by
  simp [recordOutcome, hnot, h, hheld]

theorem recordOutcome_value (hnot : ¬ Skips pending b (v, o)) {value : ℚ}
    (h : resolve v o = .ok (some value)) (hfree : ¬ Holds b.app v o) :
    recordOutcome resolve ts pending b (v, o) =
      ((b.settle ts v o value).noteRecorded v o value, none) := by
  simp [recordOutcome, hnot, h, hfree]

end Turn

/-! ## The stretches of a pass come to the same -/

section Stretches

open AppState (PassAt PassPoint PassAnswer)

/-- What a pass is answered at a point. -/
def answerAt (db : LedgerDb) : PassPoint → PassAnswer
  | .alreadySettled _ o _ _ => { hasRow := db.hasSettlementRow o }
  | .resolve v o _ _ | .resolveRecord v o _ =>
      match resolve v o with
      | .ok value => { value := value }
      | .error _ => { failed := true }
  | .unrecorded => { unrecorded := db.unrecordedOutcomes }
  | .written .. | .writtenRecord .. => {}

/-- The application and the ledger. -/
abbrev World := AppState × LedgerDb

/-- One stretch, answered by the ledger and the venues; the row it asks for is
written. -/
def stretch (t : Instant) (w : World) (p : PassAt) : World × Option PassAt :=
  let answer := answerAt resolve w.2 p.point
  let r := w.1.pass t answer (some p)
  ((r.state, r.settled.foldl (fun db leg =>
      db.onSettlement ⟨leg.2, answer.value.getD 0, t.utc, "venue_result"⟩) w.2),
    r.suspended)

/-- The stretches from where a pass is suspended to its end. -/
inductive Ends (resolve : Resolve) (t : Instant) : World → Option PassAt → World → Prop
  | ended (w : World) : Ends resolve t w none w
  | next {w w' : World} {p : PassAt} {r : World × Option PassAt}
      (hr : stretch resolve t w p = r) (h : Ends resolve t r.1 r.2 w') :
      Ends resolve t w (some p) w'

/-- The world of a pass. -/
def world (b : VenuePass) : World := (b.app, b.db)

variable {resolve ts pending} {t : Instant} {b : VenuePass} {v : VenueId} {o : OutcomeId}
  {held : Dict VenueId (List OutcomeId)} {w : World}

theorem ends_written {left : List OutcomeId} {venues : List VenueId} {s : AppState} {db : LedgerDb}
    (h : Ends resolve t (s.closeGroup v o, db)
      (some ((s.closeGroup v o).goHeld ⟨pending, held, .written v o left venues⟩ v venues left))
      w) :
    Ends resolve t (s, db) (some ⟨pending, held, .written v o left venues⟩) w :=
  .next rfl h

/-- Where the pass goes depends on the point it comes from only in what it
remembers. -/
theorem goVenues_point (s : AppState) (point point' : PassPoint) (venues : List VenueId) :
    s.goVenues ⟨pending, held, point⟩ venues = s.goVenues ⟨pending, held, point'⟩ venues := by
  induction venues generalizing held with
  | nil => rfl
  | cons v venues ih =>
      unfold AppState.goVenues
      split
      · exact ih
      · split
        · exact ih
        · rename_i a _ _
          dsimp only
          cases List.filter (fun o => decide ((v, o) ∉ pending)) (s.heldBy a) with
          | nil => exact ih
          | cons o left => rfl

theorem goHeld_point (s : AppState) (point point' : PassPoint) (v : VenueId)
    (venues : List VenueId) (left : List OutcomeId) :
    s.goHeld ⟨pending, held, point⟩ v venues left =
      s.goHeld ⟨pending, held, point'⟩ v venues left := by
  cases left with
  | nil => exact goVenues_point s point point' venues
  | cons o left => rfl

/-- **The first phase on what is left of one broker**, if what comes after it
does the same. -/
theorem ends_goHeld {venues : List VenueId} {left : List OutcomeId}
    (hpending : ∀ o ∈ left, (v, o) ∉ pending)
    {after : VenuePass × Option Raised → World}
    (hraised : ∀ b e, after (b, some e) = b.world)
    (hafter : ∀ b : VenuePass, b.heldByVenue = held →
      Ends resolve t b.world (some (b.app.goVenues ⟨pending, held, .unrecorded⟩ venues))
        (after (b, none)))
    (b : VenuePass) (hb : b.heldByVenue = held) (point : PassPoint) :
    Ends resolve t b.world (some (b.app.goHeld ⟨pending, held, point⟩ v venues left))
      (after (loop (settleHeld resolve t.utc pending v) b left)) := by
  -- the induction is on the outcomes left of this broker; each ends its turn in one of four ways
  induction left generalizing b point with
  | nil =>
      rw [goHeld_point b.app point .unrecorded]
      exact hafter b hb
  | cons o left ih =>
      have hnot := hpending o List.mem_cons_self
      have hrest := ih fun o' ho' => hpending o' (List.mem_cons_of_mem o ho')
      cases hrow : b.db.hasSettlementRow o with
      | true =>
          rw [loop_cons_ok (settleHeld_ghost hnot hrow)]
          refine .next (by
            simp [stretch, answerAt, AppState.pass, AppState.goHeld, world, hrow]
            rfl) (ends_written ?_)
          exact hrest (b.closeGhost v o) hb _
      | false =>
          refine .next
            (by simp [stretch, answerAt, AppState.pass, AppState.goHeld, world, hrow]; rfl) ?_
          cases hresolve : resolve v o with
          | error e =>
              rw [loop_cons_error (settleHeld_error hnot hrow hresolve), hraised]
              exact .next (by simp [stretch, answerAt, AppState.pass, hresolve]; rfl) (.ended _)
          | ok value =>
              cases value with
              | none =>
                  rw [loop_cons_ok (settleHeld_none hnot hrow hresolve)]
                  refine .next (by simp [stretch, answerAt, AppState.pass, hresolve]; rfl) ?_
                  exact hrest (b.leave v o) hb _
              | some value =>
                  rw [loop_cons_ok (settleHeld_value hnot hrow hresolve)]
                  refine .next (by
                    simp [stretch, answerAt, AppState.pass, AppState.settleAtResult, hresolve]
                    rfl) (ends_written ?_)
                  exact hrest ((b.settle t.utc v o value).notePaid v o value) hb _

/-- What a broker holds and may be settled is gone through before the next
broker. -/
theorem goVenues_cons {s : AppState} {a : PaperExecutionAdapter}
    (hbroker : s.brokers.get? v = some a) (hresolver : v ∈ s.resolvers) (point : PassPoint) (venues : List VenueId) :
    s.goVenues ⟨pending, held, point⟩ (v :: venues) =
      s.goHeld ⟨pending, held.set v (s.heldBy a), point⟩ v venues
        ((s.heldBy a).filter fun o => decide ((v, o) ∉ pending)) := by
  rw [AppState.goVenues, hbroker]
  simp only [hresolver, not_true_eq_false, if_false]
  cases List.filter (fun o => decide ((v, o) ∉ pending)) (s.heldBy a) with
  | nil => rfl
  | cons o left => rfl

/-- A broker without a resolver is passed over, and so is a venue without a
broker. -/
theorem goVenues_skip {s : AppState} (h : s.brokers.get? v = none ∨ v ∉ s.resolvers)
    (point : PassPoint) (venues : List VenueId) :
    s.goVenues ⟨pending, held, point⟩ (v :: venues) =
      s.goVenues ⟨pending, held, point⟩ venues := by
  rw [AppState.goVenues]
  split
  · rfl
  · rename_i a hbroker
    rw [if_pos (h.resolve_left (by rw [hbroker]; exact Option.some_ne_none a))]

theorem settleVenue_skip (h : b.app.brokers.get? v = none ∨ v ∉ b.app.resolvers) :
    settleVenue resolve ts pending b v = (b, none) := by
  unfold settleVenue
  split
  · rfl
  · rename_i a hbroker
    exact if_pos (h.resolve_left (by rw [hbroker]; exact Option.some_ne_none a))

theorem settleVenue_eq {a : PaperExecutionAdapter} (hbroker : b.app.brokers.get? v = some a)
    (hresolver : v ∈ b.app.resolvers) :
    settleVenue resolve ts pending b v =
      loop (settleHeld resolve ts pending v)
        { b with heldByVenue := b.heldByVenue.set v (b.app.heldBy a) } (b.app.heldBy a) := by
  rw [settleVenue, hbroker]
  exact if_neg (not_not.mpr hresolver)

/-- **The turn of a venue**: nothing, or the turns of what its broker holds. -/
theorem settleVenue_cases (resolve : Resolve) (ts : ℚ) (pending : List (VenueId × OutcomeId))
    (b : VenuePass) (v : VenueId) :
    settleVenue resolve ts pending b v = (b, none) ∨
      ∃ a, b.app.brokers.get? v = some a ∧ v ∈ b.app.resolvers ∧
        settleVenue resolve ts pending b v = loop (settleHeld resolve ts pending v)
          { b with heldByVenue := b.heldByVenue.set v (b.app.heldBy a) } (b.app.heldBy a) := by
  by_cases hskip : b.app.brokers.get? v = none ∨ v ∉ b.app.resolvers
  · exact .inl (settleVenue_skip hskip)
  · obtain ⟨hbroker, hresolver⟩ := not_or.mp hskip
    obtain ⟨a, hbroker⟩ := Option.ne_none_iff_exists'.mp hbroker
    have hresolver := not_not.mp hresolver
    exact .inr ⟨a, hbroker, hresolver, settleVenue_eq hbroker hresolver⟩

/-- What is pending is passed over. -/
theorem loop_settleHeld_filter (b : VenuePass) (held : List OutcomeId) :
    loop (settleHeld resolve ts pending v) b held =
      loop (settleHeld resolve ts pending v) b
        (held.filter fun o => decide ((v, o) ∉ pending)) := by
  refine loop_filter (I := fun _ => True) ?_ (fun _ _ _ _ => trivial) trivial
  intro b o _ _ hkeep
  exact if_pos (by simpa using hkeep)

/-- **The first phase**, if the second does the same. -/
theorem ends_goVenues
    (hrecord : ∀ b : VenuePass, Ends resolve t b.world
      (some ⟨pending, b.heldByVenue, .unrecorded⟩)
      (recordPhase resolve t.utc pending (b, none)).1.world)
    (venues : List VenueId) (b : VenuePass) (point : PassPoint) :
    Ends resolve t b.world (some (b.app.goVenues ⟨pending, b.heldByVenue, point⟩ venues))
      (recordPhase resolve t.utc pending
        (loop (settleVenue resolve t.utc pending) b venues)).1.world := by
  induction venues generalizing b point with
  | nil => exact hrecord b
  | cons v venues ih =>
      by_cases hskip : b.app.brokers.get? v = none ∨ v ∉ b.app.resolvers
      · rw [goVenues_skip hskip, loop_cons_ok (settleVenue_skip hskip)]
        exact ih b point
      · obtain ⟨hbroker, hresolver⟩ := not_or.mp hskip
        obtain ⟨a, hbroker⟩ := Option.ne_none_iff_exists'.mp hbroker
        have hresolver := not_not.mp hresolver
        rw [goVenues_cons hbroker hresolver]
        -- what the pass comes to after this broker
        let after : VenuePass × Option Raised → World
          | (b, none) => (recordPhase resolve t.utc pending
              (loop (settleVenue resolve t.utc pending) b venues)).1.world
          | (b, some _) => b.world
        have hafter : (recordPhase resolve t.utc pending
            (loop (settleVenue resolve t.utc pending) b (v :: venues))).1.world =
              after (settleVenue resolve t.utc pending b v) := by
          rcases hturn : settleVenue resolve t.utc pending b v with ⟨b', e⟩
          cases e with
          | none => rw [loop_cons_ok hturn]
          | some e => rw [loop_cons_error hturn]; rfl
        rw [hafter, settleVenue_eq hbroker hresolver, loop_settleHeld_filter]
        refine ends_goHeld ?_ (fun _ _ => rfl) ?_
          { b with heldByVenue := b.heldByVenue.set v (b.app.heldBy a) } rfl point
        · intro o ho
          exact of_decide_eq_true (List.mem_filter.mp ho).2
        · intro b' hb'
          rw [← hb']
          exact ih b' .unrecorded

/-! ### The second phase -/

/-- The venues of two points of a pass are the same, and so is what it
remembers. -/
structure SameVenues (b b' : VenuePass) : Prop where
  brokers : ∀ v, b'.app.brokers.get? v = none ↔ b.app.brokers.get? v = none
  resolvers : b'.app.resolvers = b.app.resolvers
  heldByVenue : b'.heldByVenue = b.heldByVenue

theorem SameVenues.refl (b : VenuePass) : SameVenues b b := ⟨fun _ => .rfl, rfl, rfl⟩

theorem SameVenues.trans {b b' b'' : VenuePass} (h : SameVenues b b') (h' : SameVenues b' b'') :
    SameVenues b b'' :=
  ⟨fun v => (h'.brokers v).trans (h.brokers v), h'.resolvers.trans h.resolvers,
    h'.heldByVenue.trans h.heldByVenue⟩

theorem SameVenues.skips_iff {b b' : VenuePass} (h : SameVenues b b')
    (item : VenueId × OutcomeId) : Skips pending b' item ↔ Skips pending b item := by
  rw [Skips, Skips, h.brokers, h.resolvers, h.heldByVenue]

theorem get?_closeGroup (s : AppState) (v : VenueId) (o : OutcomeId) (w : VenueId) :
    (s.closeGroup v o).brokers.get? w = s.brokers.get? w := by
  unfold AppState.closeGroup
  split <;> rfl

theorem resolvers_closeGroup (s : AppState) (v : VenueId) (o : OutcomeId) :
    (s.closeGroup v o).resolvers = s.resolvers := by
  unfold AppState.closeGroup
  split <;> rfl

theorem get?_settle (b : VenuePass) (ts : ℚ) (v : VenueId) (o : OutcomeId) (value : ℚ)
    (w : VenueId) :
    (b.settle ts v o value).app.brokers.get? w =
      if w = v then (b.app.brokers.get? w).map fun a =>
        (a.settleOutcomeAsync o value "venue_result").1
      else b.app.brokers.get? w := by
  rw [settle, get?_closeGroup]
  exact Brokers.get?_modify b.app.brokers v w fun _ => rfl

theorem sameVenues_settle (b : VenuePass) (ts : ℚ) (v : VenueId) (o : OutcomeId) (value : ℚ) :
    SameVenues b (b.settle ts v o value) where
  brokers := by
    intro w
    rw [get?_settle]
    split
    · exact Option.map_eq_none_iff
    · exact .rfl
  resolvers := resolvers_closeGroup ..
  heldByVenue := rfl

theorem sameVenues_noteRecorded (b : VenuePass) (ts : ℚ) (v : VenueId) (o : OutcomeId)
    (value : ℚ) : SameVenues b ((b.settle ts v o value).noteRecorded v o value) :=
  have h := sameVenues_settle b ts v o value
  ⟨h.brokers, h.resolvers, rfl⟩

theorem sameVenues_recordOutcome (b : VenuePass) (item : VenueId × OutcomeId) :
    SameVenues b (recordOutcome resolve ts pending b item).1 := by
  unfold recordOutcome
  split
  · exact .refl b
  · split
    · exact .refl b
    · exact ⟨fun _ => .rfl, rfl, rfl⟩
    · split
      · exact .refl b
      · exact sameVenues_noteRecorded ..

theorem ends_writtenRecord {left : List (VenueId × OutcomeId)} {s : AppState} {db : LedgerDb}
    (h : Ends resolve t (s.closeGroup v o, db)
      (AppState.goRecords ⟨pending, held, .writtenRecord v o left⟩ left) w) :
    Ends resolve t (s, db) (some ⟨pending, held, .writtenRecord v o left⟩) w :=
  .next rfl h

theorem goRecords_point (point point' : PassPoint) (left : List (VenueId × OutcomeId)) :
    AppState.goRecords ⟨pending, held, point⟩ left =
      AppState.goRecords ⟨pending, held, point'⟩ left := by
  cases left with
  | nil => rfl
  | cons item left => rfl

/-- The second phase, on outcomes none of which it leaves alone. -/
theorem ends_goRecords {left : List (VenueId × OutcomeId)} (b : VenuePass)
    (hskips : ∀ item ∈ left, ¬ Skips pending b item) (point : PassPoint) :
    Ends resolve t b.world (AppState.goRecords ⟨pending, held, point⟩ left)
      (loop (recordOutcome resolve t.utc pending) b left).1.world := by
  induction left generalizing b point with
  | nil => exact .ended _
  | cons item left ih =>
      obtain ⟨v, o⟩ := item
      have hnot := hskips (v, o) List.mem_cons_self
      have hrest : ∀ b', SameVenues b b' → ∀ point,
          Ends resolve t b'.world (AppState.goRecords ⟨pending, held, point⟩ left)
            (loop (recordOutcome resolve t.utc pending) b' left).1.world := by
        intro b' hsame point
        refine ih b' (fun item hitem => ?_) point
        rw [hsame.skips_iff]
        exact hskips item (List.mem_cons_of_mem _ hitem)
      obtain ⟨a, hbroker⟩ := Option.ne_none_iff_exists'.mp (not_or.mp hnot).1
      rw [goRecords_point point .unrecorded]
      have hgo : AppState.goRecords ⟨pending, held, .unrecorded⟩ ((v, o) :: left) =
          some ⟨pending, held, .resolveRecord v o left⟩ := rfl
      rw [hgo]
      cases hresolve : resolve v o with
      | error e =>
          rw [loop_cons_error (recordOutcome_error hnot hresolve)]
          exact .next (by simp [stretch, answerAt, AppState.pass, hresolve]; rfl) (.ended _)
      | ok value =>
          cases value with
          | none =>
              rw [loop_cons_ok (recordOutcome_none hnot hresolve)]
              refine .next (by simp [stretch, answerAt, AppState.pass, hresolve]; rfl) ?_
              exact hrest (b.leave v o) ⟨fun _ => .rfl, rfl, rfl⟩ _
          | some value =>
              -- a position may have come up while the resolver was awaited
              by_cases hheld : o ∈ b.app.heldBy a
              · have hholds : Holds b.app v o := ⟨a, hbroker, hheld⟩
                rw [loop_cons_ok (recordOutcome_held hnot hresolve hholds)]
                refine .next (by
                  simp [stretch, answerAt, AppState.pass, hresolve, world, hbroker, hheld]
                  rfl) ?_
                exact hrest b (.refl b) _
              · have hholds : ¬ Holds b.app v o := by
                  rintro ⟨a', hbroker', hheld'⟩
                  rw [hbroker] at hbroker'
                  cases hbroker'
                  exact hheld hheld'
                rw [loop_cons_ok (recordOutcome_value hnot hresolve hholds)]
                refine .next (by
                  simp [stretch, answerAt, AppState.pass, AppState.settleAtResult, hresolve, world,
                    hbroker, hheld]
                  rfl) (ends_writtenRecord ?_)
                exact hrest _ (sameVenues_noteRecorded b t.utc v o value) _

theorem recordable_eq (b : VenuePass) (point : PassPoint)
    (unrecorded : List (VenueId × OutcomeId)) :
    b.app.recordable ⟨pending, b.heldByVenue, point⟩ unrecorded =
      unrecorded.filter fun item => decide (¬ Skips pending b item) := by
  refine List.filter_congr fun item _ => ?_
  obtain ⟨v, o⟩ := item
  rw [Bool.eq_iff_iff]
  simp [Skips, not_or, and_assoc, Option.isSome_iff_ne_none]

theorem ends_records (b : VenuePass) :
    Ends resolve t b.world (some ⟨pending, b.heldByVenue, .unrecorded⟩)
      (recordPhase resolve t.utc pending (b, none)).1.world := by
  have hfilter : loop (recordOutcome resolve t.utc pending) b b.db.unrecordedOutcomes =
      loop (recordOutcome resolve t.utc pending) b
        (b.db.unrecordedOutcomes.filter fun item => decide (¬ Skips pending b item)) := by
    refine loop_filter (I := SameVenues b) ?_ ?_ (.refl b)
    · intro b' item _ hsame hkeep
      refine if_pos ((hsame.skips_iff item).mpr ?_)
      simpa using hkeep
    · intro b' item _ hsame
      exact hsame.trans (sameVenues_recordOutcome b' item)
  rw [recordPhase, hfilter, ← recordable_eq b .unrecorded]
  refine .next rfl (ends_goRecords b (fun item hitem => ?_) _)
  have hitem' : item ∈ b.app.recordable ⟨pending, b.heldByVenue, .unrecorded⟩
      b.db.unrecordedOutcomes := hitem
  rw [recordable_eq] at hitem'
  exact of_decide_eq_true (List.mem_filter.mp hitem').2

/-- **The stretches of a pass, taken in a row, are `_settle_once`.** -/
theorem settleOnce_ends (resolve : Resolve) (t : Instant) (s : AppState) (db : LedgerDb) :
    Ends resolve t ((s.pass t {} none).state, db) (s.pass t {} none).suspended
      (settleOnce resolve t s db).1.world :=
  ends_goVenues ends_records s.brokers.adapters.keys { app := s, db := db } .unrecorded

end Stretches

/-! ## What a pass keeps -/

section Keeps

variable {resolve : Resolve} {ts : ℚ} {pending : List (VenueId × OutcomeId)} {b b' b'' : VenuePass}
  {v : VenueId} {o : OutcomeId}

theorem mem_heldBy {s : AppState} {a : PaperExecutionAdapter} :
    o ∈ s.heldBy a ↔ ∃ acct ∈ s.accountIds, (a.account acct).qty o ≠ 0 := by
  have hqty : ∀ acct, (a.account acct).qty o ≠ 0 ↔
      ∃ q, (o, q) ∈ (a.account acct).positions.entries ∧ q ≠ 0 := by
    intro acct
    rw [AccountState.qty, Dict.getD]
    constructor
    · intro h
      cases hq : (a.account acct).positions.get? o with
      | none => rw [hq] at h; exact absurd rfl h
      | some q =>
          rw [hq] at h
          exact ⟨q, Dict.mem_entries_iff.mpr hq, h⟩
    · rintro ⟨q, hmem, hne⟩
      rw [Dict.mem_entries_iff.mp hmem]
      exact hne
  rw [AppState.heldBy, List.mem_mergeSort, List.mem_dedup, List.mem_flatMap]
  refine exists_congr fun acct => and_congr_right fun _ => ?_
  rw [hqty]
  simp

/-- One point of a pass is later than another. -/
structure Later (b b' : VenuePass) : Prop where
  serviced : b.app.Serviced b'.app
  accountIds : b'.app.accountIds = b.app.accountIds
  resolvers : b'.app.resolvers = b.app.resolvers
  trades : b.db.SameTrades b'.db
  rows : ∀ row ∈ b.db.settlements, row ∈ b'.db.settlements
  settled : ∀ x ∈ b.result.settled, x ∈ b'.result.settled

theorem Later.refl (b : VenuePass) : Later b b :=
  ⟨.refl b.app, rfl, rfl, .refl b.db, fun _ => id, fun _ => id⟩

theorem Later.trans (h : Later b b') (h' : Later b' b'') : Later b b'' :=
  ⟨h.serviced.trans h'.serviced, h'.accountIds.trans h.accountIds, h'.resolvers.trans h.resolvers,
    h.trades.trans h'.trades, fun row hrow => h'.rows row (h.rows row hrow),
    fun x hx => h'.settled x (h.settled x hx)⟩

theorem Later.hasSettlementRow (h : Later b b') (hrow : b.db.hasSettlementRow o = true) :
    b'.db.hasSettlementRow o = true := by
  obtain ⟨row, hmem, ho⟩ := LedgerDb.hasSettlementRow_iff.mp hrow
  exact LedgerDb.hasSettlementRow_iff.mpr ⟨row, h.rows row hmem, ho⟩

/-- A pass only ever closes positions. -/
theorem Later.holds (h : Later b b') (hholds : Holds b'.app v o) : Holds b.app v o := by
  obtain ⟨a', ha', hheld'⟩ := hholds
  obtain ⟨acct, hacct, hqty⟩ := mem_heldBy.mp hheld'
  have hbrokers := h.serviced.brokers v
  rw [ha'] at hbrokers
  cases ha : b.app.brokers.get? v with
  | none => rw [ha] at hbrokers; cases hbrokers
  | some a =>
      rw [ha] at hbrokers
      cases hbrokers with
      | some hreleased =>
          rw [h.accountIds] at hacct
          refine ⟨a, ha, mem_heldBy.mpr ⟨acct, hacct, fun hzero => hqty ?_⟩⟩
          rcases hreleased.position acct o with ⟨hsame, -⟩ | ⟨hflat, -⟩
          · rw [hsame, hzero]
          · exact hflat

theorem accountIds_closeGroup (s : AppState) (v : VenueId) (o : OutcomeId) :
    (s.closeGroup v o).accountIds = s.accountIds := by
  unfold AppState.closeGroup
  split <;> rfl

theorem later_settle (b : VenuePass) (ts : ℚ) (v : VenueId) (o : OutcomeId) (value : ℚ) :
    Later b (b.settle ts v o value) where
  serviced := (AppState.serviced_settleAt b.app v o value _).trans (AppState.serviced_closeGroup ..)
  accountIds := accountIds_closeGroup ..
  resolvers := resolvers_closeGroup ..
  trades := ⟨rfl, rfl, rfl⟩
  rows := fun _ hrow => List.mem_append_left _ hrow
  settled := fun _ => id

theorem later_closeGhost (b : VenuePass) (v : VenueId) (o : OutcomeId) :
    Later b (b.closeGhost v o) where
  serviced := (AppState.serviced_close b.app v o).trans (AppState.serviced_closeGroup ..)
  accountIds := accountIds_closeGroup ..
  resolvers := resolvers_closeGroup ..
  trades := .refl b.db
  rows := fun _ => id
  settled := fun _ => id

theorem later_notePaid (b : VenuePass) (v : VenueId) (o : OutcomeId) (value : ℚ) :
    Later b (b.notePaid v o value) :=
  ⟨.refl b.app, rfl, rfl, .refl b.db, fun _ => id, fun _ hx => List.mem_append_left _ hx⟩

theorem later_leave (b : VenuePass) (v : VenueId) (o : OutcomeId) : Later b (b.leave v o) :=
  ⟨.refl b.app, rfl, rfl, .refl b.db, fun _ => id, fun _ => id⟩

theorem later_remember (b : VenuePass) (held : Dict VenueId (List OutcomeId)) :
    Later b { b with heldByVenue := held } :=
  ⟨.refl b.app, rfl, rfl, .refl b.db, fun _ => id, fun _ => id⟩

theorem later_settleHeld (b : VenuePass) (v : VenueId) (o : OutcomeId) :
    Later b (settleHeld resolve ts pending v b o).1 := by
  unfold settleHeld
  split
  · exact .refl b
  · split
    · exact later_closeGhost b v o
    · split
      · exact (later_settle b ts v o _).trans (later_notePaid ..)
      · exact later_leave b v o
      · exact .refl b

theorem get?_settleHeld_ne {w : VenueId} (hw : w ≠ v) (b : VenuePass) (o : OutcomeId) :
    (settleHeld resolve ts pending v b o).1.app.brokers.get? w = b.app.brokers.get? w := by
  unfold settleHeld
  split
  · rfl
  · split
    · rw [closeGhost, get?_closeGroup]
      exact (Brokers.get?_modify b.app.brokers v w (f := fun a => (a.closeAlreadySettled o).1)
        fun _ => rfl).trans (if_neg hw)
    · split
      · exact (get?_settle b ts v o _ w).trans (if_neg hw)
      · rfl
      · rfl

theorem later_settleVenue (b : VenuePass) (v : VenueId) :
    Later b (settleVenue resolve ts pending b v).1 := by
  rcases settleVenue_cases resolve ts pending b v with hskip | ⟨a, -, -, hturns⟩
  · rw [hskip]
    exact .refl b
  · rw [hturns]
    exact Runs.loop_inv (I := Later b) (fun b' o _ h => h.trans (later_settleHeld b' v o))
      (later_remember b _)

/-- The turn of one broker is not the concern of another. -/
theorem get?_settleVenue_ne {w : VenueId} (hw : w ≠ v) (b : VenuePass) :
    (settleVenue resolve ts pending b v).1.app.brokers.get? w = b.app.brokers.get? w := by
  rcases settleVenue_cases resolve ts pending b v with hskip | ⟨a, -, -, hturns⟩
  · rw [hskip]
  · rw [hturns]
    refine Runs.loop_inv (I := fun b' : VenuePass =>
      b'.app.brokers.get? w = b.app.brokers.get? w) (fun b' o _ h => ?_) rfl
    rw [get?_settleHeld_ne hw, h]

theorem holds_settleVenue_ne {w : VenueId} (hw : w ≠ v) (b : VenuePass) :
    Holds (settleVenue resolve ts pending b v).1.app w o ↔ Holds b.app w o := by
  simp only [Holds, mem_heldBy, get?_settleVenue_ne hw, (later_settleVenue b v).accountIds]

theorem later_recordOutcome (b : VenuePass) (item : VenueId × OutcomeId) :
    Later b (recordOutcome resolve ts pending b item).1 := by
  unfold recordOutcome
  split
  · exact .refl b
  · split
    · exact .refl b
    · exact later_leave b item.1 item.2
    · split
      · exact .refl b
      · exact (later_settle b ts item.1 item.2 _).trans
          ⟨.refl _, rfl, rfl, .refl _, fun _ => id, fun _ => id⟩

theorem later_recordPhase (r : VenuePass × Option Raised) :
    Later r.1 (recordPhase resolve ts pending r).1 := by
  obtain ⟨b, e⟩ := r
  cases e with
  | none =>
      exact Runs.loop_inv (I := Later b) (fun b' item _ h => h.trans (later_recordOutcome b' item))
        (.refl b)
  | some e => exact .refl b

/-! ### What is closed -/

theorem not_holds_settle (b : VenuePass) (ts : ℚ) (v : VenueId) (o : OutcomeId) (value : ℚ) :
    ¬ Holds (b.settle ts v o value).app v o := by
  rintro ⟨a, ha, hheld⟩
  obtain ⟨acct, -, hqty⟩ := mem_heldBy.mp hheld
  rw [get?_settle, if_pos rfl] at ha
  obtain ⟨a₀, -, rfl⟩ := Option.map_eq_some_iff.mp ha
  rw [PaperExecutionAdapter.account_settleOutcomeAsync, AccountState.qty_settle, if_pos rfl] at hqty
  exact hqty rfl

theorem not_holds_closeGhost (b : VenuePass) (v : VenueId) (o : OutcomeId) :
    ¬ Holds (b.closeGhost v o).app v o := by
  rintro ⟨a, ha, hheld⟩
  obtain ⟨acct, -, hqty⟩ := mem_heldBy.mp hheld
  rw [closeGhost, get?_closeGroup] at ha
  have hmodify := Brokers.get?_modify b.app.brokers v v
    (f := fun a => (a.closeAlreadySettled o).1) fun _ => rfl
  rw [if_pos rfl] at hmodify
  change (b.app.brokers.modify v fun a => (a.closeAlreadySettled o).1).get? v = some a at ha
  rw [hmodify] at ha
  obtain ⟨a₀, -, rfl⟩ := Option.map_eq_some_iff.mp ha
  rw [PaperExecutionAdapter.account_closeAlreadySettled] at hqty
  split at hqty
  · rename_i hzero
    exact hqty hzero
  · exact hqty (AccountState.movement_closeOut _ v o).qty

theorem hasSettlementRow_settle (b : VenuePass) (ts : ℚ) (v : VenueId) (o : OutcomeId)
    (value : ℚ) : (b.settle ts v o value).db.hasSettlementRow o = true := by
  rw [settle, LedgerDb.hasSettlementRow_onSettlement, decide_eq_true rfl, Bool.or_true]

/-- An application whose broker of a venue holds a contract, and nothing
else. -/
def holding (v : VenueId) (o : OutcomeId) : AppState where
  brokers := Brokers.empty.put
    ((PaperExecutionAdapter.new v .kalshi 0).hydratePosition "default" o 1 (1 / 2) 0 0)
  book := TwoVenues.book
  engine := { fees := TwoVenues.fees }

/-! ### Going through the first phase -/

/-- What every turn of the first phase keeps, and no turn raises. -/
structure Turns (resolve : Resolve) (ts : ℚ) (pending : List (VenueId × OutcomeId))
    (b : VenuePass) (I : VenuePass → Prop) : Prop where
  start : I b
  later : ∀ b', I b' → Later b b'
  remember : ∀ b' held, I b' → I { b' with heldByVenue := held }
  turn : ∀ b' v o, v ∈ b.app.resolvers → Holds b.app v o → I b' →
    I (settleHeld resolve ts pending v b' o).1 ∧ (settleHeld resolve ts pending v b' o).2 = none

variable {I : VenuePass → Prop}

/-- The turns of what a broker holds. -/
theorem Turns.held (h : Turns resolve ts pending b I) (hb' : I b') {a : PaperExecutionAdapter}
    (hbroker : b'.app.brokers.get? v = some a) (hresolver : v ∈ b'.app.resolvers)
    (b'' : VenuePass) :
    ∀ o ∈ b'.app.heldBy a, I b'' →
      I (settleHeld resolve ts pending v b'' o).1 ∧
        (settleHeld resolve ts pending v b'' o).2 = none := by
  intro o ho hb''
  have hlater := h.later b' hb'
  rw [hlater.resolvers] at hresolver
  exact h.turn b'' v o hresolver (hlater.holds ⟨a, hbroker, ho⟩) hb''

theorem Turns.settleVenue (h : Turns resolve ts pending b I) (hb' : I b') (v : VenueId) :
    I (settleVenue resolve ts pending b' v).1 ∧ (settleVenue resolve ts pending b' v).2 = none := by
  rcases settleVenue_cases resolve ts pending b' v with hskip | ⟨a, hbroker, hresolver, hloop⟩
  · rw [hskip]
    exact ⟨hb', rfl⟩
  · have hturns := h.held hb' hbroker hresolver
    have hstart := h.remember b' (b'.heldByVenue.set v (b'.app.heldBy a)) hb'
    rw [hloop]
    exact ⟨Runs.loop_inv (fun b'' o ho hI => (hturns b'' o ho hI).1) hstart,
      Runs.loop_total hturns hstart⟩

theorem Turns.settlePhase (h : Turns resolve ts pending b I) :
    I (settlePhase resolve ts pending b).1 ∧ (settlePhase resolve ts pending b).2 = none :=
  ⟨Runs.loop_inv (I := I) (fun _ v _ hb' => (h.settleVenue hb' v).1) h.start,
    Runs.loop_total (I := I) (fun _ v _ hb' => h.settleVenue hb' v) h.start⟩

/-- **What the turn of a held outcome brings about, and no later point undoes,
holds after the first phase.** -/
theorem Turns.reaches (h : Turns resolve ts pending b I) {P : VenuePass → Prop}
    (hv : v ∈ b.app.resolvers) (hheld : Holds b.app v o)
    (hkeep : ∀ b' b'', Later b' b'' → P b' → P b'')
    (hdone : ∀ b', I b' → P (settleHeld resolve ts pending v b' o).1) :
    P (VenuePass.settlePhase resolve ts pending b).1 := by
  -- up to its own turn the outcome is held, unless it is done already
  have hturn : ∀ b', (I b' ∧ (Holds b'.app v o ∨ P b')) →
      P (VenuePass.settleVenue resolve ts pending b' v).1 := by
    rintro b' ⟨hb', hheld | hP⟩
    · obtain ⟨a, hbroker, ho⟩ := hheld
      have hresolver : v ∈ b'.app.resolvers := by rwa [(h.later b' hb').resolvers]
      rw [settleVenue_eq hbroker hresolver]
      exact Runs.loop_reaches ho (h.held hb' hbroker hresolver)
        (fun b'' o' _ _ hP => hkeep _ _ (later_settleHeld b'' v o') hP) hdone
        (h.remember b' _ hb')
    · exact hkeep _ _ (later_settleVenue b' v) hP
  have hkeys : v ∈ b.app.brokers.adapters.keys := by
    obtain ⟨a, hbroker, -⟩ := hheld
    have hget : b.app.brokers.adapters.get? v = some a := hbroker
    exact Dict.mem_keys_iff.mpr (by rw [hget]; rfl)
  refine Runs.loop_reaches (I := fun b' => I b' ∧ (Holds b'.app v o ∨ P b')) hkeys ?_ ?_ hturn
    ⟨h.start, .inl hheld⟩
  · rintro b' w - ⟨hb', hor⟩
    obtain ⟨hnext, hnone⟩ := h.settleVenue hb' w
    refine ⟨⟨hnext, ?_⟩, hnone⟩
    by_cases hw : v = w
    · subst hw
      exact .inr (hturn b' ⟨hb', hor⟩)
    · rcases hor with hheld | hP
      · exact .inl ((holds_settleVenue_ne hw b').mpr hheld)
      · exact .inr (hkeep _ _ (later_settleVenue b' w) hP)
  · intro b' w _ _ hP
    exact hkeep _ _ (later_settleVenue b' w) hP

end Keeps

end VenuePass

end Arbys
