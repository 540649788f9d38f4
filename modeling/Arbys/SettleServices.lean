import Arbys.TicketService

/-!
# The settlement services

`ingest/auto_settle_service.py` and `ingest/venue_settle_service.py` as
coroutines. A settlement changes its broker and then awaits the sink, so a
tick is suspended inside the settlement of a group, leg by leg, and marks the
group when it comes back from the last one. A pass is suspended at each
question it asks the database or a venue, and after each write; what it is
answered is an argument of the stretch that follows.
-/

namespace Arbys

/-- `ASK_THRESHOLD`. -/
def askThreshold : ℚ := 99 / 100

/-- `CONSECUTIVE_HITS`. -/
def consecutiveHits : ℕ := 3

/-- `RESOLVED_ASK_THRESHOLD`. -/
def resolvedAskThreshold : ℚ := 9 / 10

/-- What a service did between two awaits: the state, where it is suspended
(`none` when it ended), and the outcomes it settled. -/
structure Stretch (κ : Type) where
  state : AppState
  suspended : Option κ
  settled : List (VenueId × OutcomeId)

namespace AppState

/-! ## Reading a result out of the book -/

/-- `_has_started`. -/
def hasStarted (utc : ℚ) (group : EventGroup) : Bool :=
  match group.startTime with
  | none => true
  | some start => decide (start ≤ utc)

/-- `_quote`. -/
def quoteFor (s : AppState) (now : ℚ) (allowStale : Bool) (o : OutcomeId) : Option Quote :=
  if allowStale then (s.book.getWithAge now o).map Prod.fst else s.book.get now o

/-- `_winning_side`: the only side with an ask at the threshold. -/
def winningSide (s : AppState) (now : ℚ) (group : EventGroup) (threshold : ℚ)
    (allowStale : Bool) : Option Bool :=
  let hit := fun side => group.legs.any fun leg => leg.isYesSide == side &&
    (s.quoteFor now allowStale leg.outcomeId).any fun quote => decide (threshold ≤ quote.ask)
  if hit true && !hit false then some true
  else if hit false && !hit true then some false
  else none

/-! ## `AutoSettleService.tick` -/

/-- A group a tick has yet to judge. -/
inductive TickItem where
  | retired (gid : GroupId) (group : EventGroup)
  | registered (gid : GroupId) (group : EventGroup)

/-- A `_settle_group` under way: the legs it has not come to. `pinned` tells
the route that called it, which decides what is forgotten at the end. -/
structure Settling where
  gid : GroupId
  winner : Bool
  left : List EventGroupLeg
  pinned : Bool

/-- A tick suspended inside a settlement. -/
structure TickAt where
  settling : Settling
  agenda : List TickItem

/-- `_settle_final` up to `_settle_group`. -/
def settleFinal (s : AppState) (t : Instant) (group : EventGroup) : AppState × Option Settling :=
  if hasStarted t.utc group = false then (s, none)
  else
    match s.winningSide t.now group resolvedAskThreshold true with
    | none =>
        ({ s with autoSettle := { s.autoSettle with
            unresolved := s.autoSettle.unresolved.set group.id
              (s.autoSettle.unresolved.getD group.id group) } }, none)
    | some winner => (s, some ⟨group.id, winner, group.legs, false⟩)

/-- The price route of a tick: a winner seen often enough in a row. -/
def settlePinned (s : AppState) (t : Instant) (gid : GroupId) (group : EventGroup) :
    AppState × Option Settling :=
  match s.winningSide t.now group askThreshold false with
  | none =>
      ({ s with autoSettle := { s.autoSettle with hits := s.autoSettle.hits.erase gid } }, none)
  | some winner =>
      let prev := s.autoSettle.hits.getD gid (winner, 0)
      let count := (if prev.1 = winner then prev.2 else 0) + 1
      let s := { s with autoSettle := { s.autoSettle with
        hits := s.autoSettle.hits.set gid (winner, count) } }
      (s, if consecutiveHits ≤ count then some ⟨gid, winner, group.legs, true⟩ else none)

/-- One turn of the loops of `tick`, up to `_settle_group`. -/
def judge (s : AppState) (t : Instant) : TickItem → AppState × Option Settling
  | .retired gid group =>
      let s := { s with autoSettle := { s.autoSettle with
        seen := s.autoSettle.seen.erase gid
        hits := s.autoSettle.hits.erase gid } }
      if gid ∈ s.autoSettle.settled then (s, none) else s.settleFinal t group
  | .registered gid group =>
      let s := { s with autoSettle := { s.autoSettle with
        seen := s.autoSettle.seen.set gid group } }
      if gid ∈ s.autoSettle.settled then (s, none)
      else if group.ended = some true then s.settleFinal t group
      else if hasStarted t.utc group = false then
        ({ s with autoSettle := { s.autoSettle with hits := s.autoSettle.hits.erase gid } }, none)
      else s.settlePinned t gid group

/-- What follows the last leg. -/
def settledGroup (s : AppState) (st : Settling) : AppState :=
  { s with autoSettle := { s.autoSettle with
      settled := s.autoSettle.settled.insert st.gid
      hits := if st.pinned then s.autoSettle.hits.erase st.gid else s.autoSettle.hits
      unresolved := if st.pinned then s.autoSettle.unresolved
        else s.autoSettle.unresolved.erase st.gid } }

/-- `_settle_group` up to its next await: the next leg with a broker settled,
or the group marked. -/
def settleNext (s : AppState) (st : Settling) :
    AppState × Option (Settling × VenueId × OutcomeId) :=
  match st.left.dropWhile fun leg => (s.brokers.get? leg.venueId).isNone with
  | [] => (s.settledGroup st, none)
  | leg :: left =>
      let resolved : ℚ := if leg.isYesSide = st.winner then 1 else 0
      ({ s with brokers := s.brokers.settleAt leg.venueId leg.outcomeId resolved "heuristic" },
        some ({ st with left := left }, leg.venueId, leg.outcomeId))

/-- Go through the agenda up to the next settlement. -/
def goTick (t : Instant) : AppState → List TickItem → Stretch TickAt
  | s, [] => ⟨s, none, []⟩
  | s, item :: agenda =>
      match s.judge t item with
      | (s, none) => goTick t s agenda
      | (s, some st) =>
          match s.settleNext st with
          | (s, none) => goTick t s agenda
          | (s, some (st, v, o)) => ⟨s, some ⟨st, agenda⟩, [(v, o)]⟩

/-- What a tick goes through: the groups that left the registry, then those in
it. -/
def tickAgenda (s : AppState) : List TickItem :=
  (s.autoSettle.seen.entries.filter fun e => (s.eventGroups.get? e.1).isNone).map
      (fun e => .retired e.1 e.2) ++
    s.eventGroups.entries.map fun e => .registered e.1 e.2

/-- `AutoSettleService.tick`, from its start or from where it is suspended. -/
def tick (s : AppState) (t : Instant) : Option TickAt → Stretch TickAt
  | none => goTick t s s.tickAgenda
  | some at_ =>
      match s.settleNext at_.settling with
      | (s, none) => goTick t s at_.agenda
      | (s, some (st, v, o)) => ⟨s, some ⟨st, at_.agenda⟩, [(v, o)]⟩

/-! ## `VenueSettleService.settle_once` -/

/-- Where a pass is suspended, and what is left of the venue and of the pass. -/
inductive PassPoint where
  | alreadySettled (v : VenueId) (o : OutcomeId) (left : List OutcomeId) (venues : List VenueId)
  | resolve (v : VenueId) (o : OutcomeId) (left : List OutcomeId) (venues : List VenueId)
  | written (v : VenueId) (o : OutcomeId) (left : List OutcomeId) (venues : List VenueId)
  | unrecorded
  | resolveRecord (v : VenueId) (o : OutcomeId) (left : List (VenueId × OutcomeId))
  | writtenRecord (v : VenueId) (o : OutcomeId) (left : List (VenueId × OutcomeId))

structure PassAt where
  pending : List (VenueId × OutcomeId)
  heldByVenue : Dict VenueId (List OutcomeId)
  point : PassPoint

/-- What a pass is answered: whether a settlement row is stored, what the
venue says (or that asking failed), and which outcomes have no record. -/
structure PassAnswer where
  hasRow : Bool := false
  failed : Bool := false
  value : Option ℚ := none
  unrecorded : List (VenueId × OutcomeId) := []

/-- `_not_started`. -/
def notStarted (s : AppState) (utc : ℚ) : List (VenueId × OutcomeId) :=
  (s.eventGroups.values.filter fun group => !hasStarted utc group).flatMap fun group =>
    group.legs.map fun leg => (leg.venueId, leg.outcomeId)

/-- `sorted(_held(broker))`. -/
def heldBy (s : AppState) (a : PaperExecutionAdapter) : List OutcomeId :=
  ((s.accountIds.flatMap fun acct =>
    ((a.account acct).positions.entries.filter fun e => e.2 ≠ 0).map Prod.fst).dedup).mergeSort
      (fun o o' => decide (o ≤ o'))

/-- `_close_group`: mark the first group with that leg. -/
def closeGroup (s : AppState) (v : VenueId) (o : OutcomeId) : AppState :=
  match s.eventGroups.values.find? fun group =>
      group.legs.any fun leg => decide (leg.venueId = v) && decide (leg.outcomeId = o) with
  | some group => { s with autoSettle := s.autoSettle.markSettled group.id }
  | none => s

/-- Go through the venues up to the first outcome to ask about, or to the
second phase. -/
def goVenues (s : AppState) (p : PassAt) : List VenueId → PassAt
  | [] => { p with point := .unrecorded }
  | v :: venues =>
      match s.brokers.get? v with
      | none => goVenues s p venues
      | some a =>
          if v ∉ s.resolvers then goVenues s p venues
          else
            let held := s.heldBy a
            let p := { p with heldByVenue := p.heldByVenue.set v held }
            match held.filter fun o => decide ((v, o) ∉ p.pending) with
            | [] => goVenues s p venues
            | o :: left => { p with point := .alreadySettled v o left venues }

/-- The next outcome of a venue, or the next venue. -/
def goHeld (s : AppState) (p : PassAt) (v : VenueId) (venues : List VenueId) :
    List OutcomeId → PassAt
  | [] => goVenues s p venues
  | o :: left => { p with point := .alreadySettled v o left venues }

/-- The next outcome of the second phase, if there is one. -/
def goRecords (p : PassAt) : List (VenueId × OutcomeId) → Option PassAt
  | [] => none
  | (v, o) :: left => some { p with point := .resolveRecord v o left }

/-- The outcomes the second phase looks at. -/
def recordable (s : AppState) (p : PassAt) (unrecorded : List (VenueId × OutcomeId)) :
    List (VenueId × OutcomeId) :=
  unrecorded.filter fun (v, o) => (s.brokers.get? v).isSome && decide (v ∈ s.resolvers) &&
    decide (o ∉ p.heldByVenue.getD v []) && decide ((v, o) ∉ p.pending)

/-- Settle one outcome at the venue's result and await the sink. -/
def settleAtResult (s : AppState) (p : PassAt) (v : VenueId) (o : OutcomeId) (value : ℚ)
    (point : PassPoint) : Stretch PassAt :=
  ⟨{ s with brokers := s.brokers.settleAt v o value "venue_result" },
    some { p with point := point }, [(v, o)]⟩

/-- `_settle_once`, from its start or from where it is suspended. -/
def pass (s : AppState) (t : Instant) (answer : PassAnswer) : Option PassAt → Stretch PassAt
  | none =>
      ⟨s, some (s.goVenues ⟨s.notStarted t.utc, Dict.empty, .unrecorded⟩ s.brokers.adapters.keys),
        []⟩
  | some p =>
      if answer.failed then ⟨s, none, []⟩
      else
        match p.point with
        | .alreadySettled v o left venues =>
            if answer.hasRow then
              ⟨{ s with brokers := s.brokers.modify v fun a => (a.closeAlreadySettled o).1 },
                some { p with point := .written v o left venues }, []⟩
            else ⟨s, some { p with point := .resolve v o left venues }, []⟩
        | .resolve v o left venues =>
            match answer.value with
            | none => ⟨s, some (s.goHeld p v venues left), []⟩
            | some value => s.settleAtResult p v o value (.written v o left venues)
        | .written v o left venues =>
            let s := s.closeGroup v o
            ⟨s, some (s.goHeld p v venues left), []⟩
        | .unrecorded => ⟨s, goRecords p (s.recordable p answer.unrecorded), []⟩
        | .resolveRecord v o left =>
            match answer.value, s.brokers.get? v with
            | some value, some a =>
                -- a fill may have landed while the venue was asked
                if o ∈ s.heldBy a then ⟨s, goRecords p left, []⟩
                else s.settleAtResult p v o value (.writtenRecord v o left)
            | _, _ => ⟨s, goRecords p left, []⟩
        | .writtenRecord v o left =>
            let s := s.closeGroup v o
            ⟨s, goRecords p left, []⟩

end AppState

/-! ## What the services change -/

/-- A broker after settlements and closings: every position is what it was, or
flat. -/
structure PaperExecutionAdapter.Released (a a' : PaperExecutionAdapter) : Prop where
  venueId : a'.venueId = a.venueId
  slippageBps : a'.slippageBps = a.slippageBps
  position : ∀ acct o,
    ((a'.account acct).qty o = (a.account acct).qty o ∧
      (a'.account acct).avg o = (a.account acct).avg o) ∨
    ((a'.account acct).qty o = 0 ∧ (a'.account acct).avg o = 0)

namespace PaperExecutionAdapter

variable {a a' a'' : PaperExecutionAdapter}

theorem Released.refl (a : PaperExecutionAdapter) : Released a a :=
  ⟨rfl, rfl, fun _ _ => .inl ⟨rfl, rfl⟩⟩

theorem Released.trans (h : Released a a') (h' : Released a' a'') : Released a a'' := by
  refine ⟨h'.venueId.trans h.venueId, h'.slippageBps.trans h.slippageBps, fun acct o => ?_⟩
  rcases h'.position acct o with ⟨hq', havg'⟩ | hflat'
  · rcases h.position acct o with ⟨hq, havg⟩ | ⟨hq, havg⟩
    · exact .inl ⟨hq'.trans hq, havg'.trans havg⟩
    · exact .inr ⟨hq'.trans hq, havg'.trans havg⟩
  · exact .inr hflat'

/-- Releasing one outcome of every account. -/
theorem released_of_movement (hv : a'.venueId = a.venueId)
    (hslip : a'.slippageBps = a.slippageBps) (o : OutcomeId)
    (h : ∀ acct, a'.account acct = a.account acct ∨
      ∃ dCash dRealized fees', AccountState.Movement a.venueId o (a.account acct)
        (a'.account acct) dCash dRealized 0 0 fees') : Released a a' := by
  refine ⟨hv, hslip, fun acct j => ?_⟩
  rcases h acct with hsame | ⟨_, _, _, m⟩
  · exact .inl ⟨by rw [hsame], by rw [hsame]⟩
  · by_cases hj : j = o
    · exact .inr ⟨by rw [hj, m.qty], by rw [hj, m.avg]⟩
    · exact .inl ⟨m.qty_off j hj, m.avg_off j hj⟩

theorem released_settle (a : PaperExecutionAdapter) (o : OutcomeId) (value : ℚ)
    (source : String) : Released a (a.settleOutcomeAsync o value source).1 := by
  refine released_of_movement rfl rfl o fun acct => ?_
  rw [account_settleOutcomeAsync]
  by_cases hq : (a.account acct).qty o = 0
  · exact .inl (AccountState.settle_of_qty_zero hq)
  · exact .inr ⟨_, _, _, AccountState.movement_settle _ _ _ _ hq⟩

theorem released_close (a : PaperExecutionAdapter) (o : OutcomeId) :
    Released a (a.closeAlreadySettled o).1 := by
  refine released_of_movement rfl rfl o fun acct => ?_
  rw [account_closeAlreadySettled]
  split
  · exact .inl rfl
  · exact .inr ⟨_, _, _, AccountState.movement_closeOut _ a.venueId _⟩

end PaperExecutionAdapter

open PaperExecutionAdapter (Released released_settle released_close)

/-- What a stretch of a service changes: positions released on the brokers,
and the memory of `AutoSettleService`. -/
structure AppState.Serviced (s s' : AppState) : Prop where
  brokers : s.brokers.Related Released s'.brokers
  book : s'.book = s.book
  engine : s'.engine = s.engine
  eventGroups : s'.eventGroups = s.eventGroups

namespace AppState

variable {s s' s'' : AppState} {t : Instant}

theorem Serviced.refl (s : AppState) : Serviced s s :=
  ⟨.refl Released.refl s.brokers, rfl, rfl, rfl⟩

theorem Serviced.trans (h : Serviced s s') (h' : Serviced s' s'') : Serviced s s'' :=
  ⟨.trans Released.trans h.brokers h'.brokers, h'.book.trans h.book, h'.engine.trans h.engine,
    h'.eventGroups.trans h.eventGroups⟩

theorem serviced_autoSettle (s : AppState) (autoSettle : AutoSettleService) :
    Serviced s { s with autoSettle := autoSettle } :=
  ⟨.refl Released.refl s.brokers, rfl, rfl, rfl⟩

theorem serviced_settleAt (s : AppState) (v : VenueId) (o : OutcomeId) (value : ℚ)
    (source : String) : Serviced s { s with brokers := s.brokers.settleAt v o value source } :=
  ⟨s.brokers.related_modify Released.refl v (fun a => released_settle a o value source)
    fun _ => rfl, rfl, rfl, rfl⟩

theorem serviced_close (s : AppState) (v : VenueId) (o : OutcomeId) :
    Serviced s { s with brokers := s.brokers.modify v fun a => (a.closeAlreadySettled o).1 } :=
  ⟨s.brokers.related_modify Released.refl v (fun a => released_close a o) fun _ => rfl,
    rfl, rfl, rfl⟩

theorem serviced_settleFinal (s : AppState) (t : Instant) (group : EventGroup) :
    Serviced s (s.settleFinal t group).1 := by
  unfold settleFinal
  split
  · exact .refl s
  · split
    · exact serviced_autoSettle s _
    · exact .refl s

theorem serviced_settlePinned (s : AppState) (t : Instant) (gid : GroupId) (group : EventGroup) :
    Serviced s (s.settlePinned t gid group).1 := by
  unfold settlePinned
  split <;> exact serviced_autoSettle s _

theorem serviced_judge (s : AppState) (t : Instant) (item : TickItem) :
    Serviced s (s.judge t item).1 := by
  cases item with
  | retired gid group =>
      simp only [judge]
      split
      · exact serviced_autoSettle s _
      · exact (serviced_autoSettle s _).trans (serviced_settleFinal _ t group)
  | registered gid group =>
      simp only [judge]
      split
      · exact serviced_autoSettle s _
      · split
        · exact (serviced_autoSettle s _).trans (serviced_settleFinal _ t group)
        · split
          · exact serviced_autoSettle s _
          · exact (serviced_autoSettle s _).trans (serviced_settlePinned _ t gid group)

theorem serviced_settleNext (s : AppState) (st : Settling) :
    Serviced s (s.settleNext st).1 := by
  unfold settleNext
  split
  · exact serviced_autoSettle s _
  · exact serviced_settleAt ..

theorem serviced_goTick (t : Instant) (s : AppState) (agenda : List TickItem) :
    Serviced s (goTick t s agenda).state := by
  induction agenda generalizing s with
  | nil => exact .refl s
  | cons item agenda ih =>
      have hjudge := serviced_judge s t item
      unfold goTick
      split
      · rename_i s₁ hj
        rw [hj] at hjudge
        exact hjudge.trans (ih s₁)
      · rename_i s₁ st hj
        rw [hj] at hjudge
        have hnext := serviced_settleNext s₁ st
        split
        · rename_i s₂ hn
          rw [hn] at hnext
          exact (hjudge.trans hnext).trans (ih s₂)
        · rename_i s₂ st' v o hn
          rw [hn] at hnext
          exact hjudge.trans hnext

/-- **A tick** releases positions and changes nothing else of the trade. -/
theorem serviced_tick (s : AppState) (t : Instant) (at_ : Option TickAt) :
    Serviced s (s.tick t at_).state := by
  unfold tick
  split
  · exact serviced_goTick ..
  · rename_i at_
    have hnext := serviced_settleNext s at_.settling
    split
    · rename_i s₁ hn
      rw [hn] at hnext
      exact hnext.trans (serviced_goTick ..)
    · rename_i s₁ st v o hn
      rw [hn] at hnext
      exact hnext

theorem serviced_closeGroup (s : AppState) (v : VenueId) (o : OutcomeId) :
    Serviced s (s.closeGroup v o) := by
  unfold closeGroup
  split
  · exact serviced_autoSettle s _
  · exact .refl s

/-- **A pass** likewise. -/
theorem serviced_pass (s : AppState) (t : Instant) (answer : PassAnswer) (at_ : Option PassAt) :
    Serviced s (s.pass t answer at_).state := by
  unfold pass
  split
  · exact .refl s
  · split
    · exact .refl s
    · split
      · split
        · exact serviced_close ..
        · exact .refl s
      · split
        · exact .refl s
        · exact serviced_settleAt ..
      · exact serviced_closeGroup ..
      · exact .refl s
      · split
        · split
          · exact .refl s
          · exact serviced_settleAt ..
        · exact .refl s
      · exact serviced_closeGroup ..

end AppState

end Arbys
