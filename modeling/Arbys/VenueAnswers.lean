import Arbys.Adapters.Settlement
import Arbys.VenueSettlePass

/-!
# What one venue answer can do to a pass

The lookups of `adapters/settlement.py` as the resolvers of a pass, over an
assignment of responses to the outcomes. A pass looks its outcomes up one after
another and stops where a lookup raises, so the answers have to be read without
raising for the pass to get to the outcomes behind them, and
`unblocked_iff` says that this is all they have to be.
-/

namespace Arbys

namespace VenuePass

open DecimalArith (Number)
open PyJson (Raised)
open Runs Settlement

/-- The responses the lookup of each outcome on each venue gets. -/
abbrev VenueAnswers := VenueId → OutcomeId → Answers

/-- The sides of a venue's markets, the one its results are about first. -/
def sidesOf (v : VenueId) : Option (String × String) :=
  if v = "kalshi" then some ("YES", "NO")
  else if v = "polymarket_us" then some ("LONG", "SHORT")
  else none

/-- The resolver of a venue. -/
def lookup (v : VenueId) : Answers → OutcomeId → Except Raised (Option Number) :=
  if v = "kalshi" then fetchKalshiSettlement
  else if v = "polymarket_us" then fetchPolymarketUsSettlement
  else fun _ _ => .ok none

/-- A finite value. -/
def payout : Number → ℚ
  | .num q => q
  | _ => 0

/-- The resolvers, on what the venues answer. -/
def resolveBy (answers : VenueAnswers) : Resolve := fun v o =>
  match lookup v (answers v o) o with
  | .ok value => .ok (value.map payout)
  | .error e => .error e

/-- The answers of a lookup are of a kind its reader raises on. -/
def Misanswers (v : VenueId) (answers : Answers) (o : OutcomeId) : Prop :=
  v = "kalshi" ∧ Misanswered "YES" "NO" KalshiMisread answers o ∨
    v = "polymarket_us" ∧ Misanswered "LONG" "SHORT" PolymarketUsMisread answers o

/-- The answers of a lookup are final and valid: the outcome is paid `q`. -/
def PaysAt (v : VenueId) (answers : Answers) (o : OutcomeId) (q : ℚ) : Prop :=
  v = "kalshi" ∧ Pays "YES" "NO" KalshiPays answers o q ∨
    v = "polymarket_us" ∧ Pays "LONG" "SHORT" PolymarketUsPays answers o q

section Lookup

variable {v w : VenueId} {a : Answers} {o o' : OutcomeId} {q q' : ℚ}

theorem lookup_raises_iff : (∃ e, lookup v a o = .error e) ↔ Misanswers v a o := by
  unfold lookup Misanswers
  split_ifs with hk hp
  · subst hk
    rw [fetchKalshiSettlement, fetchSettlement_raises_iff reads_kalshi]
    simp
  · subst hp
    rw [fetchPolymarketUsSettlement, fetchSettlement_raises_iff reads_polymarketUs]
    simp
  · simp [hk, hp]

theorem lookup_returns_iff {value : Number} :
    lookup v a o = .ok (some value) ↔ ∃ q, value = .num q ∧ PaysAt v a o q := by
  unfold lookup PaysAt
  split_ifs with hk hp
  · subst hk
    rw [fetchKalshiSettlement, fetchSettlement_returns_iff reads_kalshi]
    simp
  · subst hp
    rw [fetchPolymarketUsSettlement, fetchSettlement_returns_iff reads_polymarketUs]
    simp
  · simp [hk, hp]

theorem PaysAt.range (h : PaysAt v a o q) : 0 ≤ q ∧ q ≤ 1 := by
  rcases h with ⟨-, h⟩ | ⟨-, h⟩
  · exact h.range reads_kalshi
  · exact h.range reads_polymarketUs

/-- An outcome is a side of a market on one venue only. -/
theorem PaysAt.venue_eq {a' : Answers} (h : PaysAt v a o q) (h' : PaysAt w a' o q') : v = w := by
  have hsides : ∀ {side side' : String}, IsSide "YES" "NO" o side →
      ¬ IsSide "LONG" "SHORT" o side' := by
    rintro side side' ⟨⟨m, hm⟩, hside⟩ ⟨⟨m', hm'⟩, hside'⟩
    rw [hm] at hm'
    cases hm'
    rcases hside with rfl | rfl <;> exact absurd hside' (by decide)
  rcases h with ⟨rfl, side, hside, -⟩ | ⟨rfl, side, hside, -⟩ <;>
    rcases h' with ⟨rfl, side', hside', -⟩ | ⟨rfl, side', hside', -⟩
  · rfl
  · exact absurd hside' (hsides hside)
  · exact absurd hside (hsides hside')
  · rfl

theorem resolveBy_eq_some_iff {answers : VenueAnswers} :
    resolveBy answers v o = .ok (some q) ↔ PaysAt v (answers v o) o q := by
  have hreturns : ∀ value, lookup v (answers v o) o = .ok (some value) ↔
      ∃ q, value = .num q ∧ PaysAt v (answers v o) o q := fun _ => lookup_returns_iff
  unfold resolveBy
  constructor
  · intro h
    split at h
    · rename_i value hlookup
      cases value with
      | none => cases h
      | some value =>
          obtain ⟨q', rfl, hpays⟩ := (hreturns value).mp hlookup
          cases h
          exact hpays
    · cases h
  · intro h
    rw [(hreturns (.num q)).mpr ⟨q, rfl, h⟩]
    rfl

theorem resolveBy_returns {answers : VenueAnswers} (h : ¬ Misanswers v (answers v o) o) :
    ∃ value, resolveBy answers v o = .ok value := by
  unfold resolveBy
  split
  · exact ⟨_, rfl⟩
  · rename_i e he
    exact absurd (lookup_raises_iff.mp ⟨e, he⟩) h

/-- **The two sides of one market.** -/
theorem lookup_sides {long short market market' : String} (hv : sidesOf v = some (long, short))
    (ho : split o = some (market, long)) (ho' : split o' = some (market', short))
    {value value' : Number} (h : lookup v a o = .ok (some value))
    (h' : lookup v a o' = .ok (some value')) : value.add value' = .ok (.num 1) := by
  unfold sidesOf at hv
  unfold lookup at h h'
  split_ifs at hv h h' with hk hp
  · cases hv
    exact sides_add_up reads_kalshi (by decide) ho ho' h h'
  · cases hv
    exact sides_add_up reads_polymarketUs (by decide) ho ho' h h'

end Lookup

/-! ## A pass under answers that can be read -/

section Pass

variable {answers : VenueAnswers} {s : AppState} {db : LedgerDb} {ts : ℚ}
  {pending : List (VenueId × OutcomeId)} {b b' : VenuePass} {v : VenueId} {o : OutcomeId} {q : ℚ}

/-- No outcome that is held is answered what its reader raises on. -/
def Readable (answers : VenueAnswers) (s : AppState) : Prop :=
  ∀ v ∈ s.resolvers, ∀ o, Holds s v o → ¬ Misanswers v (answers v o) o

/-- The pass has settled the outcome at `q`: it counts it, the row is written,
and no account holds it. -/
structure Settled (ts : ℚ) (b : VenuePass) (v : VenueId) (o : OutcomeId) (q : ℚ) : Prop where
  counted : (v, o, q) ∈ b.result.settled
  row : ⟨o, q, ts, "venue_result"⟩ ∈ b.db.settlements
  closed : ¬ Holds b.app v o

theorem Settled.later (h : Settled ts b v o q) (hlater : Later b b') : Settled ts b' v o q :=
  ⟨hlater.settled _ h.counted, hlater.rows _ h.row, fun hholds => h.closed (hlater.holds hholds)⟩

theorem settled_notePaid (b : VenuePass) (ts : ℚ) (v : VenueId) (o : OutcomeId) (q : ℚ) :
    Settled ts ((b.settle ts v o q).notePaid v o q) v o q where
  counted := List.mem_append_right _ (List.mem_singleton_self _)
  row := List.mem_append_right _ (List.mem_singleton_self _)
  closed := not_holds_settle b ts v o q

/-- A point of the first phase: what it has counted is what the venues pay and
has been settled, and it accounts for the rows that have been added. -/
structure Settling (answers : VenueAnswers) (s : AppState) (db : LedgerDb) (ts : ℚ)
    (b : VenuePass) : Prop where
  later : Later { app := s, db := db } b
  paid : ∀ v o q, (v, o, q) ∈ b.result.settled → PaysAt v (answers v o) o q ∧ Settled ts b v o q
  rows : ∀ o, b.db.hasSettlementRow o = true →
    db.hasSettlementRow o = true ∨ ∃ v q, (v, o, q) ∈ b.result.settled

/-- A point that counts no more and has written no row. -/
theorem Settling.of_later (h : Settling answers s db ts b) (hlater : Later b b')
    (hresult : b'.result.settled = b.result.settled) (hdb : b'.db = b.db) :
    Settling answers s db ts b' where
  later := h.later.trans hlater
  paid := by
    intro v o q hmem
    rw [hresult] at hmem
    obtain ⟨hpays, hsettled⟩ := h.paid v o q hmem
    exact ⟨hpays, hsettled.later hlater⟩
  rows := by
    intro o hrow
    rw [hdb] at hrow
    rw [hresult]
    exact h.rows o hrow

theorem Settling.settle (h : Settling answers s db ts b) (hpays : PaysAt v (answers v o) o q) :
    Settling answers s db ts ((b.settle ts v o q).notePaid v o q) where
  later := h.later.trans ((later_settle b ts v o q).trans (later_notePaid ..))
  paid := by
    intro v' o' q' hmem
    rcases List.mem_append.mp hmem with hmem | hmem
    · obtain ⟨hpays', hsettled⟩ := h.paid v' o' q' hmem
      exact ⟨hpays', hsettled.later ((later_settle b ts v o q).trans (later_notePaid ..))⟩
    · cases List.mem_singleton.mp hmem
      exact ⟨hpays, settled_notePaid b ts v o q⟩
  rows := by
    intro o' hrow
    change (b.settle ts v o q).db.hasSettlementRow o' = true at hrow
    rw [VenuePass.settle, LedgerDb.hasSettlementRow_onSettlement, Bool.or_eq_true,
      decide_eq_true_iff] at hrow
    rcases hrow with hrow | rfl
    · rcases h.rows o' hrow with hrow | ⟨v', q', hmem⟩
      · exact .inl hrow
      · exact .inr ⟨v', q', List.mem_append_left _ hmem⟩
    · exact .inr ⟨v, q, List.mem_append_right _ (List.mem_singleton_self _)⟩

theorem Settling.settleHeld (h : Settling answers s db ts b) (v : VenueId) (o : OutcomeId) :
    Settling answers s db ts (settleHeld (resolveBy answers) ts pending v b o).1 := by
  unfold VenuePass.settleHeld
  split
  · exact h
  · split
    · exact h.of_later (later_closeGhost b v o) rfl rfl
    · split
      · rename_i value hvalue
        exact h.settle (resolveBy_eq_some_iff.mp hvalue)
      · exact h.of_later (later_leave b v o) rfl rfl
      · exact h

/-- The turn of an outcome that can be looked up does not raise. -/
theorem settleHeld_returns (b : VenuePass) (h : ¬ Misanswers v (answers v o) o) :
    (VenuePass.settleHeld (resolveBy answers) ts pending v b o).2 = none := by
  obtain ⟨value, hvalue⟩ := resolveBy_returns h
  unfold VenuePass.settleHeld
  split
  · rfl
  · split
    · rfl
    · rw [hvalue]
      cases value <;> rfl

/-- The turn of an outcome that is paid settles it, or it has been settled. -/
theorem Settling.pays (h : Settling answers s db ts b) (hpending : (v, o) ∉ pending)
    (hrow : db.hasSettlementRow o = false) (hpays : PaysAt v (answers v o) o q) :
    Settled ts (VenuePass.settleHeld (resolveBy answers) ts pending v b o).1 v o q := by
  have hvalue := resolveBy_eq_some_iff.mpr hpays
  cases hstored : b.db.hasSettlementRow o with
  | true =>
      rcases h.rows o hstored with hbefore | ⟨w, q', hmem⟩
      · rw [hrow] at hbefore
        cases hbefore
      · -- the row is that of the outcome's own settlement
        obtain ⟨hpays', hsettled⟩ := h.paid w o q' hmem
        cases hpays.venue_eq hpays'
        have hvalue' := resolveBy_eq_some_iff.mpr hpays'
        rw [hvalue] at hvalue'
        cases hvalue'
        exact hsettled.later (later_settleHeld b v o)
  | false =>
      rw [settleHeld_value hpending hstored hvalue]
      exact settled_notePaid b ts v o q

/-- The first phase gets to every held outcome. -/
theorem turns_of_readable (h : Readable answers s) :
    Turns (resolveBy answers) ts pending { app := s, db := db } (Settling answers s db ts) where
  start := ⟨.refl _, fun _ _ _ hmem => absurd hmem List.not_mem_nil, fun _ hrow => .inl hrow⟩
  later := fun _ hb => hb.later
  remember := fun b held hb => hb.of_later (later_remember b held) rfl rfl
  turn := fun b v o hv ho hb => ⟨hb.settleHeld v o, settleHeld_returns b (h v hv o ho)⟩

/-- A lookup returns no value or one in range. -/
def Returns (v : VenueId) (a : Answers) (o : OutcomeId) : Prop :=
  ∃ value, lookup v a o = .ok value ∧ ∀ n ∈ value, ∃ q, n = .num q ∧ 0 ≤ q ∧ q ≤ 1

theorem returns_iff {a : Answers} : Returns v a o ↔ ¬ Misanswers v a o := by
  rw [← lookup_raises_iff]
  constructor
  · rintro ⟨value, hvalue, -⟩ ⟨e, he⟩
    rw [hvalue] at he
    cases he
  · intro h
    cases hlookup : lookup v a o with
    | error e => exact absurd ⟨e, hlookup⟩ h
    | ok value =>
        refine ⟨value, hlookup, fun n hn => ?_⟩
        cases hn
        obtain ⟨q, rfl, hpays⟩ := lookup_returns_iff.mp hlookup
        exact ⟨q, rfl, hpays.range⟩

/-- **No answer blocks a settlement**: the lookups of what is held return, two
sides of a market add up to 1 under one response, and a pass settles every
outcome that is held, has started, has no row yet, and is paid. -/
structure Unblocked (answers : VenueAnswers) (t : Instant) (s : AppState) (db : LedgerDb) :
    Prop where
  returns : ∀ v ∈ s.resolvers, ∀ o, Holds s v o → Returns v (answers v o) o
  sides : ∀ v long short o o' market, sidesOf v = some (long, short) →
    split o = some (market, long) → split o' = some (market, short) →
    ∀ a value value', lookup v a o = .ok (some value) → lookup v a o' = .ok (some value') →
      value.add value' = .ok (.num 1)
  settles : ∀ v ∈ s.resolvers, ∀ o, Holds s v o → (v, o) ∉ s.notStarted t.utc →
    db.hasSettlementRow o = false → ∀ q, PaysAt v (answers v o) o q →
      Settled t.utc (settleOnce (resolveBy answers) t s db).1 v o q

/-- **One answer blocks a pass where a lookup raises on it, and only there.** -/
theorem unblocked_iff (answers : VenueAnswers) (t : Instant) (s : AppState) (db : LedgerDb) :
    Unblocked answers t s db ↔ Readable answers s := by
  constructor
  · intro h v hv o ho
    exact returns_iff.mp (h.returns v hv o ho)
  · intro h
    refine ⟨fun v hv o ho => returns_iff.mpr (h v hv o ho), ?_, ?_⟩
    · intro v long short o o' market hsides ho ho' a value value' hvalue hvalue'
      exact lookup_sides hsides ho ho' hvalue hvalue'
    · intro v hv o ho hpending hrow q hpays
      have hturns : Turns (resolveBy answers) t.utc (s.notStarted t.utc) { app := s, db := db }
          (Settling answers s db t.utc) := turns_of_readable h
      have hsettled := hturns.reaches (P := fun b => Settled t.utc b v o q) hv ho
        (fun _ _ hlater hb => hb.later hlater) fun b hb => hb.pays hpending hrow hpays
      exact hsettled.later (later_recordPhase _)

/-- Two markets of one venue: `A` is answered a page that is no JSON, `B` is
finalized at `yes`. -/
def answersAB : VenueAnswers := fun _ o _ =>
  if o = "A:YES" then some ⟨200, none, none⟩
  else some ⟨200, none, some (.dict [("market", .dict
    [("status", .str "finalized"), ("result", .str "yes")] "")] "")⟩

/-- Both are held. -/
def holdingAB : AppState :=
  let s := holding "kalshi" "A:YES"
  { s with
    brokers := s.brokers.modify "kalshi" fun a =>
      a.hydratePosition "default" "B:YES" 1 (1 / 2) 0 0 }

/-- No ticket and no settlement row. -/
def noRows : LedgerDb := ⟨[], [], [], [], List.nodup_nil, List.nodup_nil⟩

theorem heldBy_holdingAB {a : PaperExecutionAdapter}
    (ha : holdingAB.brokers.get? "kalshi" = some a) :
    holdingAB.heldBy a = ["A:YES", "B:YES"] := by
  cases ha
  exact List.mergeSort_of_pairwise (by decide)

/-- The lookup of `A` comes first and raises. -/
theorem settleOnce_AB : settleOnce (resolveBy answersAB) ⟨0, 0⟩ holdingAB noRows =
    ({ app := holdingAB, db := noRows,
       heldByVenue := Dict.empty.set "kalshi" ["A:YES", "B:YES"] }, some .valueError) := by
  have hraises : resolveBy answersAB "kalshi" "A:YES" = .error .valueError := by decide +kernel
  have hturn : ∀ b : VenuePass, b.db = noRows →
      settleHeld (resolveBy answersAB) 0 [] "kalshi" b "A:YES" = (b, some .valueError) := by
    intro b hb
    exact settleHeld_error List.not_mem_nil (by rw [hb]; rfl) hraises
  obtain ⟨a, ha⟩ : ∃ a, holdingAB.brokers.get? "kalshi" = some a := ⟨_, rfl⟩
  have hvenue : settleVenue (resolveBy answersAB) 0 [] { app := holdingAB, db := noRows } "kalshi" =
      _ := settleVenue_eq ha (by decide)
  rw [heldBy_holdingAB ha, Runs.loop_cons_error (hturn _ rfl)] at hvenue
  have hphase := Runs.loop_cons_error hvenue []
  change recordPhase _ 0 [] (settlePhase (resolveBy answersAB) 0 [] _) = _
  exact congrArg (recordPhase (resolveBy answersAB) 0 []) hphase

/-- `B` is not paid, on any pass. -/
theorem not_unblocked : ¬ ∀ answers t s db, Unblocked answers t s db := by
  intro hall
  have hheld : Holds holdingAB "kalshi" "B:YES" :=
    ⟨_, rfl, by rw [heldBy_holdingAB rfl]; decide⟩
  have hsettled := (hall answersAB ⟨0, 0⟩ holdingAB noRows).settles "kalshi" (by decide) "B:YES"
    hheld (by decide +kernel) rfl 1 (resolveBy_eq_some_iff.mp (by decide +kernel))
  have hcounted := hsettled.counted
  rw [settleOnce_AB] at hcounted
  cases hcounted

end Pass

end VenuePass

end Arbys
