import Arbys.Discovery.Service
import Arbys.Discovery.SpreadSides

/-!
# Which failed requests a discovery pass reports

`complete` comes back false when a sub-pass raised. A fetcher that raises on
a failed answer reports it; one that skips what it could not read does not,
and a group it then does not find is retired. Each fetcher is `Accounted` for
its fatal requests, and so is the whole pass.
-/

namespace Arbys

/-- The requests whose answer is checked by `raise_for_status`. -/
def CallKind.strict : CallKind → Bool
  | .teamEvents | .teamMarkets | .totalsEvents | .spreadsEvents | .leagueEvents => true
  | .totalsMarkets | .spreadsMarkets | .tennisEvents | .tennisMarkets => false

namespace Call

/-- A request that failed: an exception, or an answer other than 200. -/
def Failed (c : Call) : Prop :=
  match c.outcome with
  | .raised => True
  | .answered status readable => status ≠ 200 ∨ readable = false

/-- A request whose failure is an exception of its fetcher. -/
def Fatal (c : Call) : Prop :=
  match c.outcome with
  | .raised => True
  | .answered status readable =>
      if c.kind.strict then ¬ (200 ≤ status ∧ status < 300) ∨ readable = false
      else status = 200 ∧ readable = false

theorem Fatal.failed {c : Call} (h : c.Fatal) : c.Failed := by
  obtain ⟨kind, target, outcome⟩ := c
  cases outcome with
  | raised => trivial
  | answered status readable =>
      simp only [Fatal] at h
      show status ≠ 200 ∨ readable = false
      split at h
      · rcases h with h | h
        · left
          omega
        · exact Or.inr h
      · exact Or.inr h.2

end Call

open Logged

theorem accounted_readOrRaise {β : Type} {kind : CallKind} (hkind : kind.strict = true)
    (target : String) (reply : Reply β) : Accounted Call.Fatal (readOrRaise kind target reply) := by
  apply accounted_call
  cases reply with
  | raised => simp [Call.Fatal, Reply.outcome]
  | answered status retryAfter body => cases body <;> simp [Call.Fatal, Reply.outcome, hkind]

theorem accounted_readOrSkip {β : Type} {kind : CallKind} (hkind : kind.strict = false)
    (target : String) (reply : Reply β) : Accounted Call.Fatal (readOrSkip kind target reply) := by
  apply accounted_call
  cases reply with
  | raised => simp [Call.Fatal, Reply.outcome]
  | answered status retryAfter body =>
      by_cases hstatus : status = 200 <;> cases body <;>
        simp [Call.Fatal, Reply.outcome, hkind, hstatus]

/-! ## The fetchers -/

section Fetchers

variable (L : Locale) (z : Calendar) (client : Client) (resolver : TeamResolver)

theorem accounted_parseKalshiEvent (sport series : String) (event : KalshiEvent) (position : ℕ) :
    Accounted Call.Fatal (parseKalshiEvent L z client resolver sport series event position) := by
  unfold parseKalshiEvent
  simp only
  split
  · exact accounted_pure _
  · split
    · exact accounted_pure _
    · split
      · exact accounted_pure _
      · exact (accounted_readOrRaise rfl _ _).bind fun _ _ => accounted_pure _

theorem accounted_parseTotalsEvent (sport series : String) (event : KalshiEvent) (position : ℕ) :
    Accounted Call.Fatal (parseTotalsEvent L z client resolver sport series event position) := by
  unfold parseTotalsEvent
  simp only
  split
  · exact accounted_pure _
  · split
    · exact accounted_pure _
    · exact (accounted_readOrSkip rfl _ _).bind fun _ _ => accounted_pure _

theorem accounted_parseSpreadEvent (sport series : String) (event : KalshiEvent) (position : ℕ) :
    Accounted Call.Fatal (parseSpreadEvent L z client resolver sport series event position) := by
  unfold parseSpreadEvent
  simp only
  split
  · exact accounted_pure _
  · split
    · exact accounted_pure _
    · exact (accounted_readOrSkip rfl _ _).bind fun _ _ => accounted_pure _

theorem accounted_parseKalshiTennisEvent (sport series : String) (event : KalshiEvent)
    (position : ℕ) :
    Accounted Call.Fatal (parseKalshiTennisEvent L z client sport series event position) := by
  unfold parseKalshiTennisEvent
  simp only
  split
  · exact accounted_pure _
  · split
    · exact accounted_pure _
    · refine (accounted_readOrSkip rfl _ _).bind fun _ _ => ?_
      split <;> exact accounted_pure _

theorem accounted_fetchKalshiTeamGames {sport series : String}
    (h : seriesTickers.get? sport = some series) :
    Accounted Call.Fatal (fetchKalshiTeamGames L z client resolver sport) := by
  unfold fetchKalshiTeamGames
  rw [h]
  exact (accounted_readOrRaise rfl _ _).bind fun _ _ =>
    (Accounted.forEach fun e : KalshiEvent × ℕ =>
      accounted_parseKalshiEvent L z client resolver sport series e.1 e.2).bind
      fun _ _ => accounted_pure _

theorem accounted_fetchKalshiTotals {sport series : String}
    (h : totalsSeries.get? sport = some series) :
    Accounted Call.Fatal (fetchKalshiTotals L z client resolver sport) := by
  unfold fetchKalshiTotals
  rw [h]
  exact (accounted_readOrRaise rfl _ _).bind fun _ _ =>
    (Accounted.forEach fun e : KalshiEvent × ℕ =>
      accounted_parseTotalsEvent L z client resolver sport series e.1 e.2).bind
      fun _ _ => accounted_pure _

theorem accounted_fetchKalshiSpreads {sport series : String}
    (h : spreadsSeries.get? sport = some series) :
    Accounted Call.Fatal (fetchKalshiSpreads L z client resolver sport) := by
  unfold fetchKalshiSpreads
  rw [h]
  exact (accounted_readOrRaise rfl _ _).bind fun _ _ =>
    (Accounted.forEach fun e : KalshiEvent × ℕ =>
      accounted_parseSpreadEvent L z client resolver sport series e.1 e.2).bind
      fun _ _ => accounted_pure _

theorem accounted_fetchKalshiTennisMatches (series : List (String × String)) :
    Accounted Call.Fatal (fetchKalshiTennisMatches L z client series) := by
  unfold fetchKalshiTennisMatches
  refine Accounted.bind (Accounted.forEach fun s => ?_) fun _ _ => accounted_pure _
  exact (accounted_readOrSkip rfl _ _).bind fun _ _ =>
    Accounted.forEach fun e : KalshiEvent × ℕ =>
      accounted_parseKalshiTennisEvent L z client s.1 s.2 e.1 e.2

theorem accounted_fetchEvents (league : String) :
    Accounted Call.Fatal (fetchEvents client league) :=
  accounted_readOrRaise rfl _ _

theorem accounted_fetchPolymarketUsGames (sport : String) :
    Accounted Call.Fatal (fetchPolymarketUsGames L client resolver sport) :=
  (accounted_fetchEvents client _).bind fun _ _ => accounted_pure _

theorem accounted_fetchPolymarketUsTotals (sport : String) :
    Accounted Call.Fatal (fetchPolymarketUsTotals L client resolver sport) :=
  (accounted_fetchEvents client _).bind fun _ _ => accounted_pure _

theorem accounted_fetchPolymarketUsSpreads (sport : String) :
    Accounted Call.Fatal (fetchPolymarketUsSpreads L client resolver sport) :=
  (accounted_fetchEvents client _).bind fun _ _ => accounted_pure _

theorem accounted_fetchPolymarketUsTennis (leagues winnerTypes : List String) :
    Accounted Call.Fatal (fetchPolymarketUsTennis L client leagues winnerTypes) := by
  unfold fetchPolymarketUsTennis
  refine Accounted.bind (Accounted.forEach fun league => ?_) fun _ _ => accounted_pure _
  exact (accounted_fetchEvents client league).bind fun _ _ => accounted_pure _

theorem accounted_discoverPair {kalshi poly : Fetch (List VenueGame)} (dateTol : ℤ)
    (hkalshi : Accounted Call.Fatal kalshi) (hpoly : Accounted Call.Fatal poly) :
    Accounted Call.Fatal (discoverPair z kalshi poly dateTol) :=
  (hkalshi.both hpoly).bind fun _ _ => accounted_pure _

end Fetchers

/-! ## The pass -/

namespace DiscoveryWorld

/-- The sports of the sub-passes have a series. -/
theorem teamSports_series (w : DiscoveryWorld) {s : String × TeamResolver}
    (h : s ∈ w.rosters.teamSports) : (seriesTickers.get? s.1).isSome := by
  simp only [Rosters.teamSports, List.mem_cons, List.not_mem_nil, or_false] at h
  rcases h with rfl | rfl | rfl | rfl | rfl <;> exact rfl

theorem totalsSports_series (w : DiscoveryWorld) {s : String × TeamResolver}
    (h : s ∈ w.rosters.totalsSports) : (totalsSeries.get? s.1).isSome := by
  simp only [Rosters.totalsSports, List.mem_cons, List.not_mem_nil, or_false] at h
  rcases h with rfl | rfl | rfl | rfl <;> exact rfl

theorem spreadsSports_series (w : DiscoveryWorld) {s : String × TeamResolver}
    (h : s ∈ w.rosters.spreadsSports) : (spreadsSeries.get? s.1).isSome := by
  simp only [Rosters.spreadsSports, List.mem_cons, List.not_mem_nil, or_false] at h
  rcases h with rfl | rfl | rfl <;> exact rfl

theorem mem_passes {w : DiscoveryWorld} {pass : Pass} (h : pass ∈ w.passes) :
    (∃ s ∈ w.rosters.teamSports, pass = .team s.1 s.2) ∨
    (∃ s ∈ w.rosters.totalsSports, pass = .totals s.1 s.2) ∨ pass = .tennis ∨ pass = .ufc ∨
    ∃ s ∈ w.rosters.spreadsSports, pass = .spreads s.1 s.2 := by
  simp only [passes, List.append_assoc, List.mem_append, List.mem_map, List.mem_cons,
    List.not_mem_nil, or_false] at h
  rcases h with ⟨s, hs, rfl⟩ | ⟨s, hs, rfl⟩ | (rfl | rfl) | h
  · exact Or.inl ⟨s, hs, rfl⟩
  · exact Or.inr (Or.inl ⟨s, hs, rfl⟩)
  · exact Or.inr (Or.inr (Or.inl rfl))
  · exact Or.inr (Or.inr (Or.inr (Or.inl rfl)))
  · split at h
    · obtain ⟨s, hs, rfl⟩ := List.mem_map.mp h
      exact Or.inr (Or.inr (Or.inr (Or.inr ⟨s, hs, rfl⟩)))
    · cases h

theorem accounted_discover (w : DiscoveryWorld) {pass : Pass} (h : pass ∈ w.passes) :
    Accounted Call.Fatal (w.discover pass) := by
  unfold discover
  rcases mem_passes h with ⟨s, hs, rfl⟩ | ⟨s, hs, rfl⟩ | rfl | rfl | ⟨s, hs, rfl⟩
  · obtain ⟨series, hseries⟩ := Option.isSome_iff_exists.mp (w.teamSports_series hs)
    exact accounted_discoverPair _ _ (accounted_fetchKalshiTeamGames _ _ _ _ hseries)
      (accounted_fetchPolymarketUsGames _ _ _ _)
  · obtain ⟨series, hseries⟩ := Option.isSome_iff_exists.mp (w.totalsSports_series hs)
    exact accounted_discoverPair _ _ (accounted_fetchKalshiTotals _ _ _ _ hseries)
      (accounted_fetchPolymarketUsTotals _ _ _ _)
  · exact accounted_discoverPair _ _ (accounted_fetchKalshiTennisMatches _ _ _ _)
      (accounted_fetchPolymarketUsTennis _ _ _ _)
  · exact accounted_discoverPair _ _ (accounted_fetchKalshiTennisMatches _ _ _ _)
      (accounted_fetchPolymarketUsTennis _ _ _ _)
  · obtain ⟨series, hseries⟩ := Option.isSome_iff_exists.mp (w.spreadsSports_series hs)
    exact accounted_discoverPair _ _ (accounted_fetchKalshiSpreads _ _ _ _ hseries)
      (accounted_fetchPolymarketUsSpreads _ _ _ _)

/-- **A pass is incomplete exactly if one of its requests was fatal.** -/
theorem complete_eq_false_iff (w : DiscoveryWorld) :
    w.discoverAll.complete = false ↔ ∃ c ∈ w.discoverAll.calls, c.Fatal := by
  simp only [discoverAll, List.all_eq_false, List.mem_flatMap]
  constructor
  · rintro ⟨pass, hpass, hvalue⟩
    obtain ⟨c, hc, hfatal⟩ := (w.accounted_discover hpass).mp (by simpa using hvalue)
    exact ⟨c, ⟨pass, hpass, hc⟩, hfatal⟩
  · rintro ⟨c, ⟨pass, hpass, hc⟩, hfatal⟩
    refine ⟨pass, hpass, ?_⟩
    simpa using (w.accounted_discover hpass).mpr ⟨c, hc, hfatal⟩

end DiscoveryWorld

theorem AppState.retired_upsertBatches (s : AppState) (writes : PassWrites)
    (batches : List (ℕ × List (EventGroup × Option EventGroup))) :
    (s.upsertBatches writes batches).retired = [] := by
  unfold upsertBatches
  refine List.foldlRecOn (motive := fun r : PassResult => r.retired = []) batches _ rfl ?_
  intro r hr b _
  split
  · rfl
  · exact hr

/-- An incomplete pass retires nothing. -/
theorem AppState.retired_runOnce (s : AppState) {found : Discovered} (writes : PassWrites)
    (h : found.complete = false) : (s.runOnce found writes).retired = [] := by
  simp [runOnce, h, retired_upsertBatches]

/-- A failed request leaves the pass incomplete, and nothing is retired on it. -/
def ErrorIsNoDelisting (w : DiscoveryWorld) : Prop :=
  (∃ c ∈ w.discoverAll.calls, c.Failed) →
    w.discoverAll.complete = false ∧
      ∀ (s : AppState) writes, (s.runOnce w.discoverAll writes).retired = []

/-- **A venue error is not read as a delisting** exactly if some failed
request is fatal whenever some request failed. -/
theorem errorIsNoDelisting_iff (w : DiscoveryWorld) :
    ErrorIsNoDelisting w ↔
      ((∃ c ∈ w.discoverAll.calls, c.Failed) → ∃ c ∈ w.discoverAll.calls, c.Fatal) := by
  constructor
  · intro h hfailed
    exact w.complete_eq_false_iff.mp (h hfailed).1
  · intro h hfailed
    have hcomplete := w.complete_eq_false_iff.mpr (h hfailed)
    exact ⟨hcomplete, fun s writes => s.retired_runOnce writes hcomplete⟩

/-! ## A totals ladder that answers 500 -/

namespace TotalsOutage

def quiet : Client where
  kalshiEvents _ _ := .answered 200 none (some [])
  kalshiMarkets _ _ _ _ := .answered 200 none (some [])
  leagueEvents _ := .answered 200 none (some [])

/-- Kalshi lists the game and fails to list its totals; every other request is
answered. -/
def client : Client where
  kalshiEvents _ _ := .answered 200 none (some [{ eventTicker := some "KXNFLTOTAL-26SEP13NESEA" }])
  kalshiMarkets _ _ _ _ := .answered 500 none none
  leagueEvents _ := .answered 200 none (some [])

def world : DiscoveryWorld where
  locale := Seattle.locale
  rosters := ⟨Seattle.resolver, Seattle.resolver, Seattle.resolver, Seattle.resolver,
    Seattle.resolver⟩
  calendar _ := Seattle.calendar
  client
    | .totals "nfl" _ => client
    | _ => quiet

/-- The group an earlier pass found. -/
def group : EventGroup where
  id := "nfl-NE-SEA-2026-09-13-total-44.5"
  legs := [⟨"KXNFLTOTAL-26SEP13NESEA-45:YES", "kalshi", true⟩,
    ⟨"KXNFLTOTAL-26SEP13NESEA-45:NO", "kalshi", false⟩,
    ⟨"tsc-nfl-ne-sea-44pt5:LONG", "polymarket_us", true⟩,
    ⟨"tsc-nfl-ne-sea-44pt5:SHORT", "polymarket_us", false⟩]
  source := "discovery"

def state : AppState := TwoVenues.state.registerGroup group

end TotalsOutage

open TotalsOutage in
/-- The pass is complete, and the group of the live game is retired. -/
theorem not_errorIsNoDelisting_totals : ¬ ErrorIsNoDelisting world := by
  intro h
  have hretired : (state.runOnce world.discoverAll ⟨fun _ => true, fun _ => true⟩).retired =
      [group.id] := by decide +kernel
  have hfailed : ∃ c ∈ world.discoverAll.calls, c.Failed :=
    ⟨⟨.totalsMarkets, "KXNFLTOTAL-26SEP13NESEA", .answered 500 false⟩, by decide +kernel,
      Or.inl (by decide)⟩
  exact absurd (hretired.symm.trans ((h hfailed).2 state _)) (by simp)

end Arbys
