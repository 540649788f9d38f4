import Arbys.AppState
import Arbys.Discovery.Matcher
import Arbys.Discovery.PolymarketUs

/-!
# The discovery service

`discovery/service.py`: the sub-passes over both venues, their results put
together with the `complete` flag, and what `run_once` then does with them.
Each sub-pass asks the venues anew, so the venues it meets are its own.
-/

namespace Arbys

/-- The team tables of `discovery/teams.py`. -/
structure Rosters where
  mlb : TeamResolver
  nfl : TeamResolver
  nba : TeamResolver
  wnba : TeamResolver
  cfb : TeamResolver

namespace Rosters

/-- `TEAM_SPORTS`. -/
def teamSports (r : Rosters) : List (String × TeamResolver) :=
  [("mlb", r.mlb), ("nfl", r.nfl), ("nba", r.nba), ("wnba", r.wnba), ("ncaaf", r.cfb)]

/-- `TOTALS_SPORTS`. -/
def totalsSports (r : Rosters) : List (String × TeamResolver) :=
  [("nfl", r.nfl), ("mlb", r.mlb), ("wnba", r.wnba), ("ncaaf", r.cfb)]

/-- `SPREADS_SPORTS`. -/
def spreadsSports (r : Rosters) : List (String × TeamResolver) :=
  [("nfl", r.nfl), ("mlb", r.mlb), ("ncaaf", r.cfb)]

end Rosters

/-- A sub-pass. -/
inductive Pass where
  | team (sport : String) (resolver : TeamResolver)
  | totals (sport : String) (resolver : TeamResolver)
  | tennis
  | ufc
  | spreads (sport : String) (resolver : TeamResolver)

/-- What a run of discovery meets: the library's tables, the configuration,
and the date and the venues of each sub-pass. -/
structure DiscoveryWorld where
  locale : Locale
  rosters : Rosters
  spreadsEnabled : Bool := true
  calendar : Pass → Calendar
  client : Pass → Client

/-- `_discover_pair`. -/
def discoverPair (z : Calendar) (kalshi poly : Fetch (List VenueGame)) (dateTol : ℤ) :
    Fetch (List EventGroup) := do
  let (kalshiGames, polyGames) ← Logged.both kalshi poly
  pure ((matchGames [z.filterHorizon kalshiGames, z.filterHorizon polyGames] dateTol).map
    matchToEventGroup)

/-- `discover_team_sport_event_groups`, `discover_totals_event_groups`,
`discover_tennis_event_groups`, `discover_ufc_event_groups` and
`discover_spreads_event_groups`. -/
def Pass.discover (L : Locale) (z : Calendar) (client : Client) : Pass → Fetch (List EventGroup)
  | .team sport resolver =>
      discoverPair z (fetchKalshiTeamGames L z client resolver sport)
        (fetchPolymarketUsGames L client resolver sport) 0
  | .totals sport resolver =>
      discoverPair z (fetchKalshiTotals L z client resolver sport)
        (fetchPolymarketUsTotals L client resolver sport) 0
  | .tennis =>
      discoverPair z (fetchKalshiTennisMatches L z client tennisSeries)
        (fetchPolymarketUsTennis L client tennisLeagues tennisWinnerTypes) 1
  | .ufc =>
      discoverPair z (fetchKalshiTennisMatches L z client ufcSeries)
        (fetchPolymarketUsTennis L client ufcLeagues ufcWinnerTypes) 1
  | .spreads sport resolver =>
      discoverPair z (fetchKalshiSpreads L z client resolver sport)
        (fetchPolymarketUsSpreads L client resolver sport) 0

/-- What `discover_all_event_groups` returns, with the requests it made. -/
structure Discovered where
  groups : List EventGroup
  complete : Bool
  calls : List Call

namespace DiscoveryWorld

def passes (w : DiscoveryWorld) : List Pass :=
  w.rosters.teamSports.map (fun s => .team s.1 s.2) ++
    w.rosters.totalsSports.map (fun s => .totals s.1 s.2) ++ [.tennis, .ufc] ++
    if w.spreadsEnabled then w.rosters.spreadsSports.map (fun s => .spreads s.1 s.2) else []

def discover (w : DiscoveryWorld) (pass : Pass) : Fetch (List EventGroup) :=
  pass.discover w.locale (w.calendar pass) (w.client pass)

/-- `discover_all_event_groups`: a sub-pass that raised adds no group, and the
result is then not complete. -/
def discoverAll (w : DiscoveryWorld) : Discovered where
  groups := w.passes.flatMap fun pass => (w.discover pass).value.getD []
  complete := w.passes.all fun pass => (w.discover pass).value.isSome
  calls := w.passes.flatMap fun pass => (w.discover pass).calls

end DiscoveryWorld

/-! ## One pass of the service -/

/-- `GROUP_WRITE_BATCH`. -/
def groupWriteBatch : ℕ := 5

/-- `_batch`. -/
def batch {α : Type} (items : List α) (size : ℕ) : List (List α) :=
  (List.range ((items.length + size - 1) / size)).map fun i => (items.drop (i * size)).take size

/-- Which writes of a pass the database commits: the `n`-th batch of upserts,
and the delete of a group. -/
structure PassWrites where
  upserts : ℕ → Bool
  deletes : GroupId → Bool

/-- What a pass leaves: the state, the groups it retired, and whether
`sync_ingest` is due. -/
structure PassResult where
  state : AppState
  retired : List GroupId := []
  changed : Bool := false

namespace AppState

/-- The groups a pass has to write, each with the one it replaces. -/
def pendingGroups (s : AppState) (groups : List EventGroup) :
    List (EventGroup × Option EventGroup) :=
  (groups.map fun g => (g, s.eventGroups.get? g.id)).filter fun e => e.2 ≠ some e.1

/-- Register a group of a committed batch; `existing` was read when the pass began. -/
def upsertGroup (s : AppState) (e : EventGroup × Option EventGroup) : AppState :=
  match e.2 with
  | none => s.registerGroup e.1
  | some _ => AppState.registerGroup { s with engine := s.engine.unregisterGroup e.1.id } e.1

/-- The loop over the batches. -/
def upsertBatches (s : AppState) (writes : PassWrites)
    (batches : List (ℕ × List (EventGroup × Option EventGroup))) : PassResult :=
  batches.foldl (fun r b =>
    if writes.upserts b.1 then
      { state := b.2.foldl upsertGroup r.state, changed := r.changed || b.2 ≠ [] }
    else r) { state := s }

/-- The groups `_retire_missing` goes for. -/
def staleGroups (s : AppState) (foundIds : List GroupId) : List GroupId :=
  (s.eventGroups.entries.filter fun e => e.1 ∉ foundIds ∧ e.2.source = "discovery").map Prod.fst

/-- `_retire_missing`: a group goes once its delete is committed. -/
def retireMissing (s : AppState) (writes : PassWrites) (foundIds : List GroupId) : PassResult :=
  let retired := (s.staleGroups foundIds).filter writes.deletes
  { state := retired.foldl (fun s gid => (s.retireGroup gid).clearGroupOpportunities gid) s
    retired, changed := retired ≠ [] }

/-- `run_once`. -/
def runOnce (s : AppState) (found : Discovered) (writes : PassWrites) : PassResult :=
  let upserted := s.upsertBatches writes
    ((batch (s.pendingGroups found.groups) groupWriteBatch).zipIdx.map Prod.swap)
  if found.complete then
    let r := upserted.state.retireMissing writes (found.groups.map (·.id))
    { r with changed := upserted.changed || r.changed }
  else upserted

end AppState

end Arbys
