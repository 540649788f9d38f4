import Arbys.Adapters.PolymarketUsWs
import Arbys.Lib.Budgets
import Arbys.Lib.Runs

/-!
# The shards of the Polymarket US feed

`_connect_and_pump` and `_run_shard`, as moves of one state machine. A move is
what a shard does between two points at which another may run: a frame is read,
one of its quotes is put on the queue, a batch of a sweep is sent. A connection
may be lost at any of them, and another of the same shard is made at any time
after. The moves leave a trace, which no move reads, and the budgets are bounds
on it (`budgets_hold`).
-/

namespace Arbys

namespace PolymarketUsWs

open Runs Budgets
open PyJson
open PolymarketUs (slugOf)

/-! ## The machine -/

/-- Where a connection stands. -/
inductive Phase where
  /-- Waiting in `recv`. -/
  | receiving
  /-- A frame's quotes still to be put on the queue. -/
  | quoting (quotes : List FeedQuote)
  /-- A sweep that found `dark` at `now`, with the messages it has yet to send. -/
  | sweeping (now : ℚ) (dark : List String) (left : List Subscribe)
  deriving DecidableEq

/-- The locals of `_connect_and_pump`. -/
structure Connection where
  attempts : Dict String ℕ := Dict.empty
  nextRepair : ℚ
  phase : Phase := .receiving
  deriving DecidableEq

/-- What the feed has done. -/
inductive Event where
  | connected (index : ℕ)
  | quoted (index : ℕ) (quote : FeedQuote)
  | resubscribed (index : ℕ) (message : Subscribe)
  | escalated (index : ℕ) (now : ℚ) (stuck : List String)
  deriving DecidableEq

/-- The adapter, its connections by shard, and what they have done. -/
structure Feed where
  adapter : Adapter := {}
  connections : Dict ℕ Connection := Dict.empty
  trace : List Event := []
  deriving DecidableEq

/-- A move, with what it reads: the clocks, a frame, the callables. -/
inductive Move where
  /-- `stream_quotes` starts over: every shard is cancelled. -/
  | stream (started : ℚ)
  | connect (index : ℕ) (connectedAt : ℚ)
  /-- `recv` times out. -/
  | timeout (index : ℕ) (now sweepAt : ℚ) (priority : SlugSource)
  /-- A frame arrives, `none` where it is not JSON. -/
  | frame (index : ℕ) (msg : Option Json) (current now : ℚ)
  /-- One quote of the frame goes on the queue. -/
  | deliver (index : ℕ)
  | endFrame (index : ℕ) (now sweepAt : ℚ) (priority : SlugSource)
  /-- One batch of the sweep is sent. -/
  | send (index : ℕ)
  | endSweep (index : ℕ) (confirmed : SlugSource)
  /-- The connection is lost, or its task cancelled. -/
  | drop (index : ℕ)

/-- The slugs of a shard. -/
def Settings.shard (cfg : Settings) (index : ℕ) : List String := (cfg.shards[index]?).getD []

namespace Feed

/-- A connection moves on. -/
def put (f : Feed) (index : ℕ) (c : Connection) : Feed :=
  { f with connections := f.connections.set index c }

/-- A connection is gone. -/
def lose (f : Feed) (index : ℕ) : Feed :=
  { f with connections := f.connections.erase index }

def note (f : Feed) (e : Event) : Feed :=
  { f with trace := f.trace ++ [e] }

variable (cfg : Settings) (fromisoformat : String → Except Raised ℚ)

/-- `if now >= next_repair: ...`, up to the first message of the sweep. -/
def sweepIfDue (f : Feed) (index : ℕ) (c : Connection) (now sweepAt : ℚ)
    (priority : SlugSource) : Feed :=
  if c.nextRepair ≤ now then
    let dark := dark cfg f.adapter (cfg.shard index) c.attempts priority.read sweepAt
    f.put index { c with
      nextRepair := now + cfg.repairSweepS
      phase := if dark = [] then .receiving else .sweeping sweepAt dark (repairMessages index dark) }
  else f.put index { c with phase := .receiving }

/-- A frame is read. One that is not JSON is passed over. -/
def readFrame (f : Feed) (index : ℕ) (c : Connection) (msg : Option Json) (current now : ℚ) :
    Feed :=
  match msg with
  | none => f
  | some msg =>
      match quotesFromMessage fromisoformat cfg f.adapter msg current now with
      | (a, .error _) => { f with adapter := a }.lose index
      | (a, .ok quotes) => { f with adapter := a }.put index { c with phase := .quoting quotes }

/-- A quote is delivered. The attempts of its market are restored; its
escalations only if the frame is live. -/
def deliver (f : Feed) (index : ℕ) (c : Connection) (quote : FeedQuote)
    (rest : List FeedQuote) : Feed :=
  let slug := slugOf quote.outcomeId
  let escalations :=
    if isLiveFrame cfg quote then f.adapter.escalations.erase slug else f.adapter.escalations
  ({ f with adapter := { f.adapter with escalations := escalations } }.put index
    { c with attempts := c.attempts.erase slug, phase := .quoting rest }).note
      (.quoted index quote)

/-- The sweep has sent its messages. -/
def endSweep (f : Feed) (index : ℕ) (c : Connection) (now : ℚ) (dark : List String)
    (confirmed : SlugSource) : Feed :=
  let attempts := bump c.attempts dark
  match maybeEscalate cfg f.adapter index (cfg.shard index) attempts confirmed now with
  | (a, .ok ()) =>
      { f with adapter := a }.put index { c with attempts := attempts, phase := .receiving }
  | (a, .error e) => ({ f with adapter := a }.lose index).note (.escalated index now e.stuck)

/-- What the connection of a shard does, if there is one. -/
def on (f : Feed) (index : ℕ) (act : Connection → Feed) : Feed :=
  match f.connections.get? index with
  | some c => act c
  | none => f

/-- One move; a move that is not enabled changes nothing. The subscribes a
connection starts with are no sweep's and leave no mark on the trace. -/
def step (f : Feed) : Move → Feed
  | .stream started =>
      { f with
        adapter := { f.adapter with
          lastWsAt := Dict.ofList (cfg.slugs.map fun slug => (slug, started)) }
        connections := Dict.empty }
  | .connect index connectedAt =>
      match cfg.shards[index]?, f.connections.get? index with
      | some slugs, none =>
          let lastWsAt := f.adapter.lastWsAt.setAll (slugs.map fun slug => (slug, connectedAt))
          ({ f with adapter := { f.adapter with lastWsAt := lastWsAt } }.put index
            { nextRepair := connectedAt + cfg.repairSweepS }).note (.connected index)
      | _, _ => f
  | .timeout index now sweepAt priority =>
      f.on index fun c =>
        match c.phase with
        | .receiving => f.sweepIfDue cfg index c now sweepAt priority
        | _ => f
  | .frame index msg current now =>
      f.on index fun c =>
        match c.phase with
        | .receiving => f.readFrame cfg fromisoformat index c msg current now
        | _ => f
  | .deliver index =>
      f.on index fun c =>
        match c.phase with
        | .quoting (quote :: rest) => f.deliver cfg index c quote rest
        | _ => f
  | .endFrame index now sweepAt priority =>
      f.on index fun c =>
        match c.phase with
        | .quoting [] => f.sweepIfDue cfg index c now sweepAt priority
        | _ => f
  | .send index =>
      f.on index fun c =>
        match c.phase with
        | .sweeping now dark (message :: left) =>
            (f.put index { c with phase := .sweeping now dark left }).note
              (.resubscribed index message)
        | _ => f
  | .endSweep index confirmed =>
      f.on index fun c =>
        match c.phase with
        | .sweeping now dark [] => f.endSweep cfg index c now dark confirmed
        | _ => f
  | .drop index => f.lose index

end Feed

/-! ### A sweep that is not interrupted -/

section Sweep

variable {cfg : Settings} {fromisoformat : String → Except Raised ℚ} {index : ℕ} {c : Connection}

theorem step_send {f : Feed} {now : ℚ} {dark : List String} {message : Subscribe}
    {left : List Subscribe} (hc : f.connections.get? index = some c)
    (hphase : c.phase = .sweeping now dark (message :: left)) :
    f.step cfg fromisoformat (.send index) =
      (f.put index { c with phase := .sweeping now dark left }).note
        (.resubscribed index message) := by
  simp only [Feed.step, Feed.on, hc, hphase]

/-- The messages of a sweep go out one by one. -/
theorem run_sends (cfg : Settings) (fromisoformat : String → Except Raised ℚ) {now : ℚ}
    {dark : List String} {left : List Subscribe} {f : Feed}
    (hc : f.connections.get? index = some { c with phase := .sweeping now dark left }) :
    let g := run (Feed.step cfg fromisoformat) f (List.replicate left.length (.send index))
    g.adapter = f.adapter ∧ g.trace = f.trace ++ left.map (.resubscribed index) ∧
      g.connections.get? index = some { c with phase := .sweeping now dark [] } := by
  induction left generalizing f with
  | nil => exact ⟨rfl, (List.append_nil _).symm, hc⟩
  | cons message left ih =>
      dsimp only
      rw [List.length_cons, List.replicate_succ, run_cons, step_send hc rfl]
      obtain ⟨hadapter, htrace, hconnection⟩ := ih
        (f := (f.put index { c with phase := .sweeping now dark left }).note
          (.resubscribed index message)) (Dict.get?_set_self _ _ _)
      refine ⟨hadapter, ?_, hconnection⟩
      rw [htrace]
      simp [Feed.note, Feed.put]

/-- **The moves of a sweep, taken in a row, are `_repair_subscriptions`.** -/
theorem run_sweep (cfg : Settings) (fromisoformat : String → Except Raised ℚ) {f : Feed}
    (hc : f.connections.get? index = some c)
    (hphase : c.phase = .receiving) {now sweepAt : ℚ} (hdue : c.nextRepair ≤ now)
    (priority confirmed : SlugSource) :
    let swept := repairSubscriptions cfg f.adapter index (cfg.shard index) c.attempts priority
      confirmed sweepAt
    let g := run (Feed.step cfg fromisoformat) f
      (.timeout index now sweepAt priority ::
        (List.replicate swept.sent.length (.send index) ++ [.endSweep index confirmed]))
    g.adapter = swept.adapter ∧
    match swept.ends with
    | .ok () =>
        g.trace = f.trace ++ swept.sent.map (.resubscribed index) ∧
        g.connections.get? index =
          some ⟨swept.attempts, now + cfg.repairSweepS, .receiving⟩
    | .error e =>
        g.trace = f.trace ++ swept.sent.map (.resubscribed index) ++
          [.escalated index sweepAt e.stuck] ∧
        g.connections.get? index = none := by
  have htimeout : f.step cfg fromisoformat (.timeout index now sweepAt priority) =
      f.sweepIfDue cfg index c now sweepAt priority := by
    simp only [Feed.step, Feed.on, hc, hphase]
  dsimp only
  rw [run_cons, htimeout, run_append, Feed.sweepIfDue, if_pos hdue, repairSubscriptions]
  -- nothing dark: the sweep returns at once and sends nothing
  by_cases hnil : dark cfg f.adapter (cfg.shard index) c.attempts priority.read sweepAt = []
  · simp [hnil, Feed.step, Feed.on, Feed.put]
  · simp only [hnil, if_false]
    generalize hdark : dark cfg f.adapter (cfg.shard index) c.attempts priority.read sweepAt = found
    have hconnection : (f.put index ⟨c.attempts, now + cfg.repairSweepS,
        .sweeping sweepAt found (repairMessages index found)⟩).connections.get? index =
          some ⟨c.attempts, now + cfg.repairSweepS,
            .sweeping sweepAt found (repairMessages index found)⟩ := Dict.get?_set_self _ _ _
    obtain ⟨hadapter, htrace, hconnection⟩ := run_sends cfg fromisoformat
      (c := ⟨c.attempts, now + cfg.repairSweepS, .receiving⟩) hconnection
    generalize run (Feed.step cfg fromisoformat) _ _ = g at hadapter htrace hconnection ⊢
    have hend : g.step cfg fromisoformat (.endSweep index confirmed) =
        g.endSweep cfg index ⟨c.attempts, now + cfg.repairSweepS, .sweeping sweepAt found []⟩
          sweepAt found confirmed := by
      simp only [Feed.step, Feed.on, hconnection]
    -- the sends leave the adapter alone, so the end of the sweep sees what the sweep saw
    rw [run_cons, run_nil, hend, Feed.endSweep, hadapter]
    cases hescalate : maybeEscalate cfg f.adapter index (cfg.shard index)
        (bump c.attempts found) confirmed sweepAt with
    | mk a ends =>
        cases ends with
        | ok u => simp [hescalate, Feed.put, htrace]
        | error e => simp [hescalate, Feed.put, Feed.lose, Feed.note, htrace, Dict.get?_erase]

end Sweep

/-! ## What the trace shows -/

namespace Event

/-- A quote of the market whose frame is live is delivered. -/
def live (cfg : Settings) (slug : String) : Event → Bool
  | .quoted _ quote => decide (slugOf quote.outcomeId = slug) && isLiveFrame cfg quote
  | _ => false

/-- The market is among the stuck ones of an escalation. -/
def escalates (slug : String) : Event → Bool
  | .escalated _ _ stuck => decide (slug ∈ stuck)
  | _ => false

/-- A shard connects anew, or delivers a quote of the market. -/
def renews (index : ℕ) (slug : String) : Event → Bool
  | .connected i => decide (i = index)
  | .quoted i quote => decide (i = index ∧ slugOf quote.outcomeId = slug)
  | _ => false

/-- A sweep of a shard re-subscribes the market. -/
def resubscribes (index : ℕ) (slug : String) : Event → Bool
  | .resubscribed i message => decide (i = index ∧ slug ∈ message.marketSlugs)
  | _ => false

/-- When an escalation of a shard was. -/
def escalatedAt (index : ℕ) : Event → Option ℚ
  | .escalated i now _ => if i = index then some now else none
  | _ => none

/-- The shard an event is about. -/
def index : Event → ℕ
  | .connected i => i
  | .quoted i _ => i
  | .resubscribed i _ => i
  | .escalated i _ _ => i

theorem renews_of_ne {e : Event} {i : ℕ} (h : e.index ≠ i) (slug : String) :
    e.renews i slug = false := by
  cases e with
  | connected j => exact decide_eq_false h
  | quoted j quote => exact decide_eq_false fun heq => h heq.1
  | resubscribed j message => rfl
  | escalated j now stuck => rfl

theorem resubscribes_of_ne {e : Event} {i : ℕ} (h : e.index ≠ i) (slug : String) :
    e.resubscribes i slug = false := by
  cases e with
  | connected j => rfl
  | quoted j quote => rfl
  | resubscribed j message => exact decide_eq_false fun heq => h heq.1
  | escalated j now stuck => rfl

end Event

/-! ## What the budgets count -/

namespace Phase

/-- The markets the sweep under way found dark. -/
def dark : Phase → List String
  | .sweeping _ dark _ => dark
  | _ => []

/-- The messages the sweep under way has yet to send. -/
def left : Phase → List Subscribe
  | .sweeping _ _ left => left
  | _ => []

end Phase

/-- What a connection's attempts have to do with the trace. An attempt is
counted when the sweep ends, a message when it is sent; in between the messages
left make up the difference. -/
structure Accounts (trace : List Event) (index : ℕ) (c : Connection) : Prop where
  atMost : ∀ slug, c.attempts.getD slug 0 ≤ maxRepairAttempts
  distinct : c.phase.dark.Nodup
  due : ∀ slug ∈ c.phase.dark, c.attempts.getD slug 0 < maxRepairAttempts
  counted : ∀ slug, spent (Event.resubscribes index slug) (Event.renews index slug) trace +
      c.phase.left.countP (fun m => decide (slug ∈ m.marketSlugs)) =
    c.attempts.getD slug 0 + if slug ∈ c.phase.dark then 1 else 0

namespace Accounts

variable {trace : List Event} {index : ℕ} {c : Connection}

/-- What another shard does is not counted. -/
theorem other (h : Accounts trace index c) {e : Event} (he : e.index ≠ index) :
    Accounts (trace ++ [e]) index c := by
  refine ⟨h.atMost, h.distinct, h.due, fun slug => ?_⟩
  rw [spent_concat_of_not (Event.resubscribes_of_ne he slug) (Event.renews_of_ne he slug)]
  exact h.counted slug

/-- A shard never sends more than a market may have. -/
theorem spent_le (h : Accounts trace index c) (slug : String) :
    spent (Event.resubscribes index slug) (Event.renews index slug) trace ≤ maxRepairAttempts := by
  have hcounted := h.counted slug
  have hatMost := h.atMost slug
  split at hcounted
  · rename_i hdark
    have hdue := h.due slug hdark
    omega
  · omega

/-- Outside a sweep the attempts are what was sent. -/
theorem idle {attempts : Dict String ℕ} {nextRepair : ℚ} {phase : Phase}
    (hatMost : ∀ slug, attempts.getD slug 0 ≤ maxRepairAttempts)
    (hdark : phase.dark = []) (hleft : phase.left = [])
    (hcounted : ∀ slug, spent (Event.resubscribes index slug) (Event.renews index slug) trace =
      attempts.getD slug 0) :
    Accounts trace index ⟨attempts, nextRepair, phase⟩ where
  atMost := hatMost
  distinct := by
    show phase.dark.Nodup
    rw [hdark]
    exact List.nodup_nil
  due := by
    intro slug hslug
    change slug ∈ phase.dark at hslug
    rw [hdark] at hslug
    cases hslug
  counted := by
    intro slug
    show _ + phase.left.countP _ = _ + if slug ∈ phase.dark then 1 else 0
    rw [hdark, hleft, hcounted slug]
    rfl

theorem sent_of_idle (h : Accounts trace index c) (hdark : c.phase.dark = [])
    (hleft : c.phase.left = []) (slug : String) :
    spent (Event.resubscribes index slug) (Event.renews index slug) trace =
      c.attempts.getD slug 0 := by
  have hcounted := h.counted slug
  rw [hdark, hleft] at hcounted
  simpa using hcounted

end Accounts

/-- The budgets of a feed and what its trace shows. -/
structure Budgeted (f : Feed) (cfg : Settings) : Prop where
  escalations : ∀ slug, f.adapter.escalations.getD slug 0 =
    spent (Event.escalates slug) (Event.live cfg slug) f.trace
  escalationsWithin : ∀ slug,
    Within (Event.escalates slug) (Event.live cfg slug) maxEscalationsPerSlug f.trace
  reconnects : ∀ index, f.adapter.lastReconnectAt.get? index =
    (f.trace.filterMap (Event.escalatedAt index)).getLast?
  spaced : ∀ index, Spaced reconnectCooldownS (f.trace.filterMap (Event.escalatedAt index))
  accounts : ∀ index c, f.connections.get? index = some c → Accounts f.trace index c
  repairsWithin : ∀ index slug,
    Within (Event.resubscribes index slug) (Event.renews index slug) maxRepairAttempts f.trace

/-- The markets of a shard are distinct. -/
theorem nodup_shard (cfg : Settings) (index : ℕ) : (cfg.shard index).Nodup := by
  have hslugs : cfg.slugs.Nodup :=
    (List.mergeSort_perm _ _).nodup_iff.mpr (List.nodup_dedup _)
  rw [Settings.shard]
  cases hshard : cfg.shards[index]? with
  | none => exact List.nodup_nil
  | some slugs =>
      have hmem := List.mem_of_getElem? hshard
      rw [Settings.shards, slices, List.mem_map] at hmem
      obtain ⟨k, -, rfl⟩ := hmem
      exact hslugs.sublist ((List.take_sublist _ _).trans (List.drop_sublist _ _))

/-- The escalation budgets of two adapters are the same. -/
def SameBudgets (a b : Adapter) : Prop :=
  a.escalations = b.escalations ∧ a.lastReconnectAt = b.lastReconnectAt

theorem SameBudgets.rfl {a : Adapter} : SameBudgets a a := ⟨Eq.refl _, Eq.refl _⟩

/-- Reading a frame touches the delivery clocks only. -/
theorem quotesFromMessage_sameBudgets (fromisoformat : String → Except Raised ℚ)
    (cfg : Settings) (a : Adapter) (msg : Json) (current now : ℚ) :
    SameBudgets (quotesFromMessage fromisoformat cfg a msg current now).1 a := by
  have hmarket : ∀ slug data,
      SameBudgets (quotesFromMarket fromisoformat a slug data current now).1 a := by
    intro slug data
    unfold quotesFromMarket
    split
    · split <;> exact .rfl
    · exact .rfl
  unfold quotesFromMessage
  split
  · split
    · dsimp only
      split
      · split
        · split
          · exact hmarket _ _
          · exact .rfl
        · exact .rfl
        · exact .rfl
        · exact .rfl
      · exact .rfl
    · exact .rfl
  · exact .rfl

namespace Budgeted

variable {f : Feed} {cfg : Settings}

/-- A turn that leaves no mark may change the connections, as long as each that
is left accounts for what it has spent. -/
theorem withConnections (h : Budgeted f cfg) {a : Adapter} (ha : SameBudgets a f.adapter)
    {connections : Dict ℕ Connection}
    (hacc : ∀ i c, connections.get? i = some c → Accounts f.trace i c) :
    Budgeted { f with adapter := a, connections := connections } cfg where
  escalations := by
    intro slug
    show a.escalations.getD slug 0 = _
    rw [ha.1]
    exact h.escalations slug
  escalationsWithin := h.escalationsWithin
  reconnects := by
    intro i
    show a.lastReconnectAt.get? i = _
    rw [ha.2]
    exact h.reconnects i
  spaced := h.spaced
  accounts := hacc
  repairsWithin := h.repairsWithin

/-- It moves one connection on. -/
theorem put (h : Budgeted f cfg) {a : Adapter} (ha : SameBudgets a f.adapter) {index : ℕ}
    {c : Connection} (hc : Accounts f.trace index c) :
    Budgeted ({ f with adapter := a }.put index c) cfg := by
  refine h.withConnections ha fun i d hd => ?_
  rw [Dict.get?_set] at hd
  split at hd
  · rename_i hi
    cases hd
    rw [hi]
    exact hc
  · exact h.accounts i d hd

/-- A connection that is lost takes its accounts with it. -/
theorem lose (h : Budgeted f cfg) {a : Adapter} (ha : SameBudgets a f.adapter) (index : ℕ) :
    Budgeted ({ f with adapter := a }.lose index) cfg := by
  refine h.withConnections ha fun i c hc => ?_
  rw [Dict.get?_erase] at hc
  split at hc
  · cases hc
  · exact h.accounts i c hc

/-- Nothing more is spent than may be, now. -/
theorem escalations_le (h : Budgeted f cfg) (slug : String) :
    f.adapter.escalations.getD slug 0 ≤ maxEscalationsPerSlug := by
  rw [h.escalations slug]
  exact h.escalationsWithin slug f.trace List.prefix_rfl

/-- A turn that leaves a mark, which is no escalation. -/
theorem mark (h : Budgeted f cfg) {a : Adapter} {c : Connection} {e : Event}
    (hspends : ∀ slug, e.escalates slug = false) (hat : ∀ i, e.escalatedAt i = none)
    (hreconnects : a.lastReconnectAt = f.adapter.lastReconnectAt)
    (hescalations : ∀ slug, a.escalations.getD slug 0 =
      if e.live cfg slug then 0 else f.adapter.escalations.getD slug 0)
    (hc : Accounts (f.trace ++ [e]) e.index c) :
    Budgeted (({ f with adapter := a }.put e.index c).note e) cfg := by
  have hspent : ∀ slug, a.escalations.getD slug 0 =
      spent (Event.escalates slug) (Event.live cfg slug) (f.trace ++ [e]) := by
    intro slug
    rw [spent_concat, spend, hspends slug, ← h.escalations slug]
    exact hescalations slug
  -- an event that escalates nothing can only give a slug its budget back
  have hle : ∀ slug, a.escalations.getD slug 0 ≤ maxEscalationsPerSlug := by
    intro slug
    rw [hescalations slug]
    split
    · exact Nat.zero_le _
    · exact h.escalations_le slug
  have htimes : ∀ i, (f.trace ++ [e]).filterMap (Event.escalatedAt i) =
      f.trace.filterMap (Event.escalatedAt i) := by
    intro i
    rw [List.filterMap_append, List.filterMap_cons_none (hat i)]
    simp
  constructor
  case escalations => exact hspent
  case escalationsWithin =>
    intro slug
    refine (h.escalationsWithin slug).concat ?_
    rw [← hspent slug]
    exact hle slug
  case reconnects =>
    intro i
    show a.lastReconnectAt.get? i = ((f.trace ++ [e]).filterMap (Event.escalatedAt i)).getLast?
    rw [htimes, hreconnects]
    exact h.reconnects i
  case spaced =>
    intro i
    show Spaced _ ((f.trace ++ [e]).filterMap (Event.escalatedAt i))
    rw [htimes]
    exact h.spaced i
  case accounts =>
    intro i d hd
    change (f.connections.set e.index c).get? i = some d at hd
    rw [Dict.get?_set] at hd
    split at hd
    · rename_i hi
      cases hd
      rw [hi]
      exact hc
    · rename_i hi
      exact (h.accounts i d hd).other (Ne.symm hi)
  case repairsWithin =>
    intro i slug
    refine (h.repairsWithin i slug).concat ?_
    by_cases hi : e.index = i
    · rw [← hi]
      exact hc.spent_le slug
    · rw [spent_concat_of_not (Event.resubscribes_of_ne hi slug) (Event.renews_of_ne hi slug)]
      exact h.repairsWithin i slug f.trace List.prefix_rfl

/-- An escalation, on a shard that is not cooling, of markets that each have one
to spend. -/
theorem escalate (h : Budgeted f cfg) {index : ℕ} {now : ℚ} {stuck : List String}
    (hcooling : ¬ Cooling f.adapter index now) (hdistinct : stuck.Nodup)
    (hstuck : ∀ slug ∈ stuck, f.adapter.escalations.getD slug 0 < maxEscalationsPerSlug) :
    Budgeted
      (({ f with adapter := { f.adapter with
          lastReconnectAt := f.adapter.lastReconnectAt.set index now
          escalations := bump f.adapter.escalations stuck } }.lose index).note
        (.escalated index now stuck)) cfg := by
  have hspent : ∀ slug, (bump f.adapter.escalations stuck).getD slug 0 =
      spent (Event.escalates slug) (Event.live cfg slug)
        (f.trace ++ [.escalated index now stuck]) := by
    intro slug
    rw [getD_bump _ hdistinct, h.escalations slug, spent_concat, spend]
    by_cases hslug : slug ∈ stuck <;> simp [Event.escalates, Event.live, hslug]
  constructor
  case escalations => exact hspent
  case escalationsWithin =>
    intro slug
    refine (h.escalationsWithin slug).concat ?_
    rw [← hspent slug, getD_bump _ hdistinct]
    have hle := h.escalations_le slug
    split
    · rename_i hslug
      have hlt := hstuck slug hslug
      omega
    · omega
  case reconnects =>
    intro i
    show (f.adapter.lastReconnectAt.set index now).get? i =
      ((f.trace ++ [Event.escalated index now stuck]).filterMap (Event.escalatedAt i)).getLast?
    rw [Dict.get?_set, List.filterMap_append]
    by_cases hi : i = index
    · subst hi
      simp [Event.escalatedAt]
    · simp [Event.escalatedAt, hi, Ne.symm hi, h.reconnects i]
  case spaced =>
    intro i
    show Spaced _ ((f.trace ++ [Event.escalated index now stuck]).filterMap (Event.escalatedAt i))
    rw [List.filterMap_append]
    by_cases hi : i = index
    · subst hi
      have htimes : [Event.escalated i now stuck].filterMap (Event.escalatedAt i) = [now] := by
        simp [Event.escalatedAt]
      rw [htimes]
      refine (h.spaced i).concat (by norm_num [reconnectCooldownS]) fun last hlast => ?_
      rw [← h.reconnects i] at hlast
      -- the shard was not cooling, so the last one is a cool-down ago
      have hnot : ¬ now - last < reconnectCooldownS := fun hlt => hcooling ⟨last, hlast, hlt⟩
      linarith
    · have htimes : [Event.escalated index now stuck].filterMap (Event.escalatedAt i) = [] := by
        simp [Event.escalatedAt, Ne.symm hi]
      rw [htimes, List.append_nil]
      exact h.spaced i
  case accounts =>
    intro i c hc
    change (f.connections.erase index).get? i = some c at hc
    rw [Dict.get?_erase] at hc
    split at hc
    · -- the connection that raised is gone, so only the others' budgets are left to show
      cases hc
    · rename_i hi
      exact (h.accounts i c hc).other (Ne.symm hi)
  case repairsWithin =>
    intro i slug
    refine (h.repairsWithin i slug).concat ?_
    rw [spent_concat_of_not rfl rfl]
    exact h.repairsWithin i slug f.trace List.prefix_rfl

/-! ### The moves -/

/-- A connection between frames has counted what it sent. -/
theorem idle (h : Budgeted f cfg) {index : ℕ} {c : Connection}
    (hc : f.connections.get? index = some c) (hdark : c.phase.dark = []) (hleft : c.phase.left = [])
    {nextRepair : ℚ} {phase : Phase} (hdark' : phase.dark = []) (hleft' : phase.left = []) :
    Accounts f.trace index ⟨c.attempts, nextRepair, phase⟩ :=
  have haccounts := h.accounts index c hc
  .idle haccounts.atMost hdark' hleft' (haccounts.sent_of_idle hdark hleft)

theorem sweepIfDue (h : Budgeted f cfg) {index : ℕ} {c : Connection}
    (hc : f.connections.get? index = some c) (hdark : c.phase.dark = []) (hleft : c.phase.left = [])
    (now sweepAt : ℚ) (priority : SlugSource) :
    Budgeted (f.sweepIfDue cfg index c now sweepAt priority) cfg := by
  unfold Feed.sweepIfDue
  split
  · by_cases hnil : PolymarketUsWs.dark cfg f.adapter (cfg.shard index) c.attempts priority.read
        sweepAt = []
    · simp only [hnil, if_true]
      exact h.put .rfl (h.idle hc hdark hleft rfl rfl)
    · simp only [hnil, if_false]
      have haccounts := h.accounts index c hc
      have hnodup : (PolymarketUsWs.dark cfg f.adapter (cfg.shard index) c.attempts priority.read
          sweepAt).Nodup := (nodup_shard cfg index).filter _
      refine h.put .rfl ⟨haccounts.atMost, hnodup, ?_, ?_⟩
      · intro slug hslug
        have hdue := (List.mem_filter.mp hslug).2
        exact (of_decide_eq_true hdue).1
      · intro slug
        rw [haccounts.sent_of_idle hdark hleft slug]
        exact congrArg _ (countP_repairMessages index hnodup slug)
  · exact h.put .rfl (h.idle hc hdark hleft rfl rfl)

theorem readFrame (h : Budgeted f cfg) {index : ℕ} {c : Connection}
    (hc : f.connections.get? index = some c) (hdark : c.phase.dark = []) (hleft : c.phase.left = [])
    (fromisoformat : String → Except Raised ℚ) (msg : Option Json) (current now : ℚ) :
    Budgeted (f.readFrame cfg fromisoformat index c msg current now) cfg := by
  unfold Feed.readFrame
  cases msg with
  | none => exact h
  | some msg =>
      have hsame := quotesFromMessage_sameBudgets fromisoformat cfg f.adapter msg current now
      cases hread : quotesFromMessage fromisoformat cfg f.adapter msg current now with
      | mk a result =>
          rw [hread] at hsame
          cases result with
          | error e =>
              simp only [hread]
              exact h.lose hsame index
          | ok quotes =>
              simp only [hread]
              exact h.put hsame (h.idle hc hdark hleft rfl rfl)

theorem deliver (h : Budgeted f cfg) {index : ℕ} {c : Connection}
    (hc : f.connections.get? index = some c) (hdark : c.phase.dark = []) (hleft : c.phase.left = [])
    (quote : FeedQuote) (rest : List FeedQuote) :
    Budgeted (f.deliver cfg index c quote rest) cfg := by
  have haccounts := h.accounts index c hc
  refine h.mark (e := .quoted index quote) (fun _ => rfl) (fun _ => rfl) rfl ?_ ?_
  · intro slug
    by_cases hslug : slugOf quote.outcomeId = slug
    · cases hlive : isLiveFrame cfg quote <;>
        simp [Event.live, Dict.getD, Dict.get?_erase, hslug, hlive]
    · cases hlive : isLiveFrame cfg quote <;>
        simp [Event.live, Dict.getD, Dict.get?_erase, hslug, Ne.symm hslug]
  · refine .idle ?_ rfl rfl ?_
    · intro slug
      rw [Dict.getD, Dict.get?_erase]
      split
      · exact Nat.zero_le _
      · exact haccounts.atMost slug
    · intro slug
      rw [Dict.getD, Dict.get?_erase]
      -- a quote renews the attempts of its own slug, and of no other
      by_cases hslug : slug = slugOf quote.outcomeId
      · have hrenews : (Event.quoted index quote).renews index slug = true :=
          decide_eq_true ⟨rfl, hslug.symm⟩
        rw [if_pos hslug]
        exact spent_concat_clears hrenews f.trace
      · have hrenews : (Event.quoted index quote).renews index slug = false :=
          decide_eq_false fun heq => hslug heq.2.symm
        rw [if_neg hslug]
        refine (spent_concat_of_not rfl hrenews f.trace).trans ?_
        exact haccounts.sent_of_idle hdark hleft slug

theorem send (h : Budgeted f cfg) {index : ℕ} {c : Connection}
    (hc : f.connections.get? index = some c) {now : ℚ} {dark : List String} {message : Subscribe}
    {left : List Subscribe} (hphase : c.phase = .sweeping now dark (message :: left)) :
    Budgeted ((f.put index { c with phase := .sweeping now dark left }).note
      (.resubscribed index message)) cfg := by
  have haccounts := h.accounts index c hc
  have hdistinct := haccounts.distinct
  have hdue := haccounts.due
  have hcounted := haccounts.counted
  rw [hphase] at hdistinct hdue hcounted
  refine h.mark (e := .resubscribed index message) (fun _ => rfl) (fun _ => rfl) rfl
    (fun _ => rfl) ⟨haccounts.atMost, hdistinct, hdue, fun slug => ?_⟩
  have hcount := hcounted slug
  change _ + (message :: left).countP _ = _ + if slug ∈ dark then 1 else 0 at hcount
  show _ + left.countP _ = _ + if slug ∈ dark then 1 else 0
  rw [← hcount, List.countP_cons]
  by_cases hslug : slug ∈ message.marketSlugs
  · have hresent : (Event.resubscribed index message).resubscribes index slug = true :=
      decide_eq_true ⟨rfl, hslug⟩
    rw [if_pos (decide_eq_true hslug)]
    refine (congrArg (· + _) (spent_concat_spends hresent rfl f.trace)).trans ?_
    show spent (Event.resubscribes index slug) (Event.renews index slug) f.trace + 1 + _ = _
    omega
  · have hresent : (Event.resubscribed index message).resubscribes index slug = false :=
      decide_eq_false fun heq => hslug heq.2
    rw [if_neg (mt of_decide_eq_true hslug), Nat.add_zero]
    exact congrArg (· + _) (spent_concat_of_not hresent rfl f.trace)

theorem endSweep (h : Budgeted f cfg) {index : ℕ} {c : Connection}
    (hc : f.connections.get? index = some c) {now : ℚ} {dark : List String}
    (hphase : c.phase = .sweeping now dark []) (confirmed : SlugSource) :
    Budgeted (f.endSweep cfg index c now dark confirmed) cfg := by
  have haccounts := h.accounts index c hc
  have hdistinct := haccounts.distinct
  have hdue := haccounts.due
  have hcounted := haccounts.counted
  rw [hphase] at hdistinct hdue hcounted
  change dark.Nodup at hdistinct
  change ∀ slug ∈ dark, _ at hdue
  unfold Feed.endSweep
  rcases maybeEscalate_cases cfg f.adapter index (cfg.shard index) (bump c.attempts dark) confirmed
    now with ⟨-, heq⟩ | ⟨stuck, hshould, hstuck, heq⟩
  · -- nothing is escalated: every dark slug has used one of its attempts
    simp only [heq]
    refine h.put .rfl (.idle ?_ rfl rfl ?_)
    · intro slug
      rw [getD_bump _ hdistinct]
      have hatMost := haccounts.atMost slug
      split
      · rename_i hslug
        have hlt := hdue slug hslug
        omega
      · omega
    · intro slug
      rw [getD_bump _ hdistinct]
      exact hcounted slug
  · simp only [heq]
    refine h.escalate hshould.2 ?_ fun slug hslug => ?_
    · rw [hstuck]
      exact (nodup_shard cfg index).filter _
    · rw [hstuck] at hslug
      exact (of_decide_eq_true (List.mem_filter.mp hslug).2).2.2.2

theorem connect (h : Budgeted f cfg) {a : Adapter} (ha : SameBudgets a f.adapter) (index : ℕ)
    (nextRepair : ℚ) :
    Budgeted (({ f with adapter := a }.put index { nextRepair := nextRepair }).note
      (.connected index)) cfg := by
  refine h.mark (e := .connected index) (fun _ => rfl) (fun _ => rfl) ha.2 ?_ ?_
  · intro slug
    rw [ha.1]
    rfl
  · refine .idle (fun _ => Nat.zero_le _) rfl rfl fun slug => ?_
    have hrenews : (Event.connected index).renews index slug = true := decide_eq_true rfl
    exact spent_concat_clears hrenews f.trace

theorem stream (h : Budgeted f cfg) {a : Adapter} (ha : SameBudgets a f.adapter) :
    Budgeted { f with adapter := a, connections := Dict.empty } cfg := by
  refine h.withConnections ha fun i c hc => ?_
  cases hc

/-- What a connection does keeps the budgets if it does on a connection that is
there. -/
theorem on (h : Budgeted f cfg) {index : ℕ} {act : Connection → Feed}
    (hact : ∀ c, f.connections.get? index = some c → Budgeted (act c) cfg) :
    Budgeted (f.on index act) cfg := by
  unfold Feed.on
  split
  · rename_i c hc
    exact hact c hc
  · exact h

/-- **No move exceeds a budget.** -/
theorem step (h : Budgeted f cfg) (fromisoformat : String → Except Raised ℚ) (m : Move) :
    Budgeted (f.step cfg fromisoformat m) cfg := by
  cases m with
  | stream started => exact h.stream ⟨rfl, rfl⟩
  | connect index connectedAt =>
      simp only [Feed.step]
      split
      · refine h.connect ?_ index _
        exact ⟨rfl, rfl⟩
      · exact h
  | timeout index now sweepAt priority =>
      refine h.on fun c hc => ?_
      split
      · rename_i hphase
        exact h.sweepIfDue hc (by rw [hphase]; rfl) (by rw [hphase]; rfl) now sweepAt priority
      · exact h
  | frame index msg current now =>
      refine h.on fun c hc => ?_
      split
      · rename_i hphase
        exact h.readFrame hc (by rw [hphase]; rfl) (by rw [hphase]; rfl) fromisoformat msg
          current now
      · exact h
  | deliver index =>
      refine h.on fun c hc => ?_
      split
      · rename_i quote rest hphase
        exact h.deliver hc (by rw [hphase]; rfl) (by rw [hphase]; rfl) quote rest
      · exact h
  | endFrame index now sweepAt priority =>
      refine h.on fun c hc => ?_
      split
      · rename_i hphase
        exact h.sweepIfDue hc (by rw [hphase]; rfl) (by rw [hphase]; rfl) now sweepAt priority
      · exact h
  | send index =>
      refine h.on fun c hc => ?_
      split
      · rename_i hphase
        exact h.send hc hphase
      · exact h
  | endSweep index confirmed =>
      refine h.on fun c hc => ?_
      split
      · rename_i hphase
        exact h.endSweep hc hphase confirmed
      · exact h
  | drop index => exact h.lose .rfl index

theorem start (cfg : Settings) : Budgeted {} cfg where
  escalations := fun _ => rfl
  escalationsWithin := fun _ => Within.nil
  reconnects := fun _ => rfl
  spaced := fun _ => Spaced.nil _
  accounts := by
    intro i c hc
    cases hc
  repairsWithin := fun _ _ => Within.nil

end Budgeted

/-- **The budgets hold over every run**: between two live quotes of a market it
is stuck in at most two escalations, whatever connections are made; on one
connection a sweep re-subscribes it at most five times between two of its
quotes; and the escalations of a shard are two minutes apart. -/
theorem budgets_hold (cfg : Settings) (fromisoformat : String → Except Raised ℚ)
    (moves : List Move) :
    let trace := (run (Feed.step cfg fromisoformat) {} moves).trace
    (∀ (slug : String) (before segment after : List Event), trace = before ++ segment ++ after →
      (∀ e ∈ segment, e.live cfg slug = false) →
        segment.countP (Event.escalates slug) ≤ maxEscalationsPerSlug) ∧
    (∀ (index : ℕ) (slug : String) (before segment after : List Event),
      trace = before ++ segment ++ after → (∀ e ∈ segment, e.renews index slug = false) →
        segment.countP (Event.resubscribes index slug) ≤ maxRepairAttempts) ∧
    ∀ index, Spaced reconnectCooldownS (trace.filterMap (Event.escalatedAt index)) := by
  have h : Budgeted (run (Feed.step cfg fromisoformat) {} moves) cfg :=
    run_inv (I := fun f => Budgeted f cfg) (fun f m hf => hf.step fromisoformat m) moves
      (.start cfg)
  refine ⟨?_, ?_, h.spaced⟩
  · intro slug before segment after htrace
    have hwithin := h.escalationsWithin slug
    rw [htrace] at hwithin
    exact hwithin.countP_le
  · intro index slug before segment after htrace
    have hwithin := h.repairsWithin index slug
    rw [htrace] at hwithin
    exact hwithin.countP_le

end PolymarketUsWs

end Arbys
