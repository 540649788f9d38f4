import Arbys.Adapters.PolymarketUs
import Arbys.Lib.Dict
import Mathlib.Data.Finset.Insert

/-!
# The Polymarket US WebSocket adapter

`adapters/polymarket_us_ws.py`: the delivery clocks and the budgets the adapter
keeps, what a frame makes of them, and the repair sweep. A market that has sent
nothing for longer than its deadline is re-subscribed, a bounded number of
times on one connection; a market confirmed in play that stays dark after that
costs its shard the connection.

The sweep returns before it looks for markets to escalate when none is due for
another repair, so a market whose repairs are spent depends on some other
market of its shard being due (`repairSubscriptions_raises_iff`).

What only the log reports (`stats`, `delivered`) is left out.
-/

namespace Arbys

namespace PolymarketUs

open PyJson

/-- `split_outcome_id(outcome_id)[0]`. -/
def slugOf (outcomeId : OutcomeId) : String :=
  ((rpartition ':' outcomeId).map Prod.fst).getD ""

/-- The outcome ids of a market, `slug:LONG` and `slug:SHORT`, give its slug back. -/
theorem slugOf_append {side : String} (h : ':' ∉ side.toList) (slug : String) :
    slugOf (slug ++ ":" ++ side) = slug := by
  have hsplit : rpartition ':' (slug ++ String.singleton ':' ++ side) = some (slug, side) :=
    rpartition_append h slug
  rw [slugOf, show ":" = String.singleton ':' from rfl, hsplit]
  rfl

end PolymarketUs

namespace PolymarketUsWs

open DecimalArith (Number)
open PyJson
open PolymarketUs (slugOf)

/-! ## The budgets -/

/-- `MAX_SLUGS_PER_SUBSCRIPTION`. -/
def maxSlugsPerSubscription : ℕ := 100

/-- `MAX_REPAIR_ATTEMPTS`. -/
def maxRepairAttempts : ℕ := 5

/-- `MAX_ESCALATIONS_PER_SLUG`. -/
def maxEscalationsPerSlug : ℕ := 2

/-- `RECONNECT_COOLDOWN_S`. -/
def reconnectCooldownS : ℚ := 120

/-! ## The adapter -/

/-- `xs[i : i + n]`, for each `i` in `range(0, len(xs), n)`. -/
def slices (n : ℕ) (xs : List String) : List (List String) :=
  (List.range ((xs.length + n - 1) / n)).map fun k => (xs.drop (k * n)).take n

/-- What the adapter is built with. -/
structure Settings where
  outcomeIds : List OutcomeId
  shardSize : ℤ := 100
  darkAfterS : ℚ := 120
  priorityDarkAfterS : ℚ := 6
  repairSweepS : ℚ := 15

namespace Settings

/-- `self._slugs`: every market once, in order. -/
def slugs (cfg : Settings) : List String := (cfg.outcomeIds.map slugOf).dedup.mergeSort

/-- `max(1, shard_size)`. -/
def size (cfg : Settings) : ℕ := (max 1 cfg.shardSize).toNat

/-- `shards`: the slug groups, one per connection. -/
def shards (cfg : Settings) : List (List String) := slices cfg.size cfg.slugs

end Settings

/-- What the adapter keeps across its connections. -/
structure Adapter where
  lastWsAt : Dict String ℚ := Dict.empty
  lastReconnectAt : Dict ℕ ℚ := Dict.empty
  escalations : Dict String ℕ := Dict.empty
  deriving DecidableEq

/-- A callable the adapter may be given: absent, or what calling it comes to. -/
abbrev SlugSource := Option (Except Raised (Finset String))

/-- `with contextlib.suppress(Exception): slugs = fn()`. -/
def SlugSource.read : SlugSource → Finset String
  | some (.ok slugs) => slugs
  | _ => ∅

/-- `d[slug] = d.get(slug, 0) + 1`, for each of the slugs. -/
def bump (d : Dict String ℕ) (slugs : List String) : Dict String ℕ :=
  slugs.foldl (fun d slug => d.set slug (d.getD slug 0 + 1)) d

/-! ## Frames -/

section Frames

/-- `_FRACTION.sub(..., count=1)`: the first fraction, at six digits. -/
def padFraction : List Char → List Char
  | [] => []
  | c :: cs =>
      let digits := (cs.take 9).takeWhile fun d => (DecimalArith.digit? d).isSome
      if c = '.' ∧ digits ≠ [] then
        '.' :: (digits.take 6 ++ List.replicate (6 - digits.length) '0' ++ cs.drop digits.length)
      else c :: padFraction cs

/-- The text `frame_age_s` hands to `fromisoformat`. -/
def isoText (transactTime : String) : String :=
  String.ofList (padFraction ((DecimalArith.strip transactTime.toList).flatMap fun c =>
    if c = 'Z' then "+00:00".toList else [c]))

-- `fromisoformat` reads a text as a time, in seconds since the epoch
variable (fromisoformat : String → Except Raised ℚ)

/-- `frame_age_s`. -/
def frameAgeS (transactTime : Json) (current : ℚ) : Except Raised (Option ℚ) :=
  match transactTime with
  | .str "" => .ok none
  | .str text =>
      catching [.valueError]
        (do
          let stamp ← fromisoformat (isoText text)
          pure (some (max 0 (current - stamp))))
        (.ok none)
  | _ => .ok none

/-- `value or []`. -/
def orEmpty (value : Json) : Json := if value.truthy then value else .list [] "[]"

/-- The quotes of a frame about a market that is subscribed. The delivery clock
is written before the ladders are read, so a frame that raises has moved it. -/
def quotesFromMarket (a : Adapter) (slug : String) (data : List (String × Json))
    (current now : ℚ) : Adapter × Except Raised (List FeedQuote) :=
  match orEmpty (Json.field data "bids"), orEmpty (Json.field data "offers") with
  | .list bids _, .list offers _ =>
      match frameAgeS fromisoformat (Json.field data "transactTime") current with
      | .error e => (a, .error e)
      | .ok age =>
          ({ a with lastWsAt := a.lastWsAt.set slug now },
            PolymarketUs.quotesFromLevels slug bids offers age)
  | _, _ => (a, .ok [])

/-- `_quotes_from_message`. A list or an object in the place of the slug cannot
be looked up in a set. -/
def quotesFromMessage (cfg : Settings) (a : Adapter) (msg : Json) (current now : ℚ) :
    Adapter × Except Raised (List FeedQuote) :=
  match msg with
  | .dict msg _ =>
      match Json.field msg "marketData" with
      | .dict data _ =>
          let slug := Json.field data "marketSlug"
          if slug.truthy then
            match slug with
            | .str slug =>
                if slug ∈ cfg.slugs then quotesFromMarket fromisoformat a slug data current now
                else (a, .ok [])
            | .list _ _ | .dict _ _ => (a, .error .typeError)
            | _ => (a, .ok [])
          else (a, .ok [])
      | _ => (a, .ok [])
  | _ => (a, .ok [])

end Frames

/-- `_is_live_frame`. -/
def isLiveFrame (cfg : Settings) (quote : FeedQuote) : Bool :=
  match quote.sourceAgeS with
  | none => true
  | some age => age ≤ cfg.priorityDarkAfterS

/-! ## The repair sweep -/

/-- A subscribe message. -/
structure Subscribe where
  requestId : String
  marketSlugs : List String
  deriving DecidableEq

/-- What `_repair_subscriptions` raises; its text counts the markets still dark
and names the first three. -/
structure DarkMarkets where
  stuck : List String
  deriving DecidableEq

section Sweep

variable (cfg : Settings) (a : Adapter)

/-- How long a market has been silent. -/
def silence (now : ℚ) (slug : String) : ℚ := now - a.lastWsAt.getD slug now

/-- The deadline of a market. -/
def threshold (priority : Finset String) (slug : String) : ℚ :=
  if slug ∈ priority then cfg.priorityDarkAfterS else cfg.darkAfterS

/-- The market is re-subscribed by this sweep. -/
def Due (attempts : Dict String ℕ) (priority : Finset String) (now : ℚ) (slug : String) : Prop :=
  attempts.getD slug 0 < maxRepairAttempts ∧ threshold cfg priority slug < silence a now slug

instance (attempts : Dict String ℕ) (priority : Finset String) (now : ℚ) (slug : String) :
    Decidable (Due cfg a attempts priority now slug) :=
  inferInstanceAs (Decidable (_ ∧ _))

/-- `dark`. -/
def dark (slugs : List String) (attempts : Dict String ℕ) (priority : Finset String) (now : ℚ) :
    List String :=
  slugs.filter fun slug => Due cfg a attempts priority now slug

/-- The messages that re-subscribe the dark markets, a batch each. -/
def repairMessages (index : ℕ) (dark : List String) : List Subscribe :=
  (slices maxSlugsPerSubscription dark).zipIdx.map fun (batch, k) =>
    ⟨"arbys-repair-" ++ toString index ++ "-" ++ toString (k * maxSlugsPerSubscription), batch⟩

/-- The market is confirmed in play, out of repairs, silent for longer than the
priority deadline, and may still cost its shard a reconnect. -/
def Stuck (attempts : Dict String ℕ) (confirmed : Finset String) (now : ℚ) (slug : String) :
    Prop :=
  slug ∈ confirmed ∧ maxRepairAttempts ≤ attempts.getD slug 0 ∧
    cfg.priorityDarkAfterS < silence a now slug ∧
    a.escalations.getD slug 0 < maxEscalationsPerSlug

instance (attempts : Dict String ℕ) (confirmed : Finset String) (now : ℚ) (slug : String) :
    Decidable (Stuck cfg a attempts confirmed now slug) :=
  inferInstanceAs (Decidable (_ ∧ _))

/-- The shard reconnected less than the cooldown ago. -/
def Cooling (index : ℕ) (now : ℚ) : Prop :=
  ∃ last ∈ a.lastReconnectAt.get? index, now - last < reconnectCooldownS

instance (index : ℕ) (now : ℚ) : Decidable (Cooling a index now) :=
  inferInstanceAs (Decidable (∃ last ∈ a.lastReconnectAt.get? index, _))

/-- `_maybe_escalate`. -/
def maybeEscalate (index : ℕ) (slugs : List String) (attempts : Dict String ℕ)
    (confirmed : SlugSource) (now : ℚ) : Adapter × Except DarkMarkets Unit :=
  let stuck := slugs.filter fun slug => Stuck cfg a attempts confirmed.read now slug
  if stuck = [] ∨ Cooling a index now then (a, .ok ())
  else
    ({ a with
        lastReconnectAt := a.lastReconnectAt.set index now
        escalations := bump a.escalations stuck },
      .error ⟨stuck⟩)

/-- What a sweep leaves: the adapter, the attempts of the connection, what it
has sent, and how it ends. -/
structure Sweep where
  adapter : Adapter
  attempts : Dict String ℕ
  sent : List Subscribe
  ends : Except DarkMarkets Unit

/-- `_repair_subscriptions`, on a socket that takes what is sent. -/
def repairSubscriptions (index : ℕ) (slugs : List String) (attempts : Dict String ℕ)
    (priority confirmed : SlugSource) (now : ℚ) : Sweep :=
  let dark := dark cfg a slugs attempts priority.read now
  if dark = [] then ⟨a, attempts, [], .ok ()⟩
  else
    let attempts := bump attempts dark
    let escalated := maybeEscalate cfg a index slugs attempts confirmed now
    ⟨escalated.1, attempts, repairMessages index dark, escalated.2⟩

end Sweep

/-! ## What the sweep does -/

/-- The slices are the list, cut. -/
theorem flatten_slices {n : ℕ} (hn : 0 < n) (xs : List String) : (slices n xs).flatten = xs := by
  have htake : ∀ m, ((List.range m).map fun k => (xs.drop (k * n)).take n).flatten =
      xs.take (m * n) := by
    intro m
    induction m with
    | zero => simp
    | succ m ih =>
        rw [List.range_succ, List.map_append, List.flatten_append, ih, Nat.succ_mul, List.take_add]
        simp
  rw [slices, htake, List.take_of_length_le]
  have hdiv := Nat.div_add_mod (xs.length + n - 1) n
  have hmod := Nat.mod_lt (xs.length + n - 1) hn
  rw [Nat.mul_comm]
  omega

theorem countP_mem_flatten {batches : List (List String)} (h : batches.flatten.Nodup)
    (slug : String) :
    (batches.countP fun batch => decide (slug ∈ batch)) =
      if slug ∈ batches.flatten then 1 else 0 := by
  induction batches with
  | nil => rfl
  | cons batch batches ih =>
      rw [List.flatten_cons] at h ⊢
      obtain ⟨-, hrest, hdisjoint⟩ := List.nodup_append.mp h
      rw [List.countP_cons, ih hrest]
      by_cases hb : slug ∈ batch
      · have hnot : slug ∉ batches.flatten := fun hmem => hdisjoint slug hb slug hmem rfl
        simp [hb, hnot]
      · simp [hb]

/-- The messages of a sweep name each dark market once. -/
theorem countP_repairMessages (index : ℕ) {dark : List String} (h : dark.Nodup) (slug : String) :
    ((repairMessages index dark).countP fun m => decide (slug ∈ m.marketSlugs)) =
      if slug ∈ dark then 1 else 0 := by
  have hflatten : (slices maxSlugsPerSubscription dark).flatten = dark :=
    flatten_slices (by decide) dark
  have hnodup : (slices maxSlugsPerSubscription dark).flatten.Nodup := by rwa [hflatten]
  have hbatches := countP_mem_flatten hnodup slug
  rw [hflatten, ← List.zipIdx_map_fst 0 (slices maxSlugsPerSubscription dark),
    List.countP_map] at hbatches
  rw [repairMessages, List.countP_map]
  exact hbatches

theorem getD_bump (d : Dict String ℕ) {slugs : List String} (h : slugs.Nodup) (slug : String) :
    (bump d slugs).getD slug 0 = d.getD slug 0 + if slug ∈ slugs then 1 else 0 := by
  induction slugs generalizing d with
  | nil => rfl
  | cons s slugs ih =>
      obtain ⟨hs, hrest⟩ := List.nodup_cons.mp h
      show (bump (d.set s (d.getD s 0 + 1)) slugs).getD slug 0 = _
      rw [ih _ hrest, Dict.getD_set]
      by_cases hslug : slug = s
      · subst hslug
        simp [hs]
      · simp [hslug]

section Sweep

variable {cfg : Settings} {a : Adapter} {index : ℕ} {slugs : List String}
  {attempts : Dict String ℕ} {confirmed : SlugSource} {now : ℚ}

/-- The condition of an escalation. -/
def ShouldEscalate (cfg : Settings) (a : Adapter) (index : ℕ) (slugs : List String)
    (attempts : Dict String ℕ) (confirmed : Finset String) (now : ℚ) : Prop :=
  (∃ slug ∈ slugs, Stuck cfg a attempts confirmed now slug) ∧ ¬ Cooling a index now

instance (cfg : Settings) (a : Adapter) (index : ℕ) (slugs : List String)
    (attempts : Dict String ℕ) (confirmed : Finset String) (now : ℚ) :
    Decidable (ShouldEscalate cfg a index slugs attempts confirmed now) :=
  inferInstanceAs (Decidable (_ ∧ _))

/-- **What `_maybe_escalate` can do**: nothing, or it takes down the time, spends
one escalation of each market that is stuck and raises. -/
theorem maybeEscalate_cases (cfg : Settings) (a : Adapter) (index : ℕ) (slugs : List String)
    (attempts : Dict String ℕ) (confirmed : SlugSource) (now : ℚ) :
    (¬ ShouldEscalate cfg a index slugs attempts confirmed.read now ∧
      maybeEscalate cfg a index slugs attempts confirmed now = (a, .ok ())) ∨
    ∃ stuck : List String, ShouldEscalate cfg a index slugs attempts confirmed.read now ∧
      stuck = (slugs.filter fun slug => Stuck cfg a attempts confirmed.read now slug) ∧
      maybeEscalate cfg a index slugs attempts confirmed now =
        ({ a with
            lastReconnectAt := a.lastReconnectAt.set index now
            escalations := bump a.escalations stuck },
          .error ⟨stuck⟩) := by
  have hstuck : (slugs.filter fun slug => Stuck cfg a attempts confirmed.read now slug) = [] ↔
      ¬ ∃ slug ∈ slugs, Stuck cfg a attempts confirmed.read now slug := by
    simp [List.filter_eq_nil_iff]
  unfold maybeEscalate
  by_cases h : ShouldEscalate cfg a index slugs attempts confirmed.read now
  · refine .inr ⟨_, h, rfl, if_neg ?_⟩
    rintro (hnil | hcooling)
    · exact hstuck.mp hnil h.1
    · exact h.2 hcooling
  · refine .inl ⟨h, if_pos ?_⟩
    by_contra hnot
    obtain ⟨hnil, hcooling⟩ := not_or.mp hnot
    exact h ⟨not_not.mp (mt hstuck.mpr hnil), hcooling⟩

/-- What `_maybe_escalate` raises on. -/
theorem maybeEscalate_raises_iff :
    (∃ e, (maybeEscalate cfg a index slugs attempts confirmed now).2 = .error e) ↔
      ShouldEscalate cfg a index slugs attempts confirmed.read now := by
  rcases maybeEscalate_cases cfg a index slugs attempts confirmed now with
    ⟨hnot, heq⟩ | ⟨stuck, hshould, -, heq⟩
  · rw [heq]
    simp [hnot]
  · rw [heq]
    simp [hshould]

theorem dark_eq_nil_iff {priority : Finset String} :
    dark cfg a slugs attempts priority now = [] ↔
      ¬ ∃ slug ∈ slugs, Due cfg a attempts priority now slug := by
  simp [dark, List.filter_eq_nil_iff]

/-- `DarkMarkets` is raised exactly when it should be, the attempts of this
sweep counted. -/
def RaisesWhenItShould (cfg : Settings) (a : Adapter) (index : ℕ) (slugs : List String)
    (attempts : Dict String ℕ) (priority confirmed : SlugSource) (now : ℚ) : Prop :=
  let swept := repairSubscriptions cfg a index slugs attempts priority confirmed now
  (∃ e, swept.ends = .error e) ↔
    ShouldEscalate cfg a index slugs swept.attempts confirmed.read now

/-- **When a sweep escalates as it should**: unless no market of its shard is
due for another repair while one is stuck and the shard may reconnect. -/
theorem repairSubscriptions_raises_iff (cfg : Settings) (a : Adapter) (index : ℕ)
    (slugs : List String) (attempts : Dict String ℕ) (priority confirmed : SlugSource) (now : ℚ) :
    RaisesWhenItShould cfg a index slugs attempts priority confirmed now ↔
      (∃ slug ∈ slugs, Due cfg a attempts priority.read now slug) ∨
        ¬ ShouldEscalate cfg a index slugs attempts confirmed.read now := by
  unfold RaisesWhenItShould repairSubscriptions
  by_cases hdue : ∃ slug ∈ slugs, Due cfg a attempts priority.read now slug
  · rw [if_neg (mt dark_eq_nil_iff.mp (not_not.mpr hdue))]
    simp only [hdue, true_or, iff_true]
    exact maybeEscalate_raises_iff
  · rw [if_pos (dark_eq_nil_iff.mpr hdue)]
    simp [hdue]

end Sweep

/-! ### A market nobody asks about -/

namespace Starved

def cfg : Settings where
  outcomeIds := ["game:LONG", "game:SHORT"]

/-- The shard escalated at 60, was back at 62 and has heard nothing since. Its
five repairs were over by 137, before the cooldown was. -/
def adapter : Adapter where
  lastWsAt := Dict.ofList [("game", 62)]
  lastReconnectAt := Dict.ofList [(0, 60)]
  escalations := Dict.ofList [("game", 1)]

end Starved

theorem not_repairSubscriptions_raises :
    ¬ ∀ (cfg : Settings) (a : Adapter) (index : ℕ) (slugs : List String)
      (attempts : Dict String ℕ) (priority confirmed : SlugSource) (now : ℚ),
      RaisesWhenItShould cfg a index slugs attempts priority confirmed now := by
  intro h
  have hgame := h Starved.cfg Starved.adapter 0 ["game"] (Dict.ofList [("game", 5)])
    (some (.ok {"game"})) (some (.ok {"game"})) 182
  rw [RaisesWhenItShould] at hgame
  have hshould : ShouldEscalate Starved.cfg Starved.adapter 0 ["game"]
      (Dict.ofList [("game", 5)]) {"game"} 182 := by decide +kernel
  obtain ⟨e, he⟩ := hgame.mpr hshould
  cases he

end PolymarketUsWs

end Arbys
