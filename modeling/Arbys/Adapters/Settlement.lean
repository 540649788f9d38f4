import Arbys.Adapters.FeedQuote

/-!
# What a venue says a market settled at

`adapters/settlement.py`: a lookup waits out the venue's throttle, then reads
the value of one side of a market off the body. Network errors and statuses
other than 200 read as no value, and so do the results and values the readers
do not know. A body that is not the object they expect is not looked at before
it is taken apart, a NaN passes `Decimal` and is met by the range check, and a
`Retry-After` that reads as one makes the sleep raise: on these the lookup
raises (`fetchSettlement_raises_iff`).
-/

namespace Arbys

namespace Settlement

open DecimalArith (Number Signal rounded)
open PyJson

/-! ## Requests -/

/-- A response: its status, its `Retry-After` header, and what `resp.json()`
decodes, `none` where that raises. -/
structure Response where
  statusCode : ℤ
  retryAfter : Option String := none
  body : Option Json := none

/-- What a lookup's requests are answered, one after another; `none` is a
network error. -/
abbrev Answers := ℕ → Option Response

/-- `MAX_429_RETRIES`. -/
def max429Retries : ℕ := 4

/-- `float(text)` is a NaN. -/
def readsNan (text : String) : Bool :=
  let (_, digits) := DecimalArith.spanSign (DecimalArith.strip text.toList)
  digits.map Char.toLower = ['n', 'a', 'n']

/-- The wait before the next attempt: a header that is no number waits ten
seconds, and `asyncio.sleep` refuses a NaN, which `min` and `max` let through. -/
def wait (resp : Response) : Except Raised Unit :=
  if readsNan (resp.retryAfter.getD "10") then .error .valueError else .ok ()

/-- The attempts of `_get`, from one on, with the retries left. -/
def attempt (answers : Answers) : ℕ → ℕ → Except Raised (Option Response)
  | retries, k =>
      match answers k with
      | none => .ok none
      | some resp =>
          if resp.statusCode ≠ 429 then .ok (some resp)
          else
            match retries with
            | 0 => .ok none
            | retries + 1 => do
                wait resp
                attempt answers retries (k + 1)

/-- `_get`. -/
def get (answers : Answers) : Except Raised (Option Response) := attempt answers max429Retries 0

/-- `_split`. -/
def split (outcomeId : OutcomeId) : Option (String × String) :=
  match rpartition ':' outcomeId with
  | some (market, side) => if market = "" then none else some (market, side)
  | none => none

/-- `resp.json()`. -/
def Response.json (resp : Response) : Except Raised Json :=
  match resp.body with
  | some body => .ok body
  | none => .error .valueError

/-- `value.get(name)`. -/
def fieldOf (value : Json) (name : String) : Except Raised Json :=
  match value with
  | .dict fields _ => .ok (Json.field fields name)
  | _ => .error .attributeError

/-! ## The two readers -/

/-- `_KALSHI_FINAL`. -/
def kalshiFinal : List String := ["finalized", "settled"]

/-- `status in _KALSHI_FINAL`; a list or an object cannot be looked up. -/
def isFinal : Json → Except Raised Bool
  | .str status => .ok (decide (status ∈ kalshiFinal))
  | .list _ _ | .dict _ _ => .error .typeError
  | _ => .ok false

/-- `value or {}`. -/
def orObject (value : Json) : Json := if value.truthy then value else .dict [] "\x7b\x7d"

/-- `if not Decimal("0") <= value <= Decimal("1"): return None`. -/
def inRange (value : Number) : Except Raised (Option Number) := do
  if ← inUnit value then pure (some value) else pure none

/-- The value of a scalar result; what is no number reads as -1. -/
def scalarValue (value : Json) : Except Raised (Option Number) := do
  let yes ← catching [.invalidOperation] (decimal value.text) (.ok (.num (-1)))
  inRange yes

/-- `yes_value` of a market. -/
def kalshiMarketValue (market : List (String × Json)) : Except Raised (Option Number) := do
  if ← isFinal (Json.field market "status") then
    match Json.field market "result" with
    | .str "yes" => pure (some (.num 1))
    | .str "no" => pure (some (.num 0))
    | .str "scalar" => scalarValue (Json.field market "settlement_value_dollars")
    | _ => pure none
  else pure none

/-- `fetch_kalshi_settlement`, from the body to `yes_value`. -/
def kalshiYesValue (body : Json) : Except Raised (Option Number) := do
  let market ← fieldOf body "market"
  match orObject market with
  | .dict market _ => kalshiMarketValue market
  | _ => .error .attributeError

/-- `fetch_polymarket_us_settlement`, from the body to `long_value`. -/
def polymarketUsLongValue (body : Json) : Except Raised (Option Number) := do
  match ← fieldOf body "settlement" with
  | .null | .bool _ => pure none
  | raw =>
      let long ← catching [.invalidOperation]
        (do
          let long ← decimal raw.text
          pure (some long))
        (.ok none)
      match long with
      | none => pure none
      | some long => inRange long

/-! ## The lookups -/

/-- What a side of a market is paid of the value of the long side. -/
def sideValue (long side : String) (value : Number) : Except Raised (Option Number) :=
  if side = long then .ok (some value)
  else do
    let other ← raising ((Number.num 1).sub value)
    pure (some other)

/-- A lookup: `read` makes of the body the value of the side `long`, and the
other side is paid its complement. -/
def fetchSettlement (long short : String) (read : Json → Except Raised (Option Number))
    (answers : Answers) (outcomeId : OutcomeId) : Except Raised (Option Number) :=
  match split outcomeId with
  | none => .ok none
  | some (_, side) =>
      if side ≠ long ∧ side ≠ short then .ok none
      else do
        match ← get answers with
        | none => pure none
        | some resp =>
            if resp.statusCode ≠ 200 then pure none
            else do
              -- nothing catches what reading the body raises
              let body ← resp.json
              match ← read body with
              | none => pure none
              | some value => sideValue long side value

/-- `fetch_kalshi_settlement`. -/
def fetchKalshiSettlement : Answers → OutcomeId → Except Raised (Option Number) :=
  fetchSettlement "YES" "NO" kalshiYesValue

/-- `fetch_polymarket_us_settlement`. -/
def fetchPolymarketUsSettlement : Answers → OutcomeId → Except Raised (Option Number) :=
  fetchSettlement "LONG" "SHORT" polymarketUsLongValue

/-! ## What a request comes to -/

/-- Before attempt `k` the venue has throttled the lookup, and each time it was
waited out. -/
def Throttled (answers : Answers) (k : ℕ) : Prop :=
  ∀ j < k, ∃ resp, answers j = some resp ∧ resp.statusCode = 429 ∧
    readsNan (resp.retryAfter.getD "10") = false

/-- The lookup gets a response that is no throttle. -/
def Reaches (answers : Answers) (resp : Response) : Prop :=
  ∃ k ≤ max429Retries, Throttled answers k ∧ answers k = some resp ∧ resp.statusCode ≠ 429

/-- The venue asks the lookup to wait a time that is no number. -/
def AskedToWaitNan (answers : Answers) : Prop :=
  ∃ k < max429Retries, Throttled answers k ∧ ∃ resp, answers k = some resp ∧
    resp.statusCode = 429 ∧ readsNan (resp.retryAfter.getD "10") = true

section Requests

variable {answers : Answers} {k k' : ℕ} {resp : Response}

/-- The venue throttles attempt `k` and it is waited out. -/
def Waited (answers : Answers) (k : ℕ) : Prop :=
  ∃ resp, answers k = some resp ∧ resp.statusCode = 429 ∧
    readsNan (resp.retryAfter.getD "10") = false

theorem Throttled.succ (h : Throttled answers k) (hk : Waited answers k) :
    Throttled answers (k + 1) := by
  intro j hj
  rcases Nat.lt_succ_iff_lt_or_eq.mp hj with hj | rfl
  · exact h j hj
  · exact hk

/-- A lookup ends at one attempt only. -/
theorem Throttled.eq_of_not_waited (h : Throttled answers k) (h' : Throttled answers k')
    (hk : ¬ Waited answers k) (hk' : ¬ Waited answers k') : k = k' := by
  rcases lt_trichotomy k k' with hlt | heq | hlt
  · exact absurd (h' k hlt) hk
  · exact heq
  · exact absurd (h k' hlt) hk'

theorem not_waited_of_status (hk : answers k = some resp) (h : resp.statusCode ≠ 429) :
    ¬ Waited answers k := by
  rintro ⟨r, hr, hstatus, -⟩
  rw [hk] at hr
  cases hr
  exact h hstatus

theorem not_waited_of_nan (hk : answers k = some resp)
    (h : readsNan (resp.retryAfter.getD "10") = true) : ¬ Waited answers k := by
  rintro ⟨r, hr, -, hnan⟩
  rw [hk] at hr
  cases hr
  rw [h] at hnan
  cases hnan

/-- A lookup that ends in no response. -/
theorem ends_of_none (h : Throttled answers k) (hk : answers k = none) :
    ¬ AskedToWaitNan answers ∧ ∀ resp, ¬ Reaches answers resp := by
  have hstop : ¬ Waited answers k := by
    rintro ⟨r, hr, -⟩
    rw [hk] at hr
    cases hr
  constructor
  · rintro ⟨j, -, hj, r, hr, -, hnan⟩
    cases h.eq_of_not_waited hj hstop (not_waited_of_nan hr hnan)
    rw [hk] at hr
    cases hr
  · rintro r ⟨j, -, hj, hr, hstatus⟩
    cases h.eq_of_not_waited hj hstop (not_waited_of_status hr hstatus)
    rw [hk] at hr
    cases hr

/-- A lookup that ends in a response. -/
theorem ends_of_status (h : Throttled answers k) (hk : answers k = some resp)
    (hstatus : resp.statusCode ≠ 429) : ¬ AskedToWaitNan answers := by
  rintro ⟨j, -, hj, r, hr, h429, hnan⟩
  cases h.eq_of_not_waited hj (not_waited_of_status hk hstatus) (not_waited_of_nan hr hnan)
  rw [hk] at hr
  cases hr
  exact hstatus h429

/-- A lookup that is throttled to the end. -/
theorem ends_of_throttled (h : Throttled answers max429Retries)
    (hk : answers max429Retries = some resp) (hstatus : resp.statusCode = 429) :
    ¬ AskedToWaitNan answers ∧ ∀ resp, ¬ Reaches answers resp := by
  constructor
  · rintro ⟨j, hlt, -, r, hr, -, hnan⟩
    exact not_waited_of_nan hr hnan (h j hlt)
  · rintro r ⟨j, hle, hj, hr, hother⟩
    rcases lt_or_eq_of_le hle with hlt | rfl
    · exact not_waited_of_status hr hother (h j hlt)
    · rw [hk] at hr
      cases hr
      exact hother hstatus

theorem attempt_of_none {retries : ℕ} (hk : answers k = none) :
    attempt answers retries k = .ok none := by
  rw [attempt, hk]

theorem attempt_of_status {retries : ℕ} (hk : answers k = some resp)
    (hstatus : resp.statusCode ≠ 429) : attempt answers retries k = .ok (some resp) := by
  rw [attempt, hk]
  exact if_pos hstatus

theorem attempt_zero (hk : answers k = some resp) (hstatus : resp.statusCode = 429) :
    attempt answers 0 k = .ok none := by
  rw [attempt, hk]
  exact if_neg (not_not.mpr hstatus)

theorem attempt_succ {retries : ℕ} (hk : answers k = some resp)
    (hstatus : resp.statusCode = 429) :
    attempt answers (retries + 1) k =
      if readsNan (resp.retryAfter.getD "10") then .error .valueError
      else attempt answers retries (k + 1) := by
  rw [attempt, hk]
  refine (if_neg (not_not.mpr hstatus)).trans ?_
  rw [wait]
  cases readsNan (resp.retryAfter.getD "10") <;> rfl

/-- What the attempts from one on come to. -/
theorem attempt_cases (retries k : ℕ) (hk : retries + k = max429Retries)
    (h : Throttled answers k) :
    (AskedToWaitNan answers ∧ attempt answers retries k = .error .valueError) ∨
    (¬ AskedToWaitNan answers ∧
      ((∃ resp, Reaches answers resp ∧ attempt answers retries k = .ok (some resp)) ∨
        (∀ resp, ¬ Reaches answers resp) ∧ attempt answers retries k = .ok none)) := by
  -- `retries` are those left and `k` those used, which come to the same sum
  induction retries generalizing k with
  | zero =>
      rw [Nat.zero_add] at hk
      subst hk
      cases hanswer : answers max429Retries with
      | none =>
          obtain ⟨hasked, hreaches⟩ := ends_of_none h hanswer
          exact .inr ⟨hasked, .inr ⟨hreaches, attempt_of_none hanswer⟩⟩
      | some resp =>
          by_cases hstatus : resp.statusCode = 429
          · obtain ⟨hasked, hreaches⟩ := ends_of_throttled h hanswer hstatus
            exact .inr ⟨hasked, .inr ⟨hreaches, attempt_zero hanswer hstatus⟩⟩
          · exact .inr ⟨ends_of_status h hanswer hstatus,
              .inl ⟨resp, ⟨_, le_refl _, h, hanswer, hstatus⟩, attempt_of_status hanswer hstatus⟩⟩
  | succ retries ih =>
      cases hanswer : answers k with
      | none =>
          obtain ⟨hasked, hreaches⟩ := ends_of_none h hanswer
          exact .inr ⟨hasked, .inr ⟨hreaches, attempt_of_none hanswer⟩⟩
      | some resp =>
          by_cases hstatus : resp.statusCode = 429
          · rw [attempt_succ hanswer hstatus]
            -- a NaN passes through `max` and `min` to the sleep, which raises
            cases hnan : readsNan (resp.retryAfter.getD "10") with
            | true => exact .inl ⟨⟨k, by omega, h, resp, hanswer, hstatus, hnan⟩, rfl⟩
            | false => exact ih (k + 1) (by omega) (h.succ ⟨resp, hanswer, hstatus, hnan⟩)
          · exact .inr ⟨ends_of_status h hanswer hstatus,
              .inl ⟨resp, ⟨k, by omega, h, hanswer, hstatus⟩, attempt_of_status hanswer hstatus⟩⟩

/-- **What `_get` comes to.** -/
theorem get_cases (answers : Answers) :
    (AskedToWaitNan answers ∧ get answers = .error .valueError) ∨
    (¬ AskedToWaitNan answers ∧
      ((∃ resp, Reaches answers resp ∧ get answers = .ok (some resp)) ∨
        (∀ resp, ¬ Reaches answers resp) ∧ get answers = .ok none)) :=
  attempt_cases max429Retries 0 rfl fun _ hj => absurd hj (Nat.not_lt_zero _)

theorem Reaches.unique {r r' : Response} (h : Reaches answers r) (h' : Reaches answers r') :
    r = r' := by
  obtain ⟨k, -, hk, hr, hstatus⟩ := h
  obtain ⟨k', -, hk', hr', hstatus'⟩ := h'
  cases hk.eq_of_not_waited hk' (not_waited_of_status hr hstatus)
    (not_waited_of_status hr' hstatus')
  rw [hr] at hr'
  exact Option.some.inj hr'

/-- A lookup that gets its response was not asked for a wait that is no
number. -/
theorem Reaches.not_asked (h : Reaches answers resp) : ¬ AskedToWaitNan answers := by
  obtain ⟨k, -, hk, hr, hstatus⟩ := h
  exact ends_of_status hk hr hstatus

theorem get_of_reaches (h : Reaches answers resp) : get answers = .ok (some resp) := by
  rcases get_cases answers with ⟨hasked, -⟩ | ⟨-, ⟨r, hr, hget⟩ | ⟨hnone, -⟩⟩
  · exact absurd hasked h.not_asked
  · rw [hget, h.unique hr]
  · exact absurd h (hnone resp)

end Requests

/-! ## What a body comes to -/

/-- What a reader makes of a body: it raises on those it misreads, and of the
others it returns what they pay, which is in range. -/
structure Reads (read : Json → Except Raised (Option Number)) (misread : Json → Prop)
    (pays : Json → ℚ → Prop) : Prop where
  raises : ∀ body, (∃ e, read body = .error e) ↔ misread body
  returns : ∀ body value, read body = .ok (some value) ↔ ∃ q, value = .num q ∧ pays body q
  range : ∀ body q, pays body q → 0 ≤ q ∧ q ≤ 1

/-- The value reads as a NaN. -/
def ReadsAsNan (value : Json) : Prop :=
  ∃ n, DecimalArith.ofString value.text = some n ∧ n.isNan = true

/-- The value reads as a number in range. -/
def ReadsAs (value : Json) (q : ℚ) : Prop :=
  DecimalArith.ofString value.text = some (.num q) ∧ 0 ≤ q ∧ q ≤ 1

theorem inRange_raises_iff (n : Number) : (∃ e, inRange n = .error e) ↔ n.isNan = true := by
  cases hnan : n.isNan with
  | true =>
      rw [inRange, inUnit_of_isNan hnan]
      exact iff_of_true ⟨_, rfl⟩ rfl
  | false =>
      obtain ⟨ok, hok⟩ := inUnit_of_not_isNan hnan
      rw [inRange, hok]
      cases ok <;> simp [bind, Except.bind, pure, Except.pure]

theorem inRange_returns_iff (n value : Number) :
    inRange n = .ok (some value) ↔ ∃ q : ℚ, value = .num q ∧ n = .num q ∧ 0 ≤ q ∧ q ≤ 1 := by
  have hunit := inUnit_eq_true_iff (x := n)
  rw [inRange]
  constructor
  · intro h
    cases hok : inUnit n with
    | error e => rw [hok] at h; cases h
    | ok ok =>
        cases ok with
        | false => rw [hok] at h; cases h
        | true =>
            obtain ⟨q, hq, h0, h1⟩ := hunit.mp hok
            rw [hok] at h
            cases h
            exact ⟨q, hq, hq, h0, h1⟩
  · rintro ⟨q, rfl, rfl, h0, h1⟩
    rw [hunit.mpr ⟨q, rfl, h0, h1⟩]
    rfl

theorem scalarValue_eq (value : Json) :
    scalarValue value = inRange ((DecimalArith.ofString value.text).getD (.num (-1))) := by
  rw [scalarValue, decimal]
  cases DecimalArith.ofString value.text <;> rfl

theorem scalarValue_raises_iff (value : Json) :
    (∃ e, scalarValue value = .error e) ↔ ReadsAsNan value := by
  rw [scalarValue_eq, inRange_raises_iff, ReadsAsNan]
  cases DecimalArith.ofString value.text with
  | none => simp [Number.isNan]
  | some n => simp

theorem scalarValue_returns_iff (value : Json) (yes : Number) :
    scalarValue value = .ok (some yes) ↔ ∃ q, yes = .num q ∧ ReadsAs value q := by
  rw [scalarValue_eq, inRange_returns_iff]
  refine exists_congr fun q => and_congr_right fun _ => ?_
  rw [ReadsAs]
  cases DecimalArith.ofString value.text with
  | none =>
      simp only [Option.getD_none, Number.num.injEq, reduceCtorEq, false_and, iff_false]
      rintro ⟨rfl, h0, -⟩
      norm_num at h0
  | some n => simp

/-! ### Kalshi -/

/-- The status is a text that tells a market is over. -/
def FinalStatus (market : List (String × Json)) : Prop :=
  ∃ status ∈ kalshiFinal, Json.field market "status" = .str status

/-- The value is a list or an object. -/
def Unhashable : Json → Prop
  | .list _ _ | .dict _ _ => True
  | _ => False

/-- What Kalshi's reader raises on: a body that is no object, a market that is
none and not empty, a status that cannot be looked up, a scalar NaN. -/
def KalshiMisread : Json → Prop
  | .dict body _ =>
      match Json.field body "market" with
      | .dict market _ =>
          Unhashable (Json.field market "status") ∨
            FinalStatus market ∧ Json.field market "result" = .str "scalar" ∧
              ReadsAsNan (Json.field market "settlement_value_dollars")
      | market => market.truthy = true
  | _ => True

/-- A market that is over pays its YES side `q`. -/
def KalshiMarketPays (market : List (String × Json)) (q : ℚ) : Prop :=
  FinalStatus market ∧
    (Json.field market "result" = .str "yes" ∧ q = 1 ∨
      Json.field market "result" = .str "no" ∧ q = 0 ∨
      Json.field market "result" = .str "scalar" ∧
        ReadsAs (Json.field market "settlement_value_dollars") q)

/-- The body is that of such a market. -/
def KalshiPays (body : Json) (q : ℚ) : Prop :=
  ∃ fields text market text', body = .dict fields text ∧
    Json.field fields "market" = .dict market text' ∧ KalshiMarketPays market q

theorem isFinal_cases (market : List (String × Json)) :
    (Unhashable (Json.field market "status") ∧ ¬ FinalStatus market ∧
      isFinal (Json.field market "status") = .error .typeError) ∨
    (¬ Unhashable (Json.field market "status") ∧
      (FinalStatus market ∧ isFinal (Json.field market "status") = .ok true ∨
        ¬ FinalStatus market ∧ isFinal (Json.field market "status") = .ok false)) := by
  unfold FinalStatus
  cases Json.field market "status" with
  | str status =>
      by_cases h : status ∈ kalshiFinal
      · exact .inr ⟨id, .inl ⟨⟨status, h, rfl⟩, by simp [isFinal, h]⟩⟩
      · refine .inr ⟨id, .inr ⟨?_, by simp [isFinal, h]⟩⟩
        rintro ⟨s, hs, heq⟩
        cases heq
        exact h hs
  | list items text => exact .inl ⟨trivial, by simp, rfl⟩
  | dict fields text => exact .inl ⟨trivial, by simp, rfl⟩
  | null => exact .inr ⟨id, .inr ⟨by simp, rfl⟩⟩
  | bool b => exact .inr ⟨id, .inr ⟨by simp, rfl⟩⟩
  | int n => exact .inr ⟨id, .inr ⟨by simp, rfl⟩⟩
  | float repr trunc => exact .inr ⟨id, .inr ⟨by simp, rfl⟩⟩

/-- What a market with a readable status pays. -/
theorem kalshiMarketValue_of_final {market : List (String × Json)} (h : FinalStatus market) :
    kalshiMarketValue market =
      match Json.field market "result" with
      | .str "yes" => .ok (some (.num 1))
      | .str "no" => .ok (some (.num 0))
      | .str "scalar" => scalarValue (Json.field market "settlement_value_dollars")
      | _ => .ok none := by
  rcases isFinal_cases market with ⟨-, hnot, -⟩ | ⟨-, ⟨-, hok⟩ | ⟨hnot, -⟩⟩
  · exact absurd h hnot
  · rw [kalshiMarketValue, hok]
    rfl
  · exact absurd h hnot

theorem kalshiMarketValue_raises_iff (market : List (String × Json)) :
    (∃ e, kalshiMarketValue market = .error e) ↔
      Unhashable (Json.field market "status") ∨
        FinalStatus market ∧ Json.field market "result" = .str "scalar" ∧
          ReadsAsNan (Json.field market "settlement_value_dollars") := by
  rcases isFinal_cases market with ⟨hbad, -, herror⟩ | ⟨hgood, ⟨hfinal, -⟩ | ⟨hnot, hok⟩⟩
  · rw [kalshiMarketValue, herror]
    exact iff_of_true ⟨_, rfl⟩ (.inl hbad)
  · rw [kalshiMarketValue_of_final hfinal, or_iff_right hgood, and_iff_right hfinal]
    split
    · rename_i hresult
      simp [hresult]
    · rename_i hresult
      simp [hresult]
    · rename_i hresult
      rw [scalarValue_raises_iff]
      simp [hresult]
    · rename_i hresult
      exact iff_of_false (by rintro ⟨e, he⟩; cases he) fun h => hresult h.1
  · rw [kalshiMarketValue, hok]
    simp [hgood, hnot, bind, Except.bind, pure, Except.pure]

theorem kalshiMarketValue_returns_iff (market : List (String × Json)) (value : Number) :
    kalshiMarketValue market = .ok (some value) ↔
      ∃ q, value = .num q ∧ KalshiMarketPays market q := by
  unfold KalshiMarketPays
  rcases isFinal_cases market with ⟨-, hnot, herror⟩ | ⟨-, ⟨hfinal, -⟩ | ⟨hnot, hok⟩⟩
  · rw [kalshiMarketValue, herror]
    simp [hnot, bind, Except.bind]
  · rw [kalshiMarketValue_of_final hfinal]
    split
    · rename_i hresult
      simp [hresult, hfinal, eq_comm]
    · rename_i hresult
      simp [hresult, hfinal, eq_comm]
    · rename_i hresult
      rw [scalarValue_returns_iff]
      simp [hresult, hfinal]
    · rename_i hyes hno hscalar
      refine iff_of_false (fun h => by cases h) ?_
      rintro ⟨q, -, -, ⟨h, -⟩ | ⟨h, -⟩ | ⟨h, -⟩⟩
      · exact hyes h
      · exact hno h
      · exact hscalar h
  · rw [kalshiMarketValue, hok]
    simp [hnot, bind, Except.bind, pure, Except.pure]

theorem kalshiYesValue_dict (fields : List (String × Json)) (text : String) :
    kalshiYesValue (.dict fields text) =
      match orObject (Json.field fields "market") with
      | .dict market _ => kalshiMarketValue market
      | _ => .error .attributeError := rfl

theorem kalshiPays_dict (fields : List (String × Json)) (text : String) (q : ℚ) :
    KalshiPays (.dict fields text) q ↔
      ∃ market text', Json.field fields "market" = .dict market text' ∧
        KalshiMarketPays market q := by
  constructor
  · rintro ⟨fs, t, market, text', heq, hfield, hpays⟩
    cases heq
    exact ⟨market, text', hfield, hpays⟩
  · rintro ⟨market, text', hfield, hpays⟩
    exact ⟨fields, text, market, text', rfl, hfield, hpays⟩

/-- **Kalshi's reader.** -/
theorem reads_kalshi : Reads kalshiYesValue KalshiMisread KalshiPays where
  raises := by
    intro body
    cases body with
    | dict fields text =>
        rw [kalshiYesValue_dict, KalshiMisread, orObject]
        cases hmarket : Json.field fields "market" with
        | dict market text' =>
            simp only
            rw [← kalshiMarketValue_raises_iff]
            cases market <;> simp [Json.truthy]
        -- a market that is null or absent is read as an empty object
        | null => exact iff_of_false (by rintro ⟨e, he⟩; cases he) (by simp [Json.truthy])
        | _ =>
            simp only
            split_ifs with h
            · exact iff_of_true ⟨_, rfl⟩ h
            · exact iff_of_false (by rintro ⟨e, he⟩; cases he) h
    | _ => exact iff_of_true ⟨_, rfl⟩ trivial
  returns := by
    intro body value
    cases body with
    | dict fields text =>
        rw [kalshiYesValue_dict, orObject]
        simp only [kalshiPays_dict]
        cases hmarket : Json.field fields "market" with
        | dict market text' =>
            have hpays : (∃ q, value = .num q ∧ ∃ m t, Json.dict market text' = .dict m t ∧
                KalshiMarketPays m q) ↔ ∃ q, value = .num q ∧ KalshiMarketPays market q := by
              refine exists_congr fun q => and_congr_right fun _ => ⟨?_, fun h => ⟨_, _, rfl, h⟩⟩
              rintro ⟨m, t, heq, h⟩
              cases heq
              exact h
            rw [hpays, ← kalshiMarketValue_returns_iff]
            cases market <;> simp [Json.truthy]
        | _ =>
            simp only [reduceCtorEq, false_and, exists_false, and_false, iff_false]
            split_ifs
            · intro h
              cases h
            · intro h
              cases h
    | _ =>
        refine iff_of_false (fun h => by cases h) ?_
        rintro ⟨q, -, fields, text, market, text', heq, -⟩
        cases heq
  range := by
    rintro body q ⟨-, -, market, -, -, -, -, ⟨-, rfl⟩ | ⟨-, rfl⟩ | ⟨-, -, h0, h1⟩⟩
    · exact ⟨zero_le_one, le_refl 1⟩
    · exact ⟨le_refl 0, zero_le_one⟩
    · exact ⟨h0, h1⟩

/-! ### Polymarket US -/

/-- What Polymarket US's reader raises on: a body that is no object and a NaN. -/
def PolymarketUsMisread : Json → Prop
  | .dict body _ =>
      match Json.field body "settlement" with
      | .null | .bool _ => False
      | raw => ReadsAsNan raw
  | _ => True

/-- What is neither null nor a boolean pays the long side `q`. -/
def RawPays (raw : Json) (q : ℚ) : Prop :=
  match raw with
  | .null | .bool _ => False
  | raw => ReadsAs raw q

/-- The body says that the long side is paid `q`. -/
def PolymarketUsPays (body : Json) (q : ℚ) : Prop :=
  ∃ fields text, body = .dict fields text ∧ RawPays (Json.field fields "settlement") q

theorem polymarketUsLongValue_dict (fields : List (String × Json)) (text : String) :
    polymarketUsLongValue (.dict fields text) =
      match Json.field fields "settlement" with
      | .null | .bool _ => .ok none
      | raw => scalarValue raw := by
  have hraw : ∀ raw : Json,
      (do
        let long ← catching [.invalidOperation]
          (do
            let long ← decimal raw.text
            pure (some long))
          (.ok none)
        match long with
        | none => pure none
        | some long => inRange long : Except Raised (Option Number)) = scalarValue raw := by
    intro raw
    rw [scalarValue_eq, decimal]
    cases DecimalArith.ofString raw.text with
    | none => decide +kernel
    | some n => rfl
  show (match Json.field fields "settlement" with
    | .null | .bool _ => _
    | raw => _) = _
  cases Json.field fields "settlement" with
  | null => rfl
  | bool b => rfl
  | _ => exact hraw _

/-- **Polymarket US's reader.** -/
theorem reads_polymarketUs : Reads polymarketUsLongValue PolymarketUsMisread PolymarketUsPays where
  raises := by
    intro body
    cases body with
    | dict fields text =>
        rw [polymarketUsLongValue_dict, PolymarketUsMisread]
        cases Json.field fields "settlement" with
        | null => exact iff_of_false (by rintro ⟨e, he⟩; cases he) id
        | bool b => exact iff_of_false (by rintro ⟨e, he⟩; cases he) id
        | _ => exact scalarValue_raises_iff _
    | _ => exact iff_of_true ⟨_, rfl⟩ trivial
  returns := by
    intro body value
    cases body with
    | dict fields text =>
        have hpays : ∀ q, PolymarketUsPays (.dict fields text) q ↔
            RawPays (Json.field fields "settlement") q := by
          intro q
          constructor
          · rintro ⟨fs, t, heq, h⟩
            cases heq
            exact h
          · exact fun h => ⟨fields, text, rfl, h⟩
        simp only [hpays]
        rw [polymarketUsLongValue_dict]
        cases Json.field fields "settlement" with
        | null => simp [RawPays]
        | bool b => simp [RawPays]
        | _ => exact scalarValue_returns_iff _ _
    | _ =>
        refine iff_of_false (fun h => by cases h) ?_
        rintro ⟨q, -, fields, text, heq, -⟩
        cases heq
  range := by
    rintro body q ⟨fields, text, -, h⟩
    unfold RawPays at h
    split at h
    · exact h.elim
    · exact h.elim
    · exact h.2

/-! ## What a lookup comes to -/

section Fetch

variable {long short : String} {read : Json → Except Raised (Option Number)}
  {misread : Json → Prop} {pays : Json → ℚ → Prop} {answers : Answers} {o : OutcomeId}

/-- The outcome is a side of a market of the venue. -/
def IsSide (long short : String) (o : OutcomeId) (side : String) : Prop :=
  (∃ market, split o = some (market, side)) ∧ (side = long ∨ side = short)

/-- A lookup that raises: the venue asks for a wait that is no number, or sends
with status 200 what is not JSON or what the reader misreads. -/
def Misanswered (long short : String) (misread : Json → Prop) (answers : Answers)
    (o : OutcomeId) : Prop :=
  (∃ side, IsSide long short o side) ∧
    (AskedToWaitNan answers ∨ ∃ resp, Reaches answers resp ∧ resp.statusCode = 200 ∧
      ∀ body ∈ resp.body, misread body)

/-- A response that is final and valid for the outcome: its market pays the
long side `x`, and the outcome is paid `q`. -/
def Pays (long short : String) (pays : Json → ℚ → Prop) (answers : Answers) (o : OutcomeId)
    (q : ℚ) : Prop :=
  ∃ side, IsSide long short o side ∧ ∃ resp body x, Reaches answers resp ∧
    resp.statusCode = 200 ∧ resp.body = some body ∧ pays body x ∧
      q = if side = long then x else rounded (1 - x)

theorem fetchSettlement_of_not_side (h : ¬ ∃ side, IsSide long short o side) :
    fetchSettlement long short read answers o = .ok none := by
  unfold fetchSettlement
  cases hsplit : split o with
  | none => rfl
  | some sides =>
      obtain ⟨market, side⟩ := sides
      refine if_pos ?_
      by_contra hnot
      refine h ⟨side, ⟨market, hsplit⟩, ?_⟩
      tauto

/-- What a lookup makes of the response it gets. -/
def ofResponse (long side : String) (read : Json → Except Raised (Option Number))
    (resp : Response) : Except Raised (Option Number) :=
  if resp.statusCode ≠ 200 then .ok none
  else do
    let body ← resp.json
    match ← read body with
    | none => pure none
    | some value => sideValue long side value

theorem fetchSettlement_of_side {side : String} (h : IsSide long short o side) :
    fetchSettlement long short read answers o = (do
      match ← get answers with
      | none => pure none
      | some resp => ofResponse long side read resp) := by
  obtain ⟨⟨market, hsplit⟩, hside⟩ := h
  rw [fetchSettlement, hsplit]
  exact if_neg (by tauto)

/-- A value in range has a complement in range. -/
theorem sideValue_num {x : ℚ} (h0 : 0 ≤ x) (h1 : x ≤ 1) (long side : String) :
    sideValue long side (.num x) =
      .ok (some (.num (if side = long then x else rounded (1 - x)))) := by
  unfold sideValue
  split_ifs
  · rfl
  · rw [Number.sub_num, (DecimalArith.finish_of_mem (q := 1 - x) (by linarith) (by linarith)).1]
    rfl

section Response

variable {resp : Response} {side : String}

/-- The response is of status 200 and not JSON, or misread. -/
def Misread (misread : Json → Prop) (resp : Response) : Prop :=
  resp.statusCode = 200 ∧ ∀ body ∈ resp.body, misread body

/-- The response is of status 200 and pays the long side `x`. -/
def PaysLong (pays : Json → ℚ → Prop) (resp : Response) (x : ℚ) : Prop :=
  resp.statusCode = 200 ∧ ∃ body, resp.body = some body ∧ pays body x

theorem ofResponse_of_status (h : resp.statusCode ≠ 200) :
    ofResponse long side read resp = .ok none := if_pos h

theorem ofResponse_of_body {body : Json} (hstatus : resp.statusCode = 200)
    (hbody : resp.body = some body) :
    ofResponse long side read resp = (do
      match ← read body with
      | none => pure none
      | some value => sideValue long side value) := by
  rw [ofResponse, if_neg (not_not.mpr hstatus), Response.json, hbody]
  rfl

theorem ofResponse_of_paysLong (hreads : Reads read misread pays) {x : ℚ}
    (h : PaysLong pays resp x) :
    ofResponse long side read resp =
      .ok (some (.num (if side = long then x else rounded (1 - x)))) := by
  obtain ⟨hstatus, body, hbody, hx⟩ := h
  obtain ⟨h0, h1⟩ := hreads.range body x hx
  rw [ofResponse_of_body hstatus hbody, (hreads.returns body (.num x)).mpr ⟨x, rfl, hx⟩,
    ← sideValue_num h0 h1]
  rfl

/-- The three ends of a response. -/
theorem ofResponse_cases (long side : String) (hreads : Reads read misread pays)
    (resp : Response) :
    (Misread misread resp ∧ ∃ e, ofResponse long side read resp = .error e) ∨
    (¬ Misread misread resp ∧ ((∃ x, PaysLong pays resp x) ∨
      (∀ x, ¬ PaysLong pays resp x) ∧ ofResponse long side read resp = .ok none)) := by
  by_cases hstatus : resp.statusCode = 200
  swap
  · exact .inr ⟨fun h => hstatus h.1,
      .inr ⟨fun x h => hstatus h.1, ofResponse_of_status hstatus⟩⟩
  cases hbody : resp.body with
  -- the body is no JSON: `resp.json()` is not guarded
  | none =>
      refine .inl ⟨⟨hstatus, fun body h => ?_⟩, .valueError, ?_⟩
      · rw [hbody] at h
        cases h
      · rw [ofResponse, if_neg (not_not.mpr hstatus), Response.json, hbody]
        rfl
  | some body =>
      have hmisread : Misread misread resp ↔ misread body := by
        rw [Misread, hbody]
        simp [hstatus]
      rw [hmisread, ← hreads.raises body, ofResponse_of_body hstatus hbody]
      cases hread : read body with
      | error e => exact .inl ⟨⟨e, rfl⟩, e, rfl⟩
      | ok value =>
          refine .inr ⟨?_, ?_⟩
          · rintro ⟨e, he⟩
            cases he
          cases value with
          | none =>
              refine .inr ⟨?_, rfl⟩
              rintro x ⟨-, body', hbody', hx⟩
              rw [hbody] at hbody'
              cases hbody'
              have h := (hreads.returns body (.num x)).mpr ⟨x, rfl, hx⟩
              rw [hread] at h
              cases h
          | some value =>
              obtain ⟨x, -, hx⟩ := (hreads.returns body value).mp hread
              exact .inl ⟨x, hstatus, body, hbody, hx⟩

/-- The response a lookup gets decides whether it is misanswered. -/
theorem misanswered_iff (hside : IsSide long short o side) (hreaches : Reaches answers resp) :
    Misanswered long short misread answers o ↔ Misread misread resp := by
  constructor
  · rintro ⟨-, h | ⟨r, hr, h⟩⟩
    · exact absurd h hreaches.not_asked
    · rw [hreaches.unique hr]
      exact h
  · exact fun h => ⟨⟨side, hside⟩, .inr ⟨resp, hreaches, h⟩⟩

/-- It decides what the outcome is paid, too. -/
theorem pays_iff (hside : IsSide long short o side) (hreaches : Reaches answers resp) {q : ℚ} :
    Pays long short pays answers o q ↔
      ∃ x, PaysLong pays resp x ∧ q = if side = long then x else rounded (1 - x) := by
  constructor
  · rintro ⟨side', ⟨⟨market', hsplit'⟩, -⟩, r, body, x, hr, hstatus, hbody, hx, hq⟩
    obtain ⟨⟨market, hsplit⟩, -⟩ := hside
    rw [hsplit] at hsplit'
    cases hsplit'
    rw [hreaches.unique hr]
    exact ⟨x, ⟨hstatus, body, hbody, hx⟩, hq⟩
  · rintro ⟨x, ⟨hstatus, body, hbody, hx⟩, hq⟩
    exact ⟨side, hside, resp, body, x, hreaches, hstatus, hbody, hx, hq⟩

end Response

/-- **The three ends of a lookup.** -/
theorem fetchSettlement_cases (long short : String) (hreads : Reads read misread pays)
    (answers : Answers) (o : OutcomeId) :
    (Misanswered long short misread answers o ∧
      ∃ e, fetchSettlement long short read answers o = .error e) ∨
    (¬ Misanswered long short misread answers o ∧
      ((∃ q, Pays long short pays answers o q ∧
          fetchSettlement long short read answers o = .ok (some (.num q))) ∨
        (∀ q, ¬ Pays long short pays answers o q) ∧
          fetchSettlement long short read answers o = .ok none)) := by
  -- what is no side of a market is not asked for
  by_cases hside : ∃ side, IsSide long short o side
  swap
  · refine .inr ⟨fun h => hside h.1, .inr ⟨?_, fetchSettlement_of_not_side hside⟩⟩
    rintro q ⟨side, h, -⟩
    exact hside ⟨side, h⟩
  obtain ⟨side, hside⟩ := hside
  rw [fetchSettlement_of_side hside]
  rcases get_cases answers with ⟨hasked, hget⟩ | ⟨hasked, ⟨resp, hreaches, hget⟩ | ⟨hnone, hget⟩⟩
  · rw [hget]
    exact .inl ⟨⟨⟨side, hside⟩, .inl hasked⟩, _, rfl⟩
  · rw [hget, misanswered_iff hside hreaches]
    simp only [pays_iff hside hreaches]
    rcases ofResponse_cases long side hreads resp with
      ⟨hmisread, e, he⟩ | ⟨hnot, ⟨x, hx⟩ | ⟨hnone, hok⟩⟩
    · exact .inl ⟨hmisread, e, he⟩
    · exact .inr ⟨hnot, .inl ⟨_, ⟨x, hx, rfl⟩, ofResponse_of_paysLong hreads hx⟩⟩
    · exact .inr ⟨hnot, .inr ⟨fun q ⟨x, hx, _⟩ => hnone x hx, hok⟩⟩
  · rw [hget]
    refine .inr ⟨?_, .inr ⟨?_, rfl⟩⟩
    · rintro ⟨-, h | ⟨r, hr, -⟩⟩
      · exact hasked h
      · exact hnone r hr
    · rintro q ⟨-, -, r, -, -, hr, -⟩
      exact hnone r hr

/-- **When a lookup raises.** -/
theorem fetchSettlement_raises_iff (hreads : Reads read misread pays) :
    (∃ e, fetchSettlement long short read answers o = .error e) ↔
      Misanswered long short misread answers o := by
  rcases fetchSettlement_cases long short hreads answers o with
    ⟨h, e, he⟩ | ⟨h, ⟨q, -, hq⟩ | ⟨-, hnone⟩⟩
  · exact iff_of_true ⟨e, he⟩ h
  · exact iff_of_false (by rw [hq]; rintro ⟨e, he⟩; cases he) h
  · exact iff_of_false (by rw [hnone]; rintro ⟨e, he⟩; cases he) h

/-- A final and valid response is what the lookup returns. -/
theorem fetchSettlement_of_pays (hreads : Reads read misread pays) {q : ℚ}
    (h : Pays long short pays answers o q) :
    fetchSettlement long short read answers o = .ok (some (.num q)) := by
  obtain ⟨side, hside, resp, body, x, hreaches, hstatus, hbody, hx, rfl⟩ := h
  rw [fetchSettlement_of_side hside, get_of_reaches hreaches]
  exact ofResponse_of_paysLong hreads ⟨hstatus, body, hbody, hx⟩

/-- Nothing else is returned. -/
theorem fetchSettlement_returns_iff (hreads : Reads read misread pays) {value : Number} :
    fetchSettlement long short read answers o = .ok (some value) ↔
      ∃ q, value = .num q ∧ Pays long short pays answers o q := by
  constructor
  · intro h
    rcases fetchSettlement_cases long short hreads answers o with
      ⟨-, e, he⟩ | ⟨-, ⟨q, hq, hok⟩ | ⟨-, hok⟩⟩
    · rw [he] at h
      cases h
    · rw [hok] at h
      cases h
      exact ⟨q, rfl, hq⟩
    · rw [hok] at h
      cases h
  · rintro ⟨q, rfl, hq⟩
    exact fetchSettlement_of_pays hreads hq

/-- What an outcome is paid is in range. -/
theorem Pays.range (hreads : Reads read misread pays) {q : ℚ}
    (h : Pays long short pays answers o q) : 0 ≤ q ∧ q ≤ 1 := by
  obtain ⟨side, -, resp, body, x, -, -, -, hx, rfl⟩ := h
  obtain ⟨h0, h1⟩ := hreads.range body x hx
  split
  · exact ⟨h0, h1⟩
  · exact (DecimalArith.finish_of_mem (q := 1 - x) (by linarith) (by linarith)).2

/-- **The two sides of a market add up to 1** under one response, in the
arithmetic of `Decimal`. -/
theorem sides_add_up (hreads : Reads read misread pays) (hsides : long ≠ short) {o' : OutcomeId}
    {market market' : String} (ho : split o = some (market, long))
    (ho' : split o' = some (market', short)) {value value' : Number}
    (h : fetchSettlement long short read answers o = .ok (some value))
    (h' : fetchSettlement long short read answers o' = .ok (some value')) :
    value.add value' = .ok (.num 1) := by
  obtain ⟨q, rfl, side, ⟨⟨m, hm⟩, -⟩, resp, body, x, hreaches, hstatus, hbody, hx, rfl⟩ :=
    (fetchSettlement_returns_iff hreads).mp h
  obtain ⟨q', rfl, side', ⟨⟨m', hm'⟩, -⟩, resp', body', x', hreaches', -, hbody', hx', rfl⟩ :=
    (fetchSettlement_returns_iff hreads).mp h'
  rw [ho] at hm
  rw [ho'] at hm'
  cases hm
  cases hm'
  cases hreaches.unique hreaches'
  rw [hbody] at hbody'
  cases hbody'
  have hsame : x' = x := by
    have hread := (hreads.returns body (.num x)).mpr ⟨x, rfl, hx⟩
    have hread' := (hreads.returns body (.num x')).mpr ⟨x', rfl, hx'⟩
    rw [hread] at hread'
    cases hread'
    rfl
  obtain ⟨h0, h1⟩ := hreads.range body x hx
  have hsum := DecimalArith.rounded_add_complement h0 h1
  rw [if_pos rfl, if_neg (Ne.symm hsides), hsame, Number.add_num, DecimalArith.finish, hsum,
    if_neg (by norm_num [DecimalArith.emax])]

end Fetch

end Settlement

end Arbys
