import Arbys.Adapters.FeedQuote

/-!
# Polymarket US quotes

`adapters/polymarket_us.py`, from a frame's ladders to the LONG/SHORT pair.
What cannot be read is dropped where it is read: a price that is no number
reads as a missing side, a size as nothing resting. A NaN is a number to both
readers and is met by the checks of `Quote`, which raise on it what only
`ValueError` is caught of (`quotesFromLevels_returns_iff`).
-/

namespace Arbys

namespace PolymarketUs

open DecimalArith (Number Signal)
open PyJson

/-- `_price`. -/
def price : Json → Except Raised (Option Number)
  | .dict node _ =>
      catching [.keyError, .typeError, .invalidOperation]
        (do
          let value ← Json.item node "value"
          let px ← decimal value.text
          pure (some px))
        (.ok none)
  | _ => .ok none

/-- `_size`. -/
def size (value : Json) : Except Raised Number :=
  catching [.typeError, .invalidOperation] (decimal value.text) (.ok (.num 0))

/-- `_pair_to_quotes`. A missing side is synthesised at the price of the other
with size 0. -/
def pairToQuotes (slug : String) (bid ask bidSize askSize : Option Number)
    (sourceAgeS : Option ℚ) : Except Raised (List FeedQuote) :=
  if bid = none ∧ ask = none then .ok []
  else
    let (bid, bidSize) := if bid = none then (ask, some (.num 0)) else (bid, bidSize)
    let (ask, askSize) := if ask = none then (bid, some (.num 0)) else (ask, askSize)
    match bid, ask with
    | some bid, some ask =>
        catching [.valueError]
          (do
            let long ← FeedQuote.new (slug ++ ":LONG") bid ask bidSize askSize sourceAgeS
            -- selling LONG is buying SHORT, so the sides change places and with them the sizes
            let shortBid ← raising ((Number.num 1).sub ask)
            let shortAsk ← raising ((Number.num 1).sub bid)
            let short ← FeedQuote.new (slug ++ ":SHORT") shortBid shortAsk askSize bidSize
              sourceAgeS
            pure [long, short])
          (.ok [])
    | _, _ => .ok []

/-- `top`: price and size of level 0. -/
def top : List Json → Except Raised (Option Number × Option Number)
  | .dict level _ :: _ => do
      let px ← price (Json.field level "px")
      let qty ← size (Json.field level "qty")
      pure (px, some qty)
  | _ => .ok (none, none)

/-- `quotes_from_levels`. -/
def quotesFromLevels (slug : String) (bids offers : List Json) (sourceAgeS : Option ℚ) :
    Except Raised (List FeedQuote) := do
  let (bid, bidSize) ← top bids
  let (ask, askSize) ← top offers
  pairToQuotes slug bid ask bidSize askSize sourceAgeS

/-! ## What the readers return -/

/-- The price a node spells, if it spells one. -/
def spelledPrice : Json → Option Number
  | .dict node _ => (node.lookup "value").bind fun value => DecimalArith.ofString value.text
  | _ => none

/-- The price level 0 of a ladder spells. -/
def topPrice : List Json → Option Number
  | .dict level _ :: _ => spelledPrice (Json.field level "px")
  | _ => none

theorem price_eq (node : Json) : price node = .ok (spelledPrice node) := by
  cases node with
  | dict node text =>
      show catching _ _ _ = Except.ok ((node.lookup "value").bind _)
      unfold Json.item
      cases hvalue : node.lookup "value" with
      | none => rfl
      | some value =>
          show catching _ (do
            let px ← decimal value.text
            pure (some px)) _ = _
          rw [Option.bind_some, decimal]
          cases DecimalArith.ofString value.text with
          | none => rfl
          | some n => rfl
  | null => rfl
  | bool b => rfl
  | int n => rfl
  | float repr trunc => rfl
  | str s => rfl
  | list items text => rfl

theorem size_eq (value : Json) :
    size value = .ok ((DecimalArith.ofString value.text).getD (.num 0)) := by
  rw [size, decimal]
  cases DecimalArith.ofString value.text with
  | none => rfl
  | some n => rfl

/-- **Reading level 0 never raises**, and its price is what it spells. -/
theorem top_eq (levels : List Json) : ∃ qty, top levels = .ok (topPrice levels, qty) := by
  unfold top topPrice
  split
  · rename_i level text rest
    rw [price_eq, size_eq]
    exact ⟨_, rfl⟩
  · exact ⟨none, rfl⟩

/-! ## The pair -/

/-- The LONG quote of a market and the SHORT one. -/
def IsPair (slug : String) (quotes : List FeedQuote) : Prop :=
  ∃ long short, quotes = [long, short] ∧ long.outcomeId = slug ++ ":LONG" ∧
    short.outcomeId = slug ++ ":SHORT"

/-- The prices of a book that the checks of `Quote` raise on: a NaN that is
reached before a price out of range. -/
def Raises (bid ask : Number) : Prop :=
  bid.isNan = true ∨ inUnit bid = .ok true ∧ ask.isNan = true

theorem raises_self {x : Number} : Raises x x ↔ x.isNan = true :=
  or_iff_left_of_imp fun h => h.2

section Pair

variable {slug : String} {bid ask : Number} {bidSize askSize : Option Number} {age : Option ℚ}

theorem pairToQuotes_both :
    pairToQuotes slug (some bid) (some ask) bidSize askSize age =
      catching [.valueError]
        (do
          let long ← FeedQuote.new (slug ++ ":LONG") bid ask bidSize askSize age
          let shortBid ← raising ((Number.num 1).sub ask)
          let shortAsk ← raising ((Number.num 1).sub bid)
          let short ← FeedQuote.new (slug ++ ":SHORT") shortBid shortAsk askSize bidSize age
          pure [long, short])
        (.ok []) := by
  simp [pairToQuotes]

/-- A one-sided book is the book with both prices equal, and nothing on the
side that is missing. -/
theorem pairToQuotes_noBid :
    pairToQuotes slug none (some ask) bidSize askSize age =
      pairToQuotes slug (some ask) (some ask) (some (.num 0)) askSize age := by
  simp [pairToQuotes]

theorem pairToQuotes_noAsk :
    pairToQuotes slug (some bid) none bidSize askSize age =
      pairToQuotes slug (some bid) (some bid) bidSize (some (.num 0)) age := by
  simp [pairToQuotes]

/-- The complement of a valid book is valid: rounding keeps its order. -/
theorem complement_ok (h : postInit bid ask = .ok ()) :
    ∃ shortBid shortAsk, (Number.num 1).sub ask = .ok shortBid ∧
      (Number.num 1).sub bid = .ok shortAsk ∧ postInit shortBid shortAsk = .ok () := by
  obtain ⟨b, a, rfl, rfl, hb0, hba, ha1⟩ := postInit_eq_ok_iff.mp h
  obtain ⟨hbid, hbid0, -⟩ := DecimalArith.finish_of_mem
    (show 0 ≤ 1 - a by linarith) (show 1 - a ≤ 1 by linarith)
  obtain ⟨hask, -, hask1⟩ := DecimalArith.finish_of_mem
    (show 0 ≤ 1 - b by linarith) (show 1 - b ≤ 1 by linarith)
  refine ⟨_, _, ?_, ?_, postInit_eq_ok_iff.mpr ⟨_, _, rfl, rfl, hbid0, ?_, hask1⟩⟩
  · rw [Number.sub_num, hbid]
  · rw [Number.sub_num, hask]
  · apply DecimalArith.rounded_mono
    linarith

/-- **Two prices make a pair, nothing, or an exception.** -/
theorem pairToQuotes_some (slug : String) (bid ask : Number) (bidSize askSize : Option Number)
    (age : Option ℚ) :
    (Raises bid ask ∧ pairToQuotes slug (some bid) (some ask) bidSize askSize age =
        .error (.decimal .invalidOperation)) ∨
    (¬ Raises bid ask ∧ ∃ quotes, pairToQuotes slug (some bid) (some ask) bidSize askSize age =
        .ok quotes ∧ (quotes = [] ∨ IsPair slug quotes)) := by
  rw [pairToQuotes_both]
  rcases postInit_cases bid ask with ⟨hraises, herror⟩ | ⟨hnot, hok | hvalue⟩
  · refine .inl ⟨hraises, ?_⟩
    rw [FeedQuote.new_of_error herror]
    rfl
  · refine .inr ⟨hnot, ?_⟩
    obtain ⟨shortBid, shortAsk, hbid, hask, hshort⟩ := complement_ok hok
    rw [FeedQuote.new_of_ok hok, hbid, hask]
    simp only [raising_ok, bind, Except.bind]
    rw [FeedQuote.new_of_ok hshort]
    exact ⟨_, rfl, .inr ⟨_, _, rfl, rfl, rfl⟩⟩
  · refine .inr ⟨hnot, [], ?_, .inl rfl⟩
    rw [FeedQuote.new_of_error hvalue]
    rfl

end Pair

/-- **When `quotes_from_levels` returns**: unless the bid it builds the LONG
quote from is a NaN, or the offer is and that bid is in range. What it returns
is empty or the LONG/SHORT pair. -/
theorem quotesFromLevels_returns_iff (slug : String) (bids offers : List Json)
    (sourceAgeS : Option ℚ) :
    (∃ quotes, quotesFromLevels slug bids offers sourceAgeS = .ok quotes ∧
      (quotes = [] ∨ IsPair slug quotes)) ↔
    ¬ ((∃ bid, topPrice bids = some bid ∧ bid.isNan = true) ∨
      ∃ ask, topPrice offers = some ask ∧ ask.isNan = true ∧
        (topPrice bids = none ∨ ∃ q : ℚ, topPrice bids = some (.num q) ∧ 0 ≤ q ∧ q ≤ 1)) := by
  obtain ⟨bidSize, hbids⟩ := top_eq bids
  obtain ⟨askSize, hoffers⟩ := top_eq offers
  have hrun : quotesFromLevels slug bids offers sourceAgeS =
      pairToQuotes slug (topPrice bids) (topPrice offers) bidSize askSize sourceAgeS := by
    rw [quotesFromLevels, hbids, hoffers]
    rfl
  rw [hrun]
  have hbook : ∀ bid ask bidSize askSize,
      (∃ quotes, pairToQuotes slug (some bid) (some ask) bidSize askSize sourceAgeS = .ok quotes ∧
        (quotes = [] ∨ IsPair slug quotes)) ↔ ¬ Raises bid ask := by
    intro bid ask bidSize askSize
    rcases pairToQuotes_some slug bid ask bidSize askSize sourceAgeS with
      ⟨hraises, herror⟩ | ⟨hnot, hquotes⟩
    · rw [herror]
      simp [hraises]
    · simp only [hnot, not_false_eq_true, iff_true]
      exact hquotes
  -- a side without a price is made up from the other, so one NaN stands on both
  cases hb : topPrice bids with
  | none =>
      cases ha : topPrice offers with
      | none => simp [pairToQuotes]
      | some ask =>
          rw [pairToQuotes_noBid, hbook, raises_self]
          simp
  | some bid =>
      cases ha : topPrice offers with
      | none =>
          rw [pairToQuotes_noAsk, hbook, raises_self]
          simp
      | some ask =>
          rw [hbook]
          simp [Raises, inUnit_eq_true_iff, and_comm]

/-! ### A bid that reads as NaN -/

namespace NanBid

/-- `[{"px": {"value": "NaN"}, "qty": "5"}]`. -/
def bids : List Json :=
  [.dict [("px", .dict [("value", .str "NaN")] "\x7b'value': 'NaN'\x7d"), ("qty", .str "5")]
    "\x7b'px': \x7b'value': 'NaN'\x7d, 'qty': '5'\x7d"]

end NanBid

theorem not_quotesFromLevels_returns :
    ¬ ∀ (slug : String) (bids offers : List Json) (sourceAgeS : Option ℚ),
      ∃ quotes, quotesFromLevels slug bids offers sourceAgeS = .ok quotes ∧
        (quotes = [] ∨ IsPair slug quotes) := by
  intro h
  obtain ⟨quotes, hok, -⟩ := h "game" NanBid.bids [] none
  have herror : quotesFromLevels "game" NanBid.bids [] none =
      .error (.decimal .invalidOperation) := by decide +kernel
  rw [herror] at hok
  cases hok

end PolymarketUs

end Arbys
