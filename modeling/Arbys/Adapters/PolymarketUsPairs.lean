import Arbys.Adapters.PolymarketUs
import Arbys.DecimalEngine
import Mathlib.Data.List.Permutation

/-!
# The LONG/SHORT pair is never an arbitrage of its own

Both decoders of `adapters/polymarket_us.py` build the pair from one book, so
that the SHORT ask is the complement of the LONG bid, rounded as `Decimal`
rounds. The rounding can make the two asks add up to a little less than 1; but
`Decimal` rounds that sum as well, and `one_le_rounded_add` says that it comes
to 1 again.
-/

namespace Arbys

namespace PolymarketUs

open DecimalArith (Number rounded)
open PyJson

/-- `quotes_from_bbo`. -/
def quotesFromBbo (slug : String) (marketData : List (String × Json)) :
    Except Raised (List FeedQuote) := do
  let bid ← price (Json.field marketData "bestBid")
  let ask ← price (Json.field marketData "bestAsk")
  pairToQuotes slug bid ask none none none

/-! ## What a frame says -/

/-- What the two decoders are given. -/
inductive Frame where
  | levels (bids offers : List Json) (sourceAgeS : Option ℚ)
  | bbo (marketData : List (String × Json))

/-- The size level 0 of a ladder spells. -/
def topSize : List Json → Option Number
  | .dict level _ :: _ =>
      some ((DecimalArith.ofString (Json.field level "qty").text).getD (.num 0))
  | _ => none

namespace Frame

def bid : Frame → Option Number
  | levels bids _ _ => topPrice bids
  | bbo marketData => spelledPrice (Json.field marketData "bestBid")

def ask : Frame → Option Number
  | levels _ offers _ => topPrice offers
  | bbo marketData => spelledPrice (Json.field marketData "bestAsk")

def bidSize : Frame → Option Number
  | levels bids _ _ => topSize bids
  | bbo _ => none

def askSize : Frame → Option Number
  | levels _ offers _ => topSize offers
  | bbo _ => none

def sourceAgeS : Frame → Option ℚ
  | levels _ _ sourceAgeS => sourceAgeS
  | bbo _ => none

/-- The decoder of the frame. -/
def decode (slug : String) : Frame → Except Raised (List FeedQuote)
  | levels bids offers sourceAgeS => quotesFromLevels slug bids offers sourceAgeS
  | bbo marketData => quotesFromBbo slug marketData

end Frame

theorem top_eq_sized (levels : List Json) :
    top levels = .ok (topPrice levels, topSize levels) := by
  cases levels with
  | nil => rfl
  | cons level rest =>
      cases level with
      | dict level text =>
          rw [top, price_eq, size_eq]
          rfl
      | null => rfl
      | bool b => rfl
      | int n => rfl
      | float repr trunc => rfl
      | str s => rfl
      | list items text => rfl

/-- Both decoders make the pair of what the frame says. -/
theorem Frame.decode_eq (slug : String) (frame : Frame) :
    frame.decode slug =
      pairToQuotes slug frame.bid frame.ask frame.bidSize frame.askSize frame.sourceAgeS := by
  cases frame with
  | levels bids offers sourceAgeS =>
      rw [decode, quotesFromLevels, top_eq_sized, top_eq_sized]
      rfl
  | bbo marketData =>
      rw [decode, quotesFromBbo, price_eq, price_eq]
      rfl

/-! ## The pair of a book -/

/-- The book with a missing side at the price of the other. -/
def bothSides : Option ℚ → Option ℚ → Option (ℚ × ℚ)
  | none, none => none
  | some b, none => some (b, b)
  | none, some a => some (a, a)
  | some b, some a => some (b, a)

/-- Neither crossed nor out of range. -/
def InBook (b a : ℚ) : Prop := 0 ≤ b ∧ b ≤ a ∧ a ≤ 1

/-- The LONG quote is the book, and the SHORT quote its complement with the
sizes swapped. -/
structure Complements (slug : String) (b a : ℚ) (bidSize askSize : Option Number)
    (long short : FeedQuote) : Prop where
  longId : long.outcomeId = slug ++ ":LONG"
  shortId : short.outcomeId = slug ++ ":SHORT"
  longBid : long.bid = .num b
  longAsk : long.ask = .num a
  shortBid : short.bid = .num (rounded (1 - a))
  shortAsk : short.ask = .num (rounded (1 - b))
  longBidSize : long.bidSize = bidSize
  longAskSize : long.askSize = askSize
  shortBidSize : short.bidSize = askSize
  shortAskSize : short.askSize = bidSize

section Pair

variable {slug : String} {b a : ℚ} {bidSize askSize : Option Number} {age : Option ℚ}

/-- The complement of a price of at most 28 places is exact. -/
theorem rounded_complement (h0 : 0 ≤ a) (h1 : a ≤ 1) (h : Rounding.OnPlace 10 (-28) a) :
    rounded (1 - a) = 1 - a := by
  obtain ⟨k, hk⟩ := h
  have hunit : (((10 : ℕ) : ℚ)) ^ (-28 : ℤ) = 1 / 10 ^ 28 := by norm_num
  rw [hunit] at hk
  have hk0 : 0 ≤ k := by
    have h : (0 : ℚ) ≤ k := by linarith
    exact_mod_cast h
  have hk1 : k ≤ 10 ^ 28 := by
    have h : (k : ℚ) ≤ 10 ^ 28 := by linarith
    exact_mod_cast h
  rcases eq_or_lt_of_le hk0 with rfl | hpos
  · rw [hk]
    simp
  · have h := DecimalArith.rounded_of_digits (k := 10 ^ 28 - k) (e := -28)
      (by rw [abs_of_nonneg (by omega), DecimalArith.prec]; omega)
      (by norm_num [DecimalArith.etiny])
    have hvalue : ((10 ^ 28 - k : ℤ) : ℚ) * 10 ^ (-28 : ℤ) = 1 - a := by
      rw [hk]
      push_cast
      norm_num
      ring
    rwa [hvalue] at h

theorem postInit_num_iff : postInit (.num b) (.num a) = .ok () ↔ InBook b a := by
  rw [postInit_eq_ok_iff]
  constructor
  · rintro ⟨b', a', hb, ha, hbook⟩
    cases hb
    cases ha
    exact hbook
  · exact fun hbook => ⟨b, a, rfl, rfl, hbook⟩

/-- The complement of a book is a book. -/
theorem InBook.complement (h : InBook b a) : InBook (rounded (1 - a)) (rounded (1 - b)) := by
  obtain ⟨h0, hba, h1⟩ := h
  refine ⟨(DecimalArith.finish_of_mem (by linarith) (by linarith)).2.1,
    DecimalArith.rounded_mono (by linarith),
    (DecimalArith.finish_of_mem (by linarith) (by linarith)).2.2⟩

/-- **Two finite prices make the pair** of a book. -/
theorem pairToQuotes_of_inBook (h : InBook b a) :
    ∃ long short, pairToQuotes slug (some (.num b)) (some (.num a)) bidSize askSize age =
      .ok [long, short] ∧ Complements slug b a bidSize askSize long short := by
  obtain ⟨h0, hba, h1⟩ := h
  have hbid := (DecimalArith.finish_of_mem (show 0 ≤ 1 - a by linarith)
    (show 1 - a ≤ 1 by linarith)).1
  have hask := (DecimalArith.finish_of_mem (show 0 ≤ 1 - b by linarith)
    (show 1 - b ≤ 1 by linarith)).1
  have hlong := postInit_num_iff.mpr ⟨h0, hba, h1⟩
  have hshort := postInit_num_iff.mpr (InBook.complement ⟨h0, hba, h1⟩)
  refine ⟨⟨slug ++ ":LONG", _, _, bidSize, askSize, age, hlong⟩,
    ⟨slug ++ ":SHORT", _, _, askSize, bidSize, age, hshort⟩, ?_,
    ⟨rfl, rfl, rfl, rfl, rfl, rfl, rfl, rfl, rfl, rfl⟩⟩
  -- neither quote is refused, and no subtraction overflows
  rw [pairToQuotes_both, FeedQuote.new_of_ok hlong, Number.sub_num, Number.sub_num, hbid, hask]
  simp only [raising_ok, bind, Except.bind]
  rw [FeedQuote.new_of_ok hshort]
  rfl

/-- ... and nothing where they are no book. -/
theorem pairToQuotes_of_not_inBook (h : ¬ InBook b a) :
    pairToQuotes slug (some (.num b)) (some (.num a)) bidSize askSize age = .ok [] := by
  have hvalue : postInit (.num b) (.num a) = .error .valueError := by
    rcases postInit_cases (.num b) (.num a) with ⟨hnan | ⟨-, hnan⟩, -⟩ | ⟨-, hok | hvalue⟩
    · cases hnan
    · cases hnan
    · exact absurd (postInit_num_iff.mp hok) h
    · exact hvalue
  rw [pairToQuotes_both, FeedQuote.new_of_error hvalue]
  rfl

/-- A missing side is synthesised at the price of the other, with size 0. -/
theorem pairToQuotes_bothSides {bid ask : Option ℚ} (h : bothSides bid ask = some (b, a)) :
    pairToQuotes slug (bid.map .num) (ask.map .num) bidSize askSize age =
      pairToQuotes slug (some (.num b)) (some (.num a))
        (if bid = none then some (.num 0) else bidSize)
        (if ask = none then some (.num 0) else askSize) age := by
  cases bid with
  | none =>
      cases ask with
      | none => cases h
      | some q =>
          cases h
          exact pairToQuotes_noBid
  | some p =>
      cases ask with
      | none =>
          cases h
          exact pairToQuotes_noAsk
      | some q =>
          cases h
          rfl

end Pair

/-! ## No arbitrage of its own -/

/-- No market makes an opportunity of the two quotes: the detector returns
`none`, or raises where a fee of one contract leaves the range of `Decimal`. -/
def NoArbitrage (long short : FeedQuote) : Prop :=
  ∀ (m : DecimalEngine.Market) (gid : GroupId) (legs : List EventGroupLeg),
    m.quotes.get? long.outcomeId = some long → m.quotes.get? short.outcomeId = some short →
    (legs.map (·.outcomeId)).Perm [long.outcomeId, short.outcomeId] →
    (∀ v, ∀ feeModel ∈ m.fees.get? v, DecimalEngine.NonNegative feeModel) →
    m.detectComplementarySet gid legs = .ok none ∨
      m.detectComplementarySet gid legs = .error (.decimal .overflow) ∧ ¬ m.SmallFees legs

/-- The two asks of a pair cost 1 or more. -/
theorem one_le_asks {b a : ℚ} (h : InBook b a) :
    1 ≤ rounded (rounded a + rounded (rounded (1 - b))) := by
  obtain ⟨h0, hba, h1⟩ := h
  rw [DecimalArith.rounded_rounded]
  calc (1 : ℚ) ≤ rounded (rounded b + rounded (1 - b)) :=
        DecimalArith.one_le_rounded_add h0 (hba.trans h1)
    _ ≤ rounded (rounded a + rounded (1 - b)) :=
        DecimalArith.rounded_mono (add_le_add (DecimalArith.rounded_mono hba) le_rfl)

theorem Complements.noArbitrage {slug : String} {b a : ℚ} {bidSize askSize : Option Number}
    {long short : FeedQuote} (hbook : InBook b a)
    (h : Complements slug b a bidSize askSize long short) : NoArbitrage long short := by
  intro m gid legs hlong hshort hlegs hfees
  -- the legs come in one order or the other, and the sum is the same
  have hcost := one_le_asks hbook
  obtain ⟨l, l', rfl⟩ : ∃ l l', legs = [l, l'] :=
    List.length_eq_two.mp (by simpa using hlegs.length_eq)
  rcases List.perm_pair.mp hlegs with hids | hids <;>
    simp only [List.map_cons, List.map_nil, List.cons.injEq, and_true] at hids <;>
    obtain ⟨hl, hl'⟩ := hids
  · exact DecimalEngine.Market.detectComplementarySet_pair (hl ▸ hlong) (hl' ▸ hshort) hfees
      h.longAsk h.shortAsk hcost
  · rw [add_comm] at hcost
    exact DecimalEngine.Market.detectComplementarySet_pair (hl ▸ hshort) (hl' ▸ hlong) hfees
      h.shortAsk h.longAsk hcost

/-- **LONG and SHORT are complements and never an arbitrage**: for every frame
with finite prices, a decoder returns nothing where both sides are missing or
the book is crossed or out of range, and elsewhere the pair of complements,
exact up to 28 places, whose synthesised side has size 0. -/
theorem decode_complements (slug : String) (frame : Frame) (bid ask : Option ℚ)
    (hbid : frame.bid = bid.map .num) (hask : frame.ask = ask.map .num) :
    (frame.decode slug = .ok [] ↔ ∀ b a, bothSides bid ask = some (b, a) → ¬ InBook b a) ∧
    ∀ b a, bothSides bid ask = some (b, a) → InBook b a →
      ∃ long short, frame.decode slug = .ok [long, short] ∧
        Complements slug b a (if bid = none then some (.num 0) else frame.bidSize)
          (if ask = none then some (.num 0) else frame.askSize) long short ∧
        (Rounding.OnPlace 10 (-28) a → short.bid = .num (1 - a)) ∧
        (Rounding.OnPlace 10 (-28) b → short.ask = .num (1 - b)) ∧ NoArbitrage long short := by
  have hpair : ∀ b a, bothSides bid ask = some (b, a) → InBook b a →
      ∃ long short, frame.decode slug = .ok [long, short] ∧
        Complements slug b a (if bid = none then some (.num 0) else frame.bidSize)
          (if ask = none then some (.num 0) else frame.askSize) long short := by
    intro b a hsides hbook
    rw [frame.decode_eq, hbid, hask, pairToQuotes_bothSides hsides]
    exact pairToQuotes_of_inBook hbook
  refine ⟨⟨fun hnone b a hsides hbook => ?_, fun hno => ?_⟩, fun b a hsides hbook => ?_⟩
  · obtain ⟨long, short, hdecode, -⟩ := hpair b a hsides hbook
    rw [hnone] at hdecode
    cases hdecode
  · rw [frame.decode_eq, hbid, hask]
    cases hsides : bothSides bid ask with
    | none =>
        cases bid <;> cases ask <;> first | rfl | cases hsides
    | some book =>
        rw [pairToQuotes_bothSides hsides]
        exact pairToQuotes_of_not_inBook (hno _ _ hsides)
  · obtain ⟨long, short, hdecode, hcomplements⟩ := hpair b a hsides hbook
    refine ⟨long, short, hdecode, hcomplements, fun hplaces => ?_, fun hplaces => ?_,
      hcomplements.noArbitrage hbook⟩
    · rw [hcomplements.shortBid, rounded_complement (hbook.1.trans hbook.2.1) hbook.2.2 hplaces]
    · rw [hcomplements.shortAsk, rounded_complement hbook.1 (hbook.2.1.trans hbook.2.2) hplaces]

/-! ### A bid alone, and more places than `Decimal` keeps -/

/-- A ladder of one level. -/
def ladder (px : String) : List Json :=
  [.dict [("px", .dict [("value", .str px)] ""), ("qty", .str "25")] ""]

/-- 25 contracts bid at 0.4 and nothing offered. -/
theorem decode_bidAlone :
    ∃ long short, (Frame.levels (ladder "0.4") [] none).decode "game" = .ok [long, short] ∧
      Complements "game" (2 / 5) (2 / 5) (some (.num 25)) (some (.num 0)) long short ∧
      NoArbitrage long short := by
  have hbid : (Frame.levels (ladder "0.4") [] none).bid = (some (2 / 5)).map .num := by
    decide +kernel
  have hsize : (Frame.levels (ladder "0.4") [] none).bidSize = some (.num 25) := by decide +kernel
  obtain ⟨long, short, hdecode, hpair, -, -, hnone⟩ :=
    (decode_complements "game" (.levels (ladder "0.4") [] none) (some (2 / 5)) none hbid rfl).2
      (2 / 5) (2 / 5) rfl ⟨by norm_num, by norm_num, by norm_num⟩
  rw [hsize] at hpair
  exact ⟨long, short, hdecode, hpair, hnone⟩

/-- A free LONG contract. -/
def freeLong : FeedQuote :=
  ⟨"game:LONG", .num 0, .num 0, none, none, none, by decide +kernel⟩

/-- Its complement. -/
def dearShort : FeedQuote :=
  ⟨"game:SHORT", .num 1, .num 1, none, none, none, by decide +kernel⟩

theorem complements_freeLong : Complements "game" 0 0 none none freeLong dearShort := by
  constructor <;> first | rfl | decide +kernel

/-- The two of them, on a venue that takes `fee` of everything. -/
def freeMarket (fee : ℚ) : DecimalEngine.Market where
  quotes := Dict.ofList [("game:LONG", freeLong), ("game:SHORT", dearShort)]
  fees := Dict.empty.set "polymarket_us" fun _ _ _ => .num fee

theorem nonNegative_freeMarket {fee : ℚ} (h : 0 ≤ fee) :
    ∀ v, ∀ feeModel ∈ (freeMarket fee).fees.get? v, DecimalEngine.NonNegative feeModel := by
  intro v feeModel hmem price qty isBuy
  have hget : (freeMarket fee).fees.get? v = some feeModel := hmem
  rw [freeMarket, Dict.get?_set] at hget
  split at hget
  · cases hget
    exact .inr ⟨fee, rfl, h⟩
  · cases hget

/-- A fee of 10^1000000 makes the detector raise. -/
theorem detectComplementarySet_freeMarket (gid : GroupId) :
    (freeMarket ((10 : ℚ) ^ (DecimalArith.emax + 1))).detectComplementarySet gid
      [⟨"game:LONG", "polymarket_us", true⟩, ⟨"game:SHORT", "polymarket_us", false⟩] =
        .error (.decimal .overflow) := by
  have hcost : DecimalEngine.legUnitCost freeLong.ask
      (fun _ _ _ => .num ((10 : ℚ) ^ (DecimalArith.emax + 1))) true =
        .error (.decimal .overflow) := by
    rw [DecimalEngine.legUnitCost, freeLong, Number.add_num, zero_add,
      DecimalArith.finish_zpow (by omega)]
    rfl
  have hquote : (freeMarket ((10 : ℚ) ^ (DecimalArith.emax + 1))).quotes.get? "game:LONG" =
      some freeLong := rfl
  rw [DecimalEngine.Market.detectComplementarySet, if_neg (by decide),
    DecimalEngine.Market.resolve_cons_some hquote rfl, hcost]
  rfl

/-- The complement of a price of 29 places is not exact, and a detector may
raise. -/
theorem not_decode_exact :
    (¬ ∀ (slug : String) (frame : Frame) (b a : ℚ), frame.bid = some (.num b) →
      frame.ask = some (.num a) → InBook b a →
      ∃ long short, frame.decode slug = .ok [long, short] ∧ short.bid = .num (1 - a)) ∧
    ¬ ∀ (slug : String) (b a : ℚ) (bidSize askSize : Option Number) (long short : FeedQuote),
      InBook b a → Complements slug b a bidSize askSize long short →
      ∀ (m : DecimalEngine.Market) (gid : GroupId) (legs : List EventGroupLeg),
        m.quotes.get? long.outcomeId = some long → m.quotes.get? short.outcomeId = some short →
        (legs.map (·.outcomeId)).Perm [long.outcomeId, short.outcomeId] →
        (∀ v, ∀ feeModel ∈ m.fees.get? v, DecimalEngine.NonNegative feeModel) →
        m.detectComplementarySet gid legs = .ok none := by
  constructor
  · intro hall
    have hbook : InBook (1 / 10 ^ 29) (1 / 10 ^ 29) := ⟨by norm_num, by norm_num, by norm_num⟩
    let frame : Frame := .levels (ladder "1E-29") (ladder "1E-29") none
    have hprice : topPrice (ladder "1E-29") = some (.num (1 / 10 ^ 29)) := by decide +kernel
    obtain ⟨long, short, hdecode, hbid⟩ := hall "game" frame _ _ hprice hprice hbook
    obtain ⟨long', short', hpair, hcomplements⟩ :=
      pairToQuotes_of_inBook (b := 1 / 10 ^ 29) (a := 1 / 10 ^ 29) hbook
    have hsame : frame.decode "game" = .ok [long', short'] := by
      rw [frame.decode_eq, show frame.bid = _ from hprice, show frame.ask = _ from hprice, hpair]
    rw [hdecode] at hsame
    cases hsame
    -- at 28 digits the complement of 1E-29 rounds to 1
    have hone : rounded (1 - 1 / 10 ^ 29) = 1 := by decide +kernel
    rw [hcomplements.shortBid, hone] at hbid
    have h := Number.num.inj hbid
    norm_num at h
  · intro hall
    -- a fee above the largest exponent overflows, where the detector has no guard
    have hfee : (0 : ℚ) ≤ (10 : ℚ) ^ (DecimalArith.emax + 1) := zpow_nonneg (by norm_num) _
    have hnone := hall "game" 0 0 none none _ _ ⟨le_rfl, le_rfl, by norm_num⟩
      complements_freeLong (freeMarket ((10 : ℚ) ^ (DecimalArith.emax + 1))) "eg-1"
      [⟨"game:LONG", "polymarket_us", true⟩, ⟨"game:SHORT", "polymarket_us", false⟩] rfl rfl
      (.refl _) (nonNegative_freeMarket hfee)
    rw [detectComplementarySet_freeMarket] at hnone
    cases hnone

end PolymarketUs

end Arbys
