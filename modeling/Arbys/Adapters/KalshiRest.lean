import Arbys.Adapters.KalshiFeed

/-!
# The Kalshi REST decoders

`adapters/kalshi.py`: the top of book from an orderbook payload, in either of
its two schemas. One scan reads `[price, size]` texts in dollars, the other
integers in cents; on a side of whole-cent bids each finds `bestLevel`, and
`foldlM_bestLevel` is the argument they share.
-/

namespace Arbys

namespace KalshiRest

open DecimalArith (Number Signal)
open PyJson
open KalshiWs (Fields)

/-! ## The decoders -/

/-- `_level_size`. -/
def levelSize (lvl : Json) : Except Raised Number :=
  catching [.arithmeticError, .valueError, .indexError, .typeError]
    (do
      let size ← lvl.index 1
      decimal size.text)
    (.ok (.num 0))

/-- One turn of the loop of `_best_price_dollars`. -/
def dollarsTurn (best : Option (Number × Number)) (lvl : Json) :
    Except Raised (Option (Number × Number)) := do
  let p ← catching [.arithmeticError, .valueError, .indexError, .typeError]
    (do
      let price ← lvl.index 0
      let p ← decimal price.text
      pure (some p))
    (.ok none)
  match p, best with
  | none, _ => pure best
  -- the size is read for a new best only
  | some p, none => do
      let size ← levelSize lvl
      pure (some (p, size))
  | some p, some b => do
      if ← raising (b.1.lt p) then do
        let size ← levelSize lvl
        pure (some (p, size))
      else pure best

/-- `_best_price_dollars`. -/
def bestPriceDollars : Json → Except Raised (Option (Number × Number))
  | .list items _ => items.foldlM dollarsTurn none
  | _ => .ok none

/-- One turn of the loop of `_best_price_cents`. -/
def centsTurn (best : Option (ℤ × Number)) (lvl : Json) : Except Raised (Option (ℤ × Number)) := do
  let c ← catching [.valueError, .indexError, .typeError]
    (do
      let price ← lvl.index 0
      let c ← price.toInt
      pure (some c))
    (.ok none)
  match c, best with
  | none, _ => pure best
  -- the size is read for a new best only
  | some c, none => do
      let size ← levelSize lvl
      pure (some (c, size))
  | some c, some b =>
      if b.1 < c then do
        let size ← levelSize lvl
        pure (some (c, size))
      else pure best

/-- `_best_price_cents`. -/
def bestPriceCents : Json → Except Raised (Option (Number × Number))
  | .list items _ => do
      match ← items.foldlM centsTurn none with
      | none => pure none
      | some best => do
          let price ← raising (DecimalArith.quotient best.1 100)
          pure (some (price, best.2))
  | _ => .ok none

/-- The best bid of each side, in the schema the payload has. -/
def bestSides (body : Fields) :
    Except Raised (Option (Number × Number) × Option (Number × Number)) :=
  match Json.field body "orderbook_fp" with
  | .null =>
      match if (Json.field body "orderbook").truthy then Json.field body "orderbook"
        else .dict [] "{}" with
      | .dict ob _ => do
          let yes ← bestPriceCents (Json.field ob "yes")
          let no ← bestPriceCents (Json.field ob "no")
          pure (yes, no)
      | _ => .error .attributeError
  | .dict fp _ => do
      let yes ← bestPriceDollars (Json.field fp "yes_dollars")
      let no ← bestPriceDollars (Json.field fp "no_dollars")
      pure (yes, no)
  | _ => .error .attributeError

inductive Side where
  | yes
  | no
  deriving DecidableEq

/-- The quote of the best bids, once they are known. -/
def quoteOfSides (outcomeId : OutcomeId) (side : Side)
    (yesSide noSide : Option (Number × Number)) : Except Raised (Option FeedQuote) := do
  let (own, other) := match side with
    | .yes => (yesSide, noSide)
    | .no => (noSide, yesSide)
  let (bid, bidSize) := match own with
    | some (price, size) => (price, size)
    | none => (.num 0, .num 0)
  let (ask, askSize) ← match other with
    | some (price, size) => do
        let ask ← raising ((Number.num 1).sub price)
        pure (ask, size)
    | none => pure (Number.num 1, Number.num 0)
  -- a crossed book is quoted with its bid at the ask
  let bid := if ← raising (ask.lt bid) then ask else bid
  catching [.valueError]
    (do
      let q ← FeedQuote.new outcomeId bid ask (some bidSize) (some askSize) none
      pure (some q))
    (.ok none)

/-- `_parse_orderbook`. -/
def parseOrderbook (outcomeId : OutcomeId) (side : Side) (body : Fields) :
    Except Raised (Option FeedQuote) := do
  let sides ← catching [.valueError, .typeError, .keyError, .indexError]
    (do
      let sides ← bestSides body
      pure (some sides))
    (.ok none)
  match sides with
  | none => pure none
  | some (yesSide, noSide) => quoteOfSides outcomeId side yesSide noSide

/-! ## The best level of a side -/

/-- A bid at a whole-cent price. -/
structure CentLevel where
  cents : ℤ
  size : ℚ
  nonneg : 0 ≤ cents
  le_hundred : cents ≤ 100

namespace CentLevel

def price (l : CentLevel) : ℚ := l.cents / 100

theorem price_nonneg (l : CentLevel) : 0 ≤ l.price := by
  have h : (0 : ℚ) ≤ l.cents := by exact_mod_cast l.nonneg
  unfold price
  positivity

theorem price_le_one (l : CentLevel) : l.price ≤ 1 := by
  have h : (l.cents : ℚ) ≤ 100 := by exact_mod_cast l.le_hundred
  unfold price
  linarith

theorem price_lt_price {l l' : CentLevel} : l.price < l'.price ↔ l.cents < l'.cents := by
  unfold price
  rw [div_lt_div_iff_of_pos_right (by norm_num)]
  exact_mod_cast Iff.rfl

theorem cents_eq {l l' : CentLevel} (h : l.price = l'.price) : l.cents = l'.cents := by
  have hcents := (div_left_inj' (by norm_num : (100 : ℚ) ≠ 0)).mp h
  exact_mod_cast hcents

/-- The level as the decoders hold it. -/
def asBest (l : CentLevel) : Number × Number := (.num l.price, .num l.size)

end CentLevel

/-- Keep the higher of the best level so far and the next. -/
def keep (best : Option CentLevel) (l : CentLevel) : Option CentLevel :=
  match best with
  | none => some l
  | some b => if b.cents < l.cents then some l else some b

/-- The first of the highest levels. -/
def bestLevel (levels : List CentLevel) : Option CentLevel := levels.foldl keep none

/-- **The argument of the three scans**: a turn that keeps the higher level,
seen through its encoding, finds the best one. -/
theorem foldlM_bestLevel {ι σ : Type} {encodes : ι → CentLevel → Prop} {enc : CentLevel → σ}
    {turn : Option σ → ι → Except Raised (Option σ)}
    (hturn : ∀ best item l, encodes item l →
      turn (best.map enc) item = .ok ((keep best l).map enc))
    {items : List ι} {levels : List CentLevel} (h : List.Forall₂ encodes items levels) :
    items.foldlM turn none = .ok ((bestLevel levels).map enc) := by
  have hfold : ∀ best : Option CentLevel,
      items.foldlM turn (best.map enc) = .ok ((levels.foldl keep best).map enc) := by
    induction h with
    | nil =>
        intro best
        rfl
    | cons hitem _ ih =>
        intro best
        rw [List.foldlM_cons, hturn best _ _ hitem]
        exact ih _
  exact hfold none

/-! ## The encodings of a level -/

/-- `[price, size]`, the price in dollars however it is spelled. -/
structure Dollars (lvl : Json) (l : CentLevel) : Prop where
  price : ∃ p, lvl.index 0 = .ok p ∧ DecimalArith.ofString p.text = some (.num l.price)
  size : ∃ s, lvl.index 1 = .ok s ∧ DecimalArith.ofString s.text = some (.num l.size)

/-- `[price, size]`, the price an integer number of cents. -/
structure Cents (lvl : Json) (l : CentLevel) : Prop where
  price : ∃ p, lvl.index 0 = .ok p ∧ p.toInt = .ok l.cents
  size : ∃ s, lvl.index 1 = .ok s ∧ DecimalArith.ofString s.text = some (.num l.size)

/-- A side as a payload carries it: a list of its levels, or nothing where it
is empty. -/
def Carries (encodes : Json → CentLevel → Prop) (levels : List CentLevel) (side : Json) : Prop :=
  (∃ items text, side = .list items text ∧ List.Forall₂ encodes items levels) ∨
    side = .null ∧ levels = []

theorem levelSize_eq {lvl : Json} {size : ℚ}
    (h : ∃ s, lvl.index 1 = .ok s ∧ DecimalArith.ofString s.text = some (.num size)) :
    levelSize lvl = .ok (.num size) := by
  obtain ⟨s, hs, hread⟩ := h
  rw [levelSize, hs]
  show catching _ (decimal s.text) _ = _
  rw [decimal, hread]
  rfl

theorem dollarsTurn_eq {lvl : Json} {l : CentLevel} (h : Dollars lvl l) (best : Option CentLevel) :
    dollarsTurn (best.map CentLevel.asBest) lvl = .ok ((keep best l).map CentLevel.asBest) := by
  obtain ⟨p, hp, hread⟩ := h.price
  have hsize := levelSize_eq h.size
  unfold dollarsTurn
  simp only [hp, bind, Except.bind, decimal, hread, pure, Except.pure, catching_ok]
  cases best with
  | none =>
      simp only [Option.map_none, hsize]
      rfl
  | some b =>
      simp only [Option.map_some, CentLevel.asBest, Number.lt_num, raising_ok,
        decide_eq_true_eq, CentLevel.price_lt_price, keep]
      split
      · simp only [hsize]
        rfl
      · rfl

theorem bestPriceDollars_eq {side : Json} {levels : List CentLevel}
    (h : Carries Dollars levels side) :
    bestPriceDollars side = .ok ((bestLevel levels).map CentLevel.asBest) := by
  rcases h with ⟨items, text, rfl, hitems⟩ | ⟨rfl, rfl⟩
  · exact foldlM_bestLevel (fun best lvl l hl => dollarsTurn_eq hl best) hitems
  · rfl

theorem centsTurn_eq {lvl : Json} {l : CentLevel} (h : Cents lvl l) (best : Option CentLevel) :
    centsTurn (best.map fun b => (b.cents, Number.num b.size)) lvl =
      .ok ((keep best l).map fun b => (b.cents, Number.num b.size)) := by
  obtain ⟨p, hp, hint⟩ := h.price
  have hsize := levelSize_eq h.size
  unfold centsTurn
  simp only [hp, bind, Except.bind, hint, pure, Except.pure, catching_ok]
  cases best with
  | none =>
      simp only [Option.map_none, hsize]
      rfl
  | some b =>
      simp only [Option.map_some, keep]
      split
      · simp only [hsize]
        rfl
      · rfl

/-- A whole number of cents is exact in dollars. -/
theorem finish_cents {c : ℤ} (h0 : 0 ≤ c) (h1 : c ≤ 100) :
    DecimalArith.finish ((c : ℚ) / 100) = .ok (.num ((c : ℚ) / 100)) := by
  have hexact : DecimalArith.rounded ((c : ℚ) / 100) = (c : ℚ) / 100 := by
    have habs : |c| ≤ 100 := by
      rw [abs_of_nonneg h0]
      exact h1
    have h := DecimalArith.rounded_of_digits (k := c) (e := -2)
      (lt_of_le_of_lt habs (by norm_num [DecimalArith.prec])) (by norm_num [DecimalArith.etiny])
    have hcents : (c : ℚ) * 10 ^ (-2 : ℤ) = (c : ℚ) / 100 := by
      rw [zpow_neg, div_eq_mul_inv]
      norm_num
    rwa [hcents] at h
  have hnonneg : (0 : ℚ) ≤ (c : ℚ) / 100 := by
    have h : (0 : ℚ) ≤ c := by exact_mod_cast h0
    positivity
  have hle : (c : ℚ) / 100 ≤ 1 := by
    have h : (c : ℚ) ≤ 100 := by exact_mod_cast h1
    linarith
  obtain ⟨hfinish, -, -⟩ := DecimalArith.finish_of_mem hnonneg hle
  rw [hfinish, hexact]

theorem quotient_cents (l : CentLevel) :
    DecimalArith.quotient l.cents 100 = .ok (.num l.price) := by
  rw [DecimalArith.quotient, if_neg (by norm_num)]
  exact finish_cents l.nonneg l.le_hundred

theorem bestPriceCents_eq {side : Json} {levels : List CentLevel}
    (h : Carries Cents levels side) :
    bestPriceCents side = .ok ((bestLevel levels).map CentLevel.asBest) := by
  rcases h with ⟨items, text, rfl, hitems⟩ | ⟨rfl, rfl⟩
  · have hfold := foldlM_bestLevel (fun best lvl l hl => centsTurn_eq hl best) hitems
    simp only [bestPriceCents, hfold, bind, Except.bind]
    cases bestLevel levels with
    | none => rfl
    | some l =>
        show (do
          let price ← raising (DecimalArith.quotient l.cents 100)
          pure (some (price, Number.num l.size)) : Except Raised _) = _
        rw [quotient_cents]
        rfl
  · rfl

end KalshiRest

end Arbys
