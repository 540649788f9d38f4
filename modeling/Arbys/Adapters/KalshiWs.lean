import Arbys.Adapters.FeedQuote
import Arbys.Lib.KeepBest
import Arbys.Lib.Runs

/-!
# The Kalshi WebSocket adapter

`adapters/kalshi_ws.py`, from a decoded frame to the quotes it yields. A side
of a market is a ladder keyed by the price as the venue spelled it; a snapshot
replaces both ladders, a delta moves one key. `handleMessage` returns the books
it leaves beside what it yields, since a frame that raises may have changed
them.
-/

namespace Arbys

namespace KalshiWs

open DecimalArith (Number Signal)
open PyJson

/-- The fields of a JSON object. -/
abbrev Fields := List (String × Json)

/-- One side of a market: the size resting at each price, by its spelling. -/
abbrev Ladder := Dict String Number

/-- `_MarketBook`. -/
structure MarketBook where
  yes : Ladder := Dict.empty
  no : Ladder := Dict.empty
  deriving DecidableEq

/-! ## Ladders -/

/-- `lvl[0], lvl[1]`, as texts; `none` where the loop continues. -/
def levelEntry (lvl : Json) : Except Raised (Option (String × String)) :=
  catching [.indexError, .typeError]
    (do
      let price ← lvl.index 0
      let size ← lvl.index 1
      pure (some (price.text, size.text)))
    (.ok none)

/-- One turn of the loop of `_levels_to_dict`. -/
def putLevel (out : Ladder) (lvl : Json) : Except Raised Ladder := do
  match ← levelEntry lvl with
  | none => pure out
  | some (price, size) =>
      catching [.valueError, .typeError]
        (do
          let size ← decimal size
          pure (out.set price size))
        (.ok out)

/-- `_levels_to_dict`. -/
def levelsToDict : Json → Except Raised Ladder
  | .list items _ => items.foldlM putLevel Dict.empty
  | _ => .ok Dict.empty

/-- `Decimal(p_str)`; `none` where the loop continues. -/
def readPrice (text : String) : Except Raised (Option Number) :=
  catching [.arithmeticError, .valueError, .typeError]
    (do
      let p ← decimal text
      pure (some p))
    (.ok none)

/-- `best is None or p > best[0]`, and then `best = (p, size)`. -/
def higher (best : Option (Number × Number)) (p size : Number) :
    Except Raised (Option (Number × Number)) :=
  match best with
  | none => pure (some (p, size))
  | some (price, resting) => do
      if ← raising (price.lt p) then pure (some (p, size)) else pure (some (price, resting))

/-- `_max_price_and_size`. -/
def maxPriceAndSize (book : Ladder) : Except Raised (Option (Number × Number)) :=
  book.entries.foldlM (fun best entry => do
    match ← readPrice entry.1 with
    | none => pure best
    | some p => higher best p entry.2) none

/-! ## Books -/

namespace MarketBook

/-- `apply_snapshot`. The YES side is replaced before the NO side is read. -/
def applySnapshot (book : MarketBook) (msg : Fields) : MarketBook × Except Raised Unit :=
  match levelsToDict (Json.field msg "yes_dollars_fp") with
  | .error e => (book, .error e)
  | .ok yes =>
      match levelsToDict (Json.field msg "no_dollars_fp") with
      | .error e => ({ book with yes := yes }, .error e)
      | .ok no => (⟨yes, no⟩, .ok ())

/-- What `apply_delta` does to the ladder of its side. -/
def moveLevel (ladder : Ladder) (price deltaFp : String) : Except Raised Ladder := do
  let change ← catching [.valueError, .typeError]
    (do
      let change ← decimal deltaFp
      pure (some change))
    (.ok none)
  match change with
  | none => pure ladder
  | some change =>
      let new ← raising ((ladder.getD price (.num 0)).add change)
      if ← raising (new.le (.num 0)) then pure (ladder.erase price)
      else pure (ladder.set price new)

/-- `apply_delta`. -/
def applyDelta (book : MarketBook) (side price deltaFp : String) : Except Raised MarketBook :=
  if side = "yes" then do
    let yes ← moveLevel book.yes price deltaFp
    pure { book with yes := yes }
  else do
    let no ← moveLevel book.no price deltaFp
    pure { book with no := no }

end MarketBook

/-! ## Quotes -/

/-- `_quote`. -/
def quote (oid : OutcomeId) (bid ask bidSize askSize : Number) :
    Except Raised (Option FeedQuote) := do
  let crossed ← raising (ask.lt bid)
  let bid := if crossed then ask else bid
  catching [.valueError]
    (do
      let q ← FeedQuote.new oid bid ask (some bidSize) (some askSize) none
      pure (some q))
    (.ok none)

/-- The ask a side takes from the best bid of the other, with its size. -/
def askOf (best : Option (Number × Number)) : Except Raised (Number × Number) :=
  match best with
  | some (price, size) => do
      let ask ← raising ((Number.num 1).sub price)
      pure (ask, size)
  | none => pure (.num 1, .num 0)

/-- The quotes of two best bids. -/
def quotesOfBest (ticker : String) (yesBest noBest : Option (Number × Number)) :
    Except Raised (List FeedQuote) := do
  let (yesBid, yesBidSize) := yesBest.getD (.num 0, .num 0)
  let (noBid, noBidSize) := noBest.getD (.num 0, .num 0)
  let (yesAsk, yesAskSize) ← askOf noBest
  let (noAsk, noAskSize) ← askOf yesBest
  let yesQ ← quote (ticker ++ ":YES") yesBid yesAsk yesBidSize yesAskSize
  let noQ ← quote (ticker ++ ":NO") noBid noAsk noBidSize noAskSize
  pure (yesQ.toList ++ noQ.toList)

/-- `_quotes_for`. -/
def quotesFor (ticker : String) (book : MarketBook) : Except Raised (List FeedQuote) := do
  let yesBest ← maxPriceAndSize book.yes
  let noBest ← maxPriceAndSize book.no
  quotesOfBest ticker yesBest noBest

/-! ## Frames -/

/-- `self._books`, by market ticker. -/
abbrev Books := Dict String MarketBook

/-- The books a new adapter keeps: an empty one for each subscribed ticker. -/
def newBooks (tickers : List String) : Books := Dict.ofList (tickers.map fun t => (t, {}))

/-- `ticker in self._books`, and the book. -/
def subscribed (books : Books) (ticker : Json) : Except Raised (Option (String × MarketBook)) :=
  match ticker with
  | .str t => .ok ((books.get? t).map fun book => (t, book))
  | .list _ _ | .dict _ _ => .error .typeError
  | .null | .bool _ | .int _ | .float _ _ => .ok none

/-- `_handle_message` on a snapshot. -/
def handleSnapshot (books : Books) (body : Fields) : Books × Except Raised (List FeedQuote) :=
  match subscribed books (Json.field body "market_ticker") with
  | .error e => (books, .error e)
  | .ok none => (books, .ok [])
  | .ok (some (ticker, book)) =>
      let (book, applied) := book.applySnapshot body
      match applied with
      | .error e => (books.set ticker book, .error e)
      | .ok () => (books.set ticker book, quotesFor ticker book)

/-- `_handle_message` on a delta. -/
def handleDelta (books : Books) (body : Fields) : Books × Except Raised (List FeedQuote) :=
  match subscribed books (Json.field body "market_ticker") with
  | .error e => (books, .error e)
  | .ok none => (books, .ok [])
  | .ok (some (ticker, book)) =>
      match Json.field body "side", Json.field body "price_dollars", Json.field body "delta_fp" with
      | .str side, .str price, .str delta =>
          match book.applyDelta side price delta with
          | .error e => (books, .error e)
          | .ok book => (books.set ticker book, quotesFor ticker book)
      | _, _, _ => (books, .ok [])

/-- `_handle_message`. -/
def handleMessage (books : Books) (msg : Fields) : Books × Except Raised (List FeedQuote) :=
  let body := if (Json.field msg "msg").truthy then Json.field msg "msg" else .dict [] "{}"
  match body with
  | .dict body _ =>
      match Json.field msg "type" with
      | .str mtype =>
          if mtype = "orderbook_snapshot" then handleSnapshot books body
          else if mtype = "orderbook_delta" then handleDelta books body
          else (books, .ok [])
      | _ => (books, .ok [])
  | _ => (books, .error .attributeError)

/-- The books a frame leaves, whatever it raised. -/
def step (books : Books) (msg : Fields) : Books := (handleMessage books msg).1

/-! ## The best level of a ladder -/

/-- The finite number a text reads as, if it reads as one. -/
def number? (text : String) : Option ℚ :=
  match DecimalArith.ofString text with
  | some (.num q) => some q
  | _ => none

/-- A text that reads as a finite number or not at all. -/
def Plain (text : String) : Prop := ∀ n, DecimalArith.ofString text = some n → ∃ q, n = .num q

theorem number?_eq_some_iff {text : String} {q : ℚ} :
    number? text = some q ↔ DecimalArith.ofString text = some (.num q) := by
  unfold number?
  cases DecimalArith.ofString text with
  | none => simp
  | some n => cases n <;> simp

theorem readPrice_eq (text : String) : readPrice text = .ok (DecimalArith.ofString text) := by
  rw [readPrice, decimal]
  cases DecimalArith.ofString text with
  | none => rfl
  | some n => rfl

/-- Where a text is plain, the loop sees the number it reads as. -/
theorem readPrice_of_plain {text : String} (h : Plain text) :
    readPrice text = .ok ((number? text).map .num) := by
  rw [readPrice_eq, number?]
  cases ho : DecimalArith.ofString text with
  | none => rfl
  | some n =>
      obtain ⟨q, rfl⟩ := h n ho
      rfl

/-- A best level, as the code holds it. -/
def asNumbers (best : Option (ℚ × Number)) : Option (Number × Number) :=
  best.map fun b => (.num b.1, b.2)

/-- Keeping the higher of the best so far and the next is keeping the best. -/
theorem higher_argmax (seen : List (ℚ × Number)) (p : ℚ) (size : Number) :
    higher (asNumbers (seen.argmax Prod.fst)) (.num p) size =
      .ok (asNumbers ((seen ++ [(p, size)]).argmax Prod.fst)) := by
  rw [List.argmax_concat]
  cases seen.argmax Prod.fst with
  | none => rfl
  | some b =>
      show (do
        if ← raising ((Number.num b.1).lt (.num p)) then
          pure (some (Number.num p, size)) else pure (some (Number.num b.1, b.2)) :
          Except Raised _) = _
      rw [Number.lt_num, raising_ok]
      by_cases hlt : b.1 < p
      · simp [hlt, bind, Except.bind, pure, Except.pure, asNumbers]
      · simp [hlt, bind, Except.bind, pure, Except.pure, asNumbers]

/-- The levels of a ladder whose price reads as a finite number. -/
def priced (book : Ladder) : List (ℚ × Number) :=
  book.entries.filterMap fun e => (number? e.1).map fun q => (q, e.2)

/-- **The best level**: on plain prices `_max_price_and_size` returns the
highest, the first of equal ones. -/
theorem maxPriceAndSize_eq {book : Ladder} (h : ∀ e ∈ book.entries, Plain e.1) :
    maxPriceAndSize book = .ok (asNumbers ((priced book).argmax Prod.fst)) := by
  rw [priced, List.filterMap_eq_flatMap_toList]
  apply KeepBest.foldlM_argmax Prod.fst
    (fun e : String × Number => ((number? e.1).map fun q => (q, e.2)).toList) asNumbers _ []
  intro seen e he
  rw [readPrice_of_plain (h e he)]
  cases number? e.1 with
  | none =>
      rw [Option.map_none, Option.map_none, Option.toList_none, List.append_nil]
      rfl
  | some q => exact higher_argmax seen q e.2

/-- The quotes of a book are those of its two best levels. -/
theorem quotesFor_eq {ticker : String} {book : MarketBook} {yesBest noBest : Option (Number × Number)}
    (hyes : maxPriceAndSize book.yes = .ok yesBest) (hno : maxPriceAndSize book.no = .ok noBest) :
    quotesFor ticker book = quotesOfBest ticker yesBest noBest := by
  rw [quotesFor, hyes, hno]
  rfl

/-! ## One level of a ladder -/

/-- A level whose size reads as a number is stored under its price. -/
theorem putLevel_eq {lvl price size : Json} {n : Number} (hprice : lvl.index 0 = .ok price)
    (hsize : lvl.index 1 = .ok size) (hread : DecimalArith.ofString size.text = some n)
    (out : Ladder) : putLevel out lvl = .ok (out.set price.text n) := by
  unfold putLevel levelEntry
  simp only [hprice, hsize, bind, Except.bind, pure, Except.pure, catching_ok, decimal, hread]

/-- `moveLevel` on a finite change and a finite sum. -/
theorem moveLevel_eq {ladder : Ladder} {price delta : String} {change current : ℚ}
    (hdelta : DecimalArith.ofString delta = some (.num change))
    (hcurrent : ladder.getD price (.num 0) = .num current)
    (hsum : DecimalArith.finish (current + change) =
      .ok (.num (DecimalArith.rounded (current + change)))) :
    MarketBook.moveLevel ladder price delta =
      .ok (if 0 < DecimalArith.rounded (current + change) then
        ladder.set price (.num (DecimalArith.rounded (current + change)))
      else ladder.erase price) := by
  unfold MarketBook.moveLevel
  rw [decimal, hdelta]
  show (do
    let new ← raising ((ladder.getD price (.num 0)).add (.num change))
    if ← raising (new.le (.num 0)) then pure (ladder.erase price)
    else pure (ladder.set price new)) = _
  rw [hcurrent, Number.add_num, hsum, raising_ok]
  show (do
    if ← raising ((Number.num (DecimalArith.rounded (current + change))).le (.num 0)) then
      pure (ladder.erase price)
    else pure (ladder.set price (.num (DecimalArith.rounded (current + change))))) = _
  rw [Number.le_num, raising_ok]
  by_cases hpos : 0 < DecimalArith.rounded (current + change)
  · simp [hpos, not_le.mpr hpos, bind, Except.bind, pure, Except.pure]
  · simp [hpos, not_lt.mp hpos, bind, Except.bind, pure, Except.pure]

end KalshiWs

end Arbys
