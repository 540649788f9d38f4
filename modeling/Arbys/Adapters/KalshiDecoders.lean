import Arbys.Adapters.KalshiRest

/-!
# The three Kalshi decoders

A market's bids reach the book by three ways: a WebSocket snapshot, whose
levels are put in a dictionary first, and the two REST schemas. With distinct
prices the dictionary holds the levels in their order, so its scan finds
`bestLevel` too, and both inversions make `topQuote` of it: `decoders_agree`.
-/

namespace Arbys

namespace KalshiRest

open DecimalArith (Number)
open PyJson
open KalshiWs (Fields)

/-! ## The ladder of a snapshot -/

/-- The levels of a side have pairwise distinct prices. -/
def DistinctPrices (levels : List CentLevel) : Prop :=
  levels.Pairwise fun l l' => l.cents ≠ l'.cents

/-- An entry of a ladder holds a level. -/
structure Holds (entry : String × Number) (l : CentLevel) : Prop where
  price : DecimalArith.ofString entry.1 = some (.num l.price)
  size : entry.2 = .num l.size

theorem exists_holds {entries : List (String × Number)} {levels : List CentLevel}
    (h : List.Forall₂ Holds entries levels) {entry : String × Number} (hmem : entry ∈ entries) :
    ∃ l ∈ levels, Holds entry l :=
  Runs.exists_of_mem_collected h.flip hmem

theorem putLevel_dollars {lvl : Json} {l : CentLevel} (h : Dollars lvl l)
    (out : KalshiWs.Ladder) :
    ∃ text, DecimalArith.ofString text = some (.num l.price) ∧
      KalshiWs.putLevel out lvl = .ok (out.set text (.num l.size)) := by
  obtain ⟨p, hp, hprice⟩ := h.price
  obtain ⟨s, hs, hsize⟩ := h.size
  exact ⟨p.text, hprice, KalshiWs.putLevel_eq hp hs hsize out⟩

/-- A snapshot with distinct prices keeps every level, in its order. -/
theorem levelsToDict_dollars {side : Json} {levels : List CentLevel}
    (hdistinct : DistinctPrices levels) (h : Carries Dollars levels side) :
    ∃ ladder, KalshiWs.levelsToDict side = .ok ladder ∧
      List.Forall₂ Holds ladder.entries levels := by
  rcases h with ⟨items, text, rfl, hitems⟩ | ⟨rfl, rfl⟩
  · -- the induction is on the levels still to put, `seen` are those in the ladder
    have hloop : ∀ (seen : List CentLevel) (out : KalshiWs.Ladder),
        List.Forall₂ Holds out.entries seen → DistinctPrices (seen ++ levels) →
          ∃ ladder, items.foldlM KalshiWs.putLevel out = .ok ladder ∧
            List.Forall₂ Holds ladder.entries (seen ++ levels) := by
      clear hdistinct
      induction hitems with
      | nil =>
          intro seen out hseen _
          refine ⟨out, rfl, ?_⟩
          rw [List.append_nil]
          exact hseen
      | @cons lvl l lvls ls hitem _ ih =>
          intro seen out hseen hdistinct
          obtain ⟨key, hkey, hput⟩ := putLevel_dollars hitem out
          have hnew : out.get? key = none := by
            rw [Option.eq_none_iff_forall_ne_some]
            intro size hsize
            obtain ⟨l', hl', hholds⟩ : ∃ l' ∈ seen, Holds (key, size) l' :=
              exists_holds hseen (Dict.mem_entries_iff.mpr hsize)
            have hne : l'.cents ≠ l.cents :=
              (List.pairwise_append.mp hdistinct).2.2 l' hl' l List.mem_cons_self
            have hprice : l'.price = l.price := by
              have h := hholds.price
              rw [hkey] at h
              simpa using h.symm
            exact hne (CentLevel.cents_eq hprice)
          rw [List.foldlM_cons, hput]
          have hseen' : List.Forall₂ Holds (out.set key (.num l.size)).entries (seen ++ [l]) := by
            rw [Dict.entries_set_of_get?_none hnew]
            exact List.rel_append hseen (.cons ⟨hkey, rfl⟩ .nil)
          have h := ih (seen ++ [l]) _ hseen' (by rwa [List.append_assoc])
          rwa [List.append_assoc] at h
    exact hloop [] Dict.empty .nil hdistinct
  · exact ⟨Dict.empty, rfl, .nil⟩

theorem maxPriceAndSize_holds {ladder : KalshiWs.Ladder} {levels : List CentLevel}
    (h : List.Forall₂ Holds ladder.entries levels) :
    KalshiWs.maxPriceAndSize ladder = .ok ((bestLevel levels).map CentLevel.asBest) := by
  refine foldlM_bestLevel (fun best entry l (hl : Holds entry l) => ?_) h
  rw [KalshiWs.readPrice_eq, hl.price, hl.size]
  cases best with
  | none => rfl
  | some b =>
      show KalshiWs.higher (some b.asBest) (.num l.price) (.num l.size) = _
      simp only [KalshiWs.higher, CentLevel.asBest, Number.lt_num, raising_ok, bind, Except.bind,
        decide_eq_true_eq, CentLevel.price_lt_price, keep]
      split
      · rfl
      · rfl

/-! ## The quote of two best levels -/

/-- The price of a best level; an empty side bids nothing. -/
def topPrice (best : Option CentLevel) : ℚ := (best.map CentLevel.price).getD 0

def topSize (best : Option CentLevel) : ℚ := (best.map CentLevel.size).getD 0

theorem topPrice_mem (best : Option CentLevel) : 0 ≤ topPrice best ∧ topPrice best ≤ 1 := by
  cases best with
  | none => exact ⟨le_refl 0, zero_le_one⟩
  | some l => exact ⟨l.price_nonneg, l.price_le_one⟩

/-- The quote of a side: it bids its own best price, no higher than it asks,
and asks the complement of the other's. -/
def topQuote (outcomeId : OutcomeId) (own other : Option CentLevel) : FeedQuote where
  outcomeId := outcomeId
  bid := .num (min (1 - topPrice other) (topPrice own))
  ask := .num (1 - topPrice other)
  bidSize := some (.num (topSize own))
  askSize := some (.num (topSize other))
  sourceAgeS := none
  valid := by
    apply postInit_eq_ok_iff.mpr
    have hown := topPrice_mem own
    have hother := topPrice_mem other
    refine ⟨_, _, rfl, rfl, ?_, min_le_left _ _, ?_⟩
    · exact le_min (by linarith) hown.1
    · linarith

/-- Where both decoders end: the bid is clamped and the quote is built. -/
theorem new_topQuote (o : OutcomeId) (own other : Option CentLevel) :
    FeedQuote.new o
        (if decide (1 - topPrice other < topPrice own) = true then .num (1 - topPrice other)
          else .num (topPrice own))
        (.num (1 - topPrice other)) (some (.num (topSize own))) (some (.num (topSize other)))
        none =
      .ok (topQuote o own other) := by
  have hbid : (if decide (1 - topPrice other < topPrice own) = true then
      Number.num (1 - topPrice other) else .num (topPrice own)) =
        .num (min (1 - topPrice other) (topPrice own)) := by
    by_cases hlt : 1 - topPrice other < topPrice own
    · rw [decide_eq_true hlt, if_pos rfl, min_eq_left (le_of_lt hlt)]
    · rw [decide_eq_false hlt, if_neg Bool.false_ne_true, min_eq_right (not_lt.mp hlt)]
  rw [hbid]
  exact FeedQuote.new_of_ok (topQuote o own other).valid

/-- The complement of a price in cents is exact. -/
theorem one_sub_price (l : CentLevel) :
    (Number.num 1).sub (.num l.price) = .ok (.num (1 - l.price)) := by
  have hcents : 1 - l.price = ((100 - l.cents : ℤ) : ℚ) / 100 := by
    rw [CentLevel.price]
    push_cast
    ring
  have hnonneg := l.nonneg
  have hle := l.le_hundred
  rw [Number.sub_num, hcents]
  exact finish_cents (by omega) (by omega)

theorem getD_asBest (best : Option CentLevel) :
    (best.map CentLevel.asBest).getD (.num 0, .num 0) = (.num (topPrice best), .num (topSize best)) := by
  cases best with
  | none => rfl
  | some l => rfl

theorem askOf_asBest (best : Option CentLevel) :
    KalshiWs.askOf (best.map CentLevel.asBest) =
      .ok (.num (1 - topPrice best), .num (topSize best)) := by
  cases best with
  | none =>
      show Except.ok (Number.num 1, Number.num 0) = _
      rw [show topPrice none = 0 from rfl, sub_zero]
      rfl
  | some l =>
      show (do
        let ask ← raising ((Number.num 1).sub (.num l.price))
        pure (ask, Number.num l.size) : Except Raised _) = _
      rw [one_sub_price]
      rfl

theorem quote_top (o : OutcomeId) (own other : Option CentLevel) :
    KalshiWs.quote o (.num (topPrice own)) (.num (1 - topPrice other)) (.num (topSize own))
      (.num (topSize other)) = .ok (some (topQuote o own other)) := by
  unfold KalshiWs.quote
  simp only [Number.lt_num, raising_ok, bind, Except.bind, new_topQuote]
  rfl

/-- The adapter's quotes of two best levels. -/
theorem quotesOfBest_top (ticker : String) (yes no : Option CentLevel) :
    KalshiWs.quotesOfBest ticker (yes.map CentLevel.asBest) (no.map CentLevel.asBest) =
      .ok [topQuote (ticker ++ ":YES") yes no, topQuote (ticker ++ ":NO") no yes] := by
  rw [KalshiWs.quotesOfBest, getD_asBest, getD_asBest, askOf_asBest, askOf_asBest]
  simp only [bind, Except.bind, quote_top]
  rfl

/-- The parser's inversion is the adapter's. -/
theorem quoteOfSides_eq (o : OutcomeId) (own other : Option (Number × Number)) :
    quoteOfSides o .yes own other = (do
      let (ask, askSize) ← KalshiWs.askOf other
      let (bid, bidSize) := own.getD (.num 0, .num 0)
      KalshiWs.quote o bid ask bidSize askSize) := by
  cases other with
  | none => cases own with
    | none => rfl
    | some a => rfl
  | some b =>
      -- nothing is known of a complement that is rounded or raises
      cases hask : (Number.num 1).sub b.1 with
      | error s => cases own <;> simp [quoteOfSides, KalshiWs.askOf, hask, bind, Except.bind]
      | ok ask =>
          cases own <;>
            simp [quoteOfSides, KalshiWs.askOf, KalshiWs.quote, hask, bind, Except.bind, pure,
              Except.pure]

/-- The parser's quote of two best levels. -/
theorem quoteOfSides_top (o : OutcomeId) (side : Side) (yes no : Option CentLevel) :
    quoteOfSides o side (yes.map CentLevel.asBest) (no.map CentLevel.asBest) =
      .ok (some (match side with
        | .yes => topQuote o yes no
        | .no => topQuote o no yes)) := by
  have hrun : ∀ own other : Option CentLevel,
      quoteOfSides o .yes (own.map CentLevel.asBest) (other.map CentLevel.asBest) =
        .ok (some (topQuote o own other)) := by
    intro own other
    rw [quoteOfSides_eq, askOf_asBest, getD_asBest]
    exact quote_top o own other
  cases side with
  | yes => exact hrun yes no
  | no => exact hrun no yes

/-! ## The three payloads -/

/-- The body of a snapshot carries both sides, in dollars. -/
structure InSnapshot (body : Fields) (yes no : List CentLevel) : Prop where
  yes : Carries Dollars yes (Json.field body "yes_dollars_fp")
  no : Carries Dollars no (Json.field body "no_dollars_fp")

/-- `orderbook_fp` carries both sides, in dollars. -/
structure InDollars (body : Fields) (yes no : List CentLevel) : Prop where
  carries : ∃ fp text, Json.field body "orderbook_fp" = .dict fp text ∧
    Carries Dollars yes (Json.field fp "yes_dollars") ∧
    Carries Dollars no (Json.field fp "no_dollars")

/-- There is no `orderbook_fp`, and `orderbook` carries both sides, in cents. -/
structure InCents (body : Fields) (yes no : List CentLevel) : Prop where
  legacy : Json.field body "orderbook_fp" = .null
  carries : ∃ ob text, Json.field body "orderbook" = .dict ob text ∧
    Carries Cents yes (Json.field ob "yes") ∧ Carries Cents no (Json.field ob "no")

section Payloads

variable {body : Fields} {yes no : List CentLevel}

theorem InDollars.bestSides (h : InDollars body yes no) :
    bestSides body = .ok ((bestLevel yes).map CentLevel.asBest,
      (bestLevel no).map CentLevel.asBest) := by
  obtain ⟨fp, text, hfp, hyes, hno⟩ := h.carries
  unfold KalshiRest.bestSides
  rw [hfp]
  simp only [bestPriceDollars_eq hyes, bestPriceDollars_eq hno]
  rfl

theorem InCents.bestSides (h : InCents body yes no) :
    bestSides body = .ok ((bestLevel yes).map CentLevel.asBest,
      (bestLevel no).map CentLevel.asBest) := by
  obtain ⟨ob, text, hob, hyes, hno⟩ := h.carries
  unfold KalshiRest.bestSides
  rw [h.legacy, hob]
  -- an empty `orderbook` is replaced by another empty one
  cases ob with
  | nil =>
      show (do
        let yes ← bestPriceCents (Json.field [] "yes")
        let no ← bestPriceCents (Json.field [] "no")
        pure (yes, no) : Except Raised _) = _
      rw [bestPriceCents_eq hyes, bestPriceCents_eq hno]
      rfl
  | cons e ob =>
      show (do
        let yes ← bestPriceCents (Json.field (e :: ob) "yes")
        let no ← bestPriceCents (Json.field (e :: ob) "no")
        pure (yes, no) : Except Raised _) = _
      rw [bestPriceCents_eq hyes, bestPriceCents_eq hno]
      rfl

/-- Where the best sides are known, the parser's quote is. -/
theorem parseOrderbook_top {y n : Option CentLevel}
    (h : bestSides body = .ok (y.map CentLevel.asBest, n.map CentLevel.asBest)) (ticker : String) :
    parseOrderbook (ticker ++ ":YES") .yes body = .ok (some (topQuote (ticker ++ ":YES") y n)) ∧
      parseOrderbook (ticker ++ ":NO") .no body = .ok (some (topQuote (ticker ++ ":NO") n y)) := by
  have hrun : ∀ o side, parseOrderbook o side body =
      quoteOfSides o side (y.map CentLevel.asBest) (n.map CentLevel.asBest) := by
    intro o side
    rw [parseOrderbook, h]
    rfl
  constructor
  · rw [hrun, quoteOfSides_top]
  · rw [hrun, quoteOfSides_top]

/-- What the adapter yields on a snapshot. -/
theorem handleMessage_top {books : KalshiWs.Books} {msg : Fields} {ticker : String}
    {book : KalshiWs.MarketBook} (habout : KalshiWs.About books msg body ticker book)
    (htype : Json.field msg "type" = .str "orderbook_snapshot") (hyes : DistinctPrices yes)
    (hno : DistinctPrices no) (h : InSnapshot body yes no) :
    (KalshiWs.handleMessage books msg).2 =
      .ok [topQuote (ticker ++ ":YES") (bestLevel yes) (bestLevel no),
        topQuote (ticker ++ ":NO") (bestLevel no) (bestLevel yes)] := by
  obtain ⟨yesLadder, hy, hyholds⟩ := levelsToDict_dollars hyes h.yes
  obtain ⟨noLadder, hn, hnholds⟩ := levelsToDict_dollars hno h.no
  rw [habout.handleSnapshot htype hy hn]
  show KalshiWs.quotesFor ticker ⟨yesLadder, noLadder⟩ = _
  rw [KalshiWs.quotesFor_eq (maxPriceAndSize_holds hyholds) (maxPriceAndSize_holds hnholds)]
  exact quotesOfBest_top ticker (bestLevel yes) (bestLevel no)

end Payloads

/-- **The three decoders agree**: a snapshot of a subscribed market and the
REST payloads of both schemas, carrying the same bids, yield the same two
quotes. -/
theorem decoders_agree (yes no : List CentLevel) (hyes : DistinctPrices yes)
    (hno : DistinctPrices no) (books : KalshiWs.Books) (msg snapshot dollars cents : Fields)
    (ticker : String) (book : KalshiWs.MarketBook)
    (habout : KalshiWs.About books msg snapshot ticker book)
    (htype : Json.field msg "type" = .str "orderbook_snapshot")
    (hsnapshot : InSnapshot snapshot yes no) (hdollars : InDollars dollars yes no)
    (hcents : InCents cents yes no) :
    ∃ yesQ noQ : FeedQuote, (KalshiWs.handleMessage books msg).2 = .ok [yesQ, noQ] ∧
      (parseOrderbook (ticker ++ ":YES") .yes dollars = .ok (some yesQ) ∧
        parseOrderbook (ticker ++ ":NO") .no dollars = .ok (some noQ)) ∧
      parseOrderbook (ticker ++ ":YES") .yes cents = .ok (some yesQ) ∧
        parseOrderbook (ticker ++ ":NO") .no cents = .ok (some noQ) :=
  ⟨_, _, handleMessage_top habout htype hyes hno hsnapshot,
    parseOrderbook_top hdollars.bestSides ticker, parseOrderbook_top hcents.bestSides ticker⟩

/-! ### A crossed book of three bids -/

namespace Crossed

def yes : List CentLevel :=
  [⟨40, 7, by norm_num, by norm_num⟩, ⟨65, 10, by norm_num, by norm_num⟩]

def no : List CentLevel := [⟨50, 3, by norm_num, by norm_num⟩]

def inDollars : List Json := [.list [.str "0.40", .str "7"] "", .list [.str "0.6500", .str "10.00"] ""]

def inCents : List Json := [.list [.int 40, .int 7] "", .list [.int 65, .int 10] ""]

def snapshot : Fields :=
  [("market_ticker", .str "T"), ("yes_dollars_fp", .list inDollars ""),
    ("no_dollars_fp", .list [.list [.str "0.5", .str "3"] ""] "")]

def dollars : Fields :=
  [("orderbook_fp", .dict [("yes_dollars", .list inDollars ""),
    ("no_dollars", .list [.list [.str "0.5000", .str "3.0"] ""] "")] "")]

def cents : Fields :=
  [("orderbook", .dict [("yes", .list inCents ""),
    ("no", .list [.list [.int 50, .int 3] ""] "")] "")]

theorem carries_dollars : Carries Dollars yes (.list inDollars "") := by
  apply Or.inl
  refine ⟨inDollars, "", rfl, .cons ?_ (.cons ?_ .nil)⟩
  · exact ⟨⟨_, rfl, by decide +kernel⟩, _, rfl, by decide +kernel⟩
  · exact ⟨⟨_, rfl, by decide +kernel⟩, _, rfl, by decide +kernel⟩

theorem carries_cents : Carries Cents yes (.list inCents "") := by
  apply Or.inl
  refine ⟨inCents, "", rfl, .cons ?_ (.cons ?_ .nil)⟩
  · exact ⟨⟨_, rfl, rfl⟩, _, rfl, by decide +kernel⟩
  · exact ⟨⟨_, rfl, rfl⟩, _, rfl, by decide +kernel⟩

end Crossed

theorem decoders_agree_crossed :
    ∃ yesQ noQ : FeedQuote,
      (KalshiWs.handleMessage (KalshiWs.newBooks ["T"])
        [("type", .str "orderbook_snapshot"), ("msg", .dict Crossed.snapshot "")]).2 =
          .ok [yesQ, noQ] ∧
      (parseOrderbook ("T" ++ ":YES") .yes Crossed.dollars = .ok (some yesQ) ∧
        parseOrderbook ("T" ++ ":NO") .no Crossed.dollars = .ok (some noQ)) ∧
      parseOrderbook ("T" ++ ":YES") .yes Crossed.cents = .ok (some yesQ) ∧
        parseOrderbook ("T" ++ ":NO") .no Crossed.cents = .ok (some noQ) := by
  have hno : ∀ price size : String, DecimalArith.ofString price = some (.num (50 / 100)) →
      DecimalArith.ofString size = some (.num 3) →
        Carries Dollars Crossed.no (.list [.list [.str price, .str size] ""] "") := by
    intro price size hprice hsize
    exact .inl ⟨_, _, rfl, .cons ⟨⟨_, rfl, hprice⟩, _, rfl, hsize⟩ .nil⟩
  apply decoders_agree Crossed.yes Crossed.no
  · exact .cons (by simp) (.cons (by simp) .nil)
  · exact .cons (by simp) .nil
  · exact ⟨⟨_, rfl⟩, rfl, rfl⟩
  · rfl
  · exact ⟨Crossed.carries_dollars, hno "0.5" "3" (by decide +kernel) (by decide +kernel)⟩
  · exact ⟨_, _, rfl, Crossed.carries_dollars,
      hno "0.5000" "3.0" (by decide +kernel) (by decide +kernel)⟩
  · refine ⟨rfl, _, _, rfl, Crossed.carries_cents, ?_⟩
    exact .inl ⟨_, _, rfl, .cons ⟨⟨_, rfl, rfl⟩, _, rfl, by decide +kernel⟩ .nil⟩

end KalshiRest

end Arbys
