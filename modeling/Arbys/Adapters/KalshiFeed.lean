import Arbys.Adapters.KalshiWs

/-!
# Frames that cannot be read

What `_handle_message` does with text that is no number. Where the price of a
level is unreadable the level is stored and never seen: `_max_price_and_size`
skips it. Where a size or a delta is, `Decimal` raises `InvalidOperation`,
which is no `ValueError`, and the frame raises. `Fair` is the condition on a
frame, and on the size its delta meets, under which none of that happens;
`fair_run` says that a feed of fair frames never raises, and that its books and
quotes are those of the feed without the malformed levels and deltas.
-/

namespace Arbys

namespace KalshiWs

open DecimalArith (Number Signal)
open PyJson

/-! ## What a fair frame is -/

/-- A price that quotes can be built on: text that is no number, or a finite
number that `1 - price` does not overflow on. -/
def Quotable (text : String) : Prop :=
  ∀ n, DecimalArith.ofString text = some n →
    ∃ q : ℚ, n = .num q ∧ DecimalArith.finish (1 - q) = .ok (.num (DecimalArith.rounded (1 - q)))

/-- A level of a snapshot: not a JSON object and, where it has a price and a
size, with a finite size. -/
structure FairLevel (lvl : Json) : Prop where
  shape : ∀ fields text, lvl ≠ .dict fields text
  price : ∀ price size, lvl.index 0 = .ok price → lvl.index 1 = .ok size → Quotable price.text
  size : ∀ price size, lvl.index 0 = .ok price → lvl.index 1 = .ok size →
    (number? size.text).isSome

def FairSide (levels : Json) : Prop :=
  ∀ items text, levels = .list items text → ∀ lvl ∈ items, FairLevel lvl

/-- A delta: a finite change whose sum with the size it meets does not
overflow, on a price that can be quoted if a level is left there. -/
def FairDelta (ladder : Ladder) (price delta : String) : Prop :=
  ∃ change : ℚ, DecimalArith.ofString delta = some (.num change) ∧
    ∀ current : ℚ, ladder.getD price (.num 0) = .num current →
      DecimalArith.finish (current + change) =
        .ok (.num (DecimalArith.rounded (current + change))) ∧
      (0 < DecimalArith.rounded (current + change) → Quotable price)

/-- The ladder a delta moves. -/
def MarketBook.ladder (book : MarketBook) (side : String) : Ladder :=
  if side = "yes" then book.yes else book.no

/-- The frame is about a subscribed market. -/
structure About (books : Books) (msg body : Fields) (ticker : String) (book : MarketBook) :
    Prop where
  frame : ∃ text, Json.field msg "msg" = .dict body text
  market : Json.field body "market_ticker" = .str ticker
  known : books.get? ticker = some book

/-- A snapshot or a delta of a subscribed market. -/
def OfFeed (books : Books) (msg : Fields) : Prop :=
  ∃ body ticker book, About books msg body ticker book ∧
    (Json.field msg "type" = .str "orderbook_snapshot" ∨
      Json.field msg "type" = .str "orderbook_delta")

/-- A frame of the feed that `_handle_message` can deal with. -/
inductive Fair (books : Books) (msg : Fields) : Prop where
  | snapshot (body : Fields) (ticker : String) (book : MarketBook)
      (about : About books msg body ticker book)
      (type : Json.field msg "type" = .str "orderbook_snapshot")
      (yes : FairSide (Json.field body "yes_dollars_fp"))
      (no : FairSide (Json.field body "no_dollars_fp"))
  | delta (body : Fields) (ticker : String) (book : MarketBook)
      (about : About books msg body ticker book)
      (type : Json.field msg "type" = .str "orderbook_delta")
      (fair : ∀ side price delta, Json.field body "side" = .str side →
        Json.field body "price_dollars" = .str price → Json.field body "delta_fp" = .str delta →
          FairDelta (book.ladder side) price delta)

/-! ## The frame without what is malformed -/

/-- A level whose price and size read as finite numbers. -/
def isWellFormed (lvl : Json) : Bool :=
  match lvl.index 0, lvl.index 1 with
  | .ok price, .ok size => (number? price.text).isSome && (number? size.text).isSome
  | _, _ => false

def keepWellFormed : Json → Json
  | .list items text => .list (items.filter isWellFormed) text
  | value => value

/-- The body of a snapshot without its malformed levels. -/
def cleanBody (body : Fields) : Fields :=
  body.map fun e =>
    (e.1, if e.1 = "yes_dollars_fp" ∨ e.1 = "no_dollars_fp" then keepWellFormed e.2 else e.2)

def cleanMessage : Json → Json
  | .dict body text => .dict (cleanBody body) text
  | value => value

/-- A delta whose price or change is no finite number. -/
def isMalformedDelta (body : Fields) : Bool :=
  match Json.field body "price_dollars", Json.field body "delta_fp" with
  | .str price, .str delta => (number? price).isNone || (number? delta).isNone
  | _, _ => false

/-- The frame as if its malformed levels had not been sent; `none` where that
is nothing. -/
def withoutMalformed (msg : Fields) : Option Fields :=
  match Json.field msg "type", Json.field msg "msg" with
  | .str mtype, .dict body _ =>
      if mtype = "orderbook_snapshot" then
        some (msg.map fun e => (e.1, if e.1 = "msg" then cleanMessage e.2 else e.2))
      else if mtype = "orderbook_delta" ∧ isMalformedDelta body then none
      else some msg
  | _, _ => some msg

/-- The part of a ladder whose prices can be read. -/
def readable (ladder : Ladder) : Ladder := ladder.filterKeys fun text => (number? text).isSome

def MarketBook.readable (book : MarketBook) : MarketBook :=
  ⟨KalshiWs.readable book.yes, KalshiWs.readable book.no⟩

/-! ## Ladders of finite numbers -/

/-- Prices that can be quoted, at finite sizes. -/
structure Sound (ladder : Ladder) : Prop where
  price : ∀ key size, ladder.get? key = some size → Quotable key
  size : ∀ key size, ladder.get? key = some size → ∃ s : ℚ, size = .num s

theorem Quotable.plain {text : String} (h : Quotable text) : Plain text := by
  intro n hn
  obtain ⟨q, hq, -⟩ := h n hn
  exact ⟨q, hq⟩

theorem sound_empty : Sound Dict.empty := by
  constructor
  · intro key size h
    cases h
  · intro key size h
    cases h

section Ladder

variable {ladder : Ladder} {key : String}

theorem Sound.set (h : Sound ladder) (hkey : Quotable key) (s : ℚ) :
    Sound (ladder.set key (.num s)) := by
  constructor
  · intro k size hk
    by_cases heq : k = key
    · rw [heq]
      exact hkey
    · rw [Dict.get?_set_ne _ heq] at hk
      exact h.price k size hk
  · intro k size hk
    by_cases heq : k = key
    · rw [heq, Dict.get?_set_self] at hk
      exact ⟨s, (Option.some.inj hk).symm⟩
    · rw [Dict.get?_set_ne _ heq] at hk
      exact h.size k size hk

theorem Sound.erase (h : Sound ladder) (key : String) : Sound (ladder.erase key) := by
  have hback : ∀ k size, (ladder.erase key).get? k = some size → ladder.get? k = some size := by
    intro k size hk
    rw [Dict.get?_erase] at hk
    split at hk
    · cases hk
    · exact hk
  exact ⟨fun k size hk => h.price k size (hback k size hk),
    fun k size hk => h.size k size (hback k size hk)⟩

theorem Sound.getD (h : Sound ladder) (key : String) :
    ∃ current : ℚ, ladder.getD key (.num 0) = .num current := by
  cases hget : ladder.get? key with
  | none => exact ⟨0, Dict.getD_of_get?_none hget _⟩
  | some size =>
      obtain ⟨s, rfl⟩ := h.size key size hget
      exact ⟨s, Dict.getD_of_get? hget _⟩

theorem Sound.plain (h : Sound ladder) : ∀ e ∈ ladder.entries, Plain e.1 := by
  intro e he
  exact (h.price e.1 e.2 (Dict.mem_entries_iff.mp he)).plain

/-- What is not readable is not priced. -/
theorem priced_readable (ladder : Ladder) : priced (readable ladder) = priced ladder := by
  rw [priced, priced, readable, Dict.filterKeys, List.filterMap_filter]
  apply List.filterMap_congr
  intro e _
  cases number? e.1 <;> simp

theorem Sound.readable (h : Sound ladder) : Sound (readable ladder) := by
  have hback : ∀ k size, (KalshiWs.readable ladder).get? k = some size →
      ladder.get? k = some size := by
    intro k size hk
    rw [KalshiWs.readable, Dict.get?_filterKeys] at hk
    split at hk
    · exact hk
    · cases hk
  exact ⟨fun k size hk => h.price k size (hback k size hk),
    fun k size hk => h.size k size (hback k size hk)⟩

/-- A level under a readable price is there in the readable part. -/
theorem getD_readable (hkey : (number? key).isSome) (x : Number) :
    (readable ladder).getD key x = ladder.getD key x := by
  rw [Dict.getD, Dict.getD, readable, Dict.get?_filterKeys, if_pos hkey]

end Ladder

/-! ## Snapshots -/

/-- A position of a value that is no object is an item or a tolerated error. -/
theorem index_cases {lvl : Json} (h : ∀ fields text, lvl ≠ .dict fields text) (i : ℕ) :
    (∃ item, lvl.index i = .ok item) ∨ lvl.index i = .error .indexError ∨
      lvl.index i = .error .typeError := by
  cases lvl with
  | list items text =>
      simp only [Json.index]
      cases items[i]? with
      | none => exact .inr (.inl rfl)
      | some item => exact .inl ⟨item, rfl⟩
  | str s =>
      simp only [Json.index]
      cases s.toList[i]? with
      | none => exact .inr (.inl rfl)
      | some c => exact .inl ⟨_, rfl⟩
  | dict fields text => exact absurd rfl (h fields text)
  | null => exact .inr (.inr rfl)
  | bool b => exact .inr (.inr rfl)
  | int n => exact .inr (.inr rfl)
  | float repr trunc => exact .inr (.inr rfl)

/-- **A fair level**: it is skipped, or its size is stored under its price. -/
theorem putLevel_fair {lvl : Json} (h : FairLevel lvl) :
    (isWellFormed lvl = false ∧ ∀ out, putLevel out lvl = .ok out) ∨
    ∃ (price : String) (s : ℚ), Quotable price ∧ isWellFormed lvl = (number? price).isSome ∧
      ∀ out, putLevel out lvl = .ok (out.set price (.num s)) := by
  rcases index_cases h.shape 0 with ⟨price, hprice⟩ | hzero
  · rcases index_cases h.shape 1 with ⟨size, hsize⟩ | hone
    · have hfinite := h.size price size hprice hsize
      obtain ⟨s, hs⟩ := Option.isSome_iff_exists.mp hfinite
      refine .inr ⟨price.text, s, h.price price size hprice hsize, ?_, fun out => ?_⟩
      · simp [isWellFormed, hprice, hsize, hfinite]
      · exact putLevel_eq hprice hsize (number?_eq_some_iff.mp hs) out
    · refine .inl ⟨?_, fun out => ?_⟩
      · rcases hone with hone | hone <;> simp [isWellFormed, hprice, hone]
      · rcases hone with hone | hone <;> rw [putLevel, levelEntry, hprice, hone] <;> rfl
  · refine .inl ⟨?_, fun out => ?_⟩
    · rcases hzero with hzero | hzero <;> simp [isWellFormed, hzero]
    · rcases hzero with hzero | hzero <;> rw [putLevel, levelEntry, hzero] <;> rfl

/-- The loop over fair levels ends, and its readable part is what the loop over
the well-formed ones makes of the readable part it starts from. -/
theorem foldlM_putLevel (items : List Json) (h : ∀ lvl ∈ items, FairLevel lvl) {out : Ladder}
    (hout : Sound out) :
    ∃ ladder, items.foldlM putLevel out = .ok ladder ∧ Sound ladder ∧
      (items.filter isWellFormed).foldlM putLevel (readable out) = .ok (readable ladder) := by
  induction items generalizing out with
  | nil => exact ⟨out, rfl, hout, rfl⟩
  | cons lvl items ih =>
      have hrest : ∀ l ∈ items, FairLevel l := fun l hl => h l (List.mem_cons_of_mem _ hl)
      rw [List.foldlM_cons]
      rcases putLevel_fair (h lvl List.mem_cons_self) with
        ⟨hill, hput⟩ | ⟨price, s, hprice, hwell, hput⟩
      · rw [hput, List.filter_cons_of_neg (by simp [hill])]
        exact ih hrest hout
      · rw [hput]
        obtain ⟨ladder, hfold, hsound, hclean⟩ := ih hrest (hout.set hprice s)
        refine ⟨ladder, hfold, hsound, ?_⟩
        have hset : readable (out.set price (.num s)) =
            if (number? price).isSome then (readable out).set price (.num s) else readable out :=
          Dict.filterKeys_set _ out price (.num s)
        rw [hset] at hclean
        cases hread : (number? price).isSome with
        | false =>
            rw [hread, if_neg Bool.false_ne_true] at hclean
            rw [List.filter_cons_of_neg (by simp [hwell, hread])]
            exact hclean
        | true =>
            rw [hread, if_pos rfl] at hclean
            rw [List.filter_cons_of_pos (by rw [hwell, hread]), List.foldlM_cons, hput]
            exact hclean

/-- **A fair side of a snapshot** is read, and what can be read of it is what
its well-formed levels alone leave. -/
theorem levelsToDict_fair {levels : Json} (h : FairSide levels) :
    ∃ ladder, levelsToDict levels = .ok ladder ∧ Sound ladder ∧
      levelsToDict (keepWellFormed levels) = .ok (readable ladder) := by
  cases levels with
  | list items text => exact foldlM_putLevel items (h items text rfl) sound_empty
  | null => exact ⟨_, rfl, sound_empty, rfl⟩
  | bool b => exact ⟨_, rfl, sound_empty, rfl⟩
  | int n => exact ⟨_, rfl, sound_empty, rfl⟩
  | float repr trunc => exact ⟨_, rfl, sound_empty, rfl⟩
  | str s => exact ⟨_, rfl, sound_empty, rfl⟩
  | dict fields text => exact ⟨_, rfl, sound_empty, rfl⟩

/-! ## Deltas -/

/-- **A fair delta** moves one level of a sound ladder, and moves nothing that
can be read if its price cannot. -/
theorem moveLevel_fair {ladder : Ladder} {price delta : String} (hs : Sound ladder)
    (h : FairDelta ladder price delta) :
    ∃ ladder', MarketBook.moveLevel ladder price delta = .ok ladder' ∧ Sound ladder' ∧
      (number? delta).isSome ∧
      if (number? price).isSome then
        MarketBook.moveLevel (readable ladder) price delta = .ok (readable ladder')
      else readable ladder' = readable ladder := by
  obtain ⟨change, hdelta, hfair⟩ := h
  obtain ⟨current, hcurrent⟩ := hs.getD price
  obtain ⟨hsum, hquotable⟩ := hfair current hcurrent
  have hmove := moveLevel_eq hdelta hcurrent hsum
  have hread : (number? delta).isSome := by
    rw [number?_eq_some_iff.mpr hdelta]
    rfl
  refine ⟨_, hmove, ?_, hread, ?_⟩
  · split
    · rename_i hpos
      exact hs.set (hquotable hpos) _
    · exact hs.erase price
  · -- an unreadable price touches a key that the readable ladder leaves out
    cases hprice : (number? price).isSome with
    | true =>
        rw [if_pos rfl, moveLevel_eq hdelta ((getD_readable hprice _).trans hcurrent) hsum]
        split
        · rw [readable, readable, Dict.filterKeys_set, if_pos hprice]
        · rw [readable, readable, Dict.filterKeys_erase]
    | false =>
        rw [if_neg Bool.false_ne_true]
        split
        · rw [readable, readable, Dict.filterKeys_set, if_neg (by simp [hprice])]
        · rw [readable, readable, Dict.filterKeys_erase]
          apply Dict.erase_of_get?_none
          rw [Dict.get?_filterKeys, if_neg (by simp [hprice])]

/-! ## Quotes -/

/-- The best level of a sound ladder, at a price that can be quoted. -/
theorem maxPriceAndSize_sound {ladder : Ladder} (h : Sound ladder) :
    ∃ best, maxPriceAndSize ladder = .ok best ∧ maxPriceAndSize (readable ladder) = .ok best ∧
      ∀ b, best = some b → ∃ q s : ℚ, b = (.num q, .num s) ∧
        DecimalArith.finish (1 - q) = .ok (.num (DecimalArith.rounded (1 - q))) := by
  refine ⟨_, maxPriceAndSize_eq h.plain, ?_, ?_⟩
  · rw [maxPriceAndSize_eq h.readable.plain, priced_readable]
  · intro b hb
    obtain ⟨level, hlevel, rfl⟩ := Option.map_eq_some_iff.mp hb
    obtain ⟨e, he, hq⟩ := List.mem_filterMap.mp (List.argmax_mem hlevel)
    obtain ⟨q, hread, rfl⟩ := Option.map_eq_some_iff.mp hq
    have hget := Dict.mem_entries_iff.mp he
    obtain ⟨s, hs⟩ := h.size e.1 e.2 hget
    obtain ⟨q', hnum, hfinish⟩ := h.price e.1 e.2 hget _ (number?_eq_some_iff.mp hread)
    cases hnum
    exact ⟨q, s, by rw [hs], hfinish⟩

/-- A quote of finite prices is built or dropped. -/
theorem quote_num (oid : OutcomeId) (bid ask : ℚ) (bidSize askSize : Number) :
    ∃ q, quote oid (.num bid) (.num ask) bidSize askSize = .ok q := by
  unfold quote
  rw [Number.lt_num, raising_ok]
  simp only [bind, Except.bind]
  have hnum : (if decide (ask < bid) = true then Number.num ask else Number.num bid) =
      .num (if ask < bid then ask else bid) := by
    split <;> simp_all
  rw [hnum]
  rcases postInit_cases (.num (if ask < bid then ask else bid)) (.num ask) with
    ⟨hraises, -⟩ | ⟨-, hok | hvalue⟩
  · simp [Number.isNan] at hraises
  · rw [FeedQuote.new_of_ok hok]
    exact ⟨_, rfl⟩
  · rw [FeedQuote.new_of_error hvalue]
    exact ⟨none, rfl⟩

/-- A book of sound ladders is quoted, as its readable part is. -/
theorem quotesFor_sound {book : MarketBook} (hyes : Sound book.yes) (hno : Sound book.no)
    (ticker : String) :
    ∃ quotes, quotesFor ticker book = .ok quotes ∧ quotesFor ticker book.readable = .ok quotes := by
  obtain ⟨yesBest, hy, hy', hyq⟩ := maxPriceAndSize_sound hyes
  obtain ⟨noBest, hn, hn', hnq⟩ := maxPriceAndSize_sound hno
  have hreadable : quotesFor ticker book.readable = quotesOfBest ticker yesBest noBest :=
    quotesFor_eq hy' hn'
  rw [quotesFor_eq hy hn, hreadable]
  have hask : ∀ best : Option (Number × Number), (∀ b, best = some b → ∃ q s : ℚ,
      b = (.num q, .num s) ∧
        DecimalArith.finish (1 - q) = .ok (.num (DecimalArith.rounded (1 - q)))) →
      (∃ bid size, best.getD (.num 0, .num 0) = (.num bid, size)) ∧
        ∃ ask size, askOf best = .ok (.num ask, size) := by
    intro best hbest
    cases best with
    | none => exact ⟨⟨0, _, rfl⟩, 1, _, rfl⟩
    | some b =>
        obtain ⟨q, s, rfl, hfinish⟩ := hbest b rfl
        refine ⟨⟨q, _, rfl⟩, DecimalArith.rounded (1 - q), .num s, ?_⟩
        rw [askOf, Number.sub_num, hfinish]
        rfl
  obtain ⟨⟨yesBid, yesSize, hyb⟩, noAsk, noAskSize, hna⟩ := hask yesBest hyq
  obtain ⟨⟨noBid, noSize, hnb⟩, yesAsk, yesAskSize, hya⟩ := hask noBest hnq
  obtain ⟨yesQ, hyQ⟩ := quote_num (ticker ++ ":YES") yesBid yesAsk yesSize yesAskSize
  obtain ⟨noQ, hnQ⟩ := quote_num (ticker ++ ":NO") noBid noAsk noSize noAskSize
  refine ⟨yesQ.toList ++ noQ.toList, ?_, ?_⟩ <;>
    · rw [quotesOfBest, hyb, hnb, hya, hna]
      simp only [bind, Except.bind, hyQ, hnQ]
      rfl

/-! ## Frames -/

theorem field_map (f : String → Json → Json) (hnull : ∀ name, f name .null = .null) (l : Fields)
    (name : String) :
    Json.field (l.map fun e => (e.1, f e.1 e.2)) name = f name (Json.field l name) := by
  have hlookup : (l.map fun e => (e.1, f e.1 e.2)).lookup name = (l.lookup name).map (f name) := by
    induction l with
    | nil => rfl
    | cons e l ih =>
        rw [List.map_cons, List.lookup_cons, List.lookup_cons]
        cases hname : name == e.1 with
        | true => rw [eq_of_beq hname]; rfl
        | false => exact ih
  rw [Json.field, Json.field, hlookup]
  cases l.lookup name with
  | none => exact (hnull name).symm
  | some value => rfl

theorem field_cleanBody (body : Fields) (name : String) :
    Json.field (cleanBody body) name =
      if name = "yes_dollars_fp" ∨ name = "no_dollars_fp" then
        keepWellFormed (Json.field body name)
      else Json.field body name := by
  have h := field_map (fun name value =>
    if name = "yes_dollars_fp" ∨ name = "no_dollars_fp" then keepWellFormed value else value)
    (fun name => by simp [keepWellFormed]) body name
  exact h

section Frames

variable {books books' : Books} {msg body : Fields} {ticker : String} {book : MarketBook}

/-- A frame of the feed is dealt with by its type. -/
theorem About.handleMessage (h : About books msg body ticker book) {mtype : String}
    (htype : Json.field msg "type" = .str mtype) :
    handleMessage books msg =
      if mtype = "orderbook_snapshot" then handleSnapshot books body
      else if mtype = "orderbook_delta" then handleDelta books body
      else (books, .ok []) := by
  obtain ⟨text, hmsg⟩ := h.frame
  have htruthy : (Json.dict body text).truthy = true := by
    cases body with
    | nil =>
        have hmarket := h.market
        cases hmarket
    | cons e body => rfl
  unfold KalshiWs.handleMessage
  simp only [hmsg, htruthy, if_true, htype]

theorem About.subscribed (h : About books msg body ticker book) :
    subscribed books (Json.field body "market_ticker") = .ok (some (ticker, book)) := by
  rw [h.market, KalshiWs.subscribed, h.known]
  rfl

/-- What a snapshot of a subscribed market does, its sides read. -/
theorem About.handleSnapshot (h : About books msg body ticker book)
    (htype : Json.field msg "type" = .str "orderbook_snapshot") {yes no : Ladder}
    (hyes : levelsToDict (Json.field body "yes_dollars_fp") = .ok yes)
    (hno : levelsToDict (Json.field body "no_dollars_fp") = .ok no) :
    KalshiWs.handleMessage books msg =
      (books.set ticker ⟨yes, no⟩, quotesFor ticker ⟨yes, no⟩) := by
  rw [h.handleMessage htype, if_pos rfl, KalshiWs.handleSnapshot, h.subscribed]
  simp only [MarketBook.applySnapshot, hyes, hno]

/-- Every ladder of the books is sound. -/
def SoundBooks (books : Books) : Prop :=
  ∀ t book, books.get? t = some book → Sound book.yes ∧ Sound book.no

/-- The second books are what can be read of the first. -/
def Shows (books books' : Books) : Prop :=
  ∀ t, books'.get? t = (books.get? t).map MarketBook.readable

theorem SoundBooks.set (h : SoundBooks books) (hyes : Sound book.yes) (hno : Sound book.no)
    (ticker : String) : SoundBooks (books.set ticker book) := by
  intro t b hb
  by_cases ht : t = ticker
  · rw [ht, Dict.get?_set_self] at hb
    cases hb
    exact ⟨hyes, hno⟩
  · rw [Dict.get?_set_ne _ ht] at hb
    exact h t b hb

theorem Shows.set (h : Shows books books') (ticker : String) (book : MarketBook) :
    Shows (books.set ticker book) (books'.set ticker book.readable) := by
  intro t
  by_cases ht : t = ticker
  · rw [ht, Dict.get?_set_self, Dict.get?_set_self]
    rfl
  · rw [Dict.get?_set_ne _ ht, Dict.get?_set_ne _ ht]
    exact h t

/-- Writing back a book whose readable part is unchanged shows the same. -/
theorem Shows.set_left (h : Shows books books') (hknown : books.get? ticker = some book)
    {new : MarketBook} (hnew : new.readable = book.readable) :
    Shows (books.set ticker new) books' := by
  intro t
  by_cases ht : t = ticker
  · rw [ht, Dict.get?_set_self, h ticker, hknown, Option.map_some, Option.map_some, hnew]
  · rw [Dict.get?_set_ne _ ht]
    exact h t

theorem About.shows (h : About books msg body ticker book) (hs : Shows books books') :
    About books' msg body ticker book.readable where
  frame := h.frame
  market := h.market
  known := by rw [hs ticker, h.known, Option.map_some]

/-! ### A snapshot -/

/-- The snapshot without its malformed levels is about the same market. -/
theorem About.clean (h : About books msg body ticker book)
    (htype : Json.field msg "type" = .str "orderbook_snapshot") :
    ∃ msg', withoutMalformed msg = some msg' ∧
      About books msg' (cleanBody body) ticker book ∧
      Json.field msg' "type" = .str "orderbook_snapshot" := by
  obtain ⟨text, hmsg⟩ := h.frame
  have hfield := field_map (fun name value => if name = "msg" then cleanMessage value else value)
    (fun name => by simp [cleanMessage]) msg
  refine ⟨_, by simp only [withoutMalformed, htype, hmsg, if_true]; rfl, ⟨⟨text, ?_⟩, ?_, h.known⟩, ?_⟩
  · rw [hfield, if_pos rfl, hmsg]
    rfl
  · rw [field_cleanBody, if_neg (by decide), h.market]
  · rw [hfield, if_neg (by decide), htype]

/-- **A fair snapshot** is dealt with, and leaves what its well-formed levels
alone leave. -/
theorem handleMessage_snapshot (h : About books msg body ticker book)
    (htype : Json.field msg "type" = .str "orderbook_snapshot")
    (hyes : FairSide (Json.field body "yes_dollars_fp"))
    (hno : FairSide (Json.field body "no_dollars_fp")) (hs : SoundBooks books)
    (hshows : Shows books books') :
    (∃ quotes, (handleMessage books msg).2 = .ok quotes) ∧ SoundBooks (step books msg) ∧
      ∃ msg', withoutMalformed msg = some msg' ∧ Shows (step books msg) (step books' msg') := by
  obtain ⟨yes, hy, hysound, hyclean⟩ := levelsToDict_fair hyes
  obtain ⟨no, hn, hnsound, hnclean⟩ := levelsToDict_fair hno
  obtain ⟨msg', hclean, habout', htype'⟩ := h.clean htype
  have habout' := habout'.shows hshows
  have hrun : KalshiWs.handleMessage books msg =
      (books.set ticker ⟨yes, no⟩, quotesFor ticker ⟨yes, no⟩) := h.handleSnapshot htype hy hn
  have hrun' : KalshiWs.handleMessage books' msg' =
      (books'.set ticker ⟨readable yes, readable no⟩,
        quotesFor ticker ⟨readable yes, readable no⟩) := by
    apply habout'.handleSnapshot htype'
    · rw [field_cleanBody, if_pos (.inl rfl)]
      exact hyclean
    · rw [field_cleanBody, if_pos (.inr rfl)]
      exact hnclean
  let left : MarketBook := ⟨yes, no⟩
  have hysound : Sound left.yes := hysound
  have hnsound : Sound left.no := hnsound
  obtain ⟨quotes, hquotes, -⟩ := quotesFor_sound hysound hnsound ticker
  refine ⟨⟨quotes, by rw [hrun]; exact hquotes⟩, ?_, msg', hclean, ?_⟩
  · rw [step, hrun]
    exact hs.set hysound hnsound ticker
  · rw [step, step, hrun, hrun']
    exact hshows.set ticker ⟨yes, no⟩

/-! ### A delta -/

/-- The book with the ladder of a side replaced. -/
def MarketBook.withLadder (book : MarketBook) (side : String) (ladder : Ladder) : MarketBook :=
  if side = "yes" then { book with yes := ladder } else { book with no := ladder }

theorem MarketBook.applyDelta_eq {side price delta : String} {ladder : Ladder}
    (h : moveLevel (book.ladder side) price delta = .ok ladder) :
    book.applyDelta side price delta = .ok (book.withLadder side ladder) := by
  by_cases hside : side = "yes"
  · rw [MarketBook.ladder, if_pos hside] at h
    rw [applyDelta, if_pos hside, withLadder, if_pos hside, h]
    rfl
  · rw [MarketBook.ladder, if_neg hside] at h
    rw [applyDelta, if_neg hside, withLadder, if_neg hside, h]
    rfl

theorem MarketBook.readable_withLadder (book : MarketBook) (side : String) (ladder : Ladder) :
    (book.withLadder side ladder).readable =
      book.readable.withLadder side (KalshiWs.readable ladder) := by
  unfold withLadder
  split <;> rfl

theorem MarketBook.ladder_readable (book : MarketBook) (side : String) :
    book.readable.ladder side = KalshiWs.readable (book.ladder side) := by
  unfold MarketBook.ladder
  split <;> rfl

theorem MarketBook.withLadder_self (book : MarketBook) (side : String) :
    book.withLadder side (book.ladder side) = book := by
  unfold withLadder ladder
  split <;> rfl

theorem MarketBook.sound_withLadder {ladder : Ladder} (hyes : Sound book.yes)
    (hno : Sound book.no) (hl : Sound ladder) (side : String) :
    Sound (book.withLadder side ladder).yes ∧ Sound (book.withLadder side ladder).no := by
  unfold withLadder
  split
  · exact ⟨hl, hno⟩
  · exact ⟨hyes, hl⟩

/-- What a delta of a subscribed market does. -/
theorem About.handleDelta (h : About books msg body ticker book)
    (htype : Json.field msg "type" = .str "orderbook_delta") {side price delta : String}
    (hside : Json.field body "side" = .str side)
    (hprice : Json.field body "price_dollars" = .str price)
    (hdelta : Json.field body "delta_fp" = .str delta) {ladder : Ladder}
    (hmove : MarketBook.moveLevel (book.ladder side) price delta = .ok ladder) :
    KalshiWs.handleMessage books msg =
      (books.set ticker (book.withLadder side ladder),
        quotesFor ticker (book.withLadder side ladder)) := by
  rw [h.handleMessage htype, if_neg (by decide), if_pos rfl, KalshiWs.handleDelta, h.subscribed]
  simp only [hside, hprice, hdelta, MarketBook.applyDelta_eq hmove]

/-- A delta whose fields are not all strings is passed over. -/
theorem About.handleDelta_of_not (h : About books msg body ticker book)
    (htype : Json.field msg "type" = .str "orderbook_delta")
    (hnot : ∀ side price delta, Json.field body "side" = .str side →
      Json.field body "price_dollars" = .str price → Json.field body "delta_fp" ≠ .str delta) :
    KalshiWs.handleMessage books msg = (books, .ok []) := by
  rw [h.handleMessage htype, if_neg (by decide), if_pos rfl]
  unfold KalshiWs.handleDelta
  rw [h.subscribed]
  cases hside : Json.field body "side" with
  | str side =>
      cases hprice : Json.field body "price_dollars" with
      | str price =>
          cases hdelta : Json.field body "delta_fp" with
          | str delta => exact absurd hdelta (hnot side price delta hside hprice)
          | _ => rfl
      | _ => rfl
  | _ => rfl

/-- **A fair delta** is dealt with, and moves nothing that can be read if it is
malformed. -/
theorem handleMessage_delta (h : About books msg body ticker book)
    (htype : Json.field msg "type" = .str "orderbook_delta")
    (hfair : ∀ side price delta, Json.field body "side" = .str side →
      Json.field body "price_dollars" = .str price → Json.field body "delta_fp" = .str delta →
        FairDelta (book.ladder side) price delta) (hs : SoundBooks books)
    (hshows : Shows books books') :
    (∃ quotes, (handleMessage books msg).2 = .ok quotes) ∧ SoundBooks (step books msg) ∧
      (withoutMalformed msg = none ∧ Shows (step books msg) books' ∨
        withoutMalformed msg = some msg ∧ Shows (step books msg) (step books' msg)) := by
  obtain ⟨text, hmsg⟩ := h.frame
  have hwithout : withoutMalformed msg = if isMalformedDelta body then none else some msg := by
    simp only [withoutMalformed, htype, hmsg]
    rw [if_neg (by decide)]
    simp
  have habout' := h.shows hshows
  obtain ⟨hyes, hno⟩ := hs ticker book h.known
  -- the three fields are strings, or the handler returns before it moves anything
  by_cases hstrings : ∃ side price delta, Json.field body "side" = .str side ∧
      Json.field body "price_dollars" = .str price ∧ Json.field body "delta_fp" = .str delta
  · obtain ⟨side, price, delta, hside, hprice, hdelta⟩ := hstrings
    have hladder : Sound (book.ladder side) := by
      unfold MarketBook.ladder
      split
      · exact hyes
      · exact hno
    obtain ⟨ladder, hmove, hsound, hread, hclean⟩ :=
      moveLevel_fair hladder (hfair side price delta hside hprice hdelta)
    have hrun := h.handleDelta htype hside hprice hdelta hmove
    obtain ⟨hyes', hno'⟩ := MarketBook.sound_withLadder hyes hno hsound side
    obtain ⟨quotes, hquotes, -⟩ := quotesFor_sound hyes' hno' ticker
    have hmalformed : isMalformedDelta body = (number? price).isNone := by
      simp only [isMalformedDelta, hprice, hdelta]
      rw [Option.isNone_eq_false_iff.mpr hread, Bool.or_false]
    rw [hwithout, hmalformed, step, hrun]
    refine ⟨⟨quotes, hquotes⟩, hs.set hyes' hno' ticker, ?_⟩
    -- a readable price moves the same level of the clean book, another none of it
    cases hp : (number? price).isSome with
    | true =>
        rw [hp, if_pos rfl, ← MarketBook.ladder_readable] at hclean
        have hrun' := habout'.handleDelta htype hside hprice hdelta hclean
        refine .inr ⟨by rw [Option.isNone_eq_false_iff.mpr hp]; rfl, ?_⟩
        rw [step, hrun', ← MarketBook.readable_withLadder]
        exact hshows.set ticker _
    | false =>
        rw [hp, if_neg Bool.false_ne_true] at hclean
        refine .inl ⟨by simp [Option.isSome_eq_false_iff.mp hp], ?_⟩
        apply hshows.set_left h.known
        rw [MarketBook.readable_withLadder, hclean, ← MarketBook.ladder_readable,
          MarketBook.withLadder_self]
  · have hnot : ∀ side price delta, Json.field body "side" = .str side →
        Json.field body "price_dollars" = .str price →
          Json.field body "delta_fp" ≠ .str delta := by
      intro side price delta hside hprice hdelta
      exact hstrings ⟨side, price, delta, hside, hprice, hdelta⟩
    have hrun := h.handleDelta_of_not htype hnot
    have hrun' := habout'.handleDelta_of_not htype hnot
    rw [step, hrun]
    refine ⟨⟨[], rfl⟩, hs, ?_⟩
    rw [hwithout]
    cases isMalformedDelta body with
    | true => exact .inl ⟨rfl, hshows⟩
    | false => exact .inr ⟨rfl, by rw [step, hrun']; exact hshows⟩

end Frames

/-! ## Runs -/

/-- **One fair frame** raises nothing and shows what the frame without its
malformed parts shows. -/
theorem fair_step {books books' : Books} {msg : Fields} (hs : SoundBooks books)
    (hshows : Shows books books') (h : Fair books msg) :
    (∃ quotes, (handleMessage books msg).2 = .ok quotes) ∧ SoundBooks (step books msg) ∧
      Shows (step books msg) (Runs.run step books' (withoutMalformed msg).toList) := by
  cases h with
  | snapshot body ticker book about type yes no =>
      obtain ⟨hok, hsound, msg', hclean, hshows'⟩ :=
        handleMessage_snapshot about type yes no hs hshows
      refine ⟨hok, hsound, ?_⟩
      rw [hclean]
      exact hshows'
  | delta body ticker book about type fair =>
      obtain ⟨hok, hsound, ⟨hclean, hshows'⟩ | ⟨hclean, hshows'⟩⟩ :=
        handleMessage_delta about type fair hs hshows
      · refine ⟨hok, hsound, ?_⟩
        rw [hclean]
        exact hshows'
      · refine ⟨hok, hsound, ?_⟩
        rw [hclean]
        exact hshows'

theorem get?_newBooks {tickers : List String} {t : String} {book : MarketBook}
    (h : (newBooks tickers).get? t = some book) : book = {} := by
  have hset : ∀ (l : List String) (books : Books),
      (∀ book, books.get? t = some book → book = {}) →
        ∀ book, (books.setAll (l.map fun t => (t, {}))).get? t = some book → book = {} := by
    intro l
    induction l with
    | nil =>
        intro books hbooks book hbook
        exact hbooks book hbook
    | cons s l ih =>
        intro books hbooks book hbook
        refine ih (books.set s {}) (fun b hb => ?_) book hbook
        by_cases ht : t = s
        · rw [ht, Dict.get?_set_self] at hb
          exact (Option.some.inj hb).symm
        · rw [Dict.get?_set_ne _ ht] at hb
          exact hbooks b hb
  exact hset tickers Dict.empty (fun b hb => by cases hb) book h

theorem soundBooks_newBooks (tickers : List String) : SoundBooks (newBooks tickers) := by
  intro t book hbook
  rw [get?_newBooks hbook]
  exact ⟨sound_empty, sound_empty⟩

theorem shows_newBooks (tickers : List String) : Shows (newBooks tickers) (newBooks tickers) := by
  intro t
  cases hbook : (newBooks tickers).get? t with
  | none => rfl
  | some book =>
      rw [get?_newBooks hbook]
      rfl

/-- The invariant of a run of fair frames. -/
theorem shows_run {books books' : Books} (hs : SoundBooks books) (hshows : Shows books books')
    {msgs : List Fields} (h : Runs.Guarded step Fair books msgs) :
    SoundBooks (Runs.run step books msgs) ∧
      Shows (Runs.run step books msgs) (Runs.run step books' (msgs.filterMap withoutMalformed)) := by
  induction msgs generalizing books books' with
  | nil => exact ⟨hs, hshows⟩
  | cons msg msgs ih =>
      obtain ⟨-, hsound, hstep⟩ := fair_step hs hshows h.1
      have hclean : (msg :: msgs).filterMap withoutMalformed =
          (withoutMalformed msg).toList ++ msgs.filterMap withoutMalformed := by
        rw [List.filterMap_cons]
        cases withoutMalformed msg <;> rfl
      rw [Runs.run_cons, hclean, Runs.run_append]
      exact ih hsound hstep h.2

/-- **A feed of fair frames cannot be killed.** No frame of it raises; and what
can be read of the books, and every quote made of them, is as if no malformed
level or delta had been sent. -/
theorem fair_run (tickers : List String) (msgs : List Fields)
    (h : Runs.Guarded step Fair (newBooks tickers) msgs) :
    (∀ seen msg rest, msgs = seen ++ msg :: rest →
      ∃ quotes, (handleMessage (Runs.run step (newBooks tickers) seen) msg).2 = .ok quotes) ∧
    ∀ ticker,
      (Runs.run step (newBooks tickers) (msgs.filterMap withoutMalformed)).get? ticker =
        ((Runs.run step (newBooks tickers) msgs).get? ticker).map MarketBook.readable ∧
      ∀ book, (Runs.run step (newBooks tickers) msgs).get? ticker = some book →
        ∃ quotes, quotesFor ticker book = .ok quotes ∧
          quotesFor ticker book.readable = .ok quotes := by
  have hs := soundBooks_newBooks tickers
  have hshows := shows_newBooks tickers
  constructor
  · rintro seen msg rest rfl
    obtain ⟨hseen, hmsg, -⟩ := Runs.guarded_append.mp h
    obtain ⟨hsound, hshown⟩ := shows_run hs hshows hseen
    exact (fair_step hsound hshown hmsg).1
  · obtain ⟨hsound, hshown⟩ := shows_run hs hshows h
    intro ticker
    refine ⟨hshown ticker, fun book hbook => ?_⟩
    obtain ⟨hyes, hno⟩ := hsound ticker book hbook
    exact quotesFor_sound hyes hno ticker

/-! ### One market, some of it unreadable -/

namespace OneMarket

/-- An `orderbook_snapshot` of market `T` with the levels of its YES side. -/
def snapshot (levels : List Json) : Fields :=
  [("type", .str "orderbook_snapshot"),
    ("msg", .dict [("market_ticker", .str "T"), ("yes_dollars_fp", .list levels "")] "")]

/-- An `orderbook_delta` of market `T` on its YES side. -/
def delta (price change : String) : Fields :=
  [("type", .str "orderbook_delta"),
    ("msg", .dict [("market_ticker", .str "T"), ("side", .str "yes"),
      ("price_dollars", .str price), ("delta_fp", .str change)] "")]

/-- A level and one whose price is no number. -/
def levels : List Json :=
  [.list [.str "0.45", .str "10"] "", .list [.str "abc", .str "3"] ""]

/-- What the snapshot leaves: the unreadable price is a key like any other. -/
def book : MarketBook := ⟨Dict.ofList [("0.45", .num 10), ("abc", .num 3)], Dict.empty⟩

theorem quotable_price : Quotable "0.45" := by
  intro n hn
  have hread : DecimalArith.ofString "0.45" = some (.num (45 / 100)) := by decide +kernel
  rw [hread] at hn
  cases hn
  exact ⟨45 / 100, rfl, by decide +kernel⟩

theorem quotable_text : Quotable "abc" := by
  intro n hn
  have hread : DecimalArith.ofString "abc" = none := by decide +kernel
  rw [hread] at hn
  cases hn

theorem fairLevel {price size : String} (hprice : Quotable price)
    (hsize : (number? size).isSome) : FairLevel (.list [.str price, .str size] "") where
  shape := by
    intro fields text h
    cases h
  price := by
    intro p s hp _
    cases hp
    exact hprice
  size := by
    intro p s _ hs
    cases hs
    exact hsize

theorem guarded : Runs.Guarded step Fair (newBooks ["T"]) [snapshot levels, delta "abc" "5"] := by
  refine ⟨.snapshot _ "T" {} ⟨⟨_, rfl⟩, rfl, rfl⟩ rfl ?_ ?_,
    .delta _ "T" book ⟨⟨_, rfl⟩, rfl, by decide +kernel⟩ rfl ?_, trivial⟩
  · intro items text h lvl hlvl
    cases h
    rcases List.mem_pair.mp hlvl with rfl | rfl
    · exact fairLevel quotable_price (by decide +kernel)
    · exact fairLevel quotable_text (by decide +kernel)
  · intro items text h
    cases h
  · intro side price change hside hprice hdelta
    cases hside
    cases hprice
    cases hdelta
    refine ⟨5, by decide +kernel, fun current hcurrent => ?_⟩
    have hthree : (book.ladder "yes").getD "abc" (.num 0) = .num 3 := by decide +kernel
    rw [hthree] at hcurrent
    cases hcurrent
    exact ⟨by decide +kernel, fun _ => quotable_text⟩

end OneMarket

theorem fair_run_oneMarket :
    (∃ quotes, (handleMessage (Runs.run step (newBooks ["T"])
        [OneMarket.snapshot OneMarket.levels]) (OneMarket.delta "abc" "5")).2 = .ok quotes) ∧
      (Runs.run step (newBooks ["T"]) ([OneMarket.snapshot OneMarket.levels,
        OneMarket.delta "abc" "5"].filterMap withoutMalformed)).get? "T" =
          ((Runs.run step (newBooks ["T"]) [OneMarket.snapshot OneMarket.levels,
            OneMarket.delta "abc" "5"]).get? "T").map MarketBook.readable := by
  obtain ⟨hok, hshown⟩ := fair_run ["T"] _ OneMarket.guarded
  exact ⟨hok [OneMarket.snapshot OneMarket.levels] _ [] rfl, (hshown "T").1⟩

theorem not_handleMessage_returns :
    ¬ ∀ (tickers : List String) (msg : Fields), OfFeed (newBooks tickers) msg →
      ∃ quotes, (handleMessage (newBooks tickers) msg).2 = .ok quotes := by
  intro h
  obtain ⟨quotes, hok⟩ := h ["T"] (OneMarket.delta "0.45" "abc")
    ⟨_, "T", {}, ⟨⟨_, rfl⟩, rfl, rfl⟩, .inr rfl⟩
  have herror : (handleMessage (newBooks ["T"]) (OneMarket.delta "0.45" "abc")).2 =
      .error (.decimal .invalidOperation) := by decide +kernel
  rw [herror] at hok
  cases hok

end KalshiWs

end Arbys
