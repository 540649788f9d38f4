import Arbys.Adapters.KalshiFeed

/-!
# The ladder and the numeric book

What a Kalshi side is meant to hold: at each price, as a number, the size the
snapshot gave it and the deltas since, while that is positive. `NumericBook`
says so of numbers; the adapter keeps a dictionary keyed by the spelling of the
price. The two agree (`Agrees`) as long as no price is met under two spellings,
no snapshot level is empty and no sum is rounded, and then the best level is
the same (`maxPriceAndSize_agrees`).
-/

namespace Arbys

namespace KalshiWs

open DecimalArith (Number Signal)
open PyJson

/-! ## Numbers as they are written -/

/-- A text and the finite number it reads as. -/
structure Spelled where
  text : String
  value : ℚ
  reads : DecimalArith.ofString text = some (.num value)

/-- A level of a snapshot: price and size. -/
structure Level where
  price : Spelled
  size : Spelled

/-- An `orderbook_delta`, without its ticker. -/
structure Delta where
  side : String
  price : Spelled
  change : Spelled

/-- A number that reads in one way only. -/
theorem Spelled.value_eq (s : Spelled) {q : ℚ} (h : DecimalArith.ofString s.text = some (.num q)) :
    s.value = q := by
  have hreads := s.reads
  rw [h] at hreads
  simpa using hreads.symm

/-- The level as a frame carries it; nothing reads the text of a container. -/
def Level.toJson (l : Level) : Json := .list [.str l.price.text, .str l.size.text] ""

def snapshotBody (ticker : String) (yes no : List Level) : Fields :=
  [("market_ticker", .str ticker), ("yes_dollars_fp", .list (yes.map Level.toJson) ""),
    ("no_dollars_fp", .list (no.map Level.toJson) "")]

/-- The frame of a snapshot. -/
def snapshotMessage (ticker : String) (yes no : List Level) : Fields :=
  [("type", .str "orderbook_snapshot"), ("msg", .dict (snapshotBody ticker yes no) "")]

/-- The frame of a delta. -/
def deltaMessage (ticker : String) (d : Delta) : Fields :=
  [("type", .str "orderbook_delta"),
    ("msg", .dict [("market_ticker", .str ticker), ("side", .str d.side),
      ("price_dollars", .str d.price.text), ("delta_fp", .str d.change.text)] "")]

/-! ## The numeric book -/

/-- The positive sizes of one side, by price. -/
structure NumericBook where
  levels : Dict ℚ ℚ
  pos : ∀ p s, levels.get? p = some s → 0 < s

namespace NumericBook

def empty : NumericBook := ⟨Dict.empty, fun p s h => by cases h⟩

/-- Let `size` rest at a price; a size that is not positive removes it. -/
def rest (b : NumericBook) (price size : ℚ) : NumericBook where
  levels := if 0 < size then b.levels.set price size else b.levels.erase price
  pos := by
    intro p s h
    split at h
    · rename_i hsize
      rw [Dict.get?_set] at h
      split at h
      · cases h
        exact hsize
      · exact b.pos p s h
    · rw [Dict.get?_erase] at h
      split at h
      · cases h
      · exact b.pos p s h

/-- Add a delta to what rests at a price. -/
def move (b : NumericBook) (price change : ℚ) : NumericBook :=
  b.rest price (b.levels.getD price 0 + change)

def ofSnapshot (levels : List Level) : NumericBook :=
  levels.foldl (fun b l => b.rest l.price.value l.size.value) empty

/-- The highest price and the size resting there. -/
def best (b : NumericBook) : Option (ℚ × ℚ) := b.levels.entries.argmax Prod.fst

end NumericBook

/-- Both sides of a market. -/
structure NumericMarket where
  yes : NumericBook
  no : NumericBook

def NumericMarket.move (m : NumericMarket) (d : Delta) : NumericMarket :=
  if d.side = "yes" then { m with yes := m.yes.move d.price.value d.change.value }
  else { m with no := m.no.move d.price.value d.change.value }

/-- The market after a snapshot and deltas. -/
def NumericMarket.after (yes no : List Level) (deltas : List Delta) : NumericMarket :=
  deltas.foldl NumericMarket.move ⟨.ofSnapshot yes, .ofSnapshot no⟩

/-- A best level as the adapter holds it. -/
def best? (best : Option (ℚ × ℚ)) : Option (Number × Number) :=
  best.map fun b => (.num b.1, .num b.2)

/-! ## When a ladder is a numeric book -/

/-- Every key is the one spelling of a price of the book, at its size. -/
structure Agrees (ladder : Ladder) (b : NumericBook) : Prop where
  fwd : ∀ key size, ladder.get? key = some size → ∃ p s : ℚ,
    DecimalArith.ofString key = some (.num p) ∧ size = .num s ∧ b.levels.get? p = some s
  back : ∀ p s, b.levels.get? p = some s → ∃ key,
    DecimalArith.ofString key = some (.num p) ∧ ladder.get? key = some (.num s)

/-- No key of the ladder spells the price otherwise. -/
def OneSpelling (ladder : Ladder) (price : Spelled) : Prop :=
  ∀ key, (ladder.get? key).isSome → DecimalArith.ofString key = some (.num price.value) →
    key = price.text

section Agreement

variable {ladder : Ladder} {b : NumericBook} {price : Spelled}

theorem agrees_empty : Agrees Dict.empty .empty := by
  constructor
  · intro key size h
    cases h
  · intro p s h
    cases h

/-- A key of the ladder that is not the price's text spells another price. -/
theorem OneSpelling.ne (hone : OneSpelling ladder price) {key : String} {size : Number} {p : ℚ}
    (hkey : ladder.get? key = some size) (hread : DecimalArith.ofString key = some (.num p))
    (hne : key ≠ price.text) : p ≠ price.value := by
  rintro rfl
  exact hne (hone key (by rw [hkey]; rfl) hread)

/-- Letting a size rest at a price, under its one spelling. -/
theorem Agrees.rest (h : Agrees ladder b) (hone : OneSpelling ladder price) (size : ℚ) :
    Agrees (if 0 < size then ladder.set price.text (.num size) else ladder.erase price.text)
      (b.rest price.value size) := by
  unfold NumericBook.rest
  by_cases hsize : 0 < size
  · simp only [if_pos hsize]
    constructor
    · intro key s hkey
      -- any other key reads as another price, since each price has one spelling
      by_cases heq : key = price.text
      · rw [heq, Dict.get?_set_self] at hkey
        cases hkey
        exact ⟨price.value, size, heq ▸ price.reads, rfl, Dict.get?_set_self ..⟩
      · rw [Dict.get?_set_ne _ heq] at hkey
        obtain ⟨p, s', hread, hs, hget⟩ := h.fwd key s hkey
        refine ⟨p, s', hread, hs, ?_⟩
        rw [Dict.get?_set_ne _ (hone.ne hkey hread heq), hget]
    · intro p s hp
      by_cases heq : p = price.value
      · rw [heq, Dict.get?_set_self] at hp
        cases hp
        exact ⟨price.text, heq ▸ price.reads, Dict.get?_set_self ..⟩
      · rw [Dict.get?_set_ne _ heq] at hp
        obtain ⟨key, hread, hget⟩ := h.back p s hp
        have hne : key ≠ price.text := by
          rintro rfl
          exact heq (price.value_eq hread).symm
        exact ⟨key, hread, by rw [Dict.get?_set_ne _ hne, hget]⟩
  · simp only [if_neg hsize]
    constructor
    · intro key s hkey
      rw [Dict.get?_erase] at hkey
      split at hkey
      · cases hkey
      · rename_i hne
        obtain ⟨p, s', hread, hs, hget⟩ := h.fwd key s hkey
        refine ⟨p, s', hread, hs, ?_⟩
        rw [Dict.get?_erase, if_neg (hone.ne hkey hread hne), hget]
    · intro p s hp
      rw [Dict.get?_erase] at hp
      split at hp
      · cases hp
      · rename_i heq
        obtain ⟨key, hread, hget⟩ := h.back p s hp
        have hne : key ≠ price.text := by
          rintro rfl
          exact heq (price.value_eq hread).symm
        exact ⟨key, hread, by rw [Dict.get?_erase, if_neg hne, hget]⟩

/-- What rests at a price is what rests under its one spelling. -/
theorem Agrees.getD (h : Agrees ladder b) (hone : OneSpelling ladder price) :
    ladder.getD price.text (.num 0) = .num (b.levels.getD price.value 0) := by
  cases hkey : ladder.get? price.text with
  | some size =>
      obtain ⟨p, s, hread, rfl, hget⟩ := h.fwd _ _ hkey
      rw [Dict.getD_of_get? hkey, price.value_eq hread, Dict.getD_of_get? hget]
  | none =>
      have hnone : b.levels.get? price.value = none := by
        rw [Option.eq_none_iff_forall_ne_some]
        intro s hs
        obtain ⟨key, hread, hget⟩ := h.back _ _ hs
        have heq := hone key (by rw [hget]; rfl) hread
        rw [heq, hkey] at hget
        cases hget
      rw [Dict.getD_of_get?_none hkey, Dict.getD_of_get?_none hnone]

/-- The priced levels of a ladder are the levels of its book. -/
theorem Agrees.mem_priced (h : Agrees ladder b) {p : ℚ} {size : Number} :
    (p, size) ∈ priced ladder ↔ ∃ s, size = .num s ∧ b.levels.get? p = some s := by
  constructor
  · intro hmem
    obtain ⟨e, he, hq⟩ := List.mem_filterMap.mp hmem
    obtain ⟨q, hread, heq⟩ := Option.map_eq_some_iff.mp hq
    cases heq
    obtain ⟨p', s, hread', hs, hget⟩ := h.fwd _ _ (Dict.mem_entries_iff.mp he)
    rw [number?_eq_some_iff.mp hread] at hread'
    cases hread'
    exact ⟨s, hs, hget⟩
  · rintro ⟨s, rfl, hget⟩
    obtain ⟨key, hread, hkey⟩ := h.back p s hget
    refine List.mem_filterMap.mpr ⟨(key, .num s), Dict.mem_entries_iff.mpr hkey, ?_⟩
    rw [number?_eq_some_iff.mpr hread]
    rfl

/-- **The best level of a ladder is the best level of its book.** -/
theorem maxPriceAndSize_agrees (h : Agrees ladder b) :
    maxPriceAndSize ladder = .ok (best? b.best) := by
  have hplain : ∀ e ∈ ladder.entries, Plain e.1 := by
    intro e he n hn
    obtain ⟨p, s, hread, -, -⟩ := h.fwd _ _ (Dict.mem_entries_iff.mp he)
    rw [hread] at hn
    exact ⟨p, (Option.some.inj hn).symm⟩
  rw [maxPriceAndSize_eq hplain]
  congr 1
  unfold NumericBook.best
  cases hbest : b.levels.entries.argmax Prod.fst with
  | none =>
      -- no level on either side
      rw [List.argmax_eq_none] at hbest
      have hnil : priced ladder = [] := by
        rw [List.eq_nil_iff_forall_not_mem]
        rintro ⟨p, size⟩ hmem
        obtain ⟨s, -, hget⟩ := h.mem_priced.mp hmem
        have hentry := Dict.mem_entries_iff.mpr hget
        rw [hbest] at hentry
        cases hentry
      rw [hnil]
      rfl
  | some top =>
      obtain ⟨p, s⟩ := top
      have hget : b.levels.get? p = some s :=
        Dict.mem_entries_iff.mp (List.argmax_mem hbest)
      have hmem : (p, Number.num s) ∈ priced ladder := h.mem_priced.mpr ⟨s, rfl, hget⟩
      cases hladder : (priced ladder).argmax Prod.fst with
      | none =>
          rw [List.argmax_eq_none] at hladder
          rw [hladder] at hmem
          cases hmem
      | some top' =>
          obtain ⟨p', size⟩ := top'
          obtain ⟨s', rfl, hget'⟩ := h.mem_priced.mp (List.argmax_mem hladder)
          have hle : p ≤ p' := List.le_of_mem_argmax (f := Prod.fst) hmem hladder
          have hge : p' ≤ p :=
            List.le_of_mem_argmax (f := Prod.fst) (Dict.mem_entries_iff.mpr hget') hbest
          obtain rfl : p = p' := le_antisymm hle hge
          rw [hget] at hget'
          cases hget'
          rfl

end Agreement

/-! ## Snapshots -/

/-- The levels of a side as a snapshot may carry them: none empty, no price
under two spellings. -/
structure SideFits (levels : List Level) : Prop where
  size : ∀ l ∈ levels, 0 < l.size.value
  spelling : ∀ l ∈ levels, ∀ l' ∈ levels, l.price.value = l'.price.value →
    l.price.text = l'.price.text

theorem putLevel_toJson (out : Ladder) (l : Level) :
    putLevel out l.toJson = .ok (out.set l.price.text (.num l.size.value)) := by
  have hprice : l.toJson.index 0 = .ok (.str l.price.text) := rfl
  have hsize : l.toJson.index 1 = .ok (.str l.size.text) := rfl
  have hput := putLevel_eq hprice hsize l.size.reads out
  exact hput

/-- The loop over the levels of a snapshot builds its numeric book. -/
theorem foldlM_toJson {levels : List Level} (h : SideFits levels) :
    ∀ (rest : List Level) (out : Ladder) (b : NumericBook), (∀ l ∈ rest, l ∈ levels) →
      Agrees out b → (∀ key, (out.get? key).isSome → ∃ l ∈ levels, key = l.price.text) →
        ∃ ladder, (rest.map Level.toJson).foldlM putLevel out = .ok ladder ∧
          Agrees ladder (rest.foldl (fun b l => b.rest l.price.value l.size.value) b) := by
  intro rest
  induction rest with
  | nil =>
      intro out b _ hagrees _
      exact ⟨out, rfl, hagrees⟩
  | cons l rest ih =>
      intro out b hrest hagrees hkeys
      have hl := hrest l List.mem_cons_self
      have hone : OneSpelling out l.price := by
        intro key hkey hread
        obtain ⟨l', hl', rfl⟩ := hkeys key hkey
        exact h.spelling l' hl' l hl (l'.price.value_eq hread)
      rw [List.map_cons, List.foldlM_cons, putLevel_toJson]
      have hagrees' := hagrees.rest hone l.size.value
      rw [if_pos (h.size l hl)] at hagrees'
      refine ih _ _ (fun l' hl' => hrest l' (List.mem_cons_of_mem _ hl')) hagrees' ?_
      intro key hkey
      by_cases heq : key = l.price.text
      · exact ⟨l, hl, heq⟩
      · rw [Dict.get?_set_ne _ heq] at hkey
        exact hkeys key hkey

theorem levelsToDict_toJson {levels : List Level} (h : SideFits levels) (text : String) :
    ∃ ladder, levelsToDict (.list (levels.map Level.toJson) text) = .ok ladder ∧
      Agrees ladder (.ofSnapshot levels) :=
  foldlM_toJson h levels Dict.empty .empty (fun _ hl => hl) agrees_empty
    (fun key hkey => by cases hkey)

/-! ## Deltas -/

/-- A delta the ladder of its side can take: its price has no other spelling
there and the new size has at most 28 digits. -/
structure DeltaFits (ladder : Ladder) (d : Delta) : Prop where
  spelling : OneSpelling ladder d.price
  exact : ∀ current : ℚ, ladder.getD d.price.text (.num 0) = .num current →
    DecimalArith.finish (current + d.change.value) = .ok (.num (current + d.change.value))

/-- **One delta** moves the ladder as it moves the numeric book. -/
theorem moveLevel_agrees {ladder : Ladder} {b : NumericBook} {d : Delta} (h : Agrees ladder b)
    (hfits : DeltaFits ladder d) :
    ∃ ladder', MarketBook.moveLevel ladder d.price.text d.change.text = .ok ladder' ∧
      Agrees ladder' (b.move d.price.value d.change.value) := by
  have hcurrent := h.getD hfits.spelling
  have hsum := hfits.exact _ hcurrent
  have hrounded : DecimalArith.rounded (b.levels.getD d.price.value 0 + d.change.value) =
      b.levels.getD d.price.value 0 + d.change.value := by
    rcases DecimalArith.finish_eq (b.levels.getD d.price.value 0 + d.change.value) with hover | hok
    · rw [hsum] at hover
      cases hover
    · rw [hsum] at hok
      simpa using hok.symm
  have hmove := moveLevel_eq d.change.reads hcurrent (by rw [hrounded]; exact hsum)
  rw [hrounded] at hmove
  exact ⟨_, hmove, h.rest hfits.spelling _⟩

/-- Both ladders of a book agree with both sides of a market. -/
def BookAgrees (book : MarketBook) (m : NumericMarket) : Prop :=
  Agrees book.yes m.yes ∧ Agrees book.no m.no

/-- Deliver a delta of the market. -/
def deliver (ticker : String) (books : Books) (d : Delta) : Books :=
  step books (deltaMessage ticker d)

/-- The ladder the delta meets can take it. -/
def Takes (ticker : String) (books : Books) (d : Delta) : Prop :=
  ∀ book, books.get? ticker = some book → DeltaFits (book.ladder d.side) d

theorem deliver_agrees {ticker : String} {books : Books} {book : MarketBook} {m : NumericMarket}
    {d : Delta} (hbook : books.get? ticker = some book) (h : BookAgrees book m)
    (hfits : DeltaFits (book.ladder d.side) d) :
    ∃ book', (deliver ticker books d).get? ticker = some book' ∧ BookAgrees book' (m.move d) := by
  have habout : About books (deltaMessage ticker d) _ ticker book := ⟨⟨_, rfl⟩, rfl, hbook⟩
  have hladder : Agrees (book.ladder d.side) (if d.side = "yes" then m.yes else m.no) := by
    unfold MarketBook.ladder
    split
    · exact h.1
    · exact h.2
  obtain ⟨ladder, hmove, hagrees⟩ := moveLevel_agrees hladder hfits
  have hrun := habout.handleDelta rfl rfl rfl rfl hmove
  refine ⟨book.withLadder d.side ladder, ?_, ?_⟩
  · rw [deliver, step, hrun]
    exact Dict.get?_set_self ..
  · unfold MarketBook.withLadder NumericMarket.move
    by_cases hside : d.side = "yes"
    · rw [if_pos hside] at hagrees
      rw [if_pos hside, if_pos hside]
      exact ⟨hagrees, h.2⟩
    · rw [if_neg hside] at hagrees
      rw [if_neg hside, if_neg hside]
      exact ⟨h.1, hagrees⟩

theorem snapshot_agrees {ticker : String} {books : Books} {book : MarketBook}
    (hbook : books.get? ticker = some book) {yes no : List Level} (hyes : SideFits yes)
    (hno : SideFits no) :
    ∃ book', (step books (snapshotMessage ticker yes no)).get? ticker = some book' ∧
      BookAgrees book' ⟨.ofSnapshot yes, .ofSnapshot no⟩ := by
  have habout : About books (snapshotMessage ticker yes no) (snapshotBody ticker yes no) ticker
      book := ⟨⟨_, rfl⟩, rfl, hbook⟩
  obtain ⟨yesLadder, hy, hyagrees⟩ := levelsToDict_toJson hyes ""
  obtain ⟨noLadder, hn, hnagrees⟩ := levelsToDict_toJson hno ""
  refine ⟨⟨yesLadder, noLadder⟩, ?_, hyagrees, hnagrees⟩
  rw [step, habout.handleSnapshot rfl hy hn]
  exact Dict.get?_set_self ..

/-- The invariant of a run of deltas. -/
theorem run_agrees {ticker : String} {deltas : List Delta} {books : Books} {book : MarketBook}
    {m : NumericMarket} (hbook : books.get? ticker = some book) (h : BookAgrees book m)
    (hfits : Runs.Guarded (deliver ticker) (Takes ticker) books deltas) :
    ∃ book', (Runs.run (deliver ticker) books deltas).get? ticker = some book' ∧
      BookAgrees book' (deltas.foldl NumericMarket.move m) := by
  induction deltas generalizing books book m with
  | nil => exact ⟨book, hbook, h⟩
  | cons d deltas ih =>
      obtain ⟨book', hbook', h'⟩ := deliver_agrees hbook h (hfits.1 book hbook)
      exact ih hbook' h' hfits.2

/-- **The delta book is the numeric book** after any snapshot and deltas of
which each fits the ladder it meets. -/
theorem best_after (books : Books) (ticker : String) (hknown : (books.get? ticker).isSome)
    (yes no : List Level) (hyes : SideFits yes) (hno : SideFits no) (deltas : List Delta)
    (hfits : Runs.Guarded (deliver ticker) (Takes ticker)
      (step books (snapshotMessage ticker yes no)) deltas) :
    ∃ book, (Runs.run (deliver ticker) (step books (snapshotMessage ticker yes no)) deltas).get?
        ticker = some book ∧
      maxPriceAndSize book.yes = .ok (best? (NumericMarket.after yes no deltas).yes.best) ∧
      maxPriceAndSize book.no = .ok (best? (NumericMarket.after yes no deltas).no.best) := by
  obtain ⟨book, hbook⟩ := Option.isSome_iff_exists.mp hknown
  obtain ⟨first, hfirst, hagrees⟩ := snapshot_agrees hbook hyes hno
  obtain ⟨last, hlast, hyes', hno'⟩ := run_agrees hfirst hagrees hfits
  exact ⟨last, hlast, maxPriceAndSize_agrees hyes', maxPriceAndSize_agrees hno'⟩

/-! ### Two levels, one of them taken out -/

namespace TwoLevels

def ten : Spelled := ⟨"10", 10, by decide +kernel⟩

def minusTen : Spelled := ⟨"-10", -10, by decide +kernel⟩

def high : Spelled := ⟨"0.50", 1 / 2, by decide +kernel⟩

def low : Spelled := ⟨"0.45", 45 / 100, by decide +kernel⟩

def levels : List Level := [⟨high, ten⟩, ⟨low, ten⟩]

/-- The upper level shown empty. -/
def emptied : List Level := [⟨high, ⟨"0", 0, by decide +kernel⟩⟩, ⟨low, ten⟩]

/-- The whole of the upper level leaves. -/
def taken : Delta := ⟨"yes", high, minusTen⟩

/-- The same delta, with the price written the shorter way. -/
def takenOtherwise : Delta := ⟨"yes", ⟨"0.5", 1 / 2, by decide +kernel⟩, minusTen⟩

theorem sideFits : SideFits levels where
  size := by
    intro l hl
    rcases List.mem_pair.mp hl with rfl | rfl <;> decide +kernel
  spelling := by
    intro l hl l' hl' h
    rcases List.mem_pair.mp hl with rfl | rfl <;> rcases List.mem_pair.mp hl' with rfl | rfl
    · rfl
    · exact absurd h (by decide +kernel)
    · exact absurd h (by decide +kernel)
    · rfl

def book : MarketBook := ⟨Dict.ofList [("0.50", .num 10), ("0.45", .num 10)], Dict.empty⟩

theorem guarded : Runs.Guarded (deliver "T") (Takes "T")
    (step (newBooks ["T"]) (snapshotMessage "T" levels [])) [taken] := by
  refine ⟨?_, trivial⟩
  intro b hb
  have hbook : (step (newBooks ["T"]) (snapshotMessage "T" levels [])).get? "T" = some book := by
    decide +kernel
  rw [hbook] at hb
  cases hb
  constructor
  · intro key hkey hread
    have hkeys : key ∈ ["0.50", "0.45"] := Dict.mem_keys_iff.mpr hkey
    rcases List.mem_pair.mp hkeys with rfl | rfl
    · rfl
    · exact absurd hread (by decide +kernel)
  · intro current hcurrent
    have hten : (book.ladder taken.side).getD taken.price.text (.num 0) = .num 10 := by
      decide +kernel
    rw [hten] at hcurrent
    cases hcurrent
    decide +kernel

end TwoLevels

theorem best_after_twoLevels :
    ∃ book, (Runs.run (deliver "T") (step (newBooks ["T"]) (snapshotMessage "T" TwoLevels.levels
        [])) [TwoLevels.taken]).get? "T" = some book ∧
      maxPriceAndSize book.yes = .ok (some (.num (45 / 100), .num 10)) := by
  obtain ⟨book, hbook, hyes, -⟩ := best_after (newBooks ["T"]) "T" (by decide +kernel)
    TwoLevels.levels [] TwoLevels.sideFits ⟨by simp, by simp⟩ [TwoLevels.taken]
    TwoLevels.guarded
  refine ⟨book, hbook, ?_⟩
  rw [hyes]
  decide +kernel

/-- Written the shorter way, the price names no level, and the upper one stays
on top. -/
example : ((Runs.run (deliver "T") (step (newBooks ["T"]) (snapshotMessage "T" TwoLevels.levels
    [])) [TwoLevels.takenOtherwise]).get? "T").map (fun book => maxPriceAndSize book.yes) =
      some (.ok (some (.num (1 / 2), .num 10))) := by
  decide +kernel

/-- A level the snapshot shows empty is kept, and is the best one while its
price is the highest. -/
theorem not_best_after :
    ¬ ∀ (books : Books) (ticker : String), (books.get? ticker).isSome → ∀ yes no : List Level,
      (∀ l ∈ yes ++ no, 0 ≤ l.size.value) → ∀ deltas : List Delta,
        ∃ book, (Runs.run (deliver ticker) (step books (snapshotMessage ticker yes no)) deltas).get?
            ticker = some book ∧
          maxPriceAndSize book.yes = .ok (best? (NumericMarket.after yes no deltas).yes.best) ∧
          maxPriceAndSize book.no = .ok (best? (NumericMarket.after yes no deltas).no.best) := by
  intro h
  obtain ⟨book, hbook, hyes, -⟩ := h (newBooks ["T"]) "T" (by decide +kernel)
    TwoLevels.emptied [] (by
      intro l hl
      rcases List.mem_pair.mp hl with rfl | rfl <;> decide +kernel) []
  have hkept : (step (newBooks ["T"]) (snapshotMessage "T" TwoLevels.emptied [])).get? "T" =
      some ⟨Dict.ofList [("0.50", .num 0), ("0.45", .num 10)], Dict.empty⟩ := by
    decide +kernel
  rw [Runs.run_nil, hkept] at hbook
  cases hbook
  have hstale : maxPriceAndSize (Dict.ofList [("0.50", .num 0), ("0.45", .num 10)]) =
      .ok (some (.num (1 / 2), .num 0)) := by
    decide +kernel
  rw [hstale] at hyes
  exact absurd hyes (by decide +kernel)

end KalshiWs

end Arbys
