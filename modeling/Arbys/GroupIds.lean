import Mathlib.Data.List.Infix
import Mathlib.Tactic.IntervalCases
import Arbys.Lib.DecimalArith
import Arbys.Lib.Regex
import Arbys.Discovery.Matcher

/-!
# Group ids and what is read back from them

`event_group_id` joins the sport, the codes, the date, the market type and the
line of a match with hyphens; `parse_group_id` of `backend/performance.py`
reads the sport and the market type back with a pattern anchored on the date.
The codes may hold hyphens themselves, so the pattern tries every date it can
see, from the left. `parseGroupId_eventGroupId` needs that the two codes, as
the id joins them, hold none.
-/

namespace Arbys

open Regex Regex.Pattern

/-! ## The pattern -/

/-- `[a-z0-9]`. -/
def isSportChar (c : Char) : Bool := c.isLower || c.isDigit

/-- `[a-z0-9_]`. -/
def isTypeChar (c : Char) : Bool := c.isLower || c.isDigit || c = '_'

/-- `\d`, of any script. -/
def isDecimal (c : Char) : Bool := (DecimalArith.digit? c).isSome

/-- `.`. -/
def notNewline (c : Char) : Bool := c ≠ '\n'

def isHyphen (c : Char) : Bool := c = '-'

/-- `\d{4}-\d{2}-\d{2}`. -/
def dateClasses : List (Char → Bool) :=
  [isDecimal, isDecimal, isDecimal, isDecimal, isHyphen, isDecimal, isDecimal, isHyphen,
    isDecimal, isDecimal]

/-- `$`: at the end, or before a newline that ends the text. -/
def atLineEnd (rest : List Char) : Bool := rest = [] || rest = ['\n']

/-- `(?:-([a-z0-9_]+)-(.+))?$`, what may follow the date. -/
def afterDate : Pattern Char :=
  concat [opt (concat [sat isHyphen, group 4 (many isTypeChar), sat isHyphen,
    group 5 (many notNewline)]), atEnd atLineEnd]

/-- `-(\d{4}-\d{2}-\d{2})` and what may follow it. -/
def fromDate : Pattern Char :=
  concat [sat isHyphen, group 3 (concat (dateClasses.map sat)), afterDate]

/-- `_GROUP_ID`. -/
def groupIdPattern : Pattern Char :=
  concat [group 1 (many isSportChar), sat isHyphen, group 2 (manyLazy notNewline), fromDate]

/-- `parse_group_id`: the sport and the market type. -/
def parseGroupId (groupId : String) : String × String :=
  match groupIdPattern.groups groupId.toList with
  | none => ("unknown", "unknown")
  | some g =>
      (String.ofList ((g.get 1).getD []), orText ((g.get 4).map String.ofList) "moneyline")

/-- A date stands somewhere in the text. -/
def HasDate (text : List Char) : Prop := ∃ w ∈ text.tails, fits dateClasses w = true

instance : DecidablePred HasDate := fun text =>
  inferInstanceAs (Decidable (∃ w ∈ text.tails, fits dateClasses w = true))

/-- The text is a date. -/
def IsDate (text : List Char) : Prop := fits dateClasses text = true ∧ text.length = 10

/-! ## After the date -/

section AfterDate

variable {g : Groups Char} {k : Groups Char → List Char → Option (Groups Char)}

theorem isDecimal_hyphen : isDecimal '-' = false := by decide +kernel

theorem isDecimal_newline : isDecimal '\n' = false := by decide +kernel

/-- Nothing follows the date of a moneyline. -/
theorem run_afterDate_nil : afterDate.run g [] k = k g [] := by
  have hopt : (opt (concat [sat isHyphen, group 4 (many isTypeChar), sat isHyphen,
      group 5 (many notNewline)])).run g [] (fun g l => (concat [atEnd atLineEnd]).run g l k) =
      (concat [atEnd atLineEnd]).run g [] k := run_opt_none rfl
  rw [afterDate, run_concat_cons, hopt]
  rfl

/-- A digit cannot follow the date. -/
theorem run_afterDate_digit {c : Char} (hc : isDecimal c = true) (rest : List Char) :
    afterDate.run g (c :: rest) k = none := by
  have hhyphen : isHyphen c = false := by
    rw [isHyphen, decide_eq_false_iff_not]
    rintro rfl
    rw [isDecimal_hyphen] at hc
    cases hc
  have hend : atLineEnd (c :: rest) = false := by
    have hne : c ≠ '\n' := by
      rintro rfl
      rw [isDecimal_newline] at hc
      cases hc
    simp [atLineEnd, hne]
  have hopt : (opt (concat [sat isHyphen, group 4 (many isTypeChar), sat isHyphen,
      group 5 (many notNewline)])).run g (c :: rest)
      (fun g l => (concat [atEnd atLineEnd]).run g l k) =
      (concat [atEnd atLineEnd]).run g (c :: rest) k := by
    apply run_opt_none
    rw [run_concat_cons, run_sat_cons, hhyphen]
    rfl
  rw [afterDate, run_concat_cons, hopt, run_concat_cons, run_atEnd, hend]
  rfl

/-- A market type and what is written after it follow the date. -/
theorem run_afterDate_typed {ty rest : List Char} (hty : ∀ c ∈ ty, isTypeChar c = true)
    (hne : ty ≠ []) (hrest : ∀ c ∈ rest, notNewline c = true) (hnerest : rest ≠ []) :
    afterDate.run g ('-' :: (ty ++ '-' :: rest)) (fun g _ => some g) =
      some ((5, rest) :: (4, ty) :: g) := by
  have hline : (group 5 (many notNewline)).run ((4, ty) :: g) rest
      (fun g l => (concat [atEnd atLineEnd]).run g l fun g _ => some g) =
      some ((5, rest) :: (4, ty) :: g) := by
    have hall : (group 5 (many notNewline)).run ((4, ty) :: g) (rest ++ [])
        (fun g l => (concat [atEnd atLineEnd]).run g l fun g _ => some g) =
        some ((5, rest) :: (4, ty) :: g) :=
      run_group_many hrest hnerest (fun _ h => by cases h) rfl
    rwa [List.append_nil] at hall
  apply run_opt_some
  show (group 4 (many isTypeChar)).run g (ty ++ '-' :: rest)
    (fun g l => (concat [sat isHyphen, group 5 (many notNewline)]).run g l
      fun g l => (concat [atEnd atLineEnd]).run g l fun g _ => some g) = _
  refine run_group_many hty hne (fun c hc => ?_) hline
  cases hc
  rfl

/-! ## Where the date stands -/

section Date

variable {date : List Char}

/-- Each character of a date is of its class. -/
theorem IsDate.exists_char (h : IsDate date) {i : ℕ} {p : Char → Bool}
    (hp : dateClasses[i]? = some p) : ∃ c, date[i]? = some c ∧ p c = true :=
  exists_of_fits h.1 hp

/-- A date does not start inside the hyphen and the digits of another one, but
for the year and the month of one that a digit follows. -/
theorem eq_seven_of_fits (h : IsDate date) {w rest : List Char} (hlen : w.length < 10)
    (hfits : fits dateClasses (w ++ '-' :: (date ++ rest)) = true) : w.length = 7 := by
  have hat : ∀ i, (w ++ '-' :: (date ++ rest))[w.length + 1 + i]? = (date ++ rest)[i]? := by
    intro i
    rw [List.getElem?_append_right (by omega)]
    have hsub : w.length + 1 + i - w.length = i + 1 := by omega
    rw [hsub, List.getElem?_cons_succ]
  have hhyphen : (w ++ '-' :: (date ++ rest))[w.length]? = some '-' := by
    rw [List.getElem?_append_right le_rfl, Nat.sub_self]
    rfl
  have hclass : ∀ p, dateClasses[w.length]? = some p → p '-' = true := by
    intro p hp
    obtain ⟨c, hc, hpc⟩ := exists_of_fits hfits hp
    rw [hhyphen] at hc
    cases hc
    exact hpc
  by_cases hfour : w.length = 4
  · -- the third digit of the year would have to be the second hyphen
    exfalso
    obtain ⟨c, hc, hdec⟩ := h.exists_char (i := 2) rfl
    obtain ⟨d, hd, hhyp⟩ := exists_of_fits hfits (i := 7) rfl
    have hthird := hat 2
    rw [hfour] at hthird
    rw [hthird, List.getElem?_append_left (by rw [h.2]; omega), hc] at hd
    cases hd
    rw [of_decide_eq_true hhyp, isDecimal_hyphen] at hdec
    cases hdec
  · generalize w.length = n at hlen hclass hfour
    interval_cases n
    all_goals first
      | rfl
      | exact absurd rfl hfour
      | exact absurd (hclass isDecimal rfl) (by rw [isDecimal_hyphen]; decide)

/-- At the date of an id, what follows decides. -/
theorem run_fromDate (h : IsDate date) (tail : List Char) :
    fromDate.run g ('-' :: (date ++ tail)) k = afterDate.run ((3, date) :: g) tail k := by
  have htake : (date ++ tail).take dateClasses.length = date := List.take_left' h.2
  have hdrop : (date ++ tail).drop dateClasses.length = tail := List.drop_left' h.2
  show (group 3 (concat (dateClasses.map sat))).run g (date ++ tail)
    (fun g l => (concat [afterDate]).run g l k) = _
  rw [run_group_classes, if_pos (fits_append h.1 tail), htake, hdrop]
  rfl

/-- Before the date of an id, nothing passes for it. -/
theorem run_fromDate_none (h : IsDate date) {codes v w : List Char} (hcodes : ¬ HasDate codes)
    (hsplit : codes = v ++ w) (hne : w ≠ []) (tail : List Char) :
    fromDate.run g (w ++ '-' :: (date ++ tail)) k = none := by
  obtain ⟨c, w, rfl⟩ := List.exists_cons_of_ne_nil hne
  show (if isHyphen c then (group 3 (concat (dateClasses.map sat))).run g
    (w ++ '-' :: (date ++ tail)) (fun g l => (concat [afterDate]).run g l k) else none) = none
  split
  · rw [run_group_classes]
    split
    · rename_i hfits
      by_cases hlen : 10 ≤ w.length
      · -- a date of its own among the codes
        refine absurd ⟨w, (List.mem_tails _ _).mpr ?_, fits_of_append hlen hfits⟩ hcodes
        exact ⟨v ++ [c], by rw [hsplit, List.append_assoc]; rfl⟩
      · -- the year and the month of one, and then the digits of the real one
        have hseven := eq_seven_of_fits h (by omega) hfits
        obtain ⟨d, hd, hdec⟩ := h.exists_char (i := 2) rfl
        obtain ⟨rest, hrest⟩ : ∃ rest, date.drop 2 = d :: rest := by
          have hdrop : (date.drop 2)[0]? = some d := by rw [List.getElem?_drop, hd]
          cases hl : date.drop 2 with
          | nil =>
              rw [hl] at hdrop
              cases hdrop
          | cons e rest =>
              rw [hl] at hdrop
              cases hdrop
              exact ⟨rest, rfl⟩
        have hleft : (w ++ '-' :: (date ++ tail)).drop dateClasses.length =
            d :: (rest ++ tail) := by
          have hten : dateClasses.length = w.length + 3 := by rw [hseven]; rfl
          rw [hten, List.drop_append, List.drop_of_length_le (by omega), Nat.add_sub_cancel_left,
            List.nil_append, List.drop_succ_cons,
            List.drop_append_of_le_length (by rw [h.2]; omega), hrest]
          rfl
        rw [hleft]
        exact run_afterDate_digit hdec _
    · rfl
  · rfl

/-- **An id is read at its own date**: what stands before it is the sport and
the codes, what stands after it says the market type. -/
theorem run_groupIdPattern (h : IsDate date) {sport codes tail : List Char}
    (hsport : ∀ c ∈ sport, isSportChar c = true) (hnesport : sport ≠ [])
    (hline : ∀ c ∈ codes, notNewline c = true) (hne : codes ≠ []) (hcodes : ¬ HasDate codes)
    {g : Groups Char} (htail : afterDate.run [(3, date), (2, codes), (1, sport)] tail
      (fun g _ => some g) = some g) :
    groupIdPattern.groups (sport ++ '-' :: (codes ++ '-' :: (date ++ tail))) = some g := by
  have hlazy : (group 2 (manyLazy notNewline)).run [(1, sport)] (codes ++ '-' :: (date ++ tail))
      (fun g l => (concat [fromDate]).run g l fun g _ => some g) = some g := by
    refine run_group_manyLazy hline hne (fun v w _ hw hsplit => ?_) ?_
    · exact run_fromDate_none h hcodes hsplit hw tail
    · exact (run_fromDate h tail).trans htail
  show (group 1 (many isSportChar)).run [] (sport ++ '-' :: (codes ++ '-' :: (date ++ tail)))
    (fun g l => (concat [sat isHyphen, group 2 (manyLazy notNewline), fromDate]).run g l
      fun g _ => some g) = some g
  refine run_group_many hsport hnesport (fun c hc => ?_) hlazy
  cases hc
  rfl

end Date

end AfterDate

/-! ## The id of a match -/

theorem notNewline_of_isDigit {c : Char} (h : c.isDigit = true) : notNewline c = true := by
  rw [notNewline, decide_eq_true_iff]
  rintro rfl
  cases h

/-- A line is written on one line. -/
theorem notNewline_of_mem_fmtLine {line : Option Decimal} {c : Char}
    (h : c ∈ (fmtLine line).toList) : notNewline c = true := by
  cases line with
  | none =>
      have hall : "na".toList.all notNewline = true := by decide
      exact List.all_eq_true.mp hall c h
  | some d =>
      rw [fmtLine, Decimal.text, String.toList_ofList] at h
      rcases List.mem_append.mp h with h | h
      · rcases List.mem_append.mp h with h | h
        · split at h
          · rw [List.mem_singleton.mp h]
            rfl
          · cases h
        · exact notNewline_of_isDigit (Nat.isDigit_of_mem_toDigits (by omega) (by omega) h)
      · split at h
        · cases h
        · rcases List.mem_cons.mp h with rfl | h
          · rfl
          · exact notNewline_of_isDigit (isDigit_of_mem_zeroPadded h)

theorem fmtLine_ne_nil (line : Option Decimal) : (fmtLine line).toList ≠ [] := by
  cases line with
  | none => decide
  | some d =>
      rw [fmtLine, Decimal.text, String.toList_ofList]
      intro hnil
      have hdigits := (List.append_eq_nil_iff.mp (List.append_eq_nil_iff.mp hnil).1).2
      exact absurd hdigits (by simp)

namespace CrossVenueMatch

/-- The two codes, as the id joins them. -/
def joinedCodes (m : CrossVenueMatch) : List Char :=
  m.teamA.code.toList ++ '-' :: m.teamB.code.toList

/-- What an id writes after the market type. -/
def idLine (m : CrossVenueMatch) : List Char :=
  if m.marketType = "spread" then
    m.anchorParticipant.code.toList ++ '-' :: (fmtLine m.line).toList
  else (fmtLine m.line).toList

/-- What an id writes after the date. -/
def idTail (m : CrossVenueMatch) : List Char :=
  if m.marketType = "moneyline" then [] else '-' :: (m.marketType.toList ++ '-' :: m.idLine)

theorem toList_eventGroupId (m : CrossVenueMatch) : m.eventGroupId.toList =
    m.sport.toList ++ '-' :: (m.joinedCodes ++ '-' :: (m.gameDate.toList ++ m.idTail)) := by
  have hhyphen : "-".toList = ['-'] := rfl
  have hspread : "-spread-".toList = '-' :: ("spread".toList ++ ['-']) := rfl
  unfold eventGroupId joinedCodes idTail idLine
  by_cases hs : m.marketType = "spread"
  · have hm : m.marketType ≠ "moneyline" := by rw [hs]; decide
    rw [if_pos hs, if_neg hm, if_pos hs, hs]
    simp only [String.toList_append, hhyphen, hspread, List.append_assoc, List.cons_append,
      List.nil_append]
  · by_cases hm : m.marketType = "moneyline"
    · simp [hm, hhyphen]
    · simp only [if_neg hs, if_neg hm, if_pos (show m.marketType ≠ "moneyline" from hm),
        String.toList_append, hhyphen, List.append_assoc, List.cons_append, List.nil_append]

theorem anchorParticipant_cases (m : CrossVenueMatch) :
    m.anchorParticipant = m.teamA ∨ m.anchorParticipant = m.teamB := by
  unfold anchorParticipant
  split
  · exact Or.inr rfl
  · exact Or.inl rfl

end CrossVenueMatch

/-- **Group ids decode to what they encode**, when the two codes, as the id
joins them, hold no date. -/
theorem parseGroupId_eventGroupId (m : CrossVenueMatch) (hsport : m.sport ≠ "")
    (hchars : ∀ c ∈ m.sport.toList, isSportChar c = true)
    (hlineA : '\n' ∉ m.teamA.code.toList) (hlineB : '\n' ∉ m.teamB.code.toList)
    (hcodes : ¬ HasDate m.joinedCodes) (hdate : IsDate m.gameDate.toList)
    (htype : m.marketType ∈ ["moneyline", "total", "spread"]) :
    parseGroupId m.eventGroupId = (m.sport, m.marketType) := by
  have hnotNewline : ∀ l : List Char, '\n' ∉ l → ∀ c ∈ l, notNewline c = true := by
    intro l hl c hc
    rw [notNewline, decide_eq_true_iff]
    rintro rfl
    exact hl hc
  have hA := hnotNewline _ hlineA
  have hB := hnotNewline _ hlineB
  have hjoined : ∀ c ∈ m.joinedCodes, notNewline c = true := by
    intro c hc
    rcases List.mem_append.mp hc with hc | hc
    · exact hA c hc
    · rcases List.mem_cons.mp hc with rfl | hc
      · rfl
      · exact hB c hc
  have hnejoined : m.joinedCodes ≠ [] := by simp [CrossVenueMatch.joinedCodes]
  have hnesport : m.sport.toList ≠ [] := by simpa using hsport
  have hread : ∀ {g : Groups Char}, afterDate.run
      [(3, m.gameDate.toList), (2, m.joinedCodes), (1, m.sport.toList)] m.idTail
      (fun g _ => some g) = some g → groupIdPattern.groups m.eventGroupId.toList = some g := by
    intro g hg
    rw [m.toList_eventGroupId]
    exact run_groupIdPattern hdate hchars hnesport hjoined hnejoined hcodes hg
  by_cases hm : m.marketType = "moneyline"
  · have htail : m.idTail = [] := if_pos hm
    rw [parseGroupId, hread (by rw [htail]; exact run_afterDate_nil)]
    simp [Groups.get, orText, hm]
  · have htail : m.idTail = '-' :: (m.marketType.toList ++ '-' :: m.idLine) := if_neg hm
    have hidLine : (∀ c ∈ m.idLine, notNewline c = true) ∧ m.idLine ≠ [] := by
      unfold CrossVenueMatch.idLine
      split
      · refine ⟨fun c hc => ?_, by simp⟩
        rcases List.mem_append.mp hc with hc | hc
        · rcases m.anchorParticipant_cases with h | h <;> rw [h] at hc
          · exact hA c hc
          · exact hB c hc
        · rcases List.mem_cons.mp hc with rfl | hc
          · rfl
          · exact notNewline_of_mem_fmtLine hc
      · exact ⟨fun c hc => notNewline_of_mem_fmtLine hc, fmtLine_ne_nil _⟩
    -- of the line only that it is there and on one line is read
    have htypeChars : m.marketType.toList.all isTypeChar = true ∧
        m.marketType.toList ≠ [] ∧ m.marketType ≠ "" := by
      simp only [List.mem_cons, List.not_mem_nil, or_false] at htype
      rcases htype with h | h | h <;> rw [h] <;> decide
    rw [parseGroupId, hread (by
      rw [htail]
      exact run_afterDate_typed (List.all_eq_true.mp htypeChars.1) htypeChars.2.1 hidLine.1
        hidLine.2)]
    simp [Groups.get, orText, htypeChars.2.2]

/-- A spread stated for a player of a hyphenated name. -/
def hyphenatedSpread : CrossVenueMatch where
  sport := "atp"
  gameDate := "2026-09-01"
  teamA := ⟨"AUGER-ALIASSIME", "Felix Auger-Aliassime"⟩
  teamB := ⟨"RUUD", "Casper Ruud"⟩
  perVenue := Dict.empty
  marketType := "spread"
  line := some ⟨-35, 1, Or.inr (by decide)⟩
  anchor := some "RUUD"

theorem parseGroupId_eventGroupId_hyphenated :
    parseGroupId hyphenatedSpread.eventGroupId = ("atp", "spread") :=
  parseGroupId_eventGroupId hyphenatedSpread (by decide)
    (List.all_eq_true.mp (by decide : hyphenatedSpread.sport.toList.all isSportChar = true))
    (by decide) (by decide) (by decide +kernel) ⟨by decide +kernel, rfl⟩ (by decide)

/-- Two codes that make a date where they are joined. -/
def splitDate : CrossVenueMatch where
  sport := "mlb"
  gameDate := "2026-09-01"
  teamA := ⟨"0-2026", "Zero"⟩
  teamB := ⟨"08-05", "Eight"⟩
  perVenue := Dict.empty

/-- Neither code holds a date, and the id decodes to another market type. -/
theorem parseGroupId_splitDate :
    splitDate.sport ≠ "" ∧ (∀ c ∈ splitDate.sport.toList, isSportChar c = true) ∧
      splitDate.teamA.code ≠ "" ∧ '\n' ∉ splitDate.teamA.code.toList ∧
      ¬ HasDate splitDate.teamA.code.toList ∧
      splitDate.teamB.code ≠ "" ∧ '\n' ∉ splitDate.teamB.code.toList ∧
      ¬ HasDate splitDate.teamB.code.toList ∧
      IsDate splitDate.gameDate.toList ∧ splitDate.marketType = "moneyline" ∧
      parseGroupId splitDate.eventGroupId = ("mlb", "2026") ∧
      parseGroupId splitDate.eventGroupId ≠ (splitDate.sport, splitDate.marketType) := by
  have hsport : splitDate.sport.toList.all isSportChar = true := by decide
  refine ⟨by decide, List.all_eq_true.mp hsport, by decide, by decide, by decide +kernel, by decide,
    by decide, by decide +kernel, ⟨by decide +kernel, rfl⟩, rfl, by decide +kernel,
    by decide +kernel⟩

end Arbys
