import Mathlib.Tactic.IntervalCases
import Arbys.Types

/-!
# Games as the venues list them

`discovery/kalshi_sports.py`, the data half: `VenueGame` and the values its
fields hold. A `datetime` is an instant in seconds since the epoch, UTC. A
`Decimal` read off a venue is kept in its normal form, so equal lines are one
value.
-/

namespace Arbys

/-! ## Dates -/

def isLeap (year : ℕ) : Bool := year % 4 = 0 && (year % 100 ≠ 0 || year % 400 = 0)

def daysInMonth (year month : ℕ) : ℕ :=
  if month = 2 then (if isLeap year then 29 else 28)
  else if month = 4 ∨ month = 6 ∨ month = 9 ∨ month = 11 then 30
  else 31

/-- A `datetime.date`: what its constructor accepts. -/
structure Date where
  year : ℕ
  month : ℕ
  day : ℕ
  year_range : 1 ≤ year ∧ year ≤ 9999
  month_range : 1 ≤ month ∧ month ≤ 12
  day_range : 1 ≤ day ∧ day ≤ daysInMonth year month
  deriving DecidableEq

def daysBeforeYear (year : ℕ) : ℕ :=
  (year - 1) * 365 + (year - 1) / 4 - (year - 1) / 100 + (year - 1) / 400

def daysBeforeMonth (year month : ℕ) : ℕ :=
  ((List.range (month - 1)).map fun k => daysInMonth year (k + 1)).sum

namespace Date

/-- `date(year, month, day)`, which raises on a day that does not exist. -/
def ofYmd? (year month day : ℕ) : Option Date :=
  if h : (1 ≤ year ∧ year ≤ 9999) ∧ (1 ≤ month ∧ month ≤ 12) ∧
      (1 ≤ day ∧ day ≤ daysInMonth year month) then
    some ⟨year, month, day, h.1, h.2.1, h.2.2⟩
  else none

/-- `d.toordinal()`. -/
def toordinal (d : Date) : ℕ :=
  daysBeforeYear d.year + daysBeforeMonth d.year d.month + d.day

theorem daysBeforeYear_succ {year : ℕ} (h : 1 ≤ year) :
    daysBeforeYear (year + 1) = daysBeforeYear year + (if isLeap year then 366 else 365) := by
  obtain ⟨k, rfl⟩ : ∃ k, year = k + 1 := ⟨year - 1, by omega⟩
  have h400 : 400 ∣ k + 1 → 100 ∣ k + 1 := fun h => Dvd.dvd.trans (by decide) h
  have h100 : 100 ∣ k + 1 → 4 ∣ k + 1 := fun h => Dvd.dvd.trans (by decide) h
  have hle : k / 100 ≤ k / 4 := by omega
  simp only [daysBeforeYear, isLeap, Nat.add_sub_cancel, Nat.succ_div, Bool.and_eq_true,
    Bool.or_eq_true, decide_eq_true_eq, ne_eq, ← Nat.dvd_iff_mod_eq_zero]
  by_cases h4 : 4 ∣ k + 1
  · by_cases hc : 100 ∣ k + 1
    · by_cases hq : 400 ∣ k + 1
      · simp only [h4, hc, hq, not_true_eq_false, or_true, and_true, if_true]
        omega
      · simp only [h4, hc, hq, not_true_eq_false, or_false, and_false, if_true, if_false]
        omega
    · have hq : ¬ 400 ∣ k + 1 := mt h400 hc
      simp only [h4, hc, hq, not_false_eq_true, true_or, and_true, if_true, if_false]
      omega
  · have hc : ¬ 100 ∣ k + 1 := mt h100 h4
    have hq : ¬ 400 ∣ k + 1 := mt h400 hc
    simp only [h4, hc, hq, false_and, if_false]
    omega

theorem daysBeforeYear_mono {y z : ℕ} (hy : 1 ≤ y) (hyz : y ≤ z) :
    daysBeforeYear y ≤ daysBeforeYear z := by
  induction z, hyz using Nat.le_induction with
  | base => exact le_rfl
  | succ z hz ih =>
      rw [daysBeforeYear_succ (le_trans hy hz)]
      omega

theorem daysBeforeMonth_succ {year month : ℕ} (h : 1 ≤ month) :
    daysBeforeMonth year (month + 1) = daysBeforeMonth year month + daysInMonth year month := by
  obtain ⟨m, rfl⟩ : ∃ m, month = m + 1 := ⟨month - 1, by omega⟩
  simp [daysBeforeMonth, List.range_succ]

theorem daysBeforeMonth_mono {year m n : ℕ} (hm : 1 ≤ m) (hmn : m ≤ n) :
    daysBeforeMonth year m ≤ daysBeforeMonth year n := by
  induction n, hmn using Nat.le_induction with
  | base => exact le_rfl
  | succ n hn ih =>
      rw [daysBeforeMonth_succ (le_trans hm hn)]
      omega

/-- The months of a year make up its days. -/
theorem daysBeforeMonth_thirteen (year : ℕ) :
    daysBeforeMonth year 13 = if isLeap year then 366 else 365 := by
  simp only [daysBeforeMonth, List.range_succ, List.range_zero, daysInMonth]
  cases isLeap year <;> rfl

theorem daysBeforeMonth_add_day_le (d : Date) {month : ℕ} (h : d.month < month) :
    daysBeforeMonth d.year d.month + d.day ≤ daysBeforeMonth d.year month := by
  have hsucc : daysBeforeMonth d.year (d.month + 1) =
      daysBeforeMonth d.year d.month + daysInMonth d.year d.month :=
    daysBeforeMonth_succ d.month_range.1
  have hmono : daysBeforeMonth d.year (d.month + 1) ≤ daysBeforeMonth d.year month :=
    daysBeforeMonth_mono (by omega) h
  have := d.day_range.2
  omega

/-- A date lies before the first day of every later year. -/
theorem toordinal_le (d : Date) {year : ℕ} (h : d.year < year) :
    d.toordinal ≤ daysBeforeYear year := by
  have hyear := daysBeforeYear_succ d.year_range.1
  have hmono := daysBeforeYear_mono (y := d.year + 1) (by omega) h
  have hmonth := daysBeforeMonth_add_day_le d (Nat.lt_succ_of_le d.month_range.2)
  rw [daysBeforeMonth_thirteen] at hmonth
  unfold toordinal
  omega

/-- Different dates have different ordinals. -/
theorem toordinal_injective {d e : Date} (h : d.toordinal = e.toordinal) : d = e := by
  have hd := d.day_range.1
  have he := e.day_range.1
  have hyear : d.year = e.year := by
    rcases Nat.lt_trichotomy d.year e.year with hlt | heq | hlt
    · have := toordinal_le d hlt
      unfold toordinal at *
      omega
    · exact heq
    · have := toordinal_le e hlt
      unfold toordinal at *
      omega
  have hmonth : d.month = e.month := by
    rcases Nat.lt_trichotomy d.month e.month with hlt | heq | hlt
    · have := daysBeforeMonth_add_day_le d hlt
      unfold toordinal at h
      rw [hyear] at h this
      omega
    · exact heq
    · have := daysBeforeMonth_add_day_le e hlt
      unfold toordinal at h
      rw [hyear] at h
      omega
  have hday : d.day = e.day := by
    unfold toordinal at h
    rw [hyear, hmonth] at h
    omega
  cases d
  cases e
  cases hyear
  cases hmonth
  cases hday
  rfl

end Date

/-! ## Digits -/

/-- `f"{n:0{width}d}"`, as characters. -/
def zeroPadded (width n : ℕ) : List Char :=
  List.replicate (width - (Nat.toDigits 10 n).length) '0' ++ Nat.toDigits 10 n

/-- Padding loses nothing. -/
theorem zeroPadded_injective {w v m n : ℕ} (h : zeroPadded w m = zeroPadded v n) : m = n := by
  have hread := congrArg (fun l => Nat.ofDigitChars 10 l 0) h
  simpa [zeroPadded, Nat.ofDigitChars_append] using hread

theorem isDigit_of_mem_zeroPadded {w n : ℕ} {c : Char} (h : c ∈ zeroPadded w n) :
    c.isDigit = true := by
  rcases List.mem_append.mp h with h | h
  · rw [List.eq_of_mem_replicate h]
    rfl
  · exact Nat.isDigit_of_mem_toDigits (by omega) (by omega) h

/-- `d.isoformat()`. -/
def Date.isoformat (d : Date) : String :=
  String.ofList (zeroPadded 4 d.year ++ '-' :: zeroPadded 2 d.month ++ '-' :: zeroPadded 2 d.day)

theorem length_zeroPadded {w n : ℕ} (hw : 0 < w) (h : n < 10 ^ w) :
    (zeroPadded w n).length = w := by
  have := (Nat.length_toDigits_le_iff (by omega) hw).mpr h
  simp only [zeroPadded, List.length_append, List.length_replicate]
  omega

theorem dash_notMem_zeroPadded (w n : ℕ) : '-' ∉ zeroPadded w n := by
  intro h
  have := isDigit_of_mem_zeroPadded h
  revert this
  decide

/-- Texts cut at the first of a separator are equal part by part. -/
theorem append_sep_inj {α : Type} {sep : α} {x y z w : List α} (hx : sep ∉ x) (hy : sep ∉ y)
    (h : x ++ sep :: z = y ++ sep :: w) : x = y ∧ z = w := by
  induction x generalizing y with
  | nil =>
      cases y with
      | nil => simpa using h
      | cons b y =>
          simp only [List.nil_append, List.cons_append, List.cons.injEq] at h
          exact absurd (h.1 ▸ List.mem_cons_self) hy
  | cons a x ih =>
      cases y with
      | nil =>
          simp only [List.nil_append, List.cons_append, List.cons.injEq] at h
          exact absurd (h.1 ▸ List.mem_cons_self) hx
      | cons b y =>
          simp only [List.cons_append, List.cons.injEq] at h
          obtain ⟨hxy, hzw⟩ := ih (mt (List.mem_cons_of_mem _) hx) (mt (List.mem_cons_of_mem _) hy) h.2
          exact ⟨by rw [h.1, hxy], hzw⟩

/-- Different dates are written differently. -/
theorem Date.isoformat_injective {d e : Date} (h : d.isoformat = e.isoformat) : d = e := by
  unfold Date.isoformat at h
  rw [String.ofList_inj, List.append_assoc, List.append_assoc] at h
  obtain ⟨hyear, h⟩ := append_sep_inj (dash_notMem_zeroPadded _ _) (dash_notMem_zeroPadded _ _) h
  obtain ⟨hmonth, hday⟩ :=
    append_sep_inj (dash_notMem_zeroPadded _ _) (dash_notMem_zeroPadded _ _) h
  cases d
  cases e
  cases zeroPadded_injective hyear
  cases zeroPadded_injective hmonth
  cases zeroPadded_injective hday
  rfl

/-! ## Lines -/

/-- A `Decimal`, in normal form: `mantissa / 10 ^ scale`. -/
structure Decimal where
  mantissa : ℤ
  scale : ℕ
  normal : scale = 0 ∨ mantissa % 10 ≠ 0
  deriving DecidableEq

namespace Decimal

def value (d : Decimal) : ℚ := d.mantissa / 10 ^ d.scale

/-- The decimal `mantissa / 10 ^ scale`, brought into normal form. -/
def normalize (mantissa : ℤ) : ℕ → Decimal
  | 0 => ⟨mantissa, 0, Or.inl rfl⟩
  | scale + 1 =>
      if h : mantissa % 10 = 0 then normalize (mantissa / 10) scale
      else ⟨mantissa, scale + 1, Or.inr h⟩

/-- `Decimal(text)` on digits, the last `scale` of them after the point. -/
def ofDigits (digits : List Char) (scale : ℕ) : Decimal :=
  normalize (Nat.ofDigitChars 10 digits 0) scale

/-- `abs(d)`. -/
def abs (d : Decimal) : Decimal where
  mantissa := d.mantissa.natAbs
  scale := d.scale
  normal := by
    have h := d.normal
    omega

/-- `format(d.normalize(), "f")`. -/
def text (d : Decimal) : String :=
  String.ofList ((if d.mantissa < 0 then ['-'] else []) ++
    Nat.toDigits 10 (d.mantissa.natAbs / 10 ^ d.scale) ++
    (if d.scale = 0 then [] else '.' :: zeroPadded d.scale (d.mantissa.natAbs % 10 ^ d.scale)))

theorem value_abs (d : Decimal) : d.abs.value = |d.value| := by
  have hpow : (0 : ℚ) < 10 ^ d.scale := by positivity
  simp only [value, abs, Int.natCast_natAbs, Int.cast_abs, abs_div, abs_of_pos hpow]

theorem value_neg_iff (d : Decimal) : d.value < 0 ↔ d.mantissa < 0 := by
  have hpow : (0 : ℚ) < 10 ^ d.scale := by positivity
  rw [value, div_neg_iff]
  constructor
  · rintro (⟨-, h⟩ | ⟨h, -⟩)
    · exact absurd h (not_lt.mpr hpow.le)
    · exact_mod_cast h
  · intro h
    exact Or.inr ⟨by exact_mod_cast h, hpow⟩

/-- The digits of a decimal, without its sign. -/
def digits (d : Decimal) : List Char :=
  Nat.toDigits 10 (d.mantissa.natAbs / 10 ^ d.scale) ++
    (if d.scale = 0 then [] else '.' :: zeroPadded d.scale (d.mantissa.natAbs % 10 ^ d.scale))

theorem dot_notMem_toDigits (n : ℕ) : '.' ∉ Nat.toDigits 10 n := by
  intro h
  have := Nat.isDigit_of_mem_toDigits (by omega) (by omega) h
  revert this
  decide

theorem digits_injective {d e : Decimal} (h : d.digits = e.digits) :
    d.mantissa.natAbs = e.mantissa.natAbs ∧ d.scale = e.scale := by
  unfold digits at h
  by_cases hd : d.scale = 0
  · by_cases he : e.scale = 0
    · rw [if_pos hd, if_pos he, List.append_nil, List.append_nil, hd, he, pow_zero, Nat.div_one,
        Nat.div_one] at h
      have hread := congrArg (fun l => Nat.ofDigitChars 10 l 0) h
      exact ⟨by simpa using hread, by rw [hd, he]⟩
    · rw [if_pos hd, if_neg he, List.append_nil] at h
      exact absurd (h ▸ List.mem_append_right _ List.mem_cons_self) (dot_notMem_toDigits _)
  · by_cases he : e.scale = 0
    · rw [if_neg hd, if_pos he, List.append_nil] at h
      exact absurd (h ▸ List.mem_append_right _ List.mem_cons_self) (dot_notMem_toDigits _)
    · rw [if_neg hd, if_neg he] at h
      obtain ⟨hwhole, hfrac⟩ := append_sep_inj (dot_notMem_toDigits _) (dot_notMem_toDigits _) h
      have hscale : d.scale = e.scale := by
        have hlen := congrArg List.length hfrac
        rwa [length_zeroPadded (by omega) (Nat.mod_lt _ (by positivity)),
          length_zeroPadded (by omega) (Nat.mod_lt _ (by positivity))] at hlen
      have hwhole := congrArg (fun l => Nat.ofDigitChars 10 l 0) hwhole
      simp only [Nat.ofDigitChars_ten_toDigits] at hwhole
      have hfrac := zeroPadded_injective hfrac
      refine ⟨?_, hscale⟩
      rw [← Nat.div_add_mod d.mantissa.natAbs (10 ^ d.scale), hwhole, hfrac, hscale,
        Nat.div_add_mod]

theorem dash_notMem_digits (d : Decimal) : '-' ∉ d.digits := by
  intro h
  rcases List.mem_append.mp h with h | h
  · have := Nat.isDigit_of_mem_toDigits (by omega) (by omega) h
    revert this
    decide
  · split at h
    · cases h
    · rcases List.mem_cons.mp h with h | h
      · revert h
        decide
      · exact dash_notMem_zeroPadded _ _ h

theorem text_eq (d : Decimal) :
    d.text = String.ofList ((if d.mantissa < 0 then ['-'] else []) ++ d.digits) := by
  rw [text, digits, List.append_assoc]

/-- A line is no word. -/
theorem text_ne_na (d : Decimal) : d.text ≠ "na" := by
  intro h
  have hn : 'n' ∈ d.text.toList := by
    rw [h]
    decide
  rw [text_eq, String.toList_ofList, digits] at hn
  simp only [List.mem_append] at hn
  rcases hn with hn | hn | hn
  · split at hn <;> simp at hn
  · have := Nat.isDigit_of_mem_toDigits (by omega) (by omega) hn
    revert this
    decide
  · split at hn
    · cases hn
    · rcases List.mem_cons.mp hn with hn | hn
      · revert hn
        decide
      · have := isDigit_of_mem_zeroPadded hn
        revert this
        decide

/-- Different lines are written differently. -/
theorem text_injective {d e : Decimal} (h : d.text = e.text) : d = e := by
  rw [text_eq, text_eq, String.ofList_inj] at h
  have hboth : (d.mantissa < 0 ↔ e.mantissa < 0) ∧ d.digits = e.digits := by
    by_cases hd : d.mantissa < 0 <;> by_cases he : e.mantissa < 0
    · rw [if_pos hd, if_pos he] at h
      exact ⟨by simp [hd, he], List.append_cancel_left h⟩
    · rw [if_pos hd, if_neg he, List.nil_append] at h
      exact absurd (h ▸ List.mem_append_left _ List.mem_cons_self) (dash_notMem_digits e)
    · rw [if_neg hd, if_pos he, List.nil_append] at h
      exact absurd (h.symm ▸ List.mem_append_left _ List.mem_cons_self) (dash_notMem_digits d)
    · rw [if_neg hd, if_neg he] at h
      exact ⟨by simp [hd, he], h⟩
  obtain ⟨hsign, hdigits⟩ := hboth
  obtain ⟨habs, hscale⟩ := digits_injective hdigits
  have hmantissa : d.mantissa = e.mantissa := by omega
  cases d
  cases e
  cases hscale
  cases hmantissa
  rfl

end Decimal

/-! ## Games -/

/-- A side of a game: what the matcher reads of a `Team` or a `Player`. -/
structure Participant where
  code : String
  fullName : String
  deriving DecidableEq

def overSide : String := "OVER"

def underSide : String := "UNDER"

/-- A single game as seen on one venue. -/
structure VenueGame where
  sport : String
  venueId : VenueId
  gameDate : Date
  teams : Participant × Participant
  outcomeIds : Dict String OutcomeId
  ref : String
  marketType : String := "moneyline"
  line : Option Decimal := none
  anchor : Option String := none
  startTime : Option ℚ := none
  live : Option Bool := none
  ended : Option Bool := none
  deriving DecidableEq

end Arbys
