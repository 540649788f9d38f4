import Arbys.Lib.Rounding
import Mathlib.Data.Nat.Log

/-!
# Decimal numbers, as Python's `decimal` computes with them

A `Number` is a `decimal.Decimal` up to its representation: a rational, an
infinity, or a NaN, quiet or signaling. Nothing here depends on trailing zeros
or on the sign of a zero, so equal decimals are one number.

`add`, `sub`, `mul`, `div` and `quotient` compute in the default context: 28 significant
digits, half to even, exponents up to 999999, with `InvalidOperation`,
`DivisionByZero` and `Overflow` trapped. An order comparison with a NaN, of
either kind, is an invalid operation. `ofString` is the constructor on a
string, `none` where it raises `InvalidOperation`; it is exact.
-/

namespace DecimalArith

inductive Number where
  | num (q : ℚ)
  | inf (neg : Bool)
  | nan
  | snan
  deriving DecidableEq

/-- The trapped signals; each is an `ArithmeticError`, none a `ValueError`. -/
inductive Signal where
  | invalidOperation
  | divisionByZero
  | overflow
  deriving DecidableEq

/-! ## The default context -/

def prec : ℕ := 28

def emax : ℤ := 999999

/-- The exponent of the last place of the smallest subnormal. -/
def etiny : ℤ := -1000026

/-- A rational in the context's precision. -/
def rounded (q : ℚ) : ℚ := Rounding.roundTo 10 prec etiny q

/-- The exact result `q` of an operation, rounded. -/
def finish (q : ℚ) : Except Signal Number :=
  if emax < Int.log 10 |rounded q| then .error .overflow else .ok (.num (rounded q))

namespace Number

/-- Quiet or signaling. -/
def isNan : Number → Bool
  | nan | snan => true
  | num _ | inf _ => false

def neg : Number → Number
  | num q => num (-q)
  | inf n => inf !n
  | nan => nan
  | snan => snan

/-- `x + y`. -/
def add : Number → Number → Except Signal Number
  | snan, _ | _, snan => .error .invalidOperation
  | nan, _ | _, nan => .ok nan
  | inf n, inf n' => if n = n' then .ok (inf n) else .error .invalidOperation
  | inf n, num _ | num _, inf n => .ok (inf n)
  | num x, num y => finish (x + y)

/-- `x - y`. -/
def sub (x y : Number) : Except Signal Number := x.add y.neg

/-- `x < y`. -/
def lt : Number → Number → Except Signal Bool
  | nan, _ | snan, _ | _, nan | _, snan => .error .invalidOperation
  | inf n, inf n' => .ok (n && !n')
  | inf n, num _ => .ok n
  | num _, inf n => .ok !n
  | num x, num y => .ok (x < y)

/-- `x <= y`. -/
def le : Number → Number → Except Signal Bool
  | nan, _ | snan, _ | _, nan | _, snan => .error .invalidOperation
  | inf n, inf n' => .ok (n || !n')
  | inf n, num _ => .ok n
  | num _, inf n => .ok !n
  | num x, num y => .ok (x ≤ y)

end Number

/-- `x / y` of finite numbers. -/
def quotient (x y : ℚ) : Except Signal Number :=
  if y = 0 then .error (if x = 0 then .invalidOperation else .divisionByZero)
  else finish (x / y)

namespace Number

/-- `x * y`. -/
def mul : Number → Number → Except Signal Number
  | snan, _ | _, snan => .error .invalidOperation
  | nan, _ | _, nan => .ok nan
  | inf n, inf n' => .ok (inf (n ^^ n'))
  | inf n, num q | num q, inf n =>
      if q = 0 then .error .invalidOperation else .ok (inf (n ^^ decide (q < 0)))
  | num x, num y => finish (x * y)

/-- `x / y`; an infinity divided by a zero keeps its sign, since a zero has
none here. -/
def div : Number → Number → Except Signal Number
  | snan, _ | _, snan => .error .invalidOperation
  | nan, _ | _, nan => .ok nan
  | inf _, inf _ => .error .invalidOperation
  | inf n, num q => .ok (inf (n ^^ decide (q < 0)))
  | num _, inf _ => .ok (num 0)
  | num x, num y => quotient x y

end Number

/-! ### What rounding leaves alone -/

theorem rounded_mono {x y : ℚ} (h : x ≤ y) : rounded x ≤ rounded y :=
  Rounding.roundTo_mono (by norm_num) (by norm_num [prec]) h

/-- A number of at most 28 digits is exact. -/
theorem rounded_of_digits {k e : ℤ} (hk : |k| < 10 ^ prec) (he : etiny ≤ e) :
    rounded (k * 10 ^ e) = k * 10 ^ e :=
  Rounding.roundTo_of_digits (by norm_num) hk he

@[simp] theorem rounded_zero : rounded 0 = 0 := Rounding.roundTo_zero

@[simp] theorem rounded_one : rounded 1 = 1 := by
  have h := rounded_of_digits (k := 1) (e := 0) (by norm_num [prec]) (by norm_num [etiny])
  simpa using h

/-- What is rounded is not moved again. -/
@[simp] theorem rounded_rounded (q : ℚ) : rounded (rounded q) = rounded q :=
  Rounding.roundTo_roundTo (by norm_num) (by norm_num [prec])

/-- Results between 0 and 1 stay there and never overflow. -/
theorem finish_of_mem {q : ℚ} (h0 : 0 ≤ q) (h1 : q ≤ 1) :
    finish q = .ok (.num (rounded q)) ∧ 0 ≤ rounded q ∧ rounded q ≤ 1 := by
  have hr0 : 0 ≤ rounded q := by simpa using rounded_mono h0
  have hr1 : rounded q ≤ 1 := by simpa using rounded_mono h1
  refine ⟨?_, hr0, hr1⟩
  have hlog : Int.log 10 |rounded q| ≤ 0 := by
    rw [abs_of_nonneg hr0]
    rcases eq_or_lt_of_le hr0 with hzero | hpos
    · rw [← hzero, Int.log_zero_right]
    · have hmono := Int.log_mono_right (b := 10) hpos hr1
      rwa [Int.log_one_right] at hmono
  rw [finish, if_neg]
  unfold emax
  omega

/-! ### A fraction and its complement -/

section Complement

open Rounding

/-- The last place of a proper fraction. -/
theorem place_of_lt_one {q : ℚ} (h0 : 0 < q) (h1 : q < 1) : place 10 prec etiny q ≤ -28 := by
  have hlog : Int.log 10 |q| < 0 := by
    rw [abs_of_pos h0, ← Int.lt_zpow_iff_log_lt (by norm_num) h0]
    simpa using h1
  unfold place prec etiny
  omega

theorem place_of_half_le {q : ℚ} (h0 : 1 / 10 ≤ q) (h1 : q < 1) :
    place 10 prec etiny q = -28 := by
  have hq : 0 < q := by linarith
  have hlow : -1 ≤ Int.log 10 |q| := by
    rw [abs_of_pos hq, ← Int.zpow_le_iff_le_log (by norm_num) hq]
    simpa using h0
  have hhigh := place_of_lt_one hq h1
  unfold place prec etiny at hhigh ⊢
  omega

/-- Results between 0 and 1 are within half a unit of the 28th decimal. -/
theorem abs_rounded_sub_le {q : ℚ} (h0 : 0 ≤ q) (h1 : q ≤ 1) :
    |rounded q - q| ≤ 5 / 10 ^ 29 := by
  rcases eq_or_lt_of_le h0 with rfl | h0
  · norm_num
  rcases eq_or_lt_of_le h1 with rfl | h1
  · norm_num
  have hhalf : |rounded q - q| ≤ ((10 : ℕ) : ℚ) ^ place 10 prec etiny q / 2 :=
    abs_roundTo_sub_le (by norm_num)
  have hunit : ((10 : ℕ) : ℚ) ^ place 10 prec etiny q ≤ (10 : ℚ) ^ (-28 : ℤ) := by
    push_cast
    exact zpow_le_zpow_right₀ (by norm_num) (place_of_lt_one h0 h1)
  calc |rounded q - q| ≤ ((10 : ℕ) : ℚ) ^ place 10 prec etiny q / 2 := hhalf
    _ ≤ (10 : ℚ) ^ (-28 : ℤ) / 2 := div_le_div_of_nonneg_right hunit (by norm_num)
    _ = 5 / 10 ^ 29 := by norm_num

/-- The tie below 1 goes to 1. -/
theorem one_le_rounded {q : ℚ} (h : 1 - 5 / 10 ^ 29 ≤ q) : 1 ≤ rounded q := by
  have htie : rounded (1 - 5 / 10 ^ 29) = 1 := by decide +kernel
  rw [← htie]
  exact rounded_mono h

/-- So does the tie above. -/
theorem rounded_le_one {q : ℚ} (h : q ≤ 1 + 5 / 10 ^ 28) : rounded q ≤ 1 := by
  have htie : rounded (1 + 5 / 10 ^ 28) = 1 := by decide +kernel
  rw [← htie]
  exact rounded_mono h

/-- **A fraction and its rounded complement add up to 1.** -/
theorem rounded_add_complement {q : ℚ} (h0 : 0 ≤ q) (h1 : q ≤ 1) :
    rounded (q + rounded (1 - q)) = 1 := by
  have herror := abs_le.mp (abs_rounded_sub_le (q := 1 - q) (by linarith) (by linarith))
  refine le_antisymm (rounded_le_one ?_) (one_le_rounded ?_)
  · have hsmall : (5 : ℚ) / 10 ^ 29 ≤ 5 / 10 ^ 28 := by norm_num
    linarith [herror.2]
  · linarith [herror.1]

/-- With the fraction the smaller of the two. -/
theorem one_le_rounded_add_of_le_half {q : ℚ} (h0 : 0 < q) (h1 : q ≤ 1 / 2) :
    1 ≤ rounded (rounded q + rounded (1 - q)) := by
  have hplace : place 10 prec etiny (1 - q) = -28 :=
    place_of_half_le (by linarith) (by linarith)
  have hle : place 10 prec etiny q ≤ -28 := place_of_lt_one h0 (by linarith)
  rcases eq_or_lt_of_le hle with heq | hlt
  · -- one unit for both: the complement is exact
    have hsub : rounded (1 - q) = 1 - rounded q := by
      refine roundTo_sub_of_place_eq (by norm_num) (m := 5 * 10 ^ 27) ?_ (hplace.trans heq.symm)
      rw [heq]
      norm_num
    rw [hsub, add_sub_cancel, rounded_one]
  · -- the sum is a multiple of the smaller unit, as the tie below 1 is
    have hten : (1 : ℕ) < 10 := by norm_num
    have hsmall : OnPlace 10 (place 10 prec etiny q) (rounded q) := onPlace_roundTo
    have hlarge : OnPlace 10 (place 10 prec etiny q) (rounded (1 - q)) := by
      have h : OnPlace 10 (place 10 prec etiny (1 - q)) (rounded (1 - q)) := onPlace_roundTo
      exact h.mono hten (by omega)
    have htie : OnPlace 10 (place 10 prec etiny q) (1 - 5 / 10 ^ 29) := by
      refine OnPlace.mono hten (e := -29) ⟨10 ^ 29 - 5, ?_⟩ (by omega)
      norm_num
    refine one_le_rounded (OnPlace.le_of_sub_lt hten htie (hsmall.add hlarge) ?_)
    have hhalf : |rounded q - q| ≤ ((10 : ℕ) : ℚ) ^ place 10 prec etiny q / 2 :=
      abs_roundTo_sub_le hten
    have hq := abs_le.mp hhalf
    have hunit := unit_pos hten (place 10 prec etiny q)
    have hcomplement := abs_le.mp
      (abs_rounded_sub_le (q := 1 - q) (by linarith) (by linarith))
    generalize ((10 : ℕ) : ℚ) ^ place 10 prec etiny q = unit at hq hunit
    have hlow : -(unit / 2) ≤ rounded q - q := hq.1
    linarith [hcomplement.1]

/-- **So do the two roundings**, or a little more. -/
theorem one_le_rounded_add {q : ℚ} (h0 : 0 ≤ q) (h1 : q ≤ 1) :
    1 ≤ rounded (rounded q + rounded (1 - q)) := by
  rcases eq_or_lt_of_le h0 with rfl | h0
  · simp
  rcases eq_or_lt_of_le h1 with rfl | h1
  · simp
  rcases le_total q (1 / 2) with hhalf | hhalf
  · exact one_le_rounded_add_of_le_half h0 hhalf
  · have h := one_le_rounded_add_of_le_half (q := 1 - q) (by linarith) (by linarith)
    rwa [sub_sub_cancel, add_comm] at h

end Complement

/-- An operation on finite numbers overflows or rounds. -/
theorem finish_eq (q : ℚ) : finish q = .error .overflow ∨ finish q = .ok (.num (rounded q)) := by
  unfold finish
  split
  · exact .inl rfl
  · exact .inr rfl

/-- A result of a magnitude the context has room for does not overflow. -/
theorem finish_of_abs_le {q : ℚ} {k e : ℤ} (hk0 : 0 < k) (hk : k < 10) (he : 0 ≤ e)
    (hmax : e ≤ emax) (h : |q| ≤ k * (10 : ℚ) ^ e) :
    finish q = .ok (.num (rounded q)) ∧ |rounded q| ≤ k * (10 : ℚ) ^ e := by
  have hexact : rounded (k * (10 : ℚ) ^ e) = k * (10 : ℚ) ^ e := by
    refine rounded_of_digits ?_ (by unfold etiny; omega)
    rw [abs_of_pos hk0]
    have hten : (10 : ℤ) ≤ 10 ^ prec := by norm_num [prec]
    omega
  have hneg : rounded (-(k * (10 : ℚ) ^ e)) = -(k * (10 : ℚ) ^ e) := by
    rw [rounded, Rounding.roundTo_neg, ← rounded, hexact]
  obtain ⟨hlow, hhigh⟩ := abs_le.mp h
  have hround : |rounded q| ≤ k * (10 : ℚ) ^ e := by
    refine abs_le.mpr ⟨?_, ?_⟩
    · rw [← hneg]
      exact rounded_mono hlow
    · rw [← hexact]
      exact rounded_mono hhigh
  refine ⟨?_, hround⟩
  have hlog : Int.log 10 |rounded q| ≤ e := by
    rcases eq_or_lt_of_le (abs_nonneg (rounded q)) with hzero | hpos
    · rw [← hzero, Int.log_zero_right]
      exact he
    · have hlt : |rounded q| < ((10 : ℕ) : ℚ) ^ (e + 1) := by
        have hunit : (0 : ℚ) < (10 : ℚ) ^ e := zpow_pos (by norm_num) e
        have hk' : (k : ℚ) < 10 := by exact_mod_cast hk
        calc |rounded q| ≤ k * (10 : ℚ) ^ e := hround
          _ < 10 * (10 : ℚ) ^ e := mul_lt_mul_of_pos_right hk' hunit
          _ = ((10 : ℕ) : ℚ) ^ (e + 1) := by
              rw [zpow_add_one₀ (by norm_num), mul_comm]
              norm_num
      have h := (Int.lt_zpow_iff_log_lt (by norm_num) hpos).mp hlt
      omega
  rw [finish, if_neg (by omega)]

/-- A power of ten beyond it does. -/
theorem finish_zpow {e : ℤ} (he : emax < e) : finish ((10 : ℚ) ^ e) = .error .overflow := by
  have hexact : rounded ((10 : ℚ) ^ e) = (10 : ℚ) ^ e := by
    have h := rounded_of_digits (k := 1) (e := e) (by norm_num [prec])
      (by unfold etiny; unfold emax at he; omega)
    simpa using h
  have hlog : Int.log 10 ((10 : ℚ) ^ e) = e := by
    have h := Int.log_zpow (R := ℚ) (b := 10) (by norm_num) e
    exact_mod_cast h
  have hpos : (0 : ℚ) < (10 : ℚ) ^ e := zpow_pos (by norm_num) e
  rw [finish, hexact, abs_of_pos hpos, hlog, if_pos he]

namespace Number

@[simp] theorem lt_num (x y : ℚ) : (num x).lt (num y) = .ok (decide (x < y)) := rfl

@[simp] theorem le_num (x y : ℚ) : (num x).le (num y) = .ok (decide (x ≤ y)) := rfl

@[simp] theorem add_num (x y : ℚ) : (num x).add (num y) = finish (x + y) := rfl

@[simp] theorem sub_num (x y : ℚ) : (num x).sub (num y) = finish (x - y) := by
  rw [sub, neg, add_num, ← sub_eq_add_neg]

/-- A comparison is invalid exactly on a NaN. -/
theorem lt_eq_error_iff {x y : Number} {s : Signal} :
    x.lt y = .error s ↔ (x.isNan = true ∨ y.isNan = true) ∧ s = .invalidOperation := by
  cases x <;> cases y <;> simp [lt, isNan, eq_comm]

end Number

/-! ### Sums that are bounded below -/

/-- The number is at least `low`, and no finite one exceeds `high` if `small`
holds. -/
structure Between (small : Prop) (low high : ℚ) (n : Number) : Prop where
  low : n = .inf false ∨ ∃ q, n = .num q ∧ low ≤ q
  high : small → ∀ q, n = .num q → |q| ≤ high

theorem between_num {small : Prop} {q : ℚ} (h0 : 0 ≤ q) : Between small q q (.num q) where
  low := .inr ⟨q, rfl, le_refl q⟩
  high := by
    intro _ r hr
    cases hr
    rw [abs_of_nonneg h0]

theorem Between.mono {small : Prop} {low low' high high' : ℚ} {n : Number}
    (h : Between small low high n) (hlow : low' ≤ low) (hhigh : high ≤ high') :
    Between small low' high' n where
  low := h.low.imp id fun ⟨q, hq, hle⟩ => ⟨q, hq, hlow.trans hle⟩
  high := fun hs q hq => (h.high hs q hq).trans hhigh

/-- **A sum is at least the rounded sum of the bounds**, or it overflows, which
it does not while its terms are small. -/
theorem Between.add {small : Prop} {x y z w : ℚ} {n m : Number} {k e : ℤ}
    (hn : Between small x z n) (hm : Between small y w m) (hk0 : 0 < k) (hk : k < 10)
    (he : 0 ≤ e) (hmax : e ≤ emax) (hzw : z + w ≤ k * (10 : ℚ) ^ e) :
    (n.add m = .error .overflow ∧ ¬ small) ∨
      ∃ s, n.add m = .ok s ∧ Between small (rounded (x + y)) (k * (10 : ℚ) ^ e) s := by
  have hinf : Between small (rounded (x + y)) (k * (10 : ℚ) ^ e) (.inf false) :=
    ⟨.inl rfl, fun _ q hq => by cases hq⟩
  -- an infinite term makes the sum infinite, so only two finite ones can overflow
  rcases hn.low with rfl | ⟨p, rfl, hp⟩ <;> rcases hm.low with rfl | ⟨q, rfl, hq⟩
  · exact .inr ⟨_, rfl, hinf⟩
  · exact .inr ⟨_, rfl, hinf⟩
  · exact .inr ⟨_, rfl, hinf⟩
  · have hlow : rounded (x + y) ≤ rounded (p + q) := rounded_mono (add_le_add hp hq)
    have hbound : small → |p + q| ≤ k * (10 : ℚ) ^ e := fun hs =>
      (abs_add_le p q).trans ((add_le_add (hn.high hs p rfl) (hm.high hs q rfl)).trans hzw)
    rw [Number.add_num]
    rcases finish_eq (p + q) with hover | hok
    · refine .inl ⟨hover, fun hs => ?_⟩
      rw [(finish_of_abs_le hk0 hk he hmax (hbound hs)).1] at hover
      cases hover
    · refine .inr ⟨_, hok, .inr ⟨_, rfl, hlow⟩, fun hs r hr => ?_⟩
      cases hr
      exact (finish_of_abs_le hk0 hk he hmax (hbound hs)).2

/-! ## Reading a string -/

/-- The code points `str.isspace` accepts. -/
def spaces : List ℕ :=
  [9, 10, 11, 12, 13, 28, 29, 30, 31, 32, 133, 160, 5760, 8192, 8193, 8194, 8195, 8196, 8197,
    8198, 8199, 8200, 8201, 8202, 8232, 8233, 8239, 8287, 12288]

/-- The zeros of the decimal digits of Unicode 16, the other nine after each. -/
def zeros : List ℕ :=
  [48, 1632, 1776, 1984, 2406, 2534, 2662, 2790, 2918, 3046, 3174, 3302, 3430, 3558, 3664, 3792,
    3872, 4160, 4240, 6112, 6160, 6470, 6608, 6784, 6800, 6992, 7088, 7232, 7248, 42528, 43216,
    43264, 43472, 43504, 43600, 44016, 65296, 66720, 68912, 68928, 69734, 69872, 69942, 70096,
    70384, 70736, 70864, 71248, 71360, 71376, 71386, 71472, 71904, 72016, 72688, 72784, 73040,
    73120, 73552, 90416, 92768, 92864, 93008, 93552, 118000, 120782, 120792, 120802, 120812,
    120822, 123200, 123632, 124144, 124401, 125264, 130032]

def isSpace (c : Char) : Bool := spaces.contains c.toNat

/-- The value of a decimal digit of any script. -/
def digit? (c : Char) : Option ℕ :=
  (zeros.find? fun z => z ≤ c.toNat && c.toNat < z + 10).map fun z => c.toNat - z

/-- `text.strip()`. -/
def strip (cs : List Char) : List Char :=
  ((cs.dropWhile isSpace).reverse.dropWhile isSpace).reverse

/-- The digits a text starts with, and what follows them. -/
def spanDigits : List Char → List ℕ × List Char
  | [] => ([], [])
  | c :: cs =>
      match digit? c with
      | none => ([], c :: cs)
      | some d => (d :: (spanDigits cs).1, (spanDigits cs).2)

def ofDigits (ds : List ℕ) : ℕ := ds.foldl (fun n d => 10 * n + d) 0

/-- An optional sign, and what follows it. -/
def spanSign : List Char → Bool × List Char
  | '-' :: cs => (true, cs)
  | '+' :: cs => (false, cs)
  | cs => (false, cs)

/-- The exponent part: nothing, or `e` and a signed number. -/
def exponent : List Char → Option ℤ
  | [] => some 0
  | c :: cs =>
      if c = 'e' ∨ c = 'E' then
        match spanDigits (spanSign cs).2 with
        | (d :: ds, []) =>
            some (if (spanSign cs).1 then -(ofDigits (d :: ds) : ℤ) else ofDigits (d :: ds))
        | _ => none
      else none

/-- The fraction part: nothing, or a point and digits. -/
def spanFraction : List Char → List ℕ × List Char
  | '.' :: cs => spanDigits cs
  | cs => ([], cs)

/-- The exponents an exact number can have. -/
def maxExponent : ℤ := 999999999999999999

def minExponent : ℤ := -1999999999999999997

/-- A finite number, unsigned: digits with at most one point, and an exponent. -/
def finite (cs : List Char) : Option ℚ :=
  let (whole, cs) := spanDigits cs
  let (fraction, cs) := spanFraction cs
  match exponent cs with
  | none => none
  | some e =>
      let coefficient := ofDigits (whole ++ fraction)
      let e := e - fraction.length
      if whole ++ fraction = [] ∨ maxExponent < e + Nat.log 10 coefficient ∨ e < minExponent then
        none
      else some (coefficient * 10 ^ e)

/-- An infinity or a NaN, in any case; a NaN may carry digits. -/
def special (neg : Bool) (cs : List Char) : Option Number :=
  let word := cs.map Char.toLower
  if word = "inf".toList ∨ word = "infinity".toList then some (.inf neg)
  else if word.take 3 = "nan".toList ∧ (word.drop 3).all fun c => (digit? c).isSome then some .nan
  else if word.take 4 = "snan".toList ∧ (word.drop 4).all fun c => (digit? c).isSome then
    some .snan
  else none

/-- `Decimal(text)`: surrounding whitespace and every underscore are dropped. -/
def ofString (text : String) : Option Number :=
  let (neg, cs) := spanSign ((strip text.toList).filter (· ≠ '_'))
  match special neg cs with
  | some n => some n
  | none => (finite cs).map fun q => .num (if neg then -q else q)

end DecimalArith
