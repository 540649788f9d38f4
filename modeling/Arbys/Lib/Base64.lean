import Mathlib.Data.List.Basic

/-!
# Base64

Three bytes are four characters of an alphabet of 64, six bits each; a last
group of one or two bytes is padded. The decoder is the strict one: nothing
outside the alphabet, no padding but at the end, and no group cut short. It
reads back what was written (`decode_encode`).
-/

namespace Base64

def alphabet : List Char :=
  "ABCDEFGHIJKLMNOPQRSTUVWXYZabcdefghijklmnopqrstuvwxyz0123456789+/".toList

def pad : Char := '='

/-- The character of six bits. -/
def digit (n : ℕ) : Char := alphabet.getD n pad

/-- The six bits of a character. -/
def value? (c : Char) : Option ℕ := alphabet.idxOf? c

def encode : List UInt8 → List Char
  | [] => []
  | [a] =>
      let n := a.toNat * 65536
      [digit (n / 262144), digit (n / 4096 % 64), pad, pad]
  | [a, b] =>
      let n := a.toNat * 65536 + b.toNat * 256
      [digit (n / 262144), digit (n / 4096 % 64), digit (n / 64 % 64), pad]
  | a :: b :: c :: rest =>
      let n := a.toNat * 65536 + b.toNat * 256 + c.toNat
      digit (n / 262144) :: digit (n / 4096 % 64) :: digit (n / 64 % 64) :: digit (n % 64) ::
        encode rest

/-- The bytes of a group of four. -/
def group (p q r s : ℕ) : List UInt8 :=
  let n := p * 262144 + q * 4096 + r * 64 + s
  [UInt8.ofNat (n / 65536), UInt8.ofNat (n / 256 % 256), UInt8.ofNat (n % 256)]

def decode : List Char → Option (List UInt8)
  | [] => some []
  | a :: b :: c :: d :: rest =>
      if c = pad ∧ d = pad ∧ rest = [] then do
        let p ← value? a
        let q ← value? b
        pure ((group p q 0 0).take 1)
      else if d = pad ∧ rest = [] then do
        let p ← value? a
        let q ← value? b
        let r ← value? c
        pure ((group p q r 0).take 2)
      else do
        let p ← value? a
        let q ← value? b
        let r ← value? c
        let s ← value? d
        let bytes ← decode rest
        pure (group p q r s ++ bytes)
  | _ => none

@[simp] theorem value?_digit {n : ℕ} (hn : n < 64) : value? (digit n) = some n := by
  have hall : ∀ n < 64, value? (digit n) = some n := by decide +kernel
  exact hall n hn

theorem digit_ne_pad {n : ℕ} (hn : n < 64) : digit n ≠ pad := by
  have hall : ∀ n < 64, digit n ≠ pad := by decide +kernel
  exact hall n hn

theorem digit_mem {n : ℕ} (hn : n < 64) : digit n ∈ alphabet := by
  have hall : ∀ n < 64, digit n ∈ alphabet := by decide +kernel
  exact hall n hn

/-! ## A group -/

section Group

variable (a b c : UInt8)

/-- A group reads back the bytes it was made of. -/
theorem group_split :
    let n := a.toNat * 65536 + b.toNat * 256 + c.toNat
    group (n / 262144) (n / 4096 % 64) (n / 64 % 64) (n % 64) = [a, b, c] := by
  intro n
  have ha := a.toNat_lt
  have hb := b.toNat_lt
  have hc := c.toNat_lt
  have hn : n / 262144 * 262144 + n / 4096 % 64 * 4096 + n / 64 % 64 * 64 + n % 64 = n := by
    omega
  have h₁ : n / 65536 = a.toNat := by omega
  have h₂ : n / 256 % 256 = b.toNat := by omega
  have h₃ : n % 256 = c.toNat := by omega
  rw [group, hn, h₁, h₂, h₃]
  simp

theorem group_one :
    let n := a.toNat * 65536
    (group (n / 262144) (n / 4096 % 64) 0 0).take 1 = [a] := by
  intro n
  have ha := a.toNat_lt
  have hn : n / 262144 * 262144 + n / 4096 % 64 * 4096 + 0 * 64 + 0 = n := by omega
  have h₁ : n / 65536 = a.toNat := by omega
  rw [group, hn, h₁]
  simp

theorem group_two :
    let n := a.toNat * 65536 + b.toNat * 256
    (group (n / 262144) (n / 4096 % 64) (n / 64 % 64) 0).take 2 = [a, b] := by
  intro n
  have ha := a.toNat_lt
  have hb := b.toNat_lt
  have hn : n / 262144 * 262144 + n / 4096 % 64 * 4096 + n / 64 % 64 * 64 + 0 = n := by omega
  have h₁ : n / 65536 = a.toNat := by omega
  have h₂ : n / 256 % 256 = b.toNat := by omega
  rw [group, hn, h₁, h₂]
  simp

end Group

/-! ## The round trip -/

/-- **What is written is read back.** -/
theorem decode_encode (bytes : List UInt8) : decode (encode bytes) = some bytes := by
  induction bytes using encode.induct with
  | case1 => rfl
  | case2 a =>
      have ha := a.toNat_lt
      have hone := group_one a
      have hp : a.toNat * 65536 / 262144 < 64 := by omega
      have hq : a.toNat * 65536 / 4096 % 64 < 64 := by omega
      simp only [encode, decode, if_true, and_self, value?_digit hp, value?_digit hq]
      exact congrArg some hone
  | case3 a b =>
      have ha := a.toNat_lt
      have hb := b.toNat_lt
      have htwo := group_two a b
      have hp : (a.toNat * 65536 + b.toNat * 256) / 262144 < 64 := by omega
      have hq : (a.toNat * 65536 + b.toNat * 256) / 4096 % 64 < 64 := by omega
      have hr : (a.toNat * 65536 + b.toNat * 256) / 64 % 64 < 64 := by omega
      simp only [encode, decode, digit_ne_pad hr, false_and, if_false, if_true, and_self,
        value?_digit hp, value?_digit hq, value?_digit hr]
      exact congrArg some htwo
  | case4 a b c rest ih =>
      have ha := a.toNat_lt
      have hb := b.toNat_lt
      have hc := c.toNat_lt
      have hthree := group_split a b c
      have hp : (a.toNat * 65536 + b.toNat * 256 + c.toNat) / 262144 < 64 := by omega
      have hq : (a.toNat * 65536 + b.toNat * 256 + c.toNat) / 4096 % 64 < 64 := by omega
      have hr : (a.toNat * 65536 + b.toNat * 256 + c.toNat) / 64 % 64 < 64 := by omega
      have hs : (a.toNat * 65536 + b.toNat * 256 + c.toNat) % 64 < 64 := by omega
      simp only [encode, decode, digit_ne_pad hr, digit_ne_pad hs, false_and, if_false,
        value?_digit hp, value?_digit hq, value?_digit hr, value?_digit hs, ih]
      exact congrArg (fun bytes => some (bytes ++ rest)) hthree

/-- What is written is of the alphabet, or padding. -/
theorem mem_encode {bytes : List UInt8} {c : Char} (hc : c ∈ encode bytes) :
    c ∈ alphabet ∨ c = pad := by
  induction bytes using encode.induct with
  | case1 => cases hc
  | case2 a =>
      have ha := a.toNat_lt
      simp only [encode, List.mem_cons, List.not_mem_nil, or_false] at hc
      rcases hc with rfl | rfl | rfl | rfl
      · exact .inl (digit_mem (by omega))
      · exact .inl (digit_mem (by omega))
      · exact .inr rfl
      · exact .inr rfl
  | case3 a b =>
      have ha := a.toNat_lt
      have hb := b.toNat_lt
      simp only [encode, List.mem_cons, List.not_mem_nil, or_false] at hc
      rcases hc with rfl | rfl | rfl | rfl
      · exact .inl (digit_mem (by omega))
      · exact .inl (digit_mem (by omega))
      · exact .inl (digit_mem (by omega))
      · exact .inr rfl
  | case4 a b c rest ih =>
      have ha := a.toNat_lt
      have hb := b.toNat_lt
      have hc' := c.toNat_lt
      simp only [encode, List.mem_cons] at hc
      rcases hc with rfl | rfl | rfl | rfl | hc
      · exact .inl (digit_mem (by omega))
      · exact .inl (digit_mem (by omega))
      · exact .inl (digit_mem (by omega))
      · exact .inl (digit_mem (by omega))
      · exact ih hc

end Base64
