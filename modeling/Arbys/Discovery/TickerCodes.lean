import Arbys.Lib.PrefixCode
import Arbys.Discovery.Kalshi

/-!
# Codes in Kalshi tickers

An event ticker ends in two team codes with nothing between them, and a spread
market's ticker in a code and a number. `split_team_codes` takes the first cut
at which both halves resolve, `anchor_code_from_ticker` the one code that
leaves only digits.
-/

namespace Arbys

open PrefixCode (PrefixFree)

/-- `str.upper` leaves a text of upper-case letters as it is. -/
def Locale.KeepsUpper (L : Locale) (isUpper : Char → Bool) : Prop :=
  ∀ text : String, (∀ c ∈ text.toList, isUpper c = true) → L.upper text = text

namespace TeamResolver

/-- The codes a resolver knows, its own and those of `code_aliases`. -/
def knownCodes (r : TeamResolver) : List String := r.codes.keys ++ r.codeAliases.keys

theorem byCode_isSome_iff (L : Locale) (r : TeamResolver) (code : String) :
    (r.byCode L code).isSome = true ↔ L.upper code ∈ r.knownCodes := by
  rw [byCode, knownCodes, List.mem_append, Dict.mem_keys_iff, Dict.mem_keys_iff,
    Option.isSome_or, Bool.or_eq_true]

/-- Every code is a word of upper-case letters. -/
def CodesUpper (r : TeamResolver) (isUpper : Char → Bool) : Prop :=
  ∀ code ∈ r.knownCodes, 2 ≤ code.length ∧ ∀ c ∈ code.toList, isUpper c = true

/-- No code begins another. -/
def CodesPrefixFree (r : TeamResolver) : Prop :=
  PrefixFree fun word => String.ofList word ∈ r.knownCodes

theorem codesPrefixFree_iff (r : TeamResolver) : r.CodesPrefixFree ↔
    ∀ a ∈ r.knownCodes, ∀ b ∈ r.knownCodes, a.toList <+: b.toList → a = b := by
  constructor
  · intro hfree a ha b hb hab
    exact String.toList_inj.mp (hfree _ _ (by simpa using ha) (by simpa using hb) hab)
  · intro h x y hx hy hxy
    have hsame := h _ hx _ hy (by rwa [String.toList_ofList, String.toList_ofList])
    exact String.ofList_injective hsame

end TeamResolver

/-! ## Two codes -/

section Split

variable {L : Locale} {r : TeamResolver} {isUpper : Char → Bool}

/-- **Two codes come apart** where the first ends. -/
theorem splitTeamCodes_append (hL : L.KeepsUpper isUpper) (hupper : r.CodesUpper isUpper)
    (hfree : r.CodesPrefixFree) {a b : String} (ha : a ∈ r.knownCodes) (hb : b ∈ r.knownCodes) :
    splitTeamCodes L r (a ++ b) = some (a, b) := by
  obtain ⟨hlenA, hcharsA⟩ := hupper a ha
  obtain ⟨hlenB, hcharsB⟩ := hupper b hb
  have hresolves : ∀ code ∈ r.knownCodes, (r.byCode L code).isSome = true := by
    intro code hcode
    rw [r.byCode_isSome_iff, hL code (hupper code hcode).2]
    exact hcode
  refine PrefixCode.findSome?_of_sorted (k := a.length) ?_ ?_ (fun i hi => ?_) ?_
  · exact (List.pairwise_lt_range).sublist (List.drop_sublist 2 _)
  · rw [List.range_eq_range', List.drop_range', List.mem_range'_1, String.length_append]
    omega
  · -- a shorter beginning of the first code is no code
    refine if_neg fun hboth => ?_
    have htake : ((a ++ b).toList.take i) = a.toList.take i := by
      rw [String.toList_append, List.take_append_of_le_length (Nat.le_of_lt hi)]
    have hchars : ∀ c ∈ (String.ofList ((a ++ b).toList.take i)).toList, isUpper c = true := by
      intro c hc
      rw [String.toList_ofList, htake] at hc
      exact hcharsA c (List.mem_of_mem_take hc)
    have hknown := (r.byCode_isSome_iff L _).mp hboth.1
    rw [hL _ hchars, String.toList_append] at hknown
    exact hfree.not_take (a := a.toList) (by simpa using ha) b.toList hi hknown
  · have htake : (a ++ b).toList.take a.length = a.toList := by
      rw [String.toList_append, ← String.length_toList, List.take_left]
    have hdrop : (a ++ b).toList.drop a.length = b.toList := by
      rw [String.toList_append, ← String.length_toList, List.drop_left]
    simp only [htake, hdrop, String.ofList_toList]
    exact if_pos ⟨hresolves a ha, hresolves b hb⟩

end Split

/-! ## A code and a number -/

/-- `anchor_code_from_ticker`, with what `str.isdigit` takes for digits. -/
def anchorCode (isDigit : Char → Bool) (marketTicker eventTicker : String)
    (codes : String × String) : Option String :=
  let start := eventTicker.toList ++ ['-']
  if start.isPrefixOf marketTicker.toList then
    let rest := marketTicker.toList.drop start.length
    let hits := [codes.1, codes.2].filter fun c =>
      c.toList.isPrefixOf rest && (rest.drop c.length ≠ [] && (rest.drop c.length).all isDigit)
    if hits.length = 1 then hits.head? else none
  else none

/-- The tickers of the fetchers are read as ASCII. -/
theorem anchorCodeFromTicker_eq : anchorCodeFromTicker = anchorCode Char.isDigit := by
  funext marketTicker eventTicker codes
  have hdigits : ∀ text : List Char,
      (digits? text).isSome = (text ≠ [] && text.all Char.isDigit) := by
    intro text
    unfold digits?
    split
    · rename_i h
      simp [h]
    · rename_i h
      simpa using h
  unfold anchorCodeFromTicker anchorCode
  simp only [hdigits]

section Anchor

variable {isDigit : Char → Bool} {c k n : String}

/-- What is left of a code and a number when another code is taken off. -/
theorem fits_iff (hc : ∀ x ∈ c.toList, isDigit x = false) (hk : ∀ x ∈ k.toList, isDigit x = false)
    (hn : n ≠ "" ∧ ∀ x ∈ n.toList, isDigit x = true) :
    (k.toList.isPrefixOf (c.toList ++ n.toList) &&
      ((c.toList ++ n.toList).drop k.length ≠ [] &&
        ((c.toList ++ n.toList).drop k.length).all isDigit)) = true ↔ k = c := by
  constructor
  · intro h
    rw [Bool.and_eq_true, Bool.and_eq_true, List.isPrefixOf_iff_prefix, List.all_eq_true] at h
    obtain ⟨⟨rest, hrest⟩, -, hdigits⟩ := h
    rw [← hrest, ← String.length_toList, List.drop_left] at hdigits
    exact String.toList_inj.mp (PrefixCode.eq_of_append_class hk hc hdigits hn.2 hrest)
  · rintro rfl
    have hne : n.toList ≠ [] := by simpa using hn.1
    rw [← String.length_toList, List.drop_left]
    simpa [hne] using hn.2

/-- **The anchor of a spread market** is the code its ticker was made of. -/
theorem anchorCode_append {a b : String} (event : String) (hne : a ≠ b)
    (ha : ∀ x ∈ a.toList, isDigit x = false) (hb : ∀ x ∈ b.toList, isDigit x = false)
    (hn : n ≠ "" ∧ ∀ x ∈ n.toList, isDigit x = true) (hc : c = a ∨ c = b) :
    anchorCode isDigit (event ++ "-" ++ c ++ n) event (a, b) = some c := by
  have hyphen : "-".toList = ['-'] := rfl
  have hticker : (event ++ "-" ++ c ++ n).toList =
      (event.toList ++ ['-']) ++ (c.toList ++ n.toList) := by
    simp only [String.toList_append, hyphen, List.append_assoc]
  have hdigitC : ∀ x ∈ c.toList, isDigit x = false := by
    rcases hc with rfl | rfl
    · exact ha
    · exact hb
  have hfit : ∀ k : String, (∀ x ∈ k.toList, isDigit x = false) →
      (k.toList.isPrefixOf (c.toList ++ n.toList) &&
        ((c.toList ++ n.toList).drop k.length ≠ [] &&
          ((c.toList ++ n.toList).drop k.length).all isDigit)) = decide (k = c) := by
    intro k hk
    rw [Bool.eq_iff_iff, fits_iff hdigitC hk hn, decide_eq_true_iff]
  unfold anchorCode
  simp only [hticker]
  rw [if_pos (List.isPrefixOf_iff_prefix.mpr (List.prefix_append _ _)), List.drop_left]
  rcases hc with rfl | rfl
  · simp only [List.filter_cons, List.filter_nil, hfit c ha, hfit b hb, Ne.symm hne, decide_true,
      decide_false, if_true, Bool.false_eq_true, if_false]
    rfl
  · simp only [List.filter_cons, List.filter_nil, hfit a ha, hfit c hb, hne, decide_true,
      decide_false, if_true, Bool.false_eq_true, if_false]
    rfl

end Anchor

/-- **Ticker codes decode** to what they were written from: two codes of a
resolver whose codes are words of upper-case letters, of which none begins
another, and a code of letters before a number. -/
theorem ticker_codes_decode {L : Locale} {isUpper : Char → Bool} (hL : L.KeepsUpper isUpper)
    (r : TeamResolver) (hupper : r.CodesUpper isUpper) (hfree : r.CodesPrefixFree)
    (isDigit : Char → Bool) :
    (∀ a ∈ r.knownCodes, ∀ b ∈ r.knownCodes, splitTeamCodes L r (a ++ b) = some (a, b)) ∧
      ∀ event a b n c : String, a ≠ b → (∀ x ∈ a.toList, isDigit x = false) →
        (∀ x ∈ b.toList, isDigit x = false) → n ≠ "" → (∀ x ∈ n.toList, isDigit x = true) →
        (c = a ∨ c = b) → anchorCode isDigit (event ++ "-" ++ c ++ n) event (a, b) = some c :=
  ⟨fun _ ha _ hb => splitTeamCodes_append hL hupper hfree ha hb,
    fun event _ _ _ _ hne ha hb hn hdigits hc =>
      anchorCode_append event hne ha hb ⟨hn, hdigits⟩ hc⟩

namespace Detroit

/-- The tables of ASCII. -/
def locale : Locale where
  upper text := String.ofList (text.toList.map Char.toUpper)
  lower text := String.ofList (text.toList.map Char.toLower)
  isSpace := Char.isWhitespace
  fold := id
  fromIsoformat _ := none
  easternDate _ := (Date.ofYmd? 2026 8 13).get (by decide)
  easternInstant _ _ _ := 0

theorem toUpper_of_isUpper {c : Char} (h : c.isUpper = true) : c.toUpper = c := by
  have hrange : c.val ≥ 'A'.val ∧ c.val ≤ 'Z'.val := of_decide_eq_true h
  unfold Char.toUpper
  refine dif_neg fun hlower => ?_
  exact absurd (UInt32.le_trans hlower.1 hrange.2) (by decide)

theorem keepsUpper : locale.KeepsUpper Char.isUpper := by
  intro text htext
  have hmap : text.toList.map Char.toUpper = text.toList := by
    calc text.toList.map Char.toUpper = text.toList.map id :=
          List.map_congr_left fun c hc => toUpper_of_isUpper (htext c hc)
      _ = text.toList := List.map_id _
  simp only [locale, hmap, String.ofList_toList]

/-- Two teams, of which Kalshi writes one by a code of its own. -/
def resolver : TeamResolver where
  codes := Dict.ofList [("DET", ⟨"DET", "Detroit Lions", "Detroit", "Lions"⟩),
    ("JAX", ⟨"JAX", "Jacksonville Jaguars", "Jacksonville", "Jaguars"⟩)]
  cityAndPrefix := Dict.empty
  full := Dict.empty
  cityUnique := Dict.empty
  codeAliases := Dict.ofList [("JAC", ⟨"JAX", "Jacksonville Jaguars", "Jacksonville", "Jaguars"⟩)]

theorem knownCodes_resolver : resolver.knownCodes = ["DET", "JAX", "JAC"] := by decide +kernel

theorem codesUpper : resolver.CodesUpper Char.isUpper := by
  have hall : ["DET", "JAX", "JAC"].all
      (fun code => decide (2 ≤ code.length) && code.toList.all Char.isUpper) = true := by
    decide +kernel
  intro code hcode
  rw [knownCodes_resolver] at hcode
  have hone := List.all_eq_true.mp hall code hcode
  rw [Bool.and_eq_true, decide_eq_true_eq, List.all_eq_true] at hone
  exact hone

theorem codesPrefixFree : resolver.CodesPrefixFree :=
  resolver.codesPrefixFree_iff.mpr (by rw [knownCodes_resolver]; decide +kernel)

end Detroit

open Detroit in
theorem ticker_codes_decode_detroit :
    splitTeamCodes locale resolver ("DET" ++ "JAC") = some ("DET", "JAC") ∧
      anchorCode Char.isDigit ("KXNFLSPREAD-26AUG13DETJAC" ++ "-" ++ "JAC" ++ "10")
        "KXNFLSPREAD-26AUG13DETJAC" ("DET", "JAC") = some "JAC" := by
  obtain ⟨hsplit, hanchor⟩ :=
    ticker_codes_decode keepsUpper resolver codesUpper codesPrefixFree Char.isDigit
  have hletters : ∀ code : String, code.toList.all (fun c => !c.isDigit) = true →
      ∀ c ∈ code.toList, c.isDigit = false := by
    intro code hall c hc
    simpa using List.all_eq_true.mp hall c hc
  refine ⟨hsplit _ (by rw [knownCodes_resolver]; decide) _ (by rw [knownCodes_resolver]; decide),
    hanchor _ _ _ _ _ (by decide) (hletters "DET" (by decide)) (hletters "JAC" (by decide))
      (by decide) ?_ (.inr rfl)⟩
  have hnumber : "10".toList.all Char.isDigit = true := by decide
  exact List.all_eq_true.mp hnumber

end Arbys
