import Arbys.Discovery.Games

/-!
# Team names

`discovery/teams.py`, the lookups of a `TeamResolver`: five tables and the
order in which they are asked. What the standard library brings as tables of
its own, Unicode and the time zones, is a `Locale`.
-/

namespace Arbys

/-- The tables the standard library brings. `fold` decomposes a text and
drops its combining characters; `fromIsoformat` reads a timestamp as an
instant, one without an offset as UTC; `easternDate` and `easternInstant`
convert between an instant and the wall clock of New York. -/
structure Locale where
  upper : String → String
  lower : String → String
  isSpace : Char → Bool
  fold : String → String
  fromIsoformat : String → Option ℚ
  easternDate : ℚ → Date
  easternInstant : Date → ℕ → ℕ → ℚ

/-- `text.strip()`. -/
def Locale.strip (L : Locale) (text : String) : String :=
  String.ofList (((text.toList.dropWhile L.isSpace).reverse.dropWhile L.isSpace).reverse)

/-- `text.rsplit(" ", 1)`, where it has two parts. -/
def rsplitSpace (text : String) : Option (String × String) :=
  let last := text.toList.reverse.takeWhile (· ≠ ' ')
  if last.length = text.toList.length then none
  else some (String.ofList (text.toList.reverse.drop (last.length + 1)).reverse,
    String.ofList last.reverse)

structure Team where
  code : String
  fullName : String
  city : String
  nickname : String
  deriving DecidableEq

/-- What the matcher reads of a team. -/
def Team.participant (t : Team) : Participant := ⟨t.code, t.fullName⟩

structure TeamResolver where
  codes : Dict String Team
  cityAndPrefix : Dict (String × String) Team
  full : Dict String Team
  cityUnique : Dict String Team
  codeAliases : Dict String Team

namespace TeamResolver

variable (L : Locale) (r : TeamResolver)

def byCode (code : String) : Option Team :=
  let key := L.upper code
  (r.codes.get? key).or (r.codeAliases.get? key)

/-- `by_kalshi_title`: "Los Angeles D", "New York Y", or "Atlanta". -/
def byKalshiTitle (title : String) : Option Team :=
  let t := L.strip title
  if t = "" then none
  else
    match r.full.get? (L.lower t) with
    | some team => some team
    | none =>
        let truncated := (rsplitSpace t).bind fun (cityPart, nickPart) =>
          r.cityAndPrefix.get?
            (L.lower cityPart, L.upper (String.ofList (nickPart.toList.take 1)))
        truncated.or (r.cityUnique.get? (L.lower t))

def byPolymarketName (name : String) : Option Team :=
  let n := L.lower (L.strip name)
  (r.full.get? n).or (r.cityUnique.get? n)

end TeamResolver

end Arbys
