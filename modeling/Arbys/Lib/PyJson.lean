import Arbys.Lib.DecimalArith

/-!
# JSON values in Python

What `json.loads` delivers, and what Python code asks of such a value without
knowing its shape: its text, its integer, an item by position, a field by name.
Each of these may raise, so a reader of untyped JSON returns in
`Except Raised`; `catching` is `try ... except`, with the exception classes
the clause names.
-/

namespace PyJson

open DecimalArith (Number Signal)

/-! ## Exceptions -/

/-- An exception, by its class. -/
inductive Raised where
  | valueError
  | typeError
  | keyError
  | indexError
  | attributeError
  | overflowError
  | decimal (signal : Signal)
  deriving DecidableEq

/-- A class an `except` clause names. -/
inductive Caught where
  | valueError
  | typeError
  | keyError
  | indexError
  | arithmeticError
  | invalidOperation
  deriving DecidableEq

/-- `isinstance(e, cls)`. `OverflowError` and the decimal signals are
arithmetic errors; none of them is a `ValueError`. -/
def Raised.isA : Raised → Caught → Bool
  | .valueError, .valueError => true
  | .typeError, .typeError => true
  | .keyError, .keyError => true
  | .indexError, .indexError => true
  | .overflowError, .arithmeticError => true
  | .decimal _, .arithmeticError => true
  | .decimal .invalidOperation, .invalidOperation => true
  | _, _ => false

/-- `try: x except clause: handler`. -/
def catching {α : Type} (clause : List Caught) (x : Except Raised α)
    (handler : Except Raised α) : Except Raised α :=
  match x with
  | .ok a => .ok a
  | .error e => if clause.any e.isA then handler else .error e

@[simp] theorem catching_ok {α : Type} (clause : List Caught) (a : α)
    (handler : Except Raised α) : catching clause (.ok a) handler = .ok a := rfl

/-- A computation of the decimal library, its signals raised. -/
def raising {α : Type} : Except Signal α → Except Raised α
  | .ok a => .ok a
  | .error s => .error (.decimal s)

@[simp] theorem raising_ok {α : Type} (a : α) : raising (.ok a : Except Signal α) = .ok a := rfl

@[simp] theorem raising_error {α : Type} (s : Signal) :
    raising (.error s : Except Signal α) = .error (.decimal s) := rfl

/-- `Decimal(text)`. -/
def decimal (text : String) : Except Raised Number :=
  match DecimalArith.ofString text with
  | some n => .ok n
  | none => .error (.decimal .invalidOperation)

/-! ## Values -/

/-- A value `json.loads` delivers. A float carries its `repr` and what `int`
makes of it, a container the text `str` writes for it; the fields of an object
stand in their order, each name once. -/
inductive Json where
  | null
  | bool (b : Bool)
  | int (n : ℤ)
  | float (repr : String) (trunc : Except Raised ℤ)
  | str (s : String)
  | list (items : List Json) (text : String)
  | dict (fields : List (String × Json)) (text : String)

namespace Json

/-- `str(value)`. -/
def text : Json → String
  | null => "None"
  | bool b => if b then "True" else "False"
  | int n => toString n
  | float repr _ => repr
  | str s => s
  | list _ text => text
  | dict _ text => text

/-- `int(s)` on a string: digits of any script, single underscores between
them, at most 4300 of them. -/
def parseInt (s : String) : Option ℤ :=
  let (neg, cs) := DecimalArith.spanSign (DecimalArith.strip s.toList)
  let groups := (cs.splitOn '_').map fun group => group.mapM DecimalArith.digit?
  let digits := (groups.map fun group => group.getD []).flatten
  if (groups.all fun group => group.any (· ≠ [])) ∧ digits.length ≤ 4300 then
    some (if neg then -(DecimalArith.ofDigits digits : ℤ) else DecimalArith.ofDigits digits)
  else none

/-- `int(value)`. -/
def toInt : Json → Except Raised ℤ
  | bool b => .ok (if b then 1 else 0)
  | int n => .ok n
  | float _ trunc => trunc
  | str s =>
      match parseInt s with
      | some n => .ok n
      | none => .error .valueError
  | null | list _ _ | dict _ _ => .error .typeError

/-- `value[i]`, on a position of a list or a string. -/
def index (value : Json) (i : ℕ) : Except Raised Json :=
  match value with
  | list items _ =>
      match items[i]? with
      | some item => .ok item
      | none => .error .indexError
  | str s =>
      match s.toList[i]? with
      | some c => .ok (str (String.singleton c))
      | none => .error .indexError
  | dict _ _ => .error .keyError
  | null | bool _ | int _ | float _ _ => .error .typeError

/-- `fields.get(name)`; a missing field is `None`. -/
def field (fields : List (String × Json)) (name : String) : Json :=
  (fields.lookup name).getD null

/-- `fields[name]`. -/
def item (fields : List (String × Json)) (name : String) : Except Raised Json :=
  match fields.lookup name with
  | some value => .ok value
  | none => .error .keyError

/-- `bool(value)`; a float is judged by its text. -/
def truthy : Json → Bool
  | null => false
  | bool b => b
  | int n => n ≠ 0
  | float repr _ => repr ≠ "0.0" ∧ repr ≠ "-0.0"
  | str s => s ≠ ""
  | list items _ => !items.isEmpty
  | dict fields _ => !fields.isEmpty

end Json

/-! ## Texts -/

/-- `text.rpartition(sep)`: what stands before the last `sep` and what stands
after it, if there is one. -/
def rpartition (sep : Char) (text : String) : Option (String × String) :=
  match text.toList.reverse.span (· ≠ sep) with
  | (_, []) => none
  | (after, _ :: before) => some (String.ofList before.reverse, String.ofList after.reverse)

/-- The last separator is the one that is found. -/
theorem rpartition_append {sep : Char} {after : String} (h : sep ∉ after.toList)
    (before : String) :
    rpartition sep (before ++ String.singleton sep ++ after) = some (before, after) := by
  have hreverse : (before ++ String.singleton sep ++ after).toList.reverse =
      after.toList.reverse ++ sep :: before.toList.reverse := by
    simp
  have hall : ∀ c ∈ after.toList.reverse, decide (c ≠ sep) = true := by
    intro c hc
    rw [decide_eq_true_iff]
    rintro rfl
    exact h (List.mem_reverse.mp hc)
  have htake : (after.toList.reverse ++ sep :: before.toList.reverse).takeWhile (· ≠ sep) =
      after.toList.reverse := by
    rw [List.takeWhile_append_of_pos hall]
    simp
  have hdrop : (after.toList.reverse ++ sep :: before.toList.reverse).dropWhile (· ≠ sep) =
      sep :: before.toList.reverse := by
    rw [List.dropWhile_append_of_pos hall]
    simp
  rw [rpartition, hreverse, List.span_eq_takeWhile_dropWhile, htake, hdrop]
  simp

end PyJson
