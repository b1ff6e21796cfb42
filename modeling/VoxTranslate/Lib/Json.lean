import VoxTranslate.Lib.Arith

/-!
# JSON documents and the numbers in them

A document as a tolerant reader sees it: a missing member reads as `null`, and each typed
accessor answers `none` where the value has another type.  Object keys are unique, as in a
parsed document.  Paths follow RFC 6901: a token is a member's name in an object and a
position, written without sign or leading zero, in an array.
-/

namespace Lib

/-- The number a run of decimal digits spells. -/
def parseDigits (cs : List Char) : Option Nat :=
  if cs ≠ [] ∧ cs.all Char.isDigit then
    some (cs.foldl (fun n c => 10 * n + (c.toNat - 48)) 0)
  else none

/-- A signed 32-bit integer in decimal, with an optional sign. -/
def parseI32 (text : String) : Option Int :=
  let value : Option Int :=
    match text.toList with
    | '-' :: digits => (parseDigits digits).map fun n => -(n : Int)
    | '+' :: digits => (parseDigits digits).map fun n => (n : Int)
    | digits => (parseDigits digits).map fun n => (n : Int)
  value.filter fun n => FitsI32 n

/-- A document.  Integers outside the 64-bit ranges are `float`, as any other number with no
exact integer value; nothing reads those. -/
inductive Json where
  | null
  | bool (b : Bool)
  | int (n : Int)
  | float (text : String)
  | str (s : String)
  | arr (items : List Json)
  | obj (members : List (String × Json))

namespace Json

/-- The member of an object. -/
def get? : Json → String → Option Json
  | .obj members, key => members.lookup key
  | _, _ => none

/-- The member of an object, `null` where there is none. -/
def get (v : Json) (key : String) : Json := (v.get? key).getD .null

/-- The position an array token names. -/
def parseIndex (token : String) : Option Nat :=
  let cs := token.toList
  if cs.head? = some '0' ∧ cs.length ≠ 1 then none else parseDigits cs

/-- One step of a path. -/
def step : Json → String → Option Json
  | .obj members, token => members.lookup token
  | .arr items, token => (parseIndex token).bind fun i => items[i]?
  | _, _ => none

/-- The value at a path. -/
def pointer (v : Json) (path : List String) : Option Json := path.foldlM step v

/-- The text of a string. -/
def asStr : Json → Option String
  | .str s => some s
  | _ => none

/-- The value of a truth value. -/
def asBool : Json → Option Bool
  | .bool b => some b
  | _ => none

/-- The value of an integer that fits 64 signed bits. -/
def asI64 : Json → Option Int
  | .int n => if -9223372036854775808 ≤ n ∧ n ≤ 9223372036854775807 then some n else none
  | _ => none

end Json

end Lib
