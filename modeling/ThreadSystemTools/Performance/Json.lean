import Mathlib
import ThreadSystemTools.Text.Strings

/-! The values `json.load` returns to the performance scripts, and the few Python operations
the scripts apply to them: `dict.get`, iteration, `in` and division. Each returns the value, or
the class of the exception Python raises; the exception's text is only printed.
-/

namespace ThreadSystem.Performance

open ThreadSystem.Text

/-- A value `json.load` returns. Numbers are kept as exact rationals; an object keeps its
fields in order, duplicates included.
-/
inductive JsonValue where
  | null
  | bool (value : Bool)
  | number (value : Rat)
  | string (value : List Char)
  | array (items : List JsonValue)
  | object (fields : List (String × JsonValue))
  deriving Repr

namespace JsonValue

/-- The value a dict `json.load` builds keeps for `key`: that of the last field of the name. -/
def lookupField (fields : List (String × JsonValue)) (key : String) : Option JsonValue :=
  (fields.reverse.find? fun field => field.1 == key).map Prod.snd

/-- `value.get(key, default)`: on a dict the value of `key`, or the default; any other value has
no `get`.
-/
def get (value : JsonValue) (key : String) (default : JsonValue) : Except String JsonValue :=
  match value with
  | .object fields => .ok ((lookupField fields key).getD default)
  | _ => .error "AttributeError"

/-- `value[key]` for a string key: on a dict the value of `key`, or `KeyError`; lists, strings
and scalars cannot be indexed by a string.
-/
def subscript (value : JsonValue) (key : String) : Except String JsonValue :=
  match value with
  | .object fields => (lookupField fields key).elim (.error "KeyError") .ok
  | _ => .error "TypeError"

/-- `for item in value`: the items of a list, the keys of a dict, the characters of a string;
other values are not iterable.
-/
def iterate : JsonValue → Except String (List JsonValue)
  | .array items => .ok items
  | .object fields => .ok ((fields.map Prod.fst).eraseDups.map fun key => .string key.toList)
  | .string chars => .ok (chars.map fun c => .string [c])
  | _ => .error "TypeError"

/-- `needle in value` for a `str` needle: a substring of a string, an element of a list, a key
of a dict.
-/
def has (value : JsonValue) (needle : List Char) : Except String Bool :=
  match value with
  | .string chars => .ok (contains needle chars)
  | .array items => .ok (items.any fun item =>
      match item with
      | .string chars => chars == needle
      | _ => false)
  | .object fields => .ok (fields.any fun field => field.1.toList == needle)
  | _ => .error "TypeError"

/-- The number a value stands for in arithmetic and comparisons: `bool` is a subclass of
`int`, and any other value raises.
-/
def numeric : JsonValue → Except String Rat
  | .number x => .ok x
  | .bool b => .ok (if b then 1 else 0)
  | _ => .error "TypeError"

/-- `value / divisor` for a numeric divisor. -/
def divide (value : JsonValue) (divisor : Rat) : Except String Rat :=
  value.numeric.map (· / divisor)

/-- `value == 0`: true of a zero number and of `False`, whatever else the value is. -/
def isZero : JsonValue → Bool
  | .number x => x == 0
  | .bool b => !b
  | _ => false

end JsonValue

-----------------------------------------------------------------------------------------
-- Number formatting
-----------------------------------------------------------------------------------------

/-- The nearest natural number to a non-negative value, ties to the even one. -/
def roundHalfEven (q : Rat) : Nat :=
  let whole := q.floor.toNat
  if q - whole > 1 / 2 ∨ (q - whole = 1 / 2 ∧ whole % 2 = 1) then whole + 1 else whole

/-- `format(x, '.Nf')` with `N = places`, for a value held exactly: the magnitude scaled by
`10 ^ places` and rounded half to even, its digits with a point before the last `places`,
after a `-` when the value is negative.
-/
def formatFixed (x : Rat) (places : Nat) : List Char :=
  let digits := Nat.toDigits 10 (roundHalfEven (|x| * 10 ^ places))
  let padded := List.replicate (places + 1 - digits.length) '0' ++ digits
  let point := padded.length - places
  (if x < 0 then ['-'] else [])
    ++ if places = 0 then padded else padded.take point ++ '.' :: padded.drop point

end ThreadSystem.Performance
