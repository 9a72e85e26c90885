import KeyedRelations.Decimal.Notation
import KeyedRelations.Decimal.Reading

/-!
# Values

What records hold and conditions compare: null, truth values, 64-bit integers,
doubles, texts and bytes.  Every value has a display text, and two values are
**loosely equal** when they are equal or have the same display text, so that
the text `30` and the integer `30` meet.
-/

namespace KeyedRelations

/-- A value of a record or a condition. -/
inductive Value where
  | null
  | bool (b : Bool)
  | int (i : Int64)
  | float (f : Float)
  | text (s : String)
  | bytes (b : List UInt8)
  deriving DecidableEq, Repr

namespace Value

instance : Inhabited Value := ⟨.null⟩

/-- The two hexadecimal digits of a byte, in lower case. -/
def hexByte (b : UInt8) : List Char :=
  [Nat.digitChar (b.toNat / 16), Nat.digitChar (b.toNat % 16)]

/-- The text that shows a value. -/
def display : Value → String
  | .null => "null"
  | .bool true => "true"
  | .bool false => "false"
  | .int i => toString i.toInt
  | .float f => Decimal.plain f
  | .text s => s
  | .bytes b => .ofList ('0' :: 'x' :: b.flatMap hexByte)

/-- Equality of values; doubles compare as numbers, so NaN differs from itself
and the two zeros are equal. -/
def equals : Value → Value → Bool
  | .null, .null => true
  | .bool a, .bool b => a == b
  | .int a, .int b => a == b
  | .float a, .float b => a == b
  | .text a, .text b => a == b
  | .bytes a, .bytes b => a == b
  | _, _ => false

/-- Whether two values are equal or show the same text. -/
def looselyEquals (a b : Value) : Bool :=
  a.equals b || a.display == b.display

/-! ### Views -/

/-- Whether the value is null. -/
def isNull : Value → Bool
  | .null => true
  | _ => false

/-- The truth value, if it is one. -/
def bool? : Value → Option Bool
  | .bool b => some b
  | _ => none

/-- The integer, if it is one. -/
def int? : Value → Option Int64
  | .int i => some i
  | _ => none

/-- The text, if it is one. -/
def text? : Value → Option String
  | .text s => some s
  | _ => none

/-- The bytes, if it is bytes. -/
def bytes? : Value → Option (List UInt8)
  | .bytes b => some b
  | _ => none

/-- The value as a double: a number, or a text that writes one between blanks. -/
def number? : Value → Option Float
  | .float f => some f
  | .int i => some i.toFloat
  | .text s => Decimal.read? (Text.trimChars s.toList)
  | _ => none

end Value

end KeyedRelations
