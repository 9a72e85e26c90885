import KeyedRelations.Json.Decoding
import KeyedRelations.Value

/-!
# Values as JSON

A value is written without a tag: bytes are an array of numbers, and a double
without a numeral is null.  Read back, an integer numeral of the signed 64-bit
range is an integer, any other a double, and an array must hold bytes only.
-/

namespace KeyedRelations.Value

/-- The document of a value. -/
def toJson : Value → Json
  | .null => .null
  | .bool b => .bool b
  | .int i => .integer i.toInt
  | .float f => .real f
  | .text s => .text s
  | .bytes b => .array (b.map fun x => .integer x.toNat)

/-- The byte that a document is. -/
def byte? : Json → Option UInt8
  | .number n =>
    match n.value? with
    | some (.natural n) => if n < 256 then some n.toUInt8 else none
    | _ => none
  | _ => none

/-- The value of a number. -/
def ofNumber : Json.Number → Value
  | .natural n => if n.toNat < Int64.size / 2 then .int n.toInt64 else .float n.toFloat
  | .negative i => .int i
  | .real f => .float f

/-- The value that a document is. -/
def ofJson : Json → Json.Decoded Value
  | .null => .ok .null
  | .bool b => .ok (.bool b)
  | .number n =>
    match n.value? with
    | some n => .ok (ofNumber n)
    | none => .error .unreadable
  | .string (some s) => .ok (.text s)
  | .string none => .error .unreadable
  | .array items =>
    match items.mapM byte? with
    | some bs => .ok (.bytes bs)
    | none => .error (.noAlternative "Value")
  | .object _ => .error (.noAlternative "Value")

end KeyedRelations.Value
