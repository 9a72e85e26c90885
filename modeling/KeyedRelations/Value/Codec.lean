import KeyedRelations.Codec
import KeyedRelations.Value

/-!
# Values as bytes

Every kind of value has a tag, which stands before what the value holds.
-/

namespace KeyedRelations.Value

/-- The bytes of a value. -/
def toBytes : Value → List UInt8
  | .null => [0]
  | .bool b => 1 :: Codec.bool.write b
  | .int i => 2 :: Codec.integer.write i
  | .float f => 3 :: Codec.double.write f
  | .text s => 4 :: Codec.text.write s
  | .bytes b => 5 :: Codec.bytes.write b

/-- Reads a value from the start of bytes. -/
def readBytes : List UInt8 → Option (Value × List UInt8)
  | 0 :: rest => some (.null, rest)
  | 1 :: rest => (Codec.bool.read rest).map fun (b, rest) => (.bool b, rest)
  | 2 :: rest => (Codec.integer.read rest).map fun (i, rest) => (.int i, rest)
  | 3 :: rest => (Codec.double.read rest).map fun (f, rest) => (.float f, rest)
  | 4 :: rest => (Codec.text.read rest).map fun (s, rest) => (.text s, rest)
  | 5 :: rest => (Codec.bytes.read rest).map fun (b, rest) => (.bytes b, rest)
  | _ => none

/-- Values as bytes. -/
def codec : Codec Value := ⟨toBytes, readBytes⟩

end KeyedRelations.Value
