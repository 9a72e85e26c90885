import KeyedRelations.Text.Utf8

/-!
# Byte codecs

A codec writes values as bytes and reads them back from the start of more bytes.
Codecs are put together from those of the parts: numbers are written with seven bits
to a byte, lists with their length in front, and alternatives with a tag.  A whole
document is **sealed** by a mark at its start, so that bytes that were written by
something else are refused.
-/

namespace KeyedRelations

/-- A way to write values as bytes, and to read one from the start of bytes. -/
structure Codec (α : Type) where
  write : α → List UInt8
  read : List UInt8 → Option (α × List UInt8)

namespace Codec

variable {α β : Type}

/-- The codec of a type whose values can be taken to another type and back. -/
def via (c : Codec α) (into : β → α) (of? : α → Option β) : Codec β where
  write b := c.write (into b)
  read bytes := do
    let (a, rest) ← c.read bytes
    let b ← of? a
    return (b, rest)

/-- The codec of a type whose values are the same as those of another. -/
def iso (c : Codec α) (into : β → α) (of : α → β) : Codec β := c.via into (some ∘ of)

/-- Nothing is written. -/
def unit : Codec Unit := ⟨fun _ => [], fun bytes => some ((), bytes)⟩

/-- One value behind another. -/
def pair (c : Codec α) (d : Codec β) : Codec (α × β) where
  write p := c.write p.1 ++ d.write p.2
  read bytes := do
    let (a, rest) ← c.read bytes
    let (b, rest) ← d.read rest
    return ((a, b), rest)

/-- One byte. -/
def byte : Codec UInt8 where
  write b := [b]
  read
    | [] => none
    | b :: rest => some (b, rest)

/-- The bytes of a number, the lowest seven bits first; a high bit says that more follow. -/
def naturalBytes (n : Nat) : List UInt8 :=
  if n < 128 then [n.toUInt8] else (n % 128 + 128).toUInt8 :: naturalBytes (n / 128)
termination_by n

/-- Reads the bytes of a number. -/
def readNatural : List UInt8 → Option (Nat × List UInt8)
  | [] => none
  | b :: rest =>
    if b < 128 then some (b.toNat, rest)
    else (readNatural rest).map fun (n, rest) => (b.toNat - 128 + 128 * n, rest)

/-- Natural numbers. -/
def natural : Codec Nat := ⟨naturalBytes, readNatural⟩

/-- Reads a number of values. -/
def readMany (c : Codec α) : Nat → List UInt8 → Option (List α × List UInt8)
  | 0, bytes => some ([], bytes)
  | n + 1, bytes => do
    let (a, rest) ← c.read bytes
    let (as, rest) ← readMany c n rest
    return (a :: as, rest)

/-- Lists behind their length. -/
def list (c : Codec α) : Codec (List α) where
  write as := natural.write as.length ++ as.flatMap c.write
  read bytes := do
    let (n, rest) ← natural.read bytes
    readMany c n rest

/-- Bytes behind their number. -/
def bytes : Codec (List UInt8) where
  write bs := natural.write bs.length ++ bs
  read all := do
    let (n, rest) ← natural.read all
    if rest.length < n then none else return (rest.take n, rest.drop n)

/-- Texts as their UTF-8 bytes. -/
def text : Codec String := bytes.via Utf8.bytes Utf8.text?

/-- Truth values. -/
def bool : Codec Bool :=
  byte.via (fun b => if b then 1 else 0) fun b =>
    if b = 0 then some false else if b = 1 then some true else none

/-- Values that may be absent. -/
def option (c : Codec α) : Codec (Option α) where
  write
    | none => [0]
    | some a => 1 :: c.write a
  read
    | 0 :: rest => some (none, rest)
    | 1 :: rest => (c.read rest).map fun (a, rest) => (some a, rest)
    | _ => none

/-- Words of 64 bits. -/
def word : Codec UInt64 :=
  natural.via UInt64.toNat fun n => if n < UInt64.size then some n.toUInt64 else none

/-- Signed integers of 64 bits. -/
def integer : Codec Int64 := word.iso Int64.toUInt64 UInt64.toInt64

/-- Doubles as their bits. -/
def double : Codec Float := word.iso Float.toBits Float.ofBits

/-- The mark of sealed documents. -/
def mark : List UInt8 := Utf8.bytes "keyed-relations/1:"

/-- A document that stands by itself. -/
def sealed (c : Codec α) (a : α) : List UInt8 := mark ++ c.write a

/-- What a document holds, if it is sealed and nothing follows. -/
def open? (c : Codec α) (all : List UInt8) : Option α :=
  if mark.isPrefixOf all then
    match c.read (all.drop mark.length) with
    | some (a, []) => some a
    | _ => none
  else none

end Codec

end KeyedRelations
