import KeyedRelations.Decimal.Digits
import KeyedRelations.Text.Blank

/-!
# Reading a double from text

The texts that are read as a double: an optional sign, then `inf`, `infinity`
or `nan` in any case, or decimal digits with an optional point (digits on one
side of it suffice) and an optional exponent.  The number is rounded to the
nearest double, to infinity when it is too great.
-/

namespace KeyedRelations.Decimal

/-- The double nearest to `coefficient · 10^exponent`.  Exponents far outside
the range of doubles are decided by the order of magnitude alone. -/
def nearest (coefficient : Nat) (exponent : Int) : Float :=
  if coefficient = 0 then 0
  else
    let order := (Digit.ofNat coefficient).length + exponent
    if order > 400 then Float.ofBits 0x7FF0000000000000
    else if order < -400 then 0
    else Float.ofScientific coefficient (exponent < 0) exponent.natAbs

/-- The sign at the start of a text, `true` for minus, and what follows it. -/
def takeSign : List Char → Bool × List Char
  | '-' :: rest => (true, rest)
  | '+' :: rest => (false, rest)
  | rest => (false, rest)

/-- The exponent that ends a text: nothing, or `e`, a sign and digits. -/
def readExponent? : List Char → Option Int
  | [] => some 0
  | c :: rest =>
    if c = 'e' ∨ c = 'E' then
      let (negative, rest) := takeSign rest
      match Digit.span rest with
      | ([], _) => none
      | (ds, []) => some (if negative then -(Digit.toNat ds : Int) else Digit.toNat ds)
      | (_, _ :: _) => none
    else none

/-- Digits with an optional point and exponent. -/
def readUnsigned? (cs : List Char) : Option Float :=
  let (whole, rest) := Digit.span cs
  let (fraction, rest) := match rest with
    | '.' :: rest => Digit.span rest
    | rest => ([], rest)
  if whole.isEmpty && fraction.isEmpty then none
  else
    (readExponent? rest).map fun exponent =>
      nearest (Digit.toNat (whole ++ fraction)) (exponent - fraction.length)

/-- The double that a text writes. -/
def read? (cs : List Char) : Option Float :=
  let (negative, rest) := takeSign cs
  let word := rest.map Char.toLower
  let magnitude :=
    if word = ['i', 'n', 'f'] ∨ word = ['i', 'n', 'f', 'i', 'n', 'i', 't', 'y'] then
      some (Float.ofBits 0x7FF0000000000000)
    else if word = ['n', 'a', 'n'] then some (Float.ofBits 0x7FF8000000000000)
    else readUnsigned? rest
  magnitude.map fun f => if negative then -f else f

end KeyedRelations.Decimal
