import KeyedRelations.Decimal.Digits

/-!
# Shortest decimal digits

The decimal number with the fewest digits among those that a reader rounds
back to a given double, and of those the one nearest to it.  A double is
decoded into `mantissa · 2^exponent`; the decimal numbers that round to it lie
between the midpoints to its two neighbours, ends included when the mantissa is
even.  The grids of the multiples of `10^g` are tried from coarse to fine, and
the first with a point in that interval wins.
-/

namespace KeyedRelations.Decimal

/-- What a double is, apart from its sign. -/
inductive Magnitude where
  | nan
  | infinite
  | zero
  /-- The number `mantissa · 2^exponent`, with `mantissa` positive. -/
  | finite (mantissa : Nat) (exponent : Int)
  deriving DecidableEq, Repr

/-- The sign of a double, `true` for minus. -/
def isNegative (f : Float) : Bool := f.toBits >>> 63 = 1

/-- The leading bit of a mantissa of full width, `2^52`. -/
def leadingBit : Nat := 0x10000000000000

/-- The magnitude of a double, from its bits: 52 of the fraction below eleven of
the exponent. -/
def magnitude (f : Float) : Magnitude :=
  let bits := f.toBits.toNat
  let exponent := bits / leadingBit % 2048
  let fraction := bits % leadingBit
  if exponent = 2047 then if fraction = 0 then .infinite else .nan
  else if exponent = 0 then if fraction = 0 then .zero else .finite fraction (-1074)
  else .finite (leadingBit + fraction) (exponent - 1075)

/-- A positive decimal number `coefficient · 10^exponent`. -/
structure Scientific where
  coefficient : Nat
  exponent : Int
  deriving DecidableEq, Repr

/-- Which of two equally near decimal numbers is taken. -/
inductive Tie where
  /-- The greater one. -/
  | up
  /-- The one whose last digit is even. -/
  | even
  deriving DecidableEq, Repr

/-- The fractions `low`, `value` and `high` over one `denominator`: a double and
the ends of the interval that is rounded to it, `closed` when the ends belong
to it. -/
structure Interval where
  denominator : Nat
  low : Nat
  value : Nat
  high : Nat
  closed : Bool

/-- The interval of the numbers that are rounded to `mantissa · 2^exponent`.
Below a power of two the neighbour is only half as far. -/
def Interval.of (mantissa : Nat) (exponent : Int) : Interval :=
  let unit := Nat.pow 2 exponent.toNat
  let below := if mantissa = leadingBit ∧ exponent > -1074 then 1 else 2
  { denominator := 4 * Nat.pow 2 (-exponent).toNat
    low := (4 * mantissa - below) * unit
    value := 4 * mantissa * unit
    high := (4 * mantissa + 2) * unit
    closed := mantissa % 2 = 0 }

/-- Whether the multiple `n · num/den` of a grid width lies in the interval. -/
def Interval.holds (i : Interval) (num den n : Nat) : Bool :=
  let point := n * num * i.denominator
  if i.closed then i.low * den ≤ point && point ≤ i.high * den
  else i.low * den < point && point < i.high * den

/-- The point of the grid of multiples of `10^g` nearest to the value, if one
lies in the interval. -/
def Interval.nearest? (tie : Tie) (i : Interval) (g : Int) : Option Nat :=
  let num := Nat.pow 10 g.toNat
  let den := Nat.pow 10 (-g).toNat
  let width := num * i.denominator
  let n := i.value * den / width
  let twice := 2 * (i.value * den % width)
  match i.holds num den n, i.holds num den (n + 1) with
  | false, false => none
  | true, false => some n
  | false, true => some (n + 1)
  | true, true =>
    if twice < width then some n
    else if width < twice then some (n + 1)
    else match tie with
      | .up => some (n + 1)
      | .even => some (if n % 2 = 0 then n else n + 1)

/-- Tries `count` grids, from that of `10^g` to finer ones. -/
def Interval.search (tie : Tie) (i : Interval) : Nat → Int → Option Scientific
  | 0, _ => none
  | count + 1, g =>
    match i.nearest? tie g with
    | some n => some ⟨n, g⟩
    | none => i.search tie count (g - 1)

/-- A grid that is too coarse for `mantissa · 2^exponent`: its width exceeds twice
that number.  `30103/100000` is a little above the logarithm of two. -/
def coarseGrid (mantissa : Nat) (exponent : Int) : Int :=
  ((mantissa.log2 : Int) + exponent + 1) * 30103 / 100000 + 2

/-- The shortest decimal number that is rounded to `mantissa · 2^exponent`.
Seventeen digits always suffice, and the search starts two or three grids
above the first digit. -/
def shortest (tie : Tie) (mantissa : Nat) (exponent : Int) : Scientific :=
  ((Interval.of mantissa exponent).search tie 24 (coarseGrid mantissa exponent)).getD
    ⟨mantissa, exponent⟩

end KeyedRelations.Decimal
