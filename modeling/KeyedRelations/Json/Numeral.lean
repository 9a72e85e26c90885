import KeyedRelations.Decimal.Notation

/-!
# JSON numerals

A numeral keeps what was written: its sign, the whole part, the digits after
the point and the exponent.  Its **value** is an integer when it is written
without point and exponent and fits 64 bits, and a double otherwise.

A double is read in few roundings rather than one: as many digits as fit 64
bits make up a coefficient, which is rounded once and then multiplied or
divided by a power of ten, with one more rounding.  So a numeral with many
digits may be read as a neighbour of the nearest double.
-/

namespace KeyedRelations.Json

open Decimal

/-- A number as JSON writes it. -/
structure Numeral where
  negative : Bool
  whole : Nat
  /-- The digits after the point; none if there is no point. -/
  fraction : List Digit
  exponent : Option Int
  deriving DecidableEq, Repr

/-- What a numeral stands for. -/
inductive Number where
  | natural (n : UInt64)
  | negative (i : Int64)
  | real (f : Float)
  deriving DecidableEq, Repr

namespace Numeral

/-! ### Values -/

/-- Digits taken into a 64-bit coefficient as long as it does not overflow, and
the digits that are left from the first that does not fit. -/
def take64 (coefficient : Nat) : List Digit → Nat × List Digit
  | [] => (coefficient, [])
  | d :: ds =>
    if 10 * coefficient + d.val < UInt64.size then take64 (10 * coefficient + d.val) ds
    else (coefficient, d :: ds)

/-- The double `10^n`, for `n` up to 308. -/
def powerOfTen (n : Nat) : Float := Float.ofScientific 1 false n

/-- The double `f` divided by `10^n`, in steps of `10^308`. -/
def scaleDown (f : Float) (n : Nat) : Float :=
  if n ≤ 308 then f / powerOfTen n
  else if f == 0 then f
  else scaleDown (f / powerOfTen 308) (n - 308)
termination_by n

/-- The number `coefficient · 10^exponent` with one rounding for the coefficient and one
for each scaling; `none` above the greatest double. -/
def scaled (coefficient : UInt64) (exponent : Int) : Option Float :=
  let f := coefficient.toFloat
  if exponent < 0 then some (scaleDown f exponent.natAbs)
  else if exponent.toNat ≤ 308 then
    let g := f * powerOfTen exponent.toNat
    if g.isInf then none else some g
  else if f == 0 then some f
  else none

/-- The double of a numeral, apart from its sign.  Whole digits that do not fit
the coefficient raise the exponent; digits after the point that do not fit are
dropped. -/
def realMagnitude? (n : Numeral) : Option Float :=
  let (coefficient, excess) := take64 0 (Digit.ofNat n.whole)
  let (coefficient, dropped) := take64 coefficient n.fraction
  let places : Int := excess.length - (n.fraction.length - dropped.length : Nat)
  match n.exponent with
  | none => scaled (.ofNat coefficient) places
  | some e =>
    if e.natAbs < Int32.size / 2 then scaled (.ofNat coefficient) (places + e)
    else if coefficient ≠ 0 ∧ 0 < e then none
    else some 0

/-- The value of a numeral; `none` if it is greater than every double. -/
def value? (n : Numeral) : Option Number :=
  if n.fraction.isEmpty ∧ n.exponent.isNone ∧ n.whole < UInt64.size then
    if n.negative = false then some (.natural (.ofNat n.whole))
    else if 0 < n.whole ∧ n.whole ≤ UInt64.size / 2 then some (.negative (.ofInt (-n.whole)))
    else some (.real (-(UInt64.ofNat n.whole).toFloat))
  else
    n.realMagnitude?.map fun f => .real (if n.negative then -f else f)

/-! ### Writing numbers -/

/-- The numeral of an integer. -/
def ofInt (i : Int) : Numeral := ⟨i < 0, i.natAbs, [], none⟩

/-- The numeral of a double: positional with at least one digit after the point
if the first digit has the order `10^-5` to `10^15`, and with an exponent
otherwise.  NaN and the infinities have none. -/
def ofFloat? (f : Float) : Option Numeral :=
  let sign := isNegative f
  match magnitude f with
  | .nan | .infinite => none
  | .zero => some ⟨sign, 0, [Digit.zero], none⟩
  | .finite m e =>
    let s := shortest .even m e
    if -5 ≤ order s ∧ order s ≤ 15 then
      let (whole, fraction) := positional s
      some ⟨sign, Digit.toNat whole, if fraction.isEmpty then [Digit.zero] else fraction, none⟩
    else
      match Digit.ofNat s.coefficient with
      | [] => none
      | first :: more => some ⟨sign, first.val, more, some (order s)⟩

end Numeral

end KeyedRelations.Json
