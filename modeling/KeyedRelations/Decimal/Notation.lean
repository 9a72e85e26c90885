import KeyedRelations.Decimal.Shortest

/-!
# Notations of a double

Two ways to write a double with its shortest digits.  The **plain** notation
never has an exponent and no point without need; of two equally near digits it
takes the greater.  The **numeral** notation has a point or an exponent always,
and its last digit is even in a tie.
-/

namespace KeyedRelations.Decimal

/-- The digits before and after the decimal point, without an exponent. -/
def positional (s : Scientific) : List Digit × List Digit :=
  let ds := Digit.ofNat s.coefficient
  if 0 ≤ s.exponent then (ds ++ List.replicate s.exponent.toNat Digit.zero, [])
  else
    let places := (-s.exponent).toNat
    if ds.length ≤ places then ([Digit.zero], List.replicate (places - ds.length) Digit.zero ++ ds)
    else (ds.take (ds.length - places), ds.drop (ds.length - places))

/-- The power of ten of the first digit. -/
def order (s : Scientific) : Int :=
  (Digit.ofNat s.coefficient).length + s.exponent - 1

/-- The text of a decimal number: digits, and a point if more digits follow. -/
def pointed (whole fraction : List Digit) : List Char :=
  Digit.chars whole ++ if fraction.isEmpty then [] else '.' :: Digit.chars fraction

/-- The plain notation: `0.1`, `1`, `-0`, `NaN`, `inf`. -/
def plain (f : Float) : String :=
  let sign := if isNegative f then ['-'] else []
  .ofList <| match magnitude f with
    | .nan => ['N', 'a', 'N']
    | .infinite => sign ++ ['i', 'n', 'f']
    | .zero => sign ++ ['0']
    | .finite m e =>
      let (whole, fraction) := positional (shortest .up m e)
      sign ++ pointed whole fraction

end KeyedRelations.Decimal
