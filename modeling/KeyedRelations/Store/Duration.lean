/-!
# Durations

Lengths of time in nanoseconds, and their text in the greatest unit that they
fill, with as many decimal places as they need: `0ns`, `500µs`, `1.5ms`, `60s`.
-/

namespace KeyedRelations

/-- A length of time. -/
structure Duration where
  nanos : Nat
  deriving DecidableEq, Repr

namespace Duration

/-- So many milliseconds. -/
def ofMillis (n : Nat) : Duration := ⟨n * 1000000⟩

/-- So many microseconds. -/
def ofMicros (n : Nat) : Duration := ⟨n * 1000⟩

/-- So many seconds. -/
def ofSeconds (n : Nat) : Duration := ⟨n * 1000000000⟩

/-- The whole milliseconds of a duration. -/
def millis (d : Duration) : Nat := d.nanos / 1000000

/-- The decimal places of `rest` parts, where one unit has `10^places`, without trailing
zeros. -/
def decimals (places rest : Nat) : List Char :=
  let digits := Nat.toDigits 10 rest
  let padded := List.replicate (places - digits.length) '0' ++ digits
  let kept := (padded.reverse.dropWhile (· = '0')).reverse
  if kept.isEmpty then [] else '.' :: kept

/-- A number of nanoseconds in a unit of `10^places` of them. -/
def inUnit (places nanos : Nat) (unit : String) : String :=
  toString (nanos / Nat.pow 10 places)
    ++ .ofList (if places = 0 then [] else decimals places (nanos % Nat.pow 10 places)) ++ unit

/-- The text of a duration. -/
def text (d : Duration) : String :=
  if (ofSeconds 1).nanos ≤ d.nanos then inUnit 9 d.nanos "s"
  else if (ofMillis 1).nanos ≤ d.nanos then inUnit 6 d.nanos "ms"
  else if (ofMicros 1).nanos ≤ d.nanos then inUnit 3 d.nanos "µs"
  else inUnit 0 d.nanos "ns"

end Duration

end KeyedRelations
