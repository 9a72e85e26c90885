import KeyedRelations.Json.Basic

/-!
# Writing JSON

Two layouts: **compact**, without any blanks, and **pretty**, with every item
and member on a line of its own, indented by two spaces per level.  Strings
escape the quote, the `\` and the controls and nothing else.
-/

namespace KeyedRelations.Json

/-- The escape of a character in a string, if it has one. -/
def escape? (c : Char) : Option (List Char) :=
  if c = '"' then some ['\\', '"']
  else if c = '\\' then some ['\\', '\\']
  else if c = '\x08' then some ['\\', 'b']
  else if c = '\x0c' then some ['\\', 'f']
  else if c = '\n' then some ['\\', 'n']
  else if c = '\r' then some ['\\', 'r']
  else if c = '\t' then some ['\\', 't']
  else if c.toNat < 0x20 then
    some ['\\', 'u', '0', '0', Nat.digitChar (c.toNat / 16), Nat.digitChar (c.toNat % 16)]
  else none

/-- A string between quotes. -/
def quote (s : List Char) : List Char :=
  '"' :: s.flatMap (fun c => (escape? c).getD [c]) ++ ['"']

/-- A string with its text; one without is written as a lone surrogate. -/
def printString : Option String → List Char
  | some s => quote s.toList
  | none => ['"', '\\', 'u', 'd', '8', '0', '0', '"']

/-- A numeral: the exponent has its sign always. -/
def Numeral.print (n : Numeral) : List Char :=
  (if n.negative then ['-'] else [])
    ++ Decimal.pointed (Digit.ofNat n.whole) n.fraction
    ++ match n.exponent with
      | none => []
      | some e => ['e', if e < 0 then '-' else '+'] ++ Digit.chars (Digit.ofNat e.natAbs)

/-- What stands between the parts of a layout: whether lines are broken, and at
which level of indentation. -/
structure Layout where
  pretty : Bool
  level : Nat

namespace Layout

/-- The start of a new line. -/
def newline (l : Layout) : List Char :=
  if l.pretty then '\n' :: List.replicate (2 * l.level) ' ' else []

/-- One level further in. -/
def deeper (l : Layout) : Layout := { l with level := l.level + 1 }

/-- What stands between a member's name and its value. -/
def colon (l : Layout) : List Char := if l.pretty then [':', ' '] else [':']

end Layout

mutual

/-- A document in a layout. -/
def print (l : Layout) : Json → List Char
  | .null => ['n', 'u', 'l', 'l']
  | .bool true => ['t', 'r', 'u', 'e']
  | .bool false => ['f', 'a', 'l', 's', 'e']
  | .number n => n.print
  | .string s => printString s
  | .array [] => ['[', ']']
  | .array (j :: rest) =>
    '[' :: l.deeper.newline ++ print l.deeper j ++ printItems l.deeper rest ++ l.newline ++ [']']
  | .object [] => ['\x7b', '\x7d']
  | .object ((name, j) :: rest) =>
    '\x7b' :: l.deeper.newline ++ printString name ++ l.colon ++ print l.deeper j
      ++ printMembers l.deeper rest ++ l.newline ++ ['\x7d']

/-- The items after the first. -/
def printItems (l : Layout) : List Json → List Char
  | [] => []
  | j :: rest => ',' :: l.newline ++ print l j ++ printItems l rest

/-- The members after the first. -/
def printMembers (l : Layout) : List (Option String × Json) → List Char
  | [] => []
  | (name, j) :: rest =>
    ',' :: l.newline ++ printString name ++ l.colon ++ print l j ++ printMembers l rest

end

/-- The compact layout. -/
def compact (j : Json) : String := .ofList (print ⟨false, 0⟩ j)

/-- The pretty layout. -/
def pretty (j : Json) : String := .ofList (print ⟨true, 0⟩ j)

end KeyedRelations.Json
