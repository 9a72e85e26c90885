import KeyedRelations.Json.Basic

/-!
# Reading JSON

The reader takes any text of the JSON grammar and nothing else: no blanks but
space, tab and line ends, no controls inside strings, no zeros in front of a
whole part, nothing after the document.  What a document may hold beyond the
grammar (lone surrogates, numbers without a value, deep nesting) is left to
those who ask for it.

Every reading function returns what it read and the text behind it, or the text
where it got stuck.
-/

namespace KeyedRelations.Json

/-- What is read, and the text behind it; or the text that cannot be read. -/
abbrev Reading (α : Type) := Except (List Char) (α × List Char)

/-- Goes on with what was read and the text behind it. -/
def Reading.andThen {α β : Type} (r : Reading α) (next : α → List Char → Reading β) :
    Reading β :=
  match r with
  | .ok (a, rest) => next a rest
  | .error stuck => .error stuck

/-- Changes what was read. -/
def Reading.map {α β : Type} (r : Reading α) (f : α → β) : Reading β :=
  r.andThen fun a rest => .ok (f a, rest)

/-- Whether a character is a blank of JSON. -/
def isSpace (c : Char) : Bool := c = ' ' || c = '\t' || c = '\n' || c = '\r'

/-- The text behind the blanks at its start. -/
def skipSpace (cs : List Char) : List Char := cs.dropWhile isSpace

/-! ### Strings -/

/-- The value of a hexadecimal digit. -/
def hexDigit? (c : Char) : Option Nat :=
  if '0' ≤ c ∧ c ≤ '9' then some (c.toNat - '0'.toNat)
  else if 'a' ≤ c ∧ c ≤ 'f' then some (c.toNat - 'a'.toNat + 10)
  else if 'A' ≤ c ∧ c ≤ 'F' then some (c.toNat - 'A'.toNat + 10)
  else none

/-- The value of four hexadecimal digits. -/
def hexFour? (a b c d : Char) : Option Nat :=
  match hexDigit? a, hexDigit? b, hexDigit? c, hexDigit? d with
  | some a, some b, some c, some d => some (a * 4096 + b * 256 + c * 16 + d)
  | _, _, _, _ => none

/-- The code point of a one-letter escape. -/
def letterEscape? (c : Char) : Option Nat :=
  if c = '"' then some 0x22
  else if c = '\\' then some 0x5C
  else if c = '/' then some 0x2F
  else if c = 'b' then some 0x08
  else if c = 'f' then some 0x0C
  else if c = 'n' then some 0x0A
  else if c = 'r' then some 0x0D
  else if c = 't' then some 0x09
  else none

/-- The code points and surrogates of a string behind its opening quote. -/
def readUnits : List Char → Reading (List Nat)
  | [] => .error []
  | c :: rest =>
    if c = '"' then .ok ([], rest)
    else if c = '\\' then
      match rest with
      | [] => .error []
      | e :: rest =>
        if e = 'u' then
          match rest with
          | h1 :: h2 :: h3 :: h4 :: rest =>
            match hexFour? h1 h2 h3 h4 with
            | some n => Reading.map (readUnits rest) (n :: ·)
            | none => .error rest
          | rest => .error rest
        else
          match letterEscape? e with
          | some n => Reading.map (readUnits rest) (n :: ·)
          | none => .error rest
    else if c.toNat < 0x20 then .error (c :: rest)
    else Reading.map (readUnits rest) (c.toNat :: ·)

/-- Whether a unit is the first half of a surrogate pair. -/
def isHighSurrogate (n : Nat) : Bool := 0xD800 ≤ n && n < 0xDC00

/-- Whether a unit is the second half of a surrogate pair. -/
def isLowSurrogate (n : Nat) : Bool := 0xDC00 ≤ n && n < 0xE000

/-- The characters of units, where surrogates must come in pairs. -/
def joinUnits : List Nat → Option (List Char)
  | [] => some []
  | n :: rest =>
    if isHighSurrogate n then
      match rest with
      | [] => none
      | low :: rest =>
        if isLowSurrogate low then
          (joinUnits rest).map
            (Char.ofNat (0x10000 + (n - 0xD800) * 1024 + (low - 0xDC00)) :: ·)
        else none
    else if isLowSurrogate n then none
    else (joinUnits rest).map (Char.ofNat n :: ·)

/-- A string behind its opening quote. -/
def readString (cs : List Char) : Reading (Option String) :=
  Reading.map (readUnits cs) fun units => (joinUnits units).map String.ofList

/-! ### Numerals -/

/-- The part of a numeral behind its whole part that starts with a point. -/
def readFraction : List Char → Reading (List Digit)
  | '.' :: rest =>
    match Digit.span rest with
    | ([], rest) => .error rest
    | (ds, rest) => .ok (ds, rest)
  | rest => .ok ([], rest)

/-- The part of a numeral that starts with an exponent sign. -/
def readExponent : List Char → Reading (Option Int)
  | c :: rest =>
    if c = 'e' ∨ c = 'E' then
      let negative := rest.head? = some '-'
      let rest := if negative ∨ rest.head? = some '+' then rest.tail else rest
      match Digit.span rest with
      | ([], rest) => .error rest
      | (ds, rest) =>
        .ok (some (if negative then -(Digit.toNat ds : Int) else Digit.toNat ds), rest)
    else .ok (none, c :: rest)
  | [] => .ok (none, [])

/-- A numeral behind its sign. -/
def readNumeral (negative : Bool) (cs : List Char) : Reading Numeral :=
  match Digit.span cs with
  | ([], _) => .error cs
  | (first :: more, rest) =>
    if first = Digit.zero ∧ more ≠ [] then .error rest
    else
      Reading.andThen (readFraction rest) fun fraction rest =>
        Reading.map (readExponent rest) fun exponent =>
          ⟨negative, Digit.toNat (first :: more), fraction, exponent⟩

/-! ### Documents -/

/-- The text behind a given word. -/
def readWord (j : Json) : List Char → List Char → Reading Json
  | [], rest => .ok (j, rest)
  | _ :: _, [] => .error []
  | w :: word, c :: rest => if w = c then readWord j word rest else .error (c :: rest)

/-- The name of a member and the colon behind it. -/
def readName (cs : List Char) : Reading (Option String) :=
  match skipSpace cs with
  | '"' :: rest =>
    Reading.andThen (readString rest) fun name rest =>
      match skipSpace rest with
      | ':' :: rest => .ok (name, rest)
      | rest => .error rest
  | rest => .error rest

mutual

/-- A document at the start of a text.  The number bounds the steps. -/
def readValue : Nat → List Char → Reading Json
  | 0, cs => .error cs
  | steps + 1, cs =>
    match skipSpace cs with
    | [] => .error []
    | c :: rest =>
      if c = '"' then Reading.map (readString rest) .string
      else if c = '[' then
        match skipSpace rest with
        | ']' :: rest => .ok (.array [], rest)
        | rest => Reading.map (readItems steps rest) .array
      else if c = '\x7b' then
        match skipSpace rest with
        | '\x7d' :: rest => .ok (.object [], rest)
        | rest => Reading.map (readMembers steps rest) .object
      else if c = 'n' then readWord .null ['u', 'l', 'l'] rest
      else if c = 't' then readWord (.bool true) ['r', 'u', 'e'] rest
      else if c = 'f' then readWord (.bool false) ['a', 'l', 's', 'e'] rest
      else if c = '-' then Reading.map (readNumeral true rest) .number
      else Reading.map (readNumeral false (c :: rest)) .number

/-- The items of an array and its closing bracket. -/
def readItems : Nat → List Char → Reading (List Json)
  | 0, cs => .error cs
  | steps + 1, cs =>
    Reading.andThen (readValue steps cs) fun j rest =>
      match skipSpace rest with
      | ',' :: rest => Reading.map (readItems steps rest) (j :: ·)
      | ']' :: rest => .ok ([j], rest)
      | rest => .error rest

/-- The members of an object and its closing brace. -/
def readMembers : Nat → List Char → Reading (List (Option String × Json))
  | 0, cs => .error cs
  | steps + 1, cs =>
    Reading.andThen (readName cs) fun name rest =>
      Reading.andThen (readValue steps rest) fun j rest =>
        match skipSpace rest with
        | ',' :: rest => Reading.map (readMembers steps rest) ((name, j) :: ·)
        | '\x7d' :: rest => .ok ([(name, j)], rest)
        | rest => .error rest

end

/-- A place in a text: its line from one, and the characters before it on that
line. -/
structure Position where
  line : Nat
  column : Nat
  deriving DecidableEq, Repr

/-- The place behind a text. -/
def Position.behind (cs : List Char) : Position :=
  ⟨cs.count '\n' + 1, (cs.reverse.takeWhile (· ≠ '\n')).length⟩

/-- The document that a text consists of, or the place where it stops being one.
A value takes at most two steps for each of its characters. -/
def read (text : String) : Except Position Json :=
  let cs := text.toList
  let stuck (rest : List Char) : Position := .behind (cs.take (cs.length - rest.length))
  match readValue (2 * cs.length + 1) cs with
  | .error rest => .error (stuck rest)
  | .ok (j, rest) =>
    match skipSpace rest with
    | [] => .ok j
    | rest => .error (stuck rest)

end KeyedRelations.Json
