import KeyedRelations.Json.Numeral

/-!
# JSON documents

A document as it was written: members in their order, repeated names kept,
numbers as numerals.  A string may hold escapes of lone surrogates; such a
string has no text, and it matters only to a reader that asks for it.
-/

namespace KeyedRelations

/-- A JSON document.  A string or member name without a text (`none`) was written
with an escape of a lone surrogate. -/
inductive Json where
  | null
  | bool (b : Bool)
  | number (n : Json.Numeral)
  | string (s : Option String)
  | array (items : List Json)
  | object (members : List (Option String × Json))

namespace Json

instance : Inhabited Json := ⟨.null⟩

/-- The string with a given text. -/
def text (s : String) : Json := .string (some s)

/-- The object with given members. -/
def record (members : List (String × Json)) : Json :=
  .object (members.map fun m => (some m.1, m.2))

/-- The number of an integer. -/
def integer (i : Int) : Json := .number (.ofInt i)

/-- The number of a double; null if it has no numeral. -/
def real (f : Float) : Json := ((Numeral.ofFloat? f).map .number).getD .null

mutual

/-- The levels of nesting. -/
def depth : Json → Nat
  | .array items => depthItems items + 1
  | .object members => depthMembers members + 1
  | .null | .bool _ | .number _ | .string _ => 0

/-- The deepest nesting in the items of an array. -/
def depthItems : List Json → Nat
  | [] => 0
  | j :: rest => max (depth j) (depthItems rest)

/-- The deepest nesting in the members of an object. -/
def depthMembers : List (Option String × Json) → Nat
  | [] => 0
  | (_, j) :: rest => max (depth j) (depthMembers rest)

end

mutual

/-- Whether every string has a text and every number a value. -/
def isSound : Json → Bool
  | .number n => n.value?.isSome
  | .string s => s.isSome
  | .array items => isSoundItems items
  | .object members => isSoundMembers members
  | .null | .bool _ => true

/-- Whether all items of an array are sound. -/
def isSoundItems : List Json → Bool
  | [] => true
  | j :: rest => isSound j && isSoundItems rest

/-- Whether all members of an object and their names are sound. -/
def isSoundMembers : List (Option String × Json) → Bool
  | [] => true
  | (name, j) :: rest => name.isSome && isSound j && isSoundMembers rest

end

/-- The deepest nesting that is read. -/
def maxDepth : Nat := 127

/-- Whether a document means something to every reader: it is sound, and not
nested too deeply. -/
def isReadable (j : Json) : Bool := j.isSound && j.depth ≤ maxDepth

end Json

end KeyedRelations
