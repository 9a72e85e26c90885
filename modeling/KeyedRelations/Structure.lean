import KeyedRelations.Value

/-!
# Structures

The four native structures of a key-value store: lists (its top-level scalar
keys), sets, hashes and sorted sets.  A structure decides what a record holds
beside its name, which columns a query may show, and how many conditions a
query may put on one subject.
-/

namespace KeyedRelations

/-- A native structure of a key-value store. -/
inductive Structure where
  | list
  | set
  | hash
  | sortedSet
  deriving DecidableEq, Repr

namespace Structure

/-- The word for a structure in the options of an entity. -/
def word : Structure → String
  | .list => "list"
  | .set => "set"
  | .hash => "hash"
  | .sortedSet => "zset"

/-- The structure of a word, in any case and between any blanks. -/
def ofWord? (word : String) : Option Structure :=
  match Text.keyword word with
  | "list" => some .list
  | "set" => some .set
  | "hash" => some .hash
  | "zset" => some .sortedSet
  | _ => none

/-- The structure of entities that do not say otherwise. -/
def default : Structure := .hash

/-- The name of a structure in messages. -/
def name : Structure → String
  | .list => "LIST"
  | .set => "SET"
  | .hash => "HASH"
  | .sortedSet => "SORTED_SET"

/-- The name of a structure in data formats. -/
def tag : Structure → String
  | .list => "list"
  | .set => "set"
  | .hash => "hash"
  | .sortedSet => "sorted_set"

/-- Whether a query may put several predicates on one subject. -/
def manyPredicates : Structure → Bool
  | .hash => true
  | _ => false

/-- The column of what a record holds beside its name. -/
def payloadColumn? : Structure → Option String
  | .list | .hash => some "value"
  | .sortedSet => some "score"
  | .set => none

/-- What a record holds beside its name. -/
abbrev Payload : Structure → Type
  | .list | .hash => Value
  | .set => Unit
  | .sortedSet => Float

end Structure

/-- The column of the full names of records. -/
def keyColumn : String := "key"

end KeyedRelations
