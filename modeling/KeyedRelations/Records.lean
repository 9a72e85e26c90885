import KeyedRelations.Structure

/-!
# Records

What a selection finds in a collection: the names of records with what they hold,
in the order in which they were found.  Names stand for records, so when two
findings are joined, a name that was found before keeps what it held then.
-/

namespace KeyedRelations

/-- Records of one structure: full names with what they hold. -/
abbrev Records (s : Structure) : Type := List (String × s.Payload)

/-- What a record holds, as a value; null for a member of a set. -/
def Structure.value : (s : Structure) → s.Payload → Value
  | .list, v | .hash, v => v
  | .set, _ => .null
  | .sortedSet, f => .float f

namespace Records

variable {s : Structure}

/-- The names of records. -/
def names (found : Records s) : List String := found.map (·.1)

/-- The records in `found`, and then those of `more` whose names are not in `found`. -/
def join (found more : Records s) : Records s :=
  found ++ more.filter fun r => !found.names.contains r.1

end Records

/-- Records together with their structure. -/
structure RecordSet where
  kind : Structure
  records : Records kind

namespace RecordSet

/-- No records of a structure. -/
def empty (kind : Structure) : RecordSet := ⟨kind, []⟩

/-- Joins the records of another set, unless they are of another structure. -/
def join (a b : RecordSet) : RecordSet :=
  if h : b.kind = a.kind then ⟨a.kind, a.records.join (h ▸ b.records)⟩ else a

/-- The names of the records. -/
def names (a : RecordSet) : List String := a.records.names

/-- The number of the records. -/
def size (a : RecordSet) : Nat := a.records.length

end RecordSet

end KeyedRelations
