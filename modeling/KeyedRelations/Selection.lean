import KeyedRelations.Glob
import KeyedRelations.Plan
import KeyedRelations.Records
import KeyedRelations.Store.Program

/-!
# Selections

How the records of a subject are found.  Without predicates the whole collection is
scanned for the entity's prefix.  Otherwise the records are the union of what the
predicates find: a glob scans, an equality on the key reads the record that it
names, and the equalities on one field of a hash read that field once and keep it if
they all hold.  Fields come after all other predicates.
-/

namespace KeyedRelations

/-! ### Reading collections -/

/-- Reads the records of given names in order, after those in `found`; names that no
longer stand for a record are passed over. -/
def Collection.readAll (c : Collection) (found : Records c.kind) :
    List String → Program (Records c.kind)
  | [] => .done found
  | name :: rest =>
    .command (.read c name) fun held =>
      c.readAll (found ++ (held.map fun payload => (name, payload)).toList) rest

/-- The records of a collection whose names match a glob, by rounds that examine up to
`count` records.  The scan of a list shows names only, so its records are read one by
one when it is over. -/
def Collection.scanAll : (c : Collection) → (pattern : String) → (count : Nat) →
    Program (Records c.kind)
  | ⟨.list, key⟩, pattern, count =>
    (Program.scan ⟨⟨.list, key⟩, pattern, count⟩).bind fun found =>
      Collection.readAll ⟨.list, key⟩ [] (found.map (·.1))
  | ⟨.set, key⟩, pattern, count => Program.scan ⟨⟨.set, key⟩, pattern, count⟩
  | ⟨.hash, key⟩, pattern, count => Program.scan ⟨⟨.hash, key⟩, pattern, count⟩
  | ⟨.sortedSet, key⟩, pattern, count => Program.scan ⟨⟨.sortedSet, key⟩, pattern, count⟩

/-- The number of records that a round is to examine: at least one. -/
def roundSize (pageSize : Nat) : Nat := max pageSize 1

namespace SubjectPlan

/-- The glob for the names whose natural keys match another glob. -/
def pattern (p : SubjectPlan) (keys : String) : String :=
  Glob.escape p.entity.namePrefix ++ keys

/-- Whether a predicate compares a field of a hash. -/
def testsField (p : SubjectPlan) (c : Predicate) : Bool :=
  c.op = .eq && p.kind = .hash && c.column ≠ keyColumn

/-- The fields that predicates compare, each once, in the order of first mention. -/
def fields (p : SubjectPlan) : List String :=
  ((p.predicates.filter p.testsField).map (·.column)).eraseDups

/-- Whether every equality on a field holds for what the field holds. -/
def fieldHolds (p : SubjectPlan) (field : String) (payload : p.kind.Payload) : Bool :=
  (p.predicates.filter fun c => c.op = .eq && c.column = field).all fun c =>
    c.value.looselyEquals (p.kind.value payload)

/-- The records that a predicate on the key finds. -/
def findBy (p : SubjectPlan) (pageSize : Nat) (c : Predicate) : Program (Records p.kind) :=
  match c.op with
  | .glob =>
    p.collection.scanAll (p.pattern (c.value.text?.getD "")) (roundSize pageSize)
  | .eq => p.collection.readAll [] [p.entity.recordName c.value.display]

/-- Joins to `found` what predicates on the key find, one after the other. -/
def findByKeys (p : SubjectPlan) (pageSize : Nat) (found : Records p.kind) :
    List Predicate → Program (Records p.kind)
  | [] => .done found
  | c :: rest =>
    (p.findBy pageSize c).bind fun more => p.findByKeys pageSize (found.join more) rest

/-- Joins to `found` the fields that exist and hold what is asked of them. -/
def findByFields (p : SubjectPlan) (found : Records p.kind) :
    List String → Program (Records p.kind)
  | [] => .done found
  | field :: rest =>
    let name := p.entity.recordName field
    .command (.read p.collection name) fun held =>
      match held with
      | some payload =>
        if p.fieldHolds field payload then p.findByFields (found.join [(name, payload)]) rest
        else p.findByFields found rest
      | none => p.findByFields found rest

/-- The records of the subject. -/
def select (p : SubjectPlan) (pageSize : Nat) : Program (Records p.kind) :=
  if p.isFullScan then p.collection.scanAll (p.pattern "*") (roundSize pageSize)
  else
    (p.findByKeys pageSize [] (p.predicates.filter fun c => !p.testsField c)).bind fun found =>
      p.findByFields found p.fields

end SubjectPlan

end KeyedRelations
