import KeyedRelations.SortedMap
import KeyedRelations.Structure

/-!
# Entities

An entity is the definition that lays records out in a store: which structure
they live in, under which container key, and with which prefix in front of
their natural keys.
-/

namespace KeyedRelations

/-- A definition of an entity. -/
structure Entity where
  name : String
  /-- What stands in front of natural keys; absent, it is the name and a colon. -/
  keyPrefix : Option String
  /-- Options by namespace and key. -/
  options : SortedMap String (SortedMap String String)
  deriving DecidableEq, Repr

namespace Entity

/-- The entity of a name without anything else. -/
def ofName (name : String) : Entity := ⟨name, none, .empty⟩

/-- The entity with a given prefix. -/
def withKeyPrefix (e : Entity) (p : String) : Entity := { e with keyPrefix := some p }

/-- The entity with an option set. -/
def withOption (e : Entity) (scope key value : String) : Entity :=
  { e with
    options := e.options.insert scope
      (((e.options.get? scope).getD SortedMap.empty).insert key value) }

/-- The namespace of the options that this library reads. -/
def storeScope : String := "kv"

/-- The option that names the structure. -/
def structureOption : String := "type"

/-- The option that names the container key. -/
def containerOption : String := "key"

/-- The entity with a given structure. -/
def withStructure (e : Entity) (s : Structure) : Entity :=
  e.withOption storeScope structureOption s.word

/-- The entity with a given container key. -/
def withContainerKey (e : Entity) (key : String) : Entity :=
  e.withOption storeScope containerOption key

/-- The value of an option. -/
def option? (e : Entity) (scope key : String) : Option String :=
  (e.options.get? scope).bind (·.get? key)

/-- The text in front of natural keys. -/
def namePrefix (e : Entity) : String := e.keyPrefix.getD (e.name ++ ":")

/-- The key of the container that holds the records; the name if none is given. -/
def containerKey (e : Entity) : String := (e.option? storeScope containerOption).getD e.name

/-- The full name of the record with a natural key. -/
def recordName (e : Entity) (key : String) : String := e.namePrefix ++ key

/-- The natural key of a record; its whole name if that lacks the prefix. -/
def naturalKey (e : Entity) (name : String) : String :=
  let start := e.namePrefix.toList
  if start.isPrefixOf name.toList then .ofList (name.toList.drop start.length) else name

/-- The text of the structure option, if it is given and names no structure. -/
def unknownKind? (e : Entity) : Option String :=
  (e.option? storeScope structureOption).filter fun word => (Structure.ofWord? word).isNone

/-- The structure of the entity, where an unknown word counts as none. -/
def kind (e : Entity) : Structure :=
  ((e.option? storeScope structureOption).bind Structure.ofWord?).getD Structure.default

end Entity

end KeyedRelations
