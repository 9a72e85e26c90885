import KeyedRelations.Entity.Json
import KeyedRelations.Store.Layout

/-!
# The catalog

The registered entities, kept twice: under the bytes of their names in a tree
beside the store, which outlives the program, and by name in memory, where
queries look them up.
-/

namespace KeyedRelations

/-- Definitions as they are stored. -/
abbrev DefinitionTree : Type := SortedMap Key (Stored Entity)

/-- The registered entities. -/
structure Catalog where
  persisted : DefinitionTree
  cached : SortedMap String Entity
  deriving DecidableEq, Repr

namespace Catalog

/-- A catalog without entities. -/
def empty : Catalog := ⟨.empty, .empty⟩

instance : Inhabited Catalog := ⟨empty⟩

/-- The entities of stored definitions, each under the name in its definition; the
first definition that cannot be read is a failure. -/
def readDefinitions (cached : SortedMap String Entity) :
    List (Stored Entity) → Except StoreError (SortedMap String Entity)
  | [] => .ok cached
  | .intact e :: rest => readDefinitions (cached.insert e.name e) rest
  | .damaged _ :: _ => .error (.serialization "undecodable definition")

/-- The catalog of stored definitions. -/
def ofTree (persisted : DefinitionTree) : Except StoreError Catalog :=
  (readDefinitions .empty persisted.values).map (⟨persisted, ·⟩)

/-- Registers an entity, over one of the same name. -/
def register (c : Catalog) (e : Entity) : Catalog where
  persisted := c.persisted.insert (Utf8.bytes e.name) (.intact e)
  cached := c.cached.insert e.name e

/-- Registers entities one after the other. -/
def registerAll (c : Catalog) (es : List Entity) : Catalog := es.foldl register c

/-- Registers the entities that a text lists: their number, and the catalog after it. -/
def loadJson (c : Catalog) (text : String) : Except Json.Failure (Nat × Catalog) :=
  (Entity.listOfText text).map fun es => (es.length, c.registerAll es)

/-- Removes the entity of a name: whether it was registered, and the catalog after it. -/
def remove (c : Catalog) (name : String) : Bool × Catalog :=
  (c.cached.contains name, ⟨c.persisted.erase (Utf8.bytes name), c.cached.erase name⟩)

/-- The entity of a name. -/
def get? (c : Catalog) (name : String) : Option Entity := c.cached.get? name

/-- The names of the registered entities, in ascending order. -/
def names (c : Catalog) : List String := c.cached.keys

/-- The registered entities, by ascending name. -/
def entities (c : Catalog) : List Entity := c.names.filterMap c.get?

end Catalog

end KeyedRelations
