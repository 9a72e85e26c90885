import KeyedRelations.Entity
import KeyedRelations.Query.Json

/-!
# Entities as JSON

An entity is written with all three fields.  Read back, only the name must be
there; of several options with one name the last counts.
-/

namespace KeyedRelations.Entity

open Json (Field Shape Decoded)

/-- The document of an entity. -/
def toJson (e : Entity) : Json :=
  .record [("name", .text e.name),
    ("key_prefix", Json.option Json.text e.keyPrefix),
    ("options", .record (e.options.entries.map fun scope =>
      (scope.1, .record (scope.2.entries.map fun o => (o.1, .text o.2)))))]

/-- The options that a document is. -/
def optionsOfJson (j : Json) : Decoded (SortedMap String (SortedMap String String)) :=
  (Json.asMap (fun j => (Json.asMap Json.asText j).map .ofList) j).map .ofList

/-- The fields of an entity. -/
def shape : Shape :=
  ⟨"EntityDef", [.of "name" Json.asText, .of "key_prefix" (Json.asOption Json.asText),
    .of "options" optionsOfJson]⟩

/-- The entity that a document is. -/
def ofJson : Json → Decoded Entity :=
  shape.decode fun s => do
    let name ← shape.required s "name" 0 Json.asText
    let keyPrefix ← s.optional "key_prefix" 1 (Json.asOption Json.asText) none
    let options ← s.optional "options" 2 optionsOfJson .empty
    return { name, keyPrefix, options }

/-- The entity that a text writes. -/
def ofText (text : String) : Except Json.Failure Entity := Json.decode ofJson text

/-- The entities that a text writes as an array. -/
def listOfText (text : String) : Except Json.Failure (List Entity) :=
  Json.decode (Json.asSequence ofJson) text

/-- The text of a list of entities. -/
def listToText (es : List Entity) : String := (Json.array (es.map toJson)).pretty

end KeyedRelations.Entity
