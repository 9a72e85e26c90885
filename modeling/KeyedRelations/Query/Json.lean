import KeyedRelations.Query
import KeyedRelations.Value.Json

/-!
# Queries as JSON

A query is written as an object with all fields in their order.  Read back,
every field but the action may be left out; a limit and a storage may be null.
-/

namespace KeyedRelations

open Json (Field Shape Decoded)

/-! ### Writing -/

/-- The document of a subject. -/
def Subject.toJson (s : Subject) : Json :=
  .record [("alias", .text s.name), ("entity", .text s.entity)]

/-- The document of a predicate. -/
def Predicate.toJson (p : Predicate) : Json :=
  .record [("subject", .text p.subject), ("column", .text p.column),
    ("op", .text p.op.name), ("value", p.value.toJson)]

/-- The document of a column. -/
def ColumnRef.toJson (c : ColumnRef) : Json :=
  .record [("subject", .text c.subject), ("column", .text c.column)]

/-- The document of an assignment. -/
def Assignment.toJson (a : Assignment) : Json :=
  .record [("column", .text a.column), ("value", a.value.toJson)]

/-- The document of a limit. -/
def Limit.toJson (l : Limit) : Json :=
  .record [("count", .integer l.count.toNat), ("offset", .integer l.offset.toNat)]

/-- The document of an optional part, null if it is absent. -/
def Json.option {α : Type} (toJson : α → Json) : Option α → Json
  | some a => toJson a
  | none => .null

/-- The document of a query. -/
def Query.toJson (q : Query) : Json :=
  .record [("action", .text q.action),
    ("subjects", .array (q.subjects.map Subject.toJson)),
    ("predicates", .array (q.predicates.map Predicate.toJson)),
    ("columns", .array (q.columns.map ColumnRef.toJson)),
    ("assignments", .array (q.assignments.map Assignment.toJson)),
    ("limit", Json.option Limit.toJson q.limit),
    ("text", .text q.text),
    ("storage", Json.option Json.text q.storage)]

/-- The text of a query document. -/
def Query.toText (q : Query) : String := q.toJson.compact

/-! ### Reading -/

/-- The fields of a subject. -/
def Subject.shape : Shape :=
  ⟨"Subject", [.of "alias" Json.asText, .of "entity" Json.asText]⟩

/-- The subject that a document is. -/
def Subject.ofJson : Json → Decoded Subject :=
  shape.decode fun s => do
    let name ← shape.required s "alias" 0 Json.asText
    let entity ← shape.required s "entity" 1 Json.asText
    return ⟨name, entity⟩

/-- The comparison of a word. -/
def Comparison.ofName (name : String) : Decoded Comparison :=
  if name = "eq" then .ok .eq
  else if name = "match" then .ok .glob
  else .error (.unknownVariant name "eq" "match")

/-- The comparison that a document is: a word, or an object with the word as its
one name and null as its value. -/
def Comparison.ofJson : Json → Decoded Comparison
  | .string (some name) => ofName name
  | .string none => .error .unreadable
  | .object ((name, j) :: rest) =>
    match name with
    | none => .error .unreadable
    | some name => do
      let op ← ofName name
      match j with
      | .null => if rest.isEmpty then .ok op else .error .noVariant
      | j => .error (Json.notA .unit j)
  | _ => .error .noVariant

/-- The fields of a predicate. -/
def Predicate.shape : Shape :=
  ⟨"Predicate", [.of "subject" Json.asText, .of "column" Json.asText,
    .of "op" Comparison.ofJson, .of "value" Value.ofJson]⟩

/-- The predicate that a document is. -/
def Predicate.ofJson : Json → Decoded Predicate :=
  shape.decode fun s => do
    let subject ← shape.required s "subject" 0 Json.asText
    let column ← shape.required s "column" 1 Json.asText
    let op ← shape.required s "op" 2 Comparison.ofJson
    let value ← shape.required s "value" 3 Value.ofJson
    return { subject, column, op, value }

/-- The fields of a column. -/
def ColumnRef.shape : Shape :=
  ⟨"TupleColumn", [.of "subject" Json.asText, .of "column" Json.asText]⟩

/-- The column that a document is. -/
def ColumnRef.ofJson : Json → Decoded ColumnRef :=
  shape.decode fun s => do
    let subject ← shape.required s "subject" 0 Json.asText
    let column ← shape.required s "column" 1 Json.asText
    return { subject, column }

/-- The fields of an assignment. -/
def Assignment.shape : Shape :=
  ⟨"Assignment", [.of "column" Json.asText, .of "value" Value.ofJson]⟩

/-- The assignment that a document is. -/
def Assignment.ofJson : Json → Decoded Assignment :=
  shape.decode fun s => do
    let column ← shape.required s "column" 0 Json.asText
    let value ← shape.required s "value" 1 Value.ofJson
    return { column, value }

/-- The fields of a limit. -/
def Limit.shape : Shape :=
  ⟨"Limit", [.of "count" Json.asWord, .of "offset" Json.asWord]⟩

/-- The limit that a document is. -/
def Limit.ofJson : Json → Decoded Limit :=
  shape.decode fun s => do
    let count ← shape.required s "count" 0 Json.asWord
    let offset ← s.optional "offset" 1 Json.asWord 0
    return { count, offset }

/-- The fields of a query. -/
def Query.shape : Shape :=
  ⟨"Query", [.of "action" Json.asText,
    .of "subjects" (Json.asSequence Subject.ofJson),
    .of "predicates" (Json.asSequence Predicate.ofJson),
    .of "columns" (Json.asSequence ColumnRef.ofJson),
    .of "assignments" (Json.asSequence Assignment.ofJson),
    .of "limit" (Json.asOption Limit.ofJson),
    .of "text" Json.asText,
    .of "storage" (Json.asOption Json.asText)]⟩

/-- The query that a document is. -/
def Query.ofJson : Json → Decoded Query :=
  shape.decode fun s => do
    let action ← shape.required s "action" 0 Json.asText
    let subjects ← s.optional "subjects" 1 (Json.asSequence Subject.ofJson) []
    let predicates ← s.optional "predicates" 2 (Json.asSequence Predicate.ofJson) []
    let columns ← s.optional "columns" 3 (Json.asSequence ColumnRef.ofJson) []
    let assignments ← s.optional "assignments" 4 (Json.asSequence Assignment.ofJson) []
    let limit ← s.optional "limit" 5 (Json.asOption Limit.ofJson) none
    let text ← s.optional "text" 6 Json.asText ""
    let storage ← s.optional "storage" 7 (Json.asOption Json.asText) none
    return { action, subjects, predicates, columns, assignments, limit, text, storage }

/-- The query that a text writes. -/
def Query.ofText (text : String) : Except Json.Failure Query :=
  Json.decode Query.ofJson text

end KeyedRelations
