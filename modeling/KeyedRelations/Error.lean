import KeyedRelations.SortedMap
import KeyedRelations.Store.Error
import KeyedRelations.Text.Template

/-!
# Errors of queries

Why a query is not answered.  Every error has a message template and the named
fields that fill it; a **report** shows both beside the message, so that a client
can render or file an error without taking its text apart.
-/

namespace KeyedRelations

/-- The storage that a query ran on and the text that names the query. -/
structure Origin where
  storage : String
  query : String
  deriving DecidableEq, Repr

/-- The fields that say where an error arose. -/
def Origin.fields (o : Origin) : Text.Fields := [("storage", o.storage), ("query", o.query)]

/-- Why a query is not answered. -/
inductive QueryError where
  | noSubjects (origin : Origin)
  | malformed (reason : String) (origin : Origin)
  | unknownAction (action : String) (origin : Origin)
  | unknownEntity (entity : String) (origin : Origin)
  /-- More predicates on a subject than its structure can answer. -/
  | tooManyPredicates (kind subject : String) (count : Nat) (origin : Origin)
  /-- An action that does not apply to the structure. -/
  | unsupportedAction (action kind : String) (origin : Origin)
  /-- A predicate on a column that the structure cannot search by. -/
  | unsupportedPredicate (column kind subject : String) (origin : Origin)
  /-- An entity whose structure option names no structure. -/
  | unknownStructure (word entity : String) (origin : Origin)
  /-- The store failed, or no handle to it was to be had. -/
  | backend (storage : String) (cause : StoreError)
  deriving DecidableEq, Repr

/-- The kinds of query errors. -/
inductive ErrorKind where
  | malformedQuery
  | capabilityViolation
  | unknownStructure
  | backend
  deriving DecidableEq, Repr

/-- The word for a kind of error. -/
def ErrorKind.word : ErrorKind → String
  | .malformedQuery => "malformed_query"
  | .capabilityViolation => "capability_violation"
  | .unknownStructure => "unknown_structure"
  | .backend => "backend"

namespace QueryError

/-- The kind of an error. -/
def kind : QueryError → ErrorKind
  | .noSubjects .. | .malformed .. | .unknownAction .. | .unknownEntity .. => .malformedQuery
  | .tooManyPredicates .. | .unsupportedAction .. | .unsupportedPredicate .. =>
    .capabilityViolation
  | .unknownStructure .. => .unknownStructure
  | .backend .. => .backend

/-- The template of an error's message. -/
def template : QueryError → Text.Template
  | .noSubjects .. =>
    [.words "Query on storage ", .hole "storage", .words " has no subjects: ", .hole "query"]
  | .malformed .. => [.words "Malformed query: ", .hole "reason"]
  | .unknownAction .. => [.words "Unknown query action: ", .hole "action"]
  | .unknownEntity .. => [.words "Unknown entity: ", .hole "entity"]
  | .tooManyPredicates .. =>
    [.words "multiple filters are not supported for ", .hole "structureType",
      .words " structure type"]
  | .unsupportedAction .. =>
    [.hole "action", .words " is not supported for ", .hole "structureType",
      .words " structure type"]
  | .unsupportedPredicate .. =>
    [.words "filter on column ", .hole "column", .words " is not supported for ",
      .hole "structureType", .words " structure type"]
  | .unknownStructure .. =>
    [.words "Unknown structure type ", .hole "structureType", .words " for entity ",
      .hole "entity"]
  | .backend .. =>
    [.words "Storage ", .hole "storage", .words " backend failure: ", .hole "cause"]

/-- The named fields of an error, in order. -/
def fields : QueryError → Text.Fields
  | .noSubjects o => o.fields
  | .malformed reason o => ("reason", reason) :: o.fields
  | .unknownAction action o => ("action", action) :: o.fields
  | .unknownEntity entity o => ("entity", entity) :: o.fields
  | .tooManyPredicates kind subject count o =>
    ("structureType", kind) :: ("subject", subject) :: ("count", toString count) :: o.fields
  | .unsupportedAction action kind o =>
    ("action", action) :: ("structureType", kind) :: o.fields
  | .unsupportedPredicate column kind subject o =>
    ("column", column) :: ("structureType", kind) :: ("subject", subject) :: o.fields
  | .unknownStructure word entity o =>
    ("structureType", word) :: ("entity", entity) :: o.fields
  | .backend storage cause => [("storage", storage), ("cause", cause.message)]

/-- The text of one field. -/
def field? (e : QueryError) (name : String) : Option String := Text.field? e.fields name

/-- The message of an error. -/
def message (e : QueryError) : String := e.template.fill e.fields

end QueryError

/-- An error as a client reports it. -/
structure Report where
  kind : ErrorKind
  /-- The written form of the message template. -/
  template : String
  fields : SortedMap String String
  message : String
  deriving DecidableEq, Repr

/-- The report of an error. -/
def QueryError.report (e : QueryError) : Report where
  kind := e.kind
  template := e.template.written
  fields := .ofList e.fields
  message := e.message

/-- The template filled with one field after the other, in the order of their names. -/
def Report.render (r : Report) : String := Text.fillWritten r.template r.fields.entries

end KeyedRelations
