import KeyedRelations.Value
import KeyedRelations.Text.Blank

/-!
# Queries

A query is an action on **subjects** (entities under an alias), with predicates
that pick records, columns to show and assignments to write.  It is fully
resolved: nothing here reads a query language.
-/

namespace KeyedRelations

/-- What a query does. -/
inductive Action where
  | select
  | insert
  | replace
  | update
  | delete
  deriving DecidableEq, Repr

namespace Action

/-- The name of an action. -/
def name : Action → String
  | .select => "SELECT"
  | .insert => "INSERT"
  | .replace => "REPLACE"
  | .update => "UPDATE"
  | .delete => "DELETE"

/-- The action of a tag, in any case and between any blanks. -/
def ofTag? (tag : String) : Option Action :=
  match Text.keyword tag with
  | "select" => some .select
  | "insert" => some .insert
  | "replace" => some .replace
  | "update" => some .update
  | "delete" => some .delete
  | _ => none

/-- Whether the action writes. -/
def isWrite : Action → Bool
  | .select => false
  | _ => true

end Action

/-- An entity under an alias. -/
structure Subject where
  name : String
  entity : String
  deriving DecidableEq, Repr

/-- How a predicate compares. -/
inductive Comparison where
  /-- With one value. -/
  | eq
  /-- With a glob. -/
  | glob
  deriving DecidableEq, Repr

/-- The word that a query document has for a comparison. -/
def Comparison.name : Comparison → String
  | .eq => "eq"
  | .glob => "match"

/-- A condition on the records of a subject. -/
structure Predicate where
  subject : String
  column : String
  op : Comparison
  value : Value
  deriving DecidableEq, Repr

/-- Equality of predicates, whose values are compared as values. -/
def Predicate.equals (a b : Predicate) : Bool :=
  a.subject == b.subject && a.column == b.column && a.op == b.op && a.value.equals b.value

/-- A column of a subject that is to be shown. -/
structure ColumnRef where
  subject : String
  column : String
  deriving DecidableEq, Repr

/-- A value to be written. -/
structure Assignment where
  column : String
  value : Value
  deriving DecidableEq, Repr

/-- Equality of assignments, whose values are compared as values. -/
def Assignment.equals (a b : Assignment) : Bool := a.column == b.column && a.value.equals b.value

/-- A limit on the number of records; storages of this library do not apply it. -/
structure Limit where
  count : UInt64
  offset : UInt64
  deriving DecidableEq, Repr

/-- Whether a limit asks for anything. -/
def Limit.isNotEmpty (l : Limit) : Bool := l.count > 0 || l.offset > 0

/-- A query. -/
structure Query where
  /-- The tag of the action, as given. -/
  action : String
  subjects : List Subject
  predicates : List Predicate
  columns : List ColumnRef
  assignments : List Assignment
  limit : Option Limit
  /-- The text that the query came from; empty if there is none. -/
  text : String
  storage : Option String
  deriving DecidableEq, Repr

namespace Query

/-- The query of an action tag with nothing else. -/
def ofAction (action : String) : Query := ⟨action, [], [], [], [], none, "", none⟩

/-- The query with another subject. -/
def join (q : Query) (name entity : String) : Query :=
  { q with subjects := q.subjects ++ [⟨name, entity⟩] }

/-- The query of an action on one entity, under its own name. -/
def onEntity (action : Action) (entity : String) : Query :=
  (ofAction action.name).join entity entity

/-- The query with another predicate. -/
def withPredicate (q : Query) (p : Predicate) : Query :=
  { q with predicates := q.predicates ++ [p] }

/-- The query with an equality. -/
def whereEq (q : Query) (subject column : String) (value : Value) : Query :=
  q.withPredicate ⟨subject, column, .eq, value⟩

/-- The query with a glob on the natural key. -/
def whereMatch (q : Query) (subject pattern : String) : Query :=
  q.withPredicate ⟨subject, "key", .glob, .text pattern⟩

/-- The query with another column to show. -/
def withColumn (q : Query) (subject column : String) : Query :=
  { q with columns := q.columns ++ [⟨subject, column⟩] }

/-- The query with another assignment. -/
def withAssignment (q : Query) (column : String) (value : Value) : Query :=
  { q with assignments := q.assignments ++ [⟨column, value⟩] }

/-- The query with a limit. -/
def withLimit (q : Query) (count offset : UInt64) : Query :=
  { q with limit := some ⟨count, offset⟩ }

/-- The query with the text that it came from. -/
def withText (q : Query) (text : String) : Query := { q with text }

/-- The query with the storage that it is for. -/
def withStorage (q : Query) (storage : String) : Query := { q with storage := some storage }

/-- Equality of queries, whose values are compared as values. -/
def equals (a b : Query) : Bool :=
  a.action == b.action && a.subjects == b.subjects
    && a.predicates.isEqv b.predicates Predicate.equals && a.columns == b.columns
    && a.assignments.isEqv b.assignments Assignment.equals && a.limit == b.limit
    && a.text == b.text && a.storage == b.storage

/-- The action of the query, if its tag names one. -/
def resolvedAction? (q : Query) : Option Action := Action.ofTag? q.action

/-- The alias of the first subject. -/
def primaryAlias? (q : Query) : Option String := q.subjects.head?.map (·.name)

/-- The first subject with a given alias. -/
def subject? (q : Query) (name : String) : Option Subject :=
  q.subjects.find? (·.name = name)

/-- The text that names a query in messages: its own text, or else the action tag
and the entities. -/
def label (q : Query) : String :=
  if q.text ≠ "" then q.text
  else q.action ++ " " ++ ", ".intercalate (q.subjects.map (·.entity))

end Query

end KeyedRelations
