import KeyedRelations.Catalog
import KeyedRelations.Error
import KeyedRelations.Query

/-!
# Query plans

A plan gives every subject of a query its entity, its structure and the query's
predicates and columns for it.  A query has a plan only if every structure can
answer what is asked of it; the checks run over the whole query in a fixed order,
and the first fault is the error.  Planning reads the catalog and never the store.
-/

namespace KeyedRelations

/-- What is asked of one subject. -/
structure SubjectPlan where
  name : String
  entity : Entity
  kind : Structure
  /-- The predicates on the subject, in the order of the query. -/
  predicates : List Predicate
  /-- The columns to show, in the order of the query; none means all. -/
  columns : List String
  deriving DecidableEq, Repr

/-- Whether all records of the entity are asked for. -/
def SubjectPlan.isFullScan (p : SubjectPlan) : Bool := p.predicates.isEmpty

/-- Where the records of the subject live. -/
abbrev SubjectPlan.collection (p : SubjectPlan) : Collection := ⟨p.kind, p.entity.containerKey⟩

/-- The subjects of a query in their order; there is at least one. -/
structure Plan where
  primary : SubjectPlan
  others : List SubjectPlan
  deriving DecidableEq, Repr

/-- All subjects of a plan in their order. -/
def Plan.subjects (p : Plan) : List SubjectPlan := p.primary :: p.others

/-- The subject of an alias. -/
def Plan.subject? (p : Plan) (name : String) : Option SubjectPlan :=
  p.subjects.find? (·.name = name)

/-- Whether a structure can answer a predicate: every structure finds records by
their natural keys, and a hash also compares the value of the field that the column
names, but nothing searches by its payload column. -/
def Structure.answers (s : Structure) (p : Predicate) : Bool :=
  p.column = keyColumn
    || (p.op = .eq && s = .hash && s.payloadColumn? ≠ some p.column)

/-- Whether a query may show a column of a structure. -/
def Structure.hasColumn (s : Structure) (column : String) : Bool :=
  column = keyColumn || s.payloadColumn? = some column

/-- The structure of an entity.  If `strict`, an option that names none is an error. -/
def Entity.kindFor (e : Entity) (strict : Bool) (origin : Origin) : Except QueryError Structure :=
  match e.unknownKind? with
  | some word => if strict then .error (.unknownStructure word e.name origin) else .ok e.kind
  | none => .ok e.kind

/-- What a plan depends on beside its query. -/
structure Planner where
  catalog : Catalog
  /-- Whether an unknown structure word is an error. -/
  strict : Bool
  /-- The name of the storage, for errors. -/
  storage : String

namespace Planner

/-- Where the errors of a query arise. -/
def origin (p : Planner) (q : Query) : Origin := ⟨p.storage, q.label⟩

/-- A malformed query, with the reason. -/
def malformed (p : Planner) (q : Query) (reason : String) : QueryError :=
  .malformed reason (p.origin q)

/-- The plans of subjects whose aliases must differ from those in `earlier`.  If
`main` is given, it is the entity of the first. -/
def planSubjects (p : Planner) (q : Query) :
    List String → Option Entity → List Subject → Except QueryError (List SubjectPlan)
  | _, _, [] => .ok []
  | earlier, main, s :: rest =>
    if earlier.contains s.name then
      .error (p.malformed q ("duplicate subject alias " ++ s.name))
    else
      match main.or (p.catalog.get? s.entity) with
      | none => .error (.unknownEntity s.entity (p.origin q))
      | some entity =>
        match entity.kindFor p.strict (p.origin q) with
        | .error e => .error e
        | .ok kind =>
          (p.planSubjects q (s.name :: earlier) none rest).map fun plans =>
            { name := s.name
              entity
              kind
              predicates := q.predicates.filter (·.subject = s.name)
              columns := (q.columns.filter (·.subject = s.name)).map (·.column) } :: plans

/-! ### Faults -/

/-- What is wrong with a predicate by itself, among the subjects of given plans. -/
def predicateFault? (p : Planner) (q : Query) (plans : List SubjectPlan) (c : Predicate) :
    Option QueryError :=
  if c.op = .glob ∧ c.value.text? = none then
    some (p.malformed q ("match pattern for " ++ c.subject ++ " must be a string"))
  else if plans.any (·.name = c.subject) then none
  else some (p.malformed q ("unknown subject " ++ c.subject))

/-- What is wrong with a column, among the subjects of given plans. -/
def columnFault? (p : Planner) (q : Query) (plans : List SubjectPlan) (c : ColumnRef) :
    Option QueryError :=
  match plans.find? (·.name = c.subject) with
  | none => some (p.malformed q ("unknown subject " ++ c.subject))
  | some plan =>
    if plan.kind.hasColumn c.column then none
    else some (p.malformed q (plan.kind.name ++ " has no column " ++ c.column))

/-- Whether a subject has more predicates than its structure can answer. -/
def countFault? (p : Planner) (q : Query) (plan : SubjectPlan) : Option QueryError :=
  if plan.predicates.length > 1 ∧ plan.kind.manyPredicates = false then
    some (.tooManyPredicates plan.kind.name plan.name plan.predicates.length (p.origin q))
  else none

/-- The first predicate on a subject that its structure cannot answer. -/
def answerFault? (p : Planner) (q : Query) (plan : SubjectPlan) : Option QueryError :=
  (plan.predicates.find? fun c => !plan.kind.answers c).map fun c =>
    .unsupportedPredicate c.column plan.kind.name plan.name (p.origin q)

/-- The first fault of a query whose subjects have given plans. -/
def fault? (p : Planner) (q : Query) (plans : List SubjectPlan) : Option QueryError :=
  (q.predicates.findSome? (p.predicateFault? q plans)).or <|
    (q.columns.findSome? (p.columnFault? q plans)).or <|
      (plans.findSome? (p.countFault? q)).or (plans.findSome? (p.answerFault? q))

/-- The plan of a query.  If `main` is given, it is the entity of the first subject,
whatever the catalog says. -/
def plan (p : Planner) (q : Query) (main : Option Entity) : Except QueryError Plan :=
  match p.planSubjects q [] main q.subjects with
  | .error e => .error e
  | .ok [] => .error (.noSubjects (p.origin q))
  | .ok (primary :: others) =>
    match p.fault? q (primary :: others) with
    | some e => .error e
    | none => .ok ⟨primary, others⟩

end Planner

end KeyedRelations
