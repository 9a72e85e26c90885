import KeyedRelations.Assembly
import KeyedRelations.Mutation
import KeyedRelations.Store.Pool

/-!
# Storages

A storage carries queries out: it plans them by its catalog, takes a handle of its
pool for every subject, runs the subject's program on the store, and returns the
handle whatever came of it.  It remembers the report of the last execution if that
failed.

A query that reads answers one block for each subject.  A query that writes has
exactly one subject.
-/

namespace KeyedRelations

/-- A storage over a store of type `σ`. -/
structure Storage (σ : Type) where
  name : String
  config : ExecutorConfig
  catalog : Catalog
  pool : Pool
  store : σ
  /-- The report of the last execution or connection attempt that failed, unless an
  execution has succeeded since. -/
  lastError : Option Report

namespace Storage

variable {σ α : Type}

/-- The name of storages that are given none. -/
def defaultName : String := "kv"

/-- A storage on which nothing has run yet. -/
def new (config : ExecutorConfig) (pool : Pool) (catalog : Catalog) (store : σ) : Storage σ :=
  ⟨defaultName, config, catalog, pool, store, none⟩

/-- The storage under another name. -/
def withName (s : Storage σ) (name : String) : Storage σ := { s with name }

/-- What the storage plans queries with. -/
def planner (s : Storage σ) : Planner := ⟨s.catalog, s.config.strict, s.name⟩

/-- The error of a store failure. -/
def backend (s : Storage σ) (e : StoreError) : QueryError := .backend s.name e

/-! ### Handles -/

/-- Uses the store through a handle of the pool, which is returned in any case. -/
def lease (use : σ → Except QueryError α × σ) (s : Storage σ) : Except QueryError α × Storage σ :=
  match s.pool.acquire with
  | (.error e, pool) => (.error (s.backend e), { s with pool })
  | (.ok handle, pool) =>
    let r := use s.store
    (r.1, { s with pool := pool.release handle, store := r.2 })

/-- Runs a program on the store. -/
def perform (s : Storage σ) (h : Handler σ) (program : Program α) (store : σ) :
    Except QueryError α × σ :=
  let r := program.run h store
  (r.1.mapError s.backend, r.2)

/-! ### Reading -/

/-- The block of the records that were found for a subject. -/
def present (s : Storage σ) (q : Query) (p : SubjectPlan) (found : Records p.kind) :
    Except QueryError Block :=
  ((Block.ofRecords p.name p.entity found).project p.columns).mapError fun column =>
    s.planner.malformed q ("unknown column " ++ column)

/-- Reads one subject through a handle of its own. -/
def readSubject (h : Handler σ) (q : Query) (p : SubjectPlan) (s : Storage σ) :
    Except QueryError Block × Storage σ :=
  match s.lease (s.perform h (p.select s.config.pageSize)) with
  | (.error e, s) => (.error e, s)
  | (.ok found, s) => (s.present q p found, s)

/-- Reads subjects one after the other, up to the first that fails. -/
def readInTurn (h : Handler σ) (q : Query) :
    List SubjectPlan → Storage σ → Except QueryError (List Block) × Storage σ
  | [], s => (.ok [], s)
  | p :: rest, s =>
    match s.readSubject h q p with
    | (.error e, s) => (.error e, s)
    | (.ok block, s) =>
      let r := readInTurn h q rest s
      (r.1.map (block :: ·), r.2)

/-- Reads all subjects, whatever comes of the others. -/
def readEach (h : Handler σ) (q : Query) :
    List SubjectPlan → Storage σ → List (Except QueryError Block) × Storage σ
  | [], s => ([], s)
  | p :: rest, s =>
    let first := s.readSubject h q p
    let others := readEach h q rest first.2
    (first.1 :: others.1, others.2)

/-- All outcomes, or the first error among them. -/
def gather {ε : Type} : List (Except ε α) → Except ε (List α)
  | [] => .ok []
  | .error e :: _ => .error e
  | .ok a :: rest => (gather rest).map (a :: ·)

/-- Reads the subjects of a plan.  Subjects that are read side by side are all read,
and the first in their order that failed is the error. -/
def select (h : Handler σ) (q : Query) (plan : Plan) (s : Storage σ) :
    Except QueryError QueryResult × Storage σ :=
  let r :=
    if s.config.parallel ∧ !plan.others.isEmpty then
      let r := readEach h q plan.subjects s
      (gather r.1, r.2)
    else readInTurn h q plan.subjects s
  (r.1.map QueryResult.ofRead, r.2)

/-! ### Writing -/

/-- Carries out the write of an action on one subject through a handle that the client
has: the names of the records that were written or removed. -/
def apply (s : Storage σ) (h : Handler σ) (action : Action) (q : Query) (p : SubjectPlan)
    (store : σ) : Except QueryError (List String) × σ :=
  match p.mutation (s.planner.origin q) q.assignments s.config.pageSize action with
  | .error e => (.error e, store)
  | .ok program => s.perform h program store

/-- Carries out a query that writes. -/
def write (h : Handler σ) (action : Action) (q : Query) (plan : Plan) (s : Storage σ) :
    Except QueryError QueryResult × Storage σ :=
  if plan.others.isEmpty then
    match s.lease (s.apply h action q plan.primary) with
    | (.error e, s) => (.error e, s)
    | (.ok names, s) =>
      (.ok (.ofWrite (.ofNames plan.primary.name plan.primary.entity names)), s)
  else
    (.error (s.planner.malformed q (action.name ++ " takes exactly one subject, got "
      ++ toString plan.subjects.length)), s)

/-! ### Queries -/

/-- Answers a query.  If `main` is given, it is the entity of the first subject. -/
def dispatch (h : Handler σ) (q : Query) (main : Option Entity) (s : Storage σ) :
    Except QueryError QueryResult × Storage σ :=
  match q.resolvedAction? with
  | none => (.error (.unknownAction q.action (s.planner.origin q)), s)
  | some action =>
    match s.planner.plan q main with
    | .error e => (.error e, s)
    | .ok plan => if action.isWrite then s.write h action q plan else s.select h q plan

/-- Remembers what came of an execution. -/
def remember (r : Except QueryError α) (s : Storage σ) : Storage σ :=
  match r with
  | .ok _ => { s with lastError := none }
  | .error e => { s with lastError := some e.report }

/-- Answers a query and remembers what came of it. -/
def execute (h : Handler σ) (q : Query) (main : Option Entity) (s : Storage σ) :
    Except QueryError QueryResult × Storage σ :=
  let r := s.dispatch h q main
  (r.1, r.2.remember r.1)

/-- Checks that a handle is to be had, and remembers it if not. -/
def connect (s : Storage σ) : Except QueryError Unit × Storage σ :=
  match s.lease (fun store => (.ok (), store)) with
  | (.ok (), s) => (.ok (), s)
  | (.error e, s) => (.error e, { s with lastError := some e.report })

/-- Drops the idle handles: their number. -/
def disconnect (s : Storage σ) : Nat × Storage σ :=
  let r := s.pool.clearIdle
  (r.1, { s with pool := r.2 })

end Storage

end KeyedRelations
