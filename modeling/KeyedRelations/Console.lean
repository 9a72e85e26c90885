import KeyedRelations.Presentation
import KeyedRelations.Query.Json
import KeyedRelations.Storage
import KeyedRelations.Store.Embedded
import KeyedRelations.Store.Snapshot

/-!
# The console

A console answers query documents over an embedded store and shows the answers in one
format.  A script is a text with one query document on a line; blank lines and lines
that start with `#` or `//` are passed over, and a query that fails is shown as an error
while the script goes on.
-/

namespace KeyedRelations

/-- Why a console cannot do what it is asked for. -/
inductive ConsoleError where
  /-- The text is no query document. -/
  | notAQuery (failure : Json.Failure)
  | query (e : QueryError)
  | store (e : StoreError)

/-- The message of a console error. -/
def ConsoleError.message : ConsoleError → String
  | .notAQuery failure => "invalid query: " ++ (FormatError.decoding failure.message).message
  | .query e => e.message
  | .store e => "store error: " ++ e.message

/-- A console. -/
structure Console where
  storage : Storage Store
  format : OutputFormat

namespace Console

/-- A console on what a snapshot holds. -/
def ofSnapshot (config : ExecutorConfig) (pool : PoolConfig) (format : OutputFormat)
    (snapshot : Snapshot) : Except StoreError Console :=
  (Catalog.ofTree snapshot.definitions).map fun catalog =>
    ⟨.new config (.ofConfig pool) catalog (.ofTrees snapshot.trees), format⟩

/-- What of the console outlives it. -/
def snapshot (c : Console) : Snapshot :=
  ⟨c.storage.store.trees, c.storage.catalog.persisted⟩

/-- What is shown of an answer to a query.  The blocks that a storage answers always have
rows. -/
def answer (c : Console) (q : Query) (r : QueryResult) : String :=
  match q.resolvedAction? with
  | some action => if action.isWrite then c.format.written r else (c.format.read? r).getD ""
  | none => (c.format.read? r).getD ""

/-- Answers a query document. -/
def execute (text : String) (c : Console) : Except ConsoleError String × Console :=
  match Query.ofText text with
  | .error failure => (.error (.notAQuery failure), c)
  | .ok q =>
    let r := c.storage.execute Store.handler q none
    let c := { c with storage := r.2 }
    match r.1 with
    | .error e => (.error (.query e), c)
    | .ok result => (.ok (c.answer q result), c)

/-- What is shown of an error. -/
def formatError (c : Console) : ConsoleError → String
  | .query e => c.format.error e.report
  | e => c.format.message ("Error: " ++ e.message)

/-- Whether a line of a script, without blanks around it, holds a query. -/
def isStatement : List Char → Bool
  | [] => false
  | '#' :: _ => false
  | '/' :: '/' :: _ => false
  | _ => true

/-- The query documents of a script. -/
def statements (script : String) : List String :=
  (((Text.splitLines script.toList).map Text.trimChars).filter isStatement).map .ofList

/-- What came of a script: how many queries failed, and what was shown, in order. -/
structure ScriptOutcome where
  failures : Nat
  outputs : List String
  deriving DecidableEq, Repr

/-- Answers query documents one after the other.  Empty answers are not shown. -/
def runStatements : List String → Console → ScriptOutcome × Console
  | [], c => (⟨0, []⟩, c)
  | statement :: rest, c =>
    match c.execute statement with
    | (.ok output, c) =>
      let r := runStatements rest c
      ({ r.1 with outputs := (if output = "" then [] else [output]) ++ r.1.outputs }, r.2)
    | (.error e, c) =>
      let r := runStatements rest c
      (⟨r.1.failures + 1, c.formatError e :: r.1.outputs⟩, r.2)

/-- Runs a script. -/
def runScript (script : String) (c : Console) : ScriptOutcome × Console :=
  c.runStatements (statements script)

/-- Registers the entities that a text lists. -/
def register (text : String) (c : Console) : Except ConsoleError String × Console :=
  match c.storage.catalog.loadJson text with
  | .error failure => (.error (.store (.serialization failure.message)), c)
  | .ok (count, catalog) =>
    (.ok (c.format.message (toString count ++ " entity definition(s) registered")),
      { c with storage := { c.storage with catalog } })

/-- Shows the registered entities. -/
def entities (c : Console) : String := c.format.entities c.storage.catalog.entities

/-- Writes everything out, which takes a handle. -/
def flush (c : Console) : Except ConsoleError Unit × Console :=
  match c.storage.pool.acquire with
  | (.error e, pool) => (.error (.store e), { c with storage := { c.storage with pool } })
  | (.ok handle, pool) =>
    (.ok (), { c with storage := { c.storage with pool := pool.release handle } })

end Console

end KeyedRelations
