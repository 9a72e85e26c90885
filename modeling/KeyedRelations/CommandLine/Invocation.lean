import KeyedRelations.CommandLine.Arguments
import KeyedRelations.CommandLine.FileError
import KeyedRelations.Console

/-!
# Running an invocation

An invocation opens the store, registers the entities of the catalog file if one is
given, and carries its task out.  Files come from a reader that answers with a text or
with the error that says why there is none.
-/

namespace KeyedRelations.CommandLine

/-- What a program leaves to its caller. -/
structure Outcome where
  code : Nat
  stdout : String
  stderr : String
  deriving DecidableEq, Repr

namespace Outcome

/-- Everything went well, and this was shown. -/
def shown (output : String) : Outcome := ⟨0, output ++ "\n", ""⟩

/-- The program ended with an error. -/
def failed (reason : String) : Outcome := ⟨1, "", "Error: " ++ reason ++ "\n"⟩

end Outcome

namespace Options

/-- Where the store is kept. -/
def storeConfig (o : Options) : StoreConfig :=
  if o.temporary.isSome then .ofTemporary
  else .ofPath (o.dataPath.getD ({} : StoreConfig).path)

/-- How handles are handed out. -/
def poolConfig (o : Options) : PoolConfig :=
  (PoolConfig.ofMaxHandles (o.maxHandles.getD PoolConfig.defaultMaxHandles)).withAcquireTimeout
    ((o.acquireTimeout.map Duration.ofSeconds).getD PoolConfig.defaultAcquireTimeout)

/-- How queries are carried out. -/
def executorConfig (o : Options) : ExecutorConfig :=
  ((({} : ExecutorConfig).withPageSize (o.pageSize.getD ({} : ExecutorConfig).pageSize)).withStrict
    o.strict.isSome).withParallel o.parallel.isSome

/-- The format of what is shown. -/
def outputFormat (o : Options) : OutputFormat := o.format.getD .table

/-- The console on a snapshot. -/
def console (o : Options) (snapshot : Snapshot) : Except StoreError Console :=
  (Console.ofSnapshot o.executorConfig o.poolConfig o.outputFormat snapshot).map fun c =>
    { c with storage := c.storage.withName (o.storageName.getD Storage.defaultName) }

end Options

/-- The query document that an operand is or names. -/
def queryText (read : FileReader) (operand : String) : Except FileError String :=
  match operand.toList with
  | '@' :: path => read (.ofList path)
  | _ => .ok operand

/-- Registers the entities of a file. -/
def registerFile (read : FileReader) (path : String) (c : Console) :
    Except String String × Console :=
  match read path with
  | .error e => (.error e.message, c)
  | .ok text =>
    let r := c.register text
    (r.1.mapError ConsoleError.message, r.2)

/-- Carries a task out. -/
def Task.run (read : FileReader) (task : Task) (c : Console) : Outcome × Console :=
  match task with
  | .exec operand =>
    match queryText read operand with
    | .error e => (.failed e.message, c)
    | .ok text =>
      match c.execute text with
      | (.ok output, c) => (.shown output, c)
      | (.error e, c) => (⟨1, "", c.formatError e ++ "\n"⟩, c)
  | .script path =>
    match read path with
    | .error e => (.failed e.message, c)
    | .ok text =>
      let (r, c) := c.runScript text
      (⟨if r.failures > 0 then 1 else 0, String.join (r.outputs.map (· ++ "\n")), ""⟩, c)
  | .register path =>
    match registerFile read path c with
    | (.error reason, c) => (.failed reason, c)
    | (.ok output, c) => (.shown output, c)
  | .entities => (.shown c.entities, c)

/-- Carries a task out after registering the entities of the catalog file, if any. -/
def Invocation.serve (read : FileReader) (i : Invocation) (c : Console) : Outcome × Console :=
  match i.options.catalog with
  | none => i.task.run read c
  | some path =>
    match registerFile read path c with
    | (.error reason, c) => (.failed reason, c)
    | (.ok _, c) => i.task.run read c

/-- Carries an invocation out on what was kept of the store, and what is to be kept of it
then. -/
def Invocation.run (read : FileReader) (i : Invocation) (kept : Snapshot) : Outcome × Snapshot :=
  match i.options.console kept with
  | .error e => (.failed e.message, kept)
  | .ok c =>
    let (outcome, c) := i.serve read c
    match c.flush with
    | (.error e, c) =>
      (⟨1, outcome.stdout, outcome.stderr ++ "Error: " ++ e.message ++ "\n"⟩, c.snapshot)
    | (.ok (), c) => (outcome, c.snapshot)

/-- The version of the program. -/
def versionText : String := "kvql 0.1.0"

end KeyedRelations.CommandLine
