import KeyedRelations.CommandLine.Invocation

/-!
# The program

Reads the arguments, carries the invocation out on the store that earlier calls left in
the data directory, and keeps what is to be kept there.
-/

namespace KeyedRelations.CommandLine

/-- How the program is called. -/
def usage : String :=
  "usage: kvql [options] exec QUERY | script FILE | register FILE | entities\n"
    ++ "options: -d, --data-path DIR  --temporary  --catalog FILE  --page-size N  --strict\n"
    ++ "  --parallel  --max-handles N  --acquire-timeout SECONDS  --storage-name NAME\n"
    ++ "  --format table|json|csv"

/-- The files that an invocation reads. -/
def Invocation.paths (i : Invocation) : List String :=
  i.options.catalog.toList ++ match i.task with
    | .exec operand =>
      match operand.toList with
      | '@' :: path => [.ofList path]
      | _ => []
    | .script path | .register path => [path]
    | .entities => []

/-- Reads a file.  An error that has no number of its own counts as a file that is not
there. -/
def readFile (path : String) : IO (Except FileError String) := do
  try
    return .ok (← IO.FS.readFile path)
  catch
    | .inappropriateType _ code _ | .invalidArgument _ code _ =>
      return .error ((FileError.ofCode? code.toNat).getD .notFound)
    | _ => return .error .notFound

/-- The file in a data directory that holds the snapshot of the store. -/
def snapshotPath (directory : String) : String := directory ++ "/snapshot"

/-- What was kept in a data directory. -/
def load (directory : String) : IO Snapshot := do
  try
    let bytes ← IO.FS.readBinFile (snapshotPath directory)
    match Snapshot.codec.open? bytes.data.toList with
    | some snapshot => return snapshot
    | none => throw (IO.userError "the data directory holds no store")
  catch
    | .noFileOrDirectory .. => return .empty
    | e => throw e

/-- Keeps a snapshot in a data directory. -/
def save (directory : String) (snapshot : Snapshot) : IO Unit := do
  IO.FS.createDirAll directory
  IO.FS.writeBinFile (snapshotPath directory) ⟨(Snapshot.codec.sealed snapshot).toArray⟩

/-- Carries an invocation out and shows what came of it. -/
def Invocation.perform (i : Invocation) : IO UInt32 := do
  let config := i.options.storeConfig
  let kept ← if config.temporary then pure .empty else load config.path
  let files ← i.paths.mapM fun path => do return (path, ← readFile path)
  let read : FileReader := fun path =>
    ((files.find? (·.1 = path)).map (·.2)).getD (.error .notFound)
  let (outcome, snapshot) := i.run read kept
  if !config.temporary then save config.path snapshot
  IO.print outcome.stdout
  IO.eprint outcome.stderr
  return outcome.code.toUInt32

end KeyedRelations.CommandLine

open KeyedRelations.CommandLine in
/-- The program. -/
def main (args : List String) : IO UInt32 := do
  match Invocation.ofArgs args with
  | .ok invocation => invocation.perform
  | .error .help => IO.println usage; return 0
  | .error .version => IO.println versionText; return 0
  | .error (.misuse reason) => IO.eprintln ("error: " ++ reason); IO.eprintln usage; return 2
