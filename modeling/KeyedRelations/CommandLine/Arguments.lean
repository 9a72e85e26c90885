import KeyedRelations.Config
import KeyedRelations.Presentation

/-!
# Command-line arguments

The arguments are options followed by one task with its operand.  They are read from
left to right, and reading stops at the first that asks for help or for the version,
or that is wrong.  Only a wrong value that stands alone before the task waits until the
task has been read.
-/

namespace KeyedRelations.CommandLine

/-- What a program is to do. -/
inductive Task where
  /-- Answer one query: its document, or `@` and the path of a file with it. -/
  | exec (query : String)
  /-- Run the script in a file. -/
  | script (path : String)
  /-- Register the entities that a file lists. -/
  | register (path : String)
  /-- Show the registered entities. -/
  | entities
  deriving DecidableEq, Repr

/-- The options that are given.  No option is given twice. -/
structure Options where
  dataPath : Option String := none
  temporary : Option Unit := none
  catalog : Option String := none
  pageSize : Option Nat := none
  strict : Option Unit := none
  parallel : Option Unit := none
  maxHandles : Option Nat := none
  acquireTimeout : Option Nat := none
  storageName : Option String := none
  format : Option OutputFormat := none

/-- What a program is called with. -/
structure Invocation where
  options : Options
  task : Task

/-- Why there is nothing to do. -/
inductive Stop where
  | help
  | version
  /-- The arguments are wrong, with the reason. -/
  | misuse (reason : String)
  deriving DecidableEq, Repr

/-! ### Values of options -/

/-- The number that a value writes, below `2^64`. -/
def natural? (value : String) : Option Nat :=
  let digits := match value.toList with
    | '+' :: rest => rest
    | digits => digits
  if digits.isEmpty ∨ !digits.all Char.isDigit then none
  else
    let n := digits.foldl (fun n c => n * 10 + (c.toNat - '0'.toNat)) 0
    if n < UInt64.size then some n else none

/-- The path that a value is; an empty one is none. -/
def path? (value : String) : Option String := if value = "" then none else some value

/-- Sets a part of the options to what a value means, unless it is set already. -/
def setOnce {α : Type} (name : String) (old : Option α) (new : Option α)
    (put : Option α → Options) : Except Stop Options :=
  match old, new with
  | some _, _ => .error (.misuse ("option given twice: " ++ name))
  | none, none => .error (.misuse ("wrong value for " ++ name))
  | none, some a => .ok (put (some a))

/-- Sets the flag of a name; `none` if there is no such flag. -/
def setFlag? (o : Options) (name : String) : Option (Except Stop Options) :=
  match name with
  | "temporary" => some (setOnce name o.temporary (some ()) ({ o with temporary := · }))
  | "strict" => some (setOnce name o.strict (some ()) ({ o with strict := · }))
  | "parallel" => some (setOnce name o.parallel (some ()) ({ o with parallel := · }))
  | _ => none

/-- Sets the option of a name by a value; `none` if there is no such option. -/
def setOption? (o : Options) (name : String) : Option (String → Except Stop Options) :=
  match name with
  | "data-path" => some fun v => setOnce name o.dataPath (path? v) ({ o with dataPath := · })
  | "catalog" => some fun v => setOnce name o.catalog (path? v) ({ o with catalog := · })
  | "page-size" => some fun v => setOnce name o.pageSize (natural? v) ({ o with pageSize := · })
  | "max-handles" =>
    some fun v => setOnce name o.maxHandles (natural? v) ({ o with maxHandles := · })
  | "acquire-timeout" =>
    some fun v => setOnce name o.acquireTimeout (natural? v) ({ o with acquireTimeout := · })
  | "storage-name" =>
    some fun v => setOnce name o.storageName (some v) ({ o with storageName := · })
  | "format" =>
    some fun v => setOnce name o.format (OutputFormat.ofName? v) ({ o with format := · })
  | _ => none

/-! ### Arguments -/

/-- How one argument reads. -/
inductive Argument where
  /-- Operands only from here on: `--`. -/
  | separator
  /-- An option by its name, `--name` or `--name=value`. -/
  | long (name : String) (value : Option String)
  /-- An option by a letter, `-c` or `-cvalue`. -/
  | short (letter : Char) (value : Option String)
  /-- Anything else, also a `-` alone. -/
  | operand (text : String)
  deriving DecidableEq, Repr

/-- The text behind the first `=`, and the text before it. -/
def cutAtEquals (cs : List Char) : String × Option String :=
  let name := cs.takeWhile (· ≠ '=')
  (.ofList name,
    if name.length < cs.length then some (.ofList (cs.drop (name.length + 1))) else none)

/-- Reads one argument. -/
def Argument.ofText (text : String) : Argument :=
  match text.toList with
  | ['-', '-'] => .separator
  | '-' :: '-' :: cs => .long (cutAtEquals cs).1 (cutAtEquals cs).2
  | ['-'] => .operand text
  | ['-', c] => .short c none
  | '-' :: c :: '=' :: cs => .short c (some (.ofList cs))
  | '-' :: c :: cs => .short c (some (.ofList cs))
  | _ => .operand text

/-- Whether an argument can be the value of an option before it. -/
def isValue (text : String) : Bool :=
  match Argument.ofText text with
  | .operand _ => true
  | _ => false

/-- The misuse of an argument that nothing is known about. -/
def unexpected {α : Type} (text : String) : Except Stop α :=
  .error (.misuse ("unexpected argument: " ++ text))

/-- The operands of a task, which takes at most so many.  Behind a separator everything is
an operand. -/
def readOperands (most : Nat) (plain : Bool) : List String → Except Stop (List String)
  | [] => .ok []
  | text :: rest =>
    let take : Except Stop (List String) :=
      match most with
      | 0 => unexpected text
      | more + 1 => (readOperands more plain rest).map (text :: ·)
    if plain then take
    else
      match Argument.ofText text with
      | .separator => readOperands most true rest
      | .long "help" none => .error .help
      | .short 'h' _ => .error .help
      | .operand _ => take
      | _ => unexpected text

/-- The one operand that a task has. -/
def oneOperand (rest : List String) : Except Stop String := do
  match ← readOperands 1 false rest with
  | text :: _ => return text
  | [] => .error (.misuse "an operand is missing")

/-- The one operand of a task if that is a path.  An empty path is refused before anything
behind it is read. -/
def onePath (rest : List String) : Except Stop String := do
  match rest with
  | "" :: _ => .error (.misuse "a path is empty")
  | _ =>
    match path? (← oneOperand rest) with
    | some path => return path
    | none => .error (.misuse "a path is empty")

/-- The names of the tasks. -/
def taskNames : List String := ["exec", "script", "register", "entities", "help"]

/-- Reads a task. -/
def readTask (name : String) (rest : List String) : Except Stop Task :=
  match name with
  | "exec" => return .exec (← oneOperand rest)
  | "script" => return .script (← onePath rest)
  | "register" => return .register (← onePath rest)
  | "entities" => do
    let _ ← readOperands 0 false rest
    return .entities
  | "help" =>
    match rest with
    | [] => .error .help
    | [topic] => if taskNames.contains topic then .error .help else unexpected topic
    | topic :: _ => unexpected topic
  | _ => unexpected name

/-- Reads options and then a task.  A value that is an argument of its own is looked at only
when the next option or the whole task has been read: help on the task comes before what is
wrong with the last value. -/
def read (given : Except Stop Options) (args : List String) : Except Stop Invocation :=
  match args with
  | [] => .error (.misuse "a task is missing")
  | text :: rest =>
    match Argument.ofText text, given with
    | .separator, _ => unexpected text
    | .operand name, given => do
      let task ← readTask name rest
      return ⟨← given, task⟩
    | _, .error e => .error e
    | .long "help" none, _ => .error .help
    | .long "version" none, _ => .error .version
    | .short 'h' _, _ => .error .help
    | .short 'V' _, _ => .error .version
    | .short 'd' value, .ok o => readOption o "data-path" value rest
    | .short _ _, _ => unexpected text
    | .long name value, .ok o =>
      match setFlag? o name, value with
      | some (.ok o), none => read (.ok o) rest
      | some (.error e), none => .error e
      | some _, some _ => unexpected text
      | none, value => readOption o name value rest
termination_by (args.length, 0)
where
  /-- Reads an option that takes a value, which is the next argument unless it came with the
  name. -/
  readOption (o : Options) (name : String) (value : Option String) (rest : List String) :
      Except Stop Invocation :=
    match setOption? o name with
    | none => unexpected name
    | some put =>
      match value, rest with
      | some v, rest =>
        match put v with
        | .error e => .error e
        | .ok o => read (.ok o) rest
      | none, v :: rest =>
        if isValue v then read (put v) rest else .error (.misuse ("no value for " ++ name))
      | none, [] => .error (.misuse ("no value for " ++ name))
  termination_by (rest.length, 1)

/-- The invocation that arguments write. -/
def Invocation.ofArgs (args : List String) : Except Stop Invocation := read (.ok {}) args

end KeyedRelations.CommandLine
