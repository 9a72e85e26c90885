/-!
# File errors

Why a path leads to no text, with the numbers and words that operating systems have for
it.
-/

namespace KeyedRelations.CommandLine

/-- Why a file cannot be read. -/
inductive FileError where
  /-- Nothing is there, or a directory on the way is missing. -/
  | notFound
  /-- The path goes on behind a file. -/
  | notADirectory
  /-- The path leads to a directory. -/
  | isADirectory
  /-- The path, or a name in it, is too long. -/
  | nameTooLong
  deriving DecidableEq, Repr

namespace FileError

/-- The number of the error. -/
def code : FileError → Nat
  | .notFound => 2
  | .notADirectory => 20
  | .isADirectory => 21
  | .nameTooLong => 36

/-- The error with a given number. -/
def ofCode? (code : Nat) : Option FileError :=
  [.notFound, .notADirectory, .isADirectory, .nameTooLong].find? (·.code = code)

/-- What the error is called. -/
def name : FileError → String
  | .notFound => "No such file or directory"
  | .notADirectory => "Not a directory"
  | .isADirectory => "Is a directory"
  | .nameTooLong => "File name too long"

/-- The error as it is shown. -/
def message (e : FileError) : String := e.name ++ " (os error " ++ toString e.code ++ ")"

end FileError

/-- Reads the file of a path, or says why it cannot. -/
abbrev FileReader := String → Except FileError String

end KeyedRelations.CommandLine
