import KeyedRelations.Selection

/-!
# Writes

Inserting and replacing write one record for every assignment; updating and deleting
act on the records that the same subject selects.  Everything that is wrong with a
write shows before the first command: `SubjectPlan.mutation` answers with an error
or with a program whose result is the names of the records that were written or
removed.
-/

namespace KeyedRelations

/-- What a record of a structure holds if a value is assigned to it. -/
def Structure.payload? : (s : Structure) → Value → Option s.Payload
  | .list, v | .hash, v => some v
  | .set, _ => some ()
  | .sortedSet, v => v.number?

namespace Collection

/-- Writes records in order; the names of those that the mode let through, after the
names in `written`. -/
def writeAll (c : Collection) (mode : WriteMode) (written : List String) :
    Records c.kind → Program (List String)
  | [] => .done written
  | (name, payload) :: rest =>
    .command (.write c name payload mode) fun through =>
      c.writeAll mode (if through then written ++ [name] else written) rest

/-- Removes records in order; the names of those that existed, after the names in
`removed`. -/
def removeAll (c : Collection) (removed : List String) : List String → Program (List String)
  | [] => .done removed
  | name :: rest =>
    .command (.remove c name) fun existed =>
      c.removeAll (if existed then removed ++ [name] else removed) rest

end Collection

namespace SubjectPlan

/-- What is wrong with a write, with the reason. -/
def malformed {α : Type} (origin : Origin) (reason : String) : Except QueryError α :=
  .error (.malformed reason origin)

/-- What an assignment writes. -/
def payloadOf (p : SubjectPlan) (origin : Origin) (a : Assignment) :
    Except QueryError p.kind.Payload :=
  match p.kind.payload? a.value with
  | some payload => .ok payload
  | none =>
    malformed origin ("score for " ++ a.column ++ " must be numeric, got " ++ a.value.display)

/-- The records that assignments write; the first that writes nothing is the error. -/
def assigned (p : SubjectPlan) (origin : Origin) :
    List Assignment → Except QueryError (Records p.kind)
  | [] => .ok []
  | a :: rest =>
    match p.payloadOf origin a with
    | .error e => .error e
    | .ok payload =>
      (p.assigned origin rest).map ((p.entity.recordName a.column, payload) :: ·)

/-- Writes one record for every assignment. -/
def put (p : SubjectPlan) (origin : Origin) (assignments : List Assignment)
    (mode : WriteMode) : Except QueryError (Program (List String)) :=
  if assignments.isEmpty then malformed origin "write has no assignments"
  else (p.assigned origin assignments).map (p.collection.writeAll mode [])

/-- Writes what is assigned to the payload column into the selected records that still
exist. -/
def update (p : SubjectPlan) (origin : Origin) (assignments : List Assignment)
    (pageSize : Nat) : Except QueryError (Program (List String)) :=
  match p.kind.payloadColumn? with
  | none => .error (.unsupportedAction Action.update.name p.kind.name origin)
  | some column =>
    match assignments with
    | [a] =>
      if a.column = column then
        (p.payloadOf origin a).map fun payload =>
          (p.select pageSize).bind fun found =>
            p.collection.writeAll .ifPresent [] (found.names.map fun name => (name, payload))
      else wrongAssignment column
    | _ => wrongAssignment column
where
  wrongAssignment (column : String) : Except QueryError (Program (List String)) :=
    malformed origin ("UPDATE of " ++ p.kind.name ++ " takes exactly one assignment to " ++ column)

/-- Removes the selected records. -/
def delete (p : SubjectPlan) (pageSize : Nat) : Program (List String) :=
  (p.select pageSize).bind fun found => p.collection.removeAll [] found.names

/-- What an action writes or removes. -/
def mutation (p : SubjectPlan) (origin : Origin) (assignments : List Assignment)
    (pageSize : Nat) : Action → Except QueryError (Program (List String))
  | .insert => p.put origin assignments .ifAbsent
  | .replace => p.put origin assignments .always
  | .update => p.update origin assignments pageSize
  | .delete => .ok (p.delete pageSize)
  | .select => malformed origin "SELECT is not a write action"

end SubjectPlan

end KeyedRelations
