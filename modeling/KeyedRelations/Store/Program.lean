import KeyedRelations.Scan.Cursor

/-!
# Programs over a store

What a client does with a store, as data: it is done with a result, or sends a
command whose answer decides what comes next, or drains a scan.  Draining is the
only step that can take any number of commands.

A failed command ends the program with its error.  `Program.run` carries a
program out over a handler at one go; `Program.step?` shows the command that
comes next, so that programs of several clients can take turns.
-/

namespace KeyedRelations

/-- A scan of a whole collection for names that match a glob. -/
structure ScanRequest where
  collection : Collection
  pattern : String
  count : Nat
  deriving DecidableEq, Repr

/-- What a scan shows of one record: its name and the rest. -/
abbrev ScanRequest.Found (r : ScanRequest) : Type := String × r.collection.kind.Item

/-- The command for the round of a scan at a cursor. -/
abbrev ScanRequest.round (r : ScanRequest) (cursor : Nat) : Command :=
  .scan r.collection cursor r.pattern r.count

/-- What a client does with a store. -/
inductive Program (α : Type) : Type where
  | done (result : α)
  | command (c : Command) (next : c.Answer → Program α)
  | drain (request : ScanRequest) (paging : Paging) (found : List request.Found)
      (next : List request.Found → Program α)

namespace Program

variable {σ α β : Type}

/-- One program after another. -/
def bind : Program α → (α → Program β) → Program β
  | done a, f => f a
  | command c next, f => command c fun answer => (next answer).bind f
  | drain request paging found next, f =>
    drain request paging found fun items => (next items).bind f

instance : Monad Program where
  pure := done
  bind := bind

/-- Sends one command. -/
def send (c : Command) : Program c.Answer := command c done

/-- Scans a whole collection. -/
def scan (request : ScanRequest) : Program (List request.Found) := drain request .start [] done

/-- Carries a program out.  A scan that is not over within the handler's patience is
given up. -/
def run (h : Handler σ) : Program α → σ → Except StoreError α × σ
  | done a, s => (.ok a, s)
  | command c next, s =>
    match h.perform c s with
    | (.ok answer, s) => (next answer).run h s
    | (.error e, s) => (.error e, s)
  | drain request paging found next, s =>
    match paging.drain (fun cursor => h.perform (request.round cursor)) (h.patience s) found s with
    | (some (.ok items), s) => (next items).run h s
    | (some (.error e), s) => (.error e, s)
    | (none, s) => (.error .endlessScan, s)

/-- A program that waits for the answer to a command. -/
structure Waiting (α : Type) where
  command : Command
  next : command.Answer → Program α

/-- The result of a program that is done, or the command that it sends next. -/
def step? : Program α → α ⊕ Waiting α
  | done a => .inl a
  | command c next => .inr ⟨c, next⟩
  | drain request paging found next =>
    match paging.cursor.position? with
    | none => (next found).step?
    | some cursor =>
      .inr ⟨request.round cursor, fun page =>
        drain request (paging.answered page.cursor) (addNew found page.items) next⟩

end Program

end KeyedRelations
