import KeyedRelations.Structure
import KeyedRelations.Store.Error

/-!
# Store commands

What a client can ask of a store.  Records live in **collections**: a structure
under a container key, except for lists, whose records are the store's top-level
keys.  A command scans a collection by one round, or reads, writes or removes
one record; the type of its answer depends on it.
-/

namespace KeyedRelations

/-- Where records live.  The container key of a list means nothing. -/
structure Collection where
  kind : Structure
  container : String
  deriving DecidableEq, Repr

/-- When a write goes through. -/
inductive WriteMode where
  | always
  | ifAbsent
  | ifPresent
  deriving DecidableEq, Repr

/-- Whether a mode lets a write through onto a record that does or does not exist. -/
def WriteMode.permits : WriteMode → Bool → Bool
  | .always, _ => true
  | .ifAbsent, present => !present
  | .ifPresent, present => present

/-- What a scan shows of a record beside its name.  A scan of a list shows no
values. -/
abbrev Structure.Item : Structure → Type
  | .list | .set => Unit
  | .hash => Value
  | .sortedSet => Float

/-- The items of one scan round and the cursor of the next; zero if there is none. -/
structure Page (α : Type) where
  cursor : Nat
  items : List α
  deriving DecidableEq, Repr

/-- Whether no round follows. -/
def Page.isLast {α : Type} (p : Page α) : Bool := p.cursor = 0

/-- A command to a store. -/
inductive Command where
  /-- The next round of a scan for names that match a glob, from a cursor (zero at
  first), examining up to `count` records. -/
  | scan (collection : Collection) (cursor : Nat) (pattern : String) (count : Nat)
  /-- What the record of a name holds, if it exists. -/
  | read (collection : Collection) (name : String)
  /-- Writes the record of a name, if the mode lets it; answers whether it did. -/
  | write (collection : Collection) (name : String) (payload : collection.kind.Payload)
      (mode : WriteMode)
  /-- Removes the record of a name; answers whether it existed. -/
  | remove (collection : Collection) (name : String)

/-- The collection that a command is about. -/
def Command.collection : Command → Collection
  | .scan c .. | .read c _ | .write c .. | .remove c _ => c

/-- Whether a command is a round of a scan. -/
def Command.isScan : Command → Bool
  | .scan .. => true
  | _ => false

/-- Whether a command can change records. -/
def Command.isWrite : Command → Bool
  | .write .. | .remove .. => true
  | _ => false

/-- What a command is answered with. -/
abbrev Command.Answer : Command → Type
  | .scan c .. => Page (String × c.kind.Item)
  | .read c _ => Option c.kind.Payload
  | .write .. | .remove .. => Bool

/-- A store as its clients see it: the answer to a command, or the failure of one,
in a state, and the state after it.  `patience` is a number of rounds after which
a scan is given up. -/
structure Handler (σ : Type) where
  perform : (c : Command) → σ → Except StoreError c.Answer × σ
  patience : σ → Nat

end KeyedRelations
