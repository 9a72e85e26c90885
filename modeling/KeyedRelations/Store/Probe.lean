import KeyedRelations.Store.Command

/-!
# Probes

A probe stands between a client and a store.  It numbers the commands from zero and
notes each of them; it can let others act on the store just before a command, and
it can make commands fail before they reach the store.
-/

namespace KeyedRelations

/-- The word for a write mode. -/
def WriteMode.word : WriteMode → String
  | .always => "always"
  | .ifAbsent => "if_absent"
  | .ifPresent => "if_present"

/-- The verb of a command on records of a structure. -/
def Command.verb (c : Command) : String :=
  match c, c.collection.kind with
  | .scan .., .list => "scan"
  | .scan .., .set => "sscan"
  | .scan .., .hash => "hscan"
  | .scan .., .sortedSet => "zscan"
  | .read .., .list => "get"
  | .read .., .set => "sismember"
  | .read .., .hash => "hget"
  | .read .., .sortedSet => "zscore"
  | .write .., .list => "set"
  | .write .., .set => "sadd"
  | .write .., .hash => "hset"
  | .write .., .sortedSet => "zadd"
  | .remove .., .list => "del"
  | .remove .., .set => "srem"
  | .remove .., .hash => "hdel"
  | .remove .., .sortedSet => "zrem"

/-- What a note says of the payload and the mode of a write.  A member of a set has no
payload, and its mode is not noted. -/
def WriteMode.noted (mode : WriteMode) : (s : Structure) → s.Payload → List String
  | .list, v | .hash, v => [v.display, mode.word]
  | .set, _ => []
  | .sortedSet, f => [(Value.float f).display, mode.word]

/-- The note of a command. -/
def Command.note (c : Command) : String :=
  let place := match c.collection.kind with
    | .list => []
    | _ => [c.collection.container]
  let rest := match c with
    | .scan _ _ pattern count => [pattern, toString count]
    | .read _ name => [name]
    | .write collection name payload mode => name :: mode.noted collection.kind payload
    | .remove _ name => [name]
  " ".intercalate (c.verb :: place ++ rest)

/-- A store with a probe before it. -/
structure Probe (σ : Type) where
  store : σ
  /-- The number of commands so far. -/
  calls : Nat
  /-- The number of rounds of scans among them. -/
  rounds : Nat
  /-- The notes of the commands, the last first. -/
  notes : List String
  /-- Whether all commands fail. -/
  failAll : Bool
  /-- The numbers of commands that fail. -/
  failAt : List Nat
  /-- What others do to the store just before the command of a number. -/
  hooks : List (Nat × (σ → σ))

namespace Probe

variable {σ : Type}

/-- A probe that lets everything through. -/
def ofStore (store : σ) : Probe σ := ⟨store, 0, 0, [], false, [], []⟩

/-- What others do before the command of a number, in order. -/
def interfere (p : Probe σ) (number : Nat) : σ :=
  p.hooks.foldl (fun store hook => if hook.1 = number then hook.2 store else store) p.store

/-- The probe with a command numbered and noted. -/
def observe (p : Probe σ) (c : Command) : Probe σ :=
  { p with
    store := p.interfere p.calls
    calls := p.calls + 1
    rounds := if c.isScan then p.rounds + 1 else p.rounds
    notes := c.note :: p.notes }

/-- Whether the command of a number fails. -/
def fails (p : Probe σ) (number : Nat) : Bool := p.failAll || p.failAt.contains number

/-- Passes a command on. -/
def perform (h : Handler σ) (c : Command) (p : Probe σ) : Except StoreError c.Answer × Probe σ :=
  let seen := p.observe c
  if p.fails p.calls then (.error (.unavailable "connection reset"), seen)
  else
    let r := h.perform c seen.store
    (r.1, { seen with store := r.2 })

/-- The probed store as its clients see it.  What others do may give a scan one more
round each. -/
def handler (h : Handler σ) : Handler (Probe σ) :=
  ⟨perform h, fun p => h.patience p.store + p.hooks.length⟩

end Probe

end KeyedRelations
