import KeyedRelations.Config
import KeyedRelations.Store.Error

/-!
# Pools of store handles

A pool hands out handles to a store, at most so many at once, and keeps those that
come back for the next client.  New handles are opened one by one, and opening can
fail.  Several clients share a pool by steps that each happen at one go: taking an
idle handle, reserving a place for a new one, giving that place up again, returning
a handle, and dropping the idle ones.  `Pool.acquire` puts them together for a client
while no other takes a step.
-/

namespace KeyedRelations

/-- A store handle: the number of the attempt to open that made it. -/
abbrev HandleId := Nat

/-- A pool of store handles. -/
structure Pool where
  config : PoolConfig
  /-- Whether the attempt of a given number to open a handle succeeds. -/
  opening : Nat → Except StoreError Unit
  /-- The handles in the pool, the last returned first. -/
  idle : List HandleId
  /-- How many handles are out or being opened. -/
  checkedOut : Nat
  /-- How many attempts to open there have been. -/
  attempts : Nat

/-- What a pool shows of itself. -/
structure PoolStats where
  idle : Nat
  checkedOut : Nat
  maxHandles : Nat
  deriving DecidableEq, Repr

namespace Pool

/-- A pool that has not opened a handle yet. -/
def new (config : PoolConfig) (opening : Nat → Except StoreError Unit) : Pool :=
  ⟨config, opening, [], 0, 0⟩

/-- A pool whose handles can always be opened. -/
def ofConfig (config : PoolConfig) : Pool := new config fun _ => .ok ()

/-! ### Steps -/

/-- Takes an idle handle. -/
def takeIdle? (p : Pool) : Option (HandleId × Pool) :=
  match p.idle with
  | [] => none
  | handle :: idle => some (handle, { p with idle, checkedOut := p.checkedOut + 1 })

/-- Reserves the place of a handle that is to be opened. -/
def reserve? (p : Pool) : Option Pool :=
  if p.checkedOut < p.config.maxHandles then some { p with checkedOut := p.checkedOut + 1 }
  else none

/-- Tries to open a handle. -/
def openHandle (p : Pool) : Except StoreError HandleId × Pool :=
  ((p.opening p.attempts).map fun _ => p.attempts, { p with attempts := p.attempts + 1 })

/-- Gives a reserved place up. -/
def forfeit (p : Pool) : Pool := { p with checkedOut := p.checkedOut - 1 }

/-- Returns a handle. -/
def release (p : Pool) (handle : HandleId) : Pool :=
  { p with idle := handle :: p.idle, checkedOut := p.checkedOut - 1 }

/-- Drops the idle handles: their number, and the pool without them. -/
def clearIdle (p : Pool) : Nat × Pool := (p.idle.length, { p with idle := [] })

/-! ### Clients -/

/-- Gets a handle: an idle one, or else a new one if a place is free.  If none is,
nothing becomes free while the client waits. -/
def acquire (p : Pool) : Except StoreError HandleId × Pool :=
  match p.takeIdle? with
  | some (handle, p) => (.ok handle, p)
  | none =>
    match p.reserve? with
    | none => (.error (.acquireTimeout p.config.acquireTimeout), p)
    | some p =>
      match p.openHandle with
      | (.ok handle, p) => (.ok handle, p)
      | (.error e, p) => (.error e, p.forfeit)

/-- What the pool shows of itself. -/
def stats (p : Pool) : PoolStats := ⟨p.idle.length, p.checkedOut, p.config.maxHandles⟩

end Pool

end KeyedRelations
