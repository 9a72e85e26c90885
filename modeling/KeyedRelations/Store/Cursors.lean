import KeyedRelations.Store.Error

/-!
# Open cursors

The places where scans go on.  A cursor is a number, issued once, that stands for
the last key that a round examined; going on from it uses it up.  Scans that are
abandoned never hand their cursor back, so once `capacity` cursors are open the
oldest are dropped.

Numbers are natural numbers here, while a store keeps the next one in 64 bits and starts
again when these are used up.  All that is said of cursors takes for granted that fewer than
`2 ^ 64 - 1` numbers are issued while a store is open, and then both ways to count agree.
-/

namespace KeyedRelations

/-- A key of a store: any bytes, in the order of their values. -/
abbrev Key := List UInt8

/-- The open cursors of a store. -/
structure Cursors where
  /-- How many cursors have been issued; they have the numbers from one on.  They are taken to
  be fewer than `2 ^ 64 - 1`, so that the next number is one of 64 bits. -/
  issued : Nat
  /-- The open cursors with their keys. -/
  opened : List (Nat × Key)
  deriving DecidableEq, Repr

namespace Cursors

/-- No cursor has been issued. -/
def empty : Cursors := ⟨0, []⟩

instance : Inhabited Cursors := ⟨empty⟩

/-- The number of open cursors from which old ones are dropped. -/
def capacity : Nat := 4096

/-- The next number to be issued; zero is never issued, since the count does not start again. -/
def next (t : Cursors) : Nat := t.issued + 1

/-- Issues a cursor for a key.  If `capacity` cursors are open, those that are at
least `capacity` numbers older are dropped. -/
def issue (t : Cursors) (key : Key) : Nat × Cursors :=
  let kept :=
    if capacity ≤ t.opened.length then t.opened.filter (t.next - capacity < ·.1) else t.opened
  (t.next, ⟨t.next, (t.next, key) :: kept⟩)

/-- Uses a cursor up: its key, if it is open, and the cursors without it. -/
def take? (t : Cursors) (cursor : Nat) : Option (Key × Cursors) :=
  (t.opened.find? (·.1 = cursor)).map fun e =>
    (e.2, { t with opened := t.opened.filter (·.1 ≠ cursor) })

end Cursors

end KeyedRelations
