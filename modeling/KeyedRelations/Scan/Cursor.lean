import KeyedRelations.Store.Command

/-!
# Rounds of a scan

A scan is a sequence of rounds.  Each hands the store a cursor and gets a page,
possibly an empty one, with the cursor of the next; it is over when that cursor
is zero.  Zero is also the cursor of the first round, so a scan keeps apart
whether it has started.

After a round that failed a scan is over too, until it is restarted.
-/

namespace KeyedRelations

/-- Where a scan stands. -/
inductive ScanCursor where
  /-- Before its first round. -/
  | start
  /-- Before a further round from a cursor. -/
  | at (cursor : Nat)
  /-- Over. -/
  | done
  deriving DecidableEq, Repr

namespace ScanCursor

/-- The cursor to hand to the store for the next round, if there is one. -/
def position? : ScanCursor → Option Nat
  | .start => some 0
  | .at cursor => some cursor
  | .done => none

/-- Where a scan stands after a round that answered `cursor`. -/
def advance (_ : ScanCursor) (cursor : Nat) : ScanCursor :=
  if cursor = 0 then .done else .at cursor

/-- Whether the scan is over. -/
def isDone : ScanCursor → Bool
  | .done => true
  | _ => false

end ScanCursor

/-- A scan under way: where it stands, and its rounds since it was last started. -/
structure Paging where
  cursor : ScanCursor
  rounds : Nat
  deriving DecidableEq, Repr

namespace Paging

variable {σ ε α : Type}

/-- A scan before its first round. -/
def start : Paging := ⟨.start, 0⟩

/-- The scan started anew. -/
def restart (_ : Paging) : Paging := start

/-- The scan after a round that was answered. -/
def answered (p : Paging) (cursor : Nat) : Paging :=
  ⟨p.cursor.advance cursor, p.rounds + 1⟩

/-- The scan after a round that failed. -/
def failed (p : Paging) : Paging := ⟨.done, p.rounds + 1⟩

/-- One round through `fetch`, unless the scan is over: the items of the page or
the failure, the scan after it, and the state that `fetch` leaves. -/
def next (fetch : Nat → σ → Except ε (Page α) × σ) (p : Paging) (s : σ) :
    Option (Except ε (List α)) × Paging × σ :=
  match p.cursor.position? with
  | none => (none, p, s)
  | some cursor =>
    match fetch cursor s with
    | (.ok page, s) => (some (.ok page.items), p.answered page.cursor, s)
    | (.error e, s) => (some (.error e), p.failed, s)

end Paging

/-- The items of `found` and then those of `items` whose names are new, each name
once. -/
def addNew {α : Type} (found items : List (String × α)) : List (String × α) :=
  items.foldl (fun found item =>
    if found.any (·.1 = item.1) then found else found ++ [item]) found

/-- Rounds until the scan is over, collecting items by `addNew`; the first failure
ends it.  `none` if it is not over within the given number of rounds. -/
def Paging.drain {σ ε α : Type} (fetch : Nat → σ → Except ε (Page (String × α)) × σ) :
    Nat → Paging → List (String × α) → σ → Option (Except ε (List (String × α))) × σ
  | 0, p, found, s => (if p.cursor.isDone then some (.ok found) else none, s)
  | rounds + 1, p, found, s =>
    match p.next fetch s with
    | (none, _, s) => (some (.ok found), s)
    | (some (.error e), _, s) => (some (.error e), s)
    | (some (.ok items), p, s) => drain fetch rounds p (addNew found items) s

end KeyedRelations
