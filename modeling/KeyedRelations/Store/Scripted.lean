import KeyedRelations.Scan.Cursor

/-!
# Scripted stores

A store that answers rounds of scans from a script, whatever they ask, and reads of
records from a table.  It shows what a client asks of a store that keeps no promise.
-/

namespace KeyedRelations

/-- Answers to rounds of scans, in order. -/
structure Feed (α : Type) where
  script : List (Except StoreError (Page α))
  /-- The number of answers that have been given. -/
  used : Nat
  /-- The cursors that were asked for, the last first. -/
  asked : List Nat

namespace Feed

variable {α : Type}

/-- A feed of which nothing has been used. -/
def ofScript (script : List (Except StoreError (Page α))) : Feed α := ⟨script, 0, []⟩

/-- The next answer; a script that is used up answers that it is. -/
def fetch (cursor : Nat) (f : Feed α) : Except StoreError (Page α) × Feed α :=
  ((f.script[f.used]?).getD (.error (.unavailable "script exhausted")),
    { f with used := f.used + 1, asked := cursor :: f.asked })

/-- The feed with its script started anew. -/
def rewind (f : Feed α) : Feed α := { f with used := 0 }

end Feed

/-- A store that answers scans and reads of one structure from a script. -/
structure Scripted (s : Structure) where
  feed : Feed (String × s.Item)
  values : List (String × Except StoreError s.Payload)
  /-- The commands that were sent, the last first. -/
  log : List Command

namespace Scripted

variable {s : Structure}

/-- The answer to a command that no script foresees. -/
def unforeseen : StoreError := .unavailable "unforeseen command"

/-- What the table holds for a name. -/
def value? (st : Scripted s) (name : String) : Except StoreError (Option s.Payload) :=
  match st.values.find? (·.1 = name) with
  | none => .ok none
  | some (_, .ok payload) => .ok (some payload)
  | some (_, .error e) => .error e

/-- Answers a command. -/
def perform (c : Command) (st : Scripted s) : Except StoreError c.Answer × Scripted s :=
  let st := { st with log := c :: st.log }
  match c with
  | .scan collection cursor _ _ =>
    if h : s = collection.kind then
      let r := st.feed.fetch cursor
      let page : Except StoreError (Page (String × collection.kind.Item)) := h ▸ r.1
      (page, { st with feed := r.2 })
    else (.error unforeseen, st)
  | .read collection name =>
    if h : s = collection.kind then
      let held : Except StoreError (Option collection.kind.Payload) := h ▸ st.value? name
      (held, st)
    else (.error unforeseen, st)
  | .write .. | .remove .. => (.error unforeseen, st)

/-- The scripted store as its clients see it. -/
def handler : Handler (Scripted s) := ⟨perform, fun st => st.feed.script.length + 1⟩

end Scripted

end KeyedRelations
