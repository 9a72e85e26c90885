import KeyedRelations.Glob
import KeyedRelations.Store.Layout

/-!
# The embedded store

A store held by the program itself: its trees, and the cursors of scans under way.

A scan round takes the keys of a collection that start with the literal prefix of
its pattern, in key order, from the place of its cursor; it examines at most
`count` of them (at least one) and shows those whose names match.  It stops at the
first key that does not start so.  If it examined as many as it may, it opens a
cursor at the last of them, and otherwise the scan is over.
-/

namespace KeyedRelations

/-- An embedded store. -/
structure Store where
  trees : Trees
  cursors : Cursors
  deriving DecidableEq, Repr

namespace Store

/-- A store without records. -/
def empty : Store := ⟨.empty, .empty⟩

instance : Inhabited Store := ⟨empty⟩

/-- A store on given trees, with no cursor open. -/
def ofTrees (trees : Trees) : Store := ⟨trees, .empty⟩

/-! ### Scans -/

/-- Where a scan round starts. -/
inductive Bound where
  /-- At a key or behind it. -/
  | atOrAfter (key : Key)
  /-- Behind a key. -/
  | after (key : Key)
  deriving DecidableEq, Repr

/-- Whether a key lies before the start. -/
def Bound.excludes : Bound → Key → Bool
  | .atOrAfter start, key => key < start
  | .after start, key => !(start < key)

/-- The entries that a round examines: from `bound`, those whose keys start with
`range`, at most `limit`. -/
def examine {α : Type} (entries : List (Key × α)) (bound : Bound) (range : Key) (limit : Nat) :
    List (Key × α) :=
  ((entries.dropWhile fun e => bound.excludes e.1).takeWhile fun e => range.isPrefixOf e.1).take
    limit

/-- What a round shows of an examined entry, whose name stands behind `skip` bytes of
its key: nothing if the name does not match. -/
def visit (s : Structure) (skip : Nat) (pattern : String) (e : Key × s.Form) :
    Except StoreError (Option (String × s.Item)) :=
  match Utf8.text? (e.1.drop skip) with
  | none => .error (.corrupt (Utf8.lossyText e.1))
  | some name =>
    if Glob.accepts pattern name then (s.reveal name e.2).map fun item => some (name, item)
    else .ok none

/-- What a round shows of the examined entries, in order; the first failure counts. -/
def visitAll (s : Structure) (skip : Nat) (pattern : String) :
    List (Key × s.Form) → Except StoreError (List (String × s.Item))
  | [] => .ok []
  | e :: rest =>
    match visit s skip pattern e with
    | .error e => .error e
    | .ok shown =>
      match visitAll s skip pattern rest with
      | .error e => .error e
      | .ok items => .ok (shown.toList ++ items)

/-- Where the round of a cursor starts, and the cursors without it; at the start of
the range for cursor zero. -/
def resume? (cursors : Cursors) (cursor : Nat) (range : Key) : Option (Bound × Cursors) :=
  if cursor = 0 then some (.atOrAfter range, cursors)
  else (cursors.take? cursor).map fun t => (.after t.1, t.2)

/-- The cursor of the next round: one at the last examined key if as many entries as
allowed were examined, and else zero. -/
def nextCursor {α : Type} (cursors : Cursors) (examined : List (Key × α)) (limit : Nat) :
    Nat × Cursors :=
  match examined.getLast? with
  | some last => if examined.length = limit then cursors.issue last.1 else (0, cursors)
  | none => (0, cursors)

/-- One round of a scan. -/
def scan (c : Collection) (cursor : Nat) (pattern : String) (count : Nat) (st : Store) :
    Except StoreError (Page (String × c.kind.Item)) × Store :=
  match c.base with
  | .error e => (.error e, st)
  | .ok base =>
    let range := base ++ Utf8.bytes (Glob.literalPrefix pattern)
    match resume? st.cursors cursor range with
    | none => (.error (.unknownCursor cursor), st)
    | some (bound, cursors) =>
      let limit := max count 1
      let examined := examine (st.trees.tree c.kind).entries bound range limit
      match visitAll c.kind base.length pattern examined with
      | .error e => (.error e, { st with cursors })
      | .ok items =>
        let next := nextCursor cursors examined limit
        (.ok ⟨next.1, items⟩, { st with cursors := next.2 })

/-! ### Single records -/

/-- What the record of a name holds. -/
def read (c : Collection) (name : String) (st : Store) :
    Except StoreError (Option c.kind.Payload) :=
  match c.keyOf name with
  | .error e => .error e
  | .ok key =>
    match (st.trees.tree c.kind).get? key with
    | none => .ok none
    | some form => (c.kind.load name form).map some

/-- Writes the record of a name, if the mode lets it; answers whether it did.

A member of a set holds nothing but its name.  To add one and be told whether it is new is to write
it in the mode `.ifAbsent`, which answers false for a member that is there.  The mode `.always` is
for writers that replace records: it leaves such a member as it is, like the other, but answers that
it was written, since the writer counts it as replaced. -/
def write (c : Collection) (name : String) (payload : c.kind.Payload) (mode : WriteMode)
    (st : Store) : Except StoreError Bool × Store :=
  match c.keyOf name with
  | .error e => (.error e, st)
  | .ok key =>
    let tree := st.trees.tree c.kind
    if mode.permits (tree.contains key) then
      (.ok true,
        { st with trees := st.trees.update c.kind (tree.insert key (c.kind.store payload)) })
    else (.ok false, st)

/-- Removes the record of a name. -/
def remove (c : Collection) (name : String) (st : Store) : Except StoreError Bool × Store :=
  match c.keyOf name with
  | .error e => (.error e, st)
  | .ok key =>
    let tree := st.trees.tree c.kind
    (.ok (tree.contains key), { st with trees := st.trees.update c.kind (tree.erase key) })

/-- Carries a command out. -/
def perform : (c : Command) → Store → Except StoreError c.Answer × Store
  | .scan c cursor pattern count, st => st.scan c cursor pattern count
  | .read c name, st => (st.read c name, st)
  | .write c name payload mode, st => st.write c name payload mode
  | .remove c name, st => st.remove c name

/-! ### What clients cannot do -/

/-- Puts bytes under a key, below the store. -/
def putRaw (s : Structure) (key : Key) (raw : List UInt8) (st : Store) : Store :=
  { st with trees := st.trees.update s ((st.trees.tree s).insert key (s.ofRaw raw)) }

/-- Opens a number of scans by one round each and abandons them: the cursor of the last,
or the first failure. -/
def abandonScans (c : Collection) (pattern : String) (count : Nat) :
    (times : Nat) → (last : Nat) → Store → Except StoreError Nat × Store
  | 0, last, st => (.ok last, st)
  | times + 1, _, st =>
    match st.scan c 0 pattern count with
    | (.error e, st) => (.error e, st)
    | (.ok page, st) => abandonScans c pattern count times page.cursor st

/-- The embedded store as its clients see it.  Each round of a scan but the last
examines a key behind those before, so a scan has at most one round more than the
store has entries. -/
def handler : Handler Store := ⟨perform, fun st => st.trees.size + 1⟩

end Store

end KeyedRelations
