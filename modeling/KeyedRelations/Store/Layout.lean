import KeyedRelations.SortedMap
import KeyedRelations.Store.Command
import KeyedRelations.Store.Cursors
import KeyedRelations.Text.Utf8

/-!
# Layout of the embedded store

Every structure has a tree of its own, from keys to stored forms.  The key of a
record is its name's bytes in a list, and elsewhere the container key, a zero byte
and the name, so a container is a contiguous range of keys and its key must not
hold a zero byte.

What lies below the store may write entries that the store itself never writes:
names that are no text, values that cannot be decoded, scores that are no double.
-/

namespace KeyedRelations

/-- What is stored under a key. -/
inductive Stored (α : Type) where
  | intact (a : α)
  /-- Bytes that stand for nothing. -/
  | damaged (raw : List UInt8)
  deriving DecidableEq, Repr

namespace Structure

/-- The stored form of what a record holds.  The value of a set's entry does not
matter, so it is never damaged. -/
abbrev Form : Structure → Type
  | .list | .hash => Stored Value
  | .set => Unit
  | .sortedSet => Stored Float

/-- The stored form of a payload. -/
def store : (s : Structure) → s.Payload → s.Form
  | .list, v | .hash, v => .intact v
  | .set, _ => ()
  | .sortedSet, f => .intact f

/-- The failure to decode a stored value. -/
def undecodable : StoreError := .codec (.decoding "undecodable value")

/-- What a record of a given name holds, from its stored form. -/
def load (name : String) : (s : Structure) → s.Form → Except StoreError s.Payload
  | .list, .intact v | .hash, .intact v => .ok v
  | .list, .damaged _ | .hash, .damaged _ => .error undecodable
  | .set, _ => .ok ()
  | .sortedSet, .intact f => .ok f
  | .sortedSet, .damaged _ => .error (.corrupt name)

/-- The double of eight bytes, the first the most significant. -/
def doubleOfBytes? (raw : List UInt8) : Option Float :=
  if raw.length = 8 then
    some (Float.ofBits (raw.foldl (fun n b => n * 256 + b.toUInt64) 0))
  else none

/-- The stored form of bytes that were put below the store: eight bytes are a double in
a sorted set, and no other bytes mean anything. -/
def ofRaw : (s : Structure) → List UInt8 → s.Form
  | .list, raw | .hash, raw => .damaged raw
  | .set, _ => ()
  | .sortedSet, raw => ((doubleOfBytes? raw).map Stored.intact).getD (.damaged raw)

/-- What a scan shows of a record of a given name, from its stored form. -/
def reveal (name : String) : (s : Structure) → s.Form → Except StoreError s.Item
  | .list, _ | .set, _ => .ok ()
  | .hash, form => load name .hash form
  | .sortedSet, form => load name .sortedSet form

end Structure

/-- The byte between a container key and a name. -/
def separator : UInt8 := 0

/-- The start of the keys of a collection. -/
def Collection.base (c : Collection) : Except StoreError Key :=
  match c.kind with
  | .list => .ok []
  | _ =>
    let container := Utf8.bytes c.container
    if separator ∈ container then .error (.invalidKey c.container)
    else .ok (container ++ [separator])

/-- The key of a record. -/
def Collection.keyOf (c : Collection) (name : String) : Except StoreError Key :=
  c.base.map (· ++ Utf8.bytes name)

/-- A tree of a store: stored forms by key. -/
abbrev Tree (s : Structure) : Type := SortedMap Key s.Form

/-- The trees of a store, one for each structure. -/
structure Trees where
  lists : Tree .list
  sets : Tree .set
  hashes : Tree .hash
  sortedSets : Tree .sortedSet
  deriving DecidableEq, Repr

namespace Trees

/-- Trees without entries. -/
def empty : Trees := ⟨.empty, .empty, .empty, .empty⟩

instance : Inhabited Trees := ⟨empty⟩

/-- The tree of a structure. -/
def tree (t : Trees) : (s : Structure) → Tree s
  | .list => t.lists
  | .set => t.sets
  | .hash => t.hashes
  | .sortedSet => t.sortedSets

/-- The trees with another tree for a structure. -/
def update (t : Trees) : (s : Structure) → Tree s → Trees
  | .list, m => { t with lists := m }
  | .set, m => { t with sets := m }
  | .hash, m => { t with hashes := m }
  | .sortedSet, m => { t with sortedSets := m }

@[simp]
theorem tree_update_self (t : Trees) (s : Structure) (m : Tree s) : (t.update s m).tree s = m := by
  cases s <;> rfl

theorem tree_update_of_ne (t : Trees) {s s' : Structure} (m : Tree s) (h : s' ≠ s) :
    (t.update s m).tree s' = t.tree s' := by
  cases s <;> cases s' <;> simp_all [update, tree]

/-- The number of entries in all trees. -/
def size (t : Trees) : Nat :=
  t.lists.size + t.sets.size + t.hashes.size + t.sortedSets.size

end Trees

end KeyedRelations
