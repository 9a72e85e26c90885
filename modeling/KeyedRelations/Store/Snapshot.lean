import KeyedRelations.Catalog
import KeyedRelations.Entity.Codec
import KeyedRelations.Value.Codec

/-!
# Snapshots

What outlives a program that used a store: the trees of the store and the stored
definitions of the catalog.  Open cursors and cached definitions do not.
-/

namespace KeyedRelations

/-- What outlives a program. -/
structure Snapshot where
  trees : Trees
  definitions : DefinitionTree
  deriving DecidableEq, Repr

namespace Snapshot

/-- The snapshot of a store that was never used. -/
def empty : Snapshot := ⟨.empty, .empty⟩

instance : Inhabited Snapshot := ⟨empty⟩

/-! ### As bytes -/

open Codec (bytes list pair)

/-- Stored forms as bytes. -/
def storedCodec {α : Type} (c : Codec α) : Codec (Stored α) where
  write
    | .intact a => 1 :: c.write a
    | .damaged raw => 0 :: bytes.write raw
  read
    | 1 :: rest => (c.read rest).map fun (a, rest) => (.intact a, rest)
    | 0 :: rest => (bytes.read rest).map fun (raw, rest) => (.damaged raw, rest)
    | _ => none

/-- Trees as bytes: the list of their entries. -/
def treeCodec {α : Type} (c : Codec α) : Codec (SortedMap Key α) :=
  (list (pair bytes c)).iso (·.entries) .ofList

/-- Snapshots as bytes. -/
def codec : Codec Snapshot :=
  (pair (pair (pair (treeCodec (storedCodec Value.codec)) (treeCodec Codec.unit))
      (pair (treeCodec (storedCodec Value.codec)) (treeCodec (storedCodec Codec.double))))
    (treeCodec (storedCodec Entity.codec))).iso
    (fun s =>
      (((s.trees.lists, s.trees.sets), (s.trees.hashes, s.trees.sortedSets)), s.definitions))
    fun (((lists, sets), (hashes, sortedSets)), definitions) =>
      ⟨⟨lists, sets, hashes, sortedSets⟩, definitions⟩

end Snapshot

end KeyedRelations
