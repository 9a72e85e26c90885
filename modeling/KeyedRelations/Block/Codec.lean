import KeyedRelations.Block
import KeyedRelations.Value.Codec

/-!
# Blocks and results as bytes

The parts of a block one behind the other, and the blocks of a result in order.
-/

namespace KeyedRelations

open Codec (text list pair)

/-- Columns as bytes. -/
def Column.codec : Codec Column :=
  (pair text (list Value.codec)).iso (fun c => (c.name, c.values)) fun p => ⟨p.1, p.2⟩

/-- Blocks as bytes. -/
def Block.codec : Codec Block :=
  (pair (pair text text) (pair (list text) (list Column.codec))).iso
    (fun b => ((b.subject, b.entity), (b.keys, b.columns)))
    fun ((subject, entity), (keys, columns)) => ⟨subject, entity, keys, columns⟩

/-- Results as bytes. -/
def QueryResult.codec : Codec QueryResult :=
  (pair (list Block.codec) Codec.natural).iso (fun r => (r.blocks, r.affected))
    fun (blocks, affected) => ⟨blocks, affected⟩

end KeyedRelations
