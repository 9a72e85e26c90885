import KeyedRelations.Codec
import KeyedRelations.Entity

/-!
# Entities as bytes

The parts of an entity one behind the other, its options in the order of their names.
-/

namespace KeyedRelations

/-- Maps as bytes: the list of their entries. -/
def SortedMap.codec {α : Type} (c : Codec α) : Codec (SortedMap String α) :=
  (Codec.list (Codec.text.pair c)).iso (·.entries) .ofList

/-- Entities as bytes. -/
def Entity.codec : Codec Entity :=
  (Codec.text.pair
    ((Codec.option Codec.text).pair (SortedMap.codec (SortedMap.codec Codec.text)))).iso
    (fun e => (e.name, e.keyPrefix, e.options))
    fun (name, keyPrefix, options) => { name, keyPrefix, options }

end KeyedRelations
