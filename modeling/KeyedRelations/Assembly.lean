import KeyedRelations.Block
import KeyedRelations.Entity
import KeyedRelations.Records

/-!
# From records to blocks

The records of a subject become a block whose keys are natural keys.  Its `key`
column holds the full names, and what the records hold stands in the payload column
of their structure, if it has one.
-/

namespace KeyedRelations.Block

/-- The column of full names. -/
def nameColumn (names : List String) : Column := ⟨keyColumn, names.map Value.text⟩

/-- The column of what records hold. -/
def payloadColumns {s : Structure} (found : Records s) : List Column :=
  s.payloadColumn?.toList.map fun name => ⟨name, found.map fun r => s.value r.2⟩

/-- The block of records that were read for a subject. -/
def ofRecords (name : String) (entity : Entity) {s : Structure} (found : Records s) : Block where
  subject := name
  entity := entity.name
  keys := found.names.map entity.naturalKey
  columns := nameColumn found.names :: payloadColumns found

/-- The block of records that were written or removed. -/
def ofNames (name : String) (entity : Entity) (names : List String) : Block where
  subject := name
  entity := entity.name
  keys := names.map entity.naturalKey
  columns := [nameColumn names]

/-- The block with columns of given names only, in their order; all of them if none is
given.  The first name that the block lacks is the error. -/
def project (b : Block) (names : List String) : Except String Block :=
  if names.isEmpty then .ok b
  else (pick b names).map fun columns => { b with columns }
where
  /-- The columns of given names. -/
  pick (b : Block) : List String → Except String (List Column)
    | [] => .ok []
    | name :: rest =>
      match b.column? name with
      | none => .error name
      | some column => (pick b rest).map (column :: ·)

end KeyedRelations.Block
