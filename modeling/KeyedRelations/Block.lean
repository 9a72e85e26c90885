import KeyedRelations.Value.Json

/-!
# Record blocks

What a query answers: for each subject a block of records in columns, beside the
natural keys of the records.  A column of a block that is read may be shorter than
its keys; such a block has no rows.
-/

namespace KeyedRelations

/-- A column: a name, and a value for each record. -/
structure Column where
  name : String
  values : List Value
  deriving DecidableEq, Repr

/-- Equality of columns, whose values are compared as values. -/
def Column.equals (a b : Column) : Bool := a.name == b.name && a.values.isEqv b.values Value.equals

/-- The records of one subject. -/
structure Block where
  /-- The alias of the subject. -/
  subject : String
  entity : String
  /-- The natural keys of the records. -/
  keys : List String
  columns : List Column
  deriving DecidableEq, Repr

namespace Block

/-- Equality of blocks, whose values are compared as values. -/
def equals (a b : Block) : Bool :=
  a.subject == b.subject && a.entity == b.entity && a.keys == b.keys
    && a.columns.isEqv b.columns Column.equals

/-- The number of records. -/
def size (b : Block) : Nat := b.keys.length

/-- The first column of a name. -/
def column? (b : Block) (name : String) : Option Column := b.columns.find? (·.name = name)

/-- The value in a row of a column. -/
def get? (b : Block) (row : Nat) (column : String) : Option Value :=
  (b.column? column).bind (·.values[row]?)

/-- The value in a column for the first record of a natural key. -/
def lookup? (b : Block) (key column : String) : Option Value :=
  (b.keys.findIdx? (· = key)).bind (b.get? · column)

/-- The fields of one row, if every column reaches it. -/
def row? (b : Block) (row : Nat) : Option (List (String × Value)) :=
  b.columns.mapM fun c => (c.values[row]?).map fun v => (c.name, v)

/-- The natural keys with the fields of their rows, if every column is long enough. -/
def rows? (b : Block) : Option (List (String × List (String × Value))) :=
  b.keys.zipIdx.mapM fun k => (b.row? k.2).map fun fields => (k.1, fields)

/-- The document of a block. -/
def toJson (b : Block) : Json :=
  .record [("subject", .text b.subject), ("entity", .text b.entity),
    ("keys", .array (b.keys.map Json.text)),
    ("columns", .array (b.columns.map fun c =>
      .record [("name", .text c.name), ("values", .array (c.values.map Value.toJson))]))]

end Block

/-- The answer to a query: blocks in the order of its subjects, and the number of
records that it wrote or removed. -/
structure QueryResult where
  blocks : List Block
  affected : Nat
  deriving DecidableEq, Repr

namespace QueryResult

/-- The answer without records. -/
def empty : QueryResult := ⟨[], 0⟩

/-- The answer of a query that read. -/
def ofRead (blocks : List Block) : QueryResult := ⟨blocks, 0⟩

/-- The answer of a query that wrote or removed the records of a block. -/
def ofWrite (block : Block) : QueryResult := ⟨[block], block.size⟩

/-- The first block of an alias. -/
def block? (r : QueryResult) (name : String) : Option Block := r.blocks.find? (·.subject = name)

/-- The first block. -/
def primary? (r : QueryResult) : Option Block := r.blocks.head?

/-- The number of records in all blocks. -/
def size (r : QueryResult) : Nat := r.blocks.foldl (fun n b => n + b.size) 0

end QueryResult

end KeyedRelations
