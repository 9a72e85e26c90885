import KeyedRelations.Assembly
import KeyedRelations.Entity.Json
import KeyedRelations.Error
import KeyedRelations.Text.Csv
import KeyedRelations.Text.Grid

/-!
# Presentation

What a client shows its user, in one of three formats: tables for a terminal, JSON, and
comma-separated values.  A block with a column shorter than its keys has no rows, and a
result with such a block cannot be shown.
-/

namespace KeyedRelations

/-- A format in which things are shown. -/
inductive OutputFormat where
  | table
  | json
  | csv
  deriving DecidableEq, Repr

namespace OutputFormat

/-- All formats. -/
def all : List OutputFormat := [.table, .json, .csv]

/-- The name of a format. -/
def name : OutputFormat → String
  | .table => "table"
  | .json => "json"
  | .csv => "csv"

/-- The format of a name. -/
def ofName? (name : String) : Option OutputFormat := all.find? (·.name = name)

end OutputFormat

/-- The text of a value in a cell. -/
def Value.cell : Value → String
  | .null => "NULL"
  | v => v.display

/-- The document of a value in a row: bytes are shown by their text. -/
def Value.shown : Value → Json
  | .bytes b => .text (Value.bytes b).display
  | v => v.toJson

/-- The object of members of different names, which come in the order of the names; of
several with one name the last counts. -/
def Json.sorted (members : List (String × Json)) : Json :=
  .record (SortedMap.ofList members).entries

namespace Block

/-- The column that shows the natural keys. -/
def idColumn : String := "id"

/-- The names above the columns. -/
def header (b : Block) : List String := idColumn :: b.columns.map (·.name)

/-- The cells of the rows. -/
def cells? (b : Block) : Option (List (List String)) :=
  b.rows?.map fun rows => rows.map fun row => row.1 :: row.2.map fun field => field.2.cell

/-- The block as a table under its subject and above the number of its rows. -/
def table? (b : Block) : Option String :=
  b.cells?.map fun rows =>
    b.subject ++ " (" ++ b.entity ++ ")\n" ++ (Text.Grid.mk b.header rows).draw ++ "\n"
      ++ toString b.size ++ " row(s)"

/-- The block as comma-separated values.  The names of columns are never quoted. -/
def csv? (b : Block) : Option String :=
  b.cells?.map fun rows => Text.Csv.document (b.header :: rows.map (·.map Text.Csv.cell))

/-- One row as an object. -/
def rowJson (row : String × List (String × Value)) : Json :=
  .sorted ((idColumn, .text row.1) :: row.2.map fun field => (field.1, field.2.shown))

/-- The rows as an array. -/
def rowsJson? (b : Block) : Option Json := b.rows?.map fun rows => .array (rows.map rowJson)

end Block

namespace QueryResult

/-- The blocks as tables one below the other. -/
def tables? (r : QueryResult) : Option String :=
  if r.blocks.isEmpty then some "No results"
  else (r.blocks.mapM Block.table?).map ("\n\n".intercalate ·)

/-- The rows of a single subject, or an object of the rows of several by their aliases. -/
def json? (r : QueryResult) : Option Json :=
  match r.blocks with
  | [] => some (.array [])
  | [block] => block.rowsJson?
  | blocks =>
    (blocks.mapM fun (b : Block) => b.rowsJson?.map fun rows => (b.subject, rows)).map .sorted

/-- The first block as comma-separated values. -/
def csv? (r : QueryResult) : Option String :=
  match r.primary? with
  | none => some ""
  | some block => block.csv?

/-- The natural keys in all blocks. -/
def keys (r : QueryResult) : List String := r.blocks.flatMap (·.keys)

end QueryResult

/-- The document of a report. -/
def Report.toJson (r : Report) : Json :=
  .sorted [("kind", .text r.kind.word), ("template", .text r.template),
    ("fields", .sorted (r.fields.entries.map fun f => (f.1, .text f.2))),
    ("message", .text r.message)]

namespace OutputFormat

/-- What a query read; `none` if a block has no rows. -/
def read? (f : OutputFormat) (r : QueryResult) : Option String :=
  match f with
  | .table => r.tables?
  | .json => r.json?.map Json.pretty
  | .csv => r.csv?

/-- What a query wrote or removed. -/
def written (f : OutputFormat) (r : QueryResult) : String :=
  match f with
  | .table =>
    toString r.affected ++ " row(s) affected"
      ++ if r.keys.isEmpty then "" else ": " ++ ", ".intercalate r.keys
  | .json =>
    (Json.sorted [("affected", .integer r.affected),
      ("keys", .array (r.keys.map Json.text))]).compact
  | .csv =>
    Text.Csv.document (["affected", "key"] ::
      r.keys.map fun key => [toString r.affected, Text.Csv.cell key])

/-- An error. -/
def error (f : OutputFormat) (r : Report) : String :=
  match f with
  | .table => "Error: " ++ r.message
  | .json => (Json.record [("error", r.toJson)]).compact
  | .csv => "kind,error\n" ++ r.kind.word ++ "," ++ Text.Csv.cell r.message

/-- A message. -/
def message (f : OutputFormat) (text : String) : String :=
  match f with
  | .json => (Json.record [("message", .text text)]).compact
  | .table | .csv => text

/-- Entities. -/
def entities (f : OutputFormat) (es : List Entity) : String :=
  match f with
  | .table =>
    (Text.Grid.mk ["Entity", "Structure", "Container", "Key prefix"] (es.map fun e =>
      [e.name, e.kind.name, e.containerKey, e.namePrefix])).draw
  | .json => Entity.listToText es
  | .csv =>
    Text.Csv.document (["entity", "structure", "container", "key_prefix"] ::
      es.map fun e => [Text.Csv.cell e.name, e.kind.name, Text.Csv.cell e.containerKey,
        Text.Csv.cell e.namePrefix])

end OutputFormat

end KeyedRelations
