import Mathlib
import KeyedRelations.Presentation
import KeyedRelations.Proofs.Storage.Execution
import KeyedRelations.Proofs.Text.Csv

/-!
# What is shown reads back

The comma-separated values of a result show its first block, and a reader of the grammar gets that
back: the names of the columns, then each key with the texts of the values in its row
(`OutputFormat.csv_reads_back`).  Keys and values can be any texts.  The names of columns are not
quoted, so they have to be such that need no quotes, as those of all blocks are that queries answer
(`Storage.regular_of_execute`).
-/

namespace KeyedRelations

namespace Block

variable {b b' : Block}

/-- **Blocks as queries answer them**: even columns, with the names that structures give them. -/
structure Regular (b : Block) : Prop where
  even : ∀ c ∈ b.columns, c.values.length = b.keys.length
  named : ∀ c ∈ b.columns, c.name ∈ ["key", "value", "score"]

/-- The records that show a block: the names above its columns, then each key with the texts of
the values in its row. -/
def records (b : Block) : List (List String) :=
  ("id" :: b.columns.map (·.name)) ::
    b.keys.zipIdx.map fun k => k.1 :: b.columns.map fun c => ((c.values[k.2]?).getD .null).cell

/-- The rows of even columns are shown. -/
theorem cells?_of_even (h : ∀ c ∈ b.columns, c.values.length = b.keys.length) :
    b.cells? = some b.records.tail := by
  rw [cells?, rows?_of_even h]
  simp [records]

/-- The names above regular columns need no quotes. -/
theorem Regular.map_cell_header (h : b.Regular) : b.header.map Text.Csv.cell = b.header := by
  have hbare : ∀ name ∈ ["id", "key", "value", "score"], ∀ c ∈ name.toList, Text.Csv.Bare c := by
    simp [Text.Csv.bare_iff]
  have hnames : ∀ name ∈ b.header, name ∈ ["id", "key", "value", "score"] := by
    intro name hname
    rcases List.mem_cons.mp hname with rfl | hname
    · exact List.mem_cons_self
    · obtain ⟨c, hc, rfl⟩ := List.mem_map.mp hname
      exact List.mem_cons_of_mem _ (h.named c hc)
  calc b.header.map Text.Csv.cell
      = b.header.map id := List.map_congr_left fun name hname =>
          Text.Csv.cell_eq_self (hbare name (hnames name hname))
    _ = b.header := List.map_id _

/-- A regular block is shown by its records. -/
theorem Regular.csv?_eq (h : b.Regular) :
    b.csv? = some (Text.Csv.document (b.records.map (·.map Text.Csv.cell))) := by
  rw [csv?, cells?_of_even h.even, Option.map_some]
  congr 2
  rw [← h.map_cell_header]
  rfl

/-! ### Blocks of queries -/

theorem regular_ofNames (name : String) (entity : Entity) (names : List String) :
    (ofNames name entity names).Regular := by
  constructor <;> simp [ofNames, nameColumn, keyColumn]

theorem regular_ofRecords {s : Structure} (name : String) (entity : Entity) (found : Records s) :
    (ofRecords name entity found).Regular := by
  constructor
  case even => exact even_ofRecords name entity found
  case named =>
    intro c hc
    rcases mem_columns_ofRecords hc with rfl | ⟨hpayload, -⟩
    · exact List.mem_cons_self
    · cases s <;> simp_all [Structure.payloadColumn?]

/-- Picking columns leaves a block regular. -/
theorem Regular.project (h : b.Regular) {names : List String} (hp : b.project names = .ok b') :
    b'.Regular := by
  obtain ⟨-, hkeys, -, hmem⟩ := project_eq_ok hp
  exact ⟨fun c hc => hkeys ▸ h.even c (hmem c hc), fun c hc => h.named c (hmem c hc)⟩

end Block

/-- **Queries answer regular blocks.** -/
theorem Storage.regular_of_execute {σ : Type} {handler : Handler σ} {s s' : Storage σ} {q : Query}
    {main : Option Entity} {result : QueryResult}
    (h : s.execute handler q main = (.ok result, s')) : ∀ b ∈ result.blocks, b.Regular := by
  have hdispatch : (s.dispatch handler q main).1 = .ok result := by
    rw [← execute_fst, h]
  cases haction : q.resolvedAction? with
  | none => simp [dispatch, haction] at hdispatch
  | some action =>
  cases hplan : s.planner.plan q main with
  | error e => simp [dispatch, haction, hplan] at hdispatch
  | ok plan =>
      rw [dispatch_of_plan haction hplan] at hdispatch
      split at hdispatch
      next hwrite =>
        obtain ⟨-, -, -, names, -, -, rfl⟩ := write_eq_ok (Prod.ext hdispatch rfl)
        intro b hb
        obtain rfl := List.mem_singleton.mp hb
        exact Block.regular_ofNames _ _ _
      next hread =>
        intro b hb
        obtain ⟨p, found, hproject⟩ := exists_found_of_mem hdispatch hb
        exact (Block.regular_ofRecords _ _ _).project hproject

/-! ### Reading back -/

/-- **The comma-separated values of a result read back.**  Whatever the keys and the values of its
first block are, if that is regular, there is a text that shows the result, and what the text spells
are the records of the block and nothing else: the names above its columns, then a record for each
row with the key and the text of each value.  The reader gets them from the text. -/
theorem OutputFormat.csv_reads_back {r : QueryResult} {b : Block} (hb : r.primary? = some b)
    (hregular : b.Regular) :
    ∃ text, csv.read? r = some text ∧ Text.Csv.read? text = some b.records ∧
      ∀ records, Text.Csv.Spells records text.toList ↔ records = b.records := by
  have hcells : ∀ cells ∈ b.records, cells ≠ [] := by
    intro cells hcells
    rcases List.mem_cons.mp hcells with rfl | hcells
    · simp
    · obtain ⟨k, -, rfl⟩ := List.mem_map.mp hcells
      simp
  have hspells := Text.Csv.spells_document hcells
  refine ⟨_, ?_, Text.Csv.read?_eq_some_iff.mpr hspells, fun records => ?_⟩
  · rw [OutputFormat.read?, QueryResult.csv?, hb]
    exact hregular.csv?_eq
  · constructor
    · exact fun h => h.unique hspells
    · rintro rfl
      exact hspells

/-- A block whose texts need quotes, or are empty, or break lines. -/
def awkward : Block where
  subject := "b"
  entity := "board"
  keys := ["a,b", ""]
  columns := [⟨"key", [.text "\"q\"", .text "x\r\ny"]⟩, ⟨"value", [.null, .bytes [0]]⟩]

theorem OutputFormat.csv_reads_back_awkward :
    awkward.Regular ∧ ∃ text, csv.read? ⟨[awkward], 0⟩ = some text ∧
      Text.Csv.read? text = some [["id", "key", "value"], ["a,b", "\"q\"", "NULL"],
        ["", "x\r\ny", "0x00"]] := by
  have hregular : awkward.Regular := ⟨by decide, by decide⟩
  obtain ⟨text, hshown, hread, -⟩ := csv_reads_back (r := ⟨[awkward], 0⟩) rfl hregular
  refine ⟨hregular, text, hshown, hread.trans (congrArg some ?_)⟩
  cbv

end KeyedRelations
