import Mathlib.Data.List.Induction
import KeyedRelations.Text.Csv

/-!
# Reading comma-separated values

The grammar of RFC 4180 for records that a newline ends, and a reader of it that takes one character
after the other.  Any character but a comma, a quote and the two of a line break can stand in a cell
without quotes; between quotes all can, a quote being written twice.

What a comma means depends on all that stands in front of it: it ends a cell or belongs to one.  So
what the reader keeps is related to everything that it has taken: records, then cells, then a part
of a cell (`Reader.Has`).  One character keeps that (`Reader.Has.step`), and so does any number of
them.  The reader takes the texts of the grammar and no others (`read?_eq_some_iff`), and no text
is spelled by two lists of records.
-/

namespace KeyedRelations.Text.Csv

/-! ### The grammar -/

/-- Characters that can stand in a cell without quotes. -/
def Bare (c : Char) : Prop := c ∉ [',', '"', '\n', '\r']

theorem bare_iff {c : Char} : Bare c ↔ c ≠ ',' ∧ c ≠ '"' ∧ c ≠ '\n' ∧ c ≠ '\r' := by simp [Bare]

/-- The way to write a text between quotes. -/
inductive SpellsQuoted : List Char → List Char → Prop
  | nil : SpellsQuoted [] []
  | quote {cs ds : List Char} (h : SpellsQuoted cs ds) :
      SpellsQuoted (cs ++ ['"']) (ds ++ ['"', '"'])
  | other {c : Char} {cs ds : List Char} (hc : c ≠ '"') (h : SpellsQuoted cs ds) :
      SpellsQuoted (cs ++ [c]) (ds ++ [c])

/-- The ways to write a cell. -/
inductive SpellsCell : List Char → List Char → Prop
  | bare {cs : List Char} (h : ∀ c ∈ cs, Bare c) : SpellsCell cs cs
  | quoted {cs ds : List Char} (h : SpellsQuoted cs ds) : SpellsCell cs ('"' :: (ds ++ ['"']))

/-- The ways to write cells, each with a comma behind it. -/
inductive SpellsCells : List String → List Char → Prop
  | nil : SpellsCells [] []
  | comma {cells : List String} {cell : String} {cs ds : List Char} (h : SpellsCells cells cs)
      (hcell : SpellsCell cell.toList ds) : SpellsCells (cells ++ [cell]) (cs ++ (ds ++ [',']))

theorem SpellsCells.eq_nil {cs : List Char} (h : SpellsCells [] cs) : cs = [] := by
  generalize hnone : ([] : List String) = cells at h
  cases h with
  | nil => rfl
  | comma _ _ => simp at hnone

/-- **The ways to write records**, each with a newline behind its last cell. -/
inductive Spells : List (List String) → List Char → Prop
  | nil : Spells [] []
  | newline {records : List (List String)} {cells : List String} {cell : String}
      {cs ds es : List Char} (h : Spells records cs) (hcells : SpellsCells cells ds)
      (hcell : SpellsCell cell.toList es) :
      Spells (records ++ [cells ++ [cell]]) (cs ++ (ds ++ (es ++ ['\n'])))

/-! ### The reader -/

/-- Where a reader is: at the start of a cell, in one without quotes, between quotes, or behind a
quote that ends the cell if it is not written twice. -/
inductive Place where
  | start
  | bare
  | quoted
  | closed
  deriving DecidableEq, Repr

/-- What a reader keeps: the text of the cell it is in, the cells in front of that, and the records
in front of those. -/
structure Reader where
  place : Place
  cell : List Char
  cells : List String
  records : List (List String)

namespace Reader

/-- The reader that has taken nothing. -/
def initial : Reader := ⟨.start, [], [], []⟩

/-- The reader behind a character of the cell it is in. -/
def take (r : Reader) (place : Place) (c : Char) : Reader := { r with place, cell := r.cell ++ [c] }

/-- The reader behind a comma between cells. -/
def comma (r : Reader) : Reader :=
  { r with place := .start, cell := [], cells := r.cells ++ [.ofList r.cell] }

/-- The reader behind the newline of a record. -/
def newline (r : Reader) : Reader :=
  ⟨.start, [], [], r.records ++ [r.cells ++ [.ofList r.cell]]⟩

/-- What a reader does with one character, if it can stand where the reader is. -/
def step (r : Reader) (c : Char) : Option Reader :=
  match r.place, c with
  | .quoted, '"' => some { r with place := .closed }
  | .quoted, c => some (r.take .quoted c)
  | .closed, '"' => some (r.take .quoted '"')
  | .start, '"' => some { r with place := .quoted }
  | _, ',' => some r.comma
  | _, '\n' => some r.newline
  | .bare, '"' | .closed, _ | _, '\r' => none
  | _, c => some (r.take .bare c)

/-- What a reader does with a text. -/
def run (r : Reader) (cs : List Char) : Option Reader := cs.foldlM step r

/-- The records a reader has taken, if nothing is behind them. -/
def records? (r : Reader) : Option (List (List String)) :=
  if r.place = .start ∧ r.cells = [] then some r.records else none

end Reader

/-- The records of a text, if it is in the grammar. -/
def read? (text : String) : Option (List (List String)) :=
  (Reader.initial.run text.toList).bind Reader.records?

namespace Reader

variable {r r' : Reader} {text : List Char} {cells : List String} {records : List (List String)}

theorem run_cons (r : Reader) (c : Char) (cs : List Char) :
    r.run (c :: cs) = (r.step c).bind (·.run cs) := List.foldlM_cons

theorem run_cons_of_step {c : Char} {cs : List Char} (h : r.step c = some r') :
    r.run (c :: cs) = r'.run cs := by
  rw [run_cons, h, Option.bind_some]

theorem run_append_of_run {cs ds : List Char} (h : r.run cs = some r') :
    r.run (cs ++ ds) = r'.run ds := by
  have happend : r.run (cs ++ ds) = (r.run cs).bind (·.run ds) := List.foldlM_append
  rw [happend, h, Option.bind_some]

/-! ### What has been taken -/

/-- What has been taken of a cell, by the place where that leaves the reader. -/
inductive Started : Place → List Char → List Char → Prop
  | start : Started .start [] []
  | bare {cs : List Char} (h : ∀ c ∈ cs, Bare c) : Started .bare cs cs
  | quoted {cs ds : List Char} (h : SpellsQuoted cs ds) : Started .quoted cs ('"' :: ds)
  | closed {cs ds : List Char} (h : SpellsQuoted cs ds) :
      Started .closed cs ('"' :: (ds ++ ['"']))

/-- A cell can end anywhere but between quotes. -/
theorem Started.spells {place : Place} {cs ds : List Char} (h : Started place cs ds)
    (hplace : place ≠ .quoted) : SpellsCell cs ds := by
  cases h with
  | start => exact .bare (by simp)
  | bare h => exact .bare h
  | quoted _ => exact (hplace rfl).elim
  | closed h => exact .quoted h

theorem Started.eq_nil {cs ds : List Char} (h : Started .start cs ds) : ds = [] := by
  cases h
  rfl

/-- **All that a reader has taken**: records, then cells, then a part of a cell. -/
inductive Has (r : Reader) : List Char → Prop
  | parts {cs ds es : List Char} (h : Spells r.records cs) (hcells : SpellsCells r.cells ds)
      (hcell : Started r.place r.cell es) : Has r (cs ++ (ds ++ es))

theorem has_initial : initial.Has [] := by
  have hnone : initial.Has ([] ++ ([] ++ [])) := .parts .nil .nil .start
  exact hnone

/-- **One character** is added to what a reader has taken. -/
theorem Has.step (h : r.Has text) (c : Char) : ∀ r' ∈ r.step c, r'.Has (text ++ [c]) := by
  obtain @⟨cs, ds, es, h, hcells, hcell⟩ := h
  obtain ⟨place, cell, cells, records⟩ := r
  rw [List.append_assoc, List.append_assoc]
  have hinside {place : Place} {cell : List Char} (hcell : Started place cell (es ++ [c])) :
      Has ⟨place, cell, cells, records⟩ (cs ++ (ds ++ (es ++ [c]))) := .parts h hcells hcell
  have hended (hplace : place ≠ .quoted) : SpellsCell (String.ofList cell).toList es := by
    rw [String.toList_ofList]
    exact hcell.spells hplace
  fun_cases Reader.step ⟨place, cell, cells, records⟩ c with
  | case1 hplace =>
      rintro _ ⟨⟩
      obtain rfl : place = .quoted := hplace
      cases hcell with
      | quoted h => exact hinside (.closed h)
  | case2 c hc hplace =>
      rintro _ ⟨⟩
      obtain rfl : place = .quoted := hplace
      cases hcell with
      | quoted h => exact hinside (.quoted (.other hc h))
  | case3 hplace =>
      rintro _ ⟨⟩
      -- the quote before this one did not end the cell, so both of them stand for one
      obtain rfl : place = .closed := hplace
      cases hcell with
      | closed h => exact hinside (by simpa using Started.quoted (.quote h))
  | case4 hplace =>
      rintro _ ⟨⟩
      obtain rfl : place = .start := hplace
      cases hcell with
      | start => exact hinside (.quoted .nil)
  | case5 hplace =>
      rintro _ ⟨⟩
      have hall := hcells.comma (hended hplace)
      simpa using Has.parts (r := .comma ⟨place, cell, cells, records⟩) h hall .start
  | case6 hplace =>
      rintro _ ⟨⟩
      have hall := h.newline hcells (hended hplace)
      simpa using Has.parts (r := .newline ⟨place, cell, cells, records⟩) hall .nil .start
  | case7 | case8 | case9 => rintro _ ⟨⟩
  | case10 c hcomma hnewline hreturn _ hquoted _ hstart hbare hclosed =>
      rintro _ ⟨⟩
      -- a quote is refused here or has been dealt with, but why depends on the place
      have hc (hquote : c ≠ '"') : Bare c := bare_iff.mpr ⟨hcomma, hquote, hnewline, hreturn⟩
      cases hcell with
      | start => exact hinside (.bare (by simpa using hc (hstart rfl)))
      | bare h =>
          refine hinside (.bare fun x hx => ?_)
          rcases List.mem_append.mp hx with hx | hx
          · exact h x hx
          · obtain rfl := List.mem_singleton.mp hx
            exact hc (hbare rfl)
      | quoted _ => exact (hquoted rfl).elim
      | closed _ => exact (hclosed rfl).elim

/-- **A text** is added to what a reader has taken, one character after the other. -/
theorem Has.run (h : r.Has text) (cs : List Char) : ∀ r' ∈ r.run cs, r'.Has (text ++ cs) := by
  induction cs generalizing r text with
  | nil =>
      rintro _ ⟨⟩
      simpa using h
  | cons c cs ih =>
      intro r' hr'
      obtain ⟨next, hnext, hrest⟩ := Option.bind_eq_some_iff.mp (run_cons r c cs ▸ hr')
      simpa using ih (h.step c next hnext) r' hrest

/-- If a reader has taken records with nothing behind them, it has taken their text. -/
theorem Has.spells (h : r.Has text) (hrecords : r.records? = some records) :
    Spells records text := by
  obtain ⟨⟨hplace, hcells⟩, ⟨⟩⟩ := Option.ite_none_right_eq_some.mp hrecords
  obtain @⟨cs, ds, es, h, hds, hes⟩ := h
  rw [hcells] at hds
  rw [hplace] at hes
  rw [hds.eq_nil, hes.eq_nil]
  simpa using h

/-! ### What can be taken -/

theorem step_comma (h : r.place ≠ .quoted) : r.step ',' = some r.comma := by
  obtain ⟨place, cell, cells, records⟩ := r
  cases place with
  | quoted => exact (h rfl).elim
  | start | bare | closed => rfl

theorem step_newline (h : r.place ≠ .quoted) : r.step '\n' = some r.newline := by
  obtain ⟨place, cell, cells, records⟩ := r
  cases place with
  | quoted => exact (h rfl).elim
  | start | bare | closed => rfl

theorem step_quoted {c : Char} (hc : c ≠ '"') (h : r.place = .quoted) :
    r.step c = some (r.take .quoted c) := by
  fun_cases Reader.step r c <;> simp_all

theorem step_bare {c : Char} (hc : Bare c) (h : r.place = .start ∨ r.place = .bare) :
    r.step c = some (r.take .bare c) := by
  obtain ⟨hcomma, hquote, hnewline, hreturn⟩ := bare_iff.mp hc
  fun_cases Reader.step r c <;> simp_all

/-- The text of a cell without quotes is taken. -/
theorem run_bare {cs : List Char} (h : ∀ c ∈ cs, Bare c) :
    ∃ place, (place = .start ∨ place = .bare) ∧
      run ⟨.start, [], cells, records⟩ cs = some ⟨place, cs, cells, records⟩ := by
  induction cs using List.reverseRecOn with
  | nil => exact ⟨.start, Or.inl rfl, rfl⟩
  | append_singleton cs c ih =>
      obtain ⟨place, hplace, hrun⟩ := ih fun x hx => h x (List.mem_append_left _ hx)
      have hc : Bare c := h c List.mem_concat_self
      refine ⟨.bare, Or.inr rfl, ?_⟩
      rw [run_append_of_run hrun, run_cons_of_step (step_bare hc hplace)]
      rfl

/-- The text of a cell between quotes is taken up to the last quote. -/
theorem run_quoted {cs ds : List Char} (h : SpellsQuoted cs ds) :
    run ⟨.quoted, [], cells, records⟩ ds = some ⟨.quoted, cs, cells, records⟩ := by
  induction h with
  | nil => rfl
  | quote h ih =>
      rw [run_append_of_run ih]
      rfl
  | other hc h ih =>
      rw [run_append_of_run ih, run_cons_of_step (step_quoted hc rfl)]
      rfl

/-- The text of a cell is taken. -/
theorem run_cell {cs ds : List Char} (h : SpellsCell cs ds) :
    ∃ place, place ≠ .quoted ∧
      run ⟨.start, [], cells, records⟩ ds = some ⟨place, cs, cells, records⟩ := by
  cases h with
  | bare h =>
      obtain ⟨place, hplace, hrun⟩ := run_bare h
      exact ⟨place, by rcases hplace with rfl | rfl <;> decide, hrun⟩
  | @quoted ds h =>
      have hopen : step ⟨.start, [], cells, records⟩ '"' = some ⟨.quoted, [], cells, records⟩ := rfl
      refine ⟨.closed, by decide, ?_⟩
      rw [run_cons_of_step hopen, run_append_of_run (run_quoted h)]
      rfl

/-- The text of cells is taken. -/
theorem run_cells {cs : List Char} (h : SpellsCells cells cs) :
    run ⟨.start, [], [], records⟩ cs = some ⟨.start, [], cells, records⟩ := by
  induction h with
  | nil => rfl
  | comma h hcell ih =>
      obtain ⟨place, hplace, hrun⟩ := run_cell hcell
      rw [run_append_of_run ih, run_append_of_run hrun, run_cons_of_step (step_comma hplace), comma,
        String.ofList_toList]
      rfl

/-- **The text of records is taken.** -/
theorem run_initial {cs : List Char} (h : Spells records cs) :
    initial.run cs = some ⟨.start, [], [], records⟩ := by
  induction h with
  | nil => rfl
  | newline h hcells hcell ih =>
      obtain ⟨place, hplace, hrun⟩ := run_cell hcell
      rw [run_append_of_run ih, run_append_of_run (run_cells hcells), run_append_of_run hrun,
        run_cons_of_step (step_newline hplace), newline, String.ofList_toList]
      rfl

end Reader

/-- **The reader takes the texts of the grammar**, and no others. -/
theorem read?_eq_some_iff {text : String} {records : List (List String)} :
    read? text = some records ↔ Spells records text.toList := by
  constructor
  · intro h
    obtain ⟨r, hrun, hrecords⟩ := Option.bind_eq_some_iff.mp h
    exact (Reader.has_initial.run text.toList r hrun).spells hrecords
  · intro h
    rw [read?, Reader.run_initial h]
    rfl

example : read? "id,key\n\"a,\"\"b\r\n\",\n" = some [["id", "key"], ["a,\"b\r\n", ""]] ∧
    read? "a\"b\n" = none := by decide

/-- No text is spelled by two lists of records. -/
theorem Spells.unique {text : List Char} {records records' : List (List String)}
    (h : Spells records text) (h' : Spells records' text) : records = records' := by
  have hruns := (Reader.run_initial h).symm.trans (Reader.run_initial h')
  simpa using hruns

/-! ### The writer -/

/-- What is written in two pieces is written as one. -/
theorem SpellsQuoted.append {cs ds cs' ds' : List Char} (h : SpellsQuoted cs ds)
    (h' : SpellsQuoted cs' ds') : SpellsQuoted (cs ++ cs') (ds ++ ds') := by
  induction h' with
  | nil => simpa using h
  | quote _ ih => simpa using ih.quote
  | other hc _ ih => simpa using ih.other hc

theorem spellsQuoted_doubleQuotes (cs : List Char) : SpellsQuoted cs (doubleQuotes cs) := by
  induction cs with
  | nil => exact .nil
  | cons c cs ih =>
      rw [doubleQuotes]
      split
      next hquote =>
        obtain rfl := hquote
        exact SpellsQuoted.append (.quote .nil) ih
      next hother => exact SpellsQuoted.append (.other hother .nil) ih

theorem bare_iff_needsQuotes {c : Char} : Bare c ↔ needsQuotes c = false := by
  simp [bare_iff, needsQuotes, and_assoc]

/-- Every cell is written as the grammar has it. -/
theorem spellsCell_cellChars (cs : List Char) : SpellsCell cs (cellChars cs) := by
  rw [cellChars]
  split
  next => exact .quoted (spellsQuoted_doubleQuotes cs)
  next hnone =>
    have hnone : ∀ c ∈ cs, needsQuotes c = false := by simpa using hnone
    exact .bare fun c hc => bare_iff_needsQuotes.mpr (hnone c hc)

/-- A text that needs no quotes is its own cell. -/
theorem cell_eq_self {text : String} (h : ∀ c ∈ text.toList, Bare c) : cell text = text := by
  have hnone : ¬ text.toList.any needsQuotes := by
    simpa using fun c hc => bare_iff_needsQuotes.mp (h c hc)
  rw [cell, cellChars, if_neg hnone, String.ofList_toList]

theorem spellsCells_flatMap (cells : List String) :
    SpellsCells cells (cells.flatMap fun text => cellChars text.toList ++ [',']) := by
  induction cells using List.reverseRecOn with
  | nil => exact .nil
  | append_singleton cells text ih =>
      rw [List.flatMap_append, List.flatMap_singleton]
      exact ih.comma (spellsCell_cellChars _)

/-- The text of a record that is written, its last cell apart. -/
theorem toList_record (cells : List String) (last : String) :
    (record ((cells ++ [last]).map cell)).toList =
      (cells.flatMap fun text => cellChars text.toList ++ [',']) ++
        (cellChars last.toList ++ ['\n']) := by
  rw [record, String.toList_append, List.map_append]
  induction cells with
  | nil => simp [cell]
  | cons first cells ih =>
      have hnext : cells.map cell ++ [last].map cell ≠ [] := by simp
      rw [List.map_cons, List.cons_append, String.intercalate_cons_of_ne_nil hnext,
        String.toList_append, List.append_assoc, ih]
      simp [cell]

/-- A record is written behind the others. -/
theorem Spells.record {records : List (List String)} {cs : List Char} (h : Spells records cs)
    {cells : List String} (hcells : cells ≠ []) :
    Spells (records ++ [cells]) (cs ++ (record (cells.map cell)).toList) := by
  rcases List.eq_nil_or_concat cells with rfl | ⟨front, last, rfl⟩
  · exact (hcells rfl).elim
  · rw [List.concat_eq_append, toList_record]
    exact h.newline (spellsCells_flatMap front) (spellsCell_cellChars last.toList)

/-- **What is written is in the grammar**, if every record has a cell. -/
theorem spells_document {records : List (List String)} (h : ∀ cells ∈ records, cells ≠ []) :
    Spells records (document (records.map (·.map cell))).toList := by
  induction records using List.reverseRecOn with
  | nil => exact .nil
  | append_singleton records cells ih =>
      have hall := ih fun cells hcells => h cells (List.mem_append_left _ hcells)
      have hlast := hall.record (h cells List.mem_concat_self)
      simpa [document] using hlast

end KeyedRelations.Text.Csv
