import KeyedRelations.Error
import KeyedRelations.Proofs.SortedMap
import KeyedRelations.Proofs.Text.Template

/-!
# Reports and messages

A report is rendered by putting its fields into the template one after the other, in the order of
their names, while the message of an error is its template filled at once.  So a text of one field
that holds the hole of a later one comes out changed (`render_report`), and a report need not be
rendered as the message that it shows (`render_ne_message`).
-/

namespace KeyedRelations.QueryError

open Text (IsPlain Piece Template fillWritten holeChars putFields)

/-! ### Templates and fields -/

theorem apart_template (e : QueryError) : e.template.Apart := by
  cases e <;> constructor <;> simp [template, Piece.Apart]

theorem isPlain_of_mem_fields {e : QueryError} : ∀ f ∈ e.fields, IsPlain f.1 := by
  cases e <;> simp [fields, Origin.fields, IsPlain]

theorem nodup_names (e : QueryError) : (e.fields.map (·.1)).Nodup := by
  cases e <;> simp [fields, Origin.fields]

/-- Every hole has its field. -/
theorem holes_subset (e : QueryError) : e.template.holes ⊆ e.fields.map (·.1) := by
  cases e <;> simp [fields, Origin.fields, template, Template.holes]

variable {e : QueryError} {f : String × String}

theorem mem_entries_report : f ∈ e.report.fields.entries ↔ f ∈ e.fields :=
  SortedMap.mem_entries_ofList e.nodup_names

theorem field?_of_mem (hf : f ∈ e.fields) : e.field? f.1 = some f.2 :=
  Text.field?_of_mem e.nodup_names hf

/-! ### Rendering -/

/-- The fields that are put in after the one of a name. -/
def fieldsBehind (e : QueryError) (name : String) : Text.Fields :=
  e.report.fields.entries.filter (name < ·.1)

/-- The text of a field, with the fields of later names put into it. -/
def overfill (e : QueryError) (f : String × String) : String :=
  fillWritten f.2 (e.fieldsBehind f.1)

/-- What stands in the hole of a name in a message. -/
def textOf (e : QueryError) (name : String) : List Char := ((e.field? name).getD "").toList

theorem textOf_of_mem (hf : f ∈ e.fields) : e.textOf f.1 = f.2.toList := by
  rw [textOf, field?_of_mem hf, Option.getD_some]

theorem isPlain_of_mem_fieldsBehind {name : String} : ∀ f ∈ e.fieldsBehind name, IsPlain f.1 :=
  fun f hf => isPlain_of_mem_fields f (mem_entries_report.mp (List.mem_filter.mp hf).1)

theorem message_eq (e : QueryError) : e.message = .ofList (e.template.put e.textOf) := by
  refine Template.fill_eq fun name hname => ?_
  obtain ⟨f, hf, rfl⟩ := List.mem_map.mp (e.holes_subset hname)
  rw [Text.field?_of_mem e.nodup_names hf, textOf_of_mem hf, Option.map_some]

/-- **What is rendered**: in every hole stands its text, with the fields of later names put in. -/
theorem render_eq (e : QueryError) : e.report.render =
    .ofList (e.template.put fun name => putFields (e.textOf name) (e.fieldsBehind name)) := by
  have hplain : ∀ f ∈ e.report.fields.entries, IsPlain f.1 :=
    fun f hf => isPlain_of_mem_fields f (mem_entries_report.mp hf)
  have hreport : e.report.render = fillWritten e.template.written e.report.fields.entries := rfl
  rw [hreport, Template.written_eq, Text.fillWritten_ofList, e.apart_template.putFields_put hplain]
  refine congrArg _ (Template.put_congr fun name hname => ?_)
  obtain ⟨f, hf, rfl⟩ := List.mem_map.mp (e.holes_subset hname)
  rw [textOf_of_mem hf]
  exact Text.putFields_holeChars e.report.fields.ascending (mem_entries_report.mpr hf)
    (isPlain_of_mem_fields f hf)

theorem fill_overfilled (e : QueryError) :
    e.template.fill (e.fields.map fun f => (f.1, e.overfill f)) =
      .ofList (e.template.put fun name => putFields (e.textOf name) (e.fieldsBehind name)) := by
  have hnames : ((e.fields.map fun f => (f.1, e.overfill f)).map (·.1)).Nodup := by
    simpa [Function.comp_def] using e.nodup_names
  refine Template.fill_eq fun name hname => ?_
  obtain ⟨f, hf, rfl⟩ := List.mem_map.mp (e.holes_subset hname)
  have hfilled := List.mem_map_of_mem (f := fun f => (f.1, e.overfill f)) hf
  rw [Text.field?_of_mem hnames hfilled, Option.map_some, textOf_of_mem hf, overfill,
    Text.fillWritten_eq, String.toList_ofList]

/-- Only braces let a text be changed by other fields. -/
theorem overfill_of_not_mem (h : '\x7b' ∉ f.2.toList) : e.overfill f = f.2 := by
  rw [overfill, Text.fillWritten_eq, Text.putFields_of_not_mem h, String.ofList_toList]

/-- **When a report renders to its message.**  Rendering fills every hole with the text of its
field, into which the fields of later names have been put as well.  The result is the message of the
error exactly if that changes no text in a hole, as with texts that have no braces. -/
theorem render_report (e : QueryError) :
    e.report.render = e.template.fill (e.fields.map fun f => (f.1, e.overfill f)) ∧
      (e.report.render = e.message ↔
        ∀ f ∈ e.fields, f.1 ∈ e.template.holes → e.overfill f = f.2) ∧
      ((∀ f ∈ e.fields, '\x7b' ∉ f.2.toList) → e.report.render = e.message) := by
  have hiff : e.report.render = e.message ↔
      ∀ f ∈ e.fields, f.1 ∈ e.template.holes → e.overfill f = f.2 := by
    rw [render_eq, message_eq, String.ofList_inj, e.apart_template.put_eq_put_iff fun name =>
      Text.splitsAtBlanks_putFields isPlain_of_mem_fieldsBehind]
    constructor
    · intro hsame f hf hhole
      have htext := hsame f.1 hhole
      rw [textOf_of_mem hf] at htext
      rw [overfill, Text.fillWritten_eq, htext, String.ofList_toList]
    · intro hsame name hname
      obtain ⟨f, hf, rfl⟩ := List.mem_map.mp (e.holes_subset hname)
      have htext := congrArg String.toList (hsame f hf hname)
      rwa [overfill, Text.fillWritten_eq, String.toList_ofList, ← textOf_of_mem hf] at htext
  refine ⟨e.render_eq.trans e.fill_overfilled.symm, hiff, fun hplain => ?_⟩
  exact hiff.mpr fun f hf _ => overfill_of_not_mem (hplain f hf)

/-- The error of a query without subjects whose text is the hole of the storage. -/
def askedForStorage : QueryError := .noSubjects ⟨"kv", "\x7bstorage\x7d"⟩

/-- Its report is not rendered as the message: the storage is put into the query. -/
theorem render_ne_message :
    askedForStorage.report.render = "Query on storage kv has no subjects: kv" ∧
      askedForStorage.message = "Query on storage kv has no subjects: \x7bstorage\x7d" ∧
      askedForStorage.report.render ≠ askedForStorage.message := by
  decide +kernel

end KeyedRelations.QueryError
