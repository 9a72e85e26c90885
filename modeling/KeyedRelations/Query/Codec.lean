import KeyedRelations.Query
import KeyedRelations.Value.Codec

/-!
# Queries as bytes

The parts of a query one behind the other.
-/

namespace KeyedRelations

open Codec (word list option pair)

/-- Subjects as bytes. -/
def Subject.codec : Codec Subject :=
  (pair Codec.text Codec.text).iso (fun s => (s.name, s.entity)) fun p => ⟨p.1, p.2⟩

/-- Comparisons as bytes. -/
def Comparison.codec : Codec Comparison :=
  Codec.bool.iso (· = .glob) fun b => if b then .glob else .eq

/-- Predicates as bytes. -/
def Predicate.codec : Codec Predicate :=
  (pair (pair Codec.text Codec.text) (pair Comparison.codec Value.codec)).iso
    (fun p => ((p.subject, p.column), (p.op, p.value)))
    fun ((subject, column), (op, value)) => ⟨subject, column, op, value⟩

/-- Columns as bytes. -/
def ColumnRef.codec : Codec ColumnRef :=
  (pair Codec.text Codec.text).iso (fun c => (c.subject, c.column)) fun p => ⟨p.1, p.2⟩

/-- Assignments as bytes. -/
def Assignment.codec : Codec Assignment :=
  (pair Codec.text Value.codec).iso (fun a => (a.column, a.value)) fun p => ⟨p.1, p.2⟩

/-- Limits as bytes. -/
def Limit.codec : Codec Limit :=
  (pair word word).iso (fun l => (l.count, l.offset)) fun (count, offset) => ⟨count, offset⟩

/-- Queries as bytes. -/
def Query.codec : Codec Query :=
  (pair
    (pair (pair Codec.text (list Subject.codec))
      (pair (list Predicate.codec) (list ColumnRef.codec)))
    (pair (pair (list Assignment.codec) (option Limit.codec))
      (pair Codec.text (option Codec.text)))).iso
    (fun q => (((q.action, q.subjects), (q.predicates, q.columns)),
      ((q.assignments, q.limit), (q.text, q.storage))))
    fun (((action, subjects), (predicates, columns)), ((assignments, limit), (text, storage))) =>
      { action, subjects, predicates, columns, assignments, limit, text, storage }

end KeyedRelations
