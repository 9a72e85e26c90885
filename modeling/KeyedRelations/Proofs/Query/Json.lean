import Mathlib.Data.List.Forall2
import KeyedRelations.Proofs.Json.Printing
import KeyedRelations.Proofs.Json.Rewriting
import KeyedRelations.Query.Json

/-!
# Queries and their documents

The document of a query says what the query is: read back, it gives the same query, unless there is
a double in it, whose numeral may be read as a neighbour.  A value is written without a tag, so that
this needs every kind of value to be told from what is written (`Value.ofJson_toJson`).

The document may be written otherwise: with members of any object in another order, without members
that are the default of their field, with members of unknown names, and with any spelling of all
that (`Query.rewriting`, `Json.Spelling`).
-/

namespace KeyedRelations

/-! ### Values -/

namespace Json.Numeral

theorem value?_ofInt_of_nonneg {n : Nat} (h : n < UInt64.size) :
    (ofInt n).value? = some (.natural (.ofNat n)) := by
  have hsign : ¬ (n : Int) < 0 := by omega
  simp [value?, ofInt, hsign, h]

theorem value?_ofInt_of_neg {i : Int} (hsign : i < 0) (h : -(UInt64.size / 2 : Nat) ≤ i) :
    (ofInt i).value? = some (.negative (.ofInt i)) := by
  have hbound : i.natAbs < UInt64.size := by
    simp only [UInt64.size] at h ⊢
    omega
  have hwhole : 0 < i.natAbs ∧ i.natAbs ≤ UInt64.size / 2 := by
    simp only [UInt64.size] at h ⊢
    omega
  have habs : -(i.natAbs : Int) = i := by omega
  have hpositive : ¬ 0 ≤ i := by omega
  rw [value?, ofInt]
  simp only [List.isEmpty_nil, Option.isNone_none, hbound, hsign]
  rw [if_pos (by simp), if_neg (by simp), if_pos hwhole, habs]

/-- The numeral of an integer of 64 bits stands for it: below zero as such, otherwise as a natural
number. -/
theorem value?_ofInt_toInt (i : Int64) : (ofInt i.toInt).value? = some (.negative i) ∨
    ∃ n : UInt64, n.toNat = i.toInt ∧ (ofInt i.toInt).value? = some (.natural n) := by
  have hlt := i.toInt_lt
  have hle := i.le_toInt
  by_cases hsign : i.toInt < 0
  · have hvalue := value?_ofInt_of_neg hsign (by simpa [UInt64.size] using hle)
    rw [Int64.ofInt_toInt] at hvalue
    exact Or.inl hvalue
  · obtain ⟨n, hn⟩ : ∃ n : Nat, i.toInt = n := ⟨i.toInt.toNat, by omega⟩
    have hbound : n < UInt64.size := by
      simp only [UInt64.size]
      omega
    refine Or.inr ⟨.ofNat n, ?_, ?_⟩
    · rw [UInt64.toNat_ofNat_of_lt' hbound, hn]
    · rw [hn, value?_ofInt_of_nonneg hbound]

end Json.Numeral

namespace Value

/-- Signed integers are read as such. -/
theorem ofJson_integer (i : Int64) : ofJson (.integer i.toInt) = .ok (.int i) := by
  have hlt := i.toInt_lt
  rcases Json.Numeral.value?_ofInt_toInt i with hvalue | ⟨n, hn, hvalue⟩
  · simp only [ofJson, Json.integer, hvalue, ofNumber]
  · have hhalf : n.toNat < Int64.size / 2 := by
      simp only [Int64.size]
      omega
    have hi : n.toInt64 = i := by
      refine Int64.toInt_inj.mp ?_
      rw [← hn, ← UInt64.ofNat_toNat (x := n), UInt64.toInt64_ofNat', UInt64.ofNat_toNat,
        Int64.toInt_ofNat_of_lt (by omega)]
    simp only [ofJson, Json.integer, hvalue, ofNumber]
    rw [if_pos hhalf, hi]

/-- Bytes are read as bytes. -/
theorem byte?_integer (x : UInt8) : byte? (.integer x.toNat) = some x := by
  have hx := x.toNat_lt
  have hvalue := Json.Numeral.value?_ofInt_of_nonneg (n := x.toNat) (by simp [UInt64.size]; omega)
  have hsmall : x.toUInt64 < 256 := by
    rw [UInt64.lt_iff_toNat_lt]
    simpa using hx
  simp [byte?, Json.integer, hvalue, hsmall]

/-- **Values are told apart**: the document of a value that is no double is read as the value. -/
theorem ofJson_toJson {v : Value} (h : ∀ f, v ≠ .float f) : ofJson v.toJson = .ok v := by
  cases v with
  | null => rfl
  | bool b => rfl
  | int i => exact ofJson_integer i
  | float f => exact (h f rfl).elim
  | text s => rfl
  | bytes b =>
      have hbytes : (b.map fun x => Json.integer x.toNat).mapM byte? = some b := by
        rw [List.mapM_map]
        simpa [Function.comp_def, byte?_integer] using List.mapM_pure (m := Option) (f := id)
      rw [toJson, ofJson, hbytes]

end Value

/-! ### The parts of a query -/

open Json (InItems InOption InRecord Rewriting Takes)

theorem Json.takes_asText (s : String) : Takes asText Eq (.text s) s := takes_eq_iff.mpr rfl

theorem Json.takes_asWord (n : UInt64) : Takes asWord Eq (.integer n.toNat) n := by
  have hvalue := Json.Numeral.value?_ofInt_of_nonneg n.toNat_lt
  rw [UInt64.ofNat_toNat] at hvalue
  exact takes_eq_iff.mpr (by simp [asWord, integer, hvalue])

/-- How the document of a subject may be rewritten. -/
def Subject.rewriting : Rewriting := InRecord [⟨"alias", none, Eq⟩, ⟨"entity", none, Eq⟩]

theorem Subject.rewriting_refl (s : Subject) : rewriting s.toJson s.toJson :=
  Json.inRecord_refl (.cons ⟨rfl, rfl⟩ (.cons ⟨rfl, rfl⟩ .nil))

theorem Subject.takes_ofJson (s : Subject) : Takes ofJson rewriting s.toJson s := by
  have halias := Json.takes_asText s.name
  have hentity := Json.takes_asText s.entity
  refine Json.Shape.takes_decode (by decide)
    (.cons (halias.passes _ _) (.cons (hentity.passes _ _) .nil)) fun written hholds => ?_
  obtain _ | ⟨h₁, _ | ⟨h₂, _⟩⟩ := hholds
  simp only [Json.required_eq_ok h₁ halias, Json.required_eq_ok h₂ hentity]
  rfl

theorem Comparison.takes_ofJson (op : Comparison) : Takes ofJson Eq (.text op.name) op := by
  refine Json.takes_eq_iff.mpr ?_
  cases op <;> rfl

/-- How the document of a predicate may be rewritten. -/
def Predicate.rewriting : Rewriting :=
  InRecord [⟨"subject", none, Eq⟩, ⟨"column", none, Eq⟩, ⟨"op", none, Eq⟩, ⟨"value", none, Eq⟩]

theorem Predicate.rewriting_refl (p : Predicate) : rewriting p.toJson p.toJson :=
  Json.inRecord_refl
    (.cons ⟨rfl, rfl⟩ (.cons ⟨rfl, rfl⟩ (.cons ⟨rfl, rfl⟩ (.cons ⟨rfl, rfl⟩ .nil))))

theorem Predicate.takes_ofJson {p : Predicate} (hp : ∀ f, p.value ≠ .float f) :
    Takes ofJson rewriting p.toJson p := by
  have hsubject := Json.takes_asText p.subject
  have hcolumn := Json.takes_asText p.column
  have hop := p.op.takes_ofJson
  have hvalue := Json.takes_eq_iff.mpr (Value.ofJson_toJson hp)
  refine Json.Shape.takes_decode (by decide)
    (.cons (hsubject.passes _ _) (.cons (hcolumn.passes _ _)
      (.cons (hop.passes _ _) (.cons (hvalue.passes _ _) .nil)))) fun written hholds => ?_
  obtain _ | ⟨h₁, _ | ⟨h₂, _ | ⟨h₃, _ | ⟨h₄, _⟩⟩⟩⟩ := hholds
  simp only [Json.required_eq_ok h₁ hsubject, Json.required_eq_ok h₂ hcolumn,
    Json.required_eq_ok h₃ hop, Json.required_eq_ok h₄ hvalue]
  rfl

/-- How the document of a column may be rewritten. -/
def ColumnRef.rewriting : Rewriting := InRecord [⟨"subject", none, Eq⟩, ⟨"column", none, Eq⟩]

theorem ColumnRef.rewriting_refl (c : ColumnRef) : rewriting c.toJson c.toJson :=
  Json.inRecord_refl (.cons ⟨rfl, rfl⟩ (.cons ⟨rfl, rfl⟩ .nil))

theorem ColumnRef.takes_ofJson (c : ColumnRef) : Takes ofJson rewriting c.toJson c := by
  have hsubject := Json.takes_asText c.subject
  have hcolumn := Json.takes_asText c.column
  refine Json.Shape.takes_decode (by decide)
    (.cons (hsubject.passes _ _) (.cons (hcolumn.passes _ _) .nil)) fun written hholds => ?_
  obtain _ | ⟨h₁, _ | ⟨h₂, _⟩⟩ := hholds
  simp only [Json.required_eq_ok h₁ hsubject, Json.required_eq_ok h₂ hcolumn]
  rfl

/-- How the document of an assignment may be rewritten. -/
def Assignment.rewriting : Rewriting := InRecord [⟨"column", none, Eq⟩, ⟨"value", none, Eq⟩]

theorem Assignment.rewriting_refl (a : Assignment) : rewriting a.toJson a.toJson :=
  Json.inRecord_refl (.cons ⟨rfl, rfl⟩ (.cons ⟨rfl, rfl⟩ .nil))

theorem Assignment.takes_ofJson {a : Assignment} (ha : ∀ f, a.value ≠ .float f) :
    Takes ofJson rewriting a.toJson a := by
  have hcolumn := Json.takes_asText a.column
  have hvalue := Json.takes_eq_iff.mpr (Value.ofJson_toJson ha)
  refine Json.Shape.takes_decode (by decide)
    (.cons (hcolumn.passes _ _) (.cons (hvalue.passes _ _) .nil)) fun written hholds => ?_
  obtain _ | ⟨h₁, _ | ⟨h₂, _⟩⟩ := hholds
  simp only [Json.required_eq_ok h₁ hcolumn, Json.required_eq_ok h₂ hvalue]
  rfl

/-- How the document of a limit may be rewritten: an offset of zero may be left out. -/
def Limit.rewriting : Rewriting :=
  InRecord [⟨"count", none, Eq⟩, ⟨"offset", some (.integer 0), Eq⟩]

theorem Limit.rewriting_refl (l : Limit) : rewriting l.toJson l.toJson :=
  Json.inRecord_refl (.cons ⟨rfl, rfl⟩ (.cons ⟨rfl, rfl⟩ .nil))

theorem Limit.takes_ofJson (l : Limit) : Takes ofJson rewriting l.toJson l := by
  have hcount := Json.takes_asWord l.count
  have hoffset := Json.takes_asWord l.offset
  refine Json.Shape.takes_decode (by decide)
    (.cons (hcount.passes _ _) (.cons (hoffset.passes _ _) .nil)) fun written hholds => ?_
  obtain _ | ⟨h₁, _ | ⟨h₂, _⟩⟩ := hholds
  have hzero : some (Json.integer 0) = some (.integer l.offset.toNat) → l.offset = 0 := by
    intro heq
    have hint : (0 : Int) = l.offset.toNat := by
      have hnumeral := Json.number.inj (Option.some.inj heq)
      have habs : (0 : Int).natAbs = (l.offset.toNat : Int).natAbs :=
        congrArg Json.Numeral.whole hnumeral
      omega
    refine UInt64.toNat_inj.mp ?_
    simpa using hint.symm
  simp only [Json.required_eq_ok h₁ hcount, Json.optional_eq_ok h₂ hoffset hzero]
  rfl

theorem Limit.takes_asOption (l : Option Limit) :
    Takes (Json.asOption ofJson) (InOption rewriting) (Json.option toJson l) l := by
  cases l with
  | none =>
      rintro _ (⟨-, rfl⟩ | ⟨members, kept, extra, written, hnull, -⟩)
      · rfl
      · cases hnull
  | some l =>
      rintro j' (⟨hnull, -⟩ | hj)
      · cases hnull
      · have htakes := l.takes_ofJson j' hj
        obtain ⟨members, kept, extra, written, -, rfl, -⟩ := hj
        rw [Json.asOption, htakes]
        · rfl
        · simp

theorem Json.takes_asOption_text (s : Option String) :
    Takes (asOption asText) Eq (option text s) s := by
  refine takes_eq_iff.mpr ?_
  cases s <;> rfl

/-! ### Queries -/

/-- How the document of a query may be rewritten: only the action must be there. -/
def Query.rewriting : Rewriting :=
  InRecord [⟨"action", none, Eq⟩,
    ⟨"subjects", some (.array []), InItems Subject.rewriting⟩,
    ⟨"predicates", some (.array []), InItems Predicate.rewriting⟩,
    ⟨"columns", some (.array []), InItems ColumnRef.rewriting⟩,
    ⟨"assignments", some (.array []), InItems Assignment.rewriting⟩,
    ⟨"limit", some .null, InOption Limit.rewriting⟩,
    ⟨"text", some (.text ""), Eq⟩,
    ⟨"storage", some .null, Eq⟩]

/-- Whether no value of a query is a double. -/
def Query.HasNoDouble (q : Query) : Prop :=
  (∀ p ∈ q.predicates, ∀ f, p.value ≠ .float f) ∧ ∀ a ∈ q.assignments, ∀ f, a.value ≠ .float f

/-- An array that is the default is empty. -/
theorem Json.eq_nil_of_default {α : Type} {toJson : α → Json} {as : List α}
    (h : some (Json.array []) = some (.array (as.map toJson))) : as = [] := by
  have hitems := Json.array.inj (Option.some.inj h)
  exact List.map_eq_nil_iff.mp hitems.symm

theorem Query.takes_ofJson {q : Query} (hq : q.HasNoDouble) :
    Takes ofJson rewriting q.toJson q := by
  have haction := Json.takes_asText q.action
  have hsubjects := Json.takes_asSequence fun s (_ : s ∈ q.subjects) => s.takes_ofJson
  have hpredicates := Json.takes_asSequence fun p hp => Predicate.takes_ofJson (hq.1 p hp)
  have hcolumns := Json.takes_asSequence fun c (_ : c ∈ q.columns) => c.takes_ofJson
  have hassignments := Json.takes_asSequence fun a ha => Assignment.takes_ofJson (hq.2 a ha)
  have hlimit := Limit.takes_asOption q.limit
  have htext := Json.takes_asText q.text
  have hstorage := Json.takes_asOption_text q.storage
  refine Json.Shape.takes_decode (by decide)
    (.cons (haction.passes _ _) (.cons (hsubjects.passes _ _) (.cons (hpredicates.passes _ _)
      (.cons (hcolumns.passes _ _) (.cons (hassignments.passes _ _) (.cons (hlimit.passes _ _)
        (.cons (htext.passes _ _) (.cons (hstorage.passes _ _) .nil))))))))
    fun written hholds => ?_
  obtain _ | ⟨h₁, _ | ⟨h₂, _ | ⟨h₃, _ | ⟨h₄, _ | ⟨h₅, _ | ⟨h₆, _ | ⟨h₇, _ | ⟨h₈, _⟩⟩⟩⟩⟩⟩⟩⟩ := hholds
  have hnolimit : some Json.null = some (Json.option Limit.toJson q.limit) → q.limit = none := by
    cases q.limit with
    | none => simp
    | some l => simp [Json.option, Limit.toJson, Json.record]
  have hnotext : some (Json.text "") = some (Json.text q.text) → q.text = "" :=
    fun h => (Option.some.inj (Json.string.inj (Option.some.inj h))).symm
  have hnostorage :
      some Json.null = some (Json.option Json.text q.storage) → q.storage = none := by
    cases q.storage with
    | none => simp
    | some s => simp [Json.option, Json.text]
  simp only [Json.required_eq_ok h₁ haction,
    Json.optional_eq_ok h₂ hsubjects Json.eq_nil_of_default,
    Json.optional_eq_ok h₃ hpredicates Json.eq_nil_of_default,
    Json.optional_eq_ok h₄ hcolumns Json.eq_nil_of_default,
    Json.optional_eq_ok h₅ hassignments Json.eq_nil_of_default,
    Json.optional_eq_ok h₆ hlimit hnolimit, Json.optional_eq_ok h₇ htext hnotext,
    Json.optional_eq_ok h₈ hstorage hnostorage]
  rfl

/-- A query's document may be as it is. -/
theorem Query.rewriting_refl (q : Query) : rewriting q.toJson q.toJson := by
  have hlimit : InOption Limit.rewriting (Json.option Limit.toJson q.limit)
      (Json.option Limit.toJson q.limit) := by
    cases q.limit with
    | none => exact Or.inl ⟨rfl, rfl⟩
    | some l => exact Or.inr l.rewriting_refl
  exact Json.inRecord_refl (.cons ⟨rfl, rfl⟩
    (.cons ⟨rfl, Json.inItems_refl Subject.rewriting_refl q.subjects⟩
    (.cons ⟨rfl, Json.inItems_refl Predicate.rewriting_refl q.predicates⟩
    (.cons ⟨rfl, Json.inItems_refl ColumnRef.rewriting_refl q.columns⟩
    (.cons ⟨rfl, Json.inItems_refl Assignment.rewriting_refl q.assignments⟩
    (.cons ⟨rfl, hlimit⟩ (.cons ⟨rfl, rfl⟩ (.cons ⟨rfl, rfl⟩ .nil))))))))

/-- **The document format of queries.**  A query without doubles is read from the text of its
document, and from every spelling of every rewriting of that document: members of any object may
stand in another order, those that are the default of their field may be missing, members of other
names may hold anything, and blanks may stand between all tokens. -/
theorem Query.ofText_of_rewriting {q : Query} (hq : q.HasNoDouble) :
    ofText q.toText = .ok q ∧
      ∀ (j : Json) (text : String), rewriting q.toJson j → Json.Spelling j text →
        ofText text = .ok q := by
  have hread : ∀ (j : Json) (text : String), rewriting q.toJson j → Json.Spelling j text →
      ofText text = .ok q := by
    intro j text hj htext
    rw [ofText, Json.decode, Json.read_of_spelling htext]
    simp only
    rw [Query.takes_ofJson hq j hj]
  exact ⟨hread _ _ q.rewriting_refl (Json.spelling_compact _), hread⟩

/-- A query for the users whose key has no bytes. -/
def firstUsers : Query where
  action := "SELECT"
  subjects := [⟨"u", "users"⟩]
  predicates := [⟨"u", "key", .eq, .bytes []⟩]
  columns := []
  assignments := []
  limit := some ⟨5, 0⟩
  text := ""
  storage := none

/-- The query written backwards, with all defaults left out and something unknown in front. -/
def firstUsersBackwards : Json :=
  .object [(some "sort", .array [.null]),
    (some "limit", .object [(some "count", .integer 5)]),
    (some "predicates", .array [.object [(some "value", .array []), (some "op", .text "eq"),
      (some "column", .text "key"), (some "subject", .text "u")]]),
    (some "subjects", .array [.object [(some "entity", .text "users"), (some "alias", .text "u")]]),
    (some "action", .text "SELECT")]

theorem Query.ofText_firstUsers :
    ofText firstUsers.toText = .ok firstUsers ∧
      ofText firstUsersBackwards.pretty = .ok firstUsers := by
  have hq : firstUsers.HasNoDouble := by simp [firstUsers, HasNoDouble]
  have hreverse {l l' : List (Option String × Json)} (h : l' = l.reverse) : l'.Perm l :=
    h ▸ List.reverse_perm l
  have hsubject : Subject.rewriting (Subject.toJson ⟨"u", "users"⟩)
      (.object [(some "entity", .text "users"), (some "alias", .text "u")]) :=
    ⟨_, _, [], _, rfl, rfl, .keep rfl (.keep rfl .nil), hreverse rfl, by simp⟩
  have hpredicate : Predicate.rewriting (Predicate.toJson ⟨"u", "key", .eq, .bytes []⟩)
      (.object [(some "value", .array []), (some "op", .text "eq"), (some "column", .text "key"),
        (some "subject", .text "u")]) :=
    ⟨_, _, [], _, rfl, rfl, .keep rfl (.keep rfl (.keep rfl (.keep rfl .nil))),
      hreverse rfl, by simp⟩
  have hlimit : Limit.rewriting (Limit.toJson ⟨5, 0⟩) (.object [(some "count", .integer 5)]) :=
    ⟨_, _, [], _, rfl, rfl, .keep rfl (.drop rfl .nil), .refl _, by simp⟩
  have hrewriting : Query.rewriting firstUsers.toJson firstUsersBackwards := by
    refine ⟨_, _, [(some "sort", .array [.null])], _, rfl, rfl,
      .keep rfl (.keep ⟨_, _, rfl, rfl, .cons hsubject .nil⟩
        (.keep ⟨_, _, rfl, rfl, .cons hpredicate .nil⟩ (.drop rfl (.drop rfl
          (.keep (Or.inr hlimit) (.drop rfl (.drop rfl .nil))))))),
      hreverse rfl, by simp⟩
  obtain ⟨hself, hall⟩ := Query.ofText_of_rewriting hq
  exact ⟨hself, hall _ _ hrewriting (Json.spelling_pretty _)⟩

end KeyedRelations
