import KeyedRelations.Entity.Json
import KeyedRelations.Proofs.Query.Json
import KeyedRelations.Proofs.SortedMap

/-!
# Entities and their documents

The document of an entity is read as the entity, also if its members stand in another order or those
that are the default are left out (`Entity.takes_ofJson`).  An absent prefix is written as null and
an empty one as a text, so the two are told apart, and options are written in the order of their
names, each name once, so that none hides another.  Whole lists of entities are read from their
text (`Entity.listOfText_listToText`).
-/

namespace KeyedRelations

open Json (InRecord Rewriting Takes)

/-- Maps are decoded value by value. -/
theorem Json.asMap_record {α : Type} {dec : Json → Decoded α} {toJson : α → Json}
    {members : List (String × α)} (h : ∀ m ∈ members, dec (toJson m.2) = .ok m.2) :
    asMap dec (.record (members.map fun m => (m.1, toJson m.2))) = .ok members := by
  rw [record, List.map_map, asMap]
  induction members with
  | nil => rfl
  | cons m rest ih =>
      obtain ⟨hm, hrest⟩ := List.forall_mem_cons.mp h
      rw [List.map_cons, Function.comp_apply, decodeMembers, hm, ih hrest]
      rfl

namespace Entity

/-- The document of the options of one namespace. -/
def scopeToJson (options : SortedMap String String) : Json :=
  .record (options.entries.map fun o => (o.1, .text o.2))

/-- The document of all options. -/
def optionsToJson (options : SortedMap String (SortedMap String String)) : Json :=
  .record (options.entries.map fun scope => (scope.1, scopeToJson scope.2))

theorem optionsOfJson_toJson (options : SortedMap String (SortedMap String String)) :
    optionsOfJson (optionsToJson options) = .ok options := by
  have hscope : ∀ scope ∈ options.entries,
      (Json.asMap Json.asText (scopeToJson scope.2)).map SortedMap.ofList = .ok scope.2 := by
    intro scope _
    have htexts : Json.asMap Json.asText (.record (scope.2.entries.map fun o => (o.1, .text o.2))) =
        .ok scope.2.entries := Json.asMap_record fun _ _ => rfl
    rw [scopeToJson, htexts, Except.map, SortedMap.ofList_entries]
  rw [optionsOfJson, optionsToJson, Json.asMap_record hscope, Except.map,
    SortedMap.ofList_entries]

/-- Without options the document has no members. -/
theorem eq_empty_of_optionsToJson {options : SortedMap String (SortedMap String String)}
    (h : Json.record [] = optionsToJson options) : options = .empty :=
  SortedMap.ext (List.map_eq_nil_iff.mp (Json.record_injective h).symm)

/-- How the document of an entity may be rewritten: only the name must be there. -/
def rewriting : Rewriting :=
  InRecord [⟨"name", none, Eq⟩, ⟨"key_prefix", some .null, Eq⟩, ⟨"options", some (.record []), Eq⟩]

theorem rewriting_refl (e : Entity) : rewriting e.toJson e.toJson :=
  Json.inRecord_refl (.cons ⟨rfl, rfl⟩ (.cons ⟨rfl, rfl⟩ (.cons ⟨rfl, rfl⟩ .nil)))

/-- **An entity is what its document says.** -/
theorem takes_ofJson (e : Entity) : Takes ofJson rewriting e.toJson e := by
  have hname := Json.takes_asText e.name
  have hkeys := Json.takes_asOption_text e.keyPrefix
  have hoptions := Json.takes_eq_iff.mpr (optionsOfJson_toJson e.options)
  refine Json.Shape.takes_decode (by decide)
    (.cons (hname.passes _ _) (.cons (hkeys.passes _ _) (.cons (hoptions.passes _ _) .nil)))
    fun written hholds => ?_
  obtain _ | ⟨h₁, _ | ⟨h₂, _ | ⟨h₃, _⟩⟩⟩ := hholds
  have hnoprefix :
      some Json.null = some (Json.option Json.text e.keyPrefix) → e.keyPrefix = none := by
    cases e.keyPrefix with
    | none => simp
    | some p => simp [Json.option, Json.text]
  have hnooptions : some (Json.record []) = some (optionsToJson e.options) → e.options = .empty :=
    fun h => eq_empty_of_optionsToJson (Option.some.inj h)
  simp only [Json.required_eq_ok h₁ hname, Json.optional_eq_ok h₂ hkeys hnoprefix,
    Json.optional_eq_ok h₃ hoptions hnooptions]
  rfl

/-- **A list of entities is read from its text**, whatever names, prefixes and options hold. -/
theorem listOfText_listToText (es : List Entity) : listOfText (listToText es) = .ok es := by
  have htakes := Json.takes_asSequence fun e (_ : e ∈ es) => e.takes_ofJson
  have hdecode := htakes _ (Json.inItems_refl rewriting_refl es)
  rw [listOfText, listToText, Json.decode, Json.read_pretty]
  simp only [hdecode]

end Entity

end KeyedRelations
