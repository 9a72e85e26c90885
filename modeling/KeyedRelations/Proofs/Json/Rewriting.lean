import Mathlib.Data.List.Forall2
import Mathlib.Data.List.Nodup
import Mathlib.Data.List.Perm.Basic
import Mathlib.Data.Option.Basic
import KeyedRelations.Json.Decoding

/-!
# Documents that decode alike

A record need not be written as it is printed: its members may stand in any order, a member with
the default of its field may be left out, and members with other names may stand between them.
`InRecord` relates a record to all documents that arise so, where a field may in turn say how its
own document may be rewritten.

A decoder does not care if it takes a document and all its rewritings to one value (`Takes`).
For records that follows field by field (`Shape.takes_decode`): the checks pass, since the names of
fields are written once at most, and what stands for a field is what was written for it, or nothing
if it was left out.
-/

namespace KeyedRelations.Json

/-- How a document may be rewritten. -/
abbrev Rewriting := Json → Json → Prop

/-- The items of an array are rewritten, in their order. -/
def InItems (R : Rewriting) : Rewriting := fun j j' =>
  ∃ items items', j = .array items ∧ j' = .array items' ∧ List.Forall₂ R items items'

/-- An optional document is rewritten if it is there. -/
def InOption (R : Rewriting) : Rewriting := fun j j' => j = .null ∧ j' = .null ∨ R j j'

/-- A part of a record: the name of a field, the document that stands for its default, and how its
document may be rewritten. -/
structure Part where
  name : String
  default? : Option Json
  rewriting : Rewriting

/-- What is kept of the members of a record: they are rewritten, or left out if they are the
default. -/
inductive Keeps : List Part → List (String × Json) → List (Option String × Json) → Prop
  | nil : Keeps [] [] []
  | keep {p : Part} {parts : List Part} {j j' : Json} {members : List (String × Json)}
      {kept : List (Option String × Json)} (h : p.rewriting j j')
      (hrest : Keeps parts members kept) :
      Keeps (p :: parts) ((p.name, j) :: members) ((some p.name, j') :: kept)
  | drop {p : Part} {parts : List Part} {j : Json} {members : List (String × Json)}
      {kept : List (Option String × Json)} (h : p.default? = some j)
      (hrest : Keeps parts members kept) : Keeps (p :: parts) ((p.name, j) :: members) kept

/-- **The rewritings of a record**: what is kept of its members and any members of other names, in
any order. -/
def InRecord (parts : List Part) : Rewriting := fun j j' =>
  ∃ members kept extra members', j = .record members ∧ j' = .object members' ∧
    Keeps parts members kept ∧ members'.Perm (kept ++ extra) ∧
    ∀ m ∈ extra, m.1 ≠ none ∧ ∀ p ∈ parts, m.1 ≠ some p.name

/-- A record whose parts may be as they are may be as it is. -/
theorem inRecord_refl {parts : List Part} {members : List (String × Json)}
    (h : List.Forall₂ (fun (p : Part) (m : String × Json) => m.1 = p.name ∧ p.rewriting m.2 m.2)
      parts members) : InRecord parts (record members) (record members) := by
  have hkeeps : Keeps parts members (members.map fun m => (some m.1, m.2)) := by
    induction h with
    | nil => exact .nil
    | @cons p m parts members hm _ ih =>
        obtain ⟨name, j⟩ := m
        obtain ⟨rfl, hj⟩ := hm
        exact .keep hj ih
  exact ⟨members, _, [], _, rfl, rfl, hkeeps, by simp, by simp⟩

/-- So may arrays whose items may be as they are. -/
theorem inItems_refl {α : Type} {R : Rewriting} {toJson : α → Json}
    (h : ∀ a, R (toJson a) (toJson a)) (as : List α) :
    InItems R (.array (as.map toJson)) (.array (as.map toJson)) := by
  refine ⟨_, _, rfl, rfl, List.forall₂_same.mpr ?_⟩
  simp only [List.forall_mem_map]
  exact fun a _ => h a

/-- Whether a field passes all rewritings of a member, which is of its name. -/
def Field.Passes (f : Field) (pm : Part × String × Json) : Prop :=
  f.name = pm.1.name ∧ ∀ j', pm.1.rewriting pm.2.2 j' → f.check j' = .ok ()

/-- A decoder takes a document to a value, and so all rewritings of it. -/
def Takes {α : Type} (dec : Json → Decoded α) (R : Rewriting) (j : Json) (a : α) : Prop :=
  ∀ j', R j j' → dec j' = .ok a

section

variable {α β : Type} {dec : Json → Decoded α} {R : Rewriting} {toJson : α → Json}
  {parts : List Part} {members : List (String × Json)} {kept written : List (Option String × Json)}
  {fields : List Field} {j : Json} {a : α}

theorem takes_eq_iff : Takes dec (· = ·) j a ↔ dec j = .ok a := by
  constructor
  · exact fun h => h j rfl
  · rintro h _ rfl
    exact h

/-- A decoder's field passes what the decoder takes. -/
theorem Takes.passes (h : Takes dec R j a) (name : String) (d : Option Json) :
    (Field.of name dec).Passes (⟨name, d, R⟩, name, j) := by
  refine ⟨rfl, fun j' hj => ?_⟩
  simp [Field.of, h j' hj, Except.map]

/-- Sequences are decoded item by item. -/
theorem takes_asSequence {as : List α} (h : ∀ a ∈ as, Takes dec R (toJson a) a) :
    Takes (asSequence dec) (InItems R) (.array (as.map toJson)) as := by
  rintro _ ⟨_, items', ⟨⟩, rfl, hitems⟩
  rw [asSequence]
  induction as generalizing items' with
  | nil =>
      cases hitems
      rfl
  | cons a as ih =>
      obtain ⟨htake, hrest⟩ := List.forall_mem_cons.mp h
      obtain ⟨j', more, hj, hmore, rfl⟩ := List.forall₂_cons_left_iff.mp hitems
      rw [decodeItems, htake j' hj, ih hrest more hmore]
      rfl

/-! ### Members -/

theorem record_injective {members members' : List (String × Json)}
    (h : record members = record members') : members = members' := by
  have hinjective : Function.Injective fun m : String × Json => (some m.1, m.2) := by
    rintro ⟨name, j⟩ ⟨name', j'⟩ heq
    simpa using heq
  exact List.map_injective_iff.mpr hinjective (Json.object.inj h)

/-- What is kept has names of the record's parts, each once. -/
theorem Keeps.sublist (h : Keeps parts members kept) :
    (kept.map (·.1)).Sublist (parts.map fun p => some p.name) := by
  induction h with
  | nil => exact .slnil
  | keep _ _ ih => exact ih.cons_cons _
  | drop _ _ ih => exact ih.cons _

theorem Keeps.length_eq (h : Keeps parts members kept) : parts.length = members.length := by
  induction h with
  | nil => rfl
  | keep _ _ ih | drop _ _ ih => rw [List.length_cons, List.length_cons, ih]

/-- What stands for a part whose document is given, in a record that is written somehow. -/
def Holds (written : List (Option String × Json)) (p : Part) (m : String × Json) : Prop :=
  (∃ j', p.rewriting m.2 j' ∧ written.find? (·.1 = some p.name) = some (some p.name, j')) ∨
    p.default? = some m.2 ∧ written.find? (·.1 = some p.name) = none

/-- Every part stands in what is kept, or it has been left out as the default. -/
theorem Keeps.holds (h : Keeps parts members kept) (hnodup : (parts.map (·.name)).Nodup) :
    List.Forall₂ (Holds kept) parts members := by
  induction h with
  | nil => exact .nil
  | @keep p parts j j' members kept h hrest ih =>
      obtain ⟨hnew, hothers⟩ := List.nodup_cons.mp hnodup
      have hne : ∀ p' ∈ parts, p.name ≠ p'.name := by
        intro p' hp' heq
        exact hnew (List.mem_map.mpr ⟨p', hp', heq.symm⟩)
      refine .cons (Or.inl ⟨j', h, List.find?_cons_of_pos (by simp)⟩) ?_
      refine ((List.forall₂_and_left _ _).mpr ⟨hne, ih hothers⟩).imp ?_
      rintro p' m ⟨hname, hholds⟩
      unfold Holds at hholds ⊢
      rwa [List.find?_cons_of_neg (by simpa using hname)]
  | @drop p parts j members kept h hrest ih =>
      obtain ⟨hnew, hothers⟩ := List.nodup_cons.mp hnodup
      refine .cons (Or.inr ⟨h, ?_⟩) (ih hothers)
      refine List.find?_eq_none.mpr fun m hm => ?_
      have hmem := hrest.sublist.subset (List.mem_map_of_mem (f := (·.1)) hm)
      obtain ⟨p', hp', heq⟩ := List.mem_map.mp hmem
      have hname : m.1 ≠ some p.name := by
        rintro hkey
        rw [hkey] at heq
        exact hnew (List.mem_map.mpr ⟨p', hp', Option.some.inj heq⟩)
      simpa using hname

/-- At most one member has a given key, if all keys are different. -/
theorem length_filter_key {α κ : Type} [DecidableEq κ] {f : α → κ} {l : List α}
    (h : (l.map f).Nodup) (k : κ) : (l.filter (f · = k)).length ≤ 1 := by
  have hall : (l.filter (f · = k)).map f = List.replicate (l.filter (f · = k)).length k := by
    refine List.eq_replicate_iff.mpr ⟨List.length_map _, fun key hkey => ?_⟩
    obtain ⟨a, ha, rfl⟩ := List.mem_map.mp hkey
    simpa using (List.mem_filter.mp ha).2
  have hnodup : ((l.filter (f · = k)).map f).Nodup := h.sublist (List.filter_sublist.map f)
  rw [hall] at hnodup
  exact List.nodup_replicate.mp hnodup

/-- Only one member is found, in whatever order they stand. -/
theorem find?_eq_of_perm {α : Type} {l l' : List α} {p : α → Bool} (h : l.Perm l')
    (hone : (l'.filter p).length ≤ 1) : l.find? p = l'.find? p := by
  have hfilter := h.filter p
  rw [← List.head?_filter, ← List.head?_filter]
  cases hfound : l'.filter p with
  | nil =>
      rw [hfound] at hfilter
      rw [hfilter.eq_nil]
  | cons x more =>
      rw [hfound, List.length_cons] at hone
      obtain rfl : more = [] := List.length_eq_zero_iff.mp (by omega)
      rw [hfound] at hfilter
      rw [List.perm_singleton.mp hfilter]

/-- The members that are checked one after the other pass if their names are different as far as
they are names of fields. -/
theorem checkMembers_eq_ok {seen : List String}
    (hcheck : ∀ m ∈ written, ∃ name, m.1 = some name ∧
      ∀ f ∈ fields, f.name = name → f.check m.2 = .ok ())
    (hseen : ∀ m ∈ written, ∀ f ∈ fields, f.name ∈ seen → m.1 ≠ some f.name)
    (hpairwise : written.Pairwise fun m m' =>
      ∀ f ∈ fields, m.1 = some f.name → m'.1 ≠ some f.name) :
    checkMembers fields seen written = .ok () := by
  induction written generalizing seen with
  | nil => rfl
  | cons m rest ih =>
      obtain ⟨key, j⟩ := m
      obtain ⟨⟨name, rfl, hm⟩, hrest⟩ := List.forall_mem_cons.mp hcheck
      obtain ⟨hfirst, hmore⟩ := List.pairwise_cons.mp hpairwise
      obtain ⟨hnew, hold⟩ := List.forall_mem_cons.mp hseen
      rw [checkMembers]
      split
      next => exact ih hrest hold hmore
      next f hfind =>
        have hf := List.mem_of_find?_eq_some hfind
        have hname : f.name = name := by simpa using List.find?_some hfind
        have hunseen : seen.contains name = false := by
          have hnot : name ∉ seen := fun hmem => hnew f hf (hname ▸ hmem) (by rw [hname])
          simpa using hnot
        rw [hunseen, hm f hf hname]
        refine ih hrest ?_ hmore
        intro m' hm' g hg hgseen
        rcases List.mem_cons.mp hgseen with hgname | hgseen
        · exact hfirst m' hm' g hg (by rw [hgname])
        · exact hold m' hm' g hg hgseen

/-- What is kept of a record stands under its own name. -/
theorem Keeps.exists_part (h : Keeps parts members kept) :
    ∀ m ∈ kept, ∃ pm ∈ parts.zip members, m.1 = some pm.1.name ∧ pm.1.rewriting pm.2.2 m.2 := by
  induction h with
  | nil => simp
  | @keep p parts j j' members kept h hrest ih =>
      rintro m (_ | ⟨_, hm⟩)
      · exact ⟨(p, p.name, j), List.mem_cons_self, rfl, h⟩
      · obtain ⟨pm, hpm, hname, hj⟩ := ih m hm
        exact ⟨pm, List.mem_cons_of_mem _ hpm, hname, hj⟩
  | drop h hrest ih =>
      intro m hm
      obtain ⟨pm, hpm, hname, hj⟩ := ih m hm
      exact ⟨pm, List.mem_cons_of_mem _ hpm, hname, hj⟩

theorem Keeps.nodup_keys (h : Keeps parts members kept) (hnodup : (parts.map (·.name)).Nodup) :
    (kept.map (·.1)).Nodup := by
  have hkeys : ((parts.map (·.name)).map some).Nodup := hnodup.map (Option.some_injective String)
  rw [List.map_map] at hkeys
  exact hkeys.sublist h.sublist

/-- **What is written of a record**: every part stands in it as it stands in what is kept, since
members in between have other names. -/
theorem holds_of_perm {extra : List (Option String × Json)} (hnodup : (parts.map (·.name)).Nodup)
    (hkeeps : Keeps parts members kept) (hperm : written.Perm (kept ++ extra))
    (hextra : ∀ m ∈ extra, m.1 ≠ none ∧ ∀ p ∈ parts, m.1 ≠ some p.name) :
    List.Forall₂ (Holds written) parts members := by
  have hsame : ∀ p ∈ parts, written.find? (·.1 = some p.name) = kept.find? (·.1 = some p.name) := by
    intro p hp
    have hother : ∀ m ∈ extra, ¬ m.1 = some p.name := fun m hm => (hextra m hm).2 p hp
    have hfilter : extra.filter (·.1 = some p.name) = [] := by simpa using hother
    have hnone : extra.find? (·.1 = some p.name) = none := by simpa using hother
    have hone := length_filter_key (hkeeps.nodup_keys hnodup) (some p.name)
    rw [find?_eq_of_perm hperm (by rwa [List.filter_append, hfilter, List.append_nil]),
      List.find?_append, hnone, Option.or_none]
  refine ((List.forall₂_and_left _ _).mpr ⟨hsame, hkeeps.holds hnodup⟩).imp ?_
  rintro p m ⟨hfind, hholds⟩
  unfold Holds at hholds ⊢
  rwa [hfind]

/-! ### Records -/

theorem required_eq_ok {shape : Shape} {name : String} {m : String × Json} {place : Nat}
    (h : Holds written ⟨name, none, R⟩ m) (hdec : Takes dec R m.2 a) :
    shape.required (.members written) name place dec = .ok a := by
  rcases h with ⟨j', hj, hfind⟩ | ⟨hdefault, -⟩
  · simp [Shape.required, Source.find?, hfind, hdec j' hj]
  · cases hdefault

theorem optional_eq_ok {name : String} {m : String × Json} {place : Nat} {d : Option Json}
    {default : α} (h : Holds written ⟨name, d, R⟩ m) (hdec : Takes dec R m.2 a)
    (hdefault : d = some m.2 → a = default) :
    Source.optional (.members written) name place dec default = .ok a := by
  rcases h with ⟨j', hj, hfind⟩ | ⟨hd, hfind⟩
  · simp [Source.optional, Source.find?, hfind, hdec j' hj]
  · simp [Source.optional, Source.find?, hfind, hdefault hd]

theorem names_of_passes {pms : List (Part × String × Json)}
    (h : List.Forall₂ Field.Passes fields pms) : fields.map (·.name) = pms.map (·.1.name) := by
  induction h with
  | nil => rfl
  | cons hpasses _ ih => rw [List.map_cons, List.map_cons, hpasses.1, ih]

/-- A field passes the member of its name. -/
theorem passes_of_name {pms : List (Part × String × Json)}
    (h : List.Forall₂ Field.Passes fields pms) (hnodup : (pms.map (·.1.name)).Nodup) :
    ∀ f ∈ fields, ∀ pm ∈ pms, f.name = pm.1.name → f.Passes pm := by
  induction h with
  | nil => simp
  | @cons f pm fields pms hpasses hrest ih =>
      obtain ⟨hnew, hothers⟩ := List.nodup_cons.mp hnodup
      rintro g (_ | ⟨_, hg⟩) pm' (_ | ⟨_, hpm'⟩) hname
      · exact hpasses
      · exact (hnew (List.mem_map.mpr ⟨pm', hpm', hname.symm.trans hpasses.1⟩)).elim
      · rw [← names_of_passes hrest] at hnew
        exact (hnew (List.mem_map.mpr ⟨g, hg, hname⟩)).elim
      · exact ih hothers g hg pm' hpm' hname

/-- The members of a record that is written somehow pass the checks of its fields. -/
theorem checkMembers_of_perm {extra : List (Option String × Json)}
    (hnodup : (parts.map (·.name)).Nodup)
    (hfields : List.Forall₂ Field.Passes fields (parts.zip members))
    (hkeeps : Keeps parts members kept) (hperm : written.Perm (kept ++ extra))
    (hextra : ∀ m ∈ extra, m.1 ≠ none ∧ ∀ p ∈ parts, m.1 ≠ some p.name) :
    checkMembers fields [] written = .ok () := by
  have hzip : (parts.zip members).map (·.1.name) = parts.map (·.name) := by
    have hfst := congrArg (List.map Part.name) (List.map_fst_zip (Nat.le_of_eq hkeeps.length_eq))
    rwa [List.map_map] at hfst
  have hnames : fields.map (·.name) = parts.map (·.name) := (names_of_passes hfields).trans hzip
  have hother : ∀ m ∈ extra, ∀ f ∈ fields, m.1 ≠ some f.name := by
    intro m hm f hf
    have hname : f.name ∈ parts.map (·.name) := hnames ▸ List.mem_map_of_mem hf
    obtain ⟨p, hp, hpname⟩ := List.mem_map.mp hname
    exact hpname ▸ (hextra m hm).2 p hp
  refine checkMembers_eq_ok ?_ (by simp) ?_
  · intro m hm
    rcases List.mem_append.mp (hperm.mem_iff.mp hm) with hm | hm
    · obtain ⟨pm, hpm, hname, hj⟩ := hkeeps.exists_part m hm
      refine ⟨pm.1.name, hname, fun f hf hfname => ?_⟩
      exact (passes_of_name hfields (hzip ▸ hnodup) f hf pm hpm hfname).2 _ hj
    · obtain ⟨name, hname⟩ := Option.ne_none_iff_exists'.mp (hextra m hm).1
      exact ⟨name, hname, fun f hf hfname => (hother m hm f hf (hfname ▸ hname)).elim⟩
  · have hsymm {m m' : Option String × Json}
        (h : ∀ f ∈ fields, m.1 = some f.name → m'.1 ≠ some f.name) :
        ∀ f ∈ fields, m'.1 = some f.name → m.1 ≠ some f.name :=
      fun f hf hm' hm => h f hf hm hm'
    refine (hperm.pairwise_iff hsymm).mpr (List.pairwise_append.mpr ⟨?_, ?_, ?_⟩)
    · have hkeys := List.pairwise_map.mp (hkeeps.nodup_keys hnodup)
      exact hkeys.imp fun hne f _ hm hm' => hne (hm.trans hm'.symm)
    · exact List.pairwise_of_forall_mem_list fun m hm m' _ f hf hkey => (hother m hm f hf hkey).elim
    · exact fun m _ m' hm' f hf _ => hother m' hm' f hf

/-- **Records are decoded however they are written**, if their fields are. -/
theorem Shape.takes_decode {shape : Shape} {build : Source → Decoded α}
    (hnodup : (parts.map (·.name)).Nodup)
    (hfields : List.Forall₂ Field.Passes shape.fields (parts.zip members))
    (hbuild : ∀ written, List.Forall₂ (Holds written) parts members →
      build (.members written) = .ok a) :
    Takes (shape.decode build) (InRecord parts) (record members) a := by
  rintro _ ⟨members', kept, extra, written, hmembers, rfl, hkeeps, hperm, hextra⟩
  obtain rfl := record_injective hmembers
  have hholds := holds_of_perm hnodup hkeeps hperm hextra
  have hcheck : checkMembers shape.fields [] written = .ok () :=
    checkMembers_of_perm hnodup hfields hkeeps hperm hextra
  rw [Shape.decode, hcheck]
  exact hbuild written hholds

end

end KeyedRelations.Json
