import Mathlib
import KeyedRelations.Proofs.Scan.Whole
import KeyedRelations.Proofs.Selection.Reading

/-!
# What a selection finds

`SubjectPlan.Asks` says what the predicates of a subject ask of a record, by its natural
key and what it holds: nothing if there are none, and otherwise what any one of them asks,
where equalities on one field of a hash ask together.  A selection finds exactly the records
under the entity's prefix of which this holds.

Every part of a selection is shown to come to a list of records that has each name once
and is described by a condition (`Finds`), and lists are joined by joining their
conditions.  The lists are stated before the size of a page is, so none depends on it.
-/

namespace KeyedRelations

/-! ### Lists described by a condition -/

/-- The list has the records of a collection that meet a condition, each once. -/
structure Finds (c : Collection) (t : Trees) (found : Records c.kind)
    (S : String × c.kind.Payload → Prop) : Prop where
  nodup : found.names.Nodup
  mem_iff : ∀ r, r ∈ found ↔ r ∈ c.records t ∧ S r

namespace Finds

variable {c : Collection} {t : Trees} {found more : Records c.kind}
  {S S' : String × c.kind.Payload → Prop}

theorem nil : Finds c t [] fun _ => False where
  nodup := List.nodup_nil
  mem_iff := by simp

/-- A condition may be replaced by an equivalent one. -/
theorem congr (h : Finds c t found S) (hiff : ∀ r, S r ↔ S' r) : Finds c t found S' where
  nodup := h.nodup
  mem_iff r := by rw [h.mem_iff, hiff]

/-- The records of a sound collection that meet a test, in their order. -/
theorem filter (c : Collection) (t : Trees) (test : String × c.kind.Payload → Bool) :
    Finds c t ((c.records t).filter test) fun r => test r = true where
  nodup := by
    refine List.pairwise_map.mpr (((c.records_ascending t).filter _).imp fun hlt heq => ?_)
    rw [heq] at hlt
    exact KeyOrder.irrefl _ hlt
  mem_iff := by simp

/-- What stands under one name. -/
theorem held? (c : Collection) (t : Trees) (name : String) :
    Finds c t ((c.held? t name).map fun payload => (name, payload)).toList
      fun r => r.1 = name where
  nodup := by cases c.held? t name <;> simp [Records.names]
  mem_iff := by
    rintro ⟨name', payload⟩
    rw [Option.mem_toList, Option.map_eq_some_iff]
    constructor
    · rintro ⟨payload', hheld, heq⟩
      obtain ⟨rfl, rfl⟩ := Prod.mk.inj heq
      exact ⟨Collection.held?_eq_some_iff.mp hheld, rfl⟩
    · rintro ⟨hmem, rfl⟩
      exact ⟨payload, Collection.held?_eq_some_iff.mpr hmem, rfl⟩

/-- Those that pass a test as well. -/
theorem restrict (h : Finds c t found S) (test : String × c.kind.Payload → Bool) :
    Finds c t (found.filter test) fun r => S r ∧ test r = true where
  nodup := h.nodup.sublist (List.filter_sublist.map _)
  mem_iff r := by rw [List.mem_filter, h.mem_iff, and_assoc]

/-- Joining lists joins their conditions. -/
theorem join (h : Finds c t found S) (h' : Finds c t more S') :
    Finds c t (found.join more) fun r => S r ∨ S' r where
  nodup := Records.nodup_names_join h.nodup h'.nodup
  mem_iff r := by
    rw [Records.mem_join, h.mem_iff, h'.mem_iff]
    constructor
    · rintro (⟨hmem, hS⟩ | ⟨⟨hmem, hS'⟩, -⟩)
      · exact ⟨hmem, Or.inl hS⟩
      · exact ⟨hmem, Or.inr hS'⟩
    · rintro ⟨hmem, hS⟩
      by_cases hseen : r.1 ∈ found.names
      · -- a name stands for one record, so what was found under it is this record
        obtain ⟨r', hr', hname⟩ := List.mem_map.mp hseen
        have hmem' : (r.1, r'.2) ∈ c.records t := hname ▸ ((h.mem_iff r').mp hr').1
        have hpayload := Collection.eq_of_mem_records hmem hmem'
        have hsame : r = r' := Prod.ext hname.symm hpayload
        exact Or.inl ((h.mem_iff r).mp (hsame ▸ hr'))
      · rcases hS with hS | hS'
        · exact Or.inl ⟨hmem, hS⟩
        · exact Or.inr ⟨⟨hmem, hS'⟩, hseen⟩

end Finds

/-! ### What predicates ask -/

/-- What a predicate on the key asks of a natural key. -/
def Predicate.AsksKey (c : Predicate) (key : String) : Prop :=
  (c.op = .glob ∧ ∃ glob, c.value = .text glob ∧ Glob.accepts glob key = true) ∨
    (c.op = .eq ∧ c.column = keyColumn ∧ c.value.display = key)

namespace SubjectPlan

variable {p : SubjectPlan} {t : Trees} {base : Key}

/-- What the equalities on one field of a hash ask of its value. -/
def AsksField (p : SubjectPlan) (field : String) (payload : p.kind.Payload) : Prop :=
  p.kind = .hash ∧ field ≠ keyColumn ∧
    (∃ c ∈ p.predicates, c.op = .eq ∧ c.column = field) ∧
    ∀ c ∈ p.predicates, c.op = .eq → c.column = field →
      c.value.looselyEquals (p.kind.value payload) = true

/-- **What a selection asks of a record**, by its natural key and what it holds. -/
def Asks (p : SubjectPlan) (key : String) (payload : p.kind.Payload) : Prop :=
  p.predicates = [] ∨ (∃ c ∈ p.predicates, c.AsksKey key) ∨ p.AsksField key payload

/-- A predicate finds the records whose natural keys are asked for. -/
theorem findBy_finds (hsound : p.collection.Sound t) (hbase : p.collection.base = .ok base)
    (hp : p.Answerable) {c : Predicate} (hc : c ∈ p.predicates) (hkey : p.testsField c = false) :
    ∃ found, Finds p.collection t found
        (fun r => ∃ key, r.1 = p.entity.recordName key ∧ c.AsksKey key) ∧
      ∀ pageSize, (p.findBy pageSize c).Yields t found := by
  cases hop : c.op with
  | glob =>
      obtain ⟨glob, hglob⟩ := hp.text c hc hop
      refine ⟨_, (Finds.filter p.collection t fun r => Glob.accepts (p.pattern glob) r.1).congr ?_,
        fun pageSize => ?_⟩
      · intro r
        simp [pattern, Glob.accepts_escape_append, Predicate.AsksKey, hop, hglob,
          Entity.recordName]
      · simp only [findBy, hop, hglob, Value.text?, Option.getD_some]
        exact Program.yields_scanAll hsound hbase _ _
  | eq =>
      have hcolumn : c.column = keyColumn := by
        have hanswers := hp.answers c hc
        simp only [testsField, hop, Structure.answers] at hkey hanswers
        grind
      refine ⟨_, (Finds.held? p.collection t (p.entity.recordName c.value.display)).congr ?_,
        fun pageSize => ?_⟩
      · intro r
        constructor
        · intro hname
          exact ⟨_, hname, Or.inr ⟨hop, hcolumn, rfl⟩⟩
        · rintro ⟨key, hname, ⟨hglob, -⟩ | ⟨-, -, rfl⟩⟩
          · cases hop.symm.trans hglob
          · exact hname
      · simp only [findBy, hop]
        have hread := Program.yields_readAll hsound hbase []
          [p.entity.recordName c.value.display]
        convert hread using 1
        cases hheld : p.collection.held? t (p.entity.recordName c.value.display) <;> simp [hheld]

/-- Predicates on the key find what any of them asks for. -/
theorem findByKeys_finds (hsound : p.collection.Sound t) (hbase : p.collection.base = .ok base)
    (hp : p.Answerable) {found : Records p.kind} {S : String × p.kind.Payload → Prop}
    (hfound : Finds p.collection t found S) {predicates : List Predicate}
    (hsub : ∀ c ∈ predicates, c ∈ p.predicates ∧ p.testsField c = false) :
    ∃ result, Finds p.collection t result
        (fun r => S r ∨ ∃ key, r.1 = p.entity.recordName key ∧ ∃ c ∈ predicates, c.AsksKey key) ∧
      ∀ pageSize, (p.findByKeys pageSize found predicates).Yields t result := by
  induction predicates generalizing found S with
  | nil => exact ⟨found, hfound.congr (by simp), fun pageSize => .done found⟩
  | cons c rest ih =>
      obtain ⟨hc, hkey⟩ := hsub c List.mem_cons_self
      obtain ⟨more, hmore, hby⟩ := findBy_finds hsound hbase hp hc hkey
      obtain ⟨result, hresult, hrest⟩ := ih (hfound.join hmore)
        fun c' hc' => hsub c' (List.mem_cons_of_mem _ hc')
      refine ⟨result, hresult.congr fun r => ?_, fun pageSize =>
        (hby pageSize).bind (hrest pageSize)⟩
      constructor
      · rintro ((hS | ⟨key, hname, hasks⟩) | ⟨key, hname, c', hc', hasks⟩)
        · exact Or.inl hS
        · exact Or.inr ⟨key, hname, c, List.mem_cons_self, hasks⟩
        · exact Or.inr ⟨key, hname, c', List.mem_cons_of_mem _ hc', hasks⟩
      · rintro (hS | ⟨key, hname, c', hc', hasks⟩)
        · exact Or.inl (Or.inl hS)
        · rcases List.mem_cons.mp hc' with rfl | hc'
          · exact Or.inl (Or.inr ⟨key, hname, hasks⟩)
          · exact Or.inr ⟨key, hname, c', hc', hasks⟩

/-- Fields are found if they exist and hold what is asked of them. -/
theorem findByFields_finds (hsound : p.collection.Sound t) (hbase : p.collection.base = .ok base)
    {found : Records p.kind} {S : String × p.kind.Payload → Prop}
    (hfound : Finds p.collection t found S) (fields : List String) :
    ∃ result, Finds p.collection t result
        (fun r => S r ∨ ∃ field ∈ fields, r.1 = p.entity.recordName field ∧
          p.fieldHolds field r.2 = true) ∧
      (p.findByFields found fields).Yields t result := by
  induction fields generalizing found S with
  | nil => exact ⟨found, hfound.congr (by simp), .done found⟩
  | cons field rest ih =>
      have hfield := (Finds.held? p.collection t (p.entity.recordName field)).restrict
        fun r => p.fieldHolds field r.2
      obtain ⟨result, hresult, hrest⟩ := ih (hfound.join hfield)
      refine ⟨result, hresult.congr fun r => ?_, ?_⟩
      · simp [or_assoc]
      · rw [findByFields_cons]
        exact .read (fun cursors => hsound.read_eq hbase cursors _) hrest

/-- The equalities on a field hold for what a record of its name holds. -/
theorem fieldHolds_iff {field : String} {payload : p.kind.Payload} :
    p.fieldHolds field payload = true ↔ ∀ c ∈ p.predicates, c.op = .eq → c.column = field →
      c.value.looselyEquals (p.kind.value payload) = true := by
  rw [fieldHolds, List.all_eq_true]
  constructor
  · intro h c hc hop hcolumn
    exact h c (List.mem_filter.mpr ⟨hc, by simp [hop, hcolumn]⟩)
  · intro h c hc
    obtain ⟨hc, htests⟩ := List.mem_filter.mp hc
    rw [Bool.and_eq_true, decide_eq_true_eq, decide_eq_true_eq] at htests
    exact h c hc htests.1 htests.2

/-- The fields that are compared. -/
theorem mem_fields_iff {field : String} : field ∈ p.fields ↔
    p.kind = .hash ∧ field ≠ keyColumn ∧ ∃ c ∈ p.predicates, c.op = .eq ∧ c.column = field := by
  simp only [fields, List.mem_eraseDups, List.mem_map, List.mem_filter, testsField,
    Bool.and_eq_true, decide_eq_true_eq]
  constructor
  · rintro ⟨c, ⟨hc, ⟨hop, hkind⟩, hcolumn⟩, rfl⟩
    exact ⟨hkind, hcolumn, c, hc, hop, rfl⟩
  · rintro ⟨hkind, hcolumn, c, hc, hop, rfl⟩
    exact ⟨c, ⟨hc, ⟨hop, hkind⟩, hcolumn⟩, rfl⟩

/-- Only predicates on the key ask something of a key. -/
theorem testsField_of_asksKey {c : Predicate} {key : String} (h : c.AsksKey key) :
    p.testsField c = false := by
  rcases h with ⟨hop, -⟩ | ⟨-, hcolumn, -⟩ <;> simp [testsField, *]

/-- **A selection finds what is asked for**, and the same list by pages of any size. -/
theorem select_finds (hsound : p.collection.Sound t) (hbase : p.collection.base = .ok base)
    (hp : p.Answerable) :
    ∃ found, Finds p.collection t found
        (fun r => ∃ key, r.1 = p.entity.recordName key ∧ p.Asks key r.2) ∧
      ∀ pageSize, (p.select pageSize).Yields t found := by
  cases hfull : p.isFullScan with
  | true =>
      have hnone : p.predicates = [] := by simpa [isFullScan] using hfull
      refine ⟨_, (Finds.filter p.collection t fun r => Glob.accepts (p.pattern "*") r.1).congr ?_,
        fun pageSize => ?_⟩
      · intro r
        simp [pattern, Glob.accepts_escape_append, Glob.accepts_star, Asks, hnone,
          Entity.recordName]
      · rw [select, hfull]
        exact Program.yields_scanAll hsound hbase _ _
  | false =>
      have hsome : p.predicates ≠ [] := by simpa [isFullScan] using hfull
      have honKeys : ∀ c ∈ p.predicates.filter (fun c => !p.testsField c),
          c ∈ p.predicates ∧ p.testsField c = false := by simp
      obtain ⟨byKeys, hbyKeys, hkeys⟩ := findByKeys_finds hsound hbase hp Finds.nil honKeys
      obtain ⟨found, hfound, hfields⟩ := findByFields_finds hsound hbase hbyKeys p.fields
      refine ⟨found, hfound.congr fun r => ?_, fun pageSize => ?_⟩
      · constructor
        · rintro ((hnone | ⟨key, hname, c, hc, hasks⟩) | ⟨field, hfield, hname, hholds⟩)
          · exact hnone.elim
          · exact ⟨key, hname, Or.inr (Or.inl ⟨c, (List.mem_filter.mp hc).1, hasks⟩)⟩
          · obtain ⟨hkind, hcolumn, hmentioned⟩ := mem_fields_iff.mp hfield
            exact ⟨field, hname,
              Or.inr (Or.inr ⟨hkind, hcolumn, hmentioned, fieldHolds_iff.mp hholds⟩)⟩
        · rintro ⟨key, hname, hnone | ⟨c, hc, hasks⟩ | ⟨hkind, hcolumn, hmentioned, hholds⟩⟩
          · exact absurd hnone hsome
          · refine Or.inl (Or.inr ⟨key, hname, c, List.mem_filter.mpr ⟨hc, ?_⟩, hasks⟩)
            rw [testsField_of_asksKey hasks]
            rfl
          · exact Or.inr ⟨key, mem_fields_iff.mpr ⟨hkind, hcolumn, hmentioned⟩, hname,
              fieldHolds_iff.mpr hholds⟩
      · rw [select, hfull]
        exact (hkeys pageSize).bind hfields

/-- **The meaning of a selection.**  Whatever subject a planner lets through, over a sound
collection its selection never fails and leaves the trees as they are.  It finds exactly the
stored records behind the entity's prefix of which the predicates ask something that holds,
each once and with what it holds, and it finds the same list by pages of any size. -/
theorem select_meaning {planner : Planner} {q : Query} {main : Option Entity} {plan : Plan}
    (hplan : planner.plan q main = .ok plan) (hp : p ∈ plan.subjects)
    (hcontainer : separator ∉ Utf8.bytes p.entity.containerKey)
    (hsound : p.collection.Sound t) :
    ∃ found : Records p.kind,
      (∀ pageSize cursors, ∃ cursors',
        (p.select pageSize).run Store.handler ⟨t, cursors⟩ = (.ok found, ⟨t, cursors'⟩)) ∧
      found.names.Nodup ∧
      ∀ name payload, (name, payload) ∈ found ↔
        (Store.ofTrees t).read p.collection name = .ok (some payload) ∧
          ∃ key, name = p.entity.namePrefix ++ key ∧ p.Asks key payload := by
  obtain ⟨base, hbase⟩ := @Collection.exists_base p.collection hcontainer
  obtain ⟨found, hfound, hselect⟩ := select_finds hsound hbase (Planner.answerable_of_plan hplan hp)
  refine ⟨found, hselect, hfound.nodup, fun name payload => ?_⟩
  rw [hfound.mem_iff, ← Collection.mem_records_iff]
  rfl

/-- Users in a hash of their name, behind a prefix with a wildcard in it. -/
def users : Entity := (Entity.ofName "users").withKeyPrefix "u*:"

/-- Users whose keys start with an `a`, and the user `b` if it holds a one. -/
def someUsers : SubjectPlan where
  name := "users"
  entity := users
  kind := .hash
  predicates := [⟨"users", "key", .glob, .text "a*"⟩, ⟨"users", "b", .eq, .int 1⟩]
  columns := []

/-- A store of two users and of a field that is none. -/
def storedUsers : Trees :=
  (Store.perform (.write someUsers.collection "u*:a1" (.text "x") .always)
    (Store.perform (.write someUsers.collection "u*:b" (.text "1") .always)
      (Store.perform (.write someUsers.collection "u2:a1" .null .always) Store.empty).2).2).2.trees

theorem select_meaning_someUsers :
    separator ∉ Utf8.bytes someUsers.entity.containerKey ∧
      someUsers.collection.Sound storedUsers ∧
      ∃ found : Records .hash,
        (∀ pageSize cursors, ∃ cursors', (someUsers.select pageSize).run Store.handler
          ⟨storedUsers, cursors⟩ = (.ok found, ⟨storedUsers, cursors'⟩)) ∧
        ("u*:b", .text "1") ∈ found ∧ ("u2:a1", .null) ∉ found := by
  have hsound : someUsers.collection.Sound storedUsers :=
    (((Collection.sound_empty _).perform _).perform _).perform _
  have hcontainer : separator ∉ Utf8.bytes someUsers.entity.containerKey := by decide
  have hplan : (Planner.mk .empty true "kv").plan
      ((((Query.ofAction "select").join "users" "users").whereMatch "users" "a*").whereEq
        "users" "b" (.int 1)) (some users) = .ok ⟨someUsers, []⟩ := by cbv
  have hp : someUsers ∈ (Plan.mk someUsers []).subjects := List.mem_cons_self
  obtain ⟨found, hselect, -, hmem⟩ := select_meaning hplan hp hcontainer hsound
  refine ⟨hcontainer, hsound, found, hselect, ?_, ?_⟩
  · refine (hmem _ _).mpr ⟨by cbv, "b", by cbv, Or.inr (Or.inr ⟨rfl, by decide, ?_, ?_⟩)⟩
    · exact ⟨_, List.mem_cons_of_mem _ List.mem_cons_self, rfl, rfl⟩
    · intro c hc _ hcolumn
      rcases List.mem_cons.mp hc with rfl | hc
      · exact absurd hcolumn (by decide)
      · rw [List.mem_singleton.mp hc]
        cbv
  · intro h
    obtain ⟨-, key, hname, -⟩ := (hmem _ _).mp h
    have hsecond := congrArg (fun name => name.toList[1]?) hname
    simp [someUsers, users, Entity.namePrefix, Entity.withKeyPrefix] at hsecond

end SubjectPlan

end KeyedRelations
