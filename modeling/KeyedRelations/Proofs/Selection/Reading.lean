import KeyedRelations.Proofs.Plan
import KeyedRelations.Proofs.Records
import KeyedRelations.Selection

/-!
# Selections read records

A selection is built from scans and reads, so it leaves the trees as they are, whatever
the store holds and however the selection ends.  If it ends well, what it has found is
`Genuine`: records of the collection behind the entity's prefix, each once.  The store need
not be sound for this, as an entry that cannot be read is a failure or is passed over.
-/

namespace KeyedRelations

open Program (Ensures ReadOnly)

/-! ### Programs that only read -/

theorem Program.scan_readOnly (request : ScanRequest) : ReadOnly (scan request) := .drain .done

namespace Collection

variable {c : Collection}

theorem readAll_readOnly (found : Records c.kind) (names : List String) :
    ReadOnly (c.readAll found names) := by
  induction names generalizing found with
  | nil => exact .done found
  | cons name names ih => exact .command rfl fun held => ih _

theorem scanAll_readOnly (c : Collection) (pattern : String) (count : Nat) :
    ReadOnly (c.scanAll pattern count) := by
  obtain ⟨kind, container⟩ := c
  cases kind with
  | list => exact (Program.scan_readOnly _).bind fun found => readAll_readOnly _ _
  | set | hash | sortedSet => exact Program.scan_readOnly _

end Collection

namespace SubjectPlan

variable {p : SubjectPlan}

theorem findBy_readOnly (p : SubjectPlan) (pageSize : Nat) (c : Predicate) :
    ReadOnly (p.findBy pageSize c) := by
  rw [findBy]
  cases c.op with
  | glob => exact Collection.scanAll_readOnly _ _ _
  | eq => exact Collection.readAll_readOnly _ _

theorem findByKeys_readOnly (pageSize : Nat) (found : Records p.kind)
    (predicates : List Predicate) : ReadOnly (p.findByKeys pageSize found predicates) := by
  induction predicates generalizing found with
  | nil => exact .done found
  | cons c rest ih => exact (p.findBy_readOnly pageSize c).bind fun more => ih _

/-- A field is joined if it exists and holds what is asked of it. -/
theorem findByFields_cons (p : SubjectPlan) (found : Records p.kind) (field : String)
    (rest : List String) :
    p.findByFields found (field :: rest) =
      .command (.read p.collection (p.entity.recordName field)) fun held =>
        p.findByFields (found.join
          ((held.map fun payload => (p.entity.recordName field, payload)).toList.filter
            fun r => p.fieldHolds field r.2)) rest := by
  rw [findByFields]
  congr 1
  funext held
  cases held with
  | none => simp [Records.join]
  | some payload => cases hholds : p.fieldHolds field payload <;> simp [Records.join, hholds]

theorem findByFields_readOnly (found : Records p.kind) (fields : List String) :
    ReadOnly (p.findByFields found fields) := by
  induction fields generalizing found with
  | nil => exact .done found
  | cons field rest ih =>
      rw [findByFields_cons]
      exact .command rfl fun held => ih _

/-- **A selection only reads.** -/
theorem select_readOnly (p : SubjectPlan) (pageSize : Nat) : ReadOnly (p.select pageSize) := by
  rw [select]
  split
  · exact Collection.scanAll_readOnly _ _ _
  · exact (findByKeys_readOnly _ _ _).bind fun found => findByFields_readOnly _ _

end SubjectPlan

/-! ### Records that are stored -/

/-- Records of a collection, each once, whose names meet a condition. -/
structure Genuine (c : Collection) (t : Trees) (S : String → Prop) (found : Records c.kind) :
    Prop where
  nodup : found.names.Nodup
  stored : ∀ r ∈ found, r ∈ c.records t
  named : ∀ r ∈ found, S r.1

namespace Genuine

variable {c : Collection} {t : Trees} {S S' : String → Prop} {found more : Records c.kind}

theorem nil : Genuine c t S [] := ⟨List.nodup_nil, by simp, by simp⟩

theorem imp (h : Genuine c t S found) (himp : ∀ name, S name → S' name) :
    Genuine c t S' found :=
  ⟨h.nodup, h.stored, fun r hr => himp r.1 (h.named r hr)⟩

theorem join (h : Genuine c t S found) (h' : Genuine c t S more) :
    Genuine c t S (found.join more) where
  nodup := Records.nodup_names_join h.nodup h'.nodup
  stored r hr := (Records.mem_join.mp hr).elim (h.stored r) fun hr => h'.stored r hr.1
  named r hr := (Records.mem_join.mp hr).elim (h.named r) fun hr => h'.named r hr.1

theorem single {name : String} {payload : c.kind.Payload} (hmem : (name, payload) ∈ c.records t)
    (hname : S name) : Genuine c t S [(name, payload)] where
  nodup := by simp [Records.names]
  stored := by simpa using hmem
  named := by simpa using hname

end Genuine

namespace Collection

variable {c : Collection} {t : Trees} {pattern : String}

/-- An item that shows all of a record shows a record. -/
theorem Reveals.mem_records {x : String × c.kind.Item} (h : c.Reveals t pattern x)
    {payload : c.kind.Payload}
    (hpayload : ∀ form, c.kind.reveal x.1 form = .ok x.2 → c.kind.load x.1 form = .ok payload) :
    (x.1, payload) ∈ c.records t := by
  obtain ⟨base, form, hbase, hentry, hreveal⟩ := h.stored
  rw [mem_records_iff_entry hbase, Structure.entryOf,
    ← (Structure.load_eq_ok_iff x.1).mp (hpayload form hreveal)]
  exact hentry

/-- Reading names one by one finds records under some of them. -/
theorem readAll_ensures (t : Trees) (found : Records c.kind) (names : List String) :
    Ensures t (c.readAll found names) fun result => ∃ more : Records c.kind,
      result = found ++ more ∧ more.names.Sublist names ∧ ∀ r ∈ more, r ∈ c.records t := by
  induction names generalizing found with
  | nil => exact .done ⟨[], by simp, List.nil_sublist _, by simp⟩
  | cons name names ih =>
      refine .read fun held hread => (ih _).imp ?_
      rintro result ⟨more, rfl, hnames, hstored⟩
      cases held with
      | none => exact ⟨more, by simp, hnames.cons name, hstored⟩
      | some payload =>
          refine ⟨(name, payload) :: more, by simp, hnames.cons_cons name, ?_⟩
          rintro r (_ | ⟨_, hr⟩)
          · exact mem_records_iff.mpr hread
          · exact hstored r hr

/-- **Scanning for records finds records** whose names match. -/
theorem scanAll_ensures (c : Collection) (t : Trees) (pattern : String) (count : Nat) :
    Ensures t (c.scanAll pattern count)
      (Genuine c t fun name => Glob.accepts pattern name = true) := by
  have hscan := Program.scan_ensures t ⟨c, pattern, count⟩
  obtain ⟨kind, container⟩ := c
  cases kind with
  | list =>
      refine hscan.bind (Program.scan_readOnly _) ?_
      rintro found ⟨hnodup, hreveals⟩
      refine (readAll_ensures t _ _).imp ?_
      rintro result ⟨more, rfl, hnames, hstored⟩
      refine ⟨hnodup.sublist hnames, hstored, fun r hr => ?_⟩
      obtain ⟨x, hx, hname⟩ := List.mem_map.mp (hnames.subset (Records.mem_names_of_mem hr))
      exact hname ▸ (hreveals x hx).accepts
  | set | hash | sortedSet =>
      refine hscan.imp ?_
      rintro found ⟨hnodup, hreveals⟩
      exact ⟨hnodup, fun r hr => (hreveals r hr).mem_records fun form hform => hform,
        fun r hr => (hreveals r hr).accepts⟩

end Collection

namespace SubjectPlan

variable {p : SubjectPlan} {t : Trees}

/-- Behind the entity's prefix. -/
def Names (p : SubjectPlan) (name : String) : Prop := ∃ key, name = p.entity.recordName key

theorem names_of_accepts {keys name : String} (h : Glob.accepts (p.pattern keys) name = true) :
    p.Names name := by
  obtain ⟨key, hname, -⟩ := (Glob.accepts_escape_append _ _ _).mp h
  exact ⟨key, hname⟩

theorem findBy_ensures (p : SubjectPlan) (t : Trees) (pageSize : Nat) (c : Predicate) :
    Ensures t (p.findBy pageSize c) (Genuine p.collection t p.Names) := by
  rw [findBy]
  cases c.op with
  | glob =>
      exact (Collection.scanAll_ensures _ t _ _).imp fun found h =>
        h.imp fun name => names_of_accepts
  | eq =>
      refine (Collection.readAll_ensures t _ _).imp ?_
      rintro result ⟨more, rfl, hnames, hstored⟩
      refine ⟨List.Nodup.sublist hnames (by simp), hstored, fun r hr => ?_⟩
      exact ⟨_, List.mem_singleton.mp (hnames.subset (Records.mem_names_of_mem hr))⟩

theorem findByKeys_ensures (pageSize : Nat) {found : Records p.kind}
    (hfound : Genuine p.collection t p.Names found) (predicates : List Predicate) :
    Ensures t (p.findByKeys pageSize found predicates) (Genuine p.collection t p.Names) := by
  induction predicates generalizing found with
  | nil => exact .done hfound
  | cons c rest ih =>
      exact (p.findBy_ensures t pageSize c).bind (p.findBy_readOnly pageSize c) fun more hmore =>
        ih (hfound.join hmore)

theorem findByFields_ensures {found : Records p.kind}
    (hfound : Genuine p.collection t p.Names found) (fields : List String) :
    Ensures t (p.findByFields found fields) (Genuine p.collection t p.Names) := by
  induction fields generalizing found with
  | nil => exact .done hfound
  | cons field rest ih =>
      refine .read fun held hread => ?_
      cases held with
      | none => exact ih hfound
      | some payload =>
          dsimp only
          split
          · exact ih (hfound.join (.single (Collection.mem_records_iff.mpr hread) ⟨field, rfl⟩))
          · exact ih hfound

/-- **A selection finds genuine records.** -/
theorem select_ensures (p : SubjectPlan) (t : Trees) (pageSize : Nat) :
    Ensures t (p.select pageSize) (Genuine p.collection t p.Names) := by
  rw [select]
  split
  · exact (Collection.scanAll_ensures _ t _ _).imp fun found h =>
      h.imp fun name => names_of_accepts
  · exact (findByKeys_ensures pageSize .nil _).bind (findByKeys_readOnly _ _ _) fun found hfound =>
      findByFields_ensures hfound _

/-! ### Selections do not look at columns -/

variable (p) (columns : List ColumnRef)

theorem findByKeys_showing (pageSize : Nat) (found : Records p.kind)
    (predicates : List Predicate) :
    (p.showing columns).findByKeys pageSize found predicates =
      p.findByKeys pageSize found predicates := by
  induction predicates generalizing found with
  | nil => rfl
  | cons c rest ih =>
      have hfind : (p.showing columns).findBy pageSize c = p.findBy pageSize c := rfl
      rw [findByKeys, findByKeys, hfind]
      congr 1
      funext more
      exact ih _

theorem findByFields_showing (found : Records p.kind) (fields : List String) :
    (p.showing columns).findByFields found fields = p.findByFields found fields := by
  induction fields generalizing found with
  | nil => rfl
  | cons field rest ih =>
      rw [findByFields_cons, findByFields_cons]
      congr 1
      funext held
      exact ih _

/-- Subjects that differ in their columns select alike. -/
theorem select_showing (pageSize : Nat) :
    (p.showing columns).select pageSize = p.select pageSize := by
  have hfull : (p.showing columns).isFullScan = p.isFullScan := rfl
  rw [select, select, hfull]
  split
  next => rfl
  next =>
    rw [findByKeys_showing]
    congr 1
    funext found
    exact findByFields_showing p columns found p.fields

end SubjectPlan

end KeyedRelations
