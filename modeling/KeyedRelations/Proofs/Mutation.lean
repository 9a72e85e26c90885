import KeyedRelations.Mutation
import KeyedRelations.Proofs.Selection.Reading

/-!
# What writes do

A write that is not refused is one of two programs over its collection, `writeAll` or
`removeAll`, behind a selection or not.  Both come to their end wherever the collection has
keys.  What they do to records that exist is `Collection.Changed`: the records of some
names hold one payload afterwards, or are gone, and nothing else is different, in whichever
tree.  It is proved for one command and put together along the names.
-/

namespace KeyedRelations

namespace Collection

variable {c : Collection} {base : Key}

/-- Where there are keys, writing never fails. -/
theorem writeAll_ok (hbase : c.base = .ok base) (mode : WriteMode) (written : List String)
    (records : Records c.kind) (st : Store) :
    ∃ names st', (c.writeAll mode written records).run Store.handler st = (.ok names, st') := by
  induction records generalizing written st with
  | nil => exact ⟨written, st, rfl⟩
  | cons r records ih =>
      simp only [writeAll, Program.run, Store.handler, Store.perform, Store.write_of_base hbase]
      split
      next through st' _ => exact ih _ _
      next e st' heq => split at heq <;> cases heq

/-- Where there are keys, removing never fails. -/
theorem removeAll_ok (hbase : c.base = .ok base) (removed names : List String) (st : Store) :
    ∃ names' st', (c.removeAll removed names).run Store.handler st = (.ok names', st') := by
  induction names generalizing removed st with
  | nil => exact ⟨removed, st, rfl⟩
  | cons name names ih =>
      simp only [removeAll, Program.run, Store.handler, Store.perform, Store.remove_of_base hbase]
      exact ih _ _

/-! ### Changes to records -/

/-- A key stands for one name. -/
theorem eq_of_keyOf {name name' : String} {key : Key} (h : c.keyOf name = .ok key)
    (h' : c.keyOf name' = .ok key) : name = name' := by
  cases hbase : c.base with
  | error e =>
      rw [keyOf_of_base_error hbase] at h
      cases h
  | ok base =>
      rw [keyOf_of_base hbase] at h h'
      cases h
      exact Utf8.bytes_injective (List.append_cancel_left (Except.ok.inj h').symm)

/-- Reading a name depends on what stands under its key only. -/
theorem read_congr {name : String} {key : Key} {st st' : Store} (hkey : c.keyOf name = .ok key)
    (h : (st'.trees.tree c.kind).get? key = (st.trees.tree c.kind).get? key) :
    st'.read c name = st.read c name := by
  simp only [Store.read, hkey, h]

/-- A record that can be read has an entry. -/
theorem exists_contains_of_read {name : String} {payload : c.kind.Payload} {st : Store}
    (h : st.read c name = .ok (some payload)) : ∃ base, c.base = .ok base ∧
      (st.trees.tree c.kind).contains (base ++ Utf8.bytes name) = true := by
  have hmem := mem_records_iff.mpr h
  cases hbase : c.base with
  | error e => simp [records_of_base_error hbase] at hmem
  | ok base =>
      refine ⟨base, rfl, SortedMap.contains_eq_true_iff.mpr ⟨c.kind.store payload, ?_⟩⟩
      exact (mem_records_iff_entry hbase).mp hmem

/-- **What a change of records is.**  The records of some names hold one payload, or are
gone, and everything else is as before. -/
structure Changed (c : Collection) (names : List String) (held : Option c.kind.Payload)
    (before after : Store) : Prop where
  /-- Every named record is as it should be. -/
  done : ∀ name ∈ names, after.read c name = .ok held
  /-- No other entry of any tree is different. -/
  frame : ∀ kind key, (kind = c.kind → ∀ name ∈ names, c.keyOf name ≠ .ok key) →
    (after.trees.tree kind).get? key = (before.trees.tree kind).get? key

namespace Changed

variable {names : List String} {name : String} {held : Option c.kind.Payload}
  {st st₁ st₂ : Store}

theorem nil (h : st₁.trees = st.trees) : Changed c [] held st st₁ :=
  ⟨by simp, fun kind key _ => by rw [h]⟩

/-- A change leaves the records of other names alone. -/
theorem read_eq (h : Changed c names held st st₁) (hname : name ∉ names) :
    st₁.read c name = st.read c name := by
  cases hkey : c.keyOf name with
  | error e => simp [Store.read, hkey]
  | ok key =>
      refine read_congr hkey (h.frame c.kind key fun _ name' hname' hkey' => ?_)
      exact hname (eq_of_keyOf hkey hkey' ▸ hname')

/-- What matters of the state before a change are its trees. -/
theorem of_trees (h : Changed c names held st₁ st₂) (htrees : st₁.trees = st.trees) :
    Changed c names held st st₂ :=
  ⟨h.done, fun kind key hother => htrees ▸ h.frame kind key hother⟩

/-- A change leaves collections alone that have another structure or another base. -/
theorem read_elsewhere (h : Changed c names held st st₁) {c' : Collection}
    (hother : c'.kind ≠ c.kind ∨ c'.base ≠ c.base) (name : String) :
    st₁.read c' name = st.read c' name := by
  cases hbase' : c'.base with
  | error e => simp [Store.read, keyOf_of_base_error hbase']
  | ok base' =>
      refine read_congr (keyOf_of_base hbase' name) (h.frame _ _ fun hkind name' hname' hkey => ?_)
      cases hbase : c.base with
      | error e =>
          rw [keyOf_of_base_error hbase] at hkey
          cases hkey
      | ok base =>
          rw [keyOf_of_base hbase] at hkey
          have hsame : base' = base := base_eq_of_isPrefix hkind hbase hbase'
            (Except.ok.inj hkey ▸ List.prefix_append _ _) (List.prefix_append _ _)
          rcases hother with hother | hother
          · exact hother hkind
          · exact hother (by rw [hbase', hbase, hsame])

/-- A change of records that exist creates none. -/
theorem contains (h : Changed c names held st st₁)
    (hnames : ∀ name ∈ names, ∃ held, st.read c name = .ok (some held)) {kind : Structure}
    {key : Key} (hafter : (st₁.trees.tree kind).contains key = true) :
    (st.trees.tree kind).contains key = true := by
  by_cases hchanged : kind = c.kind ∧ ∃ name ∈ names, c.keyOf name = .ok key
  · obtain ⟨rfl, name, hname, hkey⟩ := hchanged
    obtain ⟨payload, hread⟩ := hnames name hname
    obtain ⟨base, hbase, hcontains⟩ := exists_contains_of_read hread
    rw [keyOf_of_base hbase] at hkey
    exact Except.ok.inj hkey ▸ hcontains
  · have hsame := h.frame kind key fun hkind name hname hkey =>
      hchanged ⟨hkind, name, hname, hkey⟩
    rwa [SortedMap.contains, hsame] at hafter

/-- One change after another. -/
theorem cons (h : Changed c [name] held st st₁) (h' : Changed c names held st₁ st₂) :
    Changed c (name :: names) held st st₂ where
  done name' hname' := by
    by_cases hlater : name' ∈ names
    · exact h'.done name' hlater
    · obtain rfl : name' = name := (List.mem_cons.mp hname').resolve_right hlater
      rw [h'.read_eq hlater]
      exact h.done name' List.mem_cons_self
  frame kind key hother := by
    rw [h'.frame kind key fun hkind name' hname' =>
      hother hkind name' (List.mem_cons_of_mem _ hname')]
    exact h.frame kind key fun hkind name' hname' =>
      hother hkind name' (List.mem_singleton.mp hname' ▸ List.mem_cons_self)

/-- Putting another entry under the key of a name changes the record of that name. -/
theorem single (hbase : c.base = .ok base) {tree : Tree c.kind}
    (hdone : Store.read c name { st with trees := st.trees.update c.kind tree } = .ok held)
    (hframe : ∀ key, key ≠ base ++ Utf8.bytes name →
      tree.get? key = (st.trees.tree c.kind).get? key) :
    Changed c [name] held st { st with trees := st.trees.update c.kind tree } where
  done name' hname' := by
    rw [List.mem_singleton.mp hname']
    exact hdone
  frame kind key hother := by
    by_cases hkind : kind = c.kind
    · subst hkind
      rw [Trees.tree_update_self]
      refine hframe key fun hkey => ?_
      exact hother rfl name List.mem_cons_self (by rw [hkey, keyOf_of_base hbase])
    · rw [Trees.tree_update_of_ne st.trees tree hkind]

end Changed

/-- Writing over a record changes it. -/
theorem write_changed {name : String} {held : c.kind.Payload} {st : Store}
    (h : st.read c name = .ok (some held)) (payload : c.kind.Payload) :
    ∃ after, st.write c name payload .ifPresent = (.ok true, after) ∧
      Changed c [name] (some payload) st after := by
  obtain ⟨base, hbase, hcontains⟩ := exists_contains_of_read h
  rw [Store.write_of_base hbase, hcontains, WriteMode.permits, if_pos rfl]
  refine ⟨_, rfl, .single hbase ?_ fun key hkey => SortedMap.get?_insert_of_ne _ _ hkey⟩
  rw [Store.read_of_base hbase, Trees.tree_update_self, SortedMap.get?_insert_self]
  simp [Except.map]

/-- Removing a record changes it. -/
theorem remove_changed {name : String} {held : c.kind.Payload} {st : Store}
    (h : st.read c name = .ok (some held)) :
    ∃ after, st.remove c name = (.ok true, after) ∧ Changed c [name] none st after := by
  obtain ⟨base, hbase, hcontains⟩ := exists_contains_of_read h
  rw [Store.remove_of_base hbase, hcontains]
  refine ⟨_, rfl, .single hbase ?_ fun key hkey => SortedMap.get?_erase_of_ne _ hkey⟩
  rw [Store.read_of_base hbase, Trees.tree_update_self, SortedMap.get?_erase_self]

/-- Writing over records that exist changes all of them, and says so. -/
theorem writeAll_changed (payload : c.kind.Payload) {names : List String} {st : Store}
    (hnames : ∀ name ∈ names, ∃ held, st.read c name = .ok (some held)) (written : List String) :
    ∃ after, (c.writeAll .ifPresent written (names.map fun name => (name, payload))).run
        Store.handler st = (.ok (written ++ names), after) ∧
      Changed c names (some payload) st after := by
  induction names generalizing written st with
  | nil => exact ⟨st, by simp [writeAll, Program.run], .nil rfl⟩
  | cons name names ih =>
      obtain ⟨held, hheld⟩ := hnames name List.mem_cons_self
      obtain ⟨between, hwrite, hfirst⟩ := write_changed hheld payload
      have hstill : ∀ name' ∈ names, ∃ held, between.read c name' = .ok (some held) := by
        intro name' hname'
        by_cases hsame : name' ∈ [name]
        · exact ⟨payload, hfirst.done name' hsame⟩
        · rw [hfirst.read_eq hsame]
          exact hnames name' (List.mem_cons_of_mem _ hname')
      obtain ⟨after, hrun, hrest⟩ := ih hstill (written ++ [name])
      refine ⟨after, ?_, hfirst.cons hrest⟩
      rw [List.append_assoc] at hrun
      simp only [List.map_cons, writeAll, Program.run, Store.handler, Store.perform, hwrite]
      exact hrun

/-- Removing records that exist, each once, removes all of them, and says so. -/
theorem removeAll_changed {names : List String} {st : Store} (hnodup : names.Nodup)
    (hnames : ∀ name ∈ names, ∃ held, st.read c name = .ok (some held)) (removed : List String) :
    ∃ after, (c.removeAll removed names).run Store.handler st = (.ok (removed ++ names), after) ∧
      Changed c names none st after := by
  induction names generalizing removed st with
  | nil => exact ⟨st, by simp [removeAll, Program.run], .nil rfl⟩
  | cons name names ih =>
      obtain ⟨hnew, hnodup⟩ := List.nodup_cons.mp hnodup
      obtain ⟨held, hheld⟩ := hnames name List.mem_cons_self
      obtain ⟨between, hremove, hfirst⟩ := remove_changed hheld
      have hstill : ∀ name' ∈ names, ∃ held, between.read c name' = .ok (some held) := by
        intro name' hname'
        have hother : name' ∉ [name] := by
          rw [List.mem_singleton]
          rintro rfl
          exact hnew hname'
        rw [hfirst.read_eq hother]
        exact hnames name' (List.mem_cons_of_mem _ hname')
      obtain ⟨after, hrun, hrest⟩ := ih hnodup hstill (removed ++ [name])
      refine ⟨after, ?_, hfirst.cons hrest⟩
      rw [List.append_assoc] at hrun
      simp only [removeAll, Program.run, Store.handler, Store.perform, hremove]
      exact hrun

end Collection

namespace SubjectPlan

variable {p : SubjectPlan} {origin : Origin} {assignments : List Assignment} {pageSize : Nat}
  {program : Program (List String)}

/-- What is assigned to a record is what its structure can hold. -/
theorem payloadOf_eq_ok_iff {a : Assignment} {payload : p.kind.Payload} :
    p.payloadOf origin a = .ok payload ↔ p.kind.payload? a.value = some payload := by
  rw [payloadOf]
  cases p.kind.payload? a.value <;> simp [malformed]

/-- Assignments that all give something to hold are records to write. -/
theorem exists_assigned (origin : Origin)
    (hvalid : ∀ a ∈ assignments, (p.kind.payload? a.value).isSome = true) :
    ∃ records, p.assigned origin assignments = .ok records := by
  induction assignments with
  | nil => exact ⟨[], rfl⟩
  | cons a rest ih =>
      obtain ⟨payload, hpayload⟩ :=
        Option.isSome_iff_exists.mp (hvalid a List.mem_cons_self)
      obtain ⟨records, hrecords⟩ := ih fun a' ha' => hvalid a' (List.mem_cons_of_mem _ ha')
      refine ⟨(p.entity.recordName a.column, payload) :: records, ?_⟩
      rw [assigned, payloadOf_eq_ok_iff.mpr hpayload, hrecords]
      rfl

/-- Records to write stand for the assignments one by one. -/
theorem assigned_eq_ok {records : Records p.kind}
    (h : p.assigned origin assignments = .ok records) :
    records.map (fun r => (r.1, some r.2)) =
      assignments.map fun a => (p.entity.recordName a.column, p.kind.payload? a.value) := by
  induction assignments generalizing records with
  | nil =>
      cases h
      rfl
  | cons a rest ih =>
      rw [assigned] at h
      cases hpayload : p.payloadOf origin a with
      | error e => simp [hpayload] at h
      | ok payload =>
          cases hrest : p.assigned origin rest with
          | error e => simp [hpayload, hrest, Except.map] at h
          | ok others =>
              obtain rfl : _ = records := by simpa [hpayload, hrest, Except.map] using h
              rw [List.map_cons, List.map_cons, ih hrest, payloadOf_eq_ok_iff.mp hpayload]

theorem names_of_assigned {records : Records p.kind}
    (h : p.assigned origin assignments = .ok records) :
    records.names = assignments.map fun a => p.entity.recordName a.column := by
  simpa [Function.comp_def, Records.names] using congrArg (List.map Prod.fst) (assigned_eq_ok h)

/-- Putting writes the assigned records. -/
theorem put_eq_ok {mode : WriteMode} (h : p.put origin assignments mode = .ok program) :
    ∃ records, p.assigned origin assignments = .ok records ∧
      program = p.collection.writeAll mode [] records := by
  rw [put] at h
  split at h
  next => cases h
  next =>
    cases hassigned : p.assigned origin assignments with
    | error e => simp [hassigned, Except.map] at h
    | ok records =>
        rw [hassigned] at h
        cases h
        exact ⟨records, rfl, rfl⟩

/-- Updating writes one payload under the selected names that are still there. -/
theorem update_eq_ok (h : p.update origin assignments pageSize = .ok program) :
    ∃ a payload, assignments = [a] ∧ p.kind.payloadColumn? = some a.column ∧
      p.kind.payload? a.value = some payload ∧
      program = (p.select pageSize).bind fun found =>
        p.collection.writeAll .ifPresent [] (found.names.map fun name => (name, payload)) := by
  rw [update] at h
  split at h
  next => cases h
  next column hcolumn =>
    split at h
    next a =>
      split at h
      next hsame =>
        cases hpayload : p.payloadOf origin a with
        | error e => simp [hpayload, Except.map] at h
        | ok payload =>
            rw [hpayload] at h
            cases h
            exact ⟨a, payload, rfl, by rw [hcolumn, hsame], payloadOf_eq_ok_iff.mp hpayload, rfl⟩
      next => cases h
    next => cases h

/-- What an update or a deletion leaves behind under each selected name. -/
inductive Leaves (p : SubjectPlan) (assignments : List Assignment) :
    Action → Option p.kind.Payload → Prop
  | update {a : Assignment} {payload : p.kind.Payload} (hone : assignments = [a])
      (hcolumn : p.kind.payloadColumn? = some a.column)
      (hpayload : p.kind.payload? a.value = some payload) :
      Leaves p assignments .update (some payload)
  | delete : Leaves p assignments .delete none

/-- What follows a selection in a run that succeeds starts from the trees of the selection, and
what it is about can be read. -/
theorem run_select_bind {f : Records p.kind → Program (List String)} {st after : Store}
    {names : List String}
    (h : ((p.select pageSize).bind f).run Store.handler st = (.ok names, after)) :
    ∃ found between, (p.select pageSize).run Store.handler st = (.ok found, between) ∧
      Genuine p.collection st.trees p.Names found ∧ between.trees = st.trees ∧
      (∀ name ∈ found.names, ∃ held, between.read p.collection name = .ok (some held)) ∧
      (f found).run Store.handler between = (.ok names, after) := by
  obtain ⟨found, between, hselect, hrest⟩ := Program.run_bind_eq_ok_iff.mp h
  have htrees := (p.select_readOnly pageSize).run_trees st
  rw [hselect] at htrees
  have hgenuine := p.select_ensures st.trees pageSize st.cursors found between hselect
  refine ⟨found, between, hselect, hgenuine, htrees, fun name hname => ?_, hrest⟩
  obtain ⟨r, hr, rfl⟩ := List.mem_map.mp hname
  exact ⟨r.2, Collection.mem_records_iff.mp (htrees ▸ hgenuine.stored r hr)⟩

/-- **What updating and deleting do.**  If either succeeds, its selection has succeeded; it
answers the selected names in their order, and it has changed their records and nothing
else. -/
theorem mutation_changed {action : Action} (haction : action = .update ∨ action = .delete)
    (h : p.mutation origin assignments pageSize action = .ok program) {st after : Store}
    {names : List String} (hrun : program.run Store.handler st = (.ok names, after)) :
    ∃ found between held, (p.select pageSize).run Store.handler st = (.ok found, between) ∧
      Genuine p.collection st.trees p.Names found ∧ found.names = names ∧
      p.collection.Changed names held st after ∧ p.Leaves assignments action held := by
  -- both select first, and then write over what was found
  rcases haction with rfl | rfl
  case inl =>
    obtain ⟨a, payload, hone, hcolumn, hpayload, rfl⟩ := update_eq_ok h
    obtain ⟨found, between, hselect, hgenuine, htrees, hstored, hrest⟩ := run_select_bind hrun
    obtain ⟨after', hwritten, hchanged⟩ := Collection.writeAll_changed payload hstored []
    rw [hwritten] at hrest
    cases hrest
    exact ⟨found, between, some payload, hselect, hgenuine, rfl, hchanged.of_trees htrees,
      .update hone hcolumn hpayload⟩
  case inr =>
    cases h
    obtain ⟨found, between, hselect, hgenuine, htrees, hstored, hrest⟩ := run_select_bind hrun
    obtain ⟨after', hremoved, hchanged⟩ :=
      Collection.removeAll_changed hgenuine.nodup hstored []
    rw [hremoved] at hrest
    cases hrest
    exact ⟨found, between, none, hselect, hgenuine, rfl, hchanged.of_trees htrees, .delete⟩

end SubjectPlan

end KeyedRelations
