import Mathlib
import KeyedRelations.Proofs.Entity
import KeyedRelations.Proofs.Mutation
import KeyedRelations.Storage

/-!
# Inserting and replacing

Both write one record for every assignment, in order, and columns may be repeated, so a write
can meet what an earlier one has left.  What comes of a record is decided by itself alone:
it goes through the writes to its own name (`WriteMode.settle`).  A write that only creates
lets the first of them through and only if nothing was there, and a write that always goes
through leaves the last.
-/

namespace KeyedRelations

/-- Dropping repetitions before or after a change that keeps elements apart. -/
theorem eraseDups_map {α β : Type} [BEq α] [LawfulBEq α] [BEq β] [LawfulBEq β] {f : α → β}
    (hf : Function.Injective f) (l : List α) : (l.map f).eraseDups = l.eraseDups.map f := by
  induction hn : l.length using Nat.strong_induction_on generalizing l with
  | h n ih =>
      cases l with
      | nil => rfl
      | cons a l =>
          have hfilter : (l.map f).filter (fun b => !b == f a) =
              (l.filter fun b => !b == a).map f := by
            rw [List.filter_map]
            congr 2
            funext b
            simp [hf.eq_iff]
          rw [List.map_cons, List.eraseDups_cons, List.eraseDups_cons, List.map_cons, hfilter]
          rw [ih _ _ _ rfl]
          rw [← hn, List.length_cons]
          exact Nat.lt_succ_of_le (List.length_filter_le _ l)

/-! ### Writes to one record -/

namespace WriteMode

variable {α : Type} (stored : Option α) (forms : List α)

/-- What stands under a key after writes to it in a row. -/
def settle (mode : WriteMode) (stored : Option α) : List α → Option α
  | [] => stored
  | form :: rest => mode.settle (if mode.permits stored.isSome then some form else stored) rest

/-- The last write stays. -/
theorem settle_always : settle .always stored forms = forms.getLast?.or stored := by
  induction forms generalizing stored with
  | nil => rfl
  | cons form rest ih =>
      rw [settle, permits, if_pos rfl, ih, List.getLast?_cons]
      cases rest.getLast? <;> rfl

/-- What was there stays, and otherwise the first write. -/
theorem settle_ifAbsent : settle .ifAbsent stored forms = stored.or forms.head? := by
  induction forms generalizing stored with
  | nil => cases stored <;> rfl
  | cons form rest ih =>
      rw [settle, ih]
      cases stored <;> rfl

end WriteMode

namespace Records

variable {s : Structure}

/-- What records in a row hold under one name. -/
def under (records : Records s) (name : String) : List s.Payload :=
  (records.filter (·.1 = name)).map (·.2)

theorem under_cons_self (r : String × s.Payload) (records : Records s) :
    under (r :: records) r.1 = r.2 :: under records r.1 := by
  simp [under]

theorem under_cons_of_ne {r : String × s.Payload} {name : String} (h : r.1 ≠ name)
    (records : Records s) : under (r :: records) name = under records name := by
  simp [under, h]

end Records

/-! ### Writing records in a row -/

namespace Collection

variable {c : Collection} {base : Key}

/-- Whether an entry stands under the key of a name, readable or not. -/
def holds (c : Collection) (name : String) (st : Store) : Bool :=
  match c.keyOf name with
  | .error _ => false
  | .ok key => (st.trees.tree c.kind).contains key

/-- What stands under the key of a name. -/
def form? (c : Collection) (base : Key) (name : String) (st : Store) : Option c.kind.Form :=
  (st.trees.tree c.kind).get? (base ++ Utf8.bytes name)

theorem holds_of_base (hbase : c.base = .ok base) (name : String) (st : Store) :
    c.holds name st = (c.form? base name st).isSome := by
  rw [holds, keyOf_of_base hbase]
  rfl

/-- Reading loads what stands under the key. -/
theorem read_of_form? (hbase : c.base = .ok base) {name : String} {st : Store}
    {held : Option c.kind.Payload} (h : c.form? base name st = held.map c.kind.store) :
    st.read c name = .ok held := by
  rw [form?] at h
  rw [Store.read_of_base hbase, h]
  cases held <;> simp [Except.map]

/-- What writing records in a row leaves behind. -/
structure Settled (c : Collection) (base : Key) (mode : WriteMode) (records : Records c.kind)
    (before after : Store) : Prop where
  /-- Every record has gone through the writes to its name. -/
  done : ∀ name, c.form? base name after =
    mode.settle (c.form? base name before) ((records.under name).map c.kind.store)
  /-- No entry of another name is different, in whichever tree. -/
  frame : ∀ kind key, (kind = c.kind → ∀ name ∈ records.names, key ≠ base ++ Utf8.bytes name) →
    (after.trees.tree kind).get? key = (before.trees.tree kind).get? key

variable {mode : WriteMode}

theorem Settled.nil (st : Store) : Settled c base mode [] st st := ⟨fun _ => rfl, fun _ _ _ => rfl⟩

/-- A write in front of others. -/
theorem Settled.cons {r : String × c.kind.Payload} {records : Records c.kind}
    {st st₁ st₂ : Store} (h : Settled c base mode [r] st st₁)
    (h' : Settled c base mode records st₁ st₂) : Settled c base mode (r :: records) st st₂ where
  done name := by
    rw [h'.done name, h.done name]
    by_cases hname : r.1 = name
    · subst hname
      rw [Records.under_cons_self, Records.under_cons_self]
      rfl
    · rw [Records.under_cons_of_ne hname, Records.under_cons_of_ne hname]
      rfl
  frame kind key hother := by
    rw [h'.frame kind key fun hkind name hname => hother hkind name (List.mem_cons_of_mem _ hname)]
    exact h.frame kind key fun hkind name hname =>
      hother hkind name (List.mem_singleton.mp hname ▸ List.mem_cons_self)

/-- **One write** goes through if its mode lets it, and settles its record. -/
theorem write_settled (hbase : c.base = .ok base) (mode : WriteMode)
    (r : String × c.kind.Payload) (st : Store) :
    ∃ after, st.write c r.1 r.2 mode =
        (.ok (mode.permits (c.form? base r.1 st).isSome), after) ∧
      Settled c base mode [r] st after := by
  have hcontains : (st.trees.tree c.kind).contains (base ++ Utf8.bytes r.1) =
      (c.form? base r.1 st).isSome := rfl
  rw [Store.write_of_base hbase, hcontains]
  cases hpermits : mode.permits (c.form? base r.1 st).isSome with
  | false =>
      refine ⟨st, rfl, fun name => ?_, fun _ _ _ => rfl⟩
      by_cases hname : r.1 = name
      · subst hname
        simp [Records.under, WriteMode.settle, hpermits]
      · rw [Records.under_cons_of_ne hname]
        rfl
  | true =>
      refine ⟨_, rfl, fun name => ?_, fun kind key hother => ?_⟩
      · rw [form?, Trees.tree_update_self]
        by_cases hname : r.1 = name
        · subst hname
          simp [Records.under, WriteMode.settle, hpermits]
        · have hkey : base ++ Utf8.bytes name ≠ base ++ Utf8.bytes r.1 := fun heq =>
            hname (Utf8.bytes_injective (List.append_cancel_left heq).symm)
          rw [Records.under_cons_of_ne hname, SortedMap.get?_insert_of_ne _ _ hkey]
          rfl
      · by_cases hkind : kind = c.kind
        · subst hkind
          rw [Trees.tree_update_self]
          exact SortedMap.get?_insert_of_ne _ _ (hother rfl r.1 List.mem_cons_self)
        · rw [Trees.tree_update_of_ne st.trees _ hkind]

/-- **Writing records in a row** settles each of them. -/
theorem settled_of_writeAll (hbase : c.base = .ok base) {written names : List String}
    {records : Records c.kind} {st after : Store}
    (hrun : (c.writeAll mode written records).run Store.handler st = (.ok names, after)) :
    Settled c base mode records st after := by
  induction records generalizing written st with
  | nil =>
      obtain ⟨-, rfl⟩ : written = names ∧ st = after := by
        simpa [writeAll, Program.run] using hrun
      exact .nil st
  | cons r records ih =>
      obtain ⟨between, hwrite, hfirst⟩ := write_settled hbase mode r st
      simp only [writeAll, Program.run, Store.handler, Store.perform, hwrite] at hrun
      exact hfirst.cons (ih hrun)

/-- Creating records answers the names that were missing, each once, in the order in which
they come first. -/
theorem writeAll_created (hbase : c.base = .ok base) {written names : List String}
    {records : Records c.kind} {st after : Store}
    (hrun : (c.writeAll .ifAbsent written records).run Store.handler st = (.ok names, after)) :
    names = written ++ (records.names.filter fun name => !c.holds name st).eraseDups := by
  induction records generalizing written st with
  | nil =>
      obtain ⟨rfl, rfl⟩ : written = names ∧ st = after := by
        simpa [writeAll, Program.run] using hrun
      simp [Records.names]
  | cons r records ih =>
      obtain ⟨between, hwrite, hfirst⟩ := write_settled hbase .ifAbsent r st
      simp only [writeAll, Program.run, Store.handler, Store.perform, hwrite] at hrun
      have hafter : ∀ name, c.holds name between = (c.holds name st || name = r.1) := by
        intro name
        rw [holds_of_base hbase, holds_of_base hbase, hfirst.done, WriteMode.settle_ifAbsent]
        by_cases hname : name = r.1
        · simp [hname, Records.under_cons_self]
        · rw [Records.under_cons_of_ne (Ne.symm hname)]
          simp [Records.under, hname]
      rw [ih hrun, ← holds_of_base hbase]
      cases hheld : c.holds r.1 st with
      | true =>
          have hsame : (fun name => !c.holds name between) = fun name => !c.holds name st := by
            funext name
            rw [hafter]
            by_cases hname : name = r.1 <;> simp [hname, hheld]
          simp [Records.names, WriteMode.permits, hheld, hsame]
      | false =>
          have hrest : (fun name => !c.holds name between) =
              fun name => !c.holds name st && !(name == r.1) := by
            funext name
            rw [hafter, Bool.not_or]
            rfl
          have hcons : (Records.names (r :: records)).filter (fun name => !c.holds name st) =
              r.1 :: (Records.names records).filter fun name => !c.holds name st := by
            simp [Records.names, hheld]
          rw [hcons, List.eraseDups_cons, List.filter_filter, hrest]
          simp [WriteMode.permits, Bool.and_comm]

end Collection

/-! ### Assignments -/

namespace SubjectPlan

variable {p : SubjectPlan} {origin : Origin} {assignments : List Assignment}

/-- What is to be written under the name of a column is what is assigned to the column. -/
theorem under_of_assigned {records : Records p.kind}
    (h : p.assigned origin assignments = .ok records) (column : String) :
    (records.under (p.entity.recordName column)).map some =
      (assignments.filter (·.column = column)).map fun a => p.kind.payload? a.value := by
  have hfilter := congrArg (fun l => (l.filter (·.1 = p.entity.recordName column)).map Prod.snd)
    (assigned_eq_ok h)
  simpa [Records.under, List.filter_map, Function.comp_def,
    p.entity.recordName_injective.eq_iff] using hfilter

/-- Wherever the collection has keys, putting what can be held comes to an end. -/
theorem exists_put {base : Key} (hbase : p.collection.base = .ok base) (origin : Origin)
    (mode : WriteMode) (hsome : assignments ≠ [])
    (hvalid : ∀ a ∈ assignments, (p.kind.payload? a.value).isSome = true) (st : Store) :
    ∃ records names after, p.assigned origin assignments = .ok records ∧
      p.put origin assignments mode = .ok (p.collection.writeAll mode [] records) ∧
      (p.collection.writeAll mode [] records).run Store.handler st = (.ok names, after) := by
  obtain ⟨records, hrecords⟩ := exists_assigned origin hvalid
  obtain ⟨names, after, hrun⟩ := Collection.writeAll_ok hbase mode [] records st
  refine ⟨records, names, after, hrecords, ?_, hrun⟩
  rw [put, if_neg (by simpa using hsome), hrecords]
  rfl

/-- **What inserting does.** -/
structure Inserted (p : SubjectPlan) (assignments : List Assignment) (keys : List String)
    (before after : Store) : Prop where
  /-- What was there stays, in whichever tree. -/
  kept : ∀ kind key, (before.trees.tree kind).contains key = true →
    (after.trees.tree kind).get? key = (before.trees.tree kind).get? key
  /-- A record that was missing holds what the first assignment to its column gives. -/
  first : ∀ column a, (assignments.filter (·.column = column)).head? = some a →
    p.collection.holds (p.entity.recordName column) before = false →
    after.read p.collection (p.entity.recordName column) = .ok (p.kind.payload? a.value)
  /-- The keys are the columns whose records were missing, each once, in the order of their
  first assignments. -/
  keys : keys = ((assignments.map (·.column)).filter fun column =>
    !p.collection.holds (p.entity.recordName column) before).eraseDups
  /-- No entry that is not assigned to is different, in whichever tree. -/
  others : ∀ kind key,
    (kind = p.kind → ∀ a ∈ assignments,
      p.collection.keyOf (p.entity.recordName a.column) ≠ .ok key) →
    (after.trees.tree kind).get? key = (before.trees.tree kind).get? key

/-- **What replacing does.** -/
structure Replaced (p : SubjectPlan) (assignments : List Assignment)
    (before after : Store) : Prop where
  /-- Every record that is assigned to holds what the last assignment to its column gives. -/
  last : ∀ column a, (assignments.filter (·.column = column)).getLast? = some a →
    after.read p.collection (p.entity.recordName column) = .ok (p.kind.payload? a.value)
  /-- No entry that is not assigned to is different, in whichever tree. -/
  others : ∀ kind key,
    (kind = p.kind → ∀ a ∈ assignments,
      p.collection.keyOf (p.entity.recordName a.column) ≠ .ok key) →
    (after.trees.tree kind).get? key = (before.trees.tree kind).get? key

/-- Settled records leave what is not assigned to as it was. -/
theorem others_of_settled {base : Key} (hbase : p.collection.base = .ok base) {mode : WriteMode}
    {records : Records p.kind} (hrecords : p.assigned origin assignments = .ok records)
    {before after : Store} (h : p.collection.Settled base mode records before after)
    {kind : Structure} {key : Key}
    (hother : kind = p.kind → ∀ a ∈ assignments,
      p.collection.keyOf (p.entity.recordName a.column) ≠ .ok key) :
    (after.trees.tree kind).get? key = (before.trees.tree kind).get? key := by
  refine h.frame kind key fun hkind name hname hkey => ?_
  rw [names_of_assigned hrecords] at hname
  obtain ⟨a, ha, rfl⟩ := List.mem_map.mp hname
  exact hother hkind a ha (by rw [Collection.keyOf_of_base hbase, hkey])

/-- Creating records under the columns is inserting. -/
theorem inserted_of_run {base : Key} (hbase : p.collection.base = .ok base)
    {records : Records p.kind} (hrecords : p.assigned origin assignments = .ok records)
    {names : List String} {before after : Store}
    (hrun : (p.collection.writeAll .ifAbsent [] records).run Store.handler before =
      (.ok names, after)) :
    p.Inserted assignments (names.map p.entity.naturalKey) before after := by
  have hsettled := Collection.settled_of_writeAll hbase hrun
  have hdone := hsettled.done
  simp only [WriteMode.settle_ifAbsent] at hdone
  refine ⟨fun kind key hheld => ?kept, fun column a ha hmissing => ?first, ?keys,
    fun kind key => others_of_settled hbase hrecords hsettled⟩
  case kept =>
    by_cases hnamed : kind = p.kind ∧ ∃ name ∈ records.names, key = base ++ Utf8.bytes name
    · obtain ⟨rfl, name, -, rfl⟩ := hnamed
      obtain ⟨form, hform⟩ := Option.isSome_iff_exists.mp hheld
      have hname := hdone name
      rw [Collection.form?, Collection.form?, hform] at hname
      rw [hname, hform]
      rfl
    · exact hsettled.frame kind key fun hkind name hname hkey =>
        hnamed ⟨hkind, name, hname, hkey⟩
  case first =>
    have hhead : ((records.under (p.entity.recordName column)).head?).map some =
        some (p.kind.payload? a.value) := by
      rw [← List.head?_map, under_of_assigned hrecords, List.head?_map, ha]
      rfl
    obtain ⟨payload, hpayload, hsame⟩ := Option.map_eq_some_iff.mp hhead
    rw [Collection.holds_of_base hbase, Option.isSome_eq_false_iff, Option.isNone_iff_eq_none]
      at hmissing
    refine Collection.read_of_form? hbase ?_
    rw [hdone, hmissing, Option.none_or, List.head?_map, hpayload, ← hsame]
  case keys =>
    have hnames : (records.names.filter fun name => !p.collection.holds name before) =
        ((assignments.map (·.column)).filter fun column =>
          !p.collection.holds (p.entity.recordName column) before).map p.entity.recordName := by
      rw [names_of_assigned hrecords, List.filter_map, List.filter_map, List.map_map]
      rfl
    rw [Collection.writeAll_created hbase hrun, List.nil_append, hnames,
      eraseDups_map p.entity.recordName_injective, List.map_map]
    refine (List.map_congr_left fun column _ => ?_).trans (List.map_id _)
    exact p.entity.naturalKey_recordName column

/-- Writing records under the columns, whatever was there, is replacing. -/
theorem replaced_of_run {base : Key} (hbase : p.collection.base = .ok base)
    {records : Records p.kind} (hrecords : p.assigned origin assignments = .ok records)
    {names : List String} {before after : Store}
    (hrun : (p.collection.writeAll .always [] records).run Store.handler before =
      (.ok names, after)) :
    p.Replaced assignments before after := by
  have hsettled := Collection.settled_of_writeAll hbase hrun
  refine ⟨fun column a ha => ?_, fun kind key => others_of_settled hbase hrecords hsettled⟩
  have hlast : ((records.under (p.entity.recordName column)).getLast?).map some =
      some (p.kind.payload? a.value) := by
    rw [← List.getLast?_map, under_of_assigned hrecords, List.getLast?_map, ha]
    rfl
  obtain ⟨payload, hpayload, hsame⟩ := Option.map_eq_some_iff.mp hlast
  refine Collection.read_of_form? hbase ?_
  rw [hsettled.done, WriteMode.settle_always, List.getLast?_map, hpayload, ← hsame]
  rfl

end SubjectPlan

namespace Storage

variable {s : Storage Store} {q : Query} {p : SubjectPlan}

/-- A write whose program comes to its end answers what the program does. -/
theorem apply_of_run {action : Action} {program : Program (List String)} {before after : Store}
    {names : List String}
    (hprogram : p.mutation (s.planner.origin q) q.assignments s.config.pageSize action =
      .ok program)
    (hrun : program.run Store.handler before = (.ok names, after)) :
    s.apply Store.handler action q p before = (.ok names, after) := by
  simp only [apply, hprogram, perform, hrun, Except.mapError]

/-- **Inserting and replacing.**  A subject of any structure whose container key holds no zero
byte, and any assignments, at least one, that all give what the structure can hold: whatever
the store has, both writes come to their end.  Inserting creates the missing records by the
first assignments and answers them, and replacing leaves the last assignments.  Lists and
hashes hold the value that is assigned, sorted sets the number that it stands for, and sets
nothing but the record. -/
theorem apply_puts (hcontainer : p.kind ≠ .list → separator ∉ Utf8.bytes p.entity.containerKey)
    (hsome : q.assignments ≠ [])
    (hvalid : ∀ a ∈ q.assignments, (p.kind.payload? a.value).isSome = true) (before : Store) :
    (∃ names after, s.apply Store.handler .insert q p before = (.ok names, after) ∧
      p.Inserted q.assignments (Block.ofNames p.name p.entity names).keys before after) ∧
    (∃ names after, s.apply Store.handler .replace q p before = (.ok names, after) ∧
      p.Replaced q.assignments before after) ∧
    ∀ v : Value, Structure.list.payload? v = some v ∧ Structure.hash.payload? v = some v ∧
      Structure.sortedSet.payload? v = v.number? ∧ Structure.set.payload? v = some () := by
  obtain ⟨base, hbase⟩ : ∃ base, p.collection.base = .ok base := by
    by_cases hlist : p.kind = .list
    · exact ⟨[], Collection.base_eq_ok_iff.mpr (Or.inl ⟨hlist, rfl⟩)⟩
    · exact Collection.exists_base (hcontainer hlist)
  refine ⟨?insert, ?replace, fun v => ⟨rfl, rfl, rfl, rfl⟩⟩
  case insert =>
    obtain ⟨records, names, after, hrecords, hput, hrun⟩ :=
      SubjectPlan.exists_put hbase (s.planner.origin q) .ifAbsent hsome hvalid before
    exact ⟨names, after, apply_of_run hput hrun, SubjectPlan.inserted_of_run hbase hrecords hrun⟩
  case replace =>
    obtain ⟨records, names, after, hrecords, hput, hrun⟩ :=
      SubjectPlan.exists_put hbase (s.planner.origin q) .always hsome hvalid before
    exact ⟨names, after, apply_of_run hput hrun, SubjectPlan.replaced_of_run hbase hrecords hrun⟩

/-- Notes in a hash of their name. -/
def notes : SubjectPlan := ⟨"notes", .ofName "notes", .hash, [], []⟩

/-- A store of one note. -/
def oneNote : Store :=
  (Store.perform (.write ⟨.hash, "notes"⟩ "notes:a" (.int 0) .always) Store.empty).2

/-- Assignments to that note, and two to one that is missing. -/
def threeAssignments : Query :=
  (((Query.ofAction "insert").withAssignment "a" (.int 1)).withAssignment "b"
    (.int 2)).withAssignment "b" (.int 3)

theorem apply_puts_threeAssignments :
    threeAssignments.assignments ≠ [] ∧
      (∃ names after, (new {} (Pool.ofConfig .default) .empty Store.empty).apply Store.handler
          .insert threeAssignments notes oneNote = (.ok names, after) ∧
        (Block.ofNames "notes" (.ofName "notes") names).keys = ["b"] ∧
        after.read ⟨.hash, "notes"⟩ "notes:b" = .ok (some (.int 2))) ∧
      ∃ names after, (new {} (Pool.ofConfig .default) .empty Store.empty).apply Store.handler
          .replace threeAssignments notes oneNote = (.ok names, after) ∧
        after.read ⟨.hash, "notes"⟩ "notes:b" = .ok (some (.int 3)) := by
  have hsome : threeAssignments.assignments ≠ [] := by decide
  have hcontainer : notes.kind ≠ .list → separator ∉ Utf8.bytes notes.entity.containerKey :=
    fun _ => by decide
  have hvalid : ∀ a ∈ threeAssignments.assignments,
      (notes.kind.payload? a.value).isSome = true := fun a _ => rfl
  obtain ⟨⟨names, after, hinsert, hinserted⟩, ⟨names', after', hreplace, hreplaced⟩, -⟩ :=
    apply_puts (s := new {} (Pool.ofConfig .default) .empty Store.empty) hcontainer hsome hvalid
      oneNote
  refine ⟨hsome, ⟨names, after, hinsert, ?_, ?_⟩, names', after', hreplace, ?_⟩
  · have hkeys : ((threeAssignments.assignments.map (·.column)).filter fun column =>
        !notes.collection.holds (notes.entity.recordName column) oneNote).eraseDups = ["b"] := by
      cbv
    exact hinserted.keys.trans hkeys
  · have hmissing : notes.collection.holds (notes.entity.recordName "b") oneNote = false := by cbv
    exact hinserted.first "b" ⟨"b", .int 2⟩ (by decide) hmissing
  · exact hreplaced.last "b" ⟨"b", .int 3⟩ (by decide)

end Storage

end KeyedRelations
