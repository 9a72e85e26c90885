import KeyedRelations.Proofs.Mutation.Presence
import KeyedRelations.Proofs.Storage.Put
import KeyedRelations.Proofs.Storage.Rejection
import KeyedRelations.Proofs.Store.Journal

/-!
# What a write says is affected

A write answers a block of the records that it has written or removed, and their number.  What it
has touched can be read off a journal between the storage and its store: the records whose write
or removal went through, one entry for each time (`Storage.touched`).  The block lists exactly
these entries, in order.

Inserting, updating and deleting touch no record twice.  A replacement goes through every time, so
it touches a record once for each assignment to its column, and lists and counts it as often.
-/

namespace KeyedRelations

/-- What is left without repetitions has none. -/
theorem nodup_eraseDups {α : Type} [BEq α] [LawfulBEq α] (l : List α) : l.eraseDups.Nodup := by
  induction hn : l.length using Nat.strong_induction_on generalizing l with
  | h n ih =>
      cases l with
      | nil => exact List.nodup_nil
      | cons a l =>
          rw [List.eraseDups_cons, List.nodup_cons]
          constructor
          · intro hmem
            have hother := (List.mem_filter.mp (List.mem_eraseDups.mp hmem)).2
            simp at hother
          · refine ih _ ?_ _ rfl
            rw [← hn, List.length_cons]
            exact Nat.lt_succ_of_le (List.length_filter_le _ l)

/-- Only a list without repetitions is as long as what is left without them. -/
theorem length_eq_length_dedup_iff {α : Type} [DecidableEq α] {l : List α} :
    l.length = l.dedup.length ↔ l.Nodup := by
  constructor
  · intro hlength
    exact List.dedup_eq_self.mp (l.dedup_sublist.eq_of_length hlength.symm)
  · intro hnodup
    rw [hnodup.dedup]

/-! ### What programs touch -/

namespace Program

variable {σ α β : Type} {h : Handler σ}

theorem touched_bind_of_readOnly {program : Program α} (hread : program.ReadOnly)
    (f : α → Program β) {s s' : σ} {a : α} (hrun : program.run h s = (.ok a, s')) :
    (program.bind f).touched h s = (f a).touched h s' := by
  have hnone := hread.touched h s
  rw [touched] at hnone
  rw [touched, exchanges_bind, hrun, List.filterMap_append, hnone, List.nil_append]
  rfl

end Program

namespace Collection

variable {σ : Type} {c : Collection} {h : Handler σ}

/-- Over any store, writing in a row answers the records that are written, one entry for each
time. -/
theorem touched_writeAll {mode : WriteMode} {written names : List String}
    {records : Records c.kind} {s s' : σ}
    (hrun : (c.writeAll mode written records).run h s = (.ok names, s')) :
    ∃ more, names = written ++ more ∧
      (c.writeAll mode written records).touched h s = more.map fun name => (c, name) := by
  induction records generalizing written s with
  | nil =>
      obtain ⟨rfl, -⟩ : written = names ∧ s = s' := by
        simpa [writeAll, Program.run] using hrun
      exact ⟨[], by simp, rfl⟩
  | cons r records ih =>
      obtain ⟨through, s₁, hwrite, hrest⟩ := Program.run_command_eq_ok_iff.mp hrun
      obtain ⟨more, hnames, htouched⟩ := ih hrest
      rw [Program.touched] at htouched
      rw [writeAll, Program.touched, Program.exchanges_command, hwrite]
      cases through with
      | false => exact ⟨more, hnames, by simpa [Exchange.touched?] using htouched⟩
      | true =>
          refine ⟨r.1 :: more, by simpa using hnames, ?_⟩
          simpa [Exchange.touched?] using htouched

/-- Removing in a row answers the records that are removed. -/
theorem touched_removeAll {removed names' names : List String} {s s' : σ}
    (hrun : (c.removeAll removed names').run h s = (.ok names, s')) :
    ∃ more, names = removed ++ more ∧
      (c.removeAll removed names').touched h s = more.map fun name => (c, name) := by
  induction names' generalizing removed s with
  | nil =>
      obtain ⟨rfl, -⟩ : removed = names ∧ s = s' := by
        simpa [removeAll, Program.run] using hrun
      exact ⟨[], by simp, rfl⟩
  | cons name names' ih =>
      obtain ⟨existed, s₁, hremove, hrest⟩ := Program.run_command_eq_ok_iff.mp hrun
      obtain ⟨more, hnames, htouched⟩ := ih hrest
      rw [Program.touched] at htouched
      rw [removeAll, Program.touched, Program.exchanges_command, hremove]
      cases existed with
      | false => exact ⟨more, hnames, by simpa [Exchange.touched?] using htouched⟩
      | true =>
          refine ⟨name :: more, by simpa using hnames, ?_⟩
          simpa [Exchange.touched?] using htouched

/-- Over the store, creating in a row goes through once for each name at most. -/
theorem nodup_of_writeAll {names : List String} {records : Records c.kind} {st after : Store}
    (hrun : (c.writeAll .ifAbsent [] records).run Store.handler st = (.ok names, after)) :
    names.Nodup ∧ ∀ name ∈ names, name ∈ records.names := by
  cases records with
  | nil =>
      obtain ⟨rfl, -⟩ : [] = names ∧ st = after := by
        simpa [writeAll, Program.run] using hrun
      simp
  | cons r records =>
      obtain ⟨through, st₁, hwrite, -⟩ := Program.run_command_eq_ok_iff.mp hrun
      have hgoes : st.write c r.1 r.2 .ifAbsent = (.ok through, st₁) := hwrite
      obtain ⟨base, hbase⟩ := base_of_write hgoes
      rw [writeAll_created hbase hrun, List.nil_append]
      exact ⟨nodup_eraseDups _, fun name hname =>
        (List.mem_filter.mp (List.mem_eraseDups.mp hname)).1⟩

/-- Over the store, writing whatever was there goes through every time. -/
theorem writeAll_replaced {written names : List String} {records : Records c.kind}
    {st after : Store}
    (hrun : (c.writeAll .always written records).run Store.handler st = (.ok names, after)) :
    names = written ++ records.names := by
  induction records generalizing written st with
  | nil =>
      obtain ⟨rfl, -⟩ : written = names ∧ st = after := by
        simpa [writeAll, Program.run] using hrun
      simp [Records.names]
  | cons r records ih =>
      obtain ⟨through, st₁, hwrite, hrest⟩ := Program.run_command_eq_ok_iff.mp hrun
      have hgoes : st.write c r.1 r.2 .always = (.ok through, st₁) := hwrite
      obtain ⟨base, hbase⟩ := base_of_write hgoes
      obtain ⟨after', hgoes', -⟩ := write_settled hbase .always r st
      obtain rfl : true = through := by
        simpa [WriteMode.permits] using congrArg Prod.fst (hgoes'.symm.trans hgoes)
      rw [ih hrest, if_pos rfl, List.append_assoc]
      rfl

end Collection

namespace SubjectPlan

variable {σ : Type} {p : SubjectPlan} {origin : Origin} {assignments : List Assignment}
  {pageSize : Nat} {action : Action} {program : Program (List String)} {h : Handler σ}

/-- What follows a selection touches what it answers, if it does so by itself. -/
theorem touched_select_bind {f : Records p.kind → Program (List String)} {names : List String}
    (hf : ∀ found s s', (f found).run h s = (.ok names, s') →
      (f found).touched h s = names.map fun name => (p.collection, name)) {s s' : σ}
    (hrun : ((p.select pageSize).bind f).run h s = (.ok names, s')) :
    ((p.select pageSize).bind f).touched h s = names.map fun name => (p.collection, name) := by
  obtain ⟨found, s₁, hselect, hnext⟩ := Program.run_bind_eq_ok_iff.mp hrun
  rw [Program.touched_bind_of_readOnly (p.select_readOnly pageSize) f hselect]
  exact hf found s₁ s' hnext

/-- **Over any store a write answers what it touches**, one entry for each time. -/
theorem touched_mutation (hprogram : p.mutation origin assignments pageSize action = .ok program)
    {names : List String} {s s' : σ} (hrun : program.run h s = (.ok names, s')) :
    program.touched h s = names.map fun name => (p.collection, name) := by
  have hwrites : ∀ {mode : WriteMode} {records : Records p.kind} {s s' : σ},
      (p.collection.writeAll mode [] records).run h s = (.ok names, s') →
        (p.collection.writeAll mode [] records).touched h s =
          names.map fun name => (p.collection, name) := by
    intro mode records s s' hrun
    obtain ⟨more, rfl, htouched⟩ := Collection.touched_writeAll hrun
    exact htouched
  cases action with
  | select => cases hprogram
  | insert | replace =>
      obtain ⟨records, -, rfl⟩ := put_eq_ok hprogram
      exact hwrites hrun
  | update =>
      obtain ⟨a, payload, -, -, -, rfl⟩ := update_eq_ok hprogram
      exact touched_select_bind (fun found s s' => hwrites) hrun
  | delete =>
      cases hprogram
      refine touched_select_bind (fun found s s' hrun => ?_) hrun
      obtain ⟨more, rfl, htouched⟩ := Collection.touched_removeAll hrun
      exact htouched

/-- What a write over the store answers are names of keys.  No key stands twice, unless records
are replaced, whose keys are the columns that are assigned to. -/
theorem exists_keys_of_mutation
    (hprogram : p.mutation origin assignments pageSize action = .ok program)
    {names : List String} {st after : Store}
    (hrun : program.run Store.handler st = (.ok names, after)) :
    ∃ keys : List String, names = keys.map p.entity.recordName ∧
      (action ≠ .replace → keys.Nodup) ∧
      (action = .replace → keys = assignments.map (·.column)) := by
  have hchanging : action = .update ∨ action = .delete → ∃ keys : List String,
      names = keys.map p.entity.recordName ∧ keys.Nodup := by
    intro hchanging
    obtain ⟨found, -, -, -, hgenuine, rfl, -, -⟩ := mutation_changed hchanging hprogram hrun
    exact ⟨_, hgenuine.recordName_naturalKey.symm, hgenuine.nodup_keys⟩
  cases action with
  | select => cases hprogram
  | insert =>
      obtain ⟨records, hrecords, rfl⟩ := put_eq_ok hprogram
      obtain ⟨hnodup, hmem⟩ := Collection.nodup_of_writeAll hrun
      have hnames : (names.map p.entity.naturalKey).map p.entity.recordName = names := by
        refine Entity.map_recordName_naturalKey fun name hname => ?_
        have hassigned := hmem name hname
        rw [names_of_assigned hrecords] at hassigned
        obtain ⟨a, -, rfl⟩ := List.mem_map.mp hassigned
        exact ⟨a.column, rfl⟩
      exact ⟨_, hnames.symm, fun _ => .of_map p.entity.recordName (hnames.symm ▸ hnodup),
        Action.noConfusion⟩
  | replace =>
      obtain ⟨records, hrecords, rfl⟩ := put_eq_ok hprogram
      refine ⟨assignments.map (·.column), ?_, fun hother => absurd rfl hother, fun _ => rfl⟩
      rw [Collection.writeAll_replaced hrun, List.nil_append, names_of_assigned hrecords,
        List.map_map]
      rfl
  | update =>
      obtain ⟨keys, hnames, hnodup⟩ := hchanging (Or.inl rfl)
      exact ⟨keys, hnames, fun _ => hnodup, Action.noConfusion⟩
  | delete =>
      obtain ⟨keys, hnames, hnodup⟩ := hchanging (Or.inr rfl)
      exact ⟨keys, hnames, fun _ => hnodup, Action.noConfusion⟩

end SubjectPlan

namespace Storage

variable {σ : Type}

/-- The storage with an empty journal before its store. -/
def journaled (s : Storage σ) : Storage (Journal σ) := s.onStore (.ofStore s.store)

/-- The records that a query writes or removes, one entry for each time. -/
def touched (s : Storage σ) (h : Handler σ) (q : Query) (main : Option Entity) :
    List (Collection × String) :=
  (s.journaled.execute (Journal.handler h) q main).2.store.exchanges.filterMap Exchange.touched?

variable {s : Storage σ} {h : Handler σ} {q : Query} {main : Option Entity} {action : Action}

theorem execute_journaled {p : SubjectPlan} {handle : HandleId} {pool : Pool}
    {program : Program (List String)} {names : List String} {store : σ}
    (haction : q.resolvedAction? = some action) (hwrites : action.isWrite = true)
    (hplan : s.planner.plan q main = .ok ⟨p, []⟩) (hacquire : s.pool.acquire = (.ok handle, pool))
    (hprogram : p.mutation (s.planner.origin q) q.assignments s.config.pageSize action =
      .ok program)
    (hrun : program.run h s.store = (.ok names, store)) :
    (s.journaled.execute (Journal.handler h) q main).1 =
        .ok (.ofWrite (.ofNames p.name p.entity names)) ∧
      (s.journaled.execute (Journal.handler h) q main).2.store =
        ⟨store, program.exchanges h s.store⟩ := by
  have hplan' : s.journaled.planner.plan q main = .ok ⟨p, []⟩ := hplan
  have hrun' : program.run (Journal.handler h) s.journaled.store =
      (.ok names, ⟨store, program.exchanges h s.store⟩) := by
    have hjournal := Program.run_journal h program s.store []
    rw [hrun] at hjournal
    exact hjournal
  have hwrite := write_of_run (s := s.journaled) (q := q) hacquire hprogram hrun'
  rw [execute_fst, execute_store, dispatch_of_plan haction hplan', if_pos hwrites, hwrite]
  exact ⟨rfl, rfl⟩

/-- **What a write says is affected.**  If a query that writes succeeds, it answers one block and
the number of its keys.  The block lists the records that the query has touched, by the answers of
the store to its writes and removals, one entry for each time; with a journal before the store
the query answers the same and leaves the store alike.

A member of a set that is replaced counts as touched even if it was there and its set stays as it
is: that is read off a write in the mode `.always`, which answers that it has written the member
whether it is new or not, while to add a member is answered so for new ones only (`Store.write`).

No record is listed twice if and only if a replacement does not assign to a column twice, and so
it is with the number being that of the touched records: the keys of a replacement are the columns
that are assigned to, repetitions included. -/
theorem execute_lists_touched {s s' : Storage Store} {result : QueryResult}
    (haction : q.resolvedAction? = some action) (hwrites : action.isWrite = true)
    (hexecute : s.execute Store.handler q main = (.ok result, s')) :
    ∃ p block, s.planner.plan q main = .ok ⟨p, []⟩ ∧
      result.blocks = [block] ∧ result.affected = block.keys.length ∧
      (s.journaled.execute (Journal.handler Store.handler) q main).1 = .ok result ∧
      (s.journaled.execute (Journal.handler Store.handler) q main).2.store.store = s'.store ∧
      s.touched Store.handler q main =
        block.keys.map (fun key => (p.collection, p.entity.recordName key)) ∧
      (action = .replace → block.keys = q.assignments.map (·.column)) ∧
      (block.keys.Nodup ↔ (action = .replace → (q.assignments.map (·.column)).Nodup)) ∧
      (result.affected = (s.touched Store.handler q main).dedup.length ↔
        (action = .replace → (q.assignments.map (·.column)).Nodup)) := by
  obtain ⟨p, hplan, ⟨handle, pool, hacquire⟩, program, names, hprogram, hrun, rfl⟩ :=
    execute_eq_ok_of_write haction hwrites hexecute
  obtain ⟨hanswer, hjournal⟩ :=
    execute_journaled haction hwrites hplan hacquire hprogram hrun
  obtain ⟨keys, rfl, hnodup, hreplaced⟩ := SubjectPlan.exists_keys_of_mutation hprogram hrun
  have hkeys : (Block.ofNames p.name p.entity (keys.map p.entity.recordName)).keys = keys := by
    refine List.map_map.trans ((List.map_congr_left fun key _ => ?_).trans (List.map_id _))
    exact p.entity.naturalKey_recordName key
  have htouched : s.touched Store.handler q main =
      keys.map fun key => (p.collection, p.entity.recordName key) := by
    have hall := SubjectPlan.touched_mutation hprogram hrun
    rw [List.map_map] at hall
    rw [touched, hjournal]
    exact hall
  have hnodup_iff : keys.Nodup ↔ (action = .replace → (q.assignments.map (·.column)).Nodup) := by
    by_cases hreplace : action = .replace
    · simp [hreplace, ← hreplaced hreplace]
    · simp [hreplace, hnodup hreplace]
  refine ⟨p, _, hplan, rfl, rfl, hanswer, by rw [hjournal], ?_, ?_, ?_, ?_⟩
  · rw [hkeys, htouched]
  · rw [hkeys]
    exact hreplaced
  · rw [hkeys]
    exact hnodup_iff
  · have hsame : Function.Injective fun key => (p.collection, p.entity.recordName key) :=
      fun key key' heq => p.entity.recordName_injective (Prod.mk.inj heq).2
    have hlength : (QueryResult.ofWrite (.ofNames p.name p.entity
        (keys.map p.entity.recordName))).affected =
        (keys.map fun key => (p.collection, p.entity.recordName key)).length := by
      rw [List.length_map]
      exact congrArg List.length hkeys
    rw [htouched, hlength, length_eq_length_dedup_iff, List.nodup_map_iff hsame]
    exact hnodup_iff

/-- A storage without records. -/
def noNotes : Storage Store := new {} (Pool.ofConfig .default) .empty Store.empty

/-- A query that assigns twice to one note. -/
def assignedTwice (action : String) : Query :=
  (((Query.ofAction action).join "notes" "notes").withAssignment "a" (.int 1)).withAssignment "a"
    (.int 2)

theorem execute_lists_touched_assignedTwice :
    ∃ result s', noNotes.execute Store.handler (assignedTwice "insert")
        (some (.ofName "notes")) = (.ok result, s') ∧
      result.affected = 1 ∧
      result.affected = (noNotes.touched Store.handler (assignedTwice "insert")
        (some (.ofName "notes"))).dedup.length := by
  have hok : (noNotes.execute Store.handler (assignedTwice "insert")
      (some (.ofName "notes"))).1 =
      .ok (.ofWrite (.ofNames "notes" (.ofName "notes") ["notes:a"])) := by
    rw [execute_fst]
    cbv
  have hexecute := Prod.fst_eq_iff.mp hok
  have haction : (assignedTwice "insert").resolvedAction? = some .insert := by cbv
  obtain ⟨p, block, -, -, -, -, -, -, -, -, hnumber⟩ :=
    execute_lists_touched haction rfl hexecute
  exact ⟨_, _, hexecute, rfl, hnumber.mpr Action.noConfusion⟩

/-- Replacing one record by two assignments lists it twice and counts two. -/
theorem replace_counts_twice :
    (noNotes.execute Store.handler (assignedTwice "replace") (some (.ofName "notes"))).1 =
        .ok ⟨[⟨"notes", "notes", ["a", "a"], [⟨"key", [.text "notes:a", .text "notes:a"]⟩]⟩], 2⟩ ∧
      (noNotes.touched Store.handler (assignedTwice "replace") (some (.ofName "notes"))).dedup =
        [(⟨.hash, "notes"⟩, "notes:a")] := by
  constructor
  · rw [execute_fst]
    cbv
  · cbv

end Storage

end KeyedRelations
