import Mathlib
import KeyedRelations.Proofs.Mutation
import KeyedRelations.Proofs.Storage.Execution

/-!
# Failed queries change nothing

Writing has no way back, so a query that fails must not have written.  What is wrong with
the query itself shows before its program starts, and the program reads before it writes.
Once it writes, only the base of its collection can be missing, and then the first write
already fails: whether a write fails does not depend on the record.
-/

namespace KeyedRelations

namespace Program

variable {α β : Type}

/-- A program that has changed no tree if it fails. -/
def Atomic (program : Program α) : Prop :=
  ∀ st e, (program.run Store.handler st).1 = .error e →
    (program.run Store.handler st).2.trees = st.trees

/-- Reading first keeps a program atomic. -/
theorem ReadOnly.bind_atomic {program : Program α} {f : α → Program β} (h : ReadOnly program)
    (hf : ∀ a, Atomic (f a)) : Atomic (program.bind f) := by
  intro st e he
  have hread := h.run_trees st
  rw [run_bind] at he ⊢
  rcases hrun : program.run Store.handler st with ⟨⟨_⟩ | ⟨a⟩, st'⟩
  · simpa [hrun] using hread
  · rw [hrun] at he hread
    exact (hf a st' e he).trans hread

/-- A program that cannot fail is atomic. -/
theorem atomic_of_ok {program : Program α}
    (h : ∀ st, ∃ a st', program.run Store.handler st = (.ok a, st')) : Atomic program := by
  intro st e he
  obtain ⟨a, st', hrun⟩ := h st
  rw [hrun] at he
  cases he

end Program

namespace Collection

/-- Writing records fails before the first of them or not at all. -/
theorem writeAll_atomic (c : Collection) (mode : WriteMode) (written : List String)
    (records : Records c.kind) : (c.writeAll mode written records).Atomic := by
  cases hbase : c.base with
  | ok base => exact Program.atomic_of_ok (writeAll_ok hbase mode written records)
  | error e =>
      cases records with
      | nil => exact Program.atomic_of_ok fun st => ⟨written, st, rfl⟩
      | cons r records =>
          intro st e' _
          simp [writeAll, Program.run, Store.handler, Store.perform,
            Store.write_of_base_error hbase]

/-- Removing records fails before the first of them or not at all. -/
theorem removeAll_atomic (c : Collection) (removed names : List String) :
    (c.removeAll removed names).Atomic := by
  cases hbase : c.base with
  | ok base => exact Program.atomic_of_ok (removeAll_ok hbase removed names)
  | error e =>
      cases names with
      | nil => exact Program.atomic_of_ok fun st => ⟨removed, st, rfl⟩
      | cons name names =>
          intro st e' _
          simp [removeAll, Program.run, Store.handler, Store.perform,
            Store.remove_of_base_error hbase]

end Collection

/-- Every write of a subject is atomic. -/
theorem SubjectPlan.mutation_atomic {p : SubjectPlan} {origin : Origin}
    {assignments : List Assignment} {pageSize : Nat} {action : Action}
    {program : Program (List String)}
    (h : p.mutation origin assignments pageSize action = .ok program) : program.Atomic := by
  cases action with
  | select => cases h
  | delete =>
      cases h
      exact (p.select_readOnly pageSize).bind_atomic fun found =>
        p.collection.removeAll_atomic [] found.names
  | insert =>
      obtain ⟨records, -, rfl⟩ := put_eq_ok h
      exact p.collection.writeAll_atomic _ [] records
  | replace =>
      obtain ⟨records, -, rfl⟩ := put_eq_ok h
      exact p.collection.writeAll_atomic _ [] records
  | update =>
      obtain ⟨a, payload, -, -, -, rfl⟩ := update_eq_ok h
      exact (p.select_readOnly pageSize).bind_atomic fun found =>
        p.collection.writeAll_atomic .ifPresent [] _

namespace Storage

variable {s : Storage Store} {q : Query}

/-- A write that fails leaves the trees as they are. -/
theorem apply_trees {action : Action} {p : SubjectPlan} {store store' : Store} {e : QueryError}
    (h : s.apply Store.handler action q p store = (.error e, store')) :
    store'.trees = store.trees := by
  rw [apply] at h
  split at h
  next =>
    cases h
    rfl
  next program hprogram =>
    have hatomic := SubjectPlan.mutation_atomic hprogram store
    rcases hrun : program.run Store.handler store with ⟨⟨e'⟩ | ⟨names⟩, after⟩
    · obtain ⟨-, rfl⟩ : _ ∧ after = store' := by
        simpa [perform, hrun, Except.mapError] using h
      simpa [hrun] using hatomic e'
    · simp [perform, hrun, Except.mapError] at h

/-- Reading a subject leaves the trees as they are. -/
theorem readSubject_trees (q : Query) (p : SubjectPlan) (s : Storage Store) :
    (s.readSubject Store.handler q p).2.store.trees = s.store.trees := by
  rw [readSubject]
  rcases hacquire : s.pool.acquire with ⟨⟨_⟩ | ⟨handle⟩, pool⟩
  · rw [lease_of_acquire_error hacquire]
  · have htrees := (p.select_readOnly s.config.pageSize).run_trees s.store
    rw [lease_of_acquire_ok hacquire, perform]
    rcases hrun : (p.select s.config.pageSize).run Store.handler s.store
      with ⟨⟨_⟩ | ⟨found⟩, st⟩
    · rw [hrun] at htrees
      exact htrees
    · rw [hrun] at htrees
      exact htrees

/-- Reading subjects in turn leaves the trees as they are. -/
theorem readInTurn_trees (q : Query) (subjects : List SubjectPlan) (s : Storage Store) :
    (readInTurn Store.handler q subjects s).2.store.trees = s.store.trees := by
  induction subjects generalizing s with
  | nil => rfl
  | cons p rest ih =>
      have hfirst := readSubject_trees q p s
      rw [readInTurn]
      rcases hread : s.readSubject Store.handler q p with ⟨⟨_⟩ | ⟨block⟩, s'⟩
      · simpa [hread] using hfirst
      · rw [hread] at hfirst
        exact (ih s').trans hfirst

/-- Reading subjects side by side leaves the trees as they are. -/
theorem readEach_trees (q : Query) (subjects : List SubjectPlan) (s : Storage Store) :
    (readEach Store.handler q subjects s).2.store.trees = s.store.trees := by
  induction subjects generalizing s with
  | nil => rfl
  | cons p rest ih => exact (ih _).trans (readSubject_trees q p s)

/-- A query that reads leaves the trees as they are. -/
theorem select_trees (q : Query) (plan : Plan) (s : Storage Store) :
    (s.select Store.handler q plan).2.store.trees = s.store.trees := by
  rw [select]
  split
  · exact readEach_trees q plan.subjects s
  · exact readInTurn_trees q plan.subjects s

/-- A query that writes and fails leaves the trees as they are. -/
theorem write_trees {action : Action} {plan : Plan} {e : QueryError}
    (he : (s.write Store.handler action q plan).1 = .error e) :
    (s.write Store.handler action q plan).2.store.trees = s.store.trees := by
  rw [write] at he ⊢
  split
  next honly =>
    rw [if_pos honly] at he
    rcases hacquire : s.pool.acquire with ⟨⟨_⟩ | ⟨handle⟩, pool⟩
    · rw [lease_of_acquire_error hacquire]
    · rw [lease_of_acquire_ok hacquire] at he ⊢
      rcases hused : s.apply Store.handler action q plan.primary s.store with ⟨⟨_⟩ | ⟨names⟩, st⟩
      · simpa [hused] using apply_trees hused
      · simp [hused] at he
  next => rfl

/-- A query that fails leaves the trees as they are. -/
theorem dispatch_trees {main : Option Entity} {e : QueryError}
    (he : (s.dispatch Store.handler q main).1 = .error e) :
    (s.dispatch Store.handler q main).2.store.trees = s.store.trees := by
  cases haction : q.resolvedAction? with
  | none => simp only [dispatch, haction]
  | some action =>
      cases hplan : s.planner.plan q main with
      | error e' => simp only [dispatch, haction, hplan]
      | ok plan =>
          rw [dispatch_of_plan haction hplan] at he ⊢
          cases hwrites : action.isWrite with
          | true =>
              rw [hwrites] at he
              exact write_trees he
          | false => exact s.select_trees q plan

/-- **All or nothing.**  Whatever the store holds, and whatever the catalog, the
configuration, the pool and the query are: if the query fails, no tree has changed. -/
theorem execute_atomic {main : Option Entity} {e : QueryError}
    (he : (s.execute Store.handler q main).1 = .error e) :
    (s.execute Store.handler q main).2.store.trees = s.store.trees := by
  rw [execute_fst] at he
  rw [execute_store]
  exact dispatch_trees he

/-- A storage of a hash with an entry that can be read and, behind it, one that cannot. -/
def halfReadable : Storage Store :=
  new {} (Pool.ofConfig .default) .empty
    (Store.putRaw .hash (Utf8.bytes "notes" ++ [separator] ++ Utf8.bytes "notes:b") [255]
      (Store.perform (.write ⟨.hash, "notes"⟩ "notes:a" .null .always) Store.empty).2)

theorem execute_atomic_halfReadable :
    (halfReadable.execute Store.handler (.onEntity .delete "notes")
        (some (.ofName "notes"))).1 = .error (.backend "kv" Structure.undecodable) ∧
      (halfReadable.execute Store.handler (.onEntity .delete "notes")
        (some (.ofName "notes"))).2.store.trees = halfReadable.store.trees := by
  have hfailed : (halfReadable.execute Store.handler (.onEntity .delete "notes")
      (some (.ofName "notes"))).1 = .error (.backend "kv" Structure.undecodable) := by
    rw [execute_fst]
    cbv
  exact ⟨hfailed, execute_atomic hfailed⟩

end Storage

end KeyedRelations
