import KeyedRelations.Proofs.Assembly
import KeyedRelations.Storage

/-!
# How queries are carried out

A query uses the store through a handle of the pool, so whether it can do so is decided by
the pool alone.  What a subject's selection has found can always be shown: a plan asks only
for columns that the block has (`Block.exists_project`).
-/

namespace KeyedRelations

namespace Storage

variable {σ α : Type} {s : Storage σ} {q : Query}

/-! ### Handles -/

/-- Without a handle the store is not used. -/
theorem lease_of_acquire_error {use : σ → Except QueryError α × σ} {e : StoreError}
    {pool : Pool} (h : s.pool.acquire = (.error e, pool)) :
    s.lease use = (.error (s.backend e), { s with pool }) := by
  rw [lease, h]

/-- With a handle it is used as it stands. -/
theorem lease_of_acquire_ok {use : σ → Except QueryError α × σ} {handle : HandleId}
    {pool : Pool} (h : s.pool.acquire = (.ok handle, pool)) :
    s.lease use = ((use s.store).1,
      { s with pool := pool.release handle, store := (use s.store).2 }) := by
  rw [lease, h]

/-- A use that comes to an end had a handle. -/
theorem exists_handle_of_lease {use : σ → Except QueryError α × σ} {a : α}
    {s' : Storage σ} (h : s.lease use = (.ok a, s')) :
    (∃ handle pool, s.pool.acquire = (.ok handle, pool)) ∧ use s.store = (.ok a, s'.store) := by
  rcases hacquire : s.pool.acquire with ⟨⟨_⟩ | ⟨handle⟩, pool⟩
  · rw [lease_of_acquire_error hacquire] at h
    cases h
  · rw [lease_of_acquire_ok hacquire] at h
    obtain ⟨hok, rfl⟩ := Prod.mk.inj h
    exact ⟨⟨handle, pool, rfl⟩, Prod.ext hok rfl⟩

/-! ### Reading one subject -/

/-- What is found for a subject of a plan has all columns that are asked for. -/
theorem exists_present {p : SubjectPlan} (hp : p.Answerable) (s : Storage σ) (q : Query)
    (found : Records p.kind) :
    ∃ block, s.present q p found = .ok block ∧ block.subject = p.name ∧
      block.keys = found.names.map p.entity.naturalKey := by
  obtain ⟨block, hblock, hsubject, hkeys⟩ := Block.exists_project
    fun column hcolumn =>
      Block.exists_column?_ofRecords (hp.columns column hcolumn) p.name p.entity found
  exact ⟨block, by rw [present, hblock]; rfl, hsubject, hkeys⟩

/-- What a subject's selection has found is shown. -/
theorem readSubject_of_select {h : Handler σ} {p : SubjectPlan} (hp : p.Answerable)
    {handle : HandleId} {pool : Pool} (hacquire : s.pool.acquire = (.ok handle, pool))
    {found : Records p.kind} {st : σ}
    (hselect : (p.select s.config.pageSize).run h s.store = (.ok found, st)) :
    ∃ block s', s.readSubject h q p = (.ok block, s') ∧ block.subject = p.name ∧
      block.keys = found.names.map p.entity.naturalKey := by
  obtain ⟨block, hblock, hsubject, hkeys⟩ := exists_present hp s q found
  refine ⟨block, { s with pool := pool.release handle, store := st }, ?_, hsubject, hkeys⟩
  have hpresent : ({ s with pool := pool.release handle, store := st } : Storage σ).present q p
      found = .ok block := hblock
  rw [readSubject, lease_of_acquire_ok hacquire]
  simp only [perform, hselect, Except.mapError, hpresent]

/-- A subject that is read is shown by what its selection has found. -/
theorem exists_found_of_readSubject {h : Handler σ} {p : SubjectPlan} {block : Block}
    (hread : (s.readSubject h q p).1 = .ok block) :
    ∃ found : Records p.kind, ((p.select s.config.pageSize).run h s.store).1 = .ok found ∧
      (Block.ofRecords p.name p.entity found).project p.columns = .ok block := by
  rw [readSubject] at hread
  rcases hleased : s.lease (s.perform h (p.select s.config.pageSize))
    with ⟨⟨e⟩ | ⟨found⟩, s₁⟩
  · simp [hleased] at hread
  · obtain ⟨-, hperform⟩ := exists_handle_of_lease hleased
    obtain ⟨hfound, -⟩ := Prod.mk.inj hperform
    rw [hleased] at hread
    exact ⟨found, ok_of_mapError hfound, ok_of_mapError hread⟩

/-! ### Reading all subjects -/

/-- A block that is read for a subject, in some state that has a property. -/
def ReadFor (h : Handler σ) (q : Query) (P : Storage σ → Prop) (p : SubjectPlan) (block : Block) :
    Prop :=
  ∃ s, P s ∧ (s.readSubject h q p).1 = .ok block

section ReadAll

variable {h : Handler σ} {P : Storage σ → Prop} {blocks : List Block}

/-- Subjects that are read in turn are read in states with any property that reading keeps. -/
theorem readInTurn_eq_ok (hkeep : ∀ p s, P s → P (s.readSubject h q p).2)
    {subjects : List SubjectPlan} (hs : P s)
    (hread : (readInTurn h q subjects s).1 = .ok blocks) :
    List.Forall₂ (ReadFor h q P) subjects blocks := by
  induction subjects generalizing s blocks with
  | nil =>
      obtain rfl := Except.ok.inj hread
      exact .nil
  | cons p rest ih =>
      have hnext := hkeep p s hs
      rw [readInTurn] at hread
      rcases hfirst : s.readSubject h q p with ⟨⟨e⟩ | ⟨block⟩, s₁⟩
      · simp [hfirst] at hread
      · rw [hfirst] at hread hnext
        obtain ⟨more, hmore, rfl⟩ := exists_of_map hread
        exact .cons ⟨s, hs, by rw [hfirst]⟩ (ih hnext hmore)

/-- So are subjects that are read side by side. -/
theorem readEach_eq_ok (hkeep : ∀ p s, P s → P (s.readSubject h q p).2)
    {subjects : List SubjectPlan} (hs : P s)
    (hread : (readEach h q subjects s).1 = blocks.map .ok) :
    List.Forall₂ (ReadFor h q P) subjects blocks := by
  induction subjects generalizing s blocks with
  | nil =>
      obtain rfl : blocks = [] := by simpa [readEach, eq_comm] using hread
      exact .nil
  | cons p rest ih =>
      rw [readEach] at hread
      cases blocks with
      | nil => simp at hread
      | cons block more =>
          obtain ⟨hfirst, hmore⟩ := List.cons.inj hread
          exact .cons ⟨s, hs, hfirst⟩ (ih (hkeep p s hs) hmore)

/-- Outcomes are gathered if none of them is an error. -/
theorem gather_eq_ok {ε α : Type} {outcomes : List (Except ε α)} {all : List α}
    (h : gather outcomes = .ok all) : outcomes = all.map .ok := by
  induction outcomes generalizing all with
  | nil =>
      obtain rfl := Except.ok.inj h
      rfl
  | cons outcome rest ih =>
      cases outcome with
      | error e => cases h
      | ok a =>
          obtain ⟨more, hrest, rfl⟩ := exists_of_map h
          rw [ih hrest, List.map_cons]

/-- **What is selected is read for the subjects**, one block for each. -/
theorem readFor_of_select (hkeep : ∀ p s, P s → P (s.readSubject h q p).2) (hs : P s)
    {plan : Plan} {result : QueryResult} (hselect : (s.select h q plan).1 = .ok result) :
    List.Forall₂ (ReadFor h q P) plan.subjects result.blocks := by
  rw [select] at hselect
  split at hselect
  · obtain ⟨blocks, hgather, rfl⟩ := exists_of_map hselect
    exact readEach_eq_ok hkeep hs (gather_eq_ok hgather)
  · obtain ⟨blocks, hread, rfl⟩ := exists_of_map hselect
    exact readInTurn_eq_ok hkeep hs hread

end ReadAll

/-- **A block that is selected shows records** that were found for its subject. -/
theorem exists_found_of_select {h : Handler σ} {plan : Plan} {result : QueryResult}
    (hselect : (s.select h q plan).1 = .ok result) :
    List.Forall₂ (fun p block => ∃ found : Records p.kind,
      (Block.ofRecords p.name p.entity found).project p.columns = .ok block)
      plan.subjects result.blocks := by
  refine (readFor_of_select (P := fun _ => True) (fun _ _ h => h) trivial hselect).imp ?_
  rintro p block ⟨s₁, -, hread⟩
  obtain ⟨found, -, hproject⟩ := exists_found_of_readSubject hread
  exact ⟨found, hproject⟩

/-- So does each block that is selected. -/
theorem exists_found_of_mem {h : Handler σ} {plan : Plan} {result : QueryResult}
    (hselect : (s.select h q plan).1 = .ok result) {block : Block}
    (hblock : block ∈ result.blocks) :
    ∃ (p : SubjectPlan) (found : Records p.kind),
      (Block.ofRecords p.name p.entity found).project p.columns = .ok block := by
  obtain ⟨hlength, hfound⟩ := List.forall₂_iff_get.mp (exists_found_of_select hselect)
  obtain ⟨place, hplace, rfl⟩ := List.getElem_of_mem hblock
  exact ⟨_, hfound place (by omega) hplace⟩

/-! ### Writes -/

/-- A write that succeeds has one subject, a handle, and a program that succeeds. -/
theorem write_eq_ok {h : Handler σ} {action : Action} {plan : Plan} {result : QueryResult}
    {s' : Storage σ} (hwrite : s.write h action q plan = (.ok result, s')) :
    plan.others = [] ∧ (∃ handle pool, s.pool.acquire = (.ok handle, pool)) ∧
      ∃ program names, plan.primary.mutation (s.planner.origin q) q.assignments s.config.pageSize
          action = .ok program ∧
        program.run h s.store = (.ok names, s'.store) ∧
        result = .ofWrite (.ofNames plan.primary.name plan.primary.entity names) := by
  rw [write] at hwrite
  split at hwrite
  next honly =>
    rcases hleased : s.lease (s.apply h action q plan.primary) with ⟨⟨_⟩ | ⟨names⟩, s₁⟩
    · simp [hleased] at hwrite
    · obtain ⟨hhandle, happly⟩ := exists_handle_of_lease hleased
      rw [hleased] at hwrite
      obtain ⟨rfl, rfl⟩ : _ = result ∧ s₁ = s' := by simpa using hwrite
      refine ⟨by simpa using honly, hhandle, ?_⟩
      rw [apply] at happly
      split at happly
      next => simp at happly
      next program hprogram =>
        rcases hrun : program.run h s.store with ⟨⟨_⟩ | ⟨names'⟩, st⟩
        · simp [perform, hrun, Except.mapError] at happly
        · obtain ⟨rfl, rfl⟩ : names' = names ∧ st = s₁.store := by
            simpa [perform, hrun, Except.mapError] using happly
          exact ⟨program, names', hprogram, hrun, rfl⟩
  next => simp at hwrite

/-- A write of one subject that has a handle and a program that succeeds answers what the program
has written or removed. -/
theorem write_of_run {h : Handler σ} {action : Action} {p : SubjectPlan} {handle : HandleId}
    {pool : Pool} (hacquire : s.pool.acquire = (.ok handle, pool))
    {program : Program (List String)}
    (hprogram : p.mutation (s.planner.origin q) q.assignments s.config.pageSize action =
      .ok program)
    {names : List String} {store : σ} (hrun : program.run h s.store = (.ok names, store)) :
    s.write h action q ⟨p, []⟩ = (.ok (.ofWrite (.ofNames p.name p.entity names)),
      { s with pool := pool.release handle, store }) := by
  simp only [write, List.isEmpty_nil, if_true, lease_of_acquire_ok hacquire, apply, hprogram,
    perform, hrun, Except.mapError]

/-! ### Executions -/

/-- Executing is dispatching, and remembering what came of it. -/
theorem execute_eq (h : Handler σ) (q : Query) (main : Option Entity) (s : Storage σ) :
    s.execute h q main = ((s.dispatch h q main).1,
      (s.dispatch h q main).2.remember (s.dispatch h q main).1) := by
  rw [execute]

/-- Remembering what came of an execution does not change it. -/
theorem execute_fst (h : Handler σ) (q : Query) (main : Option Entity) (s : Storage σ) :
    (s.execute h q main).1 = (s.dispatch h q main).1 := by
  rw [execute]

/-- Remembering what came of an execution does not touch the store. -/
theorem execute_store (h : Handler σ) (q : Query) (main : Option Entity) (s : Storage σ) :
    (s.execute h q main).2.store = (s.dispatch h q main).2.store := by
  simp only [execute, remember]
  split <;> rfl

/-- A query of a plan is read or written. -/
theorem dispatch_of_plan {h : Handler σ} {main : Option Entity} {action : Action} {plan : Plan}
    (haction : q.resolvedAction? = some action) (hplan : s.planner.plan q main = .ok plan) :
    s.dispatch h q main =
      if action.isWrite then s.write h action q plan else s.select h q plan := by
  simp only [dispatch, haction, hplan]

/-- A query that writes and succeeds has one subject, a handle, and a program that succeeds. -/
theorem execute_eq_ok_of_write {h : Handler σ} {main : Option Entity} {action : Action}
    {result : QueryResult} {s' : Storage σ} (haction : q.resolvedAction? = some action)
    (hwrites : action.isWrite = true) (hexecute : s.execute h q main = (.ok result, s')) :
    ∃ p, s.planner.plan q main = .ok ⟨p, []⟩ ∧
      (∃ handle pool, s.pool.acquire = (.ok handle, pool)) ∧
      ∃ program names, p.mutation (s.planner.origin q) q.assignments s.config.pageSize action =
          .ok program ∧
        program.run h s.store = (.ok names, s'.store) ∧
        result = .ofWrite (.ofNames p.name p.entity names) := by
  obtain ⟨hdispatch, hstore⟩ : (s.dispatch h q main).1 = .ok result ∧
      (s.dispatch h q main).2.store = s'.store := by
    rw [← execute_fst, ← execute_store, hexecute]
    exact ⟨rfl, rfl⟩
  cases hplan : s.planner.plan q main with
  | error e => simp [dispatch, haction, hplan] at hdispatch
  | ok plan =>
      rw [dispatch_of_plan haction hplan, if_pos hwrites] at hdispatch hstore
      obtain ⟨honly, hhandle, program, names, hprogram, hrun, hresult⟩ :=
        write_eq_ok (Prod.ext hdispatch rfl)
      obtain ⟨p, others⟩ := plan
      obtain rfl : others = [] := honly
      exact ⟨p, rfl, hhandle, program, names, hprogram, hstore ▸ hrun, hresult⟩

end Storage

end KeyedRelations
