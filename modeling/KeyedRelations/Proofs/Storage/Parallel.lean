import Mathlib
import KeyedRelations.Proofs.Mutation.Territory
import KeyedRelations.Proofs.Scan.Readers
import KeyedRelations.Proofs.Storage.Alike
import KeyedRelations.Proofs.Storage.Atomicity

/-!
# Subjects that are read side by side

The subjects of a query can be read one after the other or side by side.  Side by side every
subject has a worker of its own, and the workers' commands, rounds of scans and reads of single
records, reach the store in any order, where they share the table of open cursors.  What the
workers have come to is joined in the order of the subjects, and the first that has failed is
the error.

Either way a subject is answered what its reader comes to over the trees (`readSubject_fst`,
`Readers.OnWay`), so as long as the table has room for a cursor of every worker, the order in
which the commands arrive cannot be seen.
-/

namespace KeyedRelations.Storage

variable {s : Storage Store} {q : Query} {main : Option Entity}

/-- The storage with subjects read side by side or not. -/
def withParallel (s : Storage Store) (parallel : Bool) : Storage Store :=
  { s with config := s.config.withParallel parallel }

/-! ### One subject -/

/-- What a worker does that has its handle: it selects the subject's records and makes a block
of them. -/
def reader (s : Storage Store) (q : Query) (p : SubjectPlan) : Program (Except QueryError Block) :=
  (p.select s.config.pageSize).bind fun found => .done (s.present q p found)

/-- What a subject is answered when its reader has come to its end. -/
def answer (s : Storage Store) : Except StoreError (Except QueryError Block) →
    Except QueryError Block
  | .ok shown => shown
  | .error e => .error (s.backend e)

theorem reader_plain (s : Storage Store) (q : Query) (p : SubjectPlan) : (s.reader q p).Plain :=
  (p.select_stays s.config.pageSize).plain.bind fun _ => .done _

theorem reader_readOnly (s : Storage Store) (q : Query) (p : SubjectPlan) :
    (s.reader q p).ReadOnly :=
  (p.select_readOnly s.config.pageSize).bind fun _ => .done _

/-- Reading a subject through a handle answers what its reader comes to. -/
theorem readSubject_fst (hopens : s.pool.Opens) (hfree : s.pool.free = true) (q : Query)
    (p : SubjectPlan) :
    (s.readSubject Store.handler q p).1 = s.answer ((s.reader q p).outcome s.store.trees).1 ∧
      Alike s (s.readSubject Store.handler q p).2 := by
  obtain ⟨pool, hlease, halike⟩ :=
    lease_of_free hopens hfree (s.perform Store.handler (p.select s.config.pageSize))
  obtain ⟨after, -, hrun⟩ :=
    (p.select_stays s.config.pageSize).plain.run_eq s.store.trees s.store.cursors
  have hperform : (s.perform Store.handler (p.select s.config.pageSize) s.store).1 =
      ((p.select s.config.pageSize).outcome s.store.trees).1.mapError s.backend := by
    rw [perform]
    dsimp only
    rw [show s.store = ⟨s.store.trees, s.store.cursors⟩ from rfl, hrun]
  rw [readSubject, hlease, hperform, reader, Program.outcome_bind]
  rcases (p.select s.config.pageSize).outcome s.store.trees with ⟨⟨e⟩ | ⟨found⟩, t⟩
  · exact ⟨rfl, halike⟩
  · exact ⟨halike.present q p found, halike⟩

/-! ### All subjects -/

/-- What each subject is answered, in their order. -/
def answers (s : Storage Store) (q : Query) (subjects : List SubjectPlan) :
    List (Except QueryError Block) :=
  subjects.map fun p => s.answer ((s.reader q p).outcome s.store.trees).1

theorem Alike.answers {s' : Storage Store} (h : Alike s s')
    (htrees : s'.store.trees = s.store.trees) (q : Query) (subjects : List SubjectPlan) :
    s'.answers q subjects = s.answers q subjects := by
  have hreader : s'.reader q = s.reader q := by
    funext p
    rw [reader, reader, h.config]
    exact congrArg _ (funext fun found => congrArg _ (h.present q p found))
  have hanswer : s'.answer = s.answer := by
    funext r
    cases r with
    | ok shown => rfl
    | error e => exact congrArg _ (congrFun h.backend e)
  rw [Storage.answers, Storage.answers, hreader, hanswer, htrees]

/-- Reading one after the other answers the first error, or all blocks. -/
theorem readInTurn_fst (hopens : s.pool.Opens) (hfree : s.pool.free = true) (q : Query)
    (subjects : List SubjectPlan) :
    (readInTurn Store.handler q subjects s).1 = gather (s.answers q subjects) := by
  induction subjects generalizing s with
  | nil => rfl
  | cons p rest ih =>
      obtain ⟨hanswer, halike⟩ := readSubject_fst hopens hfree q p
      have htrees := readSubject_trees q p s
      have hrest := ih halike.opens' (halike.free.trans hfree)
      rw [halike.answers htrees] at hrest
      rw [readInTurn, answers, List.map_cons, ← hanswer, ← answers]
      rcases hread : s.readSubject Store.handler q p with ⟨⟨e⟩ | ⟨block⟩, s'⟩
      · rfl
      · rw [hread] at hrest
        simp only [gather, hrest]

/-- Reading each whatever comes of the others answers the same. -/
theorem readEach_fst (hopens : s.pool.Opens) (hfree : s.pool.free = true) (q : Query)
    (subjects : List SubjectPlan) :
    (readEach Store.handler q subjects s).1 = s.answers q subjects := by
  induction subjects generalizing s with
  | nil => rfl
  | cons p rest ih =>
      obtain ⟨hanswer, halike⟩ := readSubject_fst hopens hfree q p
      have htrees := readSubject_trees q p s
      have hrest := ih halike.opens' (halike.free.trans hfree)
      rw [halike.answers htrees] at hrest
      rw [readEach, hanswer, hrest]
      rfl

/-- Selecting answers what the subjects are answered, however they are read. -/
theorem select_fst (hopens : s.pool.Opens) (hfree : s.pool.free = true) (q : Query)
    (plan : Plan) :
    (s.select Store.handler q plan).1 = (gather (s.answers q plan.subjects)).map .ofRead := by
  rw [select]
  split
  · dsimp only
    rw [readEach_fst hopens hfree]
  · dsimp only
    rw [readInTurn_fst hopens hfree]

theorem execute_select (hselect : q.resolvedAction? = some .select) (hopens : s.pool.Opens)
    (hfree : s.pool.free = true) :
    (s.execute Store.handler q main).1 = (s.planner.plan q main).bind fun plan =>
      (gather (s.answers q plan.subjects)).map .ofRead := by
  rw [execute_fst]
  cases hplan : s.planner.plan q main with
  | error e =>
      simp only [dispatch, hselect, hplan]
      rfl
  | ok plan =>
      rw [dispatch_of_plan hselect hplan, if_neg (by decide)]
      exact select_fst hopens hfree q plan

/-! ### Workers -/

/-- The store and the workers for the subjects of a plan. -/
def workers (s : Storage Store) (q : Query) (plan : Plan) :
    Readers (Fin plan.subjects.length) (Except QueryError Block) :=
  ⟨s.store, fun i => .running (s.reader q plan.subjects[i])⟩

/-- What is answered when all workers have come to their end: they are joined in the order of
the subjects. -/
def joined (s : Storage Store) {n : ℕ}
    (results : Fin n → Except StoreError (Except QueryError Block)) :
    Except QueryError QueryResult :=
  (gather (List.ofFn fun i => s.answer (results i))).map .ofRead

/-- The first error among the outcomes is the one of them all. -/
theorem exists_first_of_gather {ε α : Type} {n : ℕ} {outcomes : Fin n → Except ε α} {e : ε}
    (h : gather (List.ofFn outcomes) = .error e) :
    ∃ i, outcomes i = .error e ∧ ∀ j < i, ∃ a, outcomes j = .ok a := by
  induction n with
  | zero => cases h
  | succ n ih =>
      rw [List.ofFn_succ] at h
      cases hfirst : outcomes 0 with
      | error e' =>
          rw [hfirst] at h
          obtain rfl := Except.error.inj h
          exact ⟨0, hfirst, fun j hj => absurd hj (Fin.not_lt_zero j)⟩
      | ok a =>
          rw [hfirst, gather] at h
          have hrest : gather (List.ofFn fun i => outcomes (Fin.succ i)) = .error e := by
            cases hgather : gather (List.ofFn fun i => outcomes (Fin.succ i)) with
            | ok more =>
                rw [hgather] at h
                cases h
            | error e' =>
                rw [hgather] at h
                exact h
          obtain ⟨i, hi, hbefore⟩ := ih hrest
          refine ⟨i.succ, hi, fun j hj => ?_⟩
          cases j using Fin.cases with
          | zero => exact ⟨a, hfirst⟩
          | succ j => exact hbefore j (Fin.succ_lt_succ_iff.mp hj)

/-- The error that workers are joined to is that of the first subject that has failed. -/
theorem exists_first_of_joined {n : ℕ}
    {results : Fin n → Except StoreError (Except QueryError Block)} {e : QueryError}
    (h : s.joined results = .error e) :
    ∃ i, s.answer (results i) = .error e ∧ ∀ j < i, ∃ block, s.answer (results j) = .ok block := by
  rw [joined] at h
  cases hgather : gather (List.ofFn fun i => s.answer (results i)) with
  | ok blocks =>
      rw [hgather] at h
      cases h
  | error e' =>
      rw [hgather] at h
      obtain rfl := Except.error.inj h
      exact exists_first_of_gather hgather

theorem joined_eq (s : Storage Store) (q : Query) (plan : Plan) :
    (s.joined fun i : Fin plan.subjects.length =>
        ((s.reader q plan.subjects[i]).outcome s.store.trees).1) =
      (gather (s.answers q plan.subjects)).map .ofRead := by
  have hanswers : (List.ofFn fun i : Fin plan.subjects.length =>
      s.answer ((s.reader q plan.subjects[i]).outcome s.store.trees).1) =
        s.answers q plan.subjects := by
    refine List.ext_getElem (by simp [answers]) fun i hi hi' => ?_
    simp [answers]
  rw [joined, hanswers]

/-- **Reading side by side agrees with reading in turn.**  A query selects from no more subjects
than cursors can be open, none is open at first, and handles are to be had.  Then, in whichever
order the commands of its workers reach the store, all workers come to their end, and what they
are joined to is what reading the subjects in turn answers: the same blocks in the order of the
subjects, or the error of the first subject that fails. -/
theorem select_parallel (hselect : q.resolvedAction? = some .select)
    (hfew : q.subjects.length ≤ Cursors.capacity) (hopened : s.store.cursors.opened = [])
    (hopens : s.pool.Opens) (hfree : s.pool.free = true) :
    let inTurn := ((s.withParallel false).execute Store.handler q main).1
    ((s.withParallel true).execute Store.handler q main).1 = inTurn ∧
      ∀ plan, s.planner.plan q main = .ok plan →
        (∀ w, (s.workers q plan).Run w →
          (∀ results, w.CameTo results → s.joined results = inTurn ∧
            ∀ e, inTurn = .error e → ∃ i, s.answer (results i) = .error e ∧
              ∀ j < i, ∃ block, s.answer (results j) = .ok block) ∧
          ((∃ results, w.CameTo results) ∨ ∃ w', w.Step w')) ∧
        ¬ ∃ run : ℕ → Readers (Fin plan.subjects.length) (Except QueryError Block),
          run 0 = s.workers q plan ∧ ∀ k, (run k).Step (run (k + 1)) := by
  intro inTurn
  have hexecute : ∀ parallel, ((s.withParallel parallel).execute Store.handler q main).1 =
      (s.planner.plan q main).bind fun plan =>
        (gather (s.answers q plan.subjects)).map .ofRead :=
    fun parallel => execute_select hselect hopens hfree
  refine ⟨(hexecute true).trans (hexecute false).symm, fun plan hplan => ?_⟩
  have hinTurn : inTurn = (gather (s.answers q plan.subjects)).map .ofRead := by
    rw [show inTurn = _ from hexecute false, hplan]
    rfl
  have hcard : Fintype.card (Fin plan.subjects.length) ≤ Cursors.capacity := by
    rw [Fintype.card_fin, Planner.length_planSubjects (Planner.plan_eq_ok_iff.mp hplan).1]
    exact hfew
  have hstart := Readers.onWay_start (fun i : Fin plan.subjects.length =>
    s.reader_plain q plan.subjects[i]) (fun i => s.reader_readOnly q plan.subjects[i]) hopened
  refine ⟨fun w hrun => ⟨fun results hdone => ?_, w.cameTo_or_step⟩,
    hstart.no_infinite_run hcard⟩
  -- whatever the schedule was, the workers have come to what their readers come to alone
  obtain ⟨n, honway⟩ := hstart.run hcard hrun
  have hjoined : s.joined results = inTurn := by
    rw [honway.results_eq hdone, hinTurn]
    exact s.joined_eq q plan
  exact ⟨hjoined, fun e he => exists_first_of_joined (hjoined.trans he)⟩

/-- A storage of two books and a disc that reads one record a round. -/
def twoShelves : Storage Store :=
  new (ExecutorConfig.withPageSize {} 1) (Pool.ofConfig .default)
    (Catalog.empty.registerAll [.ofName "books", .ofName "discs"])
    (Store.perform (.write ⟨.hash, "books"⟩ "books:a" .null .always)
      (Store.perform (.write ⟨.hash, "books"⟩ "books:b" .null .always)
        (Store.perform (.write ⟨.hash, "discs"⟩ "discs:c" .null .always) Store.empty).2).2).2

/-- All books and all discs are read. -/
def bothShelves : Query := (Query.onEntity .select "books").join "discs" "discs"

theorem select_parallel_twoShelves :
    ∃ plan result, twoShelves.planner.plan bothShelves none = .ok plan ∧
      result.blocks.map (·.keys) = [["a", "b"], ["c"]] ∧
      ((twoShelves.withParallel true).execute Store.handler bothShelves none).1 = .ok result ∧
      ∀ w results, (twoShelves.workers bothShelves plan).Run w → w.CameTo results →
        twoShelves.joined results = .ok result := by
  obtain ⟨plan, hplan⟩ : ∃ plan, twoShelves.planner.plan bothShelves none = .ok plan := by
    cbv
    exact ⟨_, rfl⟩
  have hkeys : (((twoShelves.withParallel false).execute Store.handler bothShelves none).1.map
      fun r => r.blocks.map (·.keys)) = .ok [["a", "b"], ["c"]] := by
    rw [execute_fst]
    cbv
  have hselect : bothShelves.resolvedAction? = some .select := by cbv
  have hfew : bothShelves.subjects.length ≤ Cursors.capacity := by decide
  have hopens : twoShelves.pool.Opens := fun _ => rfl
  obtain ⟨hagree, hworkers⟩ :=
    @select_parallel twoShelves bothShelves none hselect hfew rfl hopens rfl
  rcases hinTurn : ((twoShelves.withParallel false).execute Store.handler bothShelves none).1
    with ⟨e⟩ | ⟨result⟩
  · rw [hinTurn] at hkeys
    cases hkeys
  · rw [hinTurn] at hkeys hagree hworkers
    exact ⟨plan, result, hplan, Except.ok.inj hkeys, hagree, fun w results hrun hdone =>
      ((((hworkers plan hplan).1 w hrun).1 results hdone).1)⟩

end KeyedRelations.Storage
