import Mathlib
import KeyedRelations.Proofs.Mutation.Territory
import KeyedRelations.Proofs.Storage.Rejection

/-!
# Sessions leave no cursors

A store from which no scan goes on has no cursor open.  Queries whose subjects are read in turn
keep it that way: a round closes the cursor that it goes on from before it can fail, and opens
one only if the scan has a further round, which the query then asks for
(`Program.Plain.run_eq`).  So the cursors of a scan are always there when it goes on, however
many rounds it takes, and a failure of the store is never one of scanning
(`StoreError.isOfScan`).

A storage of that kind is tidy (`Storage.Tidy`).  Each part of carrying a query out takes a
tidy storage to a tidy one, and so does a session of queries (`Storage.session_tidy`).
-/

namespace KeyedRelations

/-! ### Failures of scanning -/

/-- Whether a failure is one of going on with a scan, not of what the store holds. -/
def StoreError.isOfScan : StoreError → Bool
  | .unknownCursor _ | .endlessScan => true
  | _ => false

/-- The key of a record is refused for its container only. -/
theorem Collection.isOfScan_of_base {c : Collection} {e : StoreError} (h : c.base = .error e) :
    e.isOfScan = false := by
  rw [eq_invalidKey_of_base h]
  rfl

theorem Structure.isOfScan_of_load {s : Structure} {name : String} {form : s.Form}
    {e : StoreError} (h : s.load name form = .error e) : e.isOfScan = false := by
  cases s with
  | set => cases h
  | list | hash | sortedSet =>
      cases form with
      | intact => cases h
      | damaged =>
          obtain rfl := Except.error.inj h
          rfl

theorem Structure.isOfScan_of_reveal {s : Structure} {name : String} {form : s.Form}
    {e : StoreError} (h : s.reveal name form = .error e) : e.isOfScan = false := by
  cases s with
  | list | set => cases h
  | hash | sortedSet => exact isOfScan_of_load h

namespace Store

/-- An entry cannot be shown for what it is. -/
theorem isOfScan_of_visit {s : Structure} {skip : Nat} {pattern : String}
    {entry : Key × s.Form} {e : StoreError} (h : visit s skip pattern entry = .error e) :
    e.isOfScan = false := by
  rw [visit] at h
  split at h
  · obtain rfl := Except.error.inj h
    rfl
  next name _ =>
    split at h
    · exact Structure.isOfScan_of_reveal (error_of_map h)
    · cases h

theorem isOfScan_of_visitAll {s : Structure} {skip : Nat} {pattern : String}
    {entries : List (Key × s.Form)} {e : StoreError}
    (h : visitAll s skip pattern entries = .error e) : e.isOfScan = false := by
  induction entries with
  | nil => cases h
  | cons entry rest ih =>
      rw [visitAll] at h
      cases hvisit : visit s skip pattern entry with
      | error cause =>
          rw [hvisit] at h
          obtain rfl := Except.error.inj h
          exact isOfScan_of_visit hvisit
      | ok shown =>
          rw [hvisit] at h
          cases hrest : visitAll s skip pattern rest with
          | error cause =>
              rw [hrest] at h
              obtain rfl := Except.error.inj h
              exact ih hrest
          | ok items =>
              rw [hrest] at h
              cases h

/-- A command about one record does not look at cursors. -/
theorem isOfScan_of_perform {cmd : Command} (hscan : cmd.isScan = false) {st : Store}
    {e : StoreError} (h : (st.perform cmd).1 = .error e) : e.isOfScan = false := by
  have hbase : ∀ {c : Collection} {cause : StoreError}, c.base = .error cause →
      cause = e → e.isOfScan = false := fun hbase heq =>
    heq ▸ Collection.isOfScan_of_base hbase
  cases cmd with
  | scan => cases hscan
  | read c name =>
      rw [perform] at h
      cases hb : c.base with
      | error cause =>
          rw [read, Collection.keyOf_of_base_error hb] at h
          exact hbase hb (Except.error.inj h)
      | ok base =>
          rw [read_of_base hb] at h
          split at h
          · cases h
          next form _ => exact Structure.isOfScan_of_load (error_of_map h)
  | write c name payload mode =>
      rw [perform] at h
      cases hb : c.base with
      | error cause =>
          rw [write_of_base_error hb] at h
          exact hbase hb (Except.error.inj h)
      | ok base =>
          rw [write_of_base hb] at h
          split at h <;> cases h
  | remove c name =>
      rw [perform] at h
      cases hb : c.base with
      | error cause =>
          rw [remove_of_base_error hb] at h
          exact hbase hb (Except.error.inj h)
      | ok base =>
          rw [remove_of_base hb] at h
          cases h

end Store

theorem ScanRequest.isOfScan_of_whole {r : ScanRequest} {t : Trees} {e : StoreError}
    (h : r.whole t = .error e) : e.isOfScan = false := by
  cases hbase : r.collection.base with
  | error cause =>
      rw [whole_of_base_error hbase] at h
      obtain rfl := Except.error.inj h
      exact Collection.isOfScan_of_base hbase
  | ok base =>
      rw [whole_of_base hbase] at h
      exact Store.isOfScan_of_visitAll (error_of_map h)

/-- **What a program comes to** is never a failure of scanning. -/
theorem Program.Plain.isOfScan_of_outcome {α : Type} {program : Program α} (h : Plain program)
    {t : Trees} {e : StoreError} (he : (program.outcome t).1 = .error e) : e.isOfScan = false := by
  induction h generalizing t with
  | done a => cases he
  | @command c next hscan _ ih =>
      rw [outcome] at he
      rcases hperform : (Store.ofTrees t).perform c with ⟨⟨cause⟩ | ⟨answer⟩, st⟩
      · rw [hperform] at he
        obtain rfl := Except.error.inj he
        exact Store.isOfScan_of_perform hscan (congrArg Prod.fst hperform)
      · rw [hperform] at he
        exact ih answer he
  | @drain request next _ ih =>
      rw [outcome] at he
      cases hwhole : request.whole t with
      | error cause =>
          rw [hwhole] at he
          obtain rfl := Except.error.inj he
          exact ScanRequest.isOfScan_of_whole hwhole
      | ok items =>
          rw [hwhole] at he
          exact ih items (fun x => request.accepts_of_whole hwhole) he

/-! ### Handles -/

namespace Pool

/-- A client that gets no handle waited too long, or opening one failed. -/
theorem error_of_acquire {p : Pool} {e : StoreError} (h : p.acquire.1 = .error e) :
    e = .acquireTimeout p.config.acquireTimeout ∨ ∃ attempt, p.opening attempt = .error e := by
  rw [acquire, takeIdle?] at h
  cases hidle : p.idle with
  | cons handle idle =>
      simp only [hidle] at h
      cases h
  | nil =>
      simp only [hidle, reserve?] at h
      split at h
      next hreserve =>
        exact Or.inl (Except.error.inj h).symm
      next hreserve =>
        split at hreserve
        · obtain rfl := Option.some.inj hreserve
          rw [openHandle] at h
          cases hopening : p.opening p.attempts with
          | error cause =>
              simp only [hopening, Except.map] at h
              obtain rfl := Except.error.inj h
              exact Or.inr ⟨p.attempts, hopening⟩
          | ok _ =>
              simp only [hopening, Except.map] at h
              cases h
        · cases hreserve

/-- Getting a handle does not change how handles are opened. -/
theorem opening_acquire (p : Pool) : p.acquire.2.opening = p.opening := by
  rw [acquire, takeIdle?]
  cases hidle : p.idle with
  | cons handle idle => rfl
  | nil =>
      simp only [reserve?]
      split
      next => rfl
      next hreserve =>
        split at hreserve
        · obtain rfl := Option.some.inj hreserve
          rw [openHandle]
          cases p.opening p.attempts <;> rfl
        · cases hreserve

end Pool

/-! ### Tidy storages -/

namespace Storage

variable {α β : Type} {s : Storage Store} {q : Query} {main : Option Entity}

/-- What came of something is no failure of scanning. -/
def Scanned (r : Except QueryError α) : Prop :=
  ∀ name e, r = .error (.backend name e) → e.isOfScan = false

theorem Scanned.ok (a : α) : Scanned (.ok a) := fun _ _ h => by cases h

/-- An error that is passed on. -/
theorem Scanned.passed {e : QueryError} (h : Scanned (.error e : Except QueryError α)) :
    Scanned (.error e : Except QueryError β) := fun name cause he =>
  h name cause (congrArg Except.error (Except.error.inj he))

theorem Scanned.map {r : Except QueryError α} (h : Scanned r) (f : α → β) :
    Scanned (r.map f) := by
  cases r with
  | error e => exact h.passed
  | ok a => exact .ok (f a)

/-- What is wrong with a query is no failure of scanning. -/
theorem Scanned.error {e : QueryError} (h : e.kind ≠ .backend) :
    Scanned (.error e : Except QueryError α) := by
  rintro name cause he
  obtain rfl := Except.error.inj he
  exact absurd rfl h

/-- A storage over which no scan goes on, and that reads subjects in turn.  Handles may fail to
open for any reason but one of scanning. -/
structure Tidy (s : Storage Store) : Prop where
  closed : s.store.cursors.opened = []
  inTurn : s.config.parallel = false
  opening : ∀ attempt e, s.pool.opening attempt = .error e → e.isOfScan = false

/-- A use of a storage left it tidy, and no scan failed to go on. -/
structure EndsTidy (r : Except QueryError α × Storage Store) : Prop where
  scanned : Scanned r.1
  tidy : Tidy r.2

/-- A program over a store without open cursors leaves none open. -/
theorem perform_closed {program : Program α} (h : program.Plain) (s : Storage Store)
    {st : Store} (hclosed : st.cursors.opened = []) :
    Scanned (s.perform Store.handler program st).1 ∧
      (s.perform Store.handler program st).2.cursors.opened = [] := by
  obtain ⟨t, cursors⟩ := st
  obtain ⟨after, hafter, hrun⟩ := h.run_eq t cursors
  rw [perform]
  dsimp only
  rw [hrun]
  refine ⟨fun name e he => ?_, hafter hclosed⟩
  cases houtcome : (program.outcome t).1 with
  | error cause =>
      rw [houtcome] at he
      obtain ⟨-, rfl⟩ := QueryError.backend.inj (Except.error.inj he)
      exact h.isOfScan_of_outcome houtcome
  | ok a =>
      rw [houtcome] at he
      cases he

theorem apply_closed (s : Storage Store) (action : Action) (q : Query) (p : SubjectPlan)
    {st : Store} (hclosed : st.cursors.opened = []) :
    Scanned (s.apply Store.handler action q p st).1 ∧
      (s.apply Store.handler action q p st).2.cursors.opened = [] := by
  rw [apply]
  split
  next e hmutation => exact ⟨.error (SubjectPlan.kind_of_mutation_error hmutation), hclosed⟩
  next program hmutation =>
    exact perform_closed (SubjectPlan.mutation_stays hmutation).plain s hclosed

namespace Tidy

/-- Using the store through a handle keeps a storage tidy, if the use does. -/
theorem lease (h : Tidy s) {use : Store → Except QueryError α × Store}
    (huse : Scanned (use s.store).1 ∧ (use s.store).2.cursors.opened = []) :
    EndsTidy (s.lease use) := by
  have hopening := s.pool.opening_acquire
  rcases hacquire : s.pool.acquire with ⟨⟨e⟩ | ⟨handle⟩, pool⟩
  · rw [hacquire] at hopening
    rw [lease_of_acquire_error hacquire]
    refine ⟨fun name cause he => ?_, h.closed, h.inTurn, fun attempt cause hcause => ?_⟩
    · obtain ⟨-, rfl⟩ := QueryError.backend.inj (Except.error.inj he)
      rcases Pool.error_of_acquire (congrArg Prod.fst hacquire) with rfl | ⟨attempt, hattempt⟩
      · rfl
      · exact h.opening attempt e hattempt
    · exact h.opening attempt cause (hopening ▸ hcause)
  · rw [hacquire] at hopening
    rw [lease_of_acquire_ok hacquire]
    exact ⟨huse.1, huse.2, h.inTurn, fun attempt cause hcause =>
      h.opening attempt cause (hopening ▸ hcause)⟩

/-! ### Reading and writing -/

theorem readSubject (h : Tidy s) (q : Query) (p : SubjectPlan) :
    EndsTidy (s.readSubject Store.handler q p) := by
  have hlease := h.lease (perform_closed (p.select_stays s.config.pageSize).plain s h.closed)
  rw [Storage.readSubject]
  rcases hleased : s.lease (s.perform Store.handler (p.select s.config.pageSize)) with
    ⟨⟨e⟩ | ⟨found⟩, s'⟩
  · rw [hleased] at hlease
    exact ⟨hlease.scanned.passed, hlease.tidy⟩
  · rw [hleased] at hlease
    refine ⟨fun name cause he => ?_, hlease.tidy⟩
    dsimp only at he
    rw [present] at he
    cases hproject : (Block.ofRecords p.name p.entity found).project p.columns with
    | error column =>
        rw [hproject] at he
        cases he
    | ok block =>
        rw [hproject] at he
        cases he

theorem readInTurn (h : Tidy s) (q : Query) (subjects : List SubjectPlan) :
    EndsTidy (Storage.readInTurn Store.handler q subjects s) := by
  induction subjects generalizing s with
  | nil => exact ⟨.ok _, h⟩
  | cons p rest ih =>
      have hfirst := h.readSubject q p
      rw [Storage.readInTurn]
      rcases hread : s.readSubject Store.handler q p with ⟨⟨e⟩ | ⟨block⟩, s'⟩
      · rw [hread] at hfirst
        exact ⟨hfirst.scanned.passed, hfirst.tidy⟩
      · rw [hread] at hfirst
        have hrest : EndsTidy (Storage.readInTurn Store.handler q rest s') := ih hfirst.tidy
        exact ⟨hrest.scanned.map (block :: ·), hrest.tidy⟩

theorem select (h : Tidy s) (q : Query) (plan : Plan) :
    EndsTidy (s.select Store.handler q plan) := by
  have hread := h.readInTurn q plan.subjects
  have hinTurn : ¬ (s.config.parallel ∧ !plan.others.isEmpty) := by simp [h.inTurn]
  rw [Storage.select, if_neg hinTurn]
  exact ⟨hread.scanned.map _, hread.tidy⟩

theorem write (h : Tidy s) (action : Action) (q : Query) (plan : Plan) :
    EndsTidy (s.write Store.handler action q plan) := by
  have hlease := h.lease (s.apply_closed action q plan.primary h.closed)
  rw [Storage.write]
  split
  · rcases hleased : s.lease (s.apply Store.handler action q plan.primary) with
      ⟨⟨e⟩ | ⟨names⟩, s'⟩
    · rw [hleased] at hlease
      exact ⟨hlease.scanned.passed, hlease.tidy⟩
    · rw [hleased] at hlease
      exact ⟨.ok _, hlease.tidy⟩
  · exact ⟨.error ErrorKind.noConfusion, h⟩

theorem remember (h : Tidy s) (r : Except QueryError α) : Tidy (s.remember r) := by
  cases r <;> exact ⟨h.closed, h.inTurn, h.opening⟩

/-- **One query** over a tidy storage leaves it tidy, whether it fails or not. -/
theorem execute (h : Tidy s) (q : Query) (main : Option Entity) :
    EndsTidy (s.execute Store.handler q main) := by
  have hdispatch : EndsTidy (s.dispatch Store.handler q main) := by
    cases haction : q.resolvedAction? with
    | none =>
        simp only [dispatch, haction]
        exact ⟨.error ErrorKind.noConfusion, h⟩
    | some action =>
        cases hplan : s.planner.plan q main with
        | error e =>
            simp only [dispatch, haction, hplan]
            exact ⟨.error (Planner.kind_of_plan_error hplan), h⟩
        | ok plan =>
            rw [dispatch_of_plan haction hplan]
            split
            · exact h.write action q plan
            · exact h.select q plan
  rw [execute_eq]
  exact ⟨hdispatch.scanned, hdispatch.tidy.remember _⟩

end Tidy

/-! ### Sessions -/

/-- What each of a sequence of queries is answered, and the storage that it leaves. -/
def session {σ : Type} (h : Handler σ) : List (Query × Option Entity) → Storage σ →
    List (Except QueryError QueryResult × Storage σ)
  | [], _ => []
  | (q, main) :: rest, s => s.execute h q main :: session h rest (s.execute h q main).2

/-- **Queries never leak or lose scan cursors.**  In a session that starts with no cursor open,
whatever is asked and whatever the store holds, no cursor is open after any query, whether it
fails or not, and none fails because a cursor was not there to go on from, nor because a scan
took too many rounds.  Subjects are read in turn. -/
theorem session_tidy (hclosed : s.store.cursors.opened = []) (hparallel : s.config.parallel = false)
    (hopening : ∀ attempt e, s.pool.opening attempt = .error e → e.isOfScan = false)
    (queries : List (Query × Option Entity)) :
    ∀ r ∈ session Store.handler queries s, r.2.store.cursors.opened = [] ∧
      (∀ name cursor, r.1 ≠ .error (.backend name (.unknownCursor cursor))) ∧
      ∀ name, r.1 ≠ .error (.backend name .endlessScan) := by
  have htidy : Tidy s := ⟨hclosed, hparallel, hopening⟩
  clear hclosed hparallel hopening
  induction queries generalizing s with
  | nil => exact fun r hr => absurd hr List.not_mem_nil
  | cons call rest ih =>
      obtain ⟨q, main⟩ := call
      have hends := htidy.execute q main
      intro r hr
      rcases List.mem_cons.mp hr with rfl | hr
      · refine ⟨hends.tidy.closed, fun name cursor he => ?_, fun name he => ?_⟩
        · cases hends.scanned name _ he
        · cases hends.scanned name _ he
      · exact ih hends.tidy r hr

/-- A storage that examines one record in a round, over two notes of which the second cannot be
read. -/
def onePerRound : Storage Store :=
  new (ExecutorConfig.withPageSize {} 1) (Pool.ofConfig .default) .empty
    (Store.putRaw .hash (Utf8.bytes "notes" ++ [separator] ++ Utf8.bytes "notes:b") [255]
      (Store.perform (.write ⟨.hash, "notes"⟩ "notes:a" .null .always) Store.empty).2)

/-- The notes are to be deleted, and then the second is replaced. -/
def replaceAfterDelete : List (Query × Option Entity) :=
  [(.onEntity .delete "notes", some (.ofName "notes")),
    ((Query.onEntity .replace "notes").withAssignment "b" .null, some (.ofName "notes"))]

theorem session_tidy_replaceAfterDelete :
    ∃ deleted replaced, session Store.handler replaceAfterDelete onePerRound = [deleted, replaced] ∧
      deleted.1 = .error (.backend "kv" Structure.undecodable) ∧
      deleted.2.store.cursors.issued = 1 ∧ deleted.2.store.cursors.opened = [] ∧
      replaced.2.store.cursors.opened = [] := by
  have htidy := session_tidy (s := onePerRound) rfl rfl (fun _ _ he => by cases he)
    replaceAfterDelete
  simp only [replaceAfterDelete, session, List.forall_mem_cons] at htidy ⊢
  obtain ⟨⟨hdeleted, -⟩, ⟨hreplaced, -⟩, -⟩ := htidy
  refine ⟨_, _, rfl, ?_, ?_, hdeleted, hreplaced⟩
  · rw [execute_fst]
    cbv
  · rw [execute_store]
    cbv

end Storage

end KeyedRelations
