import Mathlib
import KeyedRelations.Proofs.Mutation
import KeyedRelations.Proofs.Storage.Execution
import KeyedRelations.Store.Probe

/-!
# Rejected queries never reach the store

What is wrong with a query itself shows before the store is asked for anything.  An error that
is no backend failure comes from the action, from planning, from the number of subjects or from
the assignments, and all of them are looked at by the settings alone.  Once a program runs on
the store only the store can fail: what a plan lets through can be shown, whatever was found.

So such an error is the same over every store and leaves the store as it is
(`Storage.Settled`).  In particular a probe before the store sees no command
(`Storage.execute_rejected`).
-/

namespace KeyedRelations

/-! ### Writes that a subject refuses -/

/-- A write that is wrong whatever the store holds. -/
inductive SubjectPlan.Refuses (p : SubjectPlan) (assignments : List Assignment) : Action → Prop
  /-- The members of a set hold nothing that could be updated. -/
  | members (hkind : p.kind = .set) : Refuses p assignments .update
  /-- An update takes one assignment, and that to the payload column. -/
  | column {column : String} (hcolumn : p.kind.payloadColumn? = some column)
      (hother : ∀ a, assignments = [a] → a.column ≠ column) : Refuses p assignments .update
  /-- One of the assigned scores, the first or not, is no number. -/
  | score {action : Action} {a : Assignment}
      (haction : action = .insert ∨ action = .replace ∨ action = .update)
      (hkind : p.kind = .sortedSet) (ha : a ∈ assignments) (hnumber : a.value.number? = none) :
      Refuses p assignments action

namespace SubjectPlan

variable {p : SubjectPlan} {origin : Origin} {assignments : List Assignment} {pageSize : Nat}
  {action : Action}

/-- Records that are assigned hold what their structure can hold. -/
theorem payload?_ne_none_of_assigned {records : Records p.kind}
    (h : p.assigned origin assignments = .ok records) {a : Assignment} (ha : a ∈ assignments) :
    p.kind.payload? a.value ≠ none := by
  intro hnone
  have hmem : (p.entity.recordName a.column, p.kind.payload? a.value) ∈
      records.map fun r => (r.1, some r.2) := by
    rw [assigned_eq_ok h]
    exact List.mem_map_of_mem ha
  obtain ⟨r, -, hr⟩ := List.mem_map.mp hmem
  rw [hnone] at hr
  cases (Prod.mk.inj hr).2

/-- A score is a number. -/
theorem payload?_eq_none_of_score (hkind : p.kind = .sortedSet) {v : Value}
    (h : v.number? = none) : p.kind.payload? v = none := by
  obtain ⟨name, entity, kind, predicates, columns⟩ := p
  obtain rfl : kind = .sortedSet := hkind
  exact h

theorem Refuses.isWrite (h : p.Refuses assignments action) : action.isWrite = true := by
  cases h with
  | members | column => rfl
  | score haction => rcases haction with rfl | rfl | rfl <;> rfl

/-- What a subject refuses has no program. -/
theorem Refuses.mutation_ne_ok (h : p.Refuses assignments action)
    (program : Program (List String)) :
    p.mutation origin assignments pageSize action ≠ .ok program := by
  intro hok
  cases h with
  | members hkind =>
      obtain ⟨a, payload, -, hcolumn, -⟩ := update_eq_ok hok
      rw [hkind] at hcolumn
      cases hcolumn
  | column hcolumn hother =>
      obtain ⟨a, payload, hone, hsame, -⟩ := update_eq_ok hok
      exact hother a hone (Option.some.inj (hsame.symm.trans hcolumn))
  | score haction hkind ha hnumber =>
      have hnone := payload?_eq_none_of_score hkind hnumber
      rcases haction with rfl | rfl | rfl
      · obtain ⟨records, hrecords, -⟩ := put_eq_ok hok
        exact payload?_ne_none_of_assigned hrecords ha hnone
      · obtain ⟨records, hrecords, -⟩ := put_eq_ok hok
        exact payload?_ne_none_of_assigned hrecords ha hnone
      · obtain ⟨a', payload, hone, -, hpayload, -⟩ := update_eq_ok hok
        rw [hone, List.mem_singleton] at ha
        rw [ha, hpayload] at hnone
        cases hnone

/-- A value that cannot be assigned is no failure of the store. -/
theorem kind_of_payloadOf_error {a : Assignment} {e : QueryError}
    (h : p.payloadOf origin a = .error e) : e.kind = .malformedQuery := by
  rw [payloadOf] at h
  split at h
  · cases h
  · obtain rfl := Except.error.inj h
    rfl

theorem kind_of_assigned_error {e : QueryError} (h : p.assigned origin assignments = .error e) :
    e.kind = .malformedQuery := by
  induction assignments with
  | nil => cases h
  | cons a rest ih =>
      rw [assigned] at h
      cases hpayload : p.payloadOf origin a with
      | error e' =>
          rw [hpayload] at h
          exact Except.error.inj h ▸ kind_of_payloadOf_error hpayload
      | ok payload =>
          rw [hpayload] at h
          exact ih (error_of_map h)

theorem kind_of_put_error {mode : WriteMode} {e : QueryError}
    (h : p.put origin assignments mode = .error e) : e.kind = .malformedQuery := by
  rw [put] at h
  split at h
  · obtain rfl := Except.error.inj h
    rfl
  · exact kind_of_assigned_error (error_of_map h)

theorem kind_of_update_error {e : QueryError}
    (h : p.update origin assignments pageSize = .error e) : e.kind ≠ .backend := by
  rw [update] at h
  split at h
  · obtain rfl := Except.error.inj h
    exact ErrorKind.noConfusion
  · split at h
    · split at h
      · rw [kind_of_payloadOf_error (error_of_map h)]
        exact ErrorKind.noConfusion
      · obtain rfl := Except.error.inj h
        exact ErrorKind.noConfusion
    · obtain rfl := Except.error.inj h
      exact ErrorKind.noConfusion

/-- **A write that has no program** is not refused by the store. -/
theorem kind_of_mutation_error {e : QueryError}
    (h : p.mutation origin assignments pageSize action = .error e) : e.kind ≠ .backend := by
  cases action with
  | select =>
      obtain rfl := Except.error.inj h
      exact ErrorKind.noConfusion
  | insert | replace =>
      rw [kind_of_put_error h]
      exact ErrorKind.noConfusion
  | update => exact kind_of_update_error h
  | delete => cases h

end SubjectPlan

namespace Storage

variable {σ τ α : Type} {s : Storage σ} {h : Handler σ} {q : Query} {main : Option Entity}
  {e : QueryError}

/-! ### Once a program runs, only the store fails -/

/-- What a program fails with is a failure of the store. -/
theorem kind_of_perform_error {program : Program α} {store store' : σ}
    (he : s.perform h program store = (.error e, store')) : e.kind = .backend := by
  rw [perform] at he
  rcases hrun : (program.run h store).1 with ⟨cause⟩ | ⟨a⟩
  · rw [hrun] at he
    obtain rfl := Except.error.inj (Prod.mk.inj he).1
    rfl
  · rw [hrun] at he
    cases (Prod.mk.inj he).1

/-- A subject of a plan is not read only if the store fails or there is no handle. -/
theorem kind_of_readSubject_error {p : SubjectPlan} (hp : p.Answerable)
    (he : (s.readSubject h q p).1 = .error e) : e.kind = .backend := by
  rw [readSubject] at he
  rcases hacquire : s.pool.acquire with ⟨⟨cause⟩ | ⟨handle⟩, pool⟩
  · rw [lease_of_acquire_error hacquire] at he
    obtain rfl := Except.error.inj he
    rfl
  · rw [lease_of_acquire_ok hacquire] at he
    rcases hused : s.perform h (p.select s.config.pageSize) s.store with ⟨⟨cause⟩ | ⟨found⟩, store⟩
    · rw [hused] at he
      exact Except.error.inj he ▸ kind_of_perform_error hused
    · rw [hused] at he
      obtain ⟨block, hblock, -⟩ := exists_present hp
        { s with pool := pool.release handle, store } q found
      cases hblock.symm.trans he

theorem kind_of_readInTurn_error {subjects : List SubjectPlan}
    (hsubjects : ∀ p ∈ subjects, p.Answerable)
    (he : (readInTurn h q subjects s).1 = .error e) : e.kind = .backend := by
  induction subjects generalizing s with
  | nil => cases he
  | cons p rest ih =>
      have hfirst := @kind_of_readSubject_error _ s h q e p (hsubjects p List.mem_cons_self)
      rw [readInTurn] at he
      rcases hread : s.readSubject h q p with ⟨⟨e'⟩ | ⟨block⟩, s'⟩
      · rw [hread] at he hfirst
        exact hfirst (congrArg Except.error (Except.error.inj he))
      · rw [hread] at he
        exact ih (fun p' hp' => hsubjects p' (List.mem_cons_of_mem _ hp')) (error_of_map he)

theorem kind_of_readEach_error {subjects : List SubjectPlan}
    (hsubjects : ∀ p ∈ subjects, p.Answerable)
    (he : .error e ∈ (readEach h q subjects s).1) : e.kind = .backend := by
  induction subjects generalizing s with
  | nil => cases he
  | cons p rest ih =>
      rcases List.mem_cons.mp he with hfirst | hrest
      · exact kind_of_readSubject_error (hsubjects p List.mem_cons_self) hfirst.symm
      · exact ih (fun p' hp' => hsubjects p' (List.mem_cons_of_mem _ hp')) hrest

/-- What outcomes are gathered to, if not to all results, is one of their errors. -/
theorem mem_of_gather_error {ε : Type} {outcomes : List (Except ε α)} {e : ε}
    (he : gather outcomes = .error e) : .error e ∈ outcomes := by
  induction outcomes with
  | nil => cases he
  | cons outcome rest ih =>
      cases outcome with
      | error e' =>
          obtain rfl := Except.error.inj he
          exact List.mem_cons_self
      | ok a =>
          exact List.mem_cons_of_mem _ (ih (error_of_map he))

/-- **A plan that is read** fails only as the store does. -/
theorem kind_of_select_error {plan : Plan} (hplan : ∀ p ∈ plan.subjects, p.Answerable)
    (he : (s.select h q plan).1 = .error e) : e.kind = .backend := by
  rw [select] at he
  split at he
  · exact kind_of_readEach_error hplan (mem_of_gather_error (error_of_map he))
  · exact kind_of_readInTurn_error hplan (error_of_map he)

/-! ### Errors that do not depend on the store -/

/-- The storage with another store. -/
def onStore (s : Storage σ) (store : τ) : Storage τ := { s with store }

/-- An error that a query is answered with over every store, which is left as it is. -/
def Settled (s : Storage σ) (q : Query) (main : Option Entity) (e : QueryError) : Prop :=
  ∃ pool : Pool, ∀ {τ : Type} (h : Handler τ) (store : τ),
    (s.onStore store).dispatch h q main = (.error e, { s.onStore store with pool })

/-- Without a handle the store is not asked. -/
theorem settled_of_acquire_error {action : Action} {p : SubjectPlan} {cause : StoreError}
    {pool : Pool} (haction : q.resolvedAction? = some action) (hwrite : action.isWrite = true)
    (hplan : s.planner.plan q main = .ok ⟨p, []⟩)
    (hacquire : s.pool.acquire = (.error cause, pool)) :
    s.Settled q main (s.backend cause) := by
  refine ⟨pool, fun {τ} h store => ?_⟩
  have hacquire' : (s.onStore store).pool.acquire = (.error cause, pool) := hacquire
  rw [dispatch_of_plan haction (show (s.onStore store).planner.plan q main = _ from hplan),
    if_pos hwrite, write, if_pos (by rfl), lease_of_acquire_error hacquire']
  rfl

/-- What is wrong with a write is said through a handle, but not by the store. -/
theorem settled_of_mutation_error {action : Action} {p : SubjectPlan} {handle : HandleId}
    {pool : Pool} (haction : q.resolvedAction? = some action) (hwrite : action.isWrite = true)
    (hplan : s.planner.plan q main = .ok ⟨p, []⟩) (hacquire : s.pool.acquire = (.ok handle, pool))
    (he : p.mutation (s.planner.origin q) q.assignments s.config.pageSize action = .error e) :
    s.Settled q main e := by
  refine ⟨pool.release handle, fun {τ} h store => ?_⟩
  have hacquire' : (s.onStore store).pool.acquire = (.ok handle, pool) := hacquire
  have hmutation : p.mutation ((s.onStore store).planner.origin q) q.assignments
      (s.onStore store).config.pageSize action = .error e := he
  rw [dispatch_of_plan haction (show (s.onStore store).planner.plan q main = _ from hplan),
    if_pos hwrite, write, if_pos (by rfl), lease_of_acquire_ok hacquire', apply, hmutation]

/-- What is wrong with the number of subjects is said without a handle. -/
theorem settled_of_many {action : Action} {plan : Plan} (haction : q.resolvedAction? = some action)
    (hwrite : action.isWrite = true) (hplan : s.planner.plan q main = .ok plan)
    (hmany : ¬ plan.others.isEmpty = true) :
    s.Settled q main (s.planner.malformed q (action.name ++ " takes exactly one subject, got "
      ++ toString plan.subjects.length)) := by
  refine ⟨s.pool, fun {τ} h store => ?_⟩
  rw [dispatch_of_plan haction (show (s.onStore store).planner.plan q main = _ from hplan),
    if_pos hwrite, write, if_neg hmany]
  rfl

/-- A write that fails for another reason than the store's does not depend on the store. -/
theorem settled_of_write {action : Action} {plan : Plan}
    (haction : q.resolvedAction? = some action) (hwrite : action.isWrite = true)
    (hplan : s.planner.plan q main = .ok plan) (he : (s.write h action q plan).1 = .error e)
    (hkind : e.kind ≠ .backend) : s.Settled q main e := by
  rw [write] at he
  split at he
  next honly =>
    obtain ⟨p, others⟩ := plan
    obtain rfl : others = [] := by simpa using honly
    rcases hacquire : s.pool.acquire with ⟨⟨cause⟩ | ⟨handle⟩, pool⟩
    · rw [lease_of_acquire_error hacquire] at he
      exact absurd (Except.error.inj he ▸ rfl) hkind
    rw [lease_of_acquire_ok hacquire, apply] at he
    cases hmutation : p.mutation (s.planner.origin q) q.assignments s.config.pageSize action with
    | error e' =>
        simp only [hmutation] at he
        obtain rfl := Except.error.inj he
        exact settled_of_mutation_error haction hwrite hplan hacquire hmutation
    | ok program =>
        simp only [hmutation] at he
        rcases hused : s.perform h program s.store with ⟨⟨e'⟩ | ⟨names⟩, store⟩
        · rw [hused] at he
          exact absurd (Except.error.inj he ▸ kind_of_perform_error hused) hkind
        · rw [hused] at he
          cases he
  next hmany =>
    obtain rfl := Except.error.inj he
    exact settled_of_many haction hwrite hplan hmany

/-- **An error that is no backend failure** does not depend on the store. -/
theorem settled_of_dispatch (he : (s.dispatch h q main).1 = .error e)
    (hkind : e.kind ≠ .backend) : s.Settled q main e := by
  cases haction : q.resolvedAction? with
  | none =>
      simp only [dispatch, haction] at he
      obtain rfl := Except.error.inj he
      exact ⟨s.pool, fun h' store => by simp only [dispatch, haction]; rfl⟩
  | some action =>
      cases hplan : s.planner.plan q main with
      | error e' =>
          simp only [dispatch, haction, hplan] at he
          obtain rfl := Except.error.inj he
          refine ⟨s.pool, fun h' store => ?_⟩
          simp only [dispatch, haction, show (s.onStore store).planner.plan q main = _ from hplan]
          rfl
      | ok plan =>
          rw [dispatch_of_plan haction hplan] at he
          cases hwrite : action.isWrite with
          | false =>
              rw [hwrite] at he
              exact absurd (kind_of_select_error (fun p => Planner.answerable_of_plan hplan) he)
                hkind
          | true =>
              rw [hwrite, if_pos rfl] at he
              exact settled_of_write haction hwrite hplan he hkind

/-! ### Answers without a command -/

/-- The storage with a probe before its store. -/
def probed (s : Storage σ) : Storage (Probe σ) := s.onStore (.ofStore s.store)

/-- A query is answered without a command: a probe before the store counts none and notes
none, the answer is the same with it as without, and the store stays as it is. -/
structure Unasked (s : Storage σ) (h : Handler σ) (q : Query) (main : Option Entity) : Prop where
  answer : (s.probed.execute (Probe.handler h) q main).1 = (s.execute h q main).1
  calls : (s.probed.execute (Probe.handler h) q main).2.store.calls = 0
  notes : (s.probed.execute (Probe.handler h) q main).2.store.notes = []
  store : (s.execute h q main).2.store = s.store

theorem Settled.execute_fst (hs : s.Settled q main e) (h : Handler σ) :
    (s.execute h q main).1 = .error e := by
  obtain ⟨pool, hdispatch⟩ := hs
  have hplain : s.dispatch h q main = (.error e, { s with pool }) := hdispatch h s.store
  rw [Storage.execute_fst, hplain]

theorem Settled.unasked (hs : s.Settled q main e) (h : Handler σ) : s.Unasked h q main := by
  obtain ⟨pool, hdispatch⟩ := hs
  have hplain : s.dispatch h q main = (.error e, { s with pool }) := hdispatch h s.store
  have hprobed : s.probed.dispatch (Probe.handler h) q main =
      (.error e, { s.probed with pool }) := hdispatch (Probe.handler h) (.ofStore s.store)
  constructor
  case answer => rw [Storage.execute_fst, Storage.execute_fst, hplain, hprobed]
  case calls => rw [execute_store, hprobed]; rfl
  case notes => rw [execute_store, hprobed]; rfl
  case store => rw [execute_store, hplain]

/-- A write that its subject refuses is an error before anything is read. -/
theorem exists_settled_of_refuses {p : SubjectPlan} {action : Action}
    (haction : q.resolvedAction? = some action) (hplan : s.planner.plan q main = .ok ⟨p, []⟩)
    (hrefuses : p.Refuses q.assignments action) :
    ∃ e, s.Settled q main e ∧
      ((∃ handle pool, s.pool.acquire = (.ok handle, pool)) → e.kind ≠ .backend) := by
  have hwrite := hrefuses.isWrite
  rcases hacquire : s.pool.acquire with ⟨⟨cause⟩ | ⟨handle⟩, pool⟩
  · exact ⟨_, settled_of_acquire_error haction hwrite hplan hacquire, by simp⟩
  · cases hmutation : p.mutation (s.planner.origin q) q.assignments s.config.pageSize action with
    | ok program => exact absurd hmutation (hrefuses.mutation_ne_ok program)
    | error e =>
        exact ⟨e, settled_of_mutation_error haction hwrite hplan hacquire hmutation,
          fun _ => SubjectPlan.kind_of_mutation_error hmutation⟩

/-- **Rejected queries never reach the store.**  Whatever the store is and does, a query that is
answered with an error other than a backend failure is answered without a command.  What a plan
lets through can be shown, so that no column is found missing after reading.  A write that its
subject refuses is an error without a command too, and no backend failure as long as there is a
handle. -/
theorem execute_rejected (h : Handler σ) (s : Storage σ) (q : Query) (main : Option Entity) :
    (∀ e, (s.execute h q main).1 = .error e → e.kind ≠ .backend → s.Unasked h q main) ∧
    (∀ plan, s.planner.plan q main = .ok plan → ∀ p ∈ plan.subjects, ∀ found,
      ∃ block, s.present q p found = .ok block) ∧
    (∀ p action, s.planner.plan q main = .ok ⟨p, []⟩ → q.resolvedAction? = some action →
      p.Refuses q.assignments action → s.Unasked h q main ∧
        ∃ e, (s.execute h q main).1 = .error e ∧
          ((∃ handle pool, s.pool.acquire = (.ok handle, pool)) → e.kind ≠ .backend)) := by
  refine ⟨fun e he hkind => ?_, fun plan hplan p hp found => ?_,
    fun p action hplan haction hrefuses => ?_⟩
  · rw [execute_fst] at he
    exact (settled_of_dispatch he hkind).unasked h
  · obtain ⟨block, hblock, -⟩ := exists_present (Planner.answerable_of_plan hplan hp) s q found
    exact ⟨block, hblock⟩
  · obtain ⟨e, hsettled, hkind⟩ := exists_settled_of_refuses haction hplan hrefuses
    exact ⟨hsettled.unasked h, e, hsettled.execute_fst h, hkind⟩

/-- A storage of a sorted set with one score. -/
def oneScore : Storage Store :=
  new {} (Pool.ofConfig .default) .empty
    (Store.perform (.write ⟨.sortedSet, "scores"⟩ "scores:a" 1 .always) Store.empty).2

/-- The entity of the scores. -/
def scores : Entity := (Entity.ofName "scores").withStructure .sortedSet

/-- Scores are inserted, the second of which is no number. -/
def insertScores : Query :=
  ((Query.onEntity .insert "scores").withAssignment "b" (.int 1)).withAssignment "c" (.bool true)

theorem execute_rejected_insertScores :
    ∃ p e, oneScore.planner.plan insertScores (some scores) = .ok ⟨p, []⟩ ∧
      p.Refuses insertScores.assignments .insert ∧
      (oneScore.execute Store.handler insertScores (some scores)).1 = .error e ∧
      e.kind ≠ .backend ∧ oneScore.Unasked Store.handler insertScores (some scores) ∧
      ∃ block, oneScore.present insertScores p [] = .ok block := by
  obtain ⟨hrejected, hshown, hrefused⟩ :=
    execute_rejected Store.handler oneScore insertScores (some scores)
  have hkind : scores.kind = .sortedSet := by cbv
  have hplan : oneScore.planner.plan insertScores (some scores) =
      .ok ⟨⟨"scores", scores, scores.kind, [], []⟩, []⟩ :=
    Planner.plan_eq_ok_iff.mpr ⟨Planner.planSubjects_cons_iff.mpr ⟨List.not_mem_nil, scores, _, [],
      rfl, Planner.kindFor_lenient _ _, rfl, rfl⟩, rfl⟩
  have haction : insertScores.resolvedAction? = some .insert := by cbv
  have hrefuses : (SubjectPlan.mk "scores" scores scores.kind [] []).Refuses
      insertScores.assignments .insert :=
    .score (Or.inl rfl) hkind (List.mem_cons_of_mem _ List.mem_cons_self) rfl
  obtain ⟨-, e, herror, hhandle⟩ := hrefused _ .insert hplan haction hrefuses
  have hreason : e.kind ≠ .backend := hhandle ⟨_, _, rfl⟩
  exact ⟨_, e, hplan, hrefuses, herror, hreason, hrejected e herror hreason,
    hshown _ hplan _ List.mem_cons_self []⟩

end Storage

end KeyedRelations
