import KeyedRelations.Proofs.Scan.Rest

/-!
# What programs come to

What a client's program comes to over a store depends on the trees alone.  Cursors and the
store's patience do not matter, as long as the program scans whole collections only
(`Program.Plain`): a scan starts at the beginning, and goes on from cursors of its own.
`Program.outcome` says what the program comes to without speaking of cursors, and
`Program.Plain.run_eq` that this is what running it does.
-/

namespace KeyedRelations

/-- A command that is no round of a scan does not look at cursors. -/
theorem Store.perform_of_not_isScan {cmd : Command} (h : cmd.isScan = false) (t : Trees)
    (cursors : Cursors) :
    Store.perform cmd ⟨t, cursors⟩ =
      (((ofTrees t).perform cmd).1, ⟨((ofTrees t).perform cmd).2.trees, cursors⟩) := by
  cases cmd with
  | scan c cursor pattern count => cases h
  | read c name => rfl
  | write c name payload mode =>
      simp only [perform, write, ofTrees]
      cases c.keyOf name with
      | error e => rfl
      | ok key => cases hpermits : mode.permits ((t.tree c.kind).contains key) <;> simp [hpermits]
  | remove c name =>
      simp only [perform, remove, ofTrees]
      cases c.keyOf name <;> rfl

namespace Program

variable {α β : Type}

/-- A program that scans whole collections only. -/
inductive Plain : Program α → Prop
  | done (a : α) : Plain (.done a)
  | command {c : Command} {next : c.Answer → Program α} (hscan : c.isScan = false)
      (hnext : ∀ answer, Plain (next answer)) : Plain (.command c next)
  | drain {request : ScanRequest} {next : List request.Found → Program α}
      (hnext : ∀ items, (∀ x ∈ items, Glob.accepts request.pattern x.1 = true) →
        Plain (next items)) : Plain (.drain request .start [] next)

theorem Plain.bind {program : Program α} {f : α → Program β} (h : Plain program)
    (hf : ∀ a, Plain (f a)) : Plain (program.bind f) := by
  induction h with
  | done a => exact hf a
  | command hscan _ ih => exact .command hscan ih
  | drain _ ih => exact .drain ih

/-- What a program comes to over trees, and the trees afterwards. -/
def outcome : Program α → Trees → Except StoreError α × Trees
  | done a, t => (.ok a, t)
  | command c next, t =>
    match (Store.ofTrees t).perform c with
    | (.ok answer, st) => (next answer).outcome st.trees
    | (.error e, st) => (.error e, st.trees)
  | drain request _ _ next, t =>
    match request.whole t with
    | .ok items => (next items).outcome t
    | .error e => (.error e, t)

/-- **Running a program** does what its outcome says, whichever cursors are open.  If none is,
none is left open. -/
theorem Plain.run_eq {program : Program α} (h : Plain program) (t : Trees) (cursors : Cursors) :
    ∃ after, (cursors.opened = [] → after.opened = []) ∧
      program.run Store.handler ⟨t, cursors⟩ =
        ((program.outcome t).1, ⟨(program.outcome t).2, after⟩) := by
  induction h generalizing t cursors with
  | done a => exact ⟨cursors, id, rfl⟩
  | @command c next hscan _ ih =>
      simp only [run, outcome, Store.handler]
      rw [Store.perform_of_not_isScan hscan]
      rcases (Store.ofTrees t).perform c with ⟨⟨_⟩ | ⟨answer⟩, st⟩
      · exact ⟨cursors, id, rfl⟩
      · exact ih answer st.trees cursors
  | @drain request next _ ih =>
      obtain ⟨between, hclosed, hdrain⟩ := request.drain_whole t cursors
      simp only [run, outcome, Store.handler]
      rw [hdrain]
      cases hwhole : request.whole t with
      | error e => exact ⟨between, hclosed, rfl⟩
      | ok items =>
          obtain ⟨after, hclosed', hrun⟩ :=
            ih items (fun x => request.accepts_of_whole hwhole) t between
          exact ⟨after, fun h => hclosed' (hclosed h), hrun⟩

/-- The outcome of one program after another. -/
theorem outcome_bind (program : Program α) (f : α → Program β) (t : Trees) :
    (program.bind f).outcome t =
      match program.outcome t with
      | (.ok a, t) => (f a).outcome t
      | (.error e, t) => (.error e, t) := by
  induction program generalizing t with
  | done a => rfl
  | command c next ih =>
      simp only [bind, outcome]
      rcases (Store.ofTrees t).perform c with ⟨⟨_⟩ | ⟨answer⟩, st⟩
      · rfl
      · exact ih answer st.trees
  | drain request paging found next ih =>
      simp only [bind, outcome]
      cases request.whole t with
      | error e => rfl
      | ok items => exact ih items t

end Program

end KeyedRelations
