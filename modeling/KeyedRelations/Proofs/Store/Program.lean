import KeyedRelations.Proofs.Store.Effects
import KeyedRelations.Store.Program

/-!
# Running programs

A program runs its first part and goes on with the result; the first failure ends it.
Three things are said of programs over the embedded store.  `ReadOnly` programs leave the
trees as they are, however they end.  A program `Yields` a result over given trees if it
always comes to it, whatever cursors are open; only cursors are different afterwards.  And
it `Ensures` a property if all results that it can come to over given trees have it.
-/

namespace KeyedRelations.Program

variable {σ α β : Type}

/-- A sequence of programs runs one after the other, up to the first failure. -/
theorem run_bind (h : Handler σ) (program : Program α) (f : α → Program β) (s : σ) :
    (program.bind f).run h s =
      match program.run h s with
      | (.ok a, s) => (f a).run h s
      | (.error e, s) => (.error e, s) := by
  induction program generalizing s with
  | done a => rfl
  | command c next ih =>
      simp only [bind, run]
      rcases h.perform c s with ⟨⟨_⟩ | ⟨answer⟩, s'⟩
      · rfl
      · exact ih answer s'
  | drain request paging found next ih =>
      simp only [bind, run]
      rcases paging.drain (fun cursor => h.perform (request.round cursor)) (h.patience s) found s
        with ⟨⟨_⟩ | ⟨⟨_⟩ | ⟨items⟩⟩, s'⟩
      · rfl
      · rfl
      · exact ih items s'

/-- A command that comes to a result has been answered. -/
theorem run_command_eq_ok_iff {h : Handler σ} {c : Command} {next : c.Answer → Program α}
    {s s' : σ} {a : α} :
    (command c next).run h s = (.ok a, s') ↔
      ∃ answer s₁, h.perform c s = (.ok answer, s₁) ∧ (next answer).run h s₁ = (.ok a, s') := by
  rw [run]
  rcases h.perform c s with ⟨⟨_⟩ | ⟨answer⟩, s₁⟩ <;> simp

/-- A sequence that comes to a result has come to the end of its first part. -/
theorem run_bind_eq_ok_iff {h : Handler σ} {program : Program α} {f : α → Program β}
    {s s' : σ} {b : β} :
    (program.bind f).run h s = (.ok b, s') ↔
      ∃ a s₁, program.run h s = (.ok a, s₁) ∧ (f a).run h s₁ = (.ok b, s') := by
  rw [run_bind]
  rcases program.run h s with ⟨⟨_⟩ | ⟨a⟩, s₁⟩ <;> simp

/-- Going on with the result alone changes nothing. -/
theorem bind_done (program : Program α) : program.bind done = program := by
  induction program with
  | done a => rfl
  | command c next ih => exact congrArg (command c) (funext ih)
  | drain request paging found next ih => exact congrArg (drain request paging found) (funext ih)

theorem bind_assoc {γ : Type} (program : Program α) (f : α → Program β) (g : β → Program γ) :
    (program.bind f).bind g = program.bind fun a => (f a).bind g := by
  induction program with
  | done a => rfl
  | command c next ih => exact congrArg (command c) (funext ih)
  | drain request paging found next ih => exact congrArg (drain request paging found) (funext ih)

/-! ### Programs that only read -/

/-- A program that sends nothing but reads and rounds of scans. -/
inductive ReadOnly : Program α → Prop
  | done (a : α) : ReadOnly (.done a)
  | command {c : Command} {next : c.Answer → Program α} (hread : c.isWrite = false)
      (hnext : ∀ answer, ReadOnly (next answer)) : ReadOnly (.command c next)
  | drain {request : ScanRequest} {paging : Paging} {found : List request.Found}
      {next : List request.Found → Program α} (hnext : ∀ items, ReadOnly (next items)) :
      ReadOnly (.drain request paging found next)

theorem ReadOnly.bind {program : Program α} {f : α → Program β} (h : ReadOnly program)
    (hf : ∀ a, ReadOnly (f a)) : ReadOnly (program.bind f) := by
  induction h with
  | done a => exact hf a
  | command hread _ ih => exact .command hread ih
  | drain _ ih => exact .drain ih

/-- Draining a scan leaves the trees as they are. -/
theorem drain_trees (request : ScanRequest) (n : Nat) (paging : Paging)
    (found : List request.Found) (st : Store) :
    (paging.drain (fun cursor => Store.perform (request.round cursor)) n found st).2.trees =
      st.trees := by
  induction n generalizing paging found st with
  | zero => rfl
  | succ n ih =>
      rw [Paging.drain, Paging.next]
      cases paging.cursor.position? with
      | none => rfl
      | some cursor =>
          have htrees : (Store.perform (request.round cursor) st).2.trees = st.trees :=
            Store.perform_trees_of_not_isWrite rfl st
          dsimp only
          rcases hperform : Store.perform (request.round cursor) st with ⟨⟨_⟩ | ⟨page⟩, st'⟩
          · simpa [hperform] using htrees
          · rw [hperform] at htrees
            exact (ih _ _ _).trans htrees

/-- **A program that only reads changes no tree**, whether it fails or not. -/
theorem ReadOnly.run_trees {program : Program α} (h : ReadOnly program) (st : Store) :
    (program.run Store.handler st).2.trees = st.trees := by
  induction h generalizing st with
  | done a => rfl
  | @command c next hread _ ih =>
      have htrees := Store.perform_trees_of_not_isWrite hread st
      simp only [run, Store.handler]
      rcases hperform : Store.perform c st with ⟨⟨_⟩ | ⟨answer⟩, st'⟩
      · simpa [hperform] using htrees
      · rw [hperform] at htrees
        exact (ih answer st').trans htrees
  | @drain request paging found next _ ih =>
      have htrees := drain_trees request (st.trees.size + 1) paging found st
      simp only [run, Store.handler]
      rcases hdrain : paging.drain (fun cursor => Store.perform (request.round cursor))
          (st.trees.size + 1) found st with ⟨⟨_⟩ | ⟨⟨_⟩ | ⟨items⟩⟩, st'⟩
      · simpa [hdrain] using htrees
      · simpa [hdrain] using htrees
      · rw [hdrain] at htrees
        exact (ih items st').trans htrees

/-! ### What a program comes to -/

/-- Over given trees the program comes to a result, whatever cursors are open, and changes
at most the cursors. -/
def Yields (t : Trees) (program : Program α) (a : α) : Prop :=
  ∀ cursors, ∃ cursors', program.run Store.handler ⟨t, cursors⟩ = (.ok a, ⟨t, cursors'⟩)

variable {t : Trees}

theorem Yields.done (a : α) : Yields t (.done a) a := fun cursors => ⟨cursors, rfl⟩

theorem Yields.bind {program : Program α} {f : α → Program β} {a : α} {b : β}
    (h : Yields t program a) (hf : Yields t (f a) b) : Yields t (program.bind f) b := by
  intro cursors
  obtain ⟨between, hrun⟩ := h cursors
  obtain ⟨after, hrun'⟩ := hf between
  exact ⟨after, by rw [run_bind, hrun]; exact hrun'⟩

/-- Reading a record comes to what the program does with what it holds. -/
theorem Yields.read {c : Collection} {name : String} {held : Option c.kind.Payload}
    {next : Option c.kind.Payload → Program α} {a : α}
    (hread : ∀ cursors, Store.read c name ⟨t, cursors⟩ = .ok held)
    (hnext : Yields t (next held) a) :
    Yields t (.command (.read c name) next) a := by
  intro cursors
  obtain ⟨after, hrun⟩ := hnext cursors
  refine ⟨after, ?_⟩
  simp only [run, Store.handler, Store.perform, hread]
  exact hrun

/-! ### What holds of every result -/

/-- Whatever the program comes to over given trees, if it comes to anything, has a
property. -/
def Ensures (t : Trees) (program : Program α) (Q : α → Prop) : Prop :=
  ∀ cursors a st', program.run Store.handler ⟨t, cursors⟩ = (.ok a, st') → Q a

variable {Q : α → Prop}

theorem Ensures.done {a : α} (h : Q a) : Ensures t (.done a) Q := by
  intro cursors a' st' hrun
  cases hrun
  exact h

theorem Ensures.imp {program : Program α} {R : α → Prop} (h : Ensures t program Q)
    (himp : ∀ a, Q a → R a) : Ensures t program R :=
  fun cursors a st' hrun => himp a (h cursors a st' hrun)

/-- What reads first is followed over the same trees. -/
theorem Ensures.bind {program : Program α} {f : α → Program β} {R : β → Prop}
    (h : Ensures t program Q) (hread : ReadOnly program) (hf : ∀ a, Q a → Ensures t (f a) R) :
    Ensures t (program.bind f) R := by
  intro cursors b st' hrun
  have htrees := hread.run_trees ⟨t, cursors⟩
  obtain ⟨a, ⟨t', between⟩, hfirst, hnext⟩ := run_bind_eq_ok_iff.mp hrun
  rw [hfirst] at htrees
  obtain rfl : t' = t := htrees
  exact hf a (h cursors a _ hfirst) between b st' hnext

theorem Ensures.read {c : Collection} {name : String} {next : Option c.kind.Payload → Program α}
    (h : ∀ held, (Store.ofTrees t).read c name = .ok held → Ensures t (next held) Q) :
    Ensures t (.command (.read c name) next) Q := by
  intro cursors a st' hrun
  obtain ⟨held, st₁, hperform, hnext⟩ := run_command_eq_ok_iff.mp hrun
  obtain ⟨hread, rfl⟩ := Prod.mk.inj hperform
  exact h held hread cursors a st' hnext

end KeyedRelations.Program
