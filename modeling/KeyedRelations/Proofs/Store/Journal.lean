import KeyedRelations.Proofs.Store.Program

/-!
# What is exchanged with a store

A journal stands between a client and a store of any kind, and keeps every command with its
answer, in order.  The client does not notice: over a journal a program comes to the result that
it comes to without, leaves the store alike, and adds to the journal what it would write into an
empty one (`Program.run_journal`).  So what a program exchanges with a store can be read off the
journal of its run, whatever the store is.

A command touches a record if it is answered that the record was written or removed.
-/

namespace KeyedRelations

/-- A command and what it was answered with. -/
structure Exchange where
  command : Command
  answer : Except StoreError command.Answer

/-- The record that a command has written or removed, by its answer. -/
def Exchange.touched? : Exchange → Option (Collection × String)
  | ⟨.write c name _ _, .ok through⟩ => if through then some (c, name) else none
  | ⟨.remove c name, .ok existed⟩ => if existed then some (c, name) else none
  | _ => none

/-- Reads and rounds of scans touch nothing. -/
theorem Exchange.touched?_of_not_isWrite {e : Exchange} (h : e.command.isWrite = false) :
    e.touched? = none := by
  obtain ⟨command, answer⟩ := e
  cases command with
  | scan | read => rfl
  | write | remove => cases h

/-- A store with all that was exchanged with it, in order. -/
structure Journal (σ : Type) where
  store : σ
  exchanges : List Exchange

namespace Journal

variable {σ : Type}

/-- A store with which nothing was exchanged yet. -/
def ofStore (store : σ) : Journal σ := ⟨store, []⟩

/-- Passes a command on, and keeps it with its answer. -/
def perform (h : Handler σ) (c : Command) (j : Journal σ) :
    Except StoreError c.Answer × Journal σ :=
  let r := h.perform c j.store
  (r.1, ⟨r.2, j.exchanges ++ [⟨c, r.1⟩]⟩)

/-- The store behind the journal as its clients see it. -/
def handler (h : Handler σ) : Handler (Journal σ) := ⟨perform h, fun j => h.patience j.store⟩

/-- Draining a scan over a journal adds rounds of the scan to it, the same to every journal. -/
theorem drain_eq (h : Handler σ) (request : ScanRequest) (n : Nat) (paging : Paging)
    (found : List request.Found) (s : σ) :
    ∃ exchanges, (∀ e ∈ exchanges, e.command.isScan = true) ∧ ∀ before,
      paging.drain (fun cursor => perform h (request.round cursor)) n found ⟨s, before⟩ =
        ((paging.drain (fun cursor => h.perform (request.round cursor)) n found s).1,
          ⟨(paging.drain (fun cursor => h.perform (request.round cursor)) n found s).2,
            before ++ exchanges⟩) := by
  induction n generalizing paging found s with
  | zero => exact ⟨[], by simp, by simp [Paging.drain]⟩
  | succ n ih =>
      simp only [Paging.drain, Paging.next]
      cases paging.cursor.position? with
      | none => exact ⟨[], by simp, by simp⟩
      | some cursor =>
          rcases hperform : h.perform (request.round cursor) s with ⟨⟨e⟩ | ⟨page⟩, s'⟩
          · exact ⟨[⟨request.round cursor, .error e⟩], by simp [Command.isScan],
              by simp [perform, hperform]⟩
          · obtain ⟨exchanges, hscans, hrest⟩ :=
              ih (paging.answered page.cursor) (addNew found page.items) s'
            refine ⟨⟨request.round cursor, .ok page⟩ :: exchanges, ?_, fun before => ?_⟩
            · simpa [Command.isScan] using hscans
            · have hrest := hrest (before ++ [⟨request.round cursor, .ok page⟩])
              simpa [perform, hperform] using hrest

end Journal

namespace Program

variable {σ α β : Type}

/-- What a program exchanges with a store, in order. -/
def exchanges (program : Program α) (h : Handler σ) (s : σ) : List Exchange :=
  (program.run (Journal.handler h) (.ofStore s)).2.exchanges

/-- The commands that a program sends to a store, in order. -/
def commands (program : Program α) (h : Handler σ) (s : σ) : List Command :=
  (program.exchanges h s).map (·.command)

/-- **Over a journal** a program comes to the same result, leaves the store alike, and adds what
it exchanges with the store. -/
theorem run_journal (h : Handler σ) (program : Program α) (s : σ) (before : List Exchange) :
    program.run (Journal.handler h) ⟨s, before⟩ =
      ((program.run h s).1, ⟨(program.run h s).2, before ++ program.exchanges h s⟩) := by
  suffices hadded : ∃ exchanges, ∀ before, program.run (Journal.handler h) ⟨s, before⟩ =
      ((program.run h s).1, ⟨(program.run h s).2, before ++ exchanges⟩) by
    obtain ⟨exchanges, hadded⟩ := hadded
    rw [Program.exchanges, Journal.ofStore, hadded, hadded, List.nil_append]
  induction program generalizing s with
  | done a => exact ⟨[], fun before => by simp [run]⟩
  | command c next ih =>
      simp only [run, Journal.handler, Journal.perform]
      rcases h.perform c s with ⟨⟨e⟩ | ⟨answer⟩, s'⟩
      · exact ⟨[⟨c, .error e⟩], fun before => rfl⟩
      · obtain ⟨exchanges, hadded⟩ := ih answer s'
        refine ⟨⟨c, .ok answer⟩ :: exchanges, fun before => ?_⟩
        have hrest := hadded (before ++ [⟨c, .ok answer⟩])
        rw [List.append_assoc, List.singleton_append] at hrest
        exact hrest
  | drain request paging found next ih =>
      obtain ⟨rounds, -, hdrain⟩ :=
        Journal.drain_eq h request (h.patience s) paging found s
      simp only [run, Journal.handler, hdrain]
      rcases paging.drain (fun cursor => h.perform (request.round cursor)) (h.patience s) found s
        with ⟨⟨_⟩ | ⟨⟨_⟩ | ⟨items⟩⟩, s'⟩
      · exact ⟨rounds, fun before => rfl⟩
      · exact ⟨rounds, fun before => rfl⟩
      · obtain ⟨exchanges, hadded⟩ := ih items s'
        refine ⟨rounds ++ exchanges, fun before => ?_⟩
        rw [← List.append_assoc]
        exact hadded (before ++ rounds)

/-! ### What is exchanged, step by step -/

theorem exchanges_done (h : Handler σ) (a : α) (s : σ) : (done a).exchanges h s = [] := rfl

theorem exchanges_command (h : Handler σ) (c : Command) (next : c.Answer → Program α) (s : σ) :
    (command c next).exchanges h s = ⟨c, (h.perform c s).1⟩ ::
      match h.perform c s with
      | (.ok answer, s') => (next answer).exchanges h s'
      | (.error _, _) => [] := by
  simp only [exchanges, run, Journal.handler, Journal.perform, Journal.ofStore]
  rcases h.perform c s with ⟨⟨e⟩ | ⟨answer⟩, s'⟩
  · rfl
  · exact congrArg (·.2.exchanges) (run_journal h (next answer) s' [⟨c, .ok answer⟩])

theorem exchanges_bind (h : Handler σ) (program : Program α) (f : α → Program β) (s : σ) :
    (program.bind f).exchanges h s = program.exchanges h s ++
      match program.run h s with
      | (.ok a, s') => (f a).exchanges h s'
      | (.error _, _) => [] := by
  rw [exchanges, run_bind, Journal.ofStore, run_journal, List.nil_append]
  rcases program.run h s with ⟨⟨e⟩ | ⟨a⟩, s'⟩
  · exact (List.append_nil _).symm
  · exact congrArg (·.2.exchanges) (run_journal h (f a) s' (program.exchanges h s))

/-- Programs that only read send no writes. -/
theorem ReadOnly.exchanges {program : Program α} (hread : program.ReadOnly) (h : Handler σ)
    (s : σ) : ∀ e ∈ program.exchanges h s, e.command.isWrite = false := by
  induction hread generalizing s with
  | done a => simp [exchanges_done]
  | @command c next hreads _ ih =>
      rw [exchanges_command, List.forall_mem_cons]
      refine ⟨hreads, ?_⟩
      rcases h.perform c s with ⟨⟨e⟩ | ⟨answer⟩, s'⟩
      · simp
      · exact ih answer s'
  | @drain request paging found next _ ih =>
      obtain ⟨rounds, hscans, hdrain⟩ :=
        Journal.drain_eq h request (h.patience s) paging found s
      have hrounds : ∀ e ∈ rounds, e.command.isWrite = false := by
        intro e he
        have hscan := hscans e he
        cases hcommand : e.command with
        | scan | read => rfl
        | write | remove => simp [hcommand, Command.isScan] at hscan
      simp only [Program.exchanges, run, Journal.handler, Journal.ofStore, hdrain]
      rcases paging.drain (fun cursor => h.perform (request.round cursor)) (h.patience s) found s
        with ⟨⟨_⟩ | ⟨⟨_⟩ | ⟨items⟩⟩, s'⟩
      · exact hrounds
      · exact hrounds
      · have hnext := congrArg (·.2.exchanges) (run_journal h (next items) s' rounds)
        dsimp only [Journal.handler, List.nil_append] at hnext ⊢
        rw [hnext, List.forall_mem_append]
        exact ⟨hrounds, ih items s'⟩

/-! ### What is touched -/

/-- The records that a program touches, one entry for each time. -/
def touched (program : Program α) (h : Handler σ) (s : σ) : List (Collection × String) :=
  (program.exchanges h s).filterMap Exchange.touched?

/-- **Programs that only read** touch nothing. -/
theorem ReadOnly.touched {program : Program α} (hread : program.ReadOnly) (h : Handler σ)
    (s : σ) : program.touched h s = [] :=
  List.filterMap_eq_nil_iff.mpr fun e he =>
    Exchange.touched?_of_not_isWrite (hread.exchanges h s e he)

end Program

end KeyedRelations
