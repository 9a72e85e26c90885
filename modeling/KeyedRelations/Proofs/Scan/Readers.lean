import Mathlib
import KeyedRelations.Proofs.Scan.Reading
import KeyedRelations.Proofs.Store.Owners

/-!
# Readers that take turns

Clients that only read take turns command by command, on one store and with one table of open
cursors.  The numbers of their cursors depend on who came first, but if there are no more
clients than cursors can be open, each of them comes to what its program would come to alone,
whatever the others do, and all come to their end.

The invariant is `Readers.OnWay`: every open cursor is that of one reader, and every reader is
on the way to a result that is settled from the beginning.
-/

namespace KeyedRelations

/-! ### Readers -/

/-- A client that carries out a program, or whose program has failed. -/
inductive Reader (α : Type) where
  | running (program : Program α)
  | failed (e : StoreError)

namespace Reader

variable {α : Type}

/-- What the reader has come to, if it has come to its end. -/
def result? : Reader α → Option (Except StoreError α)
  | running program =>
    match program.step? with
    | .inl a => some (.ok a)
    | .inr _ => none
  | failed e => some (.error e)

/-- A running reader sends its next command: the reader and the store afterwards. -/
inductive Turn (st : Store) : Reader α → Reader α → Store → Prop
  | answered {program : Program α} {w : Program.Waiting α} {answer : w.command.Answer}
      {after : Store} (hstep : program.step? = .inr w)
      (hperform : st.perform w.command = (.ok answer, after)) :
      Turn st (running program) (running (w.next answer)) after
  | failed {program : Program α} {w : Program.Waiting α} {e : StoreError} {after : Store}
      (hstep : program.step? = .inr w) (hperform : st.perform w.command = (.error e, after)) :
      Turn st (running program) (failed e) after

/-- Where a reader stands on the way to a result, over trees. -/
inductive OnWay (t : Trees) : Reader α → Option (Nat × Key) → Nat → Except StoreError α → Prop
  | running {program : Program α} {own : Option (Nat × Key)} {n : Nat} {r : Except StoreError α}
      (h : program.Reading t own n r) : OnWay t (running program) own n r
  | failed (e : StoreError) (n : Nat) : OnWay t (failed e) none n (.error e)

variable {t : Trees} {reader reader' : Reader α} {own : Option (Nat × Key)} {n : Nat}
  {r : Except StoreError α}

/-- A reader that has come to its end has come to its result. -/
theorem OnWay.result (h : OnWay t reader own n r) {r' : Except StoreError α}
    (hr : reader.result? = some r') : r' = r := by
  cases h with
  | failed e n => exact (Option.some.inj hr).symm
  | @running program _ _ _ h =>
      rw [result?] at hr
      cases hstep : program.step? with
      | inl a =>
          rw [hstep] at hr
          rw [(h.finish hstep).2]
          exact (Option.some.inj hr).symm
      | inr w =>
          rw [hstep] at hr
          cases hr

/-- What a turn of a reader does to the open cursors, and that it brings the reader nearer to
its result. -/
theorem OnWay.turn (h : OnWay t reader own n r) {cursors : Cursors}
    (hopen : ∀ cursor key, own = some (cursor, key) → cursors.key? cursor = some key)
    {after : Store} (hturn : Turn ⟨t, cursors⟩ reader reader' after) :
    ∃ m, m < n ∧
      ((after = ⟨t, cursors.without own⟩ ∧ OnWay t reader' none m r) ∨
        ∃ key, after = ⟨t, ((cursors.without own).issue key).2⟩ ∧
          OnWay t reader' (some ((cursors.without own).next, key)) m r) := by
  cases h with
  | failed e n => cases hturn
  | running h =>
      cases hturn with
      | @answered program w answer _ hstep hperform =>
          cases h.goes hstep hopen with
          | fails hfails => cases hfails.symm.trans hperform
          | @closes answer' m hcloses hm hnext =>
              obtain ⟨hanswer, rfl⟩ := Prod.mk.inj (hperform.symm.trans hcloses)
              obtain rfl := Except.ok.inj hanswer
              exact ⟨m, hm, Or.inl ⟨rfl, .running hnext⟩⟩
          | @opens answer' m key hopens hm hnext =>
              obtain ⟨hanswer, rfl⟩ := Prod.mk.inj (hperform.symm.trans hopens)
              obtain rfl := Except.ok.inj hanswer
              exact ⟨m, hm, Or.inr ⟨key, rfl, .running hnext⟩⟩
      | @failed program w e _ hstep hperform =>
          cases h.goes hstep hopen with
          | fails hfails hm hr =>
              obtain ⟨herror, rfl⟩ := Prod.mk.inj (hperform.symm.trans hfails)
              obtain rfl := Except.error.inj herror
              subst hr
              exact ⟨0, hm, Or.inl ⟨rfl, .failed e 0⟩⟩
          | closes hcloses => cases hcloses.symm.trans hperform
          | opens hopens => cases hopens.symm.trans hperform

end Reader

/-! ### Readers together -/

/-- A store and the readers that share it. -/
structure Readers (ι α : Type) where
  store : Store
  readers : ι → Reader α

namespace Readers

variable {ι α : Type}

/-- All readers have come to their end, and these are their results. -/
def CameTo (w : Readers ι α) (results : ι → Except StoreError α) : Prop :=
  ∀ i, (w.readers i).result? = some (results i)

/-- One of the readers takes its turn. -/
def Step [DecidableEq ι] (w w' : Readers ι α) : Prop :=
  ∃ i reader after, (w.readers i).Turn w.store reader after ∧
    w' = ⟨after, Function.update w.readers i reader⟩

/-- Readers take turns in any order. -/
def Run [DecidableEq ι] (w w' : Readers ι α) : Prop := Relation.ReflTransGen Step w w'

/-- Unless all readers have come to their end, one of them can take its turn. -/
theorem cameTo_or_step [DecidableEq ι] (w : Readers ι α) :
    (∃ results, w.CameTo results) ∨ ∃ w', Step w w' := by
  by_cases hdone : ∀ i, ∃ r, (w.readers i).result? = some r
  · choose results hresults using hdone
    exact Or.inl ⟨results, hresults⟩
  · obtain ⟨i, hi⟩ := not_forall.mp hdone
    refine Or.inr ?_
    cases hreader : w.readers i with
    | failed e => exact (hi ⟨.error e, by rw [hreader, Reader.result?]⟩).elim
    | running program =>
        cases hstep : program.step? with
        | inl a => exact (hi ⟨.ok a, by rw [hreader, Reader.result?, hstep]⟩).elim
        | inr waiting =>
            rcases hperform : w.store.perform waiting.command with ⟨⟨e⟩ | ⟨answer⟩, after⟩
            · refine ⟨_, i, .failed e, after, ?_, rfl⟩
              rw [hreader]
              exact .failed hstep hperform
            · refine ⟨_, i, .running (waiting.next answer), after, ?_, rfl⟩
              rw [hreader]
              exact .answered hstep hperform

variable {t : Trees} {results : ι → Except StoreError α} {n : Nat} {w w' : Readers ι α}

/-- A turn of one reader leaves the others where they are. -/
theorem onWay_update [DecidableEq ι] {readers : ι → Reader α} {own : ι → Option (Nat × Key)}
    {left : ι → Nat} (h : ∀ j, (readers j).OnWay t (own j) (left j) (results j)) {i : ι}
    {reader : Reader α} {e : Option (Nat × Key)} {m : Nat}
    (hreader : reader.OnWay t e m (results i)) (j : ι) :
    (Function.update readers i reader j).OnWay t (Function.update own i e j)
      (Function.update left i m j) (results j) := by
  by_cases hj : j = i
  · subst hj
    rw [Function.update_self, Function.update_self, Function.update_self]
    exact hreader
  · rw [Function.update_of_ne hj, Function.update_of_ne hj, Function.update_of_ne hj]
    exact h j

variable [Fintype ι]

/-- All readers are on the way to their results, their cursors are the open ones, and they have
not more than so many commands to send. -/
def OnWay (t : Trees) (results : ι → Except StoreError α) (n : Nat) (w : Readers ι α) : Prop :=
  w.store.trees = t ∧ ∃ (own : ι → Option (Nat × Key)) (left : ι → Nat),
    w.store.cursors.Owned own ∧ (∀ i, (w.readers i).OnWay t (own i) (left i) (results i)) ∧
      ∑ i, left i = n

/-- At first all readers have their programs before them. -/
theorem onWay_start {programs : ι → Program α} (hplain : ∀ i, (programs i).Plain)
    (hread : ∀ i, (programs i).ReadOnly) {st : Store} (hopened : st.cursors.opened = []) :
    OnWay st.trees (fun i => ((programs i).outcome st.trees).1)
      (∑ i, (programs i).effort st.trees) ⟨st, fun i => .running (programs i)⟩ :=
  ⟨rfl, fun _ => none, fun i => (programs i).effort st.trees, .start hopened,
    fun i => .running (.fresh (hplain i) (hread i) (Nat.le_refl _)), rfl⟩

/-- Those that have come to their end have come to their results. -/
theorem OnWay.results_eq (h : OnWay t results n w) {results' : ι → Except StoreError α}
    (hdone : w.CameTo results') : results' = results := by
  obtain ⟨-, own, left, -, honway, -⟩ := h
  funext i
  exact (honway i).result (hdone i)

variable [DecidableEq ι]

/-- **One turn** of one of few readers keeps all on the way to their results, and brings one of
them nearer. -/
theorem OnWay.step (h : OnWay t results n w) (hfew : Fintype.card ι ≤ Cursors.capacity)
    (hstep : Step w w') : ∃ m, m < n ∧ OnWay t results m w' := by
  obtain ⟨rfl, own, left, howned, honway, hsum⟩ := h
  obtain ⟨i, reader, after, hturn, rfl⟩ := hstep
  obtain ⟨m, hm, hafter⟩ := (honway i).turn
    (fun cursor key hown => (howned.opened i cursor key hown).2) hturn
  have htotal : ∑ j, Function.update left i m j < n := by
    have hturns := sum_update_add left i m
    omega
  have hclosed := howned.close i
  refine ⟨_, htotal, ?_⟩
  rcases hafter with ⟨rfl, hreader⟩ | ⟨key, rfl, hreader⟩
  · exact ⟨rfl, _, _, hclosed, onWay_update honway hreader, rfl⟩
  · have hissued := hclosed.issue hfew (Function.update_self i none own) key
    rw [Function.update_idem] at hissued
    exact ⟨rfl, _, _, hissued, onWay_update honway hreader, rfl⟩

/-- So all stay on the way. -/
theorem OnWay.run (h : OnWay t results n w) (hfew : Fintype.card ι ≤ Cursors.capacity)
    (hrun : Run w w') : ∃ m, OnWay t results m w' := by
  induction hrun with
  | refl => exact ⟨n, h⟩
  | tail _ hstep ih =>
      obtain ⟨m, hm⟩ := ih
      obtain ⟨m', -, hm'⟩ := hm.step hfew hstep
      exact ⟨m', hm'⟩

/-- Readers on the way come to their end in any order of their turns. -/
theorem OnWay.no_infinite_run (h : OnWay t results n w)
    (hfew : Fintype.card ι ≤ Cursors.capacity) :
    ¬ ∃ run : ℕ → Readers ι α, run 0 = w ∧ ∀ k, Step (run k) (run (k + 1)) := by
  rintro ⟨run, rfl, hstep⟩
  have hbound : ∀ k, ∃ m, m + k ≤ n ∧ OnWay t results m (run k) := by
    intro k
    induction k with
    | zero => exact ⟨n, Nat.le_refl _, h⟩
    | succ k ih =>
        obtain ⟨m, hm, honway⟩ := ih
        obtain ⟨m', hm', honway'⟩ := honway.step hfew (hstep k)
        exact ⟨m', by omega, honway'⟩
  obtain ⟨m, hm, -⟩ := hbound (n + 1)
  omega

end Readers

end KeyedRelations
