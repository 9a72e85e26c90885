import Mathlib.Algebra.BigOperators.Group.Finset.Piecewise
import KeyedRelations.Proofs.Store.Program

/-!
# Programs command by command

`Program.step?` shows what a program waits for, so that clients can take turns.  A sequence of
programs waits for the commands of the first until that is done, and a program that only reads
never waits for a write.  What the clients sum up to changes with every turn by what it changes
by for the client whose turn it is (`sum_update_add`).
-/

namespace KeyedRelations

/-- A sum over clients, after one of them has got another share. -/
theorem sum_update_add {ι M : Type} [Fintype ι] [DecidableEq ι] [AddCommMonoid M] (f : ι → M)
    (i : ι) (x : M) : ∑ j, Function.update f i x j + f i = ∑ j, f j + x := by
  rw [Finset.sum_update_of_mem (Finset.mem_univ i), ← Finset.erase_eq,
    ← Finset.add_sum_erase _ f (Finset.mem_univ i), add_assoc, add_comm x,
    add_comm (∑ j ∈ Finset.univ.erase i, f j)]

namespace Program

variable {α β : Type}

/-- A sequence waits for the first program until that is done. -/
theorem step?_bind (program : Program α) (f : α → Program β) :
    (program.bind f).step? =
      match program.step? with
      | .inl a => (f a).step?
      | .inr w => .inr ⟨w.command, fun answer => (w.next answer).bind f⟩ := by
  induction program with
  | done a => rfl
  | command c next ih => rfl
  | drain request paging found next ih =>
      rw [bind, step?, step?]
      cases paging.cursor.position? with
      | none => exact ih found
      | some cursor => rfl

/-- A program that only reads waits for reads and rounds of scans. -/
theorem ReadOnly.of_step? {program : Program α} (h : ReadOnly program) {w : Waiting α}
    (hw : program.step? = .inr w) :
    w.command.isWrite = false ∧ ∀ answer, ReadOnly (w.next answer) := by
  induction h with
  | done a => cases hw
  | command hread hnext ih =>
      cases hw
      exact ⟨hread, hnext⟩
  | @drain request paging found next hnext ih =>
      rw [step?] at hw
      cases hposition : paging.cursor.position? with
      | none =>
          rw [hposition] at hw
          exact ih found hw
      | some cursor =>
          rw [hposition] at hw
          cases hw
          exact ⟨rfl, fun page => .drain hnext⟩

end Program

end KeyedRelations
