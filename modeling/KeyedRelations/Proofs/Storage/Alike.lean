import KeyedRelations.Proofs.Storage.Execution
import KeyedRelations.Proofs.Store.Pool

/-!
# Storages that differ in what they hold

What a storage makes of a query depends on its settings, on whether it has handles, and on what
its store holds.  Two storages that agree in the first two are alike (`Storage.Alike`): they
plan the same, and use their stores in the same way.  A storage whose handles can be opened
stays alike to what it was, as every handle is returned (`lease_of_free`).
-/

namespace KeyedRelations.Storage

variable {α : Type} {s s' : Storage Store}

/-- Storages with the same settings, both with handles or both without. -/
structure Alike (s s' : Storage Store) : Prop where
  name : s'.name = s.name
  config : s'.config = s.config
  catalog : s'.catalog = s.catalog
  poolConfig : s'.pool.config = s.pool.config
  free : s'.pool.free = s.pool.free
  opens : s.pool.Opens
  opens' : s'.pool.Opens

namespace Alike

theorem refl (h : s.pool.Opens) : Alike s s := ⟨rfl, rfl, rfl, rfl, rfl, h, h⟩

theorem trans {s'' : Storage Store} (h : Alike s s') (h' : Alike s' s'') : Alike s s'' :=
  ⟨h'.name.trans h.name, h'.config.trans h.config, h'.catalog.trans h.catalog,
    h'.poolConfig.trans h.poolConfig, h'.free.trans h.free, h.opens, h'.opens'⟩

theorem symm (h : Alike s s') : Alike s' s :=
  ⟨h.name.symm, h.config.symm, h.catalog.symm, h.poolConfig.symm, h.free.symm, h.opens', h.opens⟩

theorem planner (h : Alike s s') : s'.planner = s.planner := by
  rw [Storage.planner, Storage.planner, h.name, h.config, h.catalog]

theorem backend (h : Alike s s') : s'.backend = s.backend := by
  funext e
  rw [Storage.backend, Storage.backend, h.name]

theorem perform (h : Alike s s') (program : Program α) :
    s'.perform Store.handler program = s.perform Store.handler program := by
  funext st
  rw [Storage.perform, Storage.perform, h.backend]

theorem apply (h : Alike s s') (action : Action) (q : Query) (p : SubjectPlan) :
    s'.apply Store.handler action q p = s.apply Store.handler action q p := by
  funext st
  rw [Storage.apply, Storage.apply, h.planner, h.config]
  cases p.mutation (s.planner.origin q) q.assignments s.config.pageSize action with
  | error e => rfl
  | ok program => exact congrFun (h.perform program) st

theorem present (h : Alike s s') (q : Query) (p : SubjectPlan) (found : Records p.kind) :
    s'.present q p found = s.present q p found := by
  rw [Storage.present, Storage.present, h.planner]

end Alike

/-! ### Handles -/

/-- A storage with a handle to give uses its store, and has a handle again afterwards. -/
theorem lease_of_free (hopens : s.pool.Opens) (hfree : s.pool.free = true)
    (use : Store → Except QueryError α × Store) :
    ∃ pool : Pool, s.lease use = ((use s.store).1, { s with pool, store := (use s.store).2 }) ∧
      Alike s { s with pool, store := (use s.store).2 } := by
  obtain ⟨handle, pool, hacquire, hconfig, hopening⟩ := Pool.acquire_of_free hopens hfree
  have hopens' : (pool.release handle).Opens := by
    intro attempt
    rw [show (pool.release handle).opening = s.pool.opening from hopening]
    exact hopens attempt
  exact ⟨pool.release handle, lease_of_acquire_ok hacquire, rfl, rfl, rfl, hconfig,
    (Pool.free_release pool handle).trans hfree.symm, hopens, hopens'⟩

/-- A storage without one does nothing. -/
theorem lease_of_not_free (hfree : s.pool.free = false)
    (use : Store → Except QueryError α × Store) :
    s.lease use =
      (.error (s.backend (.acquireTimeout s.pool.config.acquireTimeout)), s) :=
  lease_of_acquire_error (Pool.acquire_of_not_free hfree)

end KeyedRelations.Storage
