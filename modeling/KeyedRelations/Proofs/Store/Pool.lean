import KeyedRelations.Store.Pool

/-!
# Handles for one client after the other

While clients use a pool one after the other, each returns its handle before the next one asks.
So if the first client gets a handle, all do, and if it does not, the pool stays as it is and
none does.  The steps by themselves, as clients that overlap take them, are described first.
-/

namespace KeyedRelations.Pool

variable {p p' : Pool}

/-! ### What the steps do to a pool -/

/-- An idle handle that is taken is one less idle and one more out. -/
theorem takeIdle?_eq_some {handle : HandleId} (h : p.takeIdle? = some (handle, p')) :
    p'.config = p.config ∧ p'.idle.length + 1 = p.idle.length ∧
      p'.checkedOut = p.checkedOut + 1 := by
  unfold takeIdle? at h
  cases hidle : p.idle with
  | nil => simp [hidle] at h
  | cons first rest =>
      rw [hidle] at h
      obtain ⟨rfl, rfl⟩ := Prod.mk.inj (Option.some.inj h)
      exact ⟨rfl, rfl, rfl⟩

theorem takeIdle?_eq_none_iff : p.takeIdle? = none ↔ p.idle = [] := by
  unfold takeIdle?
  cases p.idle <;> simp

/-- A place is reserved below the limit only. -/
theorem reserve?_eq_some (h : p.reserve? = some p') :
    p.checkedOut < p.config.maxHandles ∧ p' = { p with checkedOut := p.checkedOut + 1 } := by
  unfold reserve? at h
  split at h
  next hplace => exact ⟨hplace, (Option.some.inj h).symm⟩
  next => cases h

/-- Opening a handle, or failing to, changes no count of the pool. -/
theorem openHandle_eq {r : Except StoreError HandleId} (h : p.openHandle = (r, p')) :
    p' = { p with attempts := p.attempts + 1 } := by
  obtain ⟨-, rfl⟩ := Prod.mk.inj h
  rfl

/-! ### One client after the other -/

/-- Handles can always be opened, as those of an embedded store. -/
def Opens (p : Pool) : Prop := ∀ attempt, p.opening attempt = .ok ()

/-- Whether a client gets a handle, if handles can be opened. -/
def free (p : Pool) : Bool := !p.idle.isEmpty || p.checkedOut < p.config.maxHandles

/-- A handle that was returned can be taken again. -/
theorem free_release (p : Pool) (handle : HandleId) : (p.release handle).free = true := rfl

/-- A client gets a handle of a free pool. -/
theorem acquire_of_free (hopens : p.Opens) (hfree : p.free = true) :
    ∃ handle pool, p.acquire = (.ok handle, pool) ∧ pool.config = p.config ∧
      pool.opening = p.opening := by
  rw [acquire, takeIdle?]
  cases hidle : p.idle with
  | cons handle idle => exact ⟨handle, _, rfl, rfl, rfl⟩
  | nil =>
      have hplace : p.checkedOut < p.config.maxHandles := by simpa [free, hidle] using hfree
      simp only [reserve?, if_pos hplace, openHandle, hopens p.attempts]
      exact ⟨p.attempts, _, rfl, rfl, rfl⟩

/-- Without a free place nothing happens. -/
theorem acquire_of_not_free (hfree : p.free = false) :
    p.acquire = (.error (.acquireTimeout p.config.acquireTimeout), p) := by
  rw [free, Bool.or_eq_false_iff] at hfree
  have hidle : p.idle = [] := by simpa using hfree.1
  have hplace : ¬ p.checkedOut < p.config.maxHandles := by simpa using hfree.2
  rw [acquire, takeIdle?, hidle]
  simp only [reserve?, if_neg hplace]

end KeyedRelations.Pool
