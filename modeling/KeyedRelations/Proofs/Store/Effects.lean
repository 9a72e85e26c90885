import KeyedRelations.Proofs.Store.Contents
import KeyedRelations.Proofs.Store.Cursors

/-!
# What commands do to the trees

Scanning and reading change no tree.  Writing and removing change at most the entry
under one key, and fail only if their collection has no base, so whether they fail does
not depend on the record.  As a consequence what a sound collection has stays sound
under every command, of whichever collection.
-/

namespace KeyedRelations

/-- The cursor that a command goes on from, if it is a round of a scan. -/
def Command.cursor? : Command → Option Nat
  | .scan _ cursor .. => some cursor
  | _ => none

namespace Store

variable {c : Collection} {base : Key} {e : StoreError} {st : Store}

/-! ### Writing and removing -/

theorem write_of_base (hbase : c.base = .ok base) (name : String) (payload : c.kind.Payload)
    (mode : WriteMode) :
    st.write c name payload mode =
      if mode.permits ((st.trees.tree c.kind).contains (base ++ Utf8.bytes name)) then
        (.ok true, { st with
          trees := st.trees.update c.kind
            ((st.trees.tree c.kind).insert (base ++ Utf8.bytes name) (c.kind.store payload)) })
      else (.ok false, st) := by
  rw [write, c.keyOf_of_base hbase]

theorem write_of_base_error (hbase : c.base = .error e) (name : String)
    (payload : c.kind.Payload) (mode : WriteMode) :
    st.write c name payload mode = (.error e, st) := by
  rw [write, c.keyOf_of_base_error hbase]

theorem remove_of_base (hbase : c.base = .ok base) (name : String) :
    st.remove c name =
      (.ok ((st.trees.tree c.kind).contains (base ++ Utf8.bytes name)), { st with
        trees := st.trees.update c.kind
          ((st.trees.tree c.kind).erase (base ++ Utf8.bytes name)) }) := by
  rw [remove, c.keyOf_of_base hbase]

theorem remove_of_base_error (hbase : c.base = .error e) (name : String) :
    st.remove c name = (.error e, st) := by
  rw [remove, c.keyOf_of_base_error hbase]

/-! ### Where a round goes on -/

/-- The first round of a scan starts at its range and uses no cursor up. -/
theorem resume?_start (cursors : Cursors) (range : Key) :
    resume? cursors 0 range = some (.atOrAfter range, cursors) := if_pos rfl

/-- The round of an open cursor starts behind its key and uses the cursor up. -/
theorem resume?_of_key? {cursors : Cursors} {cursor : Nat} {key : Key}
    (hopen : cursors.key? cursor = some key) (hcursor : cursor ≠ 0) (range : Key) :
    resume? cursors cursor range = some (.after key, cursors.without (some (cursor, key))) := by
  rw [resume?, if_neg hcursor, Cursors.take?_eq, hopen]
  rfl

/-! ### Commands that change no tree -/

theorem scan_trees (c : Collection) (cursor : Nat) (pattern : String) (count : Nat) (st : Store) :
    (st.scan c cursor pattern count).2.trees = st.trees := by
  unfold scan
  cases c.base with
  | error e => rfl
  | ok base =>
      dsimp only
      cases resume? st.cursors cursor (base ++ Utf8.bytes (Glob.literalPrefix pattern)) with
      | none => rfl
      | some resumed =>
          dsimp only
          split <;> rfl

/-- A command that is no write leaves the trees as they are. -/
theorem perform_trees_of_not_isWrite {cmd : Command} (h : cmd.isWrite = false) (st : Store) :
    (st.perform cmd).2.trees = st.trees := by
  cases cmd with
  | scan c cursor pattern count => exact scan_trees c cursor pattern count st
  | read c name => rfl
  | write c name payload mode => simp [Command.isWrite] at h
  | remove c name => simp [Command.isWrite] at h

/-- A command that is no round of a scan leaves the cursors as they are. -/
theorem perform_cursors_of_not_isScan {cmd : Command} (h : cmd.isScan = false) (st : Store) :
    (st.perform cmd).2.cursors = st.cursors := by
  cases cmd with
  | scan c cursor pattern count => simp [Command.isScan] at h
  | read c name => rfl
  | write c name payload mode =>
      simp only [perform, write]
      split
      · rfl
      · split <;> rfl
  | remove c name =>
      simp only [perform, remove]
      split <;> rfl

/-! ### Commands that change the cursors -/

/-- A round uses at most the cursor up that it was sent with, and issues at most one. -/
theorem scan_cursors (c : Collection) (cursor : Nat) (pattern : String) (count : Nat)
    (st : Store) :
    ∃ resumed, (resumed = st.cursors ∨ ∃ key, st.cursors.take? cursor = some (key, resumed)) ∧
      ((st.scan c cursor pattern count).2.cursors = resumed ∨
        ∃ key, (st.scan c cursor pattern count).2.cursors = (resumed.issue key).2) := by
  unfold scan
  cases c.base with
  | error e => exact ⟨_, Or.inl rfl, Or.inl rfl⟩
  | ok base =>
      dsimp only
      cases hresume : resume? st.cursors cursor
          (base ++ Utf8.bytes (Glob.literalPrefix pattern)) with
      | none => exact ⟨_, Or.inl rfl, Or.inl rfl⟩
      | some resumed =>
          refine ⟨resumed.2, ?_, ?_⟩
          · rw [resume?] at hresume
            split at hresume
            · exact Or.inl (by cases hresume; rfl)
            · obtain ⟨⟨key, taken⟩, htake, heq⟩ := Option.map_eq_some_iff.mp hresume
              exact Or.inr ⟨key, by rw [htake, ← heq]⟩
          · dsimp only
            split
            · exact Or.inl rfl
            · rw [nextCursor]
              split
              · split
                · exact Or.inr ⟨_, rfl⟩
                · exact Or.inl rfl
              · exact Or.inl rfl

/-- A command uses at most the cursor up that it goes on from, and issues at most one. -/
theorem perform_cursors (cmd : Command) (st : Store) :
    ∃ resumed, (resumed = st.cursors ∨ ∃ cursor key, cmd.cursor? = some cursor ∧
        st.cursors.take? cursor = some (key, resumed)) ∧
      ((st.perform cmd).2.cursors = resumed ∨
        ∃ key, (st.perform cmd).2.cursors = (resumed.issue key).2) := by
  cases hscan : cmd.isScan with
  | false => exact ⟨_, Or.inl rfl, Or.inl (perform_cursors_of_not_isScan hscan st)⟩
  | true =>
      cases cmd with
      | read c name => cases hscan
      | write c name payload mode => cases hscan
      | remove c name => cases hscan
      | scan c cursor pattern count =>
          obtain ⟨resumed, hresumed, hafter⟩ := scan_cursors c cursor pattern count st
          exact ⟨resumed, hresumed.imp_right fun ⟨key, htake⟩ => ⟨cursor, key, rfl, htake⟩, hafter⟩

/-- **A cursor stays open.**  A command that does not go on from an open cursor leaves it
open, as long as fewer than `capacity` numbers have been issued behind it. -/
theorem perform_key? {cmd : Command} {cursor : Nat} {key : Key}
    (hopen : st.cursors.key? cursor = some key) (hissued : cursor ≤ st.cursors.issued)
    (hother : cmd.cursor? ≠ some cursor)
    (hfew : (st.perform cmd).2.cursors.issued < cursor + Cursors.capacity) (hpos : 0 < cursor) :
    (st.perform cmd).2.cursors.key? cursor = some key ∧
      st.cursors.issued ≤ (st.perform cmd).2.cursors.issued := by
  obtain ⟨resumed, hresumed, hafter⟩ := perform_cursors cmd st
  have hkept : resumed.key? cursor = some key ∧ resumed.issued = st.cursors.issued := by
    rcases hresumed with rfl | ⟨used, usedKey, hused, htake⟩
    · exact ⟨hopen, rfl⟩
    · have hne : used ≠ cursor := fun heq => hother (heq ▸ hused)
      obtain ⟨hkey, hsame⟩ := Cursors.key?_of_take? htake hne
      exact ⟨hkey.trans hopen, hsame⟩
  rcases hafter with hafter | ⟨newKey, hafter⟩
  · rw [hafter]
    exact ⟨hkept.1, Nat.le_of_eq hkept.2.symm⟩
  · rw [hafter] at hfew ⊢
    rw [Cursors.issue_issued] at hfew ⊢
    refine ⟨?_, ?_⟩
    · rw [Cursors.key?_issue_of_recent (by omega) (by omega)]
      exact hkept.1
    · rw [Cursors.next]
      omega

/-- **A cursor never stands for another key.**  Whatever command is carried out, a number that was
issued stands for the same key as before, or for none any more. -/
theorem perform_key?_or (st : Store) (cmd : Command) {cursor : Nat}
    (hissued : cursor ≤ st.cursors.issued) :
    cursor ≤ (st.perform cmd).2.cursors.issued ∧
      ((st.perform cmd).2.cursors.key? cursor = st.cursors.key? cursor ∨
        (st.perform cmd).2.cursors.key? cursor = none) := by
  obtain ⟨resumed, hresumed, hafter⟩ := perform_cursors cmd st
  have hkept : cursor ≤ resumed.issued ∧
      (resumed.key? cursor = st.cursors.key? cursor ∨ resumed.key? cursor = none) := by
    rcases hresumed with rfl | ⟨used, usedKey, -, htake⟩
    · exact ⟨hissued, Or.inl rfl⟩
    · exact ⟨Cursors.issued_of_take? htake ▸ hissued, Cursors.key?_take_or htake⟩
  rcases hafter with hafter | ⟨newKey, hafter⟩
  · rw [hafter]
    exact hkept
  · rw [hafter]
    refine ⟨Nat.le_succ_of_le hkept.1, ?_⟩
    rcases Cursors.key?_issue_or newKey hkept.1 with hsame | hnone
    · rw [hsame]
      exact hkept.2
    · exact Or.inr hnone

end Store

/-! ### Soundness is kept -/

namespace Collection

variable {c : Collection} {t : Trees}

/-- The records that the store writes are sound, whether in this collection or not. -/
theorem Sound.insert (h : c.Sound t) {c' : Collection} {base' : Key} (hbase' : c'.base = .ok base')
    (name : String) (payload : c'.kind.Payload) :
    c.Sound (t.update c'.kind
      ((t.tree c'.kind).insert (base' ++ Utf8.bytes name) (c'.kind.store payload))) := by
  intro base hbase e he hkey
  by_cases hkind : c.kind = c'.kind
  · obtain ⟨kind, container⟩ := c
    obtain ⟨kind', container'⟩ := c'
    obtain rfl : kind = kind' := hkind
    dsimp only at e he
    rw [Trees.tree_update_self] at he
    rcases SortedMap.mem_entries_insert.mp he with rfl | ⟨he, -⟩
    · have hsame : base' = base :=
        base_eq_of_isPrefix (by rfl) hbase hbase' hkey (List.prefix_append _ _)
      subst hsame
      exact ⟨(name, payload), rfl⟩
    · exact h base hbase e he hkey
  · rw [Trees.tree_update_of_ne t _ hkind] at he
    exact h base hbase e he hkey

/-- Removing an entry leaves a collection sound. -/
theorem Sound.erase (h : c.Sound t) (s : Structure) (key : Key) :
    c.Sound (t.update s ((t.tree s).erase key)) := by
  intro base hbase e he hkey
  by_cases hkind : c.kind = s
  · subst hkind
    rw [Trees.tree_update_self] at he
    exact h base hbase e (SortedMap.mem_entries_erase.mp he).1 hkey
  · rw [Trees.tree_update_of_ne t _ hkind] at he
    exact h base hbase e he hkey

/-- **Commands keep collections sound.** -/
theorem Sound.perform {st : Store} (h : c.Sound st.trees) (cmd : Command) :
    c.Sound (st.perform cmd).2.trees := by
  cases cmd with
  | scan c' cursor pattern count =>
      rw [Store.perform_trees_of_not_isWrite (by rfl)]
      exact h
  | read c' name => exact h
  | write c' name payload mode =>
      rw [Store.perform]
      cases hbase' : c'.base with
      | error e =>
          rw [Store.write_of_base_error hbase']
          exact h
      | ok base' =>
          rw [Store.write_of_base hbase']
          split
          · exact h.insert hbase' name payload
          · exact h
  | remove c' name =>
      rw [Store.perform]
      cases hbase' : c'.base with
      | error e =>
          rw [Store.remove_of_base_error hbase']
          exact h
      | ok base' =>
          rw [Store.remove_of_base hbase']
          exact h.erase c'.kind _

end Collection

end KeyedRelations
