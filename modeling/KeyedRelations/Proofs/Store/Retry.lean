import KeyedRelations.Proofs.Store.Effects

/-!
# Writes that have to be tried again

A conditional write looks at what stands under its key, decides, and replaces it.  If another
client was faster, what it looked at is stale and it decides anew, and each decision takes the
place of the one before.  Only the last counts, which looked at what it replaced.  So the write
is one step after all: it does what `Store.write` says (`writeRetrying_eq`), whatever it saw
before.
-/

namespace KeyedRelations

section Decide

variable {α : Type} (mode : WriteMode) (form : α)

/-- What a write makes of a content that it is shown: whether it goes through, and what is to
stand there. -/
def WriteMode.decide (seen : Option α) : Bool × Option α :=
  if mode.permits seen.isSome then (true, some form) else (false, seen)

/-- What a write has decided in the end that is shown stale contents first and then the one
that it replaces. -/
def WriteMode.decideAnew (stale : List (Option α)) (content : Option α) : Bool × Option α :=
  (stale ++ [content]).foldl (fun _ seen => mode.decide form seen) (false, none)

/-- The last decision counts. -/
theorem WriteMode.decideAnew_eq (stale : List (Option α)) (content : Option α) :
    mode.decideAnew form stale content = mode.decide form content := by
  simp [decideAnew]

end Decide

/-- The tree with another content under a key. -/
def Tree.replace {s : Structure} (tree : Tree s) (key : Key) : Option s.Form → Tree s
  | some form => tree.insert key form
  | none => tree.erase key

/-- Replacing a content by itself changes nothing. -/
theorem Tree.replace_self {s : Structure} (tree : Tree s) (key : Key) :
    tree.replace key (tree.get? key) = tree := by
  cases h : tree.get? key with
  | none => exact SortedMap.erase_of_get? h
  | some form => exact SortedMap.insert_of_get? h

/-- What a content is replaced by stands there. -/
theorem Tree.get?_replace_self {s : Structure} (tree : Tree s) (key : Key)
    (content : Option s.Form) : (tree.replace key content).get? key = content := by
  cases content with
  | none => exact SortedMap.get?_erase_self tree key
  | some form => exact SortedMap.get?_insert_self tree key form

theorem Tree.get?_replace_of_ne {s : Structure} (tree : Tree s) {key other : Key}
    (content : Option s.Form) (h : other ≠ key) :
    (tree.replace key content).get? other = tree.get? other := by
  cases content with
  | none => exact SortedMap.get?_erase_of_ne tree h
  | some form => exact SortedMap.get?_insert_of_ne tree form h

theorem Trees.update_tree_self (t : Trees) (s : Structure) : t.update s (t.tree s) = t := by
  cases s <;> rfl

namespace Store

/-- What a write and other commands see that were too late, by structures. -/
abbrev Stale : Type := (s : Structure) → List (Option s.Form)

/-- Writes the record of a name, if the mode lets it, after a number of attempts that were too
late. -/
def writeRetrying (c : Collection) (name : String) (payload : c.kind.Payload) (mode : WriteMode)
    (stale : Stale) (st : Store) : Except StoreError Bool × Store :=
  match c.keyOf name with
  | .error e => (.error e, st)
  | .ok key =>
    let tree := st.trees.tree c.kind
    let decision := mode.decideAnew (c.kind.store payload) (stale c.kind) (tree.get? key)
    (.ok decision.1,
      { st with trees := st.trees.update c.kind (Tree.replace tree key decision.2) })

/-- **A write that is tried again is one write.** -/
theorem writeRetrying_eq (c : Collection) (name : String) (payload : c.kind.Payload)
    (mode : WriteMode) (stale : Stale) (st : Store) :
    st.writeRetrying c name payload mode stale = st.write c name payload mode := by
  rw [writeRetrying, write]
  cases hkey : c.keyOf name with
  | error e => rfl
  | ok key =>
      dsimp only
      rw [WriteMode.decideAnew_eq, WriteMode.decide, SortedMap.contains]
      by_cases hpermits : mode.permits ((st.trees.tree c.kind).get? key).isSome = true
      · rw [if_pos hpermits, if_pos hpermits]
        rfl
      · rw [if_neg hpermits, if_neg hpermits, Tree.replace_self, Trees.update_tree_self]

/-- Carries a command out; a write is tried again for every stale content. -/
def performRetrying (stale : Stale) : (c : Command) → Store → Except StoreError c.Answer × Store
  | .write c name payload mode, st => st.writeRetrying c name payload mode stale
  | .scan c cursor pattern count, st => st.perform (.scan c cursor pattern count)
  | .read c name, st => st.perform (.read c name)
  | .remove c name, st => st.perform (.remove c name)

theorem performRetrying_eq (stale : Stale) (cmd : Command) (st : Store) :
    st.performRetrying stale cmd = st.perform cmd := by
  cases cmd with
  | write c name payload mode => exact writeRetrying_eq c name payload mode stale st
  | scan c cursor pattern count => rfl
  | read c name => rfl
  | remove c name => rfl

end Store

end KeyedRelations
