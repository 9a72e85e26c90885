import Mathlib.Algebra.Group.Int.Defs
import KeyedRelations.Proofs.Store.Effects

/-!
# The presence of records

A record is present or absent, which is one or zero.  A write that only creates raises its
record's presence by what it answers, a removal lowers it by what it answers, and a write over
what is there changes the presence of no record.  So the answers of commands can be summed up
and compared with presence before and after.
-/

namespace KeyedRelations

/-- One if an entry stands under a key of a structure, and otherwise zero. -/
def Store.presence (kind : Structure) (key : Key) (st : Store) : Int :=
  if (st.trees.tree kind).contains key then 1 else 0

/-- A record is there or it is not. -/
theorem Store.presence_bounds (st : Store) (kind : Structure) (key : Key) :
    0 ≤ st.presence kind key ∧ st.presence kind key ≤ 1 := by
  rw [Store.presence]
  split <;> decide

/-- A command that only reads leaves it as it is. -/
theorem Store.presence_of_not_isWrite {cmd : Command} (hread : cmd.isWrite = false)
    {st after : Store} {r : Except StoreError cmd.Answer} (h : st.perform cmd = (r, after))
    (kind : Structure) (key : Key) : after.presence kind key = st.presence kind key := by
  have htrees := perform_trees_of_not_isWrite hread st
  rw [h] at htrees
  rw [presence, presence, htrees]

namespace Collection

variable {c : Collection} {base : Key} {kind : Structure} {key : Key} {st st' : Store}
  {name : String}

/-- Whether a name stands for a key of a structure. -/
def Means (c : Collection) (name : String) (kind : Structure) (key : Key) : Prop :=
  c.kind = kind ∧ c.keyOf name = .ok key

instance (c : Collection) (name : String) (kind : Structure) (key : Key) :
    Decidable (c.Means name kind key) := by
  unfold Means
  infer_instance

/-- How often a key of a structure is meant by names. -/
def count (c : Collection) (names : List String) (kind : Structure) (key : Key) : Int :=
  (names.countP fun name => c.Means name kind key : Nat)

theorem count_nil : c.count [] kind key = 0 := rfl

theorem count_concat (names : List String) (name : String) :
    c.count (names ++ [name]) kind key =
      c.count names kind key + if c.Means name kind key then 1 else 0 := by
  by_cases h : c.Means name kind key <;> simp [count, List.countP_append, h]

/-- Where there are no keys, no name means one. -/
theorem count_of_base_error {e : StoreError} (hbase : c.base = .error e) (names : List String) :
    c.count names kind key = 0 := by
  simp [count, Means, keyOf_of_base_error hbase]

/-- What is written or removed without fail has a key. -/
theorem base_of_write {payload : c.kind.Payload} {mode : WriteMode} {through : Bool}
    (h : st.write c name payload mode = (.ok through, st')) : ∃ base, c.base = .ok base := by
  cases hbase : c.base with
  | ok base => exact ⟨base, rfl⟩
  | error e =>
      rw [Store.write_of_base_error hbase] at h
      cases h

theorem base_of_remove {existed : Bool} (h : st.remove c name = (.ok existed, st')) :
    ∃ base, c.base = .ok base := by
  cases hbase : c.base with
  | ok base => exact ⟨base, rfl⟩
  | error e =>
      rw [Store.remove_of_base_error hbase] at h
      cases h

/-- The presence of what a name means. -/
theorem presence_of_means (hbase : c.base = .ok base) (h : c.Means name kind key) (st : Store) :
    st.presence kind key =
      if (st.trees.tree c.kind).contains (base ++ Utf8.bytes name) then 1 else 0 := by
  obtain ⟨rfl, hkey⟩ := h
  rw [keyOf_of_base hbase] at hkey
  rw [Except.ok.inj hkey]
  rfl

/-- Putting another content under the key of a name touches the presence of that alone. -/
theorem presence_update (hbase : c.base = .ok base) {tree : Tree c.kind}
    (hframe : ∀ key, key ≠ base ++ Utf8.bytes name →
      tree.get? key = (st.trees.tree c.kind).get? key) (h : ¬ c.Means name kind key) :
    Store.presence kind key { st with trees := st.trees.update c.kind tree } =
      st.presence kind key := by
  rw [Store.presence, Store.presence]
  by_cases hkind : kind = c.kind
  · subst hkind
    have hkey : key ≠ base ++ Utf8.bytes name := by
      intro heq
      exact h ⟨rfl, by rw [keyOf_of_base hbase, heq]⟩
    rw [Trees.tree_update_self, SortedMap.contains, SortedMap.contains, hframe key hkey]
  · rw [Trees.tree_update_of_ne st.trees tree hkind]

/-- A write answers whether its mode lets it through, and makes its record present if so. -/
theorem write_presence {payload : c.kind.Payload} {mode : WriteMode} {through : Bool}
    (h : st.write c name payload mode = (.ok through, st')) :
    ∃ base, c.base = .ok base ∧
      mode.permits ((st.trees.tree c.kind).contains (base ++ Utf8.bytes name)) = through ∧
      ∀ kind key, st'.presence kind key =
        if through = true ∧ c.Means name kind key then 1 else st.presence kind key := by
  obtain ⟨base, hbase⟩ := base_of_write h
  refine ⟨base, hbase, ?_⟩
  rw [Store.write_of_base hbase] at h
  cases hpermits : mode.permits
      ((st.trees.tree c.kind).contains (base ++ Utf8.bytes name)) with
  | false =>
      obtain ⟨rfl, rfl⟩ : false = through ∧ st = st' := by simpa [hpermits] using h
      exact ⟨rfl, fun kind key => by simp⟩
  | true =>
      obtain ⟨rfl, rfl⟩ : true = through ∧ _ = st' := by simpa [hpermits] using h
      refine ⟨rfl, fun kind key => ?_⟩
      by_cases hmeans : c.Means name kind key
      · rw [if_pos ⟨rfl, hmeans⟩, presence_of_means hbase hmeans, Trees.tree_update_self,
          SortedMap.contains, SortedMap.get?_insert_self]
        rfl
      · rw [if_neg fun hboth => hmeans hboth.2]
        exact presence_update hbase (fun key hkey => SortedMap.get?_insert_of_ne _ _ hkey) hmeans

/-- **A write that only creates** goes through exactly if its record becomes present. -/
theorem create_presence {payload : c.kind.Payload} {through : Bool}
    (h : st.write c name payload .ifAbsent = (.ok through, st')) (kind : Structure) (key : Key) :
    st'.presence kind key =
      st.presence kind key + if through = true ∧ c.Means name kind key then 1 else 0 := by
  obtain ⟨base, hbase, hthrough, hpresence⟩ := write_presence h
  rw [hpresence]
  by_cases hboth : through = true ∧ c.Means name kind key
  · have hmissing : (st.trees.tree c.kind).contains (base ++ Utf8.bytes name) = false := by
      simpa [WriteMode.permits, hboth.1] using hthrough
    rw [if_pos hboth, if_pos hboth, presence_of_means hbase hboth.2, hmissing]
    rfl
  · rw [if_neg hboth, if_neg hboth, add_zero]

/-- **A write over what is there** changes no presence. -/
theorem overwrite_presence {payload : c.kind.Payload} {through : Bool}
    (h : st.write c name payload .ifPresent = (.ok through, st')) (kind : Structure) (key : Key) :
    st'.presence kind key = st.presence kind key := by
  obtain ⟨base, hbase, hthrough, hpresence⟩ := write_presence h
  rw [hpresence]
  by_cases hboth : through = true ∧ c.Means name kind key
  · have hheld : (st.trees.tree c.kind).contains (base ++ Utf8.bytes name) = true := by
      simpa [WriteMode.permits, hboth.1] using hthrough
    rw [if_pos hboth, presence_of_means hbase hboth.2, hheld]
    rfl
  · rw [if_neg hboth]

/-- **A removal** answers that its record existed exactly if its record becomes absent. -/
theorem remove_presence {existed : Bool}
    (h : st.remove c name = (.ok existed, st')) (kind : Structure) (key : Key) :
    st'.presence kind key =
      st.presence kind key - if existed = true ∧ c.Means name kind key then 1 else 0 := by
  obtain ⟨base, hbase⟩ := base_of_remove h
  rw [Store.remove_of_base hbase] at h
  obtain ⟨rfl, rfl⟩ : (st.trees.tree c.kind).contains (base ++ Utf8.bytes name) = existed ∧
      _ = st' := by simpa using h
  by_cases hmeans : c.Means name kind key
  · rw [presence_of_means hbase hmeans, presence_of_means hbase hmeans, Trees.tree_update_self,
      SortedMap.contains, SortedMap.get?_erase_self]
    cases (st.trees.tree c.kind).contains (base ++ Utf8.bytes name) <;> simp [hmeans]
  · rw [presence_update hbase (fun key hkey => SortedMap.get?_erase_of_ne _ hkey) hmeans]
    simp [hmeans]

/-- A write fails only where there are no keys, and changes nothing. -/
theorem count_of_write_error {payload : c.kind.Payload} {mode : WriteMode} {e : StoreError}
    (h : st.write c name payload mode = (.error e, st')) (names : List String)
    (kind : Structure) (key : Key) : st' = st ∧ c.count names kind key = 0 := by
  cases hbase : c.base with
  | error e' =>
      rw [Store.write_of_base_error hbase] at h
      exact ⟨(Prod.mk.inj h).2.symm, count_of_base_error hbase names⟩
  | ok base =>
      rw [Store.write_of_base hbase] at h
      split at h <;> cases h

/-- A removal fails only where there are no keys, and changes nothing. -/
theorem count_of_remove_error {e : StoreError} (h : st.remove c name = (.error e, st'))
    (names : List String) (kind : Structure) (key : Key) :
    st' = st ∧ c.count names kind key = 0 := by
  cases hbase : c.base with
  | error e' =>
      rw [Store.remove_of_base_error hbase] at h
      exact ⟨(Prod.mk.inj h).2.symm, count_of_base_error hbase names⟩
  | ok base =>
      rw [Store.remove_of_base hbase] at h
      cases h

end Collection

end KeyedRelations
