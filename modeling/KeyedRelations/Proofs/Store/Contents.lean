import KeyedRelations.Proofs.SortedMap
import KeyedRelations.Proofs.Store.KeyOrder
import KeyedRelations.Records
import KeyedRelations.Store.Embedded
import Mathlib.Data.List.Basic

/-!
# What a collection holds

The keys of a collection are those that start with its base, and different collections
of one structure have keys apart: a container key holds no separator, so the first
separator of a key ends it, whatever bytes the name behind it has.

`Collection.records` is the view of a collection that everything else is said in: its
records, by name, in the order of their names' bytes.  `mem_records_iff` ties it to
reading.  In a **sound** collection every entry stands for a record, as it does as
long as only the store itself writes (`Sound.write`).
-/

namespace KeyedRelations

theorem Utf8.bytes_injective {s t : String} (h : Utf8.bytes s = Utf8.bytes t) : s = t := by
  have htext := congrArg Utf8.text? h
  simpa using htext

/-- Texts whose bytes start alike start alike. -/
theorem Utf8.toList_isPrefix {s t : String} (h : Utf8.bytes s <+: Utf8.bytes t) :
    s.toList <+: t.toList := by
  obtain ⟨rest, hrest⟩ := h
  refine List.isPrefix_of_utf8Encode_append_eq_utf8Encode ⟨rest.toArray⟩ ?_
  rw [String.utf8Encode_toList, String.utf8Encode_toList]
  apply ByteArray.ext
  rw [ByteArray.data_append, ← Array.toList_inj, Array.toList_append]
  exact hrest

/-! ### Keys of collections -/

/-- Two texts in front of the same key, each ended by a byte that it does not hold,
are one. -/
theorem eq_of_ended_isPrefix {x : UInt8} {a b key : Key} (ha : x ∉ a) (hb : x ∉ b)
    (hakey : a ++ [x] <+: key) (hbkey : b ++ [x] <+: key) : a = b := by
  induction a generalizing b key with
  | nil =>
      cases b with
      | nil => rfl
      | cons y b =>
          cases key with
          | nil => simp at hakey
          | cons z key => simp_all
  | cons w a ih =>
      cases b with
      | nil =>
          cases key with
          | nil => simp at hakey
          | cons z key => simp_all
      | cons y b =>
          cases key with
          | nil => simp at hakey
          | cons z key =>
              rw [List.cons_append, List.cons_prefix_cons] at hakey hbkey
              obtain ⟨rfl, hakey⟩ := hakey
              obtain ⟨rfl, hbkey⟩ := hbkey
              rw [ih (fun h => ha (List.mem_cons_of_mem _ h))
                (fun h => hb (List.mem_cons_of_mem _ h)) hakey hbkey]

namespace Collection

variable {c : Collection} {base key : Key} {name : String}

/-- The base of a collection: nothing for a list, and elsewhere the container key and the
separator. -/
theorem base_eq_ok_iff : c.base = .ok base ↔
    (c.kind = .list ∧ base = []) ∨
      (c.kind ≠ .list ∧ separator ∉ Utf8.bytes c.container ∧
        base = Utf8.bytes c.container ++ [separator]) := by
  obtain ⟨kind, container⟩ := c
  cases kind with
  | list => simp [Collection.base, eq_comm]
  | set | hash | sortedSet =>
      by_cases hsep : separator ∈ Utf8.bytes container <;> simp [Collection.base, hsep, eq_comm]

/-- A collection has a base unless its container key holds the separator. -/
theorem exists_base (h : separator ∉ Utf8.bytes c.container) : ∃ base, c.base = .ok base := by
  by_cases hlist : c.kind = .list
  · exact ⟨[], base_eq_ok_iff.mpr (Or.inl ⟨hlist, rfl⟩)⟩
  · exact ⟨_, base_eq_ok_iff.mpr (Or.inr ⟨hlist, h, rfl⟩)⟩

/-- The only reason for a collection to have no base. -/
theorem eq_invalidKey_of_base {e : StoreError} (h : c.base = .error e) :
    e = .invalidKey c.container := by
  obtain ⟨kind, container⟩ := c
  cases kind with
  | list => simp [Collection.base] at h
  | set | hash | sortedSet =>
      by_cases hsep : separator ∈ Utf8.bytes container <;>
        simp_all [Collection.base, eq_comm]

/-- Collections of one structure that share a key have one base. -/
theorem base_eq_of_isPrefix {c' : Collection} {base' : Key} (hkind : c'.kind = c.kind)
    (hbase : c.base = .ok base) (hbase' : c'.base = .ok base') (hkey : base <+: key)
    (hkey' : base' <+: key) : base' = base := by
  rw [base_eq_ok_iff] at hbase hbase'
  rcases hbase with ⟨hlist, rfl⟩ | ⟨hlist, hsep, rfl⟩
  · rcases hbase' with ⟨-, rfl⟩ | ⟨hlist', -, -⟩
    · rfl
    · exact absurd (hkind.trans hlist) hlist'
  · rcases hbase' with ⟨hlist', -⟩ | ⟨-, hsep', rfl⟩
    · exact absurd (hkind.symm.trans hlist') hlist
    · rw [eq_of_ended_isPrefix hsep' hsep hkey' hkey]

/-- Outside lists the base tells the container key. -/
theorem container_eq_of_base {c' : Collection} (hlist : c.kind ≠ .list) (hlist' : c'.kind ≠ .list)
    (hbase : c.base = .ok base) (hbase' : c'.base = .ok base) : c'.container = c.container := by
  rcases base_eq_ok_iff.mp hbase with ⟨his, -⟩ | ⟨-, -, heq⟩
  · exact absurd his hlist
  rcases base_eq_ok_iff.mp hbase' with ⟨his, -⟩ | ⟨-, -, heq'⟩
  · exact absurd his hlist'
  exact Utf8.bytes_injective (List.append_cancel_right (heq'.symm.trans heq))

theorem keyOf_of_base (hbase : c.base = .ok base) (name : String) :
    c.keyOf name = .ok (base ++ Utf8.bytes name) := by
  simp [keyOf, hbase, Except.map]

theorem keyOf_of_base_error {e : StoreError} (hbase : c.base = .error e) (name : String) :
    c.keyOf name = .error e := by
  simp [keyOf, hbase, Except.map]

end Collection

/-- Reading looks the key of a record up. -/
theorem Store.read_of_base {c : Collection} {base : Key} (hbase : c.base = .ok base)
    (name : String) (st : Store) :
    st.read c name =
      match (st.trees.tree c.kind).get? (base ++ Utf8.bytes name) with
      | none => .ok none
      | some form => (c.kind.load name form).map some := by
  cases hget : (st.trees.tree c.kind).get? (base ++ Utf8.bytes name) <;>
    simp [Store.read, c.keyOf_of_base hbase, hget]

/-! ### Records -/

namespace Structure

variable {s : Structure} {name : String}

/-- What a scan shows of a record beside its name. -/
def item : (s : Structure) → s.Payload → s.Item
  | .list, _ | .set, _ => ()
  | .hash, v => v
  | .sortedSet, f => f

@[simp]
theorem load_store (payload : s.Payload) : s.load name (s.store payload) = .ok payload := by
  cases s <;> rfl

@[simp]
theorem reveal_store (payload : s.Payload) :
    s.reveal name (s.store payload) = .ok (s.item payload) := by
  cases s <;> rfl

theorem load_eq_ok_iff (name : String) {form : s.Form} {payload : s.Payload} :
    s.load name form = .ok payload ↔ form = s.store payload := by
  cases s with
  | set => simp [load, store]
  | list | hash | sortedSet => cases form <;> simp [load, store]

/-- The record that an entry under a base stands for, if it is one that the store could
have written. -/
def recordOf? (s : Structure) (base : Key) (e : Key × s.Form) : Option (String × s.Payload) :=
  if base.isPrefixOf e.1 then
    (Utf8.text? (e.1.drop base.length)).bind fun name =>
      (s.load name e.2).toOption.map fun payload => (name, payload)
  else none

/-- The entry of a record under a base. -/
def entryOf (s : Structure) (base : Key) (r : String × s.Payload) : Key × s.Form :=
  (base ++ Utf8.bytes r.1, s.store r.2)

theorem recordOf?_eq_some_iff {base : Key} {e : Key × s.Form} {r : String × s.Payload} :
    s.recordOf? base e = some r ↔ e = s.entryOf base r := by
  obtain ⟨key, form⟩ := e
  obtain ⟨name, payload⟩ := r
  constructor
  · intro h
    rw [recordOf?] at h
    split at h
    next hbase =>
      obtain ⟨rest, rfl⟩ := List.isPrefixOf_iff_prefix.mp hbase
      obtain ⟨text, htext, h⟩ := Option.bind_eq_some_iff.mp h
      obtain ⟨loaded, hload, heq⟩ := Option.map_eq_some_iff.mp h
      obtain ⟨rfl, rfl⟩ := Prod.mk.inj heq
      rw [List.drop_left] at htext
      cases hform : s.load text form with
      | error e => simp [hform, Except.toOption] at hload
      | ok loaded' =>
          obtain rfl : loaded' = loaded := by simpa [hform, Except.toOption] using hload
          rw [entryOf, Utf8.bytes_of_text? htext, (load_eq_ok_iff _).mp hform]
    next => simp at h
  · intro h
    obtain ⟨rfl, rfl⟩ := Prod.mk.inj h
    simp [recordOf?, Except.toOption]

end Structure

namespace Collection

variable {c : Collection} {t : Trees} {base : Key} {name : String} {payload : c.kind.Payload}

/-- The records of a collection, in the order of their names' bytes. -/
def records (c : Collection) (t : Trees) : Records c.kind :=
  match c.base with
  | .error _ => []
  | .ok base => (t.tree c.kind).entries.filterMap (c.kind.recordOf? base)

theorem records_of_base (hbase : c.base = .ok base) :
    c.records t = (t.tree c.kind).entries.filterMap (c.kind.recordOf? base) := by
  rw [records, hbase]

theorem records_of_base_error {e : StoreError} (hbase : c.base = .error e) : c.records t = [] := by
  rw [records, hbase]

/-- A record of a collection is an entry of its tree. -/
theorem mem_records_iff_entry (hbase : c.base = .ok base) {r : String × c.kind.Payload} :
    r ∈ c.records t ↔ c.kind.entryOf base r ∈ (t.tree c.kind).entries := by
  simp only [records_of_base hbase, List.mem_filterMap, Structure.recordOf?_eq_some_iff]
  constructor
  · rintro ⟨e, he, rfl⟩
    exact he
  · intro he
    exact ⟨_, he, rfl⟩

/-- **The records of a collection are what reading finds.** -/
theorem mem_records_iff {st : Store} :
    (name, payload) ∈ c.records st.trees ↔ st.read c name = .ok (some payload) := by
  cases hbase : c.base with
  | error e => simp [records_of_base_error hbase, Store.read, keyOf_of_base_error hbase]
  | ok base =>
      have hentry : (name, payload) ∈ c.records st.trees ↔
          (st.trees.tree c.kind).get? (base ++ Utf8.bytes name) = some (c.kind.store payload) :=
        (mem_records_iff_entry hbase).trans SortedMap.get?_eq_some_iff.symm
      rw [hentry, Store.read_of_base hbase]
      cases hget : (st.trees.tree c.kind).get? (base ++ Utf8.bytes name) with
      | none => simp
      | some form =>
          simp only [Option.some.injEq]
          rw [← Structure.load_eq_ok_iff name]
          cases c.kind.load name form <;> simp [Except.map]

/-- Records stand in the order of their names' bytes, each name once. -/
theorem records_ascending (c : Collection) (t : Trees) :
    (c.records t).Pairwise fun r r' => Utf8.bytes r.1 < Utf8.bytes r'.1 := by
  cases hbase : c.base with
  | error e => simp [records_of_base_error hbase]
  | ok base =>
      rw [records_of_base hbase, List.pairwise_filterMap]
      refine (t.tree c.kind).ascending.imp ?_
      intro e e' hlt r hr r' hr'
      rw [Structure.recordOf?_eq_some_iff] at hr hr'
      subst hr hr'
      exact append_lt_append_left_iff.mp hlt

/-! ### Sound collections -/

/-- Every entry of the collection is one that the store could have written: its name is a
text, and what it holds can be read. -/
def Sound (c : Collection) (t : Trees) : Prop :=
  ∀ base, c.base = .ok base → ∀ e ∈ (t.tree c.kind).entries, base <+: e.1 →
    ∃ r, e = c.kind.entryOf base r

theorem sound_empty (c : Collection) : c.Sound Store.empty.trees := by
  intro base _ e he
  obtain ⟨kind, container⟩ := c
  cases kind <;> simp [Store.empty, Trees.empty, Trees.tree, SortedMap.empty] at he

/-- The entries of a sound collection are those of its records. -/
theorem Sound.entries_eq (h : c.Sound t) (hbase : c.base = .ok base) :
    (t.tree c.kind).entries.filter (fun e => base.isPrefixOf e.1) =
      (c.records t).map (c.kind.entryOf base) := by
  rw [records_of_base hbase, List.map_filterMap, ← List.filterMap_eq_filter]
  refine List.filterMap_congr fun e he => ?_
  by_cases hkey : base <+: e.1
  · obtain ⟨r, rfl⟩ := h base hbase e he hkey
    rw [Structure.recordOf?_eq_some_iff.mpr rfl]
    simpa [Option.guard] using hkey
  · have hnone : c.kind.recordOf? base e = none := by
      simp [Structure.recordOf?, hkey]
    simp [Option.guard, hnone, hkey]

/-- What the record of a name holds, if the collection has it. -/
def held? (c : Collection) (t : Trees) (name : String) : Option c.kind.Payload :=
  ((c.records t).find? (·.1 = name)).map (·.2)

/-- A name stands for one record at most. -/
theorem eq_of_mem_records {payload' : c.kind.Payload} (h : (name, payload) ∈ c.records t)
    (h' : (name, payload') ∈ c.records t) : payload = payload' := by
  have hread : (Store.ofTrees t).read c name = .ok (some payload) := mem_records_iff.mp h
  have hread' : (Store.ofTrees t).read c name = .ok (some payload') := mem_records_iff.mp h'
  simpa [hread] using hread'

theorem held?_eq_some_iff : c.held? t name = some payload ↔ (name, payload) ∈ c.records t := by
  rw [held?, Option.map_eq_some_iff]
  constructor
  · rintro ⟨r, hfind, rfl⟩
    obtain rfl : r.1 = name := by simpa using List.find?_some hfind
    exact List.mem_of_find?_eq_some hfind
  · intro hmem
    obtain ⟨r, hfind⟩ := Option.isSome_iff_exists.mp
      (List.find?_isSome.mpr ⟨(name, payload), hmem, by simp⟩ :
        ((c.records t).find? (·.1 = name)).isSome)
    obtain rfl : r.1 = name := by simpa using List.find?_some hfind
    exact ⟨r, hfind, eq_of_mem_records (List.mem_of_find?_eq_some hfind) hmem⟩

/-- Reading never fails in a sound collection, and finds its records. -/
theorem Sound.read_eq (h : c.Sound t) (hbase : c.base = .ok base) (cursors : Cursors)
    (name : String) : Store.read c name ⟨t, cursors⟩ = .ok (c.held? t name) := by
  cases hread : Store.read c name ⟨t, cursors⟩ with
  | error e =>
      rw [Store.read_of_base hbase] at hread
      split at hread
      next => cases hread
      next form hget =>
        obtain ⟨r, hr⟩ := h base hbase _ (SortedMap.get?_eq_some_iff.mp hget)
          (List.prefix_append _ _)
        obtain ⟨-, rfl⟩ := Prod.mk.inj hr
        obtain ⟨rname, payload⟩ := r
        have hform : c.kind.load name (c.kind.store payload) = .ok payload := by simp
        rw [hform] at hread
        cases hread
  | ok held =>
      congr 1
      apply Option.ext
      intro payload
      have hmem : (name, payload) ∈ c.records t ↔
          Store.read c name ⟨t, cursors⟩ = .ok (some payload) :=
        @mem_records_iff c name payload ⟨t, cursors⟩
      rw [held?_eq_some_iff, hmem, hread]
      simp

end Collection

end KeyedRelations
