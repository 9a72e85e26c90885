import KeyedRelations.SortedMap
import Mathlib.Data.List.Sort

/-!
# Looking entries of sorted maps up

A sorted map is the set of its entries: a value is found under a key exactly if the
entry is listed, and two maps in which every key finds the same are one.  What `insert`
and `erase` do is said once for the entries, and what they do to lookups follows.
-/

namespace KeyedRelations.SortedMap

variable {κ α : Type} [LT κ]

/-- Ascending lists with the same entries are one. -/
theorem eq_of_ascending [KeyOrder κ] {l l' : List (κ × α)} (h : l.Pairwise (·.1 < ·.1))
    (h' : l'.Pairwise (·.1 < ·.1)) (hmem : ∀ e, e ∈ l ↔ e ∈ l') : l = l' := by
  have hirrefl : Std.Irrefl fun a b : κ × α => a.1 < b.1 := ⟨fun a => KeyOrder.irrefl a.1⟩
  have hantisymm : Std.Antisymm fun a b : κ × α => a.1 < b.1 :=
    ⟨fun a b hab hba => absurd (KeyOrder.trans hab hba) (KeyOrder.irrefl a.1)⟩
  exact h.eq_of_mem_iff h' hmem

/-- The keys of a map are different. -/
theorem nodup_keys [KeyOrder κ] (m : SortedMap κ α) : m.keys.Nodup := by
  refine List.pairwise_map.mpr (m.ascending.imp fun hlt heq => ?_)
  exact KeyOrder.irrefl _ (heq ▸ hlt)

section Lookup

variable [DecidableEq κ] [KeyOrder κ]

/-- The first entry of a key is the only one. -/
theorem find?_eq_some_iff_of_ascending {l : List (κ × α)} (h : l.Pairwise (·.1 < ·.1))
    {k : κ} {e : κ × α} : l.find? (·.1 = k) = some e ↔ e ∈ l ∧ e.1 = k := by
  constructor
  · intro hfind
    exact ⟨List.mem_of_find?_eq_some hfind, by simpa using List.find?_some hfind⟩
  · rintro ⟨hmem, rfl⟩
    induction l with
    | nil => simp at hmem
    | cons f l ih =>
        rw [List.pairwise_cons] at h
        rcases List.mem_cons.mp hmem with rfl | hmem
        · simp
        · have hne : f.1 ≠ e.1 := fun heq => KeyOrder.irrefl e.1 (by
            simpa [heq] using h.1 e hmem)
          rw [List.find?_cons_of_neg (by simpa using hne)]
          exact ih h.2 hmem

/-- A value is found under a key exactly if it is listed with it. -/
theorem get?_eq_some_iff {m : SortedMap κ α} {k : κ} {a : α} :
    m.get? k = some a ↔ (k, a) ∈ m.entries := by
  simp only [get?, Option.map_eq_some_iff, find?_eq_some_iff_of_ascending m.ascending]
  constructor
  · rintro ⟨e, ⟨hmem, rfl⟩, rfl⟩
    exact hmem
  · intro hmem
    exact ⟨(k, a), ⟨hmem, rfl⟩, rfl⟩

theorem contains_eq_true_iff {m : SortedMap κ α} {k : κ} :
    m.contains k = true ↔ ∃ a, (k, a) ∈ m.entries := by
  simp only [contains, Option.isSome_iff_exists, get?_eq_some_iff]

/-- The keys are those under which a value is found. -/
theorem mem_keys_iff {m : SortedMap κ α} {k : κ} : k ∈ m.keys ↔ (m.get? k).isSome = true := by
  rw [← contains, contains_eq_true_iff]
  simp [keys]

/-- The keys find the values, in their order. -/
theorem filterMap_get?_keys (m : SortedMap κ α) : m.keys.filterMap m.get? = m.values := by
  have hfind : ∀ e ∈ m.entries, m.get? e.1 = some e.2 := fun _ he => get?_eq_some_iff.mpr he
  rw [keys, List.filterMap_map, values, ← List.filterMap_eq_map]
  exact List.filterMap_congr hfind

/-- Maps in which every key finds the same are one. -/
theorem ext_get? {m n : SortedMap κ α} (h : ∀ k, m.get? k = n.get? k) : m = n := by
  refine ext (eq_of_ascending m.ascending n.ascending fun e => ?_)
  rw [← get?_eq_some_iff (k := e.1) (a := e.2), ← get?_eq_some_iff (k := e.1) (a := e.2), h]

end Lookup

/-! ### Inserting -/

section Insert

variable [DecidableLT κ] [DecidableEq κ] [KeyOrder κ]

/-- Putting an entry into ascending entries adds it and drops what its key held. -/
theorem mem_insertEntry_iff {k : κ} {a : α} {l : List (κ × α)} (h : l.Pairwise (·.1 < ·.1))
    {e : κ × α} : e ∈ insertEntry k a l ↔ e = (k, a) ∨ (e ∈ l ∧ e.1 ≠ k) := by
  -- what stands behind a key is not under it
  have apart {x y : κ} (hlt : x < y) : y ≠ x := fun heq => KeyOrder.irrefl x (heq ▸ hlt)
  induction l with
  | nil => simp [insertEntry]
  | cons f l ih =>
      obtain ⟨k', a'⟩ := f
      rw [List.pairwise_cons] at h
      rw [insertEntry]
      split
      next hlt =>
        have hrest : ∀ e ∈ (k', a') :: l, e.1 ≠ k := by
          intro e he
          rcases List.mem_cons.mp he with rfl | he
          · exact apart hlt
          · exact apart (KeyOrder.trans hlt (h.1 e he))
        constructor
        · intro he
          rcases List.mem_cons.mp he with rfl | he
          · exact Or.inl rfl
          · exact Or.inr ⟨he, hrest e he⟩
        · rintro (rfl | ⟨he, -⟩)
          · exact List.mem_cons_self
          · exact List.mem_cons_of_mem _ he
      next hlt =>
        split
        next heq =>
          subst heq
          have hrest : ∀ e ∈ l, e.1 ≠ k := fun e he => apart (h.1 e he)
          grind
        next hne =>
          have := ih h.2
          grind

/-- The entries of a map with one entry more. -/
theorem mem_entries_insert {m : SortedMap κ α} {k : κ} {a : α} {e : κ × α} :
    e ∈ (m.insert k a).entries ↔ e = (k, a) ∨ (e ∈ m.entries ∧ e.1 ≠ k) :=
  mem_insertEntry_iff m.ascending

@[simp]
theorem get?_insert_self (m : SortedMap κ α) (k : κ) (a : α) : (m.insert k a).get? k = some a := by
  rw [get?_eq_some_iff, mem_entries_insert]
  exact Or.inl rfl

/-- Inserting an entry leaves the other keys alone. -/
theorem get?_insert_of_ne (m : SortedMap κ α) {k k' : κ} (a : α) (h : k' ≠ k) :
    (m.insert k a).get? k' = m.get? k' := by
  apply Option.ext
  intro b
  rw [get?_eq_some_iff, get?_eq_some_iff, mem_entries_insert]
  simp [h]

/-- Inserting what is there changes nothing. -/
theorem insert_of_get? {m : SortedMap κ α} {k : κ} {a : α} (h : m.get? k = some a) :
    m.insert k a = m := by
  apply ext_get?
  intro k'
  by_cases hk : k' = k
  · rw [hk, get?_insert_self, h]
  · exact get?_insert_of_ne m a hk

/-! ### Lists of entries -/

/-- Inserting entries that agree on their keys adds them and drops what their keys held. -/
theorem mem_entries_insertAll {l : List (κ × α)} (h : ∀ e ∈ l, ∀ e' ∈ l, e.1 = e'.1 → e = e')
    (m : SortedMap κ α) {e : κ × α} : e ∈ (l.foldl (fun m e => m.insert e.1 e.2) m).entries ↔
      e ∈ l ∨ (e ∈ m.entries ∧ e.1 ∉ l.map (·.1)) := by
  induction l generalizing m with
  | nil => simp
  | cons f l ih =>
      have hrest : ∀ e ∈ l, ∀ e' ∈ l, e.1 = e'.1 → e = e' := fun e he e' he' =>
        h e (List.mem_cons_of_mem _ he) e' (List.mem_cons_of_mem _ he')
      -- an entry of the key of `f` that comes later is `f` again
      have hagain : e = f → e.1 ∈ l.map (·.1) → e ∈ l := by
        rintro rfl hkey
        obtain ⟨e', he', hkey'⟩ := List.mem_map.mp hkey
        exact h e List.mem_cons_self e' (List.mem_cons_of_mem _ he') hkey'.symm ▸ he'
      rw [List.foldl_cons, ih hrest, mem_entries_insert, List.mem_cons, List.map_cons,
        List.mem_cons]
      tauto

/-- A map of entries that agree on their keys has these entries. -/
theorem mem_entries_ofList_of_agree {l : List (κ × α)}
    (h : ∀ e ∈ l, ∀ e' ∈ l, e.1 = e'.1 → e = e') {e : κ × α} :
    e ∈ (ofList l).entries ↔ e ∈ l := by
  rw [ofList, mem_entries_insertAll h]
  simp [empty]

/-- So has a map of entries of different keys. -/
theorem mem_entries_ofList {l : List (κ × α)} (h : (l.map (·.1)).Nodup) {e : κ × α} :
    e ∈ (ofList l).entries ↔ e ∈ l :=
  mem_entries_ofList_of_agree fun _ he _ he' => List.inj_on_of_nodup_map h he he'

@[simp]
theorem ofList_entries (m : SortedMap κ α) : ofList m.entries = m :=
  ext (eq_of_ascending (ofList m.entries).ascending m.ascending fun _ =>
    mem_entries_ofList m.nodup_keys)

end Insert

/-! ### Erasing -/

section Erase

variable [DecidableEq κ]

theorem mem_entries_erase {m : SortedMap κ α} {k : κ} {e : κ × α} :
    e ∈ (m.erase k).entries ↔ e ∈ m.entries ∧ e.1 ≠ k := by
  simp [erase]

variable [KeyOrder κ]

@[simp]
theorem get?_erase_self (m : SortedMap κ α) (k : κ) : (m.erase k).get? k = none := by
  rw [Option.eq_none_iff_forall_not_mem]
  intro a ha
  exact (mem_entries_erase.mp (get?_eq_some_iff.mp ha)).2 rfl

/-- Erasing an entry leaves the other keys alone. -/
theorem get?_erase_of_ne (m : SortedMap κ α) {k k' : κ} (h : k' ≠ k) :
    (m.erase k).get? k' = m.get? k' := by
  apply Option.ext
  intro b
  rw [get?_eq_some_iff, get?_eq_some_iff, mem_entries_erase]
  simp [h]

/-- Erasing what is not there changes nothing. -/
theorem erase_of_get? {m : SortedMap κ α} {k : κ} (h : m.get? k = none) : m.erase k = m := by
  apply ext_get?
  intro k'
  by_cases hk : k' = k
  · rw [hk, get?_erase_self, h]
  · exact get?_erase_of_ne m hk

end Erase

end KeyedRelations.SortedMap
