/-!
# Sorted maps

A finite map kept as the list of its entries, strictly ascending by key.  The
order is part of the type, so two maps with the same entries are equal, and
the entries come out in key order wherever they are listed.
-/

namespace KeyedRelations

/-- Keys whose `<` is a strict total order. -/
class KeyOrder (κ : Type) [LT κ] : Prop where
  irrefl : ∀ a : κ, ¬ a < a
  trans : ∀ {a b c : κ}, a < b → b < c → a < c
  eq_of_not_lt : ∀ {a b : κ}, ¬ a < b → ¬ b < a → a = b

instance : KeyOrder String where
  irrefl := String.lt_irrefl
  trans := String.lt_trans
  eq_of_not_lt hab hba := String.le_antisymm (String.not_lt.1 hba) (String.not_lt.1 hab)

instance : KeyOrder (List UInt8) where
  irrefl := List.lt_irrefl
  trans := List.lt_trans
  eq_of_not_lt hab hba := List.le_antisymm (List.not_lt.1 hba) (List.not_lt.1 hab)

/-- A finite map from keys to values, its entries strictly ascending by key. -/
structure SortedMap (κ α : Type) [LT κ] where
  entries : List (κ × α)
  ascending : entries.Pairwise (·.1 < ·.1)

namespace SortedMap

variable {κ α β : Type} [LT κ]

@[ext]
theorem ext {m n : SortedMap κ α} (h : m.entries = n.entries) : m = n := by
  cases m; cases n; simp_all

instance [DecidableEq κ] [DecidableEq α] : DecidableEq (SortedMap κ α) := fun m n =>
  decidable_of_iff (m.entries = n.entries) ⟨ext, fun h => h ▸ rfl⟩

instance [Repr κ] [Repr α] : Repr (SortedMap κ α) := ⟨fun m n => reprPrec m.entries n⟩

/-- The map without entries. -/
def empty : SortedMap κ α := ⟨[], .nil⟩

instance : Inhabited (SortedMap κ α) := ⟨empty⟩

/-- The number of entries. -/
def size (m : SortedMap κ α) : Nat := m.entries.length

/-- The keys in ascending order. -/
def keys (m : SortedMap κ α) : List κ := m.entries.map (·.1)

/-- The values in the order of their keys. -/
def values (m : SortedMap κ α) : List α := m.entries.map (·.2)

/-- The value under `k`. -/
def get? [DecidableEq κ] (m : SortedMap κ α) (k : κ) : Option α :=
  (m.entries.find? (·.1 = k)).map (·.2)

/-- Whether there is a value under `k`. -/
def contains [DecidableEq κ] (m : SortedMap κ α) (k : κ) : Bool :=
  (m.get? k).isSome

/-- Puts an entry at its place in a list of entries, over an entry of the same key. -/
def insertEntry [DecidableLT κ] [DecidableEq κ] (k : κ) (a : α) : List (κ × α) → List (κ × α)
  | [] => [(k, a)]
  | (k', a') :: rest =>
    if k < k' then (k, a) :: (k', a') :: rest
    else if k = k' then (k, a) :: rest
    else (k', a') :: insertEntry k a rest

theorem mem_insertEntry [DecidableLT κ] [DecidableEq κ] {k : κ} {a : α} {l : List (κ × α)}
    {e : κ × α} (h : e ∈ insertEntry k a l) : e = (k, a) ∨ e ∈ l := by
  fun_induction insertEntry k a l <;> grind

theorem pairwise_insertEntry [DecidableLT κ] [DecidableEq κ] [KeyOrder κ]
    (k : κ) (a : α) {l : List (κ × α)} (h : l.Pairwise (·.1 < ·.1)) :
    (insertEntry k a l).Pairwise (·.1 < ·.1) := by
  fun_induction insertEntry k a l with
  | case1 => simp
  | case2 k' a' rest hlt =>
    refine List.pairwise_cons.2 ⟨fun e he => ?_, h⟩
    rcases List.mem_cons.1 he with rfl | he
    · exact hlt
    · exact KeyOrder.trans hlt (List.rel_of_pairwise_cons h he)
  | case3 a' rest hlt =>
    exact List.pairwise_cons.2 ⟨fun e he => List.rel_of_pairwise_cons h he, h.of_cons⟩
  | case4 k' a' rest hlt hne ih =>
    refine List.pairwise_cons.2 ⟨fun e he => ?_, ih h.of_cons⟩
    rcases mem_insertEntry he with rfl | he
    · exact Decidable.byContradiction fun hge => hne (KeyOrder.eq_of_not_lt hlt hge)
    · exact List.rel_of_pairwise_cons h he

section Update

variable [DecidableLT κ] [DecidableEq κ] [KeyOrder κ]

/-- The map with `a` under `k`, whatever was there before. -/
def insert (m : SortedMap κ α) (k : κ) (a : α) : SortedMap κ α :=
  ⟨insertEntry k a m.entries, pairwise_insertEntry k a m.ascending⟩

/-- The map of a list of entries; of several with one key the last counts. -/
def ofList (entries : List (κ × α)) : SortedMap κ α :=
  entries.foldl (fun m e => m.insert e.1 e.2) empty

end Update

/-- The map without an entry under `k`. -/
def erase [DecidableEq κ] (m : SortedMap κ α) (k : κ) : SortedMap κ α :=
  ⟨m.entries.filter (·.1 ≠ k), m.ascending.filter _⟩

/-- The map with every value changed by `f`. -/
def map (f : α → β) (m : SortedMap κ α) : SortedMap κ β :=
  ⟨m.entries.map fun e => (e.1, f e.2), List.pairwise_map.2 m.ascending⟩

end SortedMap

end KeyedRelations
