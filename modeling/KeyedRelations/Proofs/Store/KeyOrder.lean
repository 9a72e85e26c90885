import KeyedRelations.Store.Cursors

/-!
# The order of keys

Keys stand in the lexicographic order of their bytes, so the keys with one common
start are contiguous: the first key behind the start that does not have it ends them.
In an ascending list a condition that holds up to some place and nowhere behind it is
read off by `takeWhile`, and its failure by `dropWhile`.
-/

namespace KeyedRelations

/-! ### Conditions that hold up to some place -/

section UpTo

variable {α : Type} {p : α → Bool} {l : List α}

theorem takeWhile_eq_filter_of_upTo (h : l.Pairwise fun x y => p y = true → p x = true) :
    l.takeWhile p = l.filter p := by
  induction l with
  | nil => rfl
  | cons x l ih =>
      rw [List.pairwise_cons] at h
      by_cases hx : p x = true
      · rw [List.takeWhile_cons_of_pos hx, List.filter_cons_of_pos hx, ih h.2]
      · rw [List.takeWhile_cons_of_neg hx, List.filter_cons_of_neg hx]
        exact (List.filter_eq_nil_iff.mpr fun y hy hpy => hx (h.1 y hy hpy)).symm

theorem dropWhile_eq_filter_of_upTo (h : l.Pairwise fun x y => p y = true → p x = true) :
    l.dropWhile p = l.filter fun x => !p x := by
  induction l with
  | nil => rfl
  | cons x l ih =>
      rw [List.pairwise_cons] at h
      by_cases hx : p x = true
      · rw [List.dropWhile_cons_of_pos hx, List.filter_cons_of_neg (by simp [hx]), ih h.2]
      · rw [List.dropWhile_cons_of_neg hx, List.filter_cons_of_pos (by simp [hx])]
        have hrest : ∀ y ∈ l, (!p y) = true := fun y hy => by
          simpa using fun hpy => hx (h.1 y hy hpy)
        rw [List.filter_eq_self.mpr hrest]

end UpTo

/-! ### Keys with a common start -/

/-- No key with a start stands before that start. -/
theorem not_lt_of_isPrefix {start key : Key} (h : start <+: key) : ¬ key < start := by
  obtain ⟨rest, rfl⟩ := h
  induction start with
  | nil => exact List.not_lt_nil _
  | cons b start ih =>
      rw [List.cons_append, List.cons_lt_cons_iff]
      rintro (hlt | ⟨-, hlt⟩)
      · exact UInt8.lt_irrefl b hlt
      · exact ih hlt

/-- Keys with a common start are contiguous: behind a key that is past the start and
lacks it, no key has it. -/
theorem not_isPrefix_of_lt {start a b : Key} (hpast : ¬ a < start) (hlacks : ¬ start <+: a)
    (hab : a < b) : ¬ start <+: b := by
  induction start generalizing a b with
  | nil => exact absurd List.nil_prefix hlacks
  | cons x start ih =>
      cases a with
      | nil => exact absurd (List.nil_lt_cons x start) hpast
      | cons y a =>
          cases b with
          | nil => exact absurd hab (List.not_lt_nil _)
          | cons z b =>
              rw [List.cons_prefix_cons]
              rintro ⟨rfl, hb⟩
              rw [List.cons_lt_cons_iff] at hab hpast
              rcases hab with hyx | ⟨rfl, hab⟩
              · exact hpast (Or.inl hyx)
              · refine ih (fun h => hpast (Or.inr ⟨rfl, h⟩)) (fun h => hlacks ?_) hab hb
                exact List.cons_prefix_cons.mpr ⟨rfl, h⟩

/-- What stands between two keys with a common start has it too. -/
theorem isPrefix_of_between {start a b key : Key} (ha : start <+: a) (hb : start <+: b)
    (hbehind : a < key) (hbefore : key < b) : start <+: key := by
  have hpast : ¬ key < start := fun hlt => not_lt_of_isPrefix ha (List.lt_trans hbehind hlt)
  by_cases hkey : start <+: key
  · exact hkey
  · exact absurd hb (not_isPrefix_of_lt hpast hkey hbefore)

/-- A common start does not matter for the order of keys. -/
theorem append_lt_append_left_iff {start a b : Key} : start ++ a < start ++ b ↔ a < b := by
  induction start with
  | nil => simp
  | cons x start ih => simp [ih]

end KeyedRelations
