import KeyedRelations.Store.Cursors
import Mathlib.Data.List.Find

/-!
# Which cursors stay open

A cursor stands for its key from the moment it is issued.  Using other cursors up does
not touch it, and issuing others drops it only when its number is at least `capacity`
behind theirs.
-/

namespace KeyedRelations.Cursors

variable {t : Cursors} {cursor other : Nat} {key : Key}

/-- The key that an open cursor stands for. -/
def key? (t : Cursors) (cursor : Nat) : Option Key :=
  (t.opened.find? (·.1 = cursor)).map (·.2)

/-- The cursors without the one that a client has, if it has one. -/
def without (t : Cursors) (own : Option (Nat × Key)) : Cursors :=
  match own with
  | none => t
  | some e => { t with opened := t.opened.filter (·.1 ≠ e.1) }

/-- Using a cursor up answers its key and closes every entry of its number. -/
theorem take?_eq (t : Cursors) (cursor : Nat) :
    t.take? cursor = (t.key? cursor).map fun key => (key, t.without (some (cursor, key))) := by
  simp only [take?, key?, Option.map_map]
  rfl

theorem issue_issued (t : Cursors) (key : Key) : (t.issue key).2.issued = t.next := rfl

/-- A number that was issued is not issued again. -/
theorem next_ne (hissued : cursor ≤ t.issued) : t.next ≠ cursor := by
  unfold next
  omega

/-- A cursor that was just issued stands for its key. -/
theorem key?_issue_self (t : Cursors) (key : Key) : (t.issue key).2.key? t.next = some key := by
  simp [key?, issue]

/-- A filter that keeps a number keeps what is found under it. -/
theorem find?_filter_of_kept {keep : Nat × Key → Bool} (h : ∀ e, e.1 = cursor → keep e = true)
    (opened : List (Nat × Key)) :
    (opened.filter keep).find? (·.1 = cursor) = opened.find? (·.1 = cursor) := by
  rw [List.find?_filter]
  refine List.find?_congr fun e _ => ?_
  by_cases he : e.1 = cursor <;> simp [he, h]

/-- Closing a cursor leaves the others open. -/
theorem key?_without {e : Nat × Key} (hne : e.1 ≠ cursor) :
    (t.without (some e)).key? cursor = t.key? cursor := by
  rw [key?, without, find?_filter_of_kept, key?]
  rintro e' rfl
  simpa using hne.symm

/-- A cursor that is closed stands for nothing. -/
theorem key?_without_self {e : Nat × Key} : (t.without (some e)).key? e.1 = none := by
  rw [key?, without, Option.map_eq_none_iff, List.find?_eq_none]
  intro e' he'
  simpa using (List.mem_filter.mp he').2

/-- Closing a cursor that is open leaves fewer. -/
theorem length_without_lt {e : Nat × Key} (h : t.key? e.1 = some key) :
    (t.without (some e)).opened.length < t.opened.length := by
  obtain ⟨e', hfind, -⟩ := Option.map_eq_some_iff.mp h
  have hmem := List.mem_of_find?_eq_some hfind
  have hcursor : e'.1 = e.1 := by simpa using List.find?_some hfind
  rw [without, List.length_filter_lt_length_iff_exists]
  exact ⟨e', hmem, by simp [hcursor]⟩

/-- Where no other cursor is open, none is after the one just issued was closed. -/
theorem opened_without_issue (key : Key) (h : t.opened = []) :
    ((t.issue key).2.without (some (t.next, key))).opened = [] := by
  simp [without, issue, h]

/-- Using a cursor up issues none. -/
theorem issued_of_take? {t' : Cursors} (h : t.take? other = some (key, t')) :
    t'.issued = t.issued := by
  rw [take?_eq] at h
  obtain ⟨key', -, heq⟩ := Option.map_eq_some_iff.mp h
  obtain ⟨-, rfl⟩ := Prod.mk.inj heq
  rfl

/-- An open cursor outlives the use of another. -/
theorem key?_of_take? {t' : Cursors} (h : t.take? other = some (key, t')) (hne : other ≠ cursor) :
    t'.key? cursor = t.key? cursor ∧ t'.issued = t.issued := by
  refine ⟨?_, issued_of_take? h⟩
  rw [take?_eq] at h
  obtain ⟨key', -, heq⟩ := Option.map_eq_some_iff.mp h
  obtain ⟨-, rfl⟩ := Prod.mk.inj heq
  exact key?_without (e := (other, key')) hne

/-- An open cursor outlives the issue of another whose number is less than `capacity`
ahead. -/
theorem key?_issue_of_recent (hissued : cursor ≤ t.issued) (hrecent : t.next - capacity < cursor) :
    (t.issue key).2.key? cursor = t.key? cursor := by
  have hne := next_ne hissued
  simp only [key?, issue]
  rw [List.find?_cons_of_neg (by simpa using hne)]
  split
  · rw [find?_filter_of_kept]
    rintro e rfl
    simpa using hrecent
  · rfl

/-- A number that was issued stands for the key of its issue, or for none any more. -/
theorem key?_issue_or (key : Key) (hissued : cursor ≤ t.issued) :
    (t.issue key).2.key? cursor = t.key? cursor ∨ (t.issue key).2.key? cursor = none := by
  by_cases hrecent : t.next - capacity < cursor
  · exact Or.inl (key?_issue_of_recent hissued hrecent)
  · have hne := next_ne hissued
    simp only [key?, issue]
    rw [List.find?_cons_of_neg (by simpa using hne)]
    split
    · right
      rw [Option.map_eq_none_iff, List.find?_eq_none]
      intro e he
      have hkept := (List.mem_filter.mp he).2
      grind
    · exact Or.inl rfl

/-- Using a cursor up leaves every number its key, or none. -/
theorem key?_take_or {t' : Cursors} (h : t.take? other = some (key, t')) :
    t'.key? cursor = t.key? cursor ∨ t'.key? cursor = none := by
  by_cases hne : other = cursor
  · subst hne
    rw [take?_eq] at h
    obtain ⟨key', -, heq⟩ := Option.map_eq_some_iff.mp h
    obtain ⟨-, rfl⟩ := Prod.mk.inj heq
    exact Or.inr key?_without_self
  · exact Or.inl (key?_of_take? h hne).1

/-- As long as few cursors are open, none is dropped. -/
theorem key?_issue_of_few (hissued : cursor ≤ t.issued) (hfew : t.opened.length < capacity) :
    (t.issue key).2.key? cursor = t.key? cursor := by
  have hne := next_ne hissued
  have hroom : ¬ capacity ≤ t.opened.length := by omega
  simp only [key?, issue, if_neg hroom]
  rw [List.find?_cons_of_neg (by simpa using hne)]

theorem length_issue_of_few (hfew : t.opened.length < capacity) :
    (t.issue key).2.opened.length = t.opened.length + 1 := by
  have hroom : ¬ capacity ≤ t.opened.length := by omega
  simp only [issue, if_neg hroom, List.length_cons]

end KeyedRelations.Cursors
