import Mathlib.Algebra.BigOperators.Group.Finset.Basic
import Mathlib.Algebra.Order.BigOperators.Group.Finset
import Mathlib.Data.Fintype.Card
import KeyedRelations.Proofs.Store.Cursors
import KeyedRelations.Proofs.Store.Stepping

/-!
# Clients that share the open cursors

Every client has at most one cursor open, and gives it up before it gets the next one.  If
there are no more clients than cursors can be open, no cursor is ever dropped, so each client
finds its own whatever the others do (`Owned.close`, `Owned.issue`).
-/

namespace KeyedRelations.Cursors

variable {ι : Type} [Fintype ι] {t : Cursors} {own : ι → Option (Nat × Key)}

/-- The open cursors are those of clients, each with the key where its client goes on. -/
structure Owned (t : Cursors) (own : ι → Option (Nat × Key)) : Prop where
  opened : ∀ i cursor key, own i = some (cursor, key) →
    cursor ≤ t.issued ∧ t.key? cursor = some key
  apart : ∀ i j cursor key key', own i = some (cursor, key) → own j = some (cursor, key') → i = j
  few : t.opened.length ≤ ∑ i, (own i).toList.length

/-- At first nobody has a cursor, and none is open. -/
theorem Owned.start (hopened : t.opened = []) : Owned t (fun _ : ι => none) :=
  ⟨by simp, by simp, by simp [hopened]⟩

section Counting

variable [DecidableEq ι]

/-- The number of cursors that clients have, if one of them gets or loses one. -/
theorem sum_update (own : ι → Option (Nat × Key)) (i : ι) (e : Option (Nat × Key)) :
    ∑ j, (Function.update own i e j).toList.length + (own i).toList.length =
      ∑ j, (own j).toList.length + e.toList.length := by
  have hnumber : ∀ j, (Function.update own i e j).toList.length =
      Function.update (fun j => (own j).toList.length) i e.toList.length j :=
    fun j => Function.apply_update (fun _ own => own.toList.length) own i e j
  simp only [hnumber]
  exact sum_update_add (fun j => (own j).toList.length) i e.toList.length

/-- Where one client has no cursor, the clients have fewer cursors than there are clients. -/
theorem sum_lt_card {i : ι} (hnone : own i = none) :
    ∑ j, (own j).toList.length < Fintype.card ι := by
  have hone : ∀ j, (own j).toList.length ≤ 1 := fun j => by cases own j <;> simp
  have hothers : ∑ j ∈ Finset.univ.erase i, (own j).toList.length ≤
      ∑ _j ∈ Finset.univ.erase i, 1 := Finset.sum_le_sum fun j _ => hone j
  have hsum := Finset.add_sum_erase Finset.univ (fun j => (own j).toList.length)
    (Finset.mem_univ i)
  have hcard : (Finset.univ.erase i).card < Fintype.card ι :=
    Finset.card_erase_lt_of_mem (Finset.mem_univ i)
  rw [← Finset.card_eq_sum_ones] at hothers
  rw [hnone, Option.toList_none, List.length_nil, zero_add] at hsum
  omega

end Counting

/-! ### Opening and closing -/

variable [DecidableEq ι]

/-- A client gives its cursor up. -/
theorem Owned.close (h : Owned t own) (i : ι) :
    Owned (t.without (own i)) (Function.update own i none) where
  opened j cursor key hj := by
    by_cases hij : j = i
    · subst hij
      simp at hj
    · rw [Function.update_of_ne hij] at hj
      obtain ⟨hissued, hkey⟩ := h.opened j cursor key hj
      cases hi : own i with
      | none => exact ⟨hissued, hkey⟩
      | some e =>
          have hne : e.1 ≠ cursor := by
            rintro rfl
            exact hij (h.apart j i e.1 key e.2 hj hi)
          exact ⟨hissued, (key?_without hne).trans hkey⟩
  apart j k cursor key key' hj hk := by
    by_cases hij : j = i
    · subst hij
      simp at hj
    · by_cases hik : k = i
      · subst hik
        simp at hk
      · rw [Function.update_of_ne hij] at hj
        rw [Function.update_of_ne hik] at hk
        exact h.apart j k cursor key key' hj hk
  few := by
    have hopen := h.few
    have hsum := sum_update own i none
    cases hi : own i with
    | none =>
        rw [hi] at hsum
        rw [without]
        omega
    | some e =>
        have hless := length_without_lt (h.opened i e.1 e.2 hi).2
        rw [hi, Option.toList_some, List.length_singleton, Option.toList_none,
          List.length_nil] at hsum
        omega

/-- Where one client of few has no cursor, there is room for one. -/
theorem Owned.room (h : Owned t own) (hfew : Fintype.card ι ≤ capacity) {i : ι}
    (hnone : own i = none) : t.opened.length < capacity := by
  have hopen := h.few
  have hclients := sum_lt_card hnone
  omega

/-- A client without a cursor gets a new one. -/
theorem Owned.issue (h : Owned t own) (hfew : Fintype.card ι ≤ capacity) {i : ι}
    (hnone : own i = none) (key : Key) :
    Owned (t.issue key).2 (Function.update own i (some (t.next, key))) where
  opened j cursor key' hj := by
    by_cases hij : j = i
    · subst hij
      rw [Function.update_self] at hj
      obtain ⟨rfl, rfl⟩ := Prod.mk.inj (Option.some.inj hj)
      exact ⟨Nat.le_refl _, t.key?_issue_self key⟩
    · rw [Function.update_of_ne hij] at hj
      obtain ⟨hissued, hkey⟩ := h.opened j cursor key' hj
      refine ⟨?_, (key?_issue_of_few hissued (h.room hfew hnone)).trans hkey⟩
      rw [issue_issued, next]
      omega
  apart j k cursor key' key'' hj hk := by
    -- a new cursor has a number that nobody had
    have hnew : ∀ j' key', own j' = some (t.next, key') → False := fun j' key' hj' =>
      next_ne (h.opened j' _ key' hj').1 rfl
    by_cases hij : j = i
    · by_cases hik : k = i
      · exact hij.trans hik.symm
      · subst hij
        rw [Function.update_self] at hj
        rw [Function.update_of_ne hik] at hk
        obtain ⟨rfl, -⟩ := Prod.mk.inj (Option.some.inj hj)
        exact (hnew k key'' hk).elim
    · rw [Function.update_of_ne hij] at hj
      by_cases hik : k = i
      · subst hik
        rw [Function.update_self] at hk
        obtain ⟨rfl, -⟩ := Prod.mk.inj (Option.some.inj hk)
        exact (hnew j key' hj).elim
      · rw [Function.update_of_ne hik] at hk
        exact h.apart j k cursor key' key'' hj hk
  few := by
    have hopen := h.few
    have hsum := sum_update own i (some (t.next, key))
    rw [hnone, Option.toList_some, List.length_singleton, Option.toList_none,
      List.length_nil] at hsum
    rw [length_issue_of_few (h.room hfew hnone)]
    omega

end KeyedRelations.Cursors
