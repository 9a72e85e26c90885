import Mathlib
import KeyedRelations.Selection

/-!
# Which values an operand accepts

An equality on a field of a hash accepts the values that are loosely equal to its operand.  That is
no equivalence: the two zeros among the doubles are equal as numbers and shown differently, so each
meets the values that are shown as the other only by way of the other (`zeros_are_no_bridge`).  They
are the only such values.  All others are loosely equal exactly if they are shown by the same text
(`looselyEquals_iff`), and so loose equality passes on whenever it does not lead from one zero to
the other and from there to something that is no zero of a double.
-/

namespace KeyedRelations

namespace Value

variable {a b c : Value}

/-- Whether a value is a zero of a double, of either sign. -/
def isZero : Value → Bool
  | .float f => f == 0
  | _ => false

/-- The two zeros of doubles. -/
def AreZeros (a b : Value) : Prop := a.isZero = true ∧ b.isZero = true ∧ a.display ≠ b.display

instance : Decidable (a.AreZeros b) := inferInstanceAs (Decidable (_ ∧ _ ∧ _))

theorem isZero_float_iff {f : Float} : (float f).isZero = true ↔ f = 0 ∨ f = -0 := by
  have hzero : (0 : Float) ≠ Float.nan ∧ (-0 : Float) ≠ Float.nan ∧ (0 : Float) ≠ -0 := by decide
  unfold isZero
  rw [Float.beq_iff_ne_nan_and_eq]
  constructor
  · rintro ⟨-, -, heq | ⟨heq, -⟩ | ⟨heq, -⟩⟩
    · exact Or.inl heq
    · exact Or.inl heq
    · exact Or.inr heq
  · rintro (rfl | rfl)
    · exact ⟨hzero.1, hzero.1, Or.inl rfl⟩
    · exact ⟨hzero.2.1, hzero.1, Or.inr (Or.inr ⟨rfl, rfl⟩)⟩

theorem exists_float_of_isZero (h : a.isZero = true) :
    ∃ f, a = .float f ∧ (f = 0 ∨ f = -0) := by
  cases a with
  | float f => exact ⟨f, rfl, isZero_float_iff.mp h⟩
  | _ => simp [isZero] at h

/-- Equal values are shown by the same text, unless they are zeros. -/
theorem display_eq_or_of_equals (h : a.equals b = true) :
    a.display = b.display ∨ (a.isZero = true ∧ b.isZero = true) := by
  cases a <;> cases b <;> simp only [equals, Bool.false_eq_true] at h
  case null.null => exact Or.inl rfl
  case float.float f g =>
    rw [isZero_float_iff, isZero_float_iff]
    obtain ⟨-, -, rfl | ⟨hf, hg⟩ | ⟨hf, hg⟩⟩ := Float.beq_iff_ne_nan_and_eq.mp h
    · exact Or.inl rfl
    · exact Or.inr ⟨Or.inl hf, Or.inr hg⟩
    · exact Or.inr ⟨Or.inr hf, Or.inl hg⟩
  all_goals exact Or.inl (by rw [eq_of_beq h])

/-- Zeros are equal. -/
theorem equals_of_isZero (ha : a.isZero = true) (hb : b.isZero = true) : a.equals b = true := by
  obtain ⟨f, rfl, hf⟩ := exists_float_of_isZero ha
  obtain ⟨g, rfl, hg⟩ := exists_float_of_isZero hb
  rcases hf with rfl | rfl <;> rcases hg with rfl | rfl <;> decide

/-- **Values are loosely equal** if they are shown by the same text, or are zeros of doubles. -/
theorem looselyEquals_iff : a.looselyEquals b = true ↔
    a.display = b.display ∨ (a.isZero = true ∧ b.isZero = true) := by
  unfold looselyEquals
  rw [Bool.or_eq_true, beq_iff_eq]
  constructor
  · rintro (hequals | hshown)
    · exact display_eq_or_of_equals hequals
    · exact Or.inl hshown
  · rintro (hshown | ⟨ha, hb⟩)
    · exact Or.inr hshown
    · exact Or.inl (equals_of_isZero ha hb)

theorem looselyEquals_eq_false_iff : a.looselyEquals b = false ↔
    a.display ≠ b.display ∧ ¬ (a.isZero = true ∧ b.isZero = true) := by
  rw [← Bool.not_eq_true, looselyEquals_iff, not_or]

theorem looselyEquals_refl (a : Value) : a.looselyEquals a = true :=
  looselyEquals_iff.mpr (Or.inl rfl)

theorem looselyEquals_comm (a b : Value) : a.looselyEquals b = b.looselyEquals a := by
  rw [Bool.eq_iff_iff, looselyEquals_iff, looselyEquals_iff, and_comm]
  exact or_congr_left eq_comm

/-- Every zero has another beside it, which is shown differently. -/
theorem exists_areZeros (h : a.isZero = true) : ∃ b, a.AreZeros b := by
  obtain ⟨f, rfl, rfl | rfl⟩ := exists_float_of_isZero h
  · exact ⟨.float (-0), by decide⟩
  · exact ⟨.float 0, by decide⟩

/-! ### Passing on -/

/-- **Where loose equality is not passed on**: it leads from one zero to the other, and at one end
to a value that is no zero. -/
theorem looselyEquals_eq_false_iff_of_between (hab : a.looselyEquals b = true)
    (hbc : b.looselyEquals c = true) :
    a.looselyEquals c = false ↔
      (a.AreZeros b ∧ c.isZero = false) ∨ (b.AreZeros c ∧ a.isZero = false) := by
  rw [looselyEquals_iff] at hab hbc
  rw [looselyEquals_eq_false_iff]
  constructor
  · rintro ⟨hne, hzeros⟩
    rcases hab with hab | ⟨ha, hb⟩
    · rcases hbc with hbc | ⟨hb, hc⟩
      · exact (hne (hab.trans hbc)).elim
      · exact Or.inr ⟨⟨hb, hc, hab ▸ hne⟩, by simpa [hc] using hzeros⟩
    · rcases hbc with hbc | ⟨-, hc⟩
      · exact Or.inl ⟨⟨ha, hb, hbc ▸ hne⟩, by simpa [ha] using hzeros⟩
      · exact (hzeros ⟨ha, hc⟩).elim
  · rintro (⟨⟨-, -, hne⟩, hc⟩ | ⟨⟨-, -, hne⟩, ha⟩)
    · have hshown : b.display = c.display := by simpa [hc] using hbc
      exact ⟨hshown ▸ hne, by simp [hc]⟩
    · have hshown : a.display = b.display := by simpa [ha] using hab
      exact ⟨hshown ▸ hne, by simp [ha]⟩

/-- A value that is shown like a zero and accepts the other zero too is a zero. -/
theorem isZero_of_same (h : ∀ v, a.looselyEquals v = b.looselyEquals v)
    (hshown : a.display = b.display) (ha : a.isZero = true) : b.isZero = true := by
  obtain ⟨other, -, hother, hne⟩ := exists_areZeros ha
  have haccepts := looselyEquals_iff.mpr (Or.inr ⟨ha, hother⟩)
  rw [h, looselyEquals_iff] at haccepts
  rcases haccepts with heq | ⟨hb, -⟩
  · exact (hne (hshown.trans heq)).elim
  · exact hb

/-- **Which values accept the same**: those that are shown by the same text, if both are zeros or
neither is. -/
theorem looselyEquals_same_iff : (∀ v, a.looselyEquals v = b.looselyEquals v) ↔
    a.display = b.display ∧ a.isZero = b.isZero := by
  constructor
  · intro h
    -- what shows the one as a text is accepted by the other
    have hshown : a.display = b.display := by
      have haccepts : a.looselyEquals (.text a.display) = true :=
        looselyEquals_iff.mpr (Or.inl rfl)
      rw [h, looselyEquals_iff] at haccepts
      rcases haccepts with heq | ⟨-, hzero⟩
      · exact heq.symm
      · simp [isZero] at hzero
    refine ⟨hshown, Bool.eq_iff_iff.mpr ⟨isZero_of_same h hshown, ?_⟩⟩
    exact isZero_of_same (fun v => (h v).symm) hshown.symm
  · rintro ⟨hshown, hzero⟩ v
    rw [Bool.eq_iff_iff, looselyEquals_iff, looselyEquals_iff, hshown, hzero]

end Value

/-- The subject as a hash of which a field is compared with an operand. -/
def SubjectPlan.comparing (p : SubjectPlan) (field : String) (operand : Value) : SubjectPlan :=
  { p with kind := .hash, predicates := [⟨p.name, field, .eq, operand⟩] }

/-- The field holds for what its operand accepts. -/
theorem SubjectPlan.fieldHolds_comparing (p : SubjectPlan) (field : String) (operand v : Value) :
    (p.comparing field operand).fieldHolds field v = operand.looselyEquals v := by
  simp [comparing, fieldHolds, Structure.value]

/-- **Loose equality and its gap.**  Every value is loosely equal to itself, and the order does not
matter.  From values that are loosely equal to a third it follows that they are loosely equal to
each other, unless the third is a zero of a double, one of the two the other zero, and the other of
the two no zero of a double: then they are not.  So two operands accept the same values of a field
exactly if they are shown by the same text, and are both zeros of doubles or neither. -/
theorem SubjectPlan.loose_equality (a b c : Value) (p : SubjectPlan) (field : String) :
    a.looselyEquals a = true ∧ a.looselyEquals b = b.looselyEquals a ∧
      (a.looselyEquals b = true → b.looselyEquals c = true →
        (a.looselyEquals c = false ↔
          (a.AreZeros b ∧ c.isZero = false) ∨ (b.AreZeros c ∧ a.isZero = false))) ∧
      ((∀ v : Value, (p.comparing field a).fieldHolds field v =
          (p.comparing field b).fieldHolds field v) ↔
        a.display = b.display ∧ a.isZero = b.isZero) := by
  refine ⟨a.looselyEquals_refl, a.looselyEquals_comm b,
    Value.looselyEquals_eq_false_iff_of_between, ?_⟩
  simp only [fieldHolds_comparing]
  exact Value.looselyEquals_same_iff

/-- Where the gap is: it separates the integer zero from the negative zero, and not from the text
that shows it. -/
theorem SubjectPlan.loose_equality_ofZeros :
    (Value.int 0).looselyEquals (.float (-0.0)) = false ∧
      (Value.text "0").looselyEquals (.float 0.0) ≠ false := by
  obtain ⟨-, -, hgap, -⟩ := loose_equality (.int 0) (.float 0.0) (.float (-0.0))
    ⟨"n", .ofName "notes", .hash, [], []⟩ "size"
  obtain ⟨-, -, hnone, -⟩ := loose_equality (.text "0") (.int 0) (.float 0.0)
    ⟨"n", .ofName "notes", .hash, [], []⟩ "size"
  constructor
  · rw [hgap (by decide) (by decide)]
    decide
  · rw [ne_eq, hnone (by decide) (by decide)]
    decide

/-- The integer zero and the negative zero are loosely equal to the positive zero, and not to each
other. -/
theorem Value.zeros_are_no_bridge :
    (Value.int 0).looselyEquals (.float 0.0) = true ∧
      (Value.float 0.0).looselyEquals (.float (-0.0)) = true ∧
      (Value.int 0).looselyEquals (.float (-0.0)) = false := by
  decide

end KeyedRelations
