import KeyedRelations.Json.Printer
import KeyedRelations.Proofs.Json.Spelling

/-!
# Printed documents

Printing a document, in whatever layout, gives one of its spellings.  So what is printed reads back
as the same document (`read_compact`, `read_pretty`), whatever its strings hold.
-/

namespace KeyedRelations

/-! ### Digits -/

namespace Digit

theorem ofNat_ne_nil (n : Nat) : ofNat n ≠ [] := by
  rw [ofNat]
  split <;> simp

theorem toNat_append (ds : List Digit) (d : Digit) : toNat (ds ++ [d]) = 10 * toNat ds + d.val := by
  simp [toNat, appendTo]

/-- The digits of a number write it. -/
theorem toNat_ofNat (n : Nat) : toNat (ofNat n) = n := by
  fun_induction ofNat n with
  | case1 n hn => simp [toNat, appendTo]
  | case2 n hn ih =>
      rw [toNat_append, ih]
      exact Nat.div_add_mod n 10

/-- Only zero starts with a zero. -/
theorem ofNat_head_zero (n : Nat) (h : (ofNat n).head? = some zero) : ofNat n = [zero] := by
  fun_induction ofNat n with
  | case1 n hn => simpa using h
  | case2 n hn ih =>
      -- The number before the last digit is not zero, so its first digit is not.
      obtain ⟨d, ds, hds⟩ := List.exists_cons_of_ne_nil (ofNat_ne_nil (n / 10))
      have hhead : (ofNat (n / 10)).head? = some zero := by simpa [hds] using h
      have hvalue := toNat_ofNat (n / 10)
      rw [ih hhead] at hvalue
      have hzero : n / 10 = 0 := hvalue.symm
      omega

end Digit

namespace Json

/-! ### Tokens -/

theorem spells_exponent (e : Int) :
    SpellsExponent (some e)
      (['e', if e < 0 then '-' else '+'] ++ Digit.chars (Digit.ofNat e.natAbs)) := by
  have hdigits := Digit.ofNat_ne_nil e.natAbs
  have hvalue := Digit.toNat_ofNat e.natAbs
  by_cases he : e < 0
  · have h := SpellsExponent.minus (e := 'e') (by decide) hdigits
    rw [hvalue, show -(e.natAbs : Int) = e by omega] at h
    simpa [he] using h
  · have h := SpellsExponent.plus (e := 'e') (by decide) hdigits
    rw [hvalue, show (e.natAbs : Int) = e by omega] at h
    simpa [he] using h

/-- A printed numeral is spelled. -/
theorem spells_numeral (n : Numeral) : SpellsNumeral n n.print := by
  obtain ⟨negative, whole, fraction, exponent⟩ := n
  have hfraction : SpellsFraction fraction
      (if fraction.isEmpty then [] else '.' :: Digit.chars fraction) := by
    cases fraction with
    | nil => exact .absent
    | cons d ds => exact .point (by simp)
  have hparts {exponent : Option Int} {es : List Char} (h : SpellsExponent exponent es) :=
    SpellsNumeral.parts negative (Digit.ofNat_ne_nil whole) (Digit.ofNat_head_zero whole)
      hfraction h
  simp only [Digit.toNat_ofNat] at hparts
  cases exponent with
  | none => simpa [Numeral.print, Decimal.pointed] using hparts .absent
  | some e => simpa [Numeral.print, Decimal.pointed] using hparts (spells_exponent e)

/-- A control is printed by its number. -/
theorem spells_control {n : Nat} (h : n < 0x20) :
    SpellsUnit n ['\\', 'u', '0', '0', Nat.digitChar (n / 16), Nat.digitChar (n % 16)] := by
  have hdigit : ∀ k < 16, Hex (Nat.digitChar k) k := by
    unfold Hex
    decide
  have hzero := hdigit 0 (by decide)
  have hspelled := SpellsUnit.hex hzero hzero (hdigit (n / 16) (by omega))
    (hdigit (n % 16) (by omega))
  rwa [show 0 * 4096 + 0 * 256 + n / 16 * 16 + n % 16 = n by omega] at hspelled

/-- A character is printed as itself or as an escape. -/
theorem spells_char (c : Char) : SpellsUnit c.toNat ((escape? c).getD [c]) := by
  unfold escape?
  split_ifs with hquote hslash hb hf hn hr ht hcontrol
  · subst hquote
    exact .letter (by decide)
  · subst hslash
    exact .letter (by decide)
  · subst hb
    exact .letter (by decide)
  · subst hf
    exact .letter (by decide)
  · subst hn
    exact .letter (by decide)
  · subst hr
    exact .letter (by decide)
  · subst ht
    exact .letter (by decide)
  · exact spells_control hcontrol
  · exact .plain (by omega) ⟨hquote, hslash⟩

/-- The units of a text are its characters, none of which is a surrogate. -/
theorem joinUnits_chars (s : List Char) : joinUnits (s.map Char.toNat) = some s := by
  induction s with
  | nil => rfl
  | cons c s ih =>
      have hvalid : c.toNat < 0xD800 ∨ 0xDFFF < c.toNat ∧ c.toNat < 0x110000 := c.valid
      have hhigh : isHighSurrogate c.toNat = false := by
        simp [isHighSurrogate]
        omega
      have hlow : isLowSurrogate c.toNat = false := by
        simp [isLowSurrogate]
        omega
      rw [List.map_cons, joinUnits.eq_def]
      simp [hhigh, hlow, ih]

/-- A printed string is spelled. -/
theorem spells_string (s : Option String) :
    ∃ cs, printString s = '"' :: cs ∧ SpellsString s cs := by
  cases s with
  | none =>
      have hlone : SpellsUnit 0xD800 ['\\', 'u', 'd', '8', '0', '0'] := by
        have hd : Hex 'd' 13 := Or.inl rfl
        have h8 : Hex '8' 8 := Or.inl rfl
        have h0 : Hex '0' 0 := Or.inl rfl
        exact .hex hd h8 h0 h0
      exact ⟨_, rfl, .units (.cons hlone .nil)⟩
  | some s =>
      have hunits : List.Forall₂ SpellsUnit (s.toList.map Char.toNat)
          (s.toList.map fun c => (escape? c).getD [c]) := by
        rw [List.forall₂_map_left_iff, List.forall₂_map_right_iff, List.forall₂_same]
        exact fun c _ => spells_char c
      have hspelled := SpellsString.units hunits
      rw [joinUnits_chars, Option.map_some, String.ofList_toList] at hspelled
      exact ⟨_, rfl, hspelled⟩

/-! ### Documents -/

theorem blank_newline (l : Layout) : Blank l.newline := by
  unfold Layout.newline
  split
  · intro c hc
    rcases List.mem_cons.mp hc with rfl | hc
    · decide
    · rw [List.eq_of_mem_replicate hc]
      decide
  · exact blank_nil

@[simp] theorem Layout.deeper_colon (l : Layout) : l.deeper.colon = l.colon := rfl

/-- A colon may be followed by a blank. -/
theorem exists_colon (l : Layout) : ∃ b, l.colon = ':' :: b ∧ Blank b := by
  unfold Layout.colon
  split
  · exact ⟨[' '], rfl, by simp [Blank]⟩
  · exact ⟨[], rfl, blank_nil⟩

mutual

/-- **A printed document is spelled**, in every layout. -/
theorem spells_print (l : Layout) : (j : Json) → Spells j (print l j)
  | .null => .null
  | .bool true => .yes
  | .bool false => .no
  | .number n => .number (spells_numeral n)
  | .string s => by
      obtain ⟨cs, hprint, hcs⟩ := spells_string s
      rw [print, hprint]
      exact .string hcs
  | .array [] => .emptyArray blank_nil
  | .array (j :: rest) => by
      have hitems := spells_printItems l.deeper rest (spells_print l.deeper j) (blank_newline l)
      simpa [print] using Spells.array (blank_newline l.deeper) hitems
  | .object [] => .emptyObject blank_nil
  | .object ((name, j) :: rest) => by
      have hmembers := spells_printMembers l.deeper rest name (spells_print l.deeper j)
        (blank_newline l)
      simpa [print] using Spells.object (blank_newline l.deeper) hmembers

/-- Items are printed behind the first. -/
theorem spells_printItems {j : Json} {cs b : List Char} (l : Layout) :
    (rest : List Json) → Spells j cs → Blank b →
      SpellsItems (j :: rest) (cs ++ (printItems l rest ++ (b ++ [']'])))
  | [], h, hb => .last h hb
  | j' :: rest, h, hb => by
      have hmore := spells_printItems l rest (spells_print l j') hb
      simpa [printItems] using SpellsItems.more h blank_nil (blank_newline l) hmore

/-- Members are printed behind the first. -/
theorem spells_printMembers {j : Json} {cs b : List Char} (l : Layout) :
    (rest : List (Option String × Json)) → (name : Option String) → Spells j cs → Blank b →
      SpellsMembers ((name, j) :: rest)
        (printString name ++ (l.colon ++ (cs ++ (printMembers l rest ++ (b ++ ['\x7d'])))))
  | [], name, h, hb => by
      obtain ⟨ns, hname, hns⟩ := spells_string name
      obtain ⟨b', hcolon, hb'⟩ := exists_colon l
      simpa [printMembers, hname, hcolon] using SpellsMembers.last hns blank_nil hb' h hb
  | (name', j') :: rest, name, h, hb => by
      obtain ⟨ns, hname, hns⟩ := spells_string name
      obtain ⟨b', hcolon, hb'⟩ := exists_colon l
      have hmore := spells_printMembers l rest name' (spells_print l j') hb
      simpa [printMembers, hname, hcolon] using
        SpellsMembers.more hns blank_nil hb' h blank_nil (blank_newline l) hmore

end

theorem spelling_compact (j : Json) : Spelling j j.compact :=
  ⟨[], print ⟨false, 0⟩ j, [], blank_nil, spells_print _ j, blank_nil, by simp [compact]⟩

theorem spelling_pretty (j : Json) : Spelling j j.pretty :=
  ⟨[], print ⟨true, 0⟩ j, [], blank_nil, spells_print _ j, blank_nil, by simp [pretty]⟩

/-- **What is printed reads back**, compact or pretty. -/
theorem read_compact (j : Json) : read j.compact = .ok j := read_of_spelling (spelling_compact j)

theorem read_pretty (j : Json) : read j.pretty = .ok j := read_of_spelling (spelling_pretty j)

end Json

end KeyedRelations
