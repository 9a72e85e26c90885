import Mathlib.Data.List.Forall2
import Mathlib.Data.List.TakeWhile
import Mathlib.Tactic.IntervalCases
import KeyedRelations.Json.Reader

/-!
# Spellings of documents

The grammar of JSON, as a relation between documents and the texts that write them, one rule for
each way to write something.  A document has many spellings: blanks may stand between all tokens, a
character may be written as itself or with an escape, and an exponent has several signs.

The reader takes them all (`read_of_spelling`).  Where a numeral ends is seen only from what
follows, so the reading of a part of a text is stated for every continuation that no numeral goes
on with (`Ends`).
-/

namespace KeyedRelations

/-! ### Digits -/

namespace Digit

theorem ofChar?_char : ∀ d : Digit, ofChar? d.char = some d := by decide

/-- No digit reads as another token of a document. -/
theorem char_ne (d : Digit) :
    d.char ≠ '"' ∧ d.char ≠ '[' ∧ d.char ≠ '\x7b' ∧ d.char ≠ 'n' ∧ d.char ≠ 't' ∧ d.char ≠ 'f' ∧
      d.char ≠ '-' ∧ d.char ≠ '+' ∧ d.char ≠ ']' := by
  revert d
  decide

/-- Digits are read up to the first other character. -/
theorem span_chars_append (ds : List Digit) {rest : List Char}
    (h : ∀ c ∈ rest.head?, ofChar? c = none) : span (chars ds ++ rest) = (ds, rest) := by
  induction ds with
  | nil =>
      cases rest with
      | nil => rfl
      | cons c rest =>
          have hc : ofChar? c = none := h c rfl
          simp [chars, span, hc]
  | cons d ds ih =>
      have hspan : span (d.char :: (chars ds ++ rest)) = (d :: ds, rest) := by
        rw [span, ofChar?_char, ih]
      exact hspan

end Digit

namespace Json

/-! ### The grammar -/

/-- Texts of blanks only. -/
def Blank (cs : List Char) : Prop := ∀ c ∈ cs, c ∈ [' ', '\t', '\n', '\r']

/-- Whether a character writes a number as a hexadecimal digit. -/
def Hex (c : Char) (n : Nat) : Prop :=
  "0123456789abcdef".toList[n]? = some c ∨ "0123456789ABCDEF".toList[n]? = some c

/-- The letters of escapes, with the code points that they stand for. -/
def letters : List (Char × Nat) :=
  [('"', 0x22), ('\\', 0x5C), ('/', 0x2F), ('b', 0x08), ('f', 0x0C), ('n', 0x0A), ('r', 0x0D),
    ('t', 0x09)]

/-- The ways to write one unit of a string. -/
inductive SpellsUnit : Nat → List Char → Prop
  | plain {c : Char} (hcontrol : 0x20 ≤ c.toNat) (hc : c ≠ '"' ∧ c ≠ '\\') : SpellsUnit c.toNat [c]
  | letter {e : Char} {n : Nat} (h : (e, n) ∈ letters) : SpellsUnit n ['\\', e]
  | hex {a b c d : Char} {i j k l : Nat} (ha : Hex a i) (hb : Hex b j) (hc : Hex c k)
      (hd : Hex d l) : SpellsUnit (i * 4096 + j * 256 + k * 16 + l) ['\\', 'u', a, b, c, d]

/-- The ways to write a string behind its opening quote. -/
inductive SpellsString : Option String → List Char → Prop
  | units {units : List Nat} {pieces : List (List Char)}
      (h : List.Forall₂ SpellsUnit units pieces) :
      SpellsString ((joinUnits units).map String.ofList) (pieces.flatten ++ ['"'])

/-- The ways to write the digits behind the point. -/
inductive SpellsFraction : List Digit → List Char → Prop
  | absent : SpellsFraction [] []
  | point {ds : List Digit} (h : ds ≠ []) : SpellsFraction ds ('.' :: Digit.chars ds)

/-- The ways to write an exponent. -/
inductive SpellsExponent : Option Int → List Char → Prop
  | absent : SpellsExponent none []
  | unsigned {e : Char} {ds : List Digit} (he : e ∈ ['e', 'E']) (h : ds ≠ []) :
      SpellsExponent (some (Digit.toNat ds)) (e :: Digit.chars ds)
  | plus {e : Char} {ds : List Digit} (he : e ∈ ['e', 'E']) (h : ds ≠ []) :
      SpellsExponent (some (Digit.toNat ds)) (e :: '+' :: Digit.chars ds)
  | minus {e : Char} {ds : List Digit} (he : e ∈ ['e', 'E']) (h : ds ≠ []) :
      SpellsExponent (some (-(Digit.toNat ds : Int))) (e :: '-' :: Digit.chars ds)

/-- The ways to write a numeral.  No zero stands in front of other whole digits. -/
inductive SpellsNumeral : Numeral → List Char → Prop
  | parts (negative : Bool) {whole fraction : List Digit} {exponent : Option Int}
      {fs es : List Char} (hwhole : whole ≠ [])
      (hzero : whole.head? = some Digit.zero → whole = [Digit.zero])
      (hfraction : SpellsFraction fraction fs) (hexponent : SpellsExponent exponent es) :
      SpellsNumeral ⟨negative, Digit.toNat whole, fraction, exponent⟩
        ((if negative then ['-'] else []) ++ (Digit.chars whole ++ (fs ++ es)))

mutual

/-- **The ways to write a document**, without blanks around it. -/
inductive Spells : Json → List Char → Prop
  | null : Spells .null ['n', 'u', 'l', 'l']
  | yes : Spells (.bool true) ['t', 'r', 'u', 'e']
  | no : Spells (.bool false) ['f', 'a', 'l', 's', 'e']
  | number {n : Numeral} {cs : List Char} (h : SpellsNumeral n cs) : Spells (.number n) cs
  | string {s : Option String} {cs : List Char} (h : SpellsString s cs) :
      Spells (.string s) ('"' :: cs)
  | emptyArray {b : List Char} (hb : Blank b) : Spells (.array []) ('[' :: (b ++ [']']))
  | array {b cs : List Char} {items : List Json} (hb : Blank b) (h : SpellsItems items cs) :
      Spells (.array items) ('[' :: (b ++ cs))
  | emptyObject {b : List Char} (hb : Blank b) :
      Spells (.object []) ('\x7b' :: (b ++ ['\x7d']))
  | object {b cs : List Char} {members : List (Option String × Json)} (hb : Blank b)
      (h : SpellsMembers members cs) : Spells (.object members) ('\x7b' :: (b ++ cs))

/-- The ways to write the items of an array and its closing bracket. -/
inductive SpellsItems : List Json → List Char → Prop
  | last {j : Json} {cs b : List Char} (h : Spells j cs) (hb : Blank b) :
      SpellsItems [j] (cs ++ (b ++ [']']))
  | more {j : Json} {items : List Json} {cs b b' ds : List Char} (h : Spells j cs) (hb : Blank b)
      (hb' : Blank b') (hmore : SpellsItems items ds) :
      SpellsItems (j :: items) (cs ++ (b ++ (',' :: (b' ++ ds))))

/-- The ways to write the members of an object and its closing brace. -/
inductive SpellsMembers : List (Option String × Json) → List Char → Prop
  | last {name : Option String} {j : Json} {ns b₁ b₂ cs b₃ : List Char}
      (hname : SpellsString name ns) (hb₁ : Blank b₁) (hb₂ : Blank b₂) (h : Spells j cs)
      (hb₃ : Blank b₃) :
      SpellsMembers [(name, j)]
        ('"' :: (ns ++ (b₁ ++ (':' :: (b₂ ++ (cs ++ (b₃ ++ ['\x7d'])))))))
  | more {name : Option String} {j : Json} {members : List (Option String × Json)}
      {ns b₁ b₂ cs b₃ b₄ ds : List Char} (hname : SpellsString name ns) (hb₁ : Blank b₁)
      (hb₂ : Blank b₂) (h : Spells j cs) (hb₃ : Blank b₃) (hb₄ : Blank b₄)
      (hmore : SpellsMembers members ds) :
      SpellsMembers ((name, j) :: members)
        ('"' :: (ns ++ (b₁ ++ (':' :: (b₂ ++ (cs ++ (b₃ ++ (',' :: (b₄ ++ ds)))))))))

end

/-- Whether a text writes a document, with blanks around it or without. -/
def Spelling (j : Json) (text : String) : Prop :=
  ∃ b cs b', Blank b ∧ Spells j cs ∧ Blank b' ∧ text.toList = b ++ (cs ++ b')

/-! ### Reading tokens -/

variable {b cs rest : List Char} {c : Char}

theorem blank_nil : Blank [] := by simp [Blank]

theorem isSpace_iff : isSpace c = true ↔ c ∈ [' ', '\t', '\n', '\r'] := by
  simp [isSpace, or_assoc]

theorem isSpace_char : ∀ d : Digit, isSpace d.char = false := by decide

/-- Blanks are passed over, up to the first other character. -/
theorem skipSpace_append (hb : Blank b) (hc : isSpace c = false) :
    skipSpace (b ++ c :: rest) = c :: rest := by
  have hblank : ∀ d ∈ b, isSpace d = true := fun d hd => isSpace_iff.mpr (hb d hd)
  rw [skipSpace, List.dropWhile_append_of_pos hblank, List.dropWhile_cons_of_neg]
  simp [hc]

theorem hexDigit?_of_hex {n : Nat} (h : Hex c n) : hexDigit? c = some n := by
  have hn : n < 16 := by
    rcases h with h | h <;> exact (List.getElem?_eq_some_iff.mp h).1
  interval_cases n <;> rcases h with h | h <;> cases h <;> rfl

theorem letterEscape?_of_mem {n : Nat} (h : (c, n) ∈ letters) :
    letterEscape? c = some n ∧ c ≠ 'u' := by
  have hall : ∀ e ∈ letters, letterEscape? e.1 = some e.2 ∧ e.1 ≠ 'u' := by decide
  exact hall _ h

/-- One unit is read off. -/
theorem readUnits_unit {n : Nat} (h : SpellsUnit n cs) :
    readUnits (cs ++ rest) = Reading.map (readUnits rest) (n :: ·) := by
  cases h with
  | plain hcontrol hc =>
      rw [List.singleton_append, readUnits.eq_def]
      simp [hc, Nat.not_lt.mpr hcontrol]
  | letter h =>
      obtain ⟨hletter, hu⟩ := letterEscape?_of_mem h
      rw [List.cons_append, readUnits.eq_def]
      simp [hletter, hu]
  | hex ha hb hc hd =>
      rw [List.cons_append, readUnits.eq_def]
      simp [hexFour?, hexDigit?_of_hex ha, hexDigit?_of_hex hb, hexDigit?_of_hex hc,
        hexDigit?_of_hex hd]

/-- A string is read to its end. -/
theorem readString_of_spells {s : Option String} (h : SpellsString s cs) :
    readString (cs ++ rest) = .ok (s, rest) := by
  cases h with
  | @units units pieces hunits =>
      have hread : readUnits (pieces.flatten ++ '"' :: rest) = .ok (units, rest) := by
        induction hunits with
        | nil =>
            rw [List.flatten_nil, List.nil_append, readUnits.eq_def]
            simp
        | cons hunit _ ih =>
            rw [List.flatten_cons, List.append_assoc, readUnits_unit hunit, ih]
            rfl
      rw [readString, List.append_assoc, List.singleton_append, hread]
      rfl

/-- Whether no numeral goes on with a text. -/
def Ends (rest : List Char) : Prop :=
  ∀ c ∈ rest.head?, Digit.ofChar? c = none ∧ c ≠ '.' ∧ c ≠ 'e' ∧ c ≠ 'E'

theorem ends_nil : Ends [] := by simp [Ends]

theorem ends_cons (h : c ∈ [' ', '\t', '\n', '\r', ',', ']', '\x7d']) : Ends (c :: rest) := by
  have hall : ∀ c ∈ [' ', '\t', '\n', '\r', ',', ']', '\x7d'],
      Digit.ofChar? c = none ∧ c ≠ '.' ∧ c ≠ 'e' ∧ c ≠ 'E' := by simp [Digit.ofChar?]
  rintro _ ⟨⟩
  exact hall c h

/-- Blanks end a numeral, unless there are none. -/
theorem Ends.blank_append (hb : Blank b) (h : Ends rest) : Ends (b ++ rest) := by
  cases b with
  | nil => exact h
  | cons c b =>
      have hc := hb c List.mem_cons_self
      exact ends_cons (by simp at hc ⊢; tauto)

theorem readFraction_of_spells {ds : List Digit} (h : SpellsFraction ds cs)
    (hrest : ∀ c ∈ rest.head?, Digit.ofChar? c = none ∧ c ≠ '.') :
    readFraction (cs ++ rest) = .ok (ds, rest) := by
  cases h with
  | absent =>
      cases rest with
      | nil => rfl
      | cons c rest =>
          have hc : c ≠ '.' := (hrest c rfl).2
          rw [List.nil_append]
          unfold readFraction
          split
          · next heq => exact (hc (List.cons.inj heq).1).elim
          · rfl
  | point hne =>
      rw [List.cons_append, readFraction, Digit.span_chars_append ds fun c hc => (hrest c hc).1]
      cases ds with
      | nil => exact (hne rfl).elim
      | cons d ds => rfl

theorem readExponent_of_spells {e : Option Int} (h : SpellsExponent e cs) (hrest : Ends rest) :
    readExponent (cs ++ rest) = .ok (e, rest) := by
  have hdigits (ds : List Digit) : Digit.span (Digit.chars ds ++ rest) = (ds, rest) :=
    Digit.span_chars_append ds fun c hc => (hrest c hc).1
  have hmark : ∀ {e : Char}, e ∈ ['e', 'E'] → e = 'e' ∨ e = 'E' := by simp
  cases h with
  | absent =>
      cases rest with
      | nil => rfl
      | cons c rest =>
          have hc := hrest c rfl
          rw [List.nil_append, readExponent, if_neg (not_or.mpr hc.2.2)]
  | @unsigned e ds he hne =>
      obtain ⟨d, ds, rfl⟩ := List.exists_cons_of_ne_nil hne
      have hhead : (Digit.chars (d :: ds) ++ rest).head? = some d.char := rfl
      rw [List.cons_append, readExponent, if_pos (hmark he)]
      simp [hhead, d.char_ne, hdigits]
  | @plus e ds he hne =>
      obtain ⟨d, ds, rfl⟩ := List.exists_cons_of_ne_nil hne
      rw [List.cons_append, readExponent, if_pos (hmark he)]
      simp [hdigits]
  | @minus e ds he hne =>
      obtain ⟨d, ds, rfl⟩ := List.exists_cons_of_ne_nil hne
      rw [List.cons_append, readExponent, if_pos (hmark he)]
      simp [hdigits]

/-- What follows the digits behind a point is no digit, and no other point. -/
theorem SpellsExponent.head_append {e : Option Int} (h : SpellsExponent e cs) (hrest : Ends rest) :
    ∀ c ∈ (cs ++ rest).head?, Digit.ofChar? c = none ∧ c ≠ '.' := by
  have hmark : ∀ e ∈ ['e', 'E'], Digit.ofChar? e = none ∧ e ≠ '.' := by
    simp [Digit.ofChar?]
  cases h with
  | absent => exact fun c hc => ⟨(hrest c hc).1, (hrest c hc).2.1⟩
  | unsigned he | plus he | minus he =>
      rintro c ⟨⟩
      exact hmark _ he

/-- What follows the whole digits is no digit. -/
theorem SpellsFraction.head_append {ds : List Digit} (h : SpellsFraction ds cs)
    (hrest : ∀ c ∈ rest.head?, Digit.ofChar? c = none ∧ c ≠ '.') :
    ∀ c ∈ (cs ++ rest).head?, Digit.ofChar? c = none := by
  cases h with
  | absent => exact fun c hc => (hrest c hc).1
  | point => 
      rintro c ⟨⟩
      decide

/-- A numeral is read behind its sign. -/
theorem readNumeral_of_spells {n : Numeral} (h : SpellsNumeral n cs) (hrest : Ends rest) :
    ∃ d ds, cs = (if n.negative then ['-'] else []) ++ (Digit.char d :: ds) ∧
      readNumeral n.negative (Digit.char d :: ds ++ rest) = .ok (n, rest) := by
  cases h with
  | @parts negative whole fraction exponent fs es hwhole hzero hfraction hexponent =>
      obtain ⟨d, ds, rfl⟩ := List.exists_cons_of_ne_nil hwhole
      refine ⟨d, Digit.chars ds ++ (fs ++ es), rfl, ?_⟩
      have hend := hexponent.head_append hrest
      have htext : Digit.char d :: (Digit.chars ds ++ (fs ++ es)) ++ rest =
          Digit.chars (d :: ds) ++ (fs ++ (es ++ rest)) := by simp [Digit.chars]
      have hspan := Digit.span_chars_append (d :: ds) (hfraction.head_append hend)
      have hdigit : ¬ (d = Digit.zero ∧ ds ≠ []) := by
        rintro ⟨rfl, hne⟩
        exact hne (List.cons.inj (hzero rfl)).2
      rw [readNumeral, htext, hspan]
      simp only
      rw [if_neg hdigit, readFraction_of_spells hfraction hend, Reading.andThen,
        readExponent_of_spells hexponent hrest]
      rfl

/-! ### Reading documents -/

/-- A document starts with a character that is no blank and closes no array. -/
theorem Spells.exists_cons {j : Json} (h : Spells j cs) :
    ∃ c rest, cs = c :: rest ∧ isSpace c = false ∧ c ≠ ']' := by
  cases h with
  | @number n cs h =>
      obtain ⟨d, ds, rfl, -⟩ := readNumeral_of_spells h ends_nil
      cases n.negative with
      | false => exact ⟨d.char, ds, rfl, isSpace_char d, by simp [d.char_ne]⟩
      | true => exact ⟨'-', d.char :: ds, rfl, by decide, by decide⟩
  | _ => exact ⟨_, _, rfl, by decide, by decide⟩

theorem SpellsItems.exists_cons {items : List Json} (h : SpellsItems items cs) :
    ∃ c rest, cs = c :: rest ∧ isSpace c = false ∧ c ≠ ']' := by
  cases h with
  | last h | more h =>
      obtain ⟨c, rest, rfl, hc⟩ := h.exists_cons
      exact ⟨c, _, rfl, hc⟩

theorem SpellsMembers.exists_cons {members : List (Option String × Json)}
    (h : SpellsMembers members cs) : ∃ rest, cs = '"' :: rest := by
  cases h <;> exact ⟨_, rfl⟩

/-- A member's name is read with its colon. -/
theorem readName_of_spells {name : Option String} {ns b' : List Char} (hname : SpellsString name ns)
    (hb : Blank b) (hb' : Blank b') :
    readName (b ++ ('"' :: (ns ++ (b' ++ (':' :: rest))))) = .ok (name, rest) := by
  rw [readName, skipSpace_append hb (by decide)]
  simp only
  rw [readString_of_spells hname, Reading.andThen, skipSpace_append hb' (by decide)]
  rfl

/-- A numeral is a document. -/
theorem readValue_number {n : Numeral} {steps : Nat} (h : SpellsNumeral n cs) (hb : Blank b)
    (hrest : Ends rest) : readValue (steps + 1) (b ++ (cs ++ rest)) = .ok (.number n, rest) := by
  obtain ⟨d, ds, rfl, hread⟩ := readNumeral_of_spells h hrest
  cases hsign : n.negative with
  | false =>
      rw [hsign] at hread
      simp only [Bool.false_eq_true, if_false, List.nil_append, List.cons_append] at hread ⊢
      rw [readValue, skipSpace_append hb (isSpace_char d)]
      simp [d.char_ne, hread, Reading.map, Reading.andThen]
  | true =>
      rw [hsign] at hread
      simp only [if_true, List.cons_append, List.nil_append] at hread ⊢
      rw [readValue, skipSpace_append hb (by decide)]
      simp [hread, Reading.map, Reading.andThen]

/-- Items between brackets are a document. -/
theorem readValue_array {items : List Json} {b' : List Char} {steps : Nat} (hb : Blank b)
    (hb' : Blank b') (hc : isSpace c = false ∧ c ≠ ']')
    (hitems : readItems steps (c :: cs) = .ok (items, rest)) :
    readValue (steps + 1) (b ++ ('[' :: (b' ++ c :: cs))) = .ok (.array items, rest) := by
  rw [readValue, skipSpace_append hb (by decide)]
  simp only [Char.reduceEq, if_true, if_false]
  rw [skipSpace_append hb' hc.1]
  split
  next heq => exact (hc.2 (List.cons.inj heq).1).elim
  next => rw [hitems, Reading.map, Reading.andThen]

/-- Members between braces are a document. -/
theorem readValue_object {members : List (Option String × Json)} {b' : List Char} {steps : Nat}
    (hb : Blank b) (hb' : Blank b')
    (hmembers : readMembers steps ('"' :: cs) = .ok (members, rest)) :
    readValue (steps + 1) (b ++ ('\x7b' :: (b' ++ '"' :: cs))) = .ok (.object members, rest) := by
  rw [readValue, skipSpace_append hb (by decide)]
  simp only [Char.reduceEq, if_true, if_false]
  rw [skipSpace_append hb' (by decide)]
  simp [hmembers, Reading.map, Reading.andThen]

mutual

/-- **A document is read from any of its spellings.**  Each of its tokens takes at most one step. -/
theorem readValue_of_spells {b cs rest : List Char} {steps : Nat} {j : Json} :
    Spells j cs → Blank b → cs.length ≤ steps → Ends rest →
      readValue steps (b ++ (cs ++ rest)) = .ok (j, rest)
  | h, hb, hsteps, hrest => by
      obtain ⟨k, rfl⟩ : ∃ k, steps = k + 1 := by
        obtain ⟨c, cs, rfl, -⟩ := h.exists_cons
        rw [List.length_cons] at hsteps
        exact ⟨steps - 1, by omega⟩
      cases h with
      | null | yes | no =>
          rw [List.cons_append, readValue, skipSpace_append hb (by decide)]
          simp [readWord]
      | number h => exact readValue_number h hb hrest
      | string h =>
          rw [List.cons_append, readValue, skipSpace_append hb (by decide)]
          simp [readString_of_spells h, Reading.map, Reading.andThen]
      | emptyArray hb' =>
          rw [List.cons_append, readValue, skipSpace_append hb (by decide), List.append_assoc,
            List.singleton_append]
          simp [skipSpace_append hb' (show isSpace ']' = false by decide)]
      | @array b' cs items hb' h =>
          have hlength : cs.length ≤ k := by simp at hsteps; omega
          obtain ⟨c, ds, rfl, hc⟩ := h.exists_cons
          rw [List.cons_append, List.append_assoc]
          exact readValue_array hb hb' hc (readItems_of_spells h blank_nil hlength)
      | emptyObject hb' =>
          rw [List.cons_append, readValue, skipSpace_append hb (by decide), List.append_assoc,
            List.singleton_append]
          simp [skipSpace_append hb' (show isSpace '\x7d' = false by decide)]
      | @object b' cs members hb' h =>
          have hlength : cs.length ≤ k := by simp at hsteps; omega
          obtain ⟨ds, rfl⟩ := h.exists_cons
          rw [List.cons_append, List.append_assoc]
          exact readValue_object hb hb' (readMembers_of_spells h blank_nil hlength)

/-- Items are read with the bracket that closes them. -/
theorem readItems_of_spells {b cs rest : List Char} {steps : Nat} {items : List Json} :
    SpellsItems items cs → Blank b → cs.length ≤ steps →
      readItems steps (b ++ (cs ++ rest)) = .ok (items, rest)
  | @SpellsItems.last j cs b' h hb', hb, hsteps => by
      simp only [List.length_append, List.length_cons, List.length_nil] at hsteps
      obtain ⟨k, rfl⟩ : ∃ k, steps = k + 1 := ⟨steps - 1, by omega⟩
      have hends : Ends (b' ++ ']' :: rest) := (ends_cons (by decide)).blank_append hb'
      have hread := readValue_of_spells h hb (show cs.length ≤ k by omega) hends
      simp only [List.append_assoc, List.singleton_append]
      rw [readItems, hread, Reading.andThen, skipSpace_append hb' (by decide)]
      rfl
  | @SpellsItems.more j items cs b' b'' ds h hb' hb'' hmore, hb, hsteps => by
      simp only [List.length_append, List.length_cons] at hsteps
      obtain ⟨k, rfl⟩ : ∃ k, steps = k + 1 := ⟨steps - 1, by omega⟩
      have hends : Ends (b' ++ ',' :: (b'' ++ (ds ++ rest))) :=
        (ends_cons (by decide)).blank_append hb'
      have hread := readValue_of_spells h hb (show cs.length ≤ k by omega) hends
      have hitems : readItems k (b'' ++ (ds ++ rest)) = .ok (items, rest) :=
        readItems_of_spells hmore hb'' (by omega)
      simp only [List.append_assoc, List.cons_append]
      rw [readItems, hread, Reading.andThen, skipSpace_append hb' (by decide)]
      simp only
      rw [hitems, Reading.map, Reading.andThen]

/-- Members are read with the brace that closes them. -/
theorem readMembers_of_spells {b cs rest : List Char} {steps : Nat}
    {members : List (Option String × Json)} :
    SpellsMembers members cs → Blank b → cs.length ≤ steps →
      readMembers steps (b ++ (cs ++ rest)) = .ok (members, rest)
  | @SpellsMembers.last name j ns b₁ b₂ cs b₃ hname hb₁ hb₂ h hb₃, hb, hsteps => by
      simp only [List.length_append, List.length_cons, List.length_nil] at hsteps
      obtain ⟨k, rfl⟩ : ∃ k, steps = k + 1 := ⟨steps - 1, by omega⟩
      have hends : Ends (b₃ ++ '\x7d' :: rest) := (ends_cons (by decide)).blank_append hb₃
      have hread := readValue_of_spells h hb₂ (show cs.length ≤ k by omega) hends
      simp only [List.append_assoc, List.cons_append, List.nil_append]
      rw [readMembers, readName_of_spells hname hb hb₁, Reading.andThen, hread, Reading.andThen,
        skipSpace_append hb₃ (by decide)]
      rfl
  | @SpellsMembers.more name j members ns b₁ b₂ cs b₃ b₄ ds hname hb₁ hb₂ h hb₃ hb₄ hmore, hb,
      hsteps => by
      simp only [List.length_append, List.length_cons] at hsteps
      obtain ⟨k, rfl⟩ : ∃ k, steps = k + 1 := ⟨steps - 1, by omega⟩
      have hends : Ends (b₃ ++ ',' :: (b₄ ++ (ds ++ rest))) :=
        (ends_cons (by decide)).blank_append hb₃
      have hread := readValue_of_spells h hb₂ (show cs.length ≤ k by omega) hends
      have hmembers : readMembers k (b₄ ++ (ds ++ rest)) = .ok (members, rest) :=
        readMembers_of_spells hmore hb₄ (by omega)
      simp only [List.append_assoc, List.cons_append]
      rw [readMembers, readName_of_spells hname hb hb₁, Reading.andThen, hread, Reading.andThen,
        skipSpace_append hb₃ (by decide)]
      simp only
      rw [hmembers, Reading.map, Reading.andThen]

end

/-- **A text that spells a document is read as that document.** -/
theorem read_of_spelling {j : Json} {text : String} (h : Spelling j text) : read text = .ok j := by
  obtain ⟨b, cs, b', hb, hcs, hb', htext⟩ := h
  have hread : readValue (2 * text.toList.length + 1) text.toList = .ok (j, b') := by
    have hlength : cs.length ≤ 2 * text.toList.length + 1 := by
      rw [htext]
      simp only [List.length_append]
      omega
    have hends : Ends (b' ++ []) := ends_nil.blank_append hb'
    rw [List.append_nil] at hends
    have hvalue := readValue_of_spells hcs hb hlength hends
    rwa [← htext] at hvalue
  have hskip : skipSpace b' = [] :=
    List.dropWhile_eq_nil_iff.mpr fun c hc => isSpace_iff.mpr (hb' c hc)
  rw [read, hread]
  simp only
  rw [hskip]

end Json

end KeyedRelations
