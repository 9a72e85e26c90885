import Mathlib.Data.Char
import Mathlib.Data.List.Forall2
import Mathlib.Data.List.Basic
import Mathlib.Data.List.Infix
import Mathlib.Order.MinMax
import KeyedRelations.Glob

/-!
# The language of a token sequence

A text is in the language of tokens if it splits into pieces, one for each token, that the tokens
stand for.  Finding such pieces is a search over all lengths that each `*` could take, but matching
remembers a single `*` and never comes back to an earlier one.  This file proves that nothing is
lost by that:

* `attempt_eq_atStar` — what is passed on the way to the next `*` is as long as the tokens passed;
* `Splits.star_of_suffix` — so if the tokens match anywhere further on, what is behind the next
  `*` matches behind the first place where that `*` is reached;
* `search_eq_true_iff`, `acceptsTokens_eq_true_iff` — hence matching decides splitting.
-/

namespace KeyedRelations.Glob

/-! ### Splitting a text -/

/-- Whether a character lies between the ends of a range, in whichever order they stand. -/
def InRange (ends : Char × Char) (c : Char) : Prop := min ends.1 ends.2 ≤ c ∧ c ≤ max ends.1 ends.2

/-- Whether a character is one of a class: in its ranges, or for a negated one in none of them. -/
def CharClass.Has (k : CharClass) (c : Char) : Prop :=
  if k.negated then ∀ ends ∈ k.ranges, ¬ InRange ends c else ∃ ends ∈ k.ranges, InRange ends c

/-- The texts that a token stands for. -/
inductive Token.Means : Token → List Char → Prop
  | star (piece : List Char) : Means .star piece
  | any (c : Char) : Means .any [c]
  | oneOf {k : CharClass} {c : Char} (h : k.Has c) : Means (.oneOf k) [c]
  | exactly (c : Char) : Means (.exactly c) [c]

/-- **The language of tokens**: the texts that split into pieces that the tokens stand for. -/
def Splits (pattern : List Token) (text : List Char) : Prop :=
  ∃ pieces, List.Forall₂ Token.Means pattern pieces ∧ pieces.flatten = text

/-- The number of characters that tokens need at least. -/
def width (pattern : List Token) : Nat := (pattern.filter (· ≠ .star)).length

theorem between_eq_true_iff {ends : Char × Char} {c : Char} :
    between ends c = true ↔ InRange ends c := by
  simp only [between, InRange, Bool.or_eq_true, Bool.and_eq_true, decide_eq_true_eq, min_le_iff,
    le_max_iff]
  grind

theorem CharClass.contains_eq_true_iff {k : CharClass} {c : Char} :
    k.contains c = true ↔ k.Has c := by
  obtain ⟨negated, ranges⟩ := k
  cases negated <;> simp [contains, Has, between_eq_true_iff, ← Bool.not_eq_true]

/-- Tokens other than `*` stand for the single characters that fit them. -/
theorem Token.means_iff {token : Token} (h : token ≠ .star) {piece : List Char} :
    token.Means piece ↔ ∃ c, token.fits c = true ∧ piece = [c] := by
  constructor
  · rintro (_ | c | hclass | c)
    · exact (h rfl).elim
    · exact ⟨c, rfl, rfl⟩
    · exact ⟨_, CharClass.contains_eq_true_iff.mpr hclass, rfl⟩
    · exact ⟨c, by simp [fits], rfl⟩
  · rintro ⟨c, hfits, rfl⟩
    cases token with
    | star => exact (h rfl).elim
    | any => exact .any c
    | oneOf k => exact .oneOf (CharClass.contains_eq_true_iff.mp hfits)
    | exactly x =>
        obtain rfl : x = c := by simpa [fits] using hfits
        exact .exactly x

/-- A character that fits a token fits no `*`. -/
theorem Token.ne_star_of_fits {token : Token} {c : Char} (h : token.fits c = true) :
    token ≠ .star := by
  rintro rfl
  cases h

namespace Splits

variable {token : Token} {pattern heads left : List Token} {c : Char}
  {piece text front after rest : List Char}

theorem nil_iff : Splits [] text ↔ text = [] := by
  constructor
  · rintro ⟨pieces, hpieces, rfl⟩
    cases hpieces
    rfl
  · rintro rfl
    exact ⟨[], .nil, rfl⟩

/-- The first token takes a piece off the text, and the rest is split by the others. -/
theorem cons_iff :
    Splits (token :: pattern) text ↔
      ∃ piece rest, token.Means piece ∧ Splits pattern rest ∧ text = piece ++ rest := by
  constructor
  · rintro ⟨_, _ | ⟨hpiece, hpieces⟩, rfl⟩
    exact ⟨_, _, hpiece, ⟨_, hpieces, rfl⟩, rfl⟩
  · rintro ⟨piece, _, hpiece, ⟨pieces, hpieces, rfl⟩, rfl⟩
    exact ⟨piece :: pieces, .cons hpiece hpieces, rfl⟩

/-- Behind a `*` any end of the text may be split. -/
theorem star_iff :
    Splits (.star :: pattern) text ↔ ∃ rest, rest <:+ text ∧ Splits pattern rest := by
  rw [cons_iff]
  constructor
  · rintro ⟨piece, rest, -, hrest, rfl⟩
    exact ⟨rest, List.suffix_append piece rest, hrest⟩
  · rintro ⟨rest, ⟨piece, rfl⟩, hrest⟩
    exact ⟨piece, rest, .star piece, hrest, rfl⟩

/-- A `*` takes nothing, or one character more. -/
theorem star_cons_iff :
    Splits (.star :: pattern) (c :: text) ↔
      Splits pattern (c :: text) ∨ Splits (.star :: pattern) text := by
  simp only [star_iff, List.suffix_cons_iff, or_and_right, exists_or, exists_eq_left]

/-- Another token takes one character that fits it. -/
theorem one_iff (h : token ≠ .star) :
    Splits (token :: pattern) text ↔
      ∃ c rest, token.fits c = true ∧ Splits pattern rest ∧ text = c :: rest := by
  rw [cons_iff]
  constructor
  · rintro ⟨piece, rest, hpiece, hrest, rfl⟩
    obtain ⟨c, hfits, rfl⟩ := (Token.means_iff h).mp hpiece
    exact ⟨c, rest, hfits, hrest, rfl⟩
  · rintro ⟨c, rest, hfits, hrest, rfl⟩
    exact ⟨[c], rest, (Token.means_iff h).mpr ⟨c, hfits, rfl⟩, hrest, rfl⟩

/-- Nothing but `*` matches the empty text. -/
theorem empty_iff : Splits pattern [] ↔ pattern.all (· = .star) = true := by
  induction pattern with
  | nil => simp [nil_iff]
  | cons token pattern ih =>
      by_cases h : token = .star
      · subst h
        simp [star_iff, ih]
      · simp [one_iff h, h]

/-- No text is shorter than its tokens need. -/
theorem width_le (h : Splits pattern text) : width pattern ≤ text.length := by
  induction pattern generalizing text with
  | nil => exact Nat.zero_le _
  | cons token pattern ih =>
      by_cases hstar : token = .star
      · subst hstar
        obtain ⟨rest, hrest, hsplits⟩ := star_iff.mp h
        have hwidth : width (.star :: pattern) = width pattern := by simp [width]
        have hle := ih hsplits
        have hlength := hrest.length_le
        omega
      · obtain ⟨c, rest, -, hrest, rfl⟩ := (one_iff hstar).mp h
        have hwidth : width (token :: pattern) = width pattern + 1 := by simp [width, hstar]
        have hle := ih hrest
        rw [List.length_cons]
        omega

/-- Tokens that characters fit one by one take as many characters wherever they match. -/
theorem of_append (hfits : List.Forall₂ (fun token c => token.fits c = true) heads front)
    (h : Splits (heads ++ left) text) :
    ∃ rest, rest <:+ text ∧ text.length = front.length + rest.length ∧ Splits left rest := by
  induction hfits generalizing text with
  | nil => exact ⟨text, List.suffix_rfl, by simp, h⟩
  | cons hfit _ ih =>
      obtain ⟨c, after, -, hafter, rfl⟩ := (one_iff (Token.ne_star_of_fits hfit)).mp h
      obtain ⟨rest, hsuffix, hlength, hrest⟩ := ih hafter
      refine ⟨rest, hsuffix.trans (List.suffix_cons c after), ?_, hrest⟩
      rw [List.length_cons, List.length_cons, hlength]
      omega

/-- Characters that fit tokens one by one may stand in front of what others split. -/
theorem append (hfits : List.Forall₂ (fun token c => token.fits c = true) heads front)
    (h : Splits left after) : Splits (heads ++ left) (front ++ after) := by
  induction hfits with
  | nil => exact h
  | cons hfit _ ih => exact (one_iff (Token.ne_star_of_fits hfit)).mpr ⟨_, _, hfit, ih, rfl⟩

/-- **One remembered `*` is enough.**  Where the tokens up to a `*` fit at the start of a text, a
match of the pattern anywhere in the text leaves a match behind that `*`: it has the tokens before
the `*` take as many characters, at that place or later, so that what the `*` takes can start
where the first fit ends. -/
theorem star_of_suffix (hfits : List.Forall₂ (fun token c => token.fits c = true) heads front)
    (hsuffix : rest <:+ front ++ after) (h : Splits (heads ++ .star :: left) rest) :
    Splits (.star :: left) after := by
  obtain ⟨middle, hmiddle, hcount, hsplits⟩ := of_append hfits h
  obtain ⟨tail, htail, hleft⟩ := star_iff.mp hsplits
  have hwithin : middle <:+ after := by
    have hbound := hsuffix.length_le
    rw [List.length_append] at hbound
    exact List.suffix_of_suffix_length_le (hmiddle.trans hsuffix)
      (List.suffix_append front after) (by omega)
  exact star_iff.mpr ⟨tail, htail.trans hwithin, hleft⟩

end Splits

/-! ### Matching decides splitting -/

variable {pattern left : List Token} {text after : List Char}

/-- An attempt that succeeds has split the text. -/
theorem splits_of_attempt (h : attempt pattern text = .accepted) : Splits pattern text := by
  fun_induction attempt pattern text with
  | case1 pattern hall => exact Splits.empty_iff.mpr hall
  | case2 => cases h
  | case3 => cases h
  | case4 => cases h
  | case5 token pattern c text hstar hfits ih =>
      exact (Splits.one_iff hstar).mpr ⟨c, text, hfits, ih h, rfl⟩
  | case6 => cases h

/-- An attempt that runs out of text needed more of it. -/
theorem length_lt_width_of_attempt (h : attempt pattern text = .exhausted) :
    text.length < width pattern := by
  fun_induction attempt pattern text with
  | case1 => cases h
  | case2 pattern hall =>
      refine List.length_pos_iff.mpr fun hnil => hall ?_
      simpa using hnil
  | case3 => cases h
  | case4 => cases h
  | case5 token pattern c text hstar hfits ih =>
      have hwidth : width (token :: pattern) = width pattern + 1 := by
        simp [width, Token.ne_star_of_fits hfits]
      have hlt := ih h
      rw [List.length_cons]
      omega
  | case6 => cases h

/-- An attempt that comes to a character that does not fit shows that the text does not split. -/
theorem not_splits_of_attempt (h : attempt pattern text = .misfit) : ¬ Splits pattern text := by
  fun_induction attempt pattern text with
  | case1 => cases h
  | case2 => cases h
  | case3 => simp [Splits.nil_iff]
  | case4 => cases h
  | case5 token pattern c text hstar hfits ih =>
      rw [Splits.one_iff hstar]
      rintro ⟨_, _, -, hrest, heq⟩
      obtain ⟨rfl, rfl⟩ := List.cons.inj heq
      exact ih h hrest
  | case6 token pattern c text hstar hmisfit =>
      rw [Splits.one_iff hstar]
      rintro ⟨_, _, hfits, -, heq⟩
      obtain ⟨rfl, rfl⟩ := List.cons.inj heq
      exact hmisfit hfits

/-- An attempt that comes to the next `*` has passed tokens that fit one by one. -/
theorem attempt_eq_atStar (h : attempt pattern text = .atStar left after) :
    ∃ heads front, List.Forall₂ (fun token c => token.fits c = true) heads front ∧
      pattern = heads ++ .star :: left ∧ text = front ++ after := by
  fun_induction attempt pattern text with
  | case1 => cases h
  | case2 => cases h
  | case3 => cases h
  | case4 =>
      cases h
      exact ⟨[], [], .nil, rfl, rfl⟩
  | case5 token pattern c text hstar hfits ih =>
      obtain ⟨heads, front, hpassed, rfl, rfl⟩ := ih h
      exact ⟨token :: heads, c :: front, .cons hfits hpassed, rfl, rfl⟩
  | case6 => cases h

/-- Once an attempt has come to the next `*`, what is left splits there just if the text splits from
the start, and just if any end of the text splits. -/
theorem splits_iff_of_attempt (h : attempt pattern text = .atStar left after) :
    (Splits pattern text ↔ Splits (.star :: left) after) ∧
      (Splits (.star :: pattern) text ↔ Splits (.star :: left) after) := by
  obtain ⟨heads, front, hpassed, rfl, rfl⟩ := attempt_eq_atStar h
  refine ⟨⟨Splits.star_of_suffix hpassed List.suffix_rfl, Splits.append hpassed⟩, ?_, ?_⟩
  · intro hstar
    obtain ⟨rest, hrest, hsplits⟩ := Splits.star_iff.mp hstar
    exact Splits.star_of_suffix hpassed hrest hsplits
  · intro hstar
    exact Splits.star_iff.mpr ⟨_, List.suffix_rfl, Splits.append hpassed hstar⟩

/-- **Searching behind a `*` decides splitting.** -/
theorem search_eq_true_iff : search pattern text = true ↔ Splits (.star :: pattern) text := by
  fun_induction search pattern text with
  | case1 pattern => rw [← Splits.empty_iff, Splits.star_iff]; simp
  | case2 pattern c text h =>
      simp [Splits.star_cons_iff, splits_of_attempt h]
  | case3 pattern c text h =>
      -- The tokens need more than is left, wherever in the text they start.
      have hlt := length_lt_width_of_attempt h
      rw [Splits.star_iff]
      constructor
      · intro hfalse
        cases hfalse
      · rintro ⟨rest, hrest, hsplits⟩
        have hwidth := hsplits.width_le
        have hlength := hrest.length_le
        omega
  | case4 pattern c text h ih =>
      rw [ih, Splits.star_cons_iff]
      simp [not_splits_of_attempt h]
  | case5 pattern c text left after h ih =>
      rw [ih, (splits_iff_of_attempt h).2]

/-- **Matching decides splitting**: a text is accepted if it splits into pieces that the tokens
stand for, and only then. -/
theorem acceptsTokens_eq_true_iff : acceptsTokens pattern text = true ↔ Splits pattern text := by
  unfold acceptsTokens
  split
  case h_1 h => simp [splits_of_attempt h]
  case h_2 h =>
    have hlt := length_lt_width_of_attempt h
    constructor
    · intro hfalse
      cases hfalse
    · intro hsplits
      have hwidth := hsplits.width_le
      omega
  case h_3 h => simp [not_splits_of_attempt h]
  case h_4 left after h => rw [search_eq_true_iff, (splits_iff_of_attempt h).1]

end KeyedRelations.Glob
