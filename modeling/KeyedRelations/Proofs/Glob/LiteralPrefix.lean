import KeyedRelations.Proofs.Glob.Language
import KeyedRelations.Text.Utf8

/-!
# Literal starts of glob patterns

A pattern that starts with characters standing for themselves can only match a
text that starts with the same characters.  Two things follow from this one fact:

* `literalPrefix_isPrefix` — what `Glob.literalPrefix` takes off a pattern stands
  at the start of every match, as characters and as bytes;
* `escape_keeps_pattern` — an escaped text in front of a pattern adds exactly
  that text in front of its matches and of its literal prefix.
-/

namespace KeyedRelations.Glob

/-! ### Tokens that stand for themselves -/

/-- Character tokens at the front take exactly their characters off the text. -/
theorem acceptsTokens_exactly_append (s : List Char) (pattern : List Token) (text : List Char) :
    acceptsTokens (s.map .exactly ++ pattern) text = true ↔
      ∃ rest, text = s ++ rest ∧ acceptsTokens pattern rest = true := by
  simp only [acceptsTokens_eq_true_iff]
  induction s generalizing text with
  | nil => simp
  | cons x s ih =>
      have hone : Token.exactly x ≠ .star := Token.noConfusion
      rw [List.map_cons, List.cons_append, Splits.one_iff hone]
      constructor
      · rintro ⟨c, after, hfits, hsplits, rfl⟩
        obtain rfl : x = c := by simpa [Token.fits] using hfits
        obtain ⟨rest, rfl, hrest⟩ := (ih after).mp hsplits
        exact ⟨rest, rfl, hrest⟩
      · rintro ⟨rest, rfl, hrest⟩
        exact ⟨x, s ++ rest, by simp [Token.fits], (ih _).mpr ⟨rest, rfl, hrest⟩, rfl⟩

/-- One `*` alone matches every text. -/
theorem acceptsTokens_star (text : List Char) : acceptsTokens [.star] text = true := by
  rw [acceptsTokens_eq_true_iff, Splits.star_iff]
  exact ⟨[], List.nil_suffix, Splits.nil_iff.mpr rfl⟩

/-! ### Literal prefixes -/

/-- A character that starts neither a wildcard nor a class nor an escape is a token
for itself. -/
theorem tokens_cons_plain {c : Char} (rest : List Char)
    (hwild : ¬ (c = '*' ∨ c = '?' ∨ c = '[')) (hslash : c ≠ '\\') :
    tokens (c :: rest) = .exactly c :: tokens rest := by
  rw [tokens]
  simp_all [readToken]

/-- An escaped character is a token for itself. -/
theorem tokens_cons_escaped (c : Char) (rest : List Char) :
    tokens ('\\' :: c :: rest) = .exactly c :: tokens rest := by
  rw [tokens]
  simp [readToken]

/-- A match of a pattern whose first token is a character starts with it. -/
theorem exists_of_acceptsTokens_exactly {x : Char} {pattern : List Token} {text : List Char}
    (h : acceptsTokens (.exactly x :: pattern) text = true) :
    ∃ rest, text = x :: rest ∧ acceptsTokens pattern rest = true :=
  (acceptsTokens_exactly_append [x] pattern text).mp h

/-- Every match of a pattern starts with the pattern's literal prefix. -/
theorem literalPrefixChars_isPrefix {pattern text : List Char}
    (h : acceptsTokens (tokens pattern) text = true) : literalPrefixChars pattern <+: text := by
  fun_induction literalPrefixChars pattern generalizing text with
  | case1 => exact List.nil_prefix
  | case2 => exact List.nil_prefix
  | case3 escaped rest hwild ih =>
      rw [tokens_cons_escaped] at h
      obtain ⟨rest, rfl, hrest⟩ := exists_of_acceptsTokens_exactly h
      exact List.cons_prefix_cons.mpr ⟨rfl, ih hrest⟩
  | case4 => exact List.nil_prefix
  | case5 c rest hwild hslash ih =>
      rw [tokens_cons_plain rest hwild hslash] at h
      obtain ⟨rest, rfl, hrest⟩ := exists_of_acceptsTokens_exactly h
      exact List.cons_prefix_cons.mpr ⟨rfl, ih hrest⟩

/-- The bytes of a pattern's literal prefix stand at the start of every match. -/
theorem literalPrefix_isPrefix {pattern text : String} (h : accepts pattern text = true) :
    Utf8.bytes (literalPrefix pattern) <+: Utf8.bytes text := by
  obtain ⟨rest, hrest⟩ := literalPrefixChars_isPrefix h
  have htext : text = literalPrefix pattern ++ String.ofList rest := by
    rw [literalPrefix, ← String.ofList_append, hrest, String.ofList_toList]
  rw [htext, Utf8.bytes_append]
  exact List.prefix_append _ _

/-! ### Escaped texts -/

/-- Characters are escaped one by one. -/
theorem escapeChars_cons_append (c : Char) (s pattern : List Char) :
    escapeChars (c :: s) ++ pattern =
      (if isSpecial c then ['\\', c] else [c]) ++ (escapeChars s ++ pattern) := by
  simp [escapeChars]

/-- An escaped text is one character token for each of its characters, whatever follows. -/
theorem tokens_escapeChars_append (s pattern : List Char) :
    tokens (escapeChars s ++ pattern) = s.map .exactly ++ tokens pattern := by
  induction s with
  | nil => rfl
  | cons c s ih =>
      rw [escapeChars_cons_append, List.map_cons, List.cons_append, ← ih]
      by_cases hspecial : isSpecial c = true
      · rw [if_pos hspecial]
        exact tokens_cons_escaped c _
      · rw [if_neg hspecial]
        apply tokens_cons_plain <;> simp_all [isSpecial]

/-- An escaped text in front of a pattern matches exactly that text in front of what the
pattern matches. -/
theorem accepts_escape_append (s pattern text : String) :
    accepts (escape s ++ pattern) text = true ↔
      ∃ rest, text = s ++ rest ∧ accepts pattern rest = true := by
  simp only [accepts, escape, String.toList_append, String.toList_ofList,
    tokens_escapeChars_append, acceptsTokens_exactly_append]
  constructor
  · rintro ⟨rest, htext, h⟩
    refine ⟨String.ofList rest, ?_, by simpa using h⟩
    apply String.toList_injective
    simpa using htext
  · rintro ⟨rest, rfl, h⟩
    exact ⟨rest.toList, by simp, h⟩

/-- The literal prefix of a pattern behind an escaped text starts with that text. -/
theorem literalPrefixChars_escapeChars_append (s pattern : List Char) :
    literalPrefixChars (escapeChars s ++ pattern) = s ++ literalPrefixChars pattern := by
  induction s with
  | nil => rfl
  | cons c s ih =>
      rw [escapeChars_cons_append, List.cons_append, ← ih]
      by_cases hspecial : isSpecial c = true
      · rw [if_pos hspecial]
        simp [literalPrefixChars]
      · have hwild : ¬ (c = '*' ∨ c = '?' ∨ c = '[') := by
          rintro (rfl | rfl | rfl) <;> exact hspecial rfl
        have hslash : c ≠ '\\' := by
          rintro rfl
          exact hspecial rfl
        rw [if_neg hspecial, List.singleton_append, literalPrefixChars.eq_def]
        simp only [if_neg hwild, if_neg hslash]

theorem literalPrefix_escape_append (s pattern : String) :
    literalPrefix (escape s ++ pattern) = s ++ literalPrefix pattern := by
  apply String.toList_injective
  simp [literalPrefix, escape, literalPrefixChars_escapeChars_append]

/-- **An escaped text keeps the pattern behind it.**  Whatever its own characters would mean in a
pattern, it adds exactly itself in front of the matches and of the literal prefix. -/
theorem escape_keeps_pattern (s pattern : String) :
    (∀ text, accepts (escape s ++ pattern) text = true ↔
      ∃ rest, text = s ++ rest ∧ accepts pattern rest = true) ∧
    literalPrefix (escape s ++ pattern) = s ++ literalPrefix pattern :=
  ⟨accepts_escape_append s pattern, literalPrefix_escape_append s pattern⟩

/-- The pattern `*` matches every text. -/
theorem accepts_star (text : String) : accepts "*" text = true := by
  have htokens : tokens "*".toList = [.star] := by
    simp [tokens, readToken]
  rw [accepts, htokens]
  exact acceptsTokens_star _

end KeyedRelations.Glob
