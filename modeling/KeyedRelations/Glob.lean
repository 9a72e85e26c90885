/-!
# Glob patterns

A glob is read from left to right into **tokens**: `*` stands for any text,
`?` for any one character, a closed `[...]` for one character of a class, `\x`
for `x` itself, and every other character for itself (also a `[` whose class
is never closed, and a `\` at the very end).

A text is matched against the tokens with one remembered `*`: the tokens up to
the next `*` are tried at the current place, and when they do not fit, the
place moves on by one character.  A later `*` replaces the remembered one.

* `Glob.tokens` — the tokens of a written pattern;
* `Glob.accepts` — whether a text is in the language of a pattern;
* `Glob.literalPrefix` — text that every match starts with;
* `Glob.escape` — the pattern of exactly one text.
-/

namespace KeyedRelations.Glob

/-- A character class: ranges whose ends may stand in either order (a single
character is a range with equal ends), possibly negated. -/
structure CharClass where
  negated : Bool
  ranges : List (Char × Char)
  deriving DecidableEq, Repr

/-- Whether `c` lies between the two ends of a range, in whichever order they stand. -/
def between (ends : Char × Char) (c : Char) : Bool :=
  (ends.1 ≤ c && c ≤ ends.2) || (ends.2 ≤ c && c ≤ ends.1)

/-- The characters that a class stands for. -/
def CharClass.contains (k : CharClass) (c : Char) : Bool :=
  k.ranges.any (between · c) != k.negated

/-- What one piece of a pattern stands for. -/
inductive Token where
  /-- Any text, also the empty one: `*`. -/
  | star
  /-- Any one character: `?`. -/
  | any
  /-- One character of a class: `[...]`. -/
  | oneOf (k : CharClass)
  /-- One given character. -/
  | exactly (c : Char)
  deriving DecidableEq, Repr

/-! ### Reading a pattern -/

/-- The lower end of a class item: a character, or `\` and the character that
it escapes. -/
def readLow : List Char → Option (Char × List Char)
  | [] => none
  | '\\' :: rest =>
    match rest with
    | [] => none
    | c :: rest => some (c, rest)
  | c :: rest => some (c, rest)

/-- The upper end of a class item whose lower end is `low`: what follows a
`-`, unless that is the closing `]`; otherwise `low` again. -/
def readHigh (low : Char) : List Char → Char × List Char
  | '-' :: high :: rest => if high = ']' then (low, '-' :: high :: rest) else (high, rest)
  | rest => (low, rest)

theorem length_of_readLow {cs rest : List Char} {c : Char} (h : readLow cs = some (c, rest)) :
    rest.length < cs.length := by
  unfold readLow at h
  split at h
  · simp at h
  · split at h
    · simp at h
    · cases h
      exact Nat.lt_succ_of_lt (Nat.lt_succ_self _)
  · cases h
    exact Nat.lt_succ_self _

theorem length_readHigh (low : Char) (cs : List Char) :
    (readHigh low cs).2.length ≤ cs.length := by
  unfold readHigh
  split
  · split
    · exact Nat.le_refl _
    · exact Nat.le_add_right _ 2
  · exact Nat.le_refl _

/-- The items of a class up to its `]`, which counts as an item when it comes
`first`; `none` when the class is never closed. -/
def readRanges (first : Bool) (cs : List Char) : Option (List (Char × Char) × List Char) :=
  if cs.head? = some ']' ∧ first = false then
    some ([], cs.tail)
  else
    match _h : readLow cs with
    | none => none
    | some (low, rest) =>
      (readRanges false (readHigh low rest).2).map fun (ranges, after) =>
        ((low, (readHigh low rest).1) :: ranges, after)
termination_by cs.length
decreasing_by
  have := length_of_readLow (by assumption)
  have := length_readHigh low rest
  omega

/-- A class after its `[`: an optional `^` or `!`, then the items. -/
def readClass : List Char → Option (CharClass × List Char)
  | cs =>
    let negated := cs.head? = some '^' ∨ cs.head? = some '!'
    let items := if negated then cs.tail else cs
    (readRanges true items).map fun (ranges, rest) => (⟨negated, ranges⟩, rest)

theorem length_of_readRanges {first : Bool} {cs rest : List Char} {ranges : List (Char × Char)}
    (h : readRanges first cs = some (ranges, rest)) : rest.length ≤ cs.length := by
  fun_induction readRanges first cs generalizing ranges rest with
  | case1 cs hc =>
    cases h
    simp
  | case2 => simp at h
  | case3 first cs hc low next hlow ih =>
    obtain ⟨⟨r, t⟩, hr, heq⟩ := Option.map_eq_some_iff.1 h
    have hlen := length_of_readLow hlow
    have hhigh := length_readHigh low next
    have := ih hr
    simp only [Prod.mk.injEq] at heq
    obtain ⟨-, rfl⟩ := heq
    omega

theorem length_of_readClass {cs rest : List Char} {k : CharClass}
    (h : readClass cs = some (k, rest)) : rest.length ≤ cs.length := by
  obtain ⟨⟨ranges, t⟩, hr, heq⟩ := Option.map_eq_some_iff.1 h
  have := length_of_readRanges hr
  simp only [Prod.mk.injEq] at heq
  obtain ⟨-, rfl⟩ := heq
  split at this
  · exact Nat.le_trans this (by simp)
  · exact this

/-- The first token of a pattern that starts with `c`, and what is left. -/
def readToken (c : Char) (rest : List Char) : Token × List Char :=
  if c = '*' then (.star, rest)
  else if c = '?' then (.any, rest)
  else if c = '[' then
    match readClass rest with
    | some (k, rest) => (.oneOf k, rest)
    | none => (.exactly c, rest)
  else if c = '\\' then
    match rest with
    | escaped :: rest => (.exactly escaped, rest)
    | [] => (.exactly c, [])
  else (.exactly c, rest)

theorem length_readToken (c : Char) (rest : List Char) :
    (readToken c rest).2.length ≤ rest.length := by
  unfold readToken
  split
  · exact Nat.le_refl _
  split
  · exact Nat.le_refl _
  split
  · split
    · exact length_of_readClass (by assumption)
    · exact Nat.le_refl _
  split
  · split
    · exact Nat.le_succ _
    · exact Nat.le_refl _
  · exact Nat.le_refl _

/-- The tokens of a pattern, read from left to right. -/
def tokens : List Char → List Token
  | [] => []
  | c :: rest => (readToken c rest).1 :: tokens (readToken c rest).2
termination_by cs => cs.length
decreasing_by
  have := length_readToken c rest
  simp only [List.length_cons]
  omega

/-! ### Matching a text -/

/-- Whether a token that stands for one character stands for `c`. -/
def Token.fits : Token → Char → Bool
  | .star, _ => false
  | .any, _ => true
  | .oneOf k, c => k.contains c
  | .exactly x, c => x = c

/-- How the tokens up to the next `*` fit at one place of a text. -/
inductive Attempt where
  /-- The text is used up and the rest of the pattern allows that. -/
  | accepted
  /-- The text is used up before the pattern. -/
  | exhausted
  /-- A character does not fit. -/
  | misfit
  /-- The next `*` is reached, with these tokens and this text left. -/
  | atStar (pattern : List Token) (text : List Char)

/-- Fits tokens one by one until a `*`, a misfit or the end of the text. -/
def attempt : List Token → List Char → Attempt
  | pattern, [] => if pattern.all (· = .star) then .accepted else .exhausted
  | [], _ :: _ => .misfit
  | .star :: pattern, c :: text => .atStar pattern (c :: text)
  | token :: pattern, c :: text => if token.fits c then attempt pattern text else .misfit

theorem length_of_attempt {pattern left : List Token} {text after : List Char}
    (h : attempt pattern text = .atStar left after) : left.length < pattern.length := by
  fun_induction attempt pattern text <;> grind

/-- Matching behind a `*`: the tokens are tried at every place of the text in
turn, and the first place where they reach the next `*` is kept. -/
def search (pattern : List Token) : List Char → Bool
  | [] => pattern.all (· = .star)
  | c :: text =>
    match _h : attempt pattern (c :: text) with
    | .accepted => true
    | .exhausted => false
    | .misfit => search pattern text
    | .atStar left after => search left after
termination_by text => (pattern.length, text.length)
decreasing_by
  · exact Prod.Lex.right _ (by simp)
  · exact Prod.Lex.left _ _ (length_of_attempt (by assumption))

/-- Matching from the start of the text, where no `*` has been passed yet. -/
def acceptsTokens (pattern : List Token) (text : List Char) : Bool :=
  match attempt pattern text with
  | .accepted => true
  | .exhausted => false
  | .misfit => false
  | .atStar left after => search left after

/-- Whether `text` is in the language of the written `pattern`. -/
def accepts (pattern text : String) : Bool :=
  acceptsTokens (tokens pattern.toList) text.toList

/-! ### Literal prefixes and escaping -/

/-- The characters before the first `*`, `?` or `[`, with escapes undone; a
trailing `\` adds nothing. -/
def literalPrefixChars : List Char → List Char
  | [] => []
  | c :: rest =>
    if c = '*' ∨ c = '?' ∨ c = '[' then []
    else if c = '\\' then
      match rest with
      | escaped :: rest => escaped :: literalPrefixChars rest
      | [] => []
    else c :: literalPrefixChars rest

/-- Text that every text matching `pattern` starts with. -/
def literalPrefix (pattern : String) : String :=
  .ofList (literalPrefixChars pattern.toList)

/-- The characters that a pattern writes with a `\` in front to mean themselves. -/
def isSpecial (c : Char) : Bool :=
  c = '*' || c = '?' || c = '[' || c = ']' || c = '\\'

/-- Puts a `\` in front of every special character. -/
def escapeChars (text : List Char) : List Char :=
  text.flatMap fun c => if isSpecial c then ['\\', c] else [c]

/-- The pattern that matches exactly `text`. -/
def escape (text : String) : String :=
  .ofList (escapeChars text.toList)

end KeyedRelations.Glob
