import KeyedRelations.Proofs.Glob.Language

/-!
# The written form of globs

A relation says what tokens a written pattern has, one rule for each thing that can be written.
A class ends at the first `]` that no item takes, and an item takes as much as it can: a character
with a `-` and another one behind it is a range, unless that other one is a `]`.  What is no class
to its end is not a class at all, and its `[` stands for itself.

Every pattern has exactly one token sequence by this grammar, the one that is read off it
(`tokens_eq_iff`).  Together with the language of tokens this settles what a written pattern means
(`accepts_iff`).
-/

namespace KeyedRelations.Glob

/-- The character that a class item starts with, written plainly or behind a `\`, and what
follows it. -/
inductive Low : List Char → Char → List Char → Prop
  | plain {c : Char} {rest : List Char} (h : c ≠ '\\') : Low (c :: rest) c rest
  | escaped (c : Char) (rest : List Char) : Low ('\\' :: c :: rest) c rest

/-- A class item: a range between two characters, or a single one. -/
inductive Item : List Char → Char × Char → List Char → Prop
  | range {cs rest : List Char} {low high : Char} (h : Low cs low ('-' :: high :: rest))
      (hhigh : high ≠ ']') : Item cs (low, high) rest
  | single {cs rest : List Char} {c : Char} (h : Low cs c rest)
      (hlast : ∀ high more, rest = '-' :: high :: more → high = ']') : Item cs (c, c) rest

/-- Class items up to the closing `]`, which is an item itself if it comes first. -/
inductive Items : Bool → List Char → List (Char × Char) → List Char → Prop
  | close (rest : List Char) : Items false (']' :: rest) [] rest
  | item {first : Bool} {cs after rest : List Char} {ends : Char × Char}
      {ranges : List (Char × Char)} (hopen : cs.head? = some ']' → first = true)
      (hitem : Item cs ends after) (hitems : Items false after ranges rest) :
      Items first cs (ends :: ranges) rest

/-- What follows the `[` of a closed class: `^` or `!` if it is negated, then the items. -/
inductive Class : List Char → CharClass → List Char → Prop
  | negated {c : Char} {cs rest : List Char} {ranges : List (Char × Char)}
      (hsign : c = '^' ∨ c = '!') (h : Items true cs ranges rest) :
      Class (c :: cs) ⟨true, ranges⟩ rest
  | plain {cs rest : List Char} {ranges : List (Char × Char)}
      (hsign : cs.head? ≠ some '^' ∧ cs.head? ≠ some '!') (h : Items true cs ranges rest) :
      Class cs ⟨false, ranges⟩ rest

/-- **The tokens of a written pattern**, read from left to right. -/
inductive Reads : List Char → List Token → Prop
  | nil : Reads [] []
  | star {rest : List Char} {ts : List Token} (h : Reads rest ts) :
      Reads ('*' :: rest) (.star :: ts)
  | any {rest : List Char} {ts : List Token} (h : Reads rest ts) :
      Reads ('?' :: rest) (.any :: ts)
  | oneOf {cs rest : List Char} {k : CharClass} {ts : List Token} (hclass : Class cs k rest)
      (h : Reads rest ts) : Reads ('[' :: cs) (.oneOf k :: ts)
  | bracket {rest : List Char} {ts : List Token} (hopen : ∀ k after, ¬ Class rest k after)
      (h : Reads rest ts) : Reads ('[' :: rest) (.exactly '[' :: ts)
  | escaped {c : Char} {rest : List Char} {ts : List Token} (h : Reads rest ts) :
      Reads ('\\' :: c :: rest) (.exactly c :: ts)
  | backslash : Reads ['\\'] [.exactly '\\']
  | plain {c : Char} {rest : List Char} {ts : List Token} (hplain : c ∉ ['*', '?', '[', '\\'])
      (h : Reads rest ts) : Reads (c :: rest) (.exactly c :: ts)

variable {cs rest : List Char} {c low : Char} {ends : Char × Char} {first : Bool}
  {ranges : List (Char × Char)} {k : CharClass} {ts : List Token}

/-! ### Classes -/

theorem readLow_eq_some_iff : readLow cs = some (c, rest) ↔ Low cs c rest := by
  constructor
  · intro h
    unfold readLow at h
    split at h
    case h_1 => cases h
    case h_2 =>
      split at h
      · cases h
      · cases h
        exact .escaped c rest
    case h_3 hne =>
      cases h
      exact .plain hne
  · rintro (hne | _)
    · unfold readLow
      split
      case h_1 heq => cases heq
      case h_2 heq => exact (hne (List.cons.inj heq).1).elim
      case h_3 heq =>
        obtain ⟨rfl, rfl⟩ := List.cons.inj heq
        rfl
    · rfl

/-- What is read off after the start of an item completes the item. -/
theorem item_readHigh (h : Low cs low rest) :
    Item cs (low, (readHigh low rest).1) (readHigh low rest).2 := by
  unfold readHigh
  split
  next high more =>
    split
    next hclose =>
      refine .single h ?_
      rintro _ _ ⟨⟩
      exact hclose
    next hhigh => exact .range h hhigh
  next hlast => exact .single h fun high more hrest => (hlast high more hrest).elim

/-- There is no other item. -/
theorem Item.exists_low (h : Item cs ends rest) :
    ∃ low after, Low cs low after ∧ ends = (low, (readHigh low after).1) ∧
      rest = (readHigh low after).2 := by
  cases h with
  | range h hhigh => exact ⟨_, _, h, by simp [readHigh, hhigh], by simp [readHigh, hhigh]⟩
  | single h hlast =>
      refine ⟨_, _, h, ?_⟩
      unfold readHigh
      split
      next high more => simp [hlast high more rfl]
      next => simp

theorem readRanges_eq_some_iff :
    readRanges first cs = some (ranges, rest) ↔ Items first cs ranges rest := by
  constructor
  · intro h
    fun_induction readRanges first cs generalizing ranges rest with
    | case1 first cs hclose =>
        obtain ⟨hhead, rfl⟩ := hclose
        obtain ⟨more, rfl⟩ := List.head?_eq_some_iff.mp hhead
        cases h
        exact .close more
    | case2 => cases h
    | case3 first cs hopen low after hlow ih =>
        obtain ⟨⟨more, left⟩, hmore, heq⟩ := Option.map_eq_some_iff.mp h
        cases heq
        refine .item ?_ (item_readHigh (readLow_eq_some_iff.mp hlow)) (ih hmore)
        intro hhead
        by_contra hfirst
        exact hopen ⟨hhead, by simpa using hfirst⟩
  · intro h
    induction h with
    | close rest => simp [readRanges]
    | @item first cs after rest ends ranges hopen hitem hitems ih =>
        obtain ⟨low, behind, hlow, rfl, rfl⟩ := hitem.exists_low
        have hclose : ¬ (cs.head? = some ']' ∧ first = false) := by
          rintro ⟨hhead, rfl⟩
          cases hopen hhead
        rw [readRanges, if_neg hclose]
        have hread := readLow_eq_some_iff.mpr hlow
        split
        next hnone => simp [hread] at hnone
        next low' behind' hsome =>
          obtain ⟨rfl, rfl⟩ := Prod.mk.inj (Option.some.inj (hread.symm.trans hsome))
          rw [ih, Option.map_some]

theorem readClass_of_negated (h : c = '^' ∨ c = '!') (items : List Char) :
    readClass (c :: items) =
      (readRanges true items).map fun (ranges, rest) => (⟨true, ranges⟩, rest) := by
  simp [readClass, h]

theorem readClass_of_plain (h : cs.head? ≠ some '^' ∧ cs.head? ≠ some '!') :
    readClass cs = (readRanges true cs).map fun (ranges, rest) => (⟨false, ranges⟩, rest) := by
  simp [readClass, h]

theorem readClass_eq_some_iff : readClass cs = some (k, rest) ↔ Class cs k rest := by
  constructor
  · intro h
    by_cases hsign : cs.head? ≠ some '^' ∧ cs.head? ≠ some '!'
    · rw [readClass_of_plain hsign] at h
      obtain ⟨⟨ranges, left⟩, hranges, heq⟩ := Option.map_eq_some_iff.mp h
      cases heq
      exact .plain hsign (readRanges_eq_some_iff.mp hranges)
    · obtain ⟨c, items, rfl, hc⟩ : ∃ c items, cs = c :: items ∧ (c = '^' ∨ c = '!') := by
        cases cs with
        | nil => simp at hsign
        | cons c items => exact ⟨c, items, rfl, by simpa [or_iff_not_and_not] using hsign⟩
      rw [readClass_of_negated hc] at h
      obtain ⟨⟨ranges, left⟩, hranges, heq⟩ := Option.map_eq_some_iff.mp h
      cases heq
      exact .negated hc (readRanges_eq_some_iff.mp hranges)
  · rintro (⟨hsign, h⟩ | ⟨hsign, h⟩)
    · rw [readClass_of_negated hsign, readRanges_eq_some_iff.mpr h, Option.map_some]
    · rw [readClass_of_plain hsign, readRanges_eq_some_iff.mpr h, Option.map_some]

/-! ### Patterns -/

/-- The token that is read off first stands in front of the tokens of what is left. -/
theorem reads_readToken (c : Char) (h : Reads (readToken c rest).2 ts) :
    Reads (c :: rest) ((readToken c rest).1 :: ts) := by
  unfold readToken at h ⊢
  split_ifs at h ⊢ with hstar hany hbracket hslash
  · subst hstar
    exact .star h
  · subst hany
    exact .any h
  · subst hbracket
    split at h
    next k after hclass => exact .oneOf (readClass_eq_some_iff.mp hclass) h
    next hnone =>
      refine .bracket (fun k after hclass => ?_) h
      rw [readClass_eq_some_iff.mpr hclass] at hnone
      cases hnone
  · subst hslash
    cases rest with
    | nil =>
        cases h
        exact .backslash
    | cons escaped rest => exact .escaped h
  · exact .plain (by simp [hstar, hany, hbracket, hslash]) h

/-- **A written pattern has the tokens that are read off it, and no others.** -/
theorem tokens_eq_iff : tokens cs = ts ↔ Reads cs ts := by
  constructor
  · rintro rfl
    fun_induction tokens cs with
    | case1 => exact .nil
    | case2 c rest ih => exact reads_readToken c ih
  · intro h
    induction h with
    | nil => rw [tokens]
    | star _ ih => rw [tokens, ← ih]; rfl
    | any _ ih => rw [tokens, ← ih]; rfl
    | oneOf hclass _ ih => simp [tokens, readToken, readClass_eq_some_iff.mpr hclass, ih]
    | @bracket rest ts hopen _ ih =>
        have hnone : readClass rest = none := by
          refine Option.eq_none_iff_forall_ne_some.mpr fun ⟨k, after⟩ hsome => ?_
          exact hopen k after (readClass_eq_some_iff.mp hsome)
        simp [tokens, readToken, hnone, ih]
    | escaped _ ih => rw [tokens, ← ih]; rfl
    | backslash => simp [tokens, readToken]
    | plain hplain _ ih =>
        simp only [List.mem_cons, List.not_mem_nil, or_false, not_or] at hplain
        simp [tokens, readToken, hplain, ih]

/-- **The glob language.**  A written pattern has exactly one token sequence, and it accepts a
text if the text splits according to it, and only then. -/
theorem accepts_iff (pattern text : String) :
    (∃! ts, Reads pattern.toList ts) ∧
      (accepts pattern text = true ↔ ∃ ts, Reads pattern.toList ts ∧ Splits ts text.toList) := by
  have hreads : ∀ ts, Reads pattern.toList ts ↔ tokens pattern.toList = ts :=
    fun ts => tokens_eq_iff.symm
  constructor
  · exact ⟨tokens pattern.toList, (hreads _).mpr rfl, fun ts h => ((hreads ts).mp h).symm⟩
  · simp only [hreads, exists_eq_left']
    exact acceptsTokens_eq_true_iff

-- The class has a `]`, a range that is written backwards, and a `-`; the last `[` opens none.
example : accepts "[]z-a-]*[" "q-[[" = true := by cbv

end KeyedRelations.Glob
