import KeyedRelations.Text.Columns
import KeyedRelations.Text.Emoji

/-!
# Display width

How many columns a text takes on a character terminal.  Mostly that is the sum of the
columns of its characters, but some sequences are drawn as one sign: emoji joined to one
picture, a picture with its skin tone, flags, keycaps, and the ligatures of some scripts.

Whether a character joins such a sign shows only in what stands behind it, so a text is
measured from its end: `step` takes a character and what was made of the text behind it
(`Behind`), and gives the columns that the character adds and what it is in turn to the
character before it.
-/

namespace KeyedRelations.Text

/-- The end of a ligature, or as much of it as has been read.  Some ligatures form only
across a joiner; for these it is kept whether one was read. -/
inductive LigatureEnd where
  /-- An Arabic alef, which joins a lam before it. -/
  | alef
  /-- A Hebrew lamed, which joins an alef. -/
  | lamed (joined : Bool)
  /-- A Khmer letter that is written below another one after a coeng. -/
  | khmerLetter
  /-- A Buginese ya, which joins the letter a with the vowel sign i. -/
  | ya (joined : Bool)
  /-- The vowel sign and the ya of that ligature. -/
  | vowelSignYa
  /-- A Tifinagh consonant, which joins another one. -/
  | tifinagh (joined : Bool)
  /-- A Tifinagh consonant with the joiner of its own script before it. -/
  | joinerTifinagh
  /-- A Lisu tone letter, which joins another one. -/
  | toneLetter
  /-- An Old Turkic i, which joins a letter before it. -/
  | orkhonI (joined : Bool)
  deriving DecidableEq, Repr

/-- The tags at the end of the flag of a region, before a joined picture. -/
inductive FlagTags where
  /-- The end mark with so many letters before it. -/
  | letters (n : Nat)
  /-- So many digits, then letters or the end mark. -/
  | digits (n : Nat)
  deriving DecidableEq, Repr

/-- What stands behind a character, as far as the character may join it. -/
inductive Behind where
  /-- Nothing that it may join. -/
  | apart
  /-- A line feed. -/
  | lineFeed
  /-- The end of a ligature. -/
  | ligature (rest : LigatureEnd)
  /-- A Kirat Rai vowel sign e.  These signs join only what stands directly before them. -/
  | vowelSignE
  /-- A Kirat Rai vowel sign ai, or two signs e. -/
  | vowelSignAi
  /-- A skin tone. -/
  | skinTone
  /-- A letter of a flag. -/
  | flagLetter
  /-- Several letters of flags. -/
  | flagLetters
  /-- A picture. -/
  | picture
  /-- A joiner and a picture. -/
  | joinedPicture
  /-- A keycap that is joined to a picture. -/
  | joinedKeycap
  /-- A letter of a flag that is joined to a picture. -/
  | joinedFlagLetter
  /-- Whole flags, the last joined to a picture. -/
  | joinedFlags
  /-- A letter of a flag and whole flags. -/
  | oddFlagLetters
  /-- Tags of a flag that is joined to a picture. -/
  | joinedTags (tags : FlagTags)
  deriving DecidableEq, Repr

/-- A variation selector that waits for the character before it. -/
inductive Selector where
  /-- Shows the character as plain text. -/
  | asText
  /-- Shows it as a picture. -/
  | asPicture
  /-- Sets a quotation mark full width. -/
  | asWide
  deriving DecidableEq, Repr

/-- The text behind a character: what it may join, and the selector in between. -/
structure Context where
  behind : Behind := .apart
  selector? : Option Selector := none
  deriving DecidableEq, Repr

/-! ### Ligatures -/

/-- The joiner, which has no width. -/
def joiner : Char := '\u200D'

/-- Whether a character is a mark that a display may ignore; ligatures form across it. -/
def isIgnorableMark (c : Char) : Bool :=
  inRanges [(0x34F, 0x34F), (0x17B4, 0x17B5), (0x180B, 0x180D), (0x180F, 0x180F),
    (0xFE00, 0xFE0F), (0xE0100, 0xE01EF)] c.toNat

/-- Whether a character is an Arabic alef. -/
def isAlef (c : Char) : Bool :=
  inRanges [(0x622, 0x623), (0x625, 0x625), (0x627, 0x627), (0x671, 0x673), (0x675, 0x675),
    (0x773, 0x774), (0x870, 0x882)] c.toNat

/-- Whether a character is an Arabic lam. -/
def isLam (c : Char) : Bool :=
  inRanges [(0x644, 0x644), (0x6B5, 0x6B8), (0x76A, 0x76A), (0x8A6, 0x8A6), (0x8C7, 0x8C7)] c.toNat

/-- Whether a character is a Khmer letter that a coeng puts below another one. -/
def isKhmerLetter (c : Char) : Bool :=
  inRanges [(0x1780, 0x1782), (0x1784, 0x1787), (0x1789, 0x178C), (0x178E, 0x1793),
    (0x1795, 0x1798), (0x179B, 0x179D), (0x17A0, 0x17A0), (0x17A2, 0x17A2), (0x17A7, 0x17A7),
    (0x17AB, 0x17AC), (0x17AF, 0x17AF)] c.toNat

/-- Whether a character is a Tifinagh consonant. -/
def isTifinagh (c : Char) : Bool := inRanges [(0x2D31, 0x2D65), (0x2D6F, 0x2D6F)] c.toNat

namespace LigatureEnd

/-- The ligature that a character ends. -/
def ofChar? (c : Char) : Option LigatureEnd :=
  if isAlef c then some .alef
  else if c = '\u05DC' then some (.lamed false)
  else if isKhmerLetter c then some .khmerLetter
  else if c = '\u1A10' then some (.ya false)
  else if isTifinagh c then some (.tifinagh false)
  else if c = '\uA4FC' ∨ c = '\uA4FD' then some .toneLetter
  else if c.toNat = 0x10C03 then some (.orkhonI false)
  else none

/-- The same end with a joiner before it. -/
def join : LigatureEnd → LigatureEnd
  | .lamed _ => .lamed true
  | .ya _ => .ya true
  | .tifinagh _ => .tifinagh true
  | .orkhonI _ => .orkhonI true
  | rest => rest

/-- What a letter adds to the ligature whose end stands behind it, and what it is then to
the letter before it; none if it does not belong to the ligature. -/
def takeLetter? (c : Char) : LigatureEnd → Option (Int × Behind)
  | .alef =>
    if isLam c then some (0, .apart)
    else if isTransparent c then some (0, .ligature .alef)
    else none
  | .lamed true => if c = '\u05D0' then some (0, .apart) else none
  | .khmerLetter => if c = '\u17D2' then some (-1, .apart) else none
  | .ya true => if c = '\u1A17' then some (0, .ligature .vowelSignYa) else none
  | .vowelSignYa => if c = '\u1A15' then some (0, .apart) else none
  | .tifinagh joined =>
    if c = tifinaghJoiner then some (1, .ligature .joinerTifinagh)
    else if joined && isTifinagh c then some (0, .apart)
    else none
  | .joinerTifinagh => if isTifinagh c then some (-1, .apart) else none
  | .toneLetter => if '\uA4F8' ≤ c ∧ c ≤ '\uA4FB' then some (0, .apart) else none
  | .orkhonI true => if c.toNat = 0x10C32 then some (0, .apart) else none
  | _ => none

/-- What a character adds to the ligature whose end stands behind it.  All but the Arabic
ones form across joiners and marks that a display may ignore. -/
def take? (c : Char) (rest : LigatureEnd) : Option (Int × Behind) :=
  if rest ≠ .alef ∧ c = joiner then some (0, .ligature rest.join)
  else if rest ≠ .alef ∧ isIgnorableMark c then some (0, .ligature rest)
  else rest.takeLetter? c

end LigatureEnd

/-! ### Emoji -/

/-- The tags of a flag with one more before them: up to six letters, or three digits
before at most four letters. -/
def FlagTags.take? (c : Char) : FlagTags → Option FlagTags
  | .letters n =>
    if n < 6 ∧ 0xE0061 ≤ c.toNat ∧ c.toNat ≤ 0xE007A then some (.letters (n + 1))
    else if n < 5 ∧ 0xE0030 ≤ c.toNat ∧ c.toNat ≤ 0xE0039 then some (.digits 1)
    else none
  | .digits n =>
    if n < 3 ∧ 0xE0030 ≤ c.toNat ∧ c.toNat ≤ 0xE0039 then some (.digits (n + 1)) else none

/-- Whether tags name a region. -/
def FlagTags.areWhole : FlagTags → Bool
  | .letters n => 3 ≤ n
  | .digits n => n = 3

namespace Behind

/-- What a character adds to the sign that stands behind it, and what it is then to the
character before it; none if it stands apart from it. -/
def take? (c : Char) : Behind → Option (Int × Behind)
  | .apart => none
  | .lineFeed => if c = '\r' then some (0, .apart) else none
  | .ligature rest => rest.take? c
  | .vowelSignE =>
    if c.toNat = 0x16D63 ∨ c.toNat = 0x16D69 then some (0, .apart)
    else if c.toNat = 0x16D67 then some (0, .vowelSignAi)
    else if c.toNat = 0x16D68 then some (1, .vowelSignE)
    else none
  | .vowelSignAi => if c.toNat = 0x16D63 then some (0, .apart) else none
  | .skinTone =>
    if isToneBase c then some (0, .picture)
    else if c = joiner then some (0, .joinedPicture)
    else none
  | .flagLetter => if isFlagLetter c then some (1, .flagLetters) else none
  | .flagLetters =>
    if isFlagLetter c then some (1, .flagLetters)
    else if c = joiner then some (0, .joinedPicture)
    else none
  | .picture => if c = joiner then some (0, .joinedPicture) else none
  | .joinedPicture =>
    if c = '\u20E3' then some (0, .joinedKeycap)
    else if isFlagLetter c then some (1, .joinedFlagLetter)
    else if isSkinTone c then some (0, .skinTone)
    else if c.toNat = 0xE007F then some (0, .joinedTags (.letters 0))
    else if isPicture c then some (0, .picture)
    else none
  | .joinedKeycap => none
  | .joinedFlagLetter => if isFlagLetter c then some (-1, .joinedFlags) else none
  | .joinedFlags =>
    if isFlagLetter c then some (3, .oddFlagLetters)
    else if c = joiner then some (0, .joinedPicture)
    else none
  | .oddFlagLetters =>
    if isFlagLetter c then some (-1, .joinedFlags)
    else if c = joiner then some (0, .joinedPicture)
    else none
  | .joinedTags tags =>
    if c.toNat = 0x1F3F4 ∧ tags.areWhole then some (0, .picture)
    else (tags.take? c).map fun more => (0, .joinedTags more)

/-- The columns of a character that joins nothing behind it, and what it is to the
character before it. -/
def ofChar (c : Char) : Int × Behind :=
  if c.toNat ≤ 0xA0 then (1, if c = '\n' then .lineFeed else .apart)
  else
    (columns c,
      match LigatureEnd.ofChar? c with
      | some rest => .ligature rest
      | none =>
        if c.toNat = 0x16D67 then .vowelSignE
        else if c.toNat = 0x16D68 then .vowelSignAi
        else if isSkinTone c then .skinTone
        else if isFlagLetter c then .flagLetter
        else if isPicture c then .picture
        else .apart)

end Behind

/-! ### Variation selectors -/

/-- The variation selector that a character is. -/
def Selector.ofChar? (c : Char) : Option Selector :=
  if c = '\uFE0E' then some .asText
  else if c = '\uFE0F' then some .asPicture
  else if c = '\uFE01' then some .asWide
  else none

/-- Whether a character is one of the quotation marks that have a full width form. -/
def isQuotationMark (c : Char) : Bool :=
  c = '\u2018' || c = '\u2019' || c = '\u201C' || c = '\u201D'

namespace Context

/-- The text with a selector before it.  Ligatures form across selectors, and a joined
picture takes what a selector makes one. -/
def withSelector (k : Context) (s : Selector) : Context :=
  match k.behind with
  | .ligature _ => ⟨k.behind, some s⟩
  | .joinedPicture | .joinedKeycap => ⟨if s = .asPicture then k.behind else .apart, some s⟩
  | _ => ⟨.apart, some s⟩

/-- The text with its selector passed over, because the character before it does not take
it. -/
def withoutSelector (k : Context) : Context :=
  match k.selector?, k.behind with
  | none, _ => k
  | some _, .ligature rest => ⟨.ligature rest, none⟩
  | some _, _ => {}

/-- What a character adds under the selector behind it; none if it does not take it. -/
def select? (k : Context) (c : Char) : Option (Int × Behind) :=
  match k.selector? with
  | some .asPicture =>
    if hasTwoForms c then
      some (if k.behind = .joinedPicture ∨ k.behind = .joinedKeycap then 0 else 2, .picture)
    else none
  | some .asText => if narrowsAsText c then some (1, .apart) else none
  | some .asWide => if isQuotationMark c then some (2, .apart) else none
  | none => none

/-- What a character adds that is no selector and takes none. -/
def take (k : Context) (c : Char) : Int × Behind := (k.behind.take? c).getD (Behind.ofChar c)

/-- The columns that a character adds to the text behind it, and the text with it. -/
def step (c : Char) (k : Context) : Int × Context :=
  match k.select? c, Selector.ofChar? c with
  | some (n, behind), _ => (n, ⟨behind, none⟩)
  | none, some s =>
    (0, (if k.selector? = some .asPicture then k.withoutSelector else k).withSelector s)
  | none, none =>
    let (n, behind) := k.withoutSelector.take c
    (n, ⟨behind, none⟩)

end Context

/-- The columns of a text, and what it is to a character before it. -/
def measure (cs : List Char) : Int × Context :=
  cs.foldr
    (fun c m =>
      let (n, k) := m.2.step c
      (m.1 + n, k))
    (0, {})

/-- The columns of a text. -/
def width (cs : List Char) : Nat := (measure cs).1.toNat

end KeyedRelations.Text
