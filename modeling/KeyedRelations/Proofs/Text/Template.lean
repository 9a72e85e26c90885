import Mathlib.Data.List.Basic
import KeyedRelations.Text.Template

/-!
# Filling templates one name after the other

A template can be filled at once, or its written form with one field after the other.  If its holes
stand apart, between words with blanks around the holes, then a field is put into what stands in
each hole by itself (`Apart.putFields_put`).  So filling one after the other leaves in each hole its
own text, into which the fields of later names have been put as well (`putFields_holeChars`).

That is the same as filling at once exactly if no text is changed by the fields of later names
(`Apart.put_eq_put_iff`).  What one hole gains another cannot lose: a text that gave up a part with
a blank at its edge would have to do so again, in what is left of it, without end
(`SplitsAtBlanks.eq_nil_of_around`).
-/

namespace KeyedRelations.Text

/-- A text with one field put wherever its hole stands. -/
def putField (cs : List Char) (field : String × String) : List Char :=
  replaceChars '\x7b' (field.1.toList ++ ['\x7d']) field.2.toList cs

/-- A text with one field put in after the other. -/
def putFields (cs : List Char) (fields : Fields) : List Char := fields.foldl putField cs

theorem fillWritten_ofList (cs : List Char) (fields : Fields) :
    fillWritten (.ofList cs) fields = .ofList (putFields cs fields) := by
  induction fields generalizing cs with
  | nil => rfl
  | cons f rest ih =>
      rw [fillWritten, List.foldl_cons, String.toList_ofList]
      exact ih _

theorem fillWritten_eq (text : String) (fields : Fields) :
    fillWritten text fields = .ofList (putFields text.toList fields) := by
  rw [← fillWritten_ofList, String.ofList_toList]

/-! ### Replacing -/

section Replacing

variable {old : Char} {olds new a b : List Char}

/-- A prefix does not reach behind a character that it lacks. -/
theorem isPrefix_of_isPrefix_append (hb : ∀ c, b.head? = some c → c ∉ olds)
    (h : olds <+: a ++ b) : olds <+: a := by
  induction a generalizing olds with
  | nil =>
      cases olds with
      | nil => exact List.nil_prefix
      | cons o olds =>
          cases b with
          | nil => simp at h
          | cons c b =>
              obtain ⟨rfl, -⟩ := List.cons_prefix_cons.mp h
              exact (hb o rfl List.mem_cons_self).elim
  | cons x a ih =>
      cases olds with
      | nil => exact List.nil_prefix
      | cons o olds =>
          obtain ⟨rfl, hrest⟩ := List.cons_prefix_cons.mp h
          have hrest := ih (fun c hc hmem => hb c hc (List.mem_cons_of_mem _ hmem)) hrest
          exact List.cons_prefix_cons.mpr ⟨rfl, hrest⟩

/-- Nothing is replaced across a character that what is replaced does not hold. -/
theorem replaceChars_append (hb : ∀ c, b.head? = some c → c ∉ olds) :
    replaceChars old olds new (a ++ b) =
      replaceChars old olds new a ++ replaceChars old olds new b := by
  fun_induction replaceChars old olds new a with
  | case1 => rfl
  | case2 c rest h ih =>
      obtain ⟨rfl, hrest⟩ := h
      have hrest := List.isPrefixOf_iff_prefix.mp hrest
      have hall : olds.isPrefixOf (rest ++ b) = true :=
        List.isPrefixOf_iff_prefix.mpr (hrest.trans (List.prefix_append rest b))
      rw [List.cons_append, replaceChars, if_pos ⟨rfl, hall⟩,
        List.drop_append_of_le_length hrest.length_le, ih, List.append_assoc]
  | case3 c rest h ih =>
      have hnot : ¬ (c = old ∧ olds.isPrefixOf (rest ++ b) = true) := by
        rintro ⟨rfl, hall⟩
        have hrest := isPrefix_of_isPrefix_append hb (List.isPrefixOf_iff_prefix.mp hall)
        exact h ⟨rfl, List.isPrefixOf_iff_prefix.mpr hrest⟩
      rw [List.cons_append, replaceChars, if_neg hnot, ih, List.cons_append]

/-- Nothing is replaced where it could not start. -/
theorem replaceChars_append_of_not_mem (ha : old ∉ a) :
    replaceChars old olds new (a ++ b) = a ++ replaceChars old olds new b := by
  induction a with
  | nil => rfl
  | cons c rest ih =>
      have hne : c ≠ old := fun heq => ha (heq ▸ List.mem_cons_self)
      rw [List.cons_append, replaceChars, if_neg fun h => hne h.1,
        ih fun hmem => ha (List.mem_cons_of_mem _ hmem), List.cons_append]

theorem replaceChars_of_not_mem (ha : old ∉ a) : replaceChars old olds new a = a := by
  have h : replaceChars old olds new (a ++ []) = a ++ replaceChars old olds new [] :=
    replaceChars_append_of_not_mem ha
  rwa [replaceChars, List.append_nil] at h

theorem replaceChars_self (old : Char) (olds new : List Char) :
    replaceChars old olds new (old :: olds) = new := by
  rw [replaceChars, if_pos ⟨rfl, List.isPrefixOf_iff_prefix.mpr (List.prefix_refl olds)⟩,
    List.drop_length, replaceChars, List.append_nil]

end Replacing

/-! ### Names -/

/-- Names without blanks and braces. -/
def IsPlain (name : String) : Prop :=
  ' ' ∉ name.toList ∧ '\x7b' ∉ name.toList ∧ '\x7d' ∉ name.toList

variable {f : String × String} {fields : Fields}

/-- A text is found under its name if names are different. -/
theorem field?_of_mem (h : (fields.map (·.1)).Nodup) (hf : f ∈ fields) :
    field? fields f.1 = some f.2 := by
  induction fields with
  | nil => simp at hf
  | cons g rest ih =>
      obtain ⟨hnew, hrest⟩ := List.nodup_cons.mp h
      rcases List.mem_cons.mp hf with rfl | hmem
      · simp [field?]
      · have hne : g.1 ≠ f.1 := fun heq => hnew (List.mem_map.mpr ⟨f, hmem, heq.symm⟩)
        rw [field?, List.find?_cons_of_neg (by simpa using hne)]
        exact ih hrest hmem

theorem putField_holeChars_self (name text : String) :
    putField (holeChars name) (name, text) = text.toList :=
  replaceChars_self _ _ _

/-- A field leaves the holes of other names alone. -/
theorem putField_holeChars_of_ne {name : String} (hname : IsPlain name) (hne : f.1 ≠ name) :
    putField (holeChars name) f = holeChars name := by
  have hnot : ¬ f.1.toList ++ ['\x7d'] <+: name.toList ++ ['\x7d'] := by
    intro hstart
    rcases List.prefix_concat_iff.mp hstart with heq | hstart
    · exact hne (String.toList_inj.mp (List.append_cancel_right heq))
    · exact hname.2.2 (hstart.subset (by simp))
  have hbrace : '\x7b' ∉ name.toList ++ ['\x7d'] := by simpa using hname.2.1
  rw [putField, holeChars, List.cons_append, replaceChars, if_neg, replaceChars_of_not_mem hbrace]
  rintro ⟨-, hstart⟩
  exact hnot (List.isPrefixOf_iff_prefix.mp hstart)

/-- A field is put into the two sides of a blank. -/
theorem putField_append (hf : IsPlain f.1) {a b : List Char}
    (hb : ∀ c, b.head? = some c → c = ' ') :
    putField (a ++ b) f = putField a f ++ putField b f := by
  refine replaceChars_append fun c hc hmem => ?_
  obtain rfl := hb c hc
  rcases List.mem_append.mp hmem with hmem | hmem
  · exact hf.1 hmem
  · simp at hmem

/-- **One field after the other**: in the hole of a name stands its text, with the fields of later
names put into it. -/
theorem putFields_holeChars (hascending : fields.Pairwise (·.1 < ·.1)) (hf : f ∈ fields)
    (hplain : IsPlain f.1) :
    putFields (holeChars f.1) fields = putFields f.2.toList (fields.filter (f.1 < ·.1)) := by
  induction fields with
  | nil => simp at hf
  | cons g rest ih =>
      obtain ⟨hbehind, hrest⟩ := List.pairwise_cons.mp hascending
      rw [putFields, List.foldl_cons, ← putFields]
      rcases List.mem_cons.mp hf with rfl | hmem
      · have hall : rest.filter (f.1 < ·.1) = rest :=
          List.filter_eq_self.mpr fun x hx => decide_eq_true (hbehind x hx)
        rw [List.filter_cons_of_neg (by simp), hall, putField_holeChars_self]
      · have hlt := hbehind f hmem
        have hne : g.1 ≠ f.1 := fun heq => String.lt_irrefl f.1 (heq ▸ hlt)
        have hnot : ¬ f.1 < g.1 := fun hgt => String.lt_irrefl f.1 (String.lt_trans hgt hlt)
        rw [putField_holeChars_of_ne hplain hne, ih hrest hmem,
          List.filter_cons_of_neg (by simpa using hnot)]

/-- Where no hole can start nothing is put in. -/
theorem putFields_of_not_mem {cs : List Char} (h : '\x7b' ∉ cs) : putFields cs fields = cs := by
  induction fields with
  | nil => rfl
  | cons f rest ih =>
      rw [putFields, List.foldl_cons, putField, replaceChars_of_not_mem h]
      exact ih

/-! ### Templates -/

/-- A piece with the text for its hole. -/
def Piece.put (texts : String → List Char) : Piece → List Char
  | .words w => w.toList
  | .hole name => texts name

namespace Template

/-- What a template shows with a text for every name. -/
def put (t : Template) (texts : String → List Char) : List Char := t.flatMap (Piece.put texts)

/-- The names of the holes, in order. -/
def holes (t : Template) : List String :=
  t.filterMap fun
    | .words _ => none
    | .hole name => some name

end Template

/-- Whether two pieces may stand one behind the other: between words and a hole is a blank, and
between two holes are words. -/
def Piece.Apart : Piece → Piece → Prop
  | .words _, .words _ => True
  | .words w, .hole _ => w.toList.getLast? = some ' '
  | .hole _, .words w => w.toList.head? = some ' '
  | .hole _, .hole _ => False

/-- Templates whose holes stand apart, with no braces besides. -/
structure Template.Apart (t : Template) : Prop where
  braceless : ∀ w, .words w ∈ t → '\x7b' ∉ w.toList
  chain : t.IsChain Piece.Apart

namespace Template

variable {t : Template} {texts texts' : String → List Char}

theorem written_eq (t : Template) : t.written = .ofList (t.put holeChars) := by
  have hpiece : Piece.written = Piece.put holeChars := by
    funext p
    cases p <;> rfl
  rw [written, hpiece, put]

theorem put_congr (h : ∀ name ∈ t.holes, texts name = texts' name) :
    t.put texts = t.put texts' := by
  rw [put, put, List.flatMap_congr]
  intro p hp
  cases p with
  | words w => rfl
  | hole name => exact h name (List.mem_filterMap.mpr ⟨_, hp, rfl⟩)

/-- Filling at once puts the text of its name into every hole. -/
theorem fill_eq (h : ∀ name ∈ t.holes, (field? fields name).map String.toList = some (texts name)) :
    t.fill fields = .ofList (t.put texts) := by
  have hpiece : Piece.fill fields = Piece.put fun name =>
      ((field? fields name).map String.toList).getD (holeChars name) := by
    funext p
    cases p <;> rfl
  rw [fill, hpiece, ← put, put_congr fun name hname => ?_]
  rw [h name hname, Option.getD_some]

/-- Behind a hole is a blank or nothing. -/
theorem Apart.blank {name : String} (h : Apart (.hole name :: t)) (texts : String → List Char) :
    ∀ c, (t.put texts).head? = some c → c = ' ' := by
  intro c hc
  cases t with
  | nil => simp [put] at hc
  | cons p rest =>
      have hp := (List.isChain_cons_cons.mp h.chain).1
      cases p with
      | hole _ => exact hp.elim
      | words w =>
          have hblank : w.toList.head? = some ' ' := hp
          rw [put, List.flatMap_cons, Piece.put, List.head?_append, hblank] at hc
          exact (Option.some.inj hc).symm

theorem Apart.tail {p : Piece} (h : Apart (p :: t)) : t.Apart :=
  ⟨fun w hw => h.braceless w (List.mem_cons_of_mem _ hw), h.chain.of_cons⟩

/-- A field is put into what stands in each hole. -/
theorem Apart.putField_put (h : t.Apart) (hf : IsPlain f.1) (texts : String → List Char) :
    putField (t.put texts) f = t.put fun name => putField (texts name) f := by
  induction t with
  | nil => simp [put, putField, replaceChars]
  | cons p rest ih =>
      have hrest := ih h.tail
      cases p with
      | words w =>
          have hw := h.braceless w List.mem_cons_self
          rw [put, List.flatMap_cons, ← put, putField, Piece.put,
            replaceChars_append_of_not_mem hw, ← putField, hrest]
          rfl
      | hole name =>
          have hblank := h.blank texts
          rw [put, List.flatMap_cons, ← put, putField_append hf hblank, hrest]
          rfl

theorem Apart.putFields_put (h : t.Apart) (hfields : ∀ f ∈ fields, IsPlain f.1)
    (texts : String → List Char) :
    putFields (t.put texts) fields = t.put fun name => putFields (texts name) fields := by
  induction fields generalizing texts with
  | nil => rfl
  | cons f rest ih =>
      obtain ⟨hf, hrest⟩ := List.forall_mem_cons.mp hfields
      rw [putFields, List.foldl_cons, ← putFields, h.putField_put hf, ih hrest]
      rfl

end Template

/-! ### Texts that are changed -/

/-- Texts that a blank sets off from what stands behind them. -/
def EndsInBlank (a : List Char) : Prop := a = [] ∨ ∃ x, a = x ++ [' ']

/-- Texts that a blank sets off from what stands in front of them. -/
def StartsWithBlank (b : List Char) : Prop := b = [] ∨ ∃ x, b = ' ' :: x

theorem startsWithBlank_of_head? {b : List Char} (h : ∀ c, b.head? = some c → c = ' ') :
    StartsWithBlank b := by
  cases b with
  | nil => exact Or.inl rfl
  | cons c x => exact Or.inr ⟨x, by rw [h c rfl]⟩

/-- What moves from the front of words to behind them ends as the words do. -/
theorem endsInBlank_of_append_eq {w a b : List Char} (hw : w.getLast? = some ' ')
    (h : a ++ w = w ++ b) : EndsInBlank b := by
  rcases List.eq_nil_or_concat b with rfl | ⟨x, c, rfl⟩
  · exact Or.inl rfl
  · have hend := congrArg List.getLast? h
    simp [hw] at hend
    exact Or.inr ⟨x, by rw [List.concat_eq_append, hend]⟩

/-- Whether a change of texts works apart on the two sides of a blank. -/
def SplitsAtBlanks (change : List Char → List Char) : Prop :=
  ∀ a b, change (a ++ ' ' :: b) = change a ++ ' ' :: change b

theorem splitsAtBlanks_putFields (hfields : ∀ f ∈ fields, IsPlain f.1) :
    SplitsAtBlanks (putFields · fields) := by
  intro a b
  induction fields generalizing a b with
  | nil => rfl
  | cons f rest ih =>
      obtain ⟨hf, hrest⟩ := List.forall_mem_cons.mp hfields
      have hblank : putField (' ' :: b) f = ' ' :: putField b f :=
        replaceChars_append_of_not_mem (a := [' ']) (by decide)
      have hsides : putField (a ++ ' ' :: b) f = putField a f ++ ' ' :: putField b f := by
        rw [putField_append hf (by simp), hblank]
      simp only [putFields, List.foldl_cons, hsides]
      exact ih hrest _ _

namespace SplitsAtBlanks

variable {change : List Char → List Char}

/-- What stands in front of a blank is changed by itself. -/
theorem front (h : SplitsAtBlanks change) {a : List Char} (ha : EndsInBlank a) :
    ∃ a', EndsInBlank a' ∧ (a' = [] → a = []) ∧
      ∀ text, change (a ++ text) = a' ++ change text := by
  rcases ha with rfl | ⟨x, rfl⟩
  · exact ⟨[], Or.inl rfl, fun _ => rfl, fun _ => rfl⟩
  · refine ⟨change x ++ [' '], Or.inr ⟨_, rfl⟩, by simp, fun text => ?_⟩
    rw [List.append_assoc, List.append_assoc]
    exact h x text

/-- What stands behind a blank is changed by itself. -/
theorem back (h : SplitsAtBlanks change) {b : List Char} (hb : StartsWithBlank b) :
    ∃ b', StartsWithBlank b' ∧ (b' = [] → b = []) ∧
      ∀ text, change (text ++ b) = change text ++ b' := by
  rcases hb with rfl | ⟨x, rfl⟩
  · exact ⟨[], Or.inl rfl, fun _ => rfl, fun _ => by simp⟩
  · exact ⟨' ' :: change x, Or.inr ⟨_, rfl⟩, by simp, fun text => h text x⟩

/-- **A text is not its own change with more around it**, set off by blanks: the change would in
turn be its own change with more around it, and so on without end. -/
theorem eq_nil_of_around (h : SplitsAtBlanks change) {text a b : List Char}
    (htext : text = a ++ change text ++ b) (ha : EndsInBlank a) (hb : StartsWithBlank b) :
    a = [] ∧ b = [] := by
  induction hn : text.length using Nat.strongRecOn generalizing text a b with
  | ind n ih =>
      by_cases hnone : a = [] ∧ b = []
      · exact hnone
      obtain ⟨a', ha', hnila, hfront⟩ := h.front ha
      obtain ⟨b', hb', hnilb, hback⟩ := h.back hb
      have hchange : change text = a' ++ change (change text) ++ b' := by
        calc change text = change (a ++ change text ++ b) := congrArg change htext
          _ = a' ++ change (change text) ++ b' := by rw [hback, hfront]
      have hlength : (change text).length < n := by
        have hsum := congrArg List.length htext
        rw [List.length_append, List.length_append, hn] at hsum
        have hsome : 0 < a.length + b.length := by
          simp only [← List.length_eq_zero_iff] at hnone
          omega
        omega
      obtain ⟨hnil, hnil'⟩ := ih _ hlength hchange ha' hb' rfl
      exact ⟨hnila hnil, hnilb hnil'⟩

end SplitsAtBlanks

namespace Template

variable {t : Template} {texts : String → List Char} {change : String → List Char → List Char}

/-- Words with something in front start with the words, and what is left of them moves behind. -/
theorem exists_shift {w a x y : List Char} (heq : w ++ x = (a ++ w) ++ y) :
    ∃ b, a ++ w = w ++ b ∧ x = b ++ y := by
  rcases List.append_eq_append_iff.mp heq with h | ⟨b, hb, hy⟩
  · exact h
  · have hlength := congrArg List.length hb
    simp only [List.length_append] at hlength
    obtain rfl : b = [] := List.length_eq_zero_iff.mp (by omega)
    exact ⟨[], by simpa using hb.symm, hy.symm⟩

/-- If the texts of a template are changed and more is put in front, all comes out as before only
if nothing was put in front and no text was changed. -/
theorem Apart.eq_of_put_eq (h : t.Apart) (hchange : ∀ name, SplitsAtBlanks (change name))
    {a : List Char} (heq : t.put texts = a ++ t.put fun name => change name (texts name))
    (ha : ∀ name rest, t = .hole name :: rest → EndsInBlank a) :
    a = [] ∧ ∀ name ∈ t.holes, change name (texts name) = texts name := by
  induction t generalizing a with
  | nil =>
      have ha : a = [] := by simpa [put] using heq.symm
      exact ⟨ha, by simp [holes]⟩
  | cons p rest ih =>
      have ih := @ih h.tail
      cases p with
      | words w =>
          have hwords : w.toList ++ put rest texts =
              (a ++ w.toList) ++ put rest fun name => change name (texts name) := by
            simpa [put, Piece.put] using heq
          obtain ⟨b, hb, hrest⟩ := exists_shift hwords
          have hblank : ∀ name more, rest = .hole name :: more → EndsInBlank b := by
            rintro name more rfl
            exact endsInBlank_of_append_eq (List.isChain_cons_cons.mp h.chain).1 hb
          obtain ⟨rfl, hholes⟩ := ih hrest hblank
          exact ⟨by simpa using hb, fun name hname => hholes name (by simpa [holes] using hname)⟩
      | hole name =>
          have hhole : texts name ++ put rest texts =
              (a ++ change name (texts name)) ++ put rest fun name => change name (texts name) := by
            simpa [put, Piece.put] using heq
          have ha := ha name rest rfl
          suffices hsame : a = [] ∧ change name (texts name) = texts name ∧
              ∀ name ∈ holes rest, change name (texts name) = texts name from
            ⟨hsame.1, List.forall_mem_cons.mpr hsame.2⟩
          rcases List.append_eq_append_iff.mp hhole with ⟨b, hb, hrest⟩ | ⟨b, hb, hrest⟩
          · -- the text takes more room than before, and the rest is put further back
            have hnohole : ∀ name' more, rest = .hole name' :: more → EndsInBlank b := by
              rintro name' more rfl
              exact (List.isChain_cons_cons.mp h.chain).1.elim
            obtain ⟨rfl, hholes⟩ := ih hrest hnohole
            have htext : texts name = a ++ change name (texts name) ++ [] := by simpa using hb.symm
            obtain ⟨rfl, -⟩ := (hchange name).eq_nil_of_around htext ha (Or.inl rfl)
            exact ⟨rfl, by simpa using htext.symm, hholes⟩
          · -- the text holds its change, and what stands behind that starts with a blank
            have hblank : StartsWithBlank b := startsWithBlank_of_head? fun c hc =>
              h.blank (fun name => change name (texts name)) c (by simp [hrest, hc])
            obtain ⟨rfl, rfl⟩ := (hchange name).eq_nil_of_around hb ha hblank
            obtain ⟨-, hholes⟩ := ih (a := []) hrest.symm fun _ _ _ => Or.inl rfl
            exact ⟨rfl, by simpa using hb.symm, hholes⟩

/-- **Texts do not shift between holes.**  If the texts of a template are changed, each apart on
the two sides of every blank, then all comes out as before exactly if no text is changed. -/
theorem Apart.put_eq_put_iff (h : t.Apart) (hchange : ∀ name, SplitsAtBlanks (change name)) :
    t.put (fun name => change name (texts name)) = t.put texts ↔
      ∀ name ∈ t.holes, change name (texts name) = texts name := by
  constructor
  · intro heq
    exact (h.eq_of_put_eq hchange (a := []) heq.symm fun _ _ _ => Or.inl rfl).2
  · exact put_congr

end Template

end KeyedRelations.Text
