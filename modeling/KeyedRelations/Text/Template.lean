/-!
# Message templates

A template is text with named holes.  `Template.fill` puts a text into every
hole at once.  In the **written form** of a template the name of a hole stands in
braces, and `fillWritten` replaces one name after the other in the text as it is
by then, so that what was put in for one name is searched for the next.
-/

namespace KeyedRelations.Text

/-- A piece of a template. -/
inductive Piece where
  | words (text : String)
  /-- A place for the text of a given name. -/
  | hole (name : String)
  deriving DecidableEq, Repr

/-- Text with named holes. -/
abbrev Template := List Piece

/-- Texts by name. -/
abbrev Fields := List (String × String)

/-- The text of a name, if it has one. -/
def field? (fields : Fields) (name : String) : Option String :=
  (fields.find? (·.1 = name)).map (·.2)

/-- A hole in the written form of a template. -/
def holeChars (name : String) : List Char := '\x7b' :: name.toList ++ ['\x7d']

/-- The written form of one piece. -/
def Piece.written : Piece → List Char
  | .words text => text.toList
  | .hole name => holeChars name

/-- The written form of a template. -/
def Template.written (t : Template) : String := .ofList (t.flatMap Piece.written)

/-- One piece with the text for its hole; a hole without one stays as it is. -/
def Piece.fill (fields : Fields) : Piece → List Char
  | .words text => text.toList
  | .hole name => ((field? fields name).map String.toList).getD (holeChars name)

/-- The template with a text in every hole. -/
def Template.fill (t : Template) (fields : Fields) : String :=
  .ofList (t.flatMap (Piece.fill fields))

/-- Replaces every occurrence of `old :: olds`, found from left to right, in a text. -/
def replaceChars (old : Char) (olds new : List Char) : List Char → List Char
  | [] => []
  | c :: rest =>
    if c = old ∧ olds.isPrefixOf rest then new ++ replaceChars old olds new (rest.drop olds.length)
    else c :: replaceChars old olds new rest
termination_by text => text.length
decreasing_by
  · exact Nat.lt_succ_of_le (List.length_drop ▸ Nat.sub_le _ _)
  · exact Nat.lt_succ_self _

/-- A written form with one name after the other replaced, in the order of the fields. -/
def fillWritten (written : String) (fields : Fields) : String :=
  fields.foldl (fun text field =>
    .ofList (replaceChars '\x7b' (field.1.toList ++ ['\x7d']) field.2.toList text.toList)) written

end KeyedRelations.Text
