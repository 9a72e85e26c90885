/-!
# UTF-8

The bytes of a text, and the text of bytes.  `text?` undoes `utf8` and refuses
bytes that are no UTF-8; `lossyText` never refuses and writes U+FFFD for every
longest piece that cannot be continued to a character.
-/

namespace KeyedRelations.Utf8

/-- The UTF-8 bytes of a text. -/
def bytes (s : String) : List UInt8 := s.toByteArray.data.toList

/-- The text whose UTF-8 bytes these are. -/
def text? (bytes : List UInt8) : Option String :=
  String.fromUTF8? ⟨bytes.toArray⟩

@[simp]
theorem bytes_append (s t : String) : bytes (s ++ t) = bytes s ++ bytes t := by
  simp [bytes]

@[simp]
theorem text?_bytes (s : String) : text? (bytes s) = some s := by
  simp only [text?, bytes, Array.toArray_toList, String.fromUTF8?]
  exact dif_pos s.isValidUTF8

theorem bytes_of_text? {b : List UInt8} {s : String} (h : text? b = some s) : bytes s = b := by
  simp only [text?, String.fromUTF8?] at h
  split at h
  · simp only [Option.some.injEq] at h
    subst h
    simp [bytes, String.fromUTF8]
  · simp at h

/-! ### Reading with replacement -/

/-- Whether a byte continues a character that started before. -/
def isTail (b : UInt8) : Bool := 0x80 ≤ b && b ≤ 0xBF

/-- How many bytes a character starting with `b` has, and which bytes may be
its second; `none` for a byte that starts no character. -/
def lead (b : UInt8) : Option (Nat × UInt8 × UInt8) :=
  if b ≤ 0x7F then some (1, 0x80, 0xBF)
  else if 0xC2 ≤ b ∧ b ≤ 0xDF then some (2, 0x80, 0xBF)
  else if b = 0xE0 then some (3, 0xA0, 0xBF)
  else if b = 0xED then some (3, 0x80, 0x9F)
  else if 0xE1 ≤ b ∧ b ≤ 0xEF then some (3, 0x80, 0xBF)
  else if b = 0xF0 then some (4, 0x90, 0xBF)
  else if 0xF1 ≤ b ∧ b ≤ 0xF3 then some (4, 0x80, 0xBF)
  else if b = 0xF4 then some (4, 0x80, 0x8F)
  else none

/-- The longest piece at the start of `b :: rest` that is a character or could
be continued to one: its bytes after `b`, what is left, and whether it is
complete. -/
def piece (b : UInt8) (rest : List UInt8) : List UInt8 × List UInt8 × Bool :=
  match lead b with
  | none => ([], rest, false)
  | some (1, _) => ([], rest, true)
  | some (n, low, high) =>
    match rest with
    | [] => ([], [], false)
    | second :: _ =>
      if low ≤ second ∧ second ≤ high then
        let tail := (rest.take (n - 1)).takeWhile isTail
        (tail, rest.drop tail.length, tail.length = n - 1)
      else ([], rest, false)

theorem length_piece (b : UInt8) (rest : List UInt8) :
    (piece b rest).2.1.length ≤ rest.length := by
  unfold piece
  repeat' split
  all_goals simp

/-- The text of any bytes, with U+FFFD for each piece that is no character. -/
def lossyText : List UInt8 → String
  | [] => ""
  | b :: rest =>
    let p := piece b rest
    let first := if p.2.2 then (text? (b :: p.1)).getD "\ufffd" else "\ufffd"
    first ++ lossyText p.2.1
termination_by bytes => bytes.length
decreasing_by
  have := length_piece b rest
  simp only [List.length_cons]
  omega

end KeyedRelations.Utf8
