import KeyedRelations.Text.Printable

/-!
# Quoted text

A text between quotes, as messages show it: the quote, the `\` and the common
controls with a `\` in front, and every character that shows nothing by itself
or extends the one before it by its code point.
-/

namespace KeyedRelations.Text

/-- A code point as messages show it: `\u`, then its lower-case hexadecimal
digits in braces. -/
def codePoint (c : Char) : List Char :=
  ['\\', 'u', '\x7b'] ++ Nat.toDigits 16 c.toNat ++ ['\x7d']

/-- One character inside quotes. -/
def quotedChar (c : Char) : List Char :=
  if c = '\x00' then ['\\', '0']
  else if c = '\t' then ['\\', 't']
  else if c = '\r' then ['\\', 'r']
  else if c = '\n' then ['\\', 'n']
  else if c = '"' then ['\\', '"']
  else if c = '\\' then ['\\', '\\']
  else if isExtender c || !isPrintable c then codePoint c
  else [c]

/-- A text between quotes. -/
def quoted (s : String) : String :=
  .ofList (['"'] ++ s.toList.flatMap quotedChar ++ ['"'])

end KeyedRelations.Text
