/-!
# Comma-separated values

A record is a line of cells between commas.  A cell that holds a comma, a quote or a
line break stands between quotes, and each quote in it is written twice.
-/

namespace KeyedRelations.Text.Csv

/-- Whether a character cannot stand in a cell without quotes. -/
def needsQuotes (c : Char) : Bool := c = ',' || c = '"' || c = '\n' || c = '\r'

/-- A text with every quote written twice. -/
def doubleQuotes : List Char → List Char
  | [] => []
  | c :: rest => if c = '"' then c :: c :: doubleQuotes rest else c :: doubleQuotes rest

/-- A cell as it is written. -/
def cellChars (cs : List Char) : List Char :=
  if cs.any needsQuotes then '"' :: doubleQuotes cs ++ ['"'] else cs

/-- A cell as it is written. -/
def cell (text : String) : String := .ofList (cellChars text.toList)

/-- A record of cells that are written already. -/
def record (cells : List String) : String := ",".intercalate cells ++ "\n"

/-- Records one after the other. -/
def document (records : List (List String)) : String := String.join (records.map record)

end KeyedRelations.Text.Csv
