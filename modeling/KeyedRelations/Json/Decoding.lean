import KeyedRelations.Json.Reader
import KeyedRelations.Json.Printer
import KeyedRelations.Text.Quoted

/-!
# Decoding JSON

A decoder takes a document to a value of another type, or says why the document
has the wrong shape.  Shapes are checked in the order of the document; a field
that is missing is noticed at the end of its record.

A **record** is written as an object, where unknown members are passed over, or
as an array of its fields in order, where trailing fields that have a default
may be left out.

The reason of a failure is given only for a document that is readable
throughout; a text that is no readable document is just malformed.
-/

namespace KeyedRelations.Json

/-- What stands where something else is expected. -/
inductive Found where
  | null
  | bool (b : Bool)
  | integer (i : Int)
  | real (f : Float)
  | text (s : String)
  | sequence
  | map
  deriving Repr

/-- What is expected at a place of a document. -/
inductive Expected where
  | text
  | sequence
  | map
  | unit
  /-- An unsigned integer of 64 bits. -/
  | word
  | record (name : String)
  deriving Repr

/-- Why a document has the wrong shape. -/
inductive Mismatch where
  | wrongType (found : Found) (expected : Expected)
  | wrongValue (found : Found) (expected : Expected)
  | missing (field : String)
  | duplicate (field : String)
  | unknownVariant (name : String) (first second : String)
  /-- None of the alternatives of the named type. -/
  | noAlternative (type : String)
  /-- A record written as an array that ends before a field without default. -/
  | tooShort (length : Nat) (record : String) (fields : Nat)
  /-- A record written as an array with further items. -/
  | tooLong
  /-- Something other than the name of a variant. -/
  | noVariant
  /-- A string without text or a number without value. -/
  | unreadable
  deriving Repr

/-- What stands in a document, to be named in a message. -/
def Found.message : Found → String
  | .null => "null"
  | .bool b => "boolean `" ++ (if b then "true" else "false") ++ "`"
  | .integer i => "integer `" ++ toString i ++ "`"
  | .real f => "floating point `" ++ (Json.real f).compact ++ "`"
  | .text s => "string " ++ Text.quoted s
  | .sequence => "sequence"
  | .map => "map"

/-- What is expected, to be named in a message. -/
def Expected.message : Expected → String
  | .text => "a string"
  | .sequence => "a sequence"
  | .map => "a map"
  | .unit => "unit"
  | .word => "u64"
  | .record name => "struct " ++ name

/-- The message of a mismatch. -/
def Mismatch.message : Mismatch → String
  | .wrongType found expected =>
    "invalid type: " ++ found.message ++ ", expected " ++ expected.message
  | .wrongValue found expected =>
    "invalid value: " ++ found.message ++ ", expected " ++ expected.message
  | .missing field => "missing field `" ++ field ++ "`"
  | .duplicate field => "duplicate field `" ++ field ++ "`"
  | .unknownVariant name first second =>
    "unknown variant `" ++ name ++ "`, expected `" ++ first ++ "` or `" ++ second ++ "`"
  | .noAlternative type => "data did not match any variant of untagged enum " ++ type
  | .tooShort length record fields =>
    "invalid length " ++ toString length ++ ", expected struct " ++ record ++ " with "
      ++ toString fields ++ " elements"
  | .tooLong => "trailing characters"
  | .noVariant => "expected value"
  | .unreadable => "unreadable value"

/-- A decoder's answer. -/
abbrev Decoded (α : Type) := Except Mismatch α

/-- What a document is, as far as it can be read. -/
def found : Json → Option Found
  | .null => some .null
  | .bool b => some (.bool b)
  | .number n =>
    match n.value? with
    | some (.natural n) => some (.integer n.toNat)
    | some (.negative i) => some (.integer i.toInt)
    | some (.real f) => some (.real f)
    | none => none
  | .string s => s.map .text
  | .array _ => some .sequence
  | .object _ => some .map

/-- The mismatch of a document that is not what is expected. -/
def notA (expected : Expected) (j : Json) : Mismatch :=
  match j.found with
  | some found => .wrongType found expected
  | none => .unreadable

/-! ### Simple decoders -/

/-- A text. -/
def asText : Json → Decoded String
  | .string (some s) => .ok s
  | j => .error (notA .text j)

/-- An unsigned integer of 64 bits. -/
def asWord (j : Json) : Decoded UInt64 :=
  match j with
  | .number n =>
    match n.value? with
    | some (.natural n) => .ok n
    | some (.negative i) => .error (.wrongValue (.integer i.toInt) .word)
    | _ => .error (notA .word j)
  | _ => .error (notA .word j)

/-- Null or what another decoder takes. -/
def asOption {α : Type} (dec : Json → Decoded α) : Json → Decoded (Option α)
  | .null => .ok none
  | j => (dec j).map some

/-- Every item of a list by one decoder, in order. -/
def decodeItems {α : Type} (dec : Json → Decoded α) : List Json → Decoded (List α)
  | [] => .ok []
  | j :: rest => do
    let a ← dec j
    let as ← decodeItems dec rest
    return a :: as

/-- A sequence whose items are all taken by one decoder. -/
def asSequence {α : Type} (dec : Json → Decoded α) : Json → Decoded (List α)
  | .array items => decodeItems dec items
  | j => .error (notA .sequence j)

/-- The names of members with their values by one decoder, in order. -/
def decodeMembers {α : Type} (dec : Json → Decoded α) :
    List (Option String × Json) → Decoded (List (String × α))
  | [] => .ok []
  | (none, _) :: _ => .error .unreadable
  | (some name, j) :: rest => do
    let a ← dec j
    let as ← decodeMembers dec rest
    return (name, a) :: as

/-- A map from names, whose values are all taken by one decoder. -/
def asMap {α : Type} (dec : Json → Decoded α) : Json → Decoded (List (String × α))
  | .object members => decodeMembers dec members
  | j => .error (notA .map j)

/-! ### Records -/

/-- A field of a record: its name, and whether a document is right for it. -/
structure Field where
  name : String
  check : Json → Decoded Unit

/-- The field whose values are taken by a decoder. -/
def Field.of {α : Type} (name : String) (dec : Json → Decoded α) : Field :=
  ⟨name, fun j => (dec j).map fun _ => ()⟩

/-- Checks the members of a written record in their order, where the fields in
`seen` have already come. -/
def checkMembers (fields : List Field) (seen : List String) :
    List (Option String × Json) → Decoded Unit
  | [] => .ok ()
  | (none, _) :: _ => .error .unreadable
  | (some name, j) :: rest =>
    match fields.find? (·.name = name) with
    | none => checkMembers fields seen rest
    | some field =>
      if seen.contains name then .error (.duplicate name)
      else do
        field.check j
        checkMembers fields (name :: seen) rest

/-- The two ways to write a record. -/
inductive Source where
  | members (members : List (Option String × Json))
  | items (items : List Json)

/-- What stands for the field of a given name and place. -/
def Source.find? (s : Source) (name : String) (place : Nat) : Option Json :=
  match s with
  | .members ms => (ms.find? (·.1 = some name)).map (·.2)
  | .items js => js[place]?

/-- The shape of a record: its name and its fields in order. -/
structure Shape where
  name : String
  fields : List Field

/-- The value of a field that must be there. -/
def Shape.required {α : Type} (shape : Shape) (s : Source) (name : String) (place : Nat)
    (dec : Json → Decoded α) : Decoded α :=
  match s.find? name place with
  | some j => dec j
  | none =>
    match s with
    | .members _ => .error (.missing name)
    | .items items => .error (.tooShort items.length shape.name shape.fields.length)

/-- The value of a field that has a default. -/
def Source.optional {α : Type} (s : Source) (name : String) (place : Nat)
    (dec : Json → Decoded α) (default : α) : Decoded α :=
  match s.find? name place with
  | some j => dec j
  | none => .ok default

/-- A record of a given shape, put together by `build` from what stands for its
fields. -/
def Shape.decode {α : Type} (shape : Shape) (build : Source → Decoded α) : Json → Decoded α
  | .object members => do
    checkMembers shape.fields [] members
    build (.members members)
  | .array items => do
    let a ← build (.items items)
    if items.length > shape.fields.length then .error .tooLong else .ok a
  | j => .error (notA (.record shape.name) j)

/-! ### Whole texts -/

/-- Why a text cannot be decoded. -/
inductive Failure where
  /-- The text is no readable document. -/
  | malformed (place : Position)
  /-- The document has the wrong shape. -/
  | mismatch (reason : Mismatch) (place : Position)
  deriving Repr

/-- The place of a failure.  A wrong shape is noticed behind the document. -/
def Failure.place : Failure → Position
  | .malformed place => place
  | .mismatch _ place => place

/-- The reason of a failure, without its place. -/
def Failure.reason? : Failure → Option String
  | .malformed _ => none
  | .mismatch reason _ => some reason.message

/-- The message of a failure with its place. -/
def Failure.message (f : Failure) : String :=
  f.reason?.getD "malformed document" ++ " at line " ++ toString f.place.line ++ " column "
    ++ toString f.place.column

/-- Reads a text and decodes the document. -/
def decode {α : Type} (dec : Json → Decoded α) (text : String) : Except Failure α :=
  match read text with
  | .error place => .error (.malformed place)
  | .ok j =>
    match dec j with
    | .ok a => .ok a
    | .error reason =>
      let place := Position.behind text.toList
      if j.isReadable then .error (.mismatch reason place) else .error (.malformed place)

end KeyedRelations.Json
