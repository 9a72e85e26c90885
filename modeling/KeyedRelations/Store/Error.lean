import KeyedRelations.Store.Duration
import KeyedRelations.Text.Quoted

/-!
# Errors of a store

Why a store command, or getting a handle to send it through, can fail.
-/

namespace KeyedRelations

/-- A failure to write or read a data format, with its reason. -/
inductive FormatError where
  | encoding (reason : String)
  | decoding (reason : String)
  | invalidMessage (reason : String)
  deriving DecidableEq, Repr

/-- The message of a format error. -/
def FormatError.message : FormatError → String
  | .encoding reason => "serialization error: " ++ reason
  | .decoding reason => "deserialization error: " ++ reason
  | .invalidMessage reason => "invalid message: " ++ reason

/-- A failure of a store. -/
inductive StoreError where
  /-- The database below a store fails.  The trees of the embedded store never do. -/
  | database (reason : String)
  /-- A stored value cannot be decoded. -/
  | codec (e : FormatError)
  /-- A definition cannot be written or read. -/
  | serialization (reason : String)
  /-- A container key holds the separator. -/
  | invalidKey (key : String)
  /-- An entry breaks the store's own layout. -/
  | corrupt (key : String)
  /-- A scan goes on from a cursor that is not open. -/
  | unknownCursor (cursor : Nat)
  /-- No handle became free in time. -/
  | acquireTimeout (waited : Duration)
  | unavailable (reason : String)
  /-- A scan was given up because it did not end within the bound set for it. -/
  | endlessScan
  deriving DecidableEq, Repr

/-- The message of a store error. -/
def StoreError.message : StoreError → String
  | .database reason => "sled error: " ++ reason
  | .codec e => "codec error: " ++ e.message
  | .serialization reason => "serialization error: " ++ reason
  | .invalidKey key => "invalid key: " ++ Text.quoted key
  | .corrupt key => "corrupt entry under " ++ Text.quoted key
  | .unknownCursor cursor => "unknown scan cursor " ++ toString cursor
  | .acquireTimeout waited => "timed out after " ++ waited.text ++ " waiting for a store handle"
  | .unavailable reason => "store unavailable: " ++ reason
  | .endlessScan => "scan does not end"

end KeyedRelations
