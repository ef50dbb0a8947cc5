import StreamControl.Double.Text
import StreamControl.Text.Quoted

/-!
# Why a document is refused

A document is read in one pass and the first fault met on the way is the one reported.  Either the
text ends too early, or it is not well formed, or it is well formed so far but does not describe the
wanted thing; only the last kind carries a message.
-/

namespace StreamControl.Json

/-- What stands in the document where something else was wanted. -/
inductive Found
  | null
  | boolean (b : Bool)
  | integer (n : Int)
  | real (x : Double)
  | string (s : String)
  | sequence
  | map
deriving DecidableEq, Repr

/-- A well-formed document that does not describe the wanted thing. -/
inductive Mismatch
  /-- A value of another kind. -/
  | wrongType (found : Found) (wanted : String)
  /-- An integer outside the wanted range. -/
  | outOfRange (n : Int) (wanted : String)
  /-- A record without a required member. -/
  | missingField (key : String)
  /-- A record that names a member twice. -/
  | duplicateField (key : String)
  /-- A record written as an array that ends before its required member number `index`. -/
  | tooShort (index : Nat) (record : String) (size : Nat)
  /-- A name outside a fixed choice of names. -/
  | unknownVariant (name : String) (choice : List String)
  /-- An array or an object in the place of a column value. -/
  | notAValue
  /-- An integer outside the table of reply codes. -/
  | unknownReplyCode (n : Int)
deriving DecidableEq, Repr

/-- How a document fails to be read. -/
inductive Fault
  /-- The text ends inside a value. -/
  | ended
  /-- The text is not well formed. -/
  | malformed
  /-- The text is well formed so far and describes something else. -/
  | mismatch (m : Mismatch)
deriving DecidableEq, Repr

/-- The wording of what was found. -/
def Found.text : Found → String
  | .null => "null"
  | .boolean b => "boolean `" ++ (if b then "true" else "false") ++ "`"
  | .integer n => "integer `" ++ toString n ++ "`"
  | .real x => "floating point `" ++ x.text ++ "`"
  | .string s => "string " ++ Text.quoted s
  | .sequence => "sequence"
  | .map => "map"

/-- The wording of a mismatch. -/
def Mismatch.message : Mismatch → String
  | .wrongType found wanted => "invalid type: " ++ found.text ++ ", expected " ++ wanted
  | .outOfRange n wanted => "invalid value: integer `" ++ toString n ++ "`, expected " ++ wanted
  | .missingField key => "missing field `" ++ key ++ "`"
  | .duplicateField key => "duplicate field `" ++ key ++ "`"
  | .tooShort index record size =>
    "invalid length " ++ toString index ++ ", expected struct " ++ record ++ " with " ++
      toString size ++ " elements"
  | .unknownVariant name choice =>
    "unknown variant `" ++ name ++ "`, expected one of " ++
      ", ".intercalate (choice.map fun c => "`" ++ c ++ "`")
  | .notAValue => "data did not match any variant of untagged enum Value"
  | .unknownReplyCode n => "unknown reply code " ++ toString n

end StreamControl.Json
