import Camouflage.Text.Quoted

/-!
# What is wrong with a JSON text

A text is malformed, or it is JSON but not what was asked for. Of a malformed text nothing more is
said.
-/

namespace Camouflage.Json

/-- What was found instead of what was expected. -/
inductive Found where
  | null
  | boolean (b : Bool)
  /-- An integer of the sixty-four-bit range. -/
  | integer (n : Int)
  /-- Any other number, as it is shown. -/
  | real (shown : String)
  | string (s : String)
  | sequence
  | map
  /-- The bare name of a variant. -/
  | unitVariant
  deriving DecidableEq, Repr

def Found.text : Found → String
  | .null => "null"
  | .boolean true => "boolean `true`"
  | .boolean false => "boolean `false`"
  | .integer n => "integer `" ++ toString n ++ "`"
  | .real shown => "floating point `" ++ shown ++ "`"
  | .string s => "string " ++ Text.quoted s
  | .sequence => "sequence"
  | .map => "map"
  | .unitVariant => "unit variant"

/-- Why a JSON value is not what was asked for. -/
inductive DataFault where
  | invalidType (found : Found) (expected : String)
  | invalidValue (found : Found) (expected : String)
  | invalidLength (length : Nat) (expected : String)
  | unknownVariant (name : String) (known : List String)
  | missingField (name : String)
  | duplicateField (name : String)
  deriving DecidableEq, Repr

def DataFault.message : DataFault → String
  | .invalidType found expected => "invalid type: " ++ found.text ++ ", expected " ++ expected
  | .invalidValue found expected => "invalid value: " ++ found.text ++ ", expected " ++ expected
  | .invalidLength length expected =>
    "invalid length " ++ toString length ++ ", expected " ++ expected
  | .unknownVariant name known =>
    "unknown variant `" ++ name ++ "`, expected one of "
      ++ String.intercalate ", " (known.map fun k => "`" ++ k ++ "`")
  | .missingField name => "missing field `" ++ name ++ "`"
  | .duplicateField name => "duplicate field `" ++ name ++ "`"

/-- What is wrong with a text. -/
inductive Fault where
  | malformed
  | data (cause : DataFault)
  deriving DecidableEq, Repr

end Camouflage.Json
