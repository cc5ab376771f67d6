import Camouflage.Fault
import Camouflage.Limits
import Camouflage.Text.Hex
import Camouflage.Text.Integer

/-!
# Unusable settings

Why settings cannot be turned into a dialer or a listener. All of these concern the whole
configuration: no connection has been attempted yet.
-/

namespace Camouflage

/-- Why a setting cannot be read as a value of its type. -/
inductive ValueFault where
  | integer (cause : Text.IntegerFault)
  | notBoolean
  deriving DecidableEq, Repr

def ValueFault.message : ValueFault → String
  | .integer cause => cause.message
  | .notBoolean => "provided string was not `true` or `false`"

/-- Why settings are unusable. -/
inductive ConfigFault where
  /-- A required key is missing or blank. -/
  | missing (key : String)
  /-- More than one of some keys that exclude each other. -/
  | notExclusive (keys : List String)
  | badValue (key : String) (cause : ValueFault)
  /-- `absorb_len` without a number. -/
  | noAbsorbLength
  | badHex (digits : String) (cause : Text.Hex.Fault)
  /-- A constant prefix longer than any prefix may be. -/
  | prefixTooLong (size : Nat)
  /-- A length to strip beyond what any prefix may have. -/
  | absorbTooLong (size : Nat)
  /-- A DNS message length that a DNS prefix cannot carry. -/
  | dnsLength (length : Nat)
  | unsupportedCipher (name : String)
  deriving DecidableEq, Repr

namespace ConfigFault

def message : ConfigFault → String
  | .missing key => s!"missing '{key}'"
  | .notExclusive keys =>
    let list := String.intercalate ", " keys
    s!"only one of {list} may be set"
  | .badValue key cause => s!"invalid value for '{key}': {cause.message}"
  | .noAbsorbLength => "'absorb_len' needs a length"
  | .badHex digits cause => s!"invalid hex prefix '{digits}': {cause.message}"
  | .prefixTooLong size => s!"prefix of {size} bytes exceeds limit of {maxPrefixLength}"
  | .absorbTooLong size => s!"absorb length {size} exceeds limit of {maxPrefixLength}"
  | .dnsLength length => s!"Invalid DNS-over-TCP message length {length}"
  | .unsupportedCipher name =>
    s!"unsupported cipher '{name}'; supply a cipher implementation for it"

def fault (f : ConfigFault) : Fault :=
  .config f.message

@[simp] theorem kind_fault (f : ConfigFault) : f.fault.kind = .config := rfl

end ConfigFault

end Camouflage
