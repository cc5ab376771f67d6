import Camouflage.Limits
import Camouflage.Program.Builtin
import Camouflage.Text.Hex
import Camouflage.Text.Integer

/-!
# The standard builtins

`random_bytes(least, most)` and `random_string(least, most)` give a random number of random bytes,
or of letters and digits; `hex(digits)` gives the bytes that the digits spell. The length of the
first two is known beforehand when both bounds agree, that of `hex` when its argument is an even
number of digits.
-/

namespace Camouflage.Standard

open Text

/-- Why a call of a standard builtin fails. -/
inductive CallFault where
  | argumentCount (expected received : Nat)
  /-- The argument at `index` is no length. -/
  | notALength (index : Nat) (given : String)
  /-- The lower bound is above the upper one. -/
  | boundsCrossed (least most : Nat)
  /-- The upper bound is beyond what a call may produce. -/
  | tooLong (most : Nat)
  /-- So many digits that their bytes are beyond what a call may produce. -/
  | tooManyDigits
  | malformedHex (digits : String) (cause : Hex.Fault)
  deriving DecidableEq, Repr

def CallFault.reason : CallFault → String
  | .argumentCount expected received =>
    s!"expected {expected} argument(s), received {received}"
  | .notALength index given => s!"expected a length as arg {index}, received '{given}'"
  | .boundsCrossed least most => s!"min length {least} exceeds max length {most}"
  | .tooLong most => s!"max length {most} exceeds limit of {maxBuiltinOutput}"
  | .tooManyDigits => s!"hex literal exceeds limit of {maxBuiltinOutput} bytes"
  | .malformedHex digits cause => s!"malformed hex '{digits}': {cause.message}"

/-- Reads the argument at `index` as a length. -/
def readLength (index : Nat) (given : String) : Except CallFault Nat :=
  match readCount given with
  | .ok n => .ok n
  | .error _ => .error (.notALength index given)

/-- The bounds that two arguments give. Both are read before they are compared. -/
def lengthBounds : List String → Except CallFault (Nat × Nat)
  | [a, b] => do
    let least ← readLength 0 a
    let most ← readLength 1 b
    if least > most then throw (.boundsCrossed least most)
    if most > maxBuiltinOutput then throw (.tooLong most)
    return (least, most)
  | args => .error (.argumentCount 2 args.length)

/-- The bytes that a single argument spells. -/
def hexBytes : List String → Except CallFault Bytes
  | [digits] =>
    if (utf8 digits).length / 2 > maxBuiltinOutput then .error .tooManyDigits
    else match Hex.decodeText digits with
      | .ok bs => .ok bs
      | .error cause => .error (.malformedHex digits cause)
  | args => .error (.argumentCount 1 args.length)

/-- Draws a length between the bounds that the arguments give, then so many bytes by `fill`. -/
def sized (fill : Nat → Draw Bytes) (args : List String) : Draw (Except String Bytes) :=
  match lengthBounds args with
  | .error fault => return .error fault.reason
  | .ok (least, most) => do
    let n ← Draw.between least most
    return .ok (← fill n)

def randomBytes : List String → Draw (Except String Bytes) :=
  sized Draw.bytes

def randomString : List String → Draw (Except String Bytes) :=
  sized (Draw.times Draw.alphanumeric)

def hex (args : List String) : Draw (Except String Bytes) :=
  return (hexBytes args).mapError CallFault.reason

/-- The length of a call of `random_bytes` or `random_string` whose bounds agree. -/
def boundsHint (args : List String) : Option Nat :=
  match lengthBounds args with
  | .ok (least, most) => if least = most then some least else none
  | .error _ => none

/-- The length of a call of `hex` with an even number of digits. -/
def hexHint : List String → Option Nat
  | [digits] =>
    let bs := utf8 digits
    if bs.length % 2 = 0 ∧ bs.all (fun b => (Hex.value? b).isSome) then some (bs.length / 2)
    else none
  | _ => none

def registry : Registry :=
  ((Registry.empty.registerSized "random_bytes" randomBytes boundsHint)
    |>.registerSized "random_string" randomString boundsHint)
    |>.registerSized "hex" hex hexHint

end Camouflage.Standard
