import Camouflage.Bytes
import Camouflage.Text.Utf8
import Camouflage.Text.Escape

/-!
# Hexadecimal bytes

A byte is written as two digits, the high one first, in lower case; both cases are read. Reading
works on the bytes of the text: their number has to be even, which is looked at first, and the
first byte that is no digit is reported with its index.
-/

namespace Camouflage.Text.Hex

/-- Why a text is not the hexadecimal form of any bytes. -/
inductive Fault where
  /-- An odd number of bytes. -/
  | odd
  /-- The byte `byte`, at `index`, is no digit. -/
  | badByte (byte : UInt8) (index : Nat)
  deriving DecidableEq, Repr

/-- The wording of a fault. The bad byte is shown as the character of its number. -/
def Fault.message : Fault → String
  | .odd => "Odd number of digits"
  | .badByte byte index =>
    let shown := quoteChar byte
    s!"Invalid character {shown} at position {index}"

def digit (n : Nat) : Char :=
  Nat.digitChar n

def encodeByte (b : UInt8) : List Char :=
  [digit (b.toNat / 16), digit (b.toNat % 16)]

/-- The digits of a byte string, in lower case. -/
def encodeChars (bs : Bytes) : List Char :=
  bs.flatMap encodeByte

def encode (bs : Bytes) : String :=
  String.ofList (encodeChars bs)

/-- The value of a digit, in either case. -/
def value? (b : UInt8) : Option Nat :=
  if 0x30 ≤ b && b ≤ 0x39 then some (b.toNat - 0x30)
  else if 0x61 ≤ b && b ≤ 0x66 then some (b.toNat - 0x57)
  else if 0x41 ≤ b && b ≤ 0x46 then some (b.toNat - 0x37)
  else none

/-- Reads digits in pairs from the byte at `index` on; `done` holds the bytes read before, last
first. A last byte without a partner is left out, so callers look at the length first. -/
def decodePairs (index : Nat) (done : Bytes) : Bytes → Except Fault Bytes
  | high :: low :: rest =>
    match value? high with
    | none => .error (.badByte high index)
    | some h =>
      match value? low with
      | none => .error (.badByte low (index + 1))
      | some l => decodePairs (index + 2) (UInt8.ofNat (h * 16 + l) :: done) rest
  | _ => .ok done.reverse

/-- The bytes that a byte string of digits spells. -/
def decode (digits : Bytes) : Except Fault Bytes :=
  if digits.length % 2 = 1 then .error .odd else decodePairs 0 [] digits

/-- The bytes that a text spells. -/
def decodeText (s : String) : Except Fault Bytes :=
  decode (utf8 s)

@[simp] theorem length_encodeChars (bs : Bytes) : (encodeChars bs).length = 2 * bs.length := by
  induction bs with
  | nil => rfl
  | cons b bs ih =>
    simp only [encodeChars, List.flatMap_cons, encodeByte, List.length_append,
      List.length_cons, List.length_nil] at ih ⊢
    omega

end Camouflage.Text.Hex
