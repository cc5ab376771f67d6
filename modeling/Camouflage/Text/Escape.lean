import Camouflage.Bytes

/-!
# Printable forms of bytes

Two ways to show bytes as ASCII text, and the quoted form of a single byte taken as a character.

* `literal` is a byte-string literal: quoted, with a name for the common control characters, for
  the quote, the backslash and zero, and two hexadecimal digits for all else outside ASCII's
  printable range.
* `escaped` is for terminals: no quotes around it, both quotes escaped inside, and no name for
  zero.
-/

namespace Camouflage.Text

/-- Two lower-case hexadecimal digits. -/
def hexPair (b : UInt8) : String :=
  String.ofList [Nat.digitChar (b.toNat / 16), Nat.digitChar (b.toNat % 16)]

/-- Lower-case hexadecimal digits of a number, without leading zeros. -/
def hexNumber (n : Nat) : String :=
  String.ofList (Nat.toDigits 16 n)

/-- ASCII's printable range, the space included. -/
def isPrintableByte (b : UInt8) : Bool :=
  0x20 ≤ b && b ≤ 0x7E

/-- One byte inside a byte-string literal. -/
def literalByte (b : UInt8) : String :=
  if b == 0x0A then "\\n"
  else if b == 0x0D then "\\r"
  else if b == 0x09 then "\\t"
  else if b == 0x5C then "\\\\"
  else if b == 0x22 then "\\\""
  else if b == 0x00 then "\\0"
  else if isPrintableByte b then String.singleton (Char.ofNat b.toNat)
  else "\\x" ++ hexPair b

/-- A byte string as a quoted literal. -/
def literal (bs : Bytes) : String :=
  "b\"" ++ String.join (bs.map literalByte) ++ "\""

/-- One byte of terminal-safe text. -/
def escapedByte (b : UInt8) : String :=
  if b == 0x09 then "\\t"
  else if b == 0x0D then "\\r"
  else if b == 0x0A then "\\n"
  else if b == 0x27 then "\\'"
  else if b == 0x22 then "\\\""
  else if b == 0x5C then "\\\\"
  else if isPrintableByte b then String.singleton (Char.ofNat b.toNat)
  else "\\x" ++ hexPair b

/-- A byte string as terminal-safe text. -/
def escaped (bs : Bytes) : String :=
  String.join (bs.map escapedByte)

/-- The character of number `b`, in single quotes. Control characters, the no-break space and the
soft hyphen are shown by number. -/
def quoteChar (b : UInt8) : String :=
  let inner :=
    if b == 0x09 then "\\t"
    else if b == 0x0D then "\\r"
    else if b == 0x0A then "\\n"
    else if b == 0x27 then "\\'"
    else if b == 0x5C then "\\\\"
    else if b == 0x00 then "\\0"
    else if b < 0x20 || (0x7F ≤ b && b ≤ 0xA0) || b == 0xAD then
      "\\u\x7b" ++ hexNumber b.toNat ++ "\x7d"
    else String.singleton (Char.ofNat b.toNat)
  "'" ++ inner ++ "'"

end Camouflage.Text
