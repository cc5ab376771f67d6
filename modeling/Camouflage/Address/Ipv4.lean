import Camouflage.Bytes
import Camouflage.Text.Integer

/-!
# IPv4 addresses

Four numbers below 256 with points between them. A number has one to three digits and no leading
zero, so each address has one spelling only.
-/

namespace Camouflage

structure Ipv4 where
  (a b c d : UInt8)
  deriving DecidableEq, Repr

namespace Ipv4

open Text

/-- The value of a string of digits. -/
def digitsValue (radix : Nat) (value : Char → Nat) (digits : List Char) : Nat :=
  digits.foldl (fun acc c => acc * radix + value c) 0

def decimalValue (c : Char) : Nat :=
  c.toNat - '0'.toNat

/-- Reads one of the four numbers off the front of a text. -/
def readOctet (cs : List Char) : Option (UInt8 × List Char) :=
  let digits := cs.takeWhile Char.isDigit
  let n := digitsValue 10 decimalValue digits
  if digits.isEmpty || digits.length > 3 then none
  else if digits.length > 1 && digits.head? = some '0' then none
  else if n > 255 then none
  else some (UInt8.ofNat n, cs.dropWhile Char.isDigit)

/-- Reads a point and one of the four numbers off the front of a text. -/
def readPointOctet : List Char → Option (UInt8 × List Char)
  | '.' :: cs => readOctet cs
  | _ => none

def read (cs : List Char) : Option (Ipv4 × List Char) := do
  let (a, cs) ← readOctet cs
  let (b, cs) ← readPointOctet cs
  let (c, cs) ← readPointOctet cs
  let (d, cs) ← readPointOctet cs
  return (⟨a, b, c, d⟩, cs)

def ofText? (cs : List Char) : Option Ipv4 :=
  match read cs with
  | some (a, []) => some a
  | _ => none

def text (ip : Ipv4) : List Char :=
  decimal ip.a.toNat ++ '.' :: decimal ip.b.toNat ++ '.' :: decimal ip.c.toNat
    ++ '.' :: decimal ip.d.toNat

def bytes (ip : Ipv4) : Bytes :=
  [ip.a, ip.b, ip.c, ip.d]

end Ipv4

end Camouflage
