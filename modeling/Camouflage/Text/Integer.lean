/-!
# Integers as decimal text

Printing gives the fewest digits. Reading takes ASCII digits only, with an optional sign in front,
and any number of leading zeros; it goes from left to right and the first trouble wins, so a
number that has already become too large is reported before a bad character behind it.
-/

namespace Camouflage.Text

def decimal (n : Nat) : List Char :=
  if n < 10 then [Nat.digitChar n] else decimal (n / 10) ++ [Nat.digitChar (n % 10)]

/-- Why a text is no integer of the wanted range. -/
inductive IntegerFault where
  | empty
  | badDigit
  | tooLarge
  | tooSmall
  deriving DecidableEq, Repr

def IntegerFault.message : IntegerFault → String
  | .empty => "cannot parse integer from empty string"
  | .badDigit => "invalid digit found in string"
  | .tooLarge => "number too large to fit in target type"
  | .tooSmall => "number too small to fit in target type"

def digitValue? (c : Char) : Option Nat :=
  if c.isDigit then some (c.toNat - '0'.toNat) else none

/-- Reads digits behind those of value `acc`; past `limit`, or at a character that is no digit, it
stops, with `beyond` in the first case. -/
def readDigits (limit : Nat) (beyond : IntegerFault) (acc : Nat) :
    List Char → Except IntegerFault Nat
  | [] => .ok acc
  | c :: cs =>
    match digitValue? c with
    | none => .error .badDigit
    | some d =>
      let acc' := acc * 10 + d
      if acc' > limit then .error beyond else readDigits limit beyond acc' cs

/-- Reads a number from 0 to `limit`, with an optional `+` in front. -/
def readNat (limit : Nat) : List Char → Except IntegerFault Nat
  | [] => .error .empty
  | ['+'] => .error .badDigit
  | '+' :: cs => readDigits limit .tooLarge 0 cs
  | cs => readDigits limit .tooLarge 0 cs

/-- Reads a number from `-below` to `limit`, with an optional sign in front. -/
def readInt (below limit : Nat) : List Char → Except IntegerFault Int
  | [] => .error .empty
  | ['+'] => .error .badDigit
  | ['-'] => .error .badDigit
  | '-' :: cs => (readDigits below .tooSmall 0 cs).map fun n => -(n : Int)
  | '+' :: cs => (readDigits limit .tooLarge 0 cs).map Int.ofNat
  | cs => (readDigits limit .tooLarge 0 cs).map Int.ofNat

def max16 : Nat := 65535

def max32 : Nat := 4294967295

/-- The largest number of sixty-four bits: the largest count or length that settings can name. -/
def max64 : Nat := 18446744073709551615

def readCount (s : String) : Except IntegerFault Nat :=
  readNat max64 s.toList

end Camouflage.Text
