import Camouflage.Json.Fault
import Camouflage.Text.Integer
import Camouflage.Text.Shortest

/-!
# JSON numbers

A number without a fraction and an exponent is an integer if it fits into sixty-four bits: without
a sign a natural number, and with one a negative number. Any other number is real, and so is minus
zero. A real number beyond the range of double precision is malformed.
-/

namespace Camouflage.Json

open Text

inductive Number where
  | natural (n : Nat)
  /-- The negative of a number from 1 to `2 ^ 63`. -/
  | negative (n : Nat)
  /-- Any other number, as it is shown. -/
  | real (shown : String)
  deriving DecidableEq, Repr

/-- What a number is called where it was not expected. -/
def Number.found : Number → Found
  | .natural n => .integer n
  | .negative n => .integer (-(n : Int))
  | .real shown => .real shown

namespace Number

def digit (c : Char) : Nat :=
  c.toNat - '0'.toNat

/-- Digits read behind the value `sig`, as long as they fit into sixty-four bits; gives the value
and the number of digits that were left out. -/
def wholePart (sig : Nat) : List Char → Nat × Nat
  | [] => (sig, 0)
  | c :: cs =>
    if sig * 10 + digit c > max64 then (sig, cs.length + 1)
    else wholePart (sig * 10 + digit c) cs

/-- Digits behind the point read behind the value `sig`, as long as they fit into sixty-four bits;
gives the value and the number of digits read. -/
def fractionPart (sig read : Nat) : List Char → Nat × Nat
  | [] => (sig, read)
  | c :: cs =>
    if sig * 10 + digit c > max64 then (sig, read)
    else fractionPart (sig * 10 + digit c) (read + 1) cs

/-- `f * 10 ^ exponent` by tabulated powers of ten, or nothing beyond double precision. -/
def scaled (f : Float) (exponent : Int) : Option Float :=
  if exponent.natAbs ≤ 308 then
    let power := Float.ofScientific 1 false exponent.natAbs
    if exponent ≥ 0 then
      let g := f * power
      if g.isInf then none else some g
    else some (f / power)
  else if f == 0 then some f
  else if exponent ≥ 0 then none
  else scaled (f / Float.ofScientific 1 false 308) (exponent + 308)
termination_by exponent.natAbs

/-- The real number `sig * 10 ^ exponent` with a sign. -/
def realOf (minus : Bool) (sig : Nat) (exponent : Int) : Except Fault Number :=
  match scaled (UInt64.ofNat sig).toFloat exponent with
  | some f => .ok (.real (Shortest.text (if minus then -f else f)))
  | none => .error .malformed

/-- The largest exponent that is read as it is: the largest signed number of thirty-two bits. -/
def maxExponent : Nat := 2147483647

/-- Reads the exponent behind an `e`. -/
def readExponent (minus : Bool) (sig : Nat) (before : Int) (cs : List Char) :
    Except Fault (Number × List Char) :=
  let (up, cs) := match cs with
    | '+' :: rest => (true, rest)
    | '-' :: rest => (false, rest)
    | _ => (true, cs)
  let digits := cs.takeWhile Char.isDigit
  let rest := cs.dropWhile Char.isDigit
  if digits.isEmpty then .error .malformed
  else
    let size := digits.foldl (fun acc c => acc * 10 + digit c) 0
    if size > maxExponent then
      if sig ≠ 0 ∧ up then .error .malformed
      else .ok (.real (if minus then "-0.0" else "0.0"), rest)
    else do
      let exponent : Int := if up then before + size else before - size
      return (← realOf minus sig exponent, rest)

/-- Reads the digits behind a point, and an exponent if there is one. -/
def readFraction (minus : Bool) (sig leftOut : Nat) (cs : List Char) :
    Except Fault (Number × List Char) :=
  let digits := cs.takeWhile Char.isDigit
  let rest := cs.dropWhile Char.isDigit
  if digits.isEmpty then .error .malformed
  else
    let (sig, read) := fractionPart sig 0 digits
    let exponent : Int := (leftOut : Int) - read
    match rest with
    | 'e' :: rest => readExponent minus sig exponent rest
    | 'E' :: rest => readExponent minus sig exponent rest
    | _ => do return (← realOf minus sig exponent, rest)

/-- The size of the least signed number of sixty-four bits. -/
def maxNegative : Nat := 9223372036854775808

/-- The number of an integer's digits. -/
def ofDigits (minus : Bool) (sig leftOut : Nat) : Except Fault Number :=
  if leftOut > 0 then realOf minus sig leftOut
  else if !minus then .ok (.natural sig)
  else if 0 < sig ∧ sig ≤ maxNegative then .ok (.negative sig)
  else realOf true sig 0

/-- Reads a number behind its sign. -/
def read (minus : Bool) (cs : List Char) : Except Fault (Number × List Char) :=
  let digits := cs.takeWhile Char.isDigit
  let rest := cs.dropWhile Char.isDigit
  if digits.isEmpty || (digits.length > 1 && digits.head? = some '0') then .error .malformed
  else
    let (sig, leftOut) := wholePart 0 digits
    match rest with
    | '.' :: rest => readFraction minus sig leftOut rest
    | 'e' :: rest => readExponent minus sig leftOut rest
    | 'E' :: rest => readExponent minus sig leftOut rest
    | _ => do return (← ofDigits minus sig leftOut, rest)

/-- Whether a text starts like a number, with the sign and the text behind it. -/
def begin? : List Char → Option (Bool × List Char)
  | '-' :: cs => some (true, cs)
  | c :: cs => if c.isDigit then some (false, c :: cs) else none
  | [] => none

/-- Skips a number behind its sign; its size does not matter. -/
def skip (cs : List Char) : Except Fault (List Char) :=
  let digits := cs.takeWhile Char.isDigit
  let rest := cs.dropWhile Char.isDigit
  let exponent (cs : List Char) : Except Fault (List Char) :=
    let cs := match cs with
      | '+' :: rest => rest
      | '-' :: rest => rest
      | _ => cs
    if (cs.takeWhile Char.isDigit).isEmpty then .error .malformed
    else .ok (cs.dropWhile Char.isDigit)
  if digits.isEmpty || (digits.length > 1 && digits.head? = some '0') then .error .malformed
  else match rest with
    | '.' :: rest =>
      if (rest.takeWhile Char.isDigit).isEmpty then .error .malformed
      else match rest.dropWhile Char.isDigit with
        | 'e' :: rest => exponent rest
        | 'E' :: rest => exponent rest
        | rest => .ok rest
    | 'e' :: rest => exponent rest
    | 'E' :: rest => exponent rest
    | _ => .ok rest

end Number

end Camouflage.Json
