import Camouflage.Text.Integer

/-!
# Shortest decimals of binary fractions

A double-precision number is a whole number times a power of two. The reals that round to it form an
interval, with its ends if that whole number is even. Among the decimals in the interval those with
the fewest digits are the multiples of the largest power of ten that has a multiple there; the one
nearest to the number is taken, and of two that are equally near the one whose last digit is even.
All arithmetic is exact.

The decimal is written out if its first digit stands at one of the sixteen places before the point
or of the five behind it, and with a signed exponent otherwise.
-/

namespace Camouflage.Text.Shortest

/-- A finite number that is not zero, as four times its whole part and the bounds of its interval,
all to be multiplied by `2 ^ exponent`. -/
structure Interval where
  low : Nat
  middle : Nat
  high : Nat
  closed : Bool
  exponent : Int
  deriving Repr

/-- The number of values of a number's fraction. -/
def fractionSpan : Nat := 4503599627370496

/-- The number of values of a number's exponent field. -/
def fieldSpan : Nat := 2048

/-- The bits of minus zero, which are also the number of values without a sign. -/
def signBit : Nat := 9223372036854775808

/-- The interval of the number with these bits, the sign left out. -/
def Interval.ofBits (bits : UInt64) : Interval :=
  let field : Nat := bits.toNat / fractionSpan % fieldSpan
  let part : Nat := bits.toNat % fractionSpan
  let m := if field = 0 then part else part + fractionSpan
  let q : Int := if field = 0 then -1074 else field - 1075
  let low := if part = 0 ∧ field > 1 then 4 * m - 1 else 4 * m - 2
  ⟨low, 4 * m, 4 * m + 2, m % 2 == 0, q - 2⟩

/-- The multiple of `10 ^ place` in an interval that is nearest to its middle, divided by
`10 ^ place`, if there is one. Of two that are equally near it is the even one. -/
def multiple? (i : Interval) (place : Int) : Option Nat :=
  let scale := Nat.pow 2 i.exponent.toNat * Nat.pow 10 (-place).toNat
  let unit := Nat.pow 2 (-i.exponent).toNat * Nat.pow 10 place.toNat
  let inside (c : Nat) : Bool :=
    if i.closed then i.low * scale ≤ c * unit && c * unit ≤ i.high * scale
    else i.low * scale < c * unit && c * unit < i.high * scale
  let below := i.middle * scale / unit
  let double := 2 * (i.middle * scale % unit)
  match inside below, inside (below + 1) with
  | true, true =>
    if double < unit ∨ (double = unit ∧ below % 2 = 0) then some below else some (below + 1)
  | true, false => some below
  | false, true => some (below + 1)
  | false, false => none

/-- The digits and the place of the last of them, looking for a multiple from `place` down. -/
def search (i : Interval) (place : Int) : Nat → List Char × Int
  | 0 => (['0'], 0)
  | tries + 1 =>
    match multiple? i place with
    | some (c + 1) => (decimal (c + 1), place)
    | _ => search i (place - 1) tries

/-- Digits of which the last one stands at `place`, written out or with an exponent. -/
def layout (digits : List Char) (place : Int) : List Char :=
  let top := place + digits.length - 1
  if -5 ≤ top ∧ top < 16 then
    if place ≥ 0 then digits ++ List.replicate place.toNat '0' ++ ['.', '0']
    else if top ≥ 0 then
      digits.take (top.toNat + 1) ++ '.' :: digits.drop (top.toNat + 1)
    else '0' :: '.' :: List.replicate ((-top).toNat - 1) '0' ++ digits
  else
    let mantissa := match digits with
      | [] => []
      | [d] => [d]
      | d :: ds => d :: '.' :: ds
    mantissa ++ 'e' :: (if top < 0 then '-' else '+') :: decimal top.natAbs

/-- The text of a finite number. -/
def text (x : Float) : String :=
  let bits := x.toBits
  let sign := if bits.toNat ≥ signBit then ['-'] else []
  if bits.toNat % signBit = 0 then String.ofList (sign ++ ['0', '.', '0'])
  else
    let (digits, place) := search (Interval.ofBits bits) 309 660
    String.ofList (sign ++ layout digits place)

end Camouflage.Text.Shortest
