import Camouflage.Text.Integer

/-!
# Spans of time

A span is a whole number of nanoseconds. It is shown in the largest of the units s, ms, µs and ns
that it fills at least once, with as many decimals as it needs and no trailing zeros.
-/

namespace Camouflage

structure Duration where
  nanos : Nat
  deriving DecidableEq, Repr

namespace Duration

def ofMillis (ms : Nat) : Duration :=
  ⟨ms * 1000000⟩

/-- `part` out of `10 ^ places` as decimals, the point in front and no trailing zeros. -/
def decimals (places part : Nat) : List Char :=
  let digits := Text.decimal part
  let padded := List.replicate (places - digits.length) '0' ++ digits
  match (padded.reverse.dropWhile (· = '0')).reverse with
  | [] => []
  | ds => '.' :: ds

def text (d : Duration) : String :=
  let inUnit (whole places part : Nat) (unit : String) : String :=
    String.ofList (Text.decimal whole ++ decimals places part) ++ unit
  if d.nanos ≥ 1000000000 then
    inUnit (d.nanos / 1000000000) 9 (d.nanos % 1000000000) "s"
  else if d.nanos ≥ 1000000 then inUnit (d.nanos / 1000000) 6 (d.nanos % 1000000) "ms"
  else if d.nanos ≥ 1000 then inUnit (d.nanos / 1000) 3 (d.nanos % 1000) "µs"
  else inUnit d.nanos 0 0 "ns"

end Duration

end Camouflage
