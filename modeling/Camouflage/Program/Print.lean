import Camouflage.Program.Basic
import Camouflage.Text.Integer

/-!
# Writing programs

A program is written as its version, a blank, and its segments one behind the other: literal text
as it is, a call as `$`, its name, and its arguments in brackets with a comma and a blank between
two of them.
-/

namespace Camouflage

def Call.text (c : Call) : String :=
  "$" ++ c.name ++ "(" ++ String.intercalate ", " c.args ++ ")"

def Segment.text : Segment → String
  | .literal text => text
  | .call c => c.text

/-- A program as it is written. -/
def Program.text (p : Program) : String :=
  "v1." ++ String.ofList (Text.decimal p.minor.toNat) ++ " "
    ++ String.join (p.segments.map Segment.text)

end Camouflage
