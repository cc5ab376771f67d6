import Camouflage.Fault
import Camouflage.Limits
import Camouflage.Program.Builtin
import Camouflage.Text.Utf8

/-!
# Programs

A program says how to make a prefix: literal text mixed with calls of builtins. A call carries the
builtin it was resolved to, so a program runs without its registry.

A run goes through the segments in order. It stops at the first failing call, or as soon as there
are more bytes than a prefix may have, and gives nothing in either case; the random words taken up
to there stay used up.
-/

namespace Camouflage

structure Call where
  name : String
  args : List String
  builtin : Builtin

inductive Segment where
  /-- Text that is part of every prefix. -/
  | literal (text : String)
  /-- Bytes that a builtin gives anew on each run. -/
  | call (c : Call)

/-- A program of major version 1. -/
structure Program where
  minor : UInt32
  segments : List Segment

namespace Segment

def isLiteral : Segment → Bool
  | .literal _ => true
  | .call _ => false

/-- The number of bytes of a segment, if it is the same on each run and can be told. -/
def fixedLength? : Segment → Option Nat
  | .literal text => some (Text.utf8 text).length
  | .call c => do (← c.builtin.hint) c.args

/-- The bytes of a segment on one run. -/
def produce : Segment → Draw (Except Fault Bytes)
  | .literal text => return .ok (Text.utf8 text)
  | .call c => do return (← c.builtin.run c.args).mapError (Fault.builtin c.name)

end Segment

namespace Program

def version (p : Program) : Nat × Nat :=
  (1, p.minor.toNat)

/-- Whether a program has no calls, so that each run gives the same bytes. -/
def isStatic (p : Program) : Bool :=
  p.segments.all Segment.isLiteral

/-- The sum of some lengths, if all of them are known; `total` counts those before. -/
def sumKnown (total : Nat) : List Segment → Option Nat
  | [] => some total
  | seg :: rest => do sumKnown (total + (← seg.fixedLength?)) rest

/-- The number of bytes of every prefix the program makes, if it can be told. -/
def fixedLength? (p : Program) : Option Nat :=
  sumKnown 0 p.segments

/-- Runs segments behind `size` bytes made before; `done` holds these, the last one first. -/
def produceFrom (done : Bytes) (size : Nat) : List Segment → Draw (Except Fault Bytes)
  | [] => return .ok done.reverse
  | seg :: rest => do
    match ← seg.produce with
    | .error fault => return .error fault
    | .ok more =>
      let size := size + more.length
      if size > maxPrefixLength then return .error (.prefixTooLarge size maxPrefixLength)
      else produceFrom (more.reverse ++ done) size rest

def evaluate (p : Program) : Draw (Except Fault Bytes) :=
  produceFrom [] 0 p.segments

end Program

end Camouflage
