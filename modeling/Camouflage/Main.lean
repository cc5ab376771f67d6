import Camouflage.CommandLine.Run

/-!
# The command line

Reads the one file that the arguments ask for, seeds the random source from the operating system,
and prints the report.
-/

namespace Camouflage.CommandLine

def systemReason : IO.Error → String
  | .noFileOrDirectory _ code details | .permissionDenied _ code details
  | .inappropriateType _ code details | .invalidArgument _ code details
  | .resourceExhausted _ code details | .interrupted _ code details
  | .otherError code details | .hardwareFault code details =>
    details ++ " (os error " ++ toString code ++ ")"
  | e => toString e

def readFile (path : String) : IO (Except String Bytes) := do
  try
    let handle ← IO.FS.Handle.mk path .read
    return .ok (← handle.readBinToEnd).toList
  catch e => return .error (systemReason e)

def filesFor (args : List String) : IO Files := do
  match fileNeeded? args with
  | none => return fun path => .error (path ++ " was not read")
  | some path =>
    let content ← readFile path
    return fun _ => content

/-- The word at place `n` of some bytes, the low byte first. -/
def wordAt (bytes : ByteArray) (n : Nat) : UInt32 :=
  (List.range 4).foldr (fun i w => w * 256 + (bytes.toList.getD (4 * n + i) 0).toUInt32) 0

/-- A source that nobody can predict. -/
def freshSource : IO Source := do
  let bytes ← IO.getRandomBytes 32
  let w := wordAt bytes
  return .ofKey ⟨w 0, w 1, w 2, w 3, w 4, w 5, w 6, w 7⟩

end Camouflage.CommandLine

def main (args : List String) : IO UInt32 := do
  let files ← Camouflage.CommandLine.filesFor args
  match (Camouflage.CommandLine.run files args).run (← Camouflage.CommandLine.freshSource) with
  | none => return 1
  | some (report, _) =>
    report.output.forM IO.println
    report.errors.forM IO.eprintln
    return UInt32.ofNat report.exitCode
