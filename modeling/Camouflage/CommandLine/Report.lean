import Camouflage.Config.Fault
import Camouflage.Program.Parse
import Camouflage.Text.Escape

/-!
# Reports

What a run of the command line says: lines on the standard output, lines in the log, and at most one
failure, which ends the run. The log and the failure go to the standard error.
-/

namespace Camouflage.CommandLine

inductive Level where
  | info | warn | error
  deriving DecidableEq, Repr

def Level.text : Level → String
  | .info => "INFO"
  | .warn => "WARN"
  | .error => "ERROR"

/-- Which side of a tunnel a settings file is for. -/
inductive Role where
  | dialer | listener
  deriving DecidableEq, Repr

def Role.text : Role → String
  | .dialer => "dialer"
  | .listener => "listener"

inductive Failure where
  | countMissing
  | countMalformed (cause : Text.IntegerFault)
  | lengthMissing
  | lengthMalformed (cause : Text.IntegerFault)
  | unknownArgument (arg : String)
  | unknownCommand (name : String)
  /-- A command without the operand that it needs. -/
  | operandMissing (command operand : String)
  | programMalformed (cause : Fault)
  | generatorFailed (cause : Fault)
  | messageLength (cause : ConfigFault)
  | unreadable (role : Role) (path reason : String)
  | settingsInvalid (role : Role) (cause : ConfigFault)
  | prefixInvalid (cause : Fault)
  | absorbInvalid (cause : ConfigFault)
  deriving DecidableEq, Repr

namespace Failure

/-- What failed. -/
def headline : Failure → String
  | .countMissing => "Expected count after -n"
  | .countMalformed cause => "--count expects a non-negative integer: " ++ cause.message
  | .lengthMissing => "Expected length after --len"
  | .lengthMalformed cause => "--len expects a non-negative integer: " ++ cause.message
  | .unknownArgument arg => "Unknown argument: " ++ arg
  | .unknownCommand name => "Unknown command: " ++ name
  | .operandMissing command operand => command ++ " requires a " ++ operand
  | .programMalformed _ => "Failed to parse generator program"
  | .generatorFailed _ => "Generator failed"
  | .messageLength _ => "Invalid DNS message length"
  | .unreadable role path _ => "Failed to read " ++ role.text ++ " settings: " ++ path
  | .settingsInvalid role _ => "Invalid " ++ role.text ++ " settings"
  | .prefixInvalid _ => "Invalid prefix"
  | .absorbInvalid _ => "Invalid absorb settings"

/-- What it was caused by, if that is not part of the headline. -/
def cause? : Failure → Option String
  | .countMissing | .countMalformed _ | .lengthMissing | .lengthMalformed _
  | .unknownArgument _ | .unknownCommand _ | .operandMissing _ _ => none
  | .programMalformed cause | .generatorFailed cause | .prefixInvalid cause => some cause.message
  | .messageLength cause | .settingsInvalid _ cause | .absorbInvalid cause =>
    some cause.fault.message
  | .unreadable _ _ reason => some reason

def isLogged : Failure → Bool
  | .unknownArgument _ | .unknownCommand _ => true
  | _ => false

/-- A text with four blanks in front of each line. -/
def indented (s : String) : String :=
  String.intercalate "\n" ((s.splitOn "\n").map ("    " ++ ·))

def text (f : Failure) : String :=
  match f.cause? with
  | none => "Error: " ++ f.headline
  | some cause => "Error: " ++ f.headline ++ "\n\nCaused by:\n" ++ indented cause

end Failure

structure Report where
  /-- The lines on the standard output. -/
  output : List String := []
  log : List (Level × String) := []
  /-- What ended the run, if it failed. -/
  failure : Option Failure := none
  deriving DecidableEq, Repr

/-- A character of a line in the log. Characters that could drive a terminal are shown by number. -/
def logChar (c : Char) : String :=
  if c.toNat ∈ [0x07, 0x08, 0x0C, 0x1B, 0x7F] then
    "\\x" ++ Text.hexPair (UInt8.ofNat c.toNat)
  else if 0x80 ≤ c.toNat ∧ c.toNat ≤ 0x9F then
    "\\u\x7b" ++ Text.hexNumber c.toNat ++ "\x7d"
  else String.singleton c

/-- A line in the log. -/
def logLine (level : Level) (message : String) : String :=
  level.text ++ " camo_prefix: " ++ String.join (message.toList.map logChar)

namespace Report

/-- The report of a run that fails before it has said anything. -/
def ofFailure (f : Failure) : Report where
  log := if f.isLogged then [(.error, f.headline)] else []
  failure := some f

def errors (r : Report) : List String :=
  r.log.map (fun (level, message) => logLine level message)
    ++ (r.failure.map Failure.text).toList

def exitCode (r : Report) : Nat :=
  if r.failure.isSome then 1 else 0

end Report

end Camouflage.CommandLine
