import Camouflage.CommandLine.Report
import Camouflage.Prefix.Dns

/-!
# Arguments

Arguments are read from left to right. Options may stand anywhere; of what is left the first is the
command and the second its operand. Asking for the version or for help ends the reading, so nothing
behind it matters, and so does the first argument that is wrong.
-/

namespace Camouflage.CommandLine

structure Options where
  command : Option String := none
  operand : Option String := none
  count : Nat := 1
  length : Nat := DnsPrefix.standardLength
  /-- Whether prefixes are shown as text and not in hexadecimal. -/
  asText : Bool := false
  deriving DecidableEq, Repr

inductive Request where
  | version
  | help
  | run (options : Options)
  deriving DecidableEq, Repr

inductive Flag where
  | count | length | text | version | help
  deriving DecidableEq, Repr

def Flag.ofText? : String → Option Flag
  | "-n" | "--count" => some .count
  | "--len" => some .length
  | "--text" => some .text
  | "-V" | "--version" => some .version
  | "-h" | "--help" => some .help
  | _ => none

/-- Takes a command or an operand. -/
def Options.take (o : Options) (arg : String) : Except Failure Options :=
  if o.command.isNone then .ok { o with command := some arg }
  else if o.operand.isNone then .ok { o with operand := some arg }
  else .error (.unknownArgument arg)

/-- Reads arguments behind those that gave `o`. -/
def Request.read (o : Options) : List String → Except Failure Request
  | [] => .ok (.run o)
  | arg :: rest =>
    match Flag.ofText? arg with
    | some .version => .ok .version
    | some .help => .ok .help
    | some .text => read { o with asText := true } rest
    | some .count =>
      match rest with
      | [] => .error .countMissing
      | value :: rest =>
        match Text.readCount value with
        | .ok n => read { o with count := n } rest
        | .error cause => .error (.countMalformed cause)
    | some .length =>
      match rest with
      | [] => .error .lengthMissing
      | value :: rest =>
        match Text.readCount value with
        | .ok n => read { o with length := n } rest
        | .error cause => .error (.lengthMalformed cause)
    | none =>
      match o.take arg with
      | .ok o => read o rest
      | .error f => .error f

def Request.ofArguments (args : List String) : Except Failure Request :=
  read {} args

end Camouflage.CommandLine
