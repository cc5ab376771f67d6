import Camouflage.CommandLine.Arguments
import Camouflage.Config.OfSettings
import Camouflage.Placeholder
import Camouflage.Program.Print

/-!
# Running commands

A run is a function of the arguments, of the files it can read, and of one random source. It samples
prefixes or placeholders, describes a program, or checks a settings file.
-/

namespace Camouflage.CommandLine

def versionLine : String := "camo-prefix 0.1.0"

def usage : List String :=
  ["Usage: camo-prefix COMMAND [OPTIONS]",
    "Commands:",
    "  generate PROGRAM          Print sample prefixes for a generator program",
    "  dns                       Print sample DNS-over-TCP prefixes",
    "  upstream BASE             Print sample placeholder upstream addresses",
    "  check PROGRAM             Parse a program and describe it",
    "  check-dialer FILE         Validate a dialer settings file",
    "  check-listener FILE       Validate a listener settings file",
    "Options:",
    "  -n, --count COUNT         Number of samples (default: 1)",
    "      --len LENGTH          DNS message length (default: 1500)",
    "      --text                Print prefixes as escaped text instead of hex",
    "  -V, --version             Show version information",
    "  -h, --help                Show this help message"]

def render (asText : Bool) (bytes : Bytes) : String :=
  if asText then Text.escaped bytes else Text.Hex.encode bytes

/-- `n` samples behind those of `done`, last one first, up to the first that fails. -/
def samplesFrom (sample : Draw (Except Fault String)) (done : List String) :
    Nat → Draw (List String × Option Fault)
  | 0 => return (done.reverse, none)
  | n + 1 => do
    match ← sample with
    | .ok line => samplesFrom sample (line :: done) n
    | .error fault => return (done.reverse, some fault)

def samplePrefixes (o : Options) (maker : PrefixMaker) : Draw Report := do
  let sample := do return (← maker.make).map (render o.asText)
  let (output, fault) ← samplesFrom sample [] o.count
  return { output, failure := fault.map .generatorFailed }

/-- What is said of a prefix that no policy strips. -/
def noPolicy : Level × String :=
  (.warn, "Prefix length varies between connections; no listener can absorb it")

def describeSegment : Segment → String
  | .literal text => "  literal " ++ Text.literal (Text.utf8 text)
  | .call c => "  call    " ++ c.text

def describe (program : Program) : Draw Report := do
  let (major, minor) := program.version
  let version := "version: v" ++ toString major ++ "." ++ toString minor
  let output := version :: program.segments.map describeSegment
  match ← (PrefixMaker.generator program).matchingPolicy with
  | none => return { output, log := [noPolicy] }
  | some (.anyBytes n) =>
    return { output := output ++ ["randomized, " ++ toString n ++ " bytes: absorb by length"] }
  | some policy => return { output := output ++ ["static: absorb with " ++ policy.text] }

/-- What a file holds, or why it cannot be read. -/
abbrev Files := String → Except String Bytes

def checkDialer (files : Files) (path : String) : Draw Report := do
  match files path with
  | .error reason => return .ofFailure (.unreadable .dialer path reason)
  | .ok bytes =>
    match DialerConfig.ofBytes bytes with
    | .error cause => return .ofFailure (.settingsInvalid .dialer cause)
    | .ok config =>
      match config.writes.build with
      | .error cause => return .ofFailure (.prefixInvalid cause)
      | .ok maker =>
        let fine := "Dialer settings OK: " ++ config.addr ++ " via upstream base " ++ config.base
        match ← maker.matchingPolicy with
        | some policy =>
          let advice := "Listener can absorb with: " ++ policy.text
          return { log := [(.info, fine), (.info, advice)] }
        | none => return { log := [(.info, fine), noPolicy] }

def checkListener (files : Files) (path : String) : Report :=
  match files path with
  | .error reason => .ofFailure (.unreadable .listener path reason)
  | .ok bytes =>
    match ListenerConfig.ofBytes bytes with
    | .error cause => .ofFailure (.settingsInvalid .listener cause)
    | .ok config =>
      match config.absorber with
      | .error cause => .ofFailure (.absorbInvalid cause)
      | .ok absorber =>
        let size := toString absorber.policy.prefixLength
        let fine :=
          "Listener settings OK: " ++ config.addr ++ " absorbing " ++ size ++ " byte prefix"
        { log := [(.info, fine)] }

/-- Goes on with the operand of a command, which must not be missing. -/
def withOperand (command noun : String) (o : Options) (next : String → Draw Report) :
    Draw Report :=
  match o.operand with
  | some operand => next operand
  | none => return .ofFailure (.operandMissing command noun)

/-- Goes on with a program that uses the standard builtins. -/
def withProgram (text : String) (next : Program → Draw Report) : Draw Report :=
  match standardProgram text with
  | .ok program => next program
  | .error cause => return .ofFailure (.programMalformed cause)

def runCommand (files : Files) (o : Options) : String → Draw Report
  | "generate" =>
    withOperand "generate" "PROGRAM" o fun text =>
      withProgram text fun program => samplePrefixes o (.generator program)
  | "dns" => do
    match DnsPrefix.ofLength o.length with
    | .error cause => return .ofFailure (.messageLength cause)
    | .ok d =>
      let size := toString d.messageLength.toNat
      let log := [(Level.info, "DNS-over-TCP prefixes for message length " ++ size)]
      return { ← samplePrefixes o (.dnsOverTcp d) with log }
  | "upstream" =>
    withOperand "upstream" "BASE name" o fun base => do
      let sample := do return .ok (← Placeholder.fresh base)
      return { output := (← samplesFrom sample [] o.count).1 }
  | "check" =>
    withOperand "check" "PROGRAM" o fun text => withProgram text describe
  | "check-dialer" => withOperand "check-dialer" "FILE" o (checkDialer files)
  | "check-listener" =>
    withOperand "check-listener" "FILE" o fun path => return checkListener files path
  | name => return .ofFailure (.unknownCommand name)

def run (files : Files) (args : List String) : Draw Report :=
  match Request.ofArguments args with
  | .error f => return .ofFailure f
  | .ok .version => return { output := [versionLine] }
  | .ok .help => return { output := usage }
  | .ok (.run o) =>
    match o.command with
    | none => return { output := usage }
    | some command => runCommand files o command

/-- The file that a run with these arguments would read, if it gets that far. -/
def fileNeeded? (args : List String) : Option String :=
  match Request.ofArguments args with
  | .ok (.run o) =>
    if o.command ∈ [some "check-dialer", some "check-listener"] then o.operand else none
  | _ => none

end Camouflage.CommandLine
