import Camouflage.Prefix.Absorb
import Camouflage.Prefix.Maker
import Camouflage.Program.Parse
import Camouflage.Program.Standard
import Camouflage.Text.Blank

/-!
# Configurations

What a dialer and a listener have to be told. A configuration says which prefix to write or to
strip; building it gives the maker or the absorber, or says why the settings are unusable. All
checks are made here, so that running what has been built meets faults of single connections only.
-/

namespace Camouflage

/-- Which prefix a dialer writes. -/
inductive PrefixConfig where
  | nothing
  | generator (program : String)
  /-- Constant bytes, in hexadecimal. -/
  | hex (digits : String)
  /-- A DNS prefix of this message length. -/
  | dnsOverTcp (length : Nat)
  deriving DecidableEq, Repr

/-- Which prefix a listener strips. -/
inductive AbsorbConfig where
  | nothing
  /-- Constant bytes, in hexadecimal. -/
  | exactly (digits : String)
  /-- So many bytes, whatever they are. -/
  | anyBytes (count : Nat)
  /-- A DNS prefix of this message length. -/
  | dnsOverTcp (length : Nat)
  deriving DecidableEq, Repr

/-- The bytes of a constant prefix. -/
def constantPrefix (digits : String) : Except ConfigFault Bytes :=
  match Text.Hex.decodeText (Text.trimmed digits) with
  | .error cause => .error (.badHex digits cause)
  | .ok bytes =>
    if bytes.length > maxPrefixLength then .error (.prefixTooLong bytes.length) else .ok bytes

/-- Reads a program that uses the standard builtins. -/
def standardProgram (text : String) : Except Fault Program :=
  (Program.parse Standard.registry text).mapError ParseFault.fault

def PrefixConfig.build : PrefixConfig → Except Fault PrefixMaker
  | .nothing => .ok .nothing
  | .generator program => (standardProgram program).map .generator
  | .hex digits => ((constantPrefix digits).mapError ConfigFault.fault).map .fixed
  | .dnsOverTcp length => ((DnsPrefix.ofLength length).mapError ConfigFault.fault).map .dnsOverTcp

def AbsorbConfig.build : AbsorbConfig → Except ConfigFault AbsorbPolicy
  | .nothing => .ok .nothing
  | .exactly digits => (constantPrefix digits).map .exactly
  | .anyBytes count =>
    if count > maxPrefixLength then .error (.absorbTooLong count) else .ok (.anyBytes count)
  | .dnsOverTcp length => (DnsPrefix.ofLength length).map .dnsOverTcp

/-- The configuration that describes a policy. -/
def AbsorbConfig.ofPolicy : AbsorbPolicy → AbsorbConfig
  | .nothing => .nothing
  | .exactly expected => .exactly (Text.Hex.encode expected)
  | .anyBytes count => .anyBytes count
  | .dnsOverTcp d => .dnsOverTcp d.messageLength.toNat

/-- What a dialer has to be told. -/
structure DialerConfig where
  addr : String
  /-- Key material for the cipher layer. -/
  secret : String
  cipher : String
  /-- The base name of placeholder targets. -/
  base : String
  writes : PrefixConfig
  deriving DecidableEq, Repr

/-- What a listener has to be told. -/
structure ListenerConfig where
  addr : String
  /-- Key material for the cipher layer. -/
  secret : String
  cipher : String
  /-- How many salts the cipher layer remembers. -/
  replayHistory : Nat
  absorb : AbsorbConfig
  /-- The milliseconds in which the prefix has to arrive; zero is without limit. -/
  absorbTimeout : Nat
  deriving DecidableEq, Repr

/-- The time limit of a listener that names none, in milliseconds. -/
def standardAbsorbTimeout : Nat := 10000

def ListenerConfig.absorber (c : ListenerConfig) : Except ConfigFault PrefixAbsorber := do
  let policy ← c.absorb.build
  return ⟨policy, if c.absorbTimeout = 0 then none else some c.absorbTimeout⟩

def plainCiphers : List String := ["plain", "none"]

/-- Refuses every cipher but those that leave the stream as it is. -/
def requirePlain (cipher : String) : Except ConfigFault Unit :=
  if cipher ∈ plainCiphers then .ok () else .error (.unsupportedCipher cipher)

end Camouflage
