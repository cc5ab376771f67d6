import Camouflage.Prefix.Dns
import Camouflage.Text.Escape

/-!
# Absorb policies

A prefix carries no length of its own, so the listener has to know how to recognise it. A policy
says how many bytes to take off the stream and which bytes to accept there.
-/

namespace Camouflage

/-- How a listener recognises the prefix its dialers send. -/
inductive AbsorbPolicy where
  | nothing
  | exactly (expected : Bytes)
  /-- So many bytes, whatever they are. -/
  | anyBytes (count : Nat)
  /-- A DNS prefix of an agreed message length. -/
  | dnsOverTcp (d : DnsPrefix)
  deriving DecidableEq

namespace AbsorbPolicy

/-- The number of bytes a policy takes off the stream. -/
def prefixLength : AbsorbPolicy → Nat
  | .nothing => 0
  | .exactly expected => expected.length
  | .anyBytes count => count
  | .dnsOverTcp _ => DnsPrefix.size

/-- Why bytes of the right number are refused, if they are. -/
def refusal? : AbsorbPolicy → Bytes → Option Fault
  | .nothing, _ => none
  | .exactly expected, actual =>
    if actual = expected then none
    else some (.prefixMismatch (Text.Hex.encode expected) (Text.Hex.encode actual))
  | .anyBytes _, _ => none
  | .dnsOverTcp d, actual => d.mismatch? actual

def text : AbsorbPolicy → String
  | .nothing => "None"
  | .exactly expected => "Exact(" ++ Text.literal expected ++ ")"
  | .anyBytes count => "Length(" ++ toString count ++ ")"
  | .dnsOverTcp d => "DnsOverTcp(" ++ d.text ++ ")"

end AbsorbPolicy

end Camouflage
