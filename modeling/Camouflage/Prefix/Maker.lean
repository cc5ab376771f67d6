import Camouflage.Prefix.Policy
import Camouflage.Program.Basic

/-!
# Prefix makers

A maker produces the prefix of one connection. Making a prefix is a draw from the maker's own
source, so makers with separate sources never influence each other.

`matchingPolicy` is the policy with which a listener can strip what the maker makes, if there is
one. A program without calls is run to find its bytes; a program with calls is stripped by its
length, if that is known, and the bytes are not looked at.
-/

namespace Camouflage

/-- Produces one prefix per connection. -/
inductive PrefixMaker where
  | nothing
  /-- The same bytes every time. -/
  | fixed (bytes : Bytes)
  /-- A program, run anew every time. -/
  | generator (program : Program)
  /-- A DNS prefix with a random transaction id. -/
  | dnsOverTcp (d : DnsPrefix)

namespace PrefixMaker

def make : PrefixMaker → Draw (Except Fault Bytes)
  | .nothing => return .ok []
  | .fixed bytes => return .ok bytes
  | .generator program => program.evaluate
  | .dnsOverTcp d => return .ok (← d.make)

/-- The policy that strips this maker's prefixes, if there is one. -/
def matchingPolicy : PrefixMaker → Draw (Option AbsorbPolicy)
  | .nothing => return some .nothing
  | .fixed bytes => return some (.exactly bytes)
  | .generator program =>
    if program.isStatic then do return (← program.evaluate).toOption.map .exactly
    else return program.fixedLength?.map .anyBytes
  | .dnsOverTcp d => return some (.dnsOverTcp d)

end PrefixMaker

end Camouflage
