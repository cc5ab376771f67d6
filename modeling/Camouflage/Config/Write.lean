import Camouflage.Config.Basic
import Camouflage.Json.Write
import Camouflage.Settings.Write

/-!
# Writing configurations

A configuration as entries of settings text and as members of a JSON object. Both forms name every
field, except that in settings text the absence of a prefix is the absence of its key.
-/

namespace Camouflage

open Json

/-- A number as a setting. -/
def numberSetting (n : Nat) : String :=
  String.ofList (Text.decimal n)

/-- The setting for the prefix that a dialer writes. -/
def PrefixConfig.setting? : PrefixConfig → Option (String × String)
  | .nothing => none
  | .generator program => some ("prefix", program)
  | .hex digits => some ("prefix_hex", digits)
  | .dnsOverTcp length => some ("prefix_dns", numberSetting length)

/-- The setting for the prefix that a listener strips. -/
def AbsorbConfig.setting? : AbsorbConfig → Option (String × String)
  | .nothing => none
  | .exactly digits => some ("absorb_hex", digits)
  | .anyBytes count => some ("absorb_len", numberSetting count)
  | .dnsOverTcp length => some ("absorb_dns", numberSetting length)

def DialerConfig.entries (c : DialerConfig) : List (String × String) :=
  [("addr", c.addr), ("secret", c.secret), ("cipher", c.cipher), ("upstream", c.base)]
    ++ c.writes.setting?.toList

def ListenerConfig.entries (c : ListenerConfig) : List (String × String) :=
  [("addr", c.addr), ("secret", c.secret), ("cipher", c.cipher),
    ("replay_history", numberSetting c.replayHistory),
    ("absorb_timeout_ms", numberSetting c.absorbTimeout)]
    ++ c.absorb.setting?.toList

/-- A variant with its content. -/
def writeVariant (name : String) (content : List Char) : List Char :=
  writeObject [(name, content)]

def PrefixConfig.json : PrefixConfig → List Char
  | .nothing => writeString "none"
  | .generator program => writeVariant "generator" (writeString program)
  | .hex digits => writeVariant "hex" (writeString digits)
  | .dnsOverTcp length => writeVariant "dns_over_tcp" (writeNat length)

def AbsorbConfig.json : AbsorbConfig → List Char
  | .nothing => writeString "none"
  | .exactly digits => writeVariant "exact" (writeString digits)
  | .anyBytes count => writeVariant "length" (writeNat count)
  | .dnsOverTcp length => writeVariant "dns_over_tcp" (writeNat length)

def DialerConfig.members (c : DialerConfig) : List (String × List Char) :=
  [("addr", writeString c.addr), ("secret", writeString c.secret),
    ("cipher", writeString c.cipher), ("upstream", writeString c.base), ("prefix", c.writes.json)]

def ListenerConfig.members (c : ListenerConfig) : List (String × List Char) :=
  [("addr", writeString c.addr), ("secret", writeString c.secret),
    ("cipher", writeString c.cipher), ("replay_history", writeNat c.replayHistory),
    ("absorb", c.absorb.json), ("absorb_timeout_ms", writeNat c.absorbTimeout)]

end Camouflage
