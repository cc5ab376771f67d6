import Camouflage.Config.Basic
import Camouflage.Settings

/-!
# Configurations from settings text

The prefix is settled first: the keys for it exclude each other, and the number of a DNS prefix or
of bytes to strip is read there and then. The other keys follow in a fixed order, and the first one
that is unusable is reported. Unknown keys say nothing.
-/

namespace Camouflage

open Settings

/-- The value of a key, empty if it is missing. -/
def Settings.valueOrEmpty (t : Settings) (key : String) : String :=
  (t.find? key).getD ""

/-- The prefix that a dialer's settings ask for. -/
def PrefixConfig.ofSettings (t : Settings) : Except ConfigFault PrefixConfig := do
  match ← t.exclusive ["prefix", "prefix_hex", "prefix_dns"] with
  | none => return .nothing
  | some ("prefix", program) => return .generator program
  | some ("prefix_hex", digits) => return .hex digits
  | some _ => return .dnsOverTcp ((← t.count "prefix_dns").getD DnsPrefix.standardLength)

/-- The prefix that a listener's settings ask for. -/
def AbsorbConfig.ofSettings (t : Settings) : Except ConfigFault AbsorbConfig := do
  match ← t.exclusive ["absorb_hex", "absorb_len", "absorb_dns"] with
  | none => return .nothing
  | some ("absorb_hex", digits) => return .exactly digits
  | some ("absorb_len", _) =>
    match ← t.count "absorb_len" with
    | some n => return .anyBytes n
    | none => throw .noAbsorbLength
  | some _ => return .dnsOverTcp ((← t.count "absorb_dns").getD DnsPrefix.standardLength)

def DialerConfig.ofSettings (t : Settings) : Except ConfigFault DialerConfig := do
  let writes ← PrefixConfig.ofSettings t
  let addr ← t.required "addr"
  let cipher ← t.required "cipher"
  let base ← t.required "upstream"
  return { addr, secret := t.valueOrEmpty "secret", cipher, base, writes }

def ListenerConfig.ofSettings (t : Settings) : Except ConfigFault ListenerConfig := do
  let absorb ← AbsorbConfig.ofSettings t
  let addr ← t.required "addr"
  let cipher ← t.required "cipher"
  let replayHistory := (← t.count "replay_history").getD 0
  let absorbTimeout := (← t.count "absorb_timeout_ms").getD standardAbsorbTimeout
  return { addr, secret := t.valueOrEmpty "secret", cipher, replayHistory, absorb, absorbTimeout }

def DialerConfig.ofBytes (bs : Bytes) : Except ConfigFault DialerConfig :=
  ofSettings (Settings.ofBytes bs)

def ListenerConfig.ofBytes (bs : Bytes) : Except ConfigFault ListenerConfig :=
  ofSettings (Settings.ofBytes bs)

end Camouflage
