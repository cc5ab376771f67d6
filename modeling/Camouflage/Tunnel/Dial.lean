import Camouflage.Config.Basic
import Camouflage.Placeholder
import Camouflage.Stream.Smoothed
import Camouflage.Target

/-!
# Dialing

A dial makes the prefix, connects, writes the prefix, draws a placeholder, and writes the header
that asks for it. The order matters in two ways: a prefix that cannot be made costs no connection,
and a connection that fails before the header costs no placeholder. Nothing is tried again.

Prefixes and placeholders are drawn from two sources of their own.
-/

namespace Camouflage

/-- What makes connections to one server. -/
structure Dialer where
  addr : String
  maker : PrefixMaker
  /-- The base name of the placeholders. -/
  base : String

/-- What one dial leaves behind. -/
structure Dialed (σ : Type) where
  /-- The placeholder that was asked for, or why there is no connection. -/
  reply : Reply Fault String
  /-- The connection, if there was one at any time. -/
  stream : Option σ
  /-- The source of the prefixes, after the dial. -/
  prefixes : Source
  /-- The source of the placeholders, after the dial. -/
  placeholders : Source

namespace Dialed

variable {σ : Type}

/-- The connection as its user sees it, if the dial succeeded. -/
def connection? (d : Dialed σ) : Option (Smoothed σ) :=
  match d.reply with
  | .ok _ => d.stream.map Smoothed.mk
  | _ => none

end Dialed

namespace Dialer

def ofConfig (c : DialerConfig) : Except Fault Dialer := do
  (requirePlain c.cipher).mapError ConfigFault.fault
  return ⟨c.addr, ← c.writes.build, c.base⟩

variable {σ : Type} [Duplex σ]

/-- Asks for a fresh placeholder on a connection whose prefix has been written. -/
def request (d : Dialer) (deadline : Deadline) (s : σ) (prefixes placeholders : Source) :
    Option (Dialed σ) := do
  let (placeholder, placeholders) ← (Placeholder.fresh d.base).run placeholders
  match Target.encode placeholder with
  | .error e => return ⟨.fault e.fault, some s, prefixes, placeholders⟩
  | .ok header =>
    let (reply, s) := Duplex.writeAll header deadline s
    return ⟨(reply.mapFault .io).map fun _ => placeholder, some s, prefixes, placeholders⟩

/-- Opens one connection with `connect`. There is no outcome if a draw gives up. -/
def dial (d : Dialer) (connect : String → Except IoFault σ) (deadline : Deadline)
    (prefixes placeholders : Source) : Option (Dialed σ) := do
  let (made, prefixes) ← d.maker.make.run prefixes
  match made with
  | .error fault => return ⟨.fault fault, none, prefixes, placeholders⟩
  | .ok opening =>
    match connect d.addr with
    | .error e => return ⟨.fault (.io e), none, prefixes, placeholders⟩
    | .ok s =>
      match Duplex.writeAll opening deadline s with
      | (.ok _, s) => d.request deadline s prefixes placeholders
      | (.fault e, s) => return ⟨.fault (.io e), some s, prefixes, placeholders⟩
      | (.expired, s) => return ⟨.expired, some s, prefixes, placeholders⟩

end Dialer

end Camouflage
