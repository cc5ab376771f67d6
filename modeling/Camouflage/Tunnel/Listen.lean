import Camouflage.Address.Endpoint
import Camouflage.Config.Basic
import Camouflage.Target

/-!
# Listening

A listener strips the prefix of each connection and then reads the header behind it. One deadline,
fixed when the connection arrives, bounds both together: the header only gets what the prefix has
left of the time. A connection whose prefix or header is not in order is dropped with a line in the
log, and the others do not notice.
-/

namespace Camouflage

variable {σ : Type}

/-- Takes the prefix and the header off a connection, both within the time limit of the absorber.
Gives the target that the header names. -/
def PrefixAbsorber.handle [Duplex σ] (absorber : PrefixAbsorber) (s : σ) : Reply Fault Target × σ :=
  let due := absorber.timeout.map (Duplex.now s + ·)
  match absorber.absorb none s with
  | (.ok _, s) =>
    match Target.read due s, absorber.timeout with
    | (.expired, s), some ms => (.fault (.handshakeTimeout (.ofMillis ms)), s)
    | result, _ => result
  | (.fault e, s) => (.fault e, s)
  | (.expired, s) => (.expired, s)

structure Listener where
  endpoint : Endpoint
  absorber : PrefixAbsorber
  closed : Bool := false

namespace Listener

/-- Listens on an address with `listen`, which gives the endpoint that it really is. -/
def bind (listen : String → Except IoFault Endpoint) (addr : String) (absorber : PrefixAbsorber) :
    Except Fault Listener := do
  return { endpoint := ← (listen addr).mapError .io, absorber }

def ofConfig (listen : String → Except IoFault Endpoint) (c : ListenerConfig) :
    Except Fault Listener := do
  (requirePlain c.cipher).mapError ConfigFault.fault
  bind listen c.addr (← c.absorber.mapError ConfigFault.fault)

def close (l : Listener) : Listener :=
  { l with closed := true }

/-- Takes one connection in. -/
def accept [Duplex σ] (l : Listener) (s : σ) : Reply Fault Target × σ :=
  if l.closed then (.fault .listenerClosed, s) else l.absorber.handle s

/-- The line in the log about a dropped connection. -/
def dropLine (peer : String) (fault : Fault) : String :=
  "[Listener] Dropping connection from " ++ peer ++ ": " ++ fault.message

end Listener

end Camouflage
