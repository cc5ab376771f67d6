import Camouflage.Duration
import Camouflage.Text.Escape

/-!
# What can go wrong

`Fault` lists every way in which building or running a tunnel fails. A fault has a wording and a
class. The class tells a caller what to give up: the configuration, or only the connection at hand.
-/

namespace Camouflage

inductive IoKind where
  | notFound | permissionDenied | connectionRefused | connectionReset | connectionAborted
  | notConnected | addrInUse | addrNotAvailable | networkUnreachable | brokenPipe
  | alreadyExists | wouldBlock | invalidInput | invalidData | timedOut | writeZero
  | interrupted | unsupported | unexpectedEof | outOfMemory | other | uncategorized
  deriving DecidableEq, Repr

/-- The wording of a fault of which only the kind is known. -/
def IoKind.text : IoKind → String
  | .notFound => "entity not found"
  | .permissionDenied => "permission denied"
  | .connectionRefused => "connection refused"
  | .connectionReset => "connection reset"
  | .connectionAborted => "connection aborted"
  | .notConnected => "not connected"
  | .addrInUse => "address in use"
  | .addrNotAvailable => "address not available"
  | .networkUnreachable => "network unreachable"
  | .brokenPipe => "broken pipe"
  | .alreadyExists => "entity already exists"
  | .wouldBlock => "operation would block"
  | .invalidInput => "invalid input parameter"
  | .invalidData => "invalid data"
  | .timedOut => "timed out"
  | .writeZero => "write zero"
  | .interrupted => "operation interrupted"
  | .unsupported => "unsupported"
  | .unexpectedEof => "unexpected end of file"
  | .outOfMemory => "out of memory"
  | .other => "other error"
  | .uncategorized => "uncategorized error"

/-- An input or output fault: its kind and its wording. -/
structure IoFault where
  kind : IoKind
  message : String
  deriving DecidableEq, Repr

namespace IoFault

def ofKind (kind : IoKind) : IoFault :=
  ⟨kind, kind.text⟩

/-- A fault that the operating system reports under a number. -/
def ofSystem (kind : IoKind) (text : String) (number : Nat) : IoFault :=
  ⟨kind, s!"{text} (os error {number})"⟩

/-- The bytes ended before a wanted number of them had been read. -/
def earlyEnd : IoFault :=
  ⟨.unexpectedEof, "early eof"⟩

/-- The kinds that tell of a connection closed on this side. -/
def tellsClosed (f : IoFault) : Bool :=
  f.kind = .notConnected || f.kind = .brokenPipe || f.kind = .connectionAborted

end IoFault

inductive FaultKind where
  | config | parse | runtime | protocol | io
  deriving DecidableEq, Repr

/-- Every way in which building or running a tunnel fails. -/
inductive Fault where
  | io (cause : IoFault)
  | config (reason : String)
  | parse (reason : String)
  /-- A builtin failed during one run of a program. -/
  | builtin (name reason : String)
  /-- One run of a program made too many bytes. -/
  | prefixTooLarge (size limit : Nat)
  /-- The connection ended, failed or fell silent before the whole prefix had arrived. -/
  | shortPrefix (expected : Nat) (cause : IoFault)
  /-- A listener was asked to strip more than any prefix may have. -/
  | absorbTooLarge (size limit : Nat)
  /-- The prefix was there in time, and the header behind it was not. -/
  | handshakeTimeout (timeout : Duration)
  /-- The bytes that arrived are not the expected ones; both in hexadecimal. -/
  | prefixMismatch (expected actual : String)
  /-- The length field of a DNS prefix is not the agreed one. -/
  | dnsLength (expected actual : UInt16)
  /-- The flags of a DNS prefix are not those of a standard query. -/
  | dnsFlags (actual : UInt16)
  | cipher (reason : String)
  | listenerClosed
  deriving DecidableEq, Repr

namespace Fault

/-- Four lower-case hexadecimal digits. -/
def hexWord (n : UInt16) : String :=
  Text.hexPair (UInt8.ofNat (n.toNat / 256)) ++ Text.hexPair (UInt8.ofNat (n.toNat % 256))

def message : Fault → String
  | .io cause => "IO error: " ++ cause.message
  | .config reason => "Configuration error: " ++ reason
  | .parse reason => "Generator parse error: " ++ reason
  | .builtin name reason => s!"Builtin ${name} failed: {reason}"
  | .prefixTooLarge size limit => s!"Prefix too large: {size} bytes exceeds limit of {limit}"
  | .shortPrefix expected cause => s!"Short prefix: expected {expected} bytes: {cause.message}"
  | .absorbTooLarge size limit => s!"Absorb length {size} exceeds limit of {limit}"
  | .handshakeTimeout timeout => s!"Handshake not completed within {timeout.text}"
  | .prefixMismatch expected actual => s!"Invalid prefix. Expected {expected} but got {actual}"
  | .dnsLength expected actual =>
    s!"Invalid prefix length (expected {expected.toNat}; got {actual.toNat})"
  | .dnsFlags actual => s!"Invalid prefix flags (expected 0x0120; got 0x{hexWord actual})"
  | .cipher reason => "Cipher error: " ++ reason
  | .listenerClosed => "Listener closed"

def kind : Fault → FaultKind
  | .config _ => .config
  | .parse _ => .parse
  | .builtin _ _ | .prefixTooLarge _ _ => .runtime
  | .shortPrefix _ _ | .absorbTooLarge _ _ | .handshakeTimeout _ | .prefixMismatch _ _
  | .dnsLength _ _ | .dnsFlags _ | .cipher _ => .protocol
  | .io _ | .listenerClosed => .io

/-- Whether a fault concerns one connection only, and not the whole configuration. -/
def perConnection (f : Fault) : Bool :=
  match f.kind with
  | .config | .parse => false
  | .runtime | .protocol | .io => true

end Fault

end Camouflage
