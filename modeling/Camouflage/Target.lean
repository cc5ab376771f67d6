import Camouflage.Address.Ipv6
import Camouflage.Stream.Whole
import Camouflage.Text.Split
import Camouflage.Text.Utf8

/-!
# Target headers

Behind the prefix the dialer names the target it wants: a type byte, an address, and the number of
a service there. The address is four bytes, sixteen bytes, or a length byte and so many bytes of a
domain name.

A target is also written as text, `host:number`. Reading that text, the number is what stands behind
the last colon; the host loses all brackets in front and behind, and is an IPv4 address, an IPv6
address or a domain name, whichever comes first. In the other direction an IPv6 address gets
brackets.
-/

namespace Camouflage

inductive Host where
  | v4 (ip : Ipv4)
  | v6 (ip : Ipv6)
  | domain (name : String)
  deriving DecidableEq

/-- What the dialer asks for. -/
structure Target where
  host : Host
  number : UInt16
  deriving DecidableEq

/-- Why a text or a header names no target. -/
inductive TargetFault where
  /-- No colon in the text. -/
  | noNumber (text : String)
  /-- No service number behind the last colon. -/
  | badNumber (text : String)
  /-- A domain name that is empty or has more than 255 bytes. -/
  | domainLength (length : Nat)
  /-- A domain name that is not UTF-8. -/
  | domainName (cause : Text.Utf8.Fault)
  /-- A type byte without a meaning. -/
  | addressType (byte : UInt8)
  deriving DecidableEq

namespace TargetFault

def message : TargetFault → String
  | .noNumber text => s!"target '{text}' has no port"
  | .badNumber text => s!"invalid port in target '{text}'"
  | .domainLength length => s!"invalid domain length {length}"
  | .domainName cause => s!"invalid domain name: {cause.message}"
  | .addressType byte => s!"unsupported address type: 0x{Text.hexPair byte}"

def fault (f : TargetFault) : Fault :=
  .cipher f.message

end TargetFault

namespace Host

open Text

/-- A host without the brackets around it. -/
def stripBrackets (cs : List Char) : List Char :=
  ((cs.dropWhile (· = '[')).reverse.dropWhile (· = ']')).reverse

/-- The host that a text without brackets names. -/
def ofChars (cs : List Char) : Except TargetFault Host :=
  match Ipv4.ofText? cs with
  | some ip => .ok (.v4 ip)
  | none =>
    match Ipv6.ofText? cs with
    | some ip => .ok (.v6 ip)
    | none =>
      let size := (encodeUtf8 cs).length
      if size = 0 ∨ size > 255 then .error (.domainLength size)
      else .ok (.domain (String.ofList cs))

def chars : Host → List Char
  | .v4 ip => ip.text
  | .v6 ip => '[' :: ip.text ++ [']']
  | .domain name => name.toList

/-- The type byte and the address of a host. -/
def header : Host → Bytes
  | .v4 ip => 0x01 :: ip.bytes
  | .v6 ip => 0x04 :: ip.bytes
  | .domain name => 0x03 :: UInt8.ofNat (utf8 name).length :: utf8 name

end Host

namespace Target

open Text

/-- The target that a text names. -/
def ofText (s : String) : Except TargetFault Target :=
  match splitLast ':' s.toList with
  | none => .error (.noNumber s)
  | some (host, digits) =>
    match readNat max16 digits with
    | .error _ => .error (.badNumber s)
    | .ok n => do return ⟨← Host.ofChars (Host.stripBrackets host), UInt16.ofNat n⟩

def text (t : Target) : String :=
  String.ofList (t.host.chars ++ ':' :: decimal t.number.toNat)

/-- The header of a target. -/
def header (t : Target) : Bytes :=
  t.host.header ++ Bytes.ofUInt16 t.number

/-- The header of the target that a text names. -/
def encode (s : String) : Except TargetFault Bytes := do
  return (← ofText s).header

variable {σ : Type} [Duplex σ]

/-- Goes on with what has been read, or stops with the fault that reading met. -/
def thenRead {α β : Type} (r : Reply IoFault α × σ) (next : α → σ → Reply Fault β × σ) :
    Reply Fault β × σ :=
  match r with
  | (.ok a, s) => next a s
  | (.fault e, s) => (.fault (.io e), s)
  | (.expired, s) => (.expired, s)

/-- Reads the service number behind a host. -/
def readNumber (host : Host) (deadline : Deadline) (s : σ) : Reply Fault Target × σ :=
  thenRead (Duplex.readNumber 2 deadline s) fun bs s =>
    (.ok ⟨host, Bytes.toUInt16 (bs.getD 0 0) (bs.getD 1 0)⟩, s)

/-- Reads the domain name of `size` bytes and what is behind it. -/
def readDomain (size : Nat) (deadline : Deadline) (s : σ) : Reply Fault Target × σ :=
  if size = 0 then (.fault (TargetFault.domainLength 0).fault, s)
  else thenRead (Duplex.readExact size deadline s) fun bs s =>
    match decodeUtf8 bs with
    | .error cause => (.fault (TargetFault.domainName cause).fault, s)
    | .ok cs => readNumber (.domain (String.ofList cs)) deadline s

/-- Reads a header off a stream, and not a byte more. -/
def read (deadline : Deadline) (s : σ) : Reply Fault Target × σ :=
  thenRead (Duplex.readNumber 1 deadline s) fun bs s =>
    match bs.getD 0 0 with
    | 0x01 =>
      thenRead (Duplex.readExact 4 deadline s) fun bs s =>
        readNumber (.v4 ⟨bs.getD 0 0, bs.getD 1 0, bs.getD 2 0, bs.getD 3 0⟩) deadline s
    | 0x03 =>
      thenRead (Duplex.readNumber 1 deadline s) fun bs s =>
        readDomain (bs.getD 0 0).toNat deadline s
    | 0x04 =>
      thenRead (Duplex.readExact 16 deadline s) fun bs s =>
        match Ipv6.ofBytes? bs with
        | some ip => readNumber (.v6 ip) deadline s
        | none => (.fault (TargetFault.addressType 0x04).fault, s)
    | other => (.fault (TargetFault.addressType other).fault, s)

end Target

end Camouflage
