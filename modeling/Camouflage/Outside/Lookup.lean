import Camouflage.Address.Endpoint
import Camouflage.Fault
import Camouflage.Text.Integer
import Camouflage.Text.Split

/-!
# Looking up addresses

What the system makes of the text of an address. This is the outer layer: tunnels are given it as a
function, and nothing that is proved of them rests on it.

An endpoint is written as `a.b.c.d:n` or as
`[v6]:n`; an IPv6 address may carry a zone behind a percent sign. A text that does not spell an
endpoint may still name one: a host, a colon and a service number. The host may be an IPv4 address
in a shorter or another numeral form, an IPv6 address without brackets, or the name of this host.
Any other name would have to be asked for elsewhere, and nobody answers.
-/

namespace Camouflage

open Text

namespace Endpoint

/-- The number that ASCII digits spell, if there are any and it fits into `limit`. -/
def readDigitsOnly (limit : Nat) (cs : List Char) : Option Nat :=
  if cs.isEmpty || !cs.all Char.isDigit then none else (readNat limit cs).toOption

/-- Takes the zone of an IPv6 address off the front of a text; without one it is zero. -/
def readZone : List Char → Option (UInt32 × List Char)
  | '%' :: cs => do
    let zone ← readDigitsOnly max32 (cs.takeWhile Char.isDigit)
    return (UInt32.ofNat zone, cs.dropWhile Char.isDigit)
  | cs => some (0, cs)

def ofText? : List Char → Option Endpoint
  | '[' :: cs => do
    let (ip, rest) ← Ipv6.read cs
    match ← readZone rest with
    | (zone, ']' :: ':' :: digits) =>
      return ⟨.v6 ip, zone, UInt16.ofNat (← readDigitsOnly max16 digits)⟩
    | _ => none
  | cs => do
    let (ip, rest) ← Ipv4.read cs
    match rest with
    | ':' :: digits => return ⟨.v4 ip, 0, UInt16.ofNat (← readDigitsOnly max16 digits)⟩
    | _ => none

end Endpoint

inductive LookupFault where
  /-- The text is no name of a host. -/
  | noName
  /-- Nobody answers for the name. -/
  | noAnswer
  /-- The text holds a NUL, which no name may. -/
  | holdsNul
  deriving DecidableEq, Repr

def LookupFault.fault : LookupFault → IoFault
  | .noName => ⟨.uncategorized, "failed to lookup address information: Name or service not known"⟩
  | .noAnswer =>
    ⟨.uncategorized,
      "failed to lookup address information: Temporary failure in name resolution"⟩
  | .holdsNul => ⟨.invalidInput, "file name contained an unexpected NUL byte"⟩

namespace Ipv4

/-- The number that digits of a radix spell, if there are any. -/
def readRadix (radix : Nat) (isDigit : Char → Bool) (digits : List Char) : Option Nat :=
  if digits.isEmpty || !digits.all isDigit then none
  else some (digitsValue radix Ipv6.hexValue digits)

/-- A number of an address in numeral form: hexadecimal behind `0x`, octal behind another zero, and
decimal otherwise. -/
def readNumeral : List Char → Option Nat
  | '0' :: 'x' :: digits => readRadix 16 Ipv6.isHexDigit digits
  | '0' :: 'X' :: digits => readRadix 16 Ipv6.isHexDigit digits
  | '0' :: digits => readRadix 8 (fun c => '0' ≤ c && c ≤ '7') ('0' :: digits)
  | digits => readRadix 10 Char.isDigit digits

/-- The value of the numbers of an address below `span`: each takes the first byte of what is left,
and the last one takes all of it. -/
def joinNumerals (span : Nat) : List Nat → Option Nat
  | [] => none
  | [n] => if n < span then some n else none
  | n :: ns =>
    if n < 256 && span > 256 then
      (joinNumerals (span / 256) ns).map (n * (span / 256) + ·)
    else none

/-- The address of one to four numerals with points between them. -/
def ofNumerals? (cs : List Char) : Option Ipv4 := do
  let n ← joinNumerals (max32 + 1) (← (splitAll '.' cs).mapM readNumeral)
  let byte (unit : Nat) : UInt8 := UInt8.ofNat (n / unit % 256)
  return ⟨byte 16777216, byte 65536, byte 256, byte 1⟩

end Ipv4

namespace HostName

/-- Whether a character may occur in the name of a host, points apart. -/
def allows (c : Char) : Bool :=
  c.isAlphanum || c = '-' || c = '_'

/-- The most characters of a name, without a point at its end. -/
def maxLength : Nat := 253

/-- The most characters between the points of a name. -/
def maxLabel : Nat := 63

/-- Whether a text without a point at its end has the form of a name. -/
def isName (cs : List Char) : Bool :=
  cs.length ≤ maxLength && cs.head? ≠ some '-'
    && (splitAll '.' cs).all fun label =>
      !label.isEmpty && label.length ≤ maxLabel && label.all allows

/-- Whether a text can be asked for as a name: one point at its end is left out of account, and a
point alone is the root of all names. -/
def canBeAsked (cs : List Char) : Bool :=
  cs = ['.'] || isName (if cs.getLast? = some '.' then cs.dropLast else cs)

def ownName : String := "localhost"

def ownAddress : Ipv4 := ⟨127, 0, 0, 1⟩

/-- The address of a host, and its zone. -/
def lookup (cs : List Char) : Except LookupFault (IpAddress × UInt32) :=
  if '\x00' ∈ cs then .error .holdsNul
  else
    match Ipv4.ofNumerals? cs with
    | some ip => .ok (.v4 ip, 0)
    | none =>
      match Ipv6.read cs with
      | some (ip, rest) =>
        match Endpoint.readZone rest with
        | some (zone, []) => .ok (.v6 ip, zone)
        | _ => .error .noName
      | none =>
        if cs.map Char.toLower = ownName.toList then .ok (.v4 ownAddress, 0)
        else .error (if canBeAsked cs then .noAnswer else .noName)

end HostName

/-- The endpoint that an address in settings names, or why there is none. -/
def Endpoint.resolve (s : String) : Except IoFault Endpoint :=
  match ofText? s.toList with
  | some endpoint => .ok endpoint
  | none =>
    match splitLast ':' s.toList with
    | none => .error ⟨.invalidInput, "invalid socket address"⟩
    | some (host, digits) =>
      match readNat max16 digits with
      | .error _ => .error ⟨.invalidInput, "invalid port value"⟩
      | .ok n =>
        match HostName.lookup host with
        | .ok (ip, zone) => .ok ⟨ip, zone, UInt16.ofNat n⟩
        | .error fault => .error fault.fault

end Camouflage
