import Camouflage.Address.Ipv4
import Camouflage.Text.Escape

/-!
# IPv6 addresses

Eight groups of sixteen bits. An address is read with one to four hexadecimal digits per group and
colons between the groups; two colons in a row may stand once for one or more groups of zeros, and
the last two groups may be written as an IPv4 address.

An address is written in lower case without leading zeros, with two colons for the first of the
longest runs of at least two zero groups. An IPv4-mapped address is written with its IPv4 address.
-/

namespace Camouflage

structure Ipv6 where
  groups : List UInt16
  length_groups : groups.length = 8
  deriving DecidableEq

namespace Ipv6

open Text

def isHexDigit (c : Char) : Bool :=
  c.isDigit || ('a' ≤ c && c ≤ 'f') || ('A' ≤ c && c ≤ 'F')

def hexValue (c : Char) : Nat :=
  if c.isDigit then c.toNat - '0'.toNat
  else if 'a' ≤ c then c.toNat - 'a'.toNat + 10
  else c.toNat - 'A'.toNat + 10

/-- Reads a group off the front of a text. -/
def readGroup (cs : List Char) : Option (UInt16 × List Char) :=
  let digits := cs.takeWhile isHexDigit
  if digits.isEmpty || digits.length > 4 then none
  else some (UInt16.ofNat (Ipv4.digitsValue 16 hexValue digits), cs.dropWhile isHexDigit)

/-- Reads a colon in front of what `read` reads, unless it is the first of its kind. -/
def separated {α : Type} (isFirst : Bool) (read : List Char → Option (α × List Char)) :
    List Char → Option (α × List Char)
  | cs =>
    if isFirst then read cs
    else match cs with
      | ':' :: rest => read rest
      | _ => none

/-- Reads up to `most` groups with colons between them. Where two more are allowed, an IPv4 address
may stand for both and ends the groups; the flag tells whether it did. -/
def readGroups (isFirst : Bool) : (most : Nat) → List Char → List UInt16 × Bool × List Char
  | 0, cs => ([], false, cs)
  | most + 1, cs =>
    match if most = 0 then none else separated isFirst Ipv4.read cs with
    | some (ip, rest) => ([Bytes.toUInt16 ip.a ip.b, Bytes.toUInt16 ip.c ip.d], true, rest)
    | none =>
      match separated isFirst readGroup cs with
      | some (group, rest) =>
        let (groups, mixed, rest') := readGroups false most rest
        (group :: groups, mixed, rest')
      | none => ([], false, cs)

def read (cs : List Char) : Option (Ipv6 × List Char) :=
  let whole (groups : List UInt16) (rest : List Char) : Option (Ipv6 × List Char) :=
    if h : groups.length = 8 then some (⟨groups, h⟩, rest) else none
  let (front, mixed, rest) := readGroups true 8 cs
  if front.length = 8 then whole front rest
  else if mixed then none
  else match rest with
    | ':' :: ':' :: rest =>
      let (back, _, rest) := readGroups true (7 - front.length) rest
      whole (front ++ List.replicate (8 - front.length - back.length) 0 ++ back) rest
    | _ => none

def ofText? (cs : List Char) : Option Ipv6 :=
  match read cs with
  | some (a, []) => some a
  | _ => none

/-- The IPv4 address inside an IPv4-mapped address. -/
def mapped? (ip : Ipv6) : Option Ipv4 :=
  match ip.groups with
  | [0, 0, 0, 0, 0, 0xFFFF, g, h] =>
    some ⟨UInt8.ofNat (g.toNat / 256), UInt8.ofNat (g.toNat % 256),
      UInt8.ofNat (h.toNat / 256), UInt8.ofNat (h.toNat % 256)⟩
  | _ => none

/-- The number of zeros at the front. -/
def zeroRun (groups : List UInt16) : Nat :=
  (groups.takeWhile (· = 0)).length

/-- The start and the length of the first of the longest runs of zeros. -/
def longestRun : List UInt16 → Nat × Nat
  | [] => (0, 0)
  | g :: gs =>
    let here := zeroRun (g :: gs)
    let (start, length) := longestRun gs
    if here ≥ length then (0, here) else (start + 1, length)

def groupText (g : UInt16) : List Char :=
  Nat.toDigits 16 g.toNat

/-- Groups with colons between them. -/
def groupsText : List UInt16 → List Char
  | [] => []
  | [g] => groupText g
  | g :: gs => groupText g ++ ':' :: groupsText gs

def text (ip : Ipv6) : List Char :=
  match ip.mapped? with
  | some ip => [':', ':', 'f', 'f', 'f', 'f', ':'] ++ ip.text
  | none =>
    let (start, length) := longestRun ip.groups
    if length > 1 then
      groupsText (ip.groups.take start) ++ [':', ':']
        ++ groupsText (ip.groups.drop (start + length))
    else groupsText ip.groups

def bytes (ip : Ipv6) : Bytes :=
  ip.groups.flatMap Bytes.ofUInt16

/-- The groups that some bytes spell, two bytes to a group. -/
def groupsOfBytes : Bytes → List UInt16
  | high :: low :: rest => Bytes.toUInt16 high low :: groupsOfBytes rest
  | _ => []

def ofBytes? (bs : Bytes) : Option Ipv6 :=
  if h : (groupsOfBytes bs).length = 8 then some ⟨groupsOfBytes bs, h⟩ else none

end Ipv6

end Camouflage
