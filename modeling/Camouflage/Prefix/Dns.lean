import Camouflage.Config.Fault
import Camouflage.Random.Source

/-!
# The DNS-over-TCP prefix

Six bytes that look like the beginning of a DNS query over TCP: a message length that both sides
have agreed on, a random transaction id, and the flags of a standard query with recursion desired.
-/

namespace Camouflage

/-- A DNS prefix with an agreed message length. The largest number of sixteen bits is no length. -/
structure DnsPrefix where
  messageLength : UInt16
  messageLength_lt : messageLength.toNat < 0xFFFF
  deriving DecidableEq

namespace DnsPrefix

def size : Nat := 6

/-- The flags of a standard query with recursion desired. -/
def flags : Bytes := [0x01, 0x20]

/-- A message length known to pass. -/
def standardLength : Nat := 1500

def ofLength (length : Nat) : Except ConfigFault DnsPrefix :=
  if h : length < 0xFFFF then
    .ok ⟨UInt16.ofNat length, by
      rw [UInt16.toNat_ofNat_of_lt' (Nat.lt_trans h (by decide))]
      exact h⟩
  else .error (.dnsLength length)

def standard : DnsPrefix :=
  ⟨1500, by decide⟩

/-- A prefix is made for a length exactly if this is its message length. -/
theorem ofLength_eq_ok_iff {length : Nat} {d : DnsPrefix} :
    ofLength length = .ok d ↔ d.messageLength.toNat = length := by
  unfold ofLength
  constructor
  · intro h
    split at h
    · rename_i hlt
      obtain rfl := Except.ok.inj h
      exact UInt16.toNat_ofNat_of_lt' (Nat.lt_trans hlt (by decide))
    · cases h
  · rintro rfl
    rw [dif_pos d.messageLength_lt]
    simp only [UInt16.ofNat_toNat]

@[simp] theorem ofLength_messageLength (d : DnsPrefix) : ofLength d.messageLength.toNat = .ok d :=
  ofLength_eq_ok_iff.2 rfl

/-- The bytes of a DNS prefix with a given transaction id. -/
def withId (d : DnsPrefix) (id : Bytes) : Bytes :=
  Bytes.ofUInt16 d.messageLength ++ id ++ flags

/-- A DNS prefix with a fresh transaction id. -/
def make (d : DnsPrefix) : Draw Bytes := do
  return d.withId (← Draw.bytes 2)

def text (d : DnsPrefix) : String :=
  "DnsPrefix \x7b msg_len: " ++ toString d.messageLength.toNat ++ " \x7d"

/-- Why six bytes are not this prefix, if they are not. The length is looked at first and the
transaction id not at all. -/
def mismatch? (d : DnsPrefix) : Bytes → Option Fault
  | [l0, l1, _, _, f0, f1] =>
    let actual := Bytes.toUInt16 l0 l1
    if actual ≠ d.messageLength then some (.dnsLength d.messageLength actual)
    else if [f0, f1] ≠ flags then some (.dnsFlags (Bytes.toUInt16 f0 f1))
    else none
  | _ => none

end DnsPrefix

end Camouflage
