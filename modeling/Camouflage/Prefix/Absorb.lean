import Camouflage.Prefix.Policy
import Camouflage.Stream.Whole

/-!
# Absorbing prefixes

The receiving side takes the prefix off the stream before anyone else sees it. Exactly as many
bytes are read as the policy says, and they are lost whether or not they are accepted. A policy
for no bytes does not touch the stream.

An absorber is a policy with an optional time limit for the whole prefix. Running out of time is
reported like a prefix that was cut short.
-/

namespace Camouflage

variable {σ : Type} [Duplex σ]

/-- Reads `count` bytes of a prefix. More than any prefix may have are refused before reading. -/
def readPrefix (count : Nat) (deadline : Deadline) (s : σ) : Reply Fault Bytes × σ :=
  if count > maxPrefixLength then (.fault (.absorbTooLarge count maxPrefixLength), s)
  else
    let (reply, s') := Duplex.readExact count deadline s
    (reply.mapFault (.shortPrefix count), s')

def AbsorbPolicy.absorb (policy : AbsorbPolicy) (deadline : Deadline) (s : σ) :
    Reply Fault Bytes × σ :=
  match readPrefix policy.prefixLength deadline s with
  | (.ok bytes, s') =>
    match policy.refusal? bytes with
    | some fault => (.fault fault, s')
    | none => (.ok bytes, s')
  | (reply, s') => (reply, s')

/-- A policy and the time, in milliseconds, in which the whole prefix has to arrive. -/
structure PrefixAbsorber where
  policy : AbsorbPolicy := .nothing
  timeout : Option Nat := none
  deriving DecidableEq

namespace PrefixAbsorber

/-- The fault of a prefix that has not arrived in time. -/
def late (policy : AbsorbPolicy) (ms : Nat) : Fault :=
  let span := (Duration.ofMillis ms).text
  .shortPrefix policy.prefixLength ⟨.timedOut, s!"prefix not received within {span}"⟩

/-- Takes a prefix off a stream. `limit` is the caller's own deadline: if that passes first, the
operation expires. -/
def absorb (absorber : PrefixAbsorber) (limit : Deadline) (s : σ) : Reply Fault Bytes × σ :=
  match absorber.timeout with
  | none => absorber.policy.absorb limit s
  | some ms =>
    let due := Duplex.now s + ms
    match absorber.policy.absorb (limit.orEarlier due) s with
    | (.expired, s') =>
      if limit.admits due then (.fault (late absorber.policy ms), s') else (.expired, s')
    | (reply, s') => (reply, s')

end PrefixAbsorber

end Camouflage
