import Camouflage.Prefix.Absorb
import Camouflage.Proofs.Stream.Arrival

/-!
# Absorbing what has arrived

If the bytes that a policy takes arrive in time and are not refused, they are what is absorbed, and
whatever arrives behind them is left.
-/

namespace Camouflage

/-- The bytes of a policy: of the right number, not too many, and not refused. -/
structure AbsorbPolicy.Accepts (policy : AbsorbPolicy) (bs : Bytes) : Prop where
  length : bs.length = policy.prefixLength
  fits : bs.length ≤ maxPrefixLength
  accepted : policy.refusal? bs = none

/-- What a policy makes of the way in which reading its bytes came out. -/
def AbsorbPolicy.judge (policy : AbsorbPolicy) : Reply IoFault Bytes → Reply Fault Bytes
  | .ok bytes =>
    match policy.refusal? bytes with
    | some fault => .fault fault
    | none => .ok bytes
  | .fault cause => .fault (.shortPrefix policy.prefixLength cause)
  | .expired => .expired

/-- Absorbing is one whole read, and a judgement on it. -/
theorem AbsorbPolicy.absorb_eq_judge {σ : Type} [Duplex σ] {policy : AbsorbPolicy}
    (h : policy.prefixLength ≤ maxPrefixLength) {d : Deadline} {s s' : σ}
    {reply : Reply IoFault Bytes}
    (hread : Duplex.readExact policy.prefixLength d s = (reply, s')) :
    policy.absorb d s = (policy.judge reply, s') := by
  rw [absorb, readPrefix, if_neg (Nat.not_lt.2 h), hread]
  cases reply with
  | ok bytes =>
    simp only [judge, Reply.mapFault]
    cases policy.refusal? bytes <;> rfl
  | fault cause => rfl
  | expired => rfl

section Absorb

variable {policy : AbsorbPolicy} {bs : Bytes} {d : Deadline} {peer : Peer}

theorem AbsorbPolicy.Accepts.absorb (h : policy.Accepts bs) (hpeer : bs <+: (peer.arrival d).1) :
    ∃ peer', policy.absorb d peer = (.ok bs, peer') ∧ peer.Gives d bs peer' := by
  obtain ⟨peer', hread, hgives⟩ := Peer.readMore_of_isPrefix .earlyEnd hpeer
  refine ⟨peer', ?_, hgives⟩
  have hfits : policy.prefixLength ≤ maxPrefixLength := h.length ▸ h.fits
  rw [h.length] at hread
  rw [absorb_eq_judge hfits hread, judge, h.accepted]

/-- An absorber does so too if the bytes arrive within its time limit. -/
theorem PrefixAbsorber.absorb_of_accepts {timeout : Option Nat} (h : policy.Accepts bs)
    (hpeer : bs <+: (peer.arrival (timeout.map (peer.now + ·))).1) :
    ∃ peer', (PrefixAbsorber.mk policy timeout).absorb none peer = (.ok bs, peer') ∧
      peer.Gives (timeout.map (peer.now + ·)) bs peer' := by
  obtain ⟨peer', habsorb, hgives⟩ := h.absorb hpeer
  refine ⟨peer', ?_, hgives⟩
  cases timeout with
  | none => exact habsorb
  | some ms =>
    have hdue : policy.absorb (Deadline.orEarlier none (Duplex.now peer + ms)) peer =
        (.ok bs, peer') := habsorb
    simp only [PrefixAbsorber.absorb, hdue]

end Absorb

end Camouflage
