import Camouflage.Proofs.Prefix.Absorb
import Camouflage.Proofs.Stream.Shortfall

/-!
# What absorbing comes to

What comes of absorbing is a function of the bytes that arrive and of how they end, whatever the
chunks they come in: too large a policy takes nothing, too few bytes are a short prefix, and of
enough bytes the first are judged and the others left (`absorb_of_arrival`). What a policy accepts
is written down once more as `AbsorbPolicy.verdict`, on the bytes alone.
-/

namespace Camouflage

/-! ## Verdicts -/

/-- How absorbing `count` bytes ends if fewer arrive. -/
def Ending.shortPrefix (count : Nat) : Ending → Reply Fault Bytes
  | .closed => .fault (.shortPrefix count .earlyEnd)
  | .failed cause => .fault (.shortPrefix count cause)
  | .overdue => .expired

namespace AbsorbPolicy

/-- What a policy answers to as many bytes as it takes. Of a DNS prefix, the first two bytes are its
length and the last two are the flags of a standard query. -/
def verdict : AbsorbPolicy → Bytes → Reply Fault Bytes
  | .nothing, bs => .ok bs
  | .anyBytes _, bs => .ok bs
  | .exactly expected, bs =>
    if bs = expected then .ok bs
    else .fault (.prefixMismatch (Text.Hex.encode expected) (Text.Hex.encode bs))
  | .dnsOverTcp d, bs =>
    if bs.take 2 ≠ Bytes.ofUInt16 d.messageLength then
      .fault (.dnsLength d.messageLength (Bytes.toUInt16 (bs.getD 0 0) (bs.getD 1 0)))
    else if bs.drop 4 ≠ [0x01, 0x20] then
      .fault (.dnsFlags (Bytes.toUInt16 (bs.getD 4 0) (bs.getD 5 0)))
    else .ok bs

section Verdict

variable {policy : AbsorbPolicy} {bs : Bytes}

/-- The judgement on bytes of the right number is their verdict. -/
theorem judge_ok (hlength : bs.length = policy.prefixLength) :
    policy.judge (.ok bs) = policy.verdict bs := by
  cases policy with
  | nothing => rfl
  | anyBytes count => rfl
  | exactly expected =>
    by_cases hsame : bs = expected <;>
      simp only [verdict, judge, refusal?, hsame, ↓reduceIte]
  | dnsOverTcp d =>
    have hsix : bs.length = 6 := hlength
    obtain ⟨l0, l1, i, j, f0, f1, rfl⟩ : ∃ l0 l1 i j f0 f1, bs = [l0, l1, i, j, f0, f1] := by
      rcases bs with _ | ⟨l0, _ | ⟨l1, _ | ⟨i, _ | ⟨j, _ | ⟨f0, _ | ⟨f1, _ | ⟨more, bs⟩⟩⟩⟩⟩⟩⟩ <;>
        simp at hsix ⊢
    simp only [verdict, judge, refusal?, DnsPrefix.mismatch?, DnsPrefix.flags, List.take_succ_cons,
      List.take_zero, List.drop_succ_cons, List.drop_zero, ne_eq, ← Bytes.toUInt16_eq_iff,
      List.getD_cons_zero, List.getD_cons_succ]
    by_cases hsize : Bytes.toUInt16 l0 l1 = d.messageLength
    · by_cases hflags : [f0, f1] = [1, 32] <;>
        simp only [hsize, hflags, not_true, not_false_eq_true, ↓reduceIte]
    · simp only [hsize, not_false_eq_true, ↓reduceIte]

/-- The judgement on bytes that end too early is a short prefix. -/
theorem judge_reply (policy : AbsorbPolicy) (ending : Ending) :
    policy.judge (ending.reply .earlyEnd) = ending.shortPrefix policy.prefixLength := by
  cases ending <;> rfl

end Verdict

/-! ## Absorbing -/

section Absorb

variable {policy : AbsorbPolicy} {d : Deadline}

theorem absorb_of_lt {σ : Type} [Duplex σ] (h : maxPrefixLength < policy.prefixLength) (s : σ) :
    policy.absorb d s = (.fault (.absorbTooLarge policy.prefixLength maxPrefixLength), s) := by
  rw [absorb, readPrefix, if_pos h]

/-- A policy for no bytes does not touch the stream. -/
theorem absorb_of_prefixLength_eq_zero {σ : Type} [Duplex σ] (h : policy.prefixLength = 0) (s : σ) :
    policy.absorb d s = (.ok [], s) := by
  have hread : Duplex.readExact policy.prefixLength d s = (.ok [], s) := by
    rw [h, Duplex.readExact, Duplex.readMore, if_pos rfl]
  have hverdict : policy.verdict [] = .ok [] := by
    cases policy with
    | nothing => rfl
    | anyBytes count => rfl
    | exactly expected =>
      obtain rfl : expected = [] := List.length_eq_zero_iff.1 h
      rfl
    | dnsOverTcp d => cases h
  have hlength : ([] : Bytes).length = policy.prefixLength := h.symm
  rw [absorb_eq_judge (h ▸ Nat.zero_le _) hread, judge_ok hlength, hverdict]

theorem absorb_of_length_lt {peer : Peer} (h : policy.prefixLength ≤ maxPrefixLength)
    (hshort : (peer.arrival d).1.length < policy.prefixLength) :
    ∃ peer', policy.absorb d peer = ((peer.arrival d).2.shortPrefix policy.prefixLength, peer') ∧
      peer'.incoming = peer.beyond d := by
  obtain ⟨peer', hread, hleft⟩ := Peer.readMore_of_lt .earlyEnd [] hshort
  refine ⟨peer', ?_, hleft⟩
  rw [absorb_eq_judge h hread, judge_reply]

theorem absorb_of_length_le {peer : Peer} (h : policy.prefixLength ≤ maxPrefixLength)
    (henough : policy.prefixLength ≤ (peer.arrival d).1.length) :
    ∃ peer', policy.absorb d peer =
        (policy.verdict ((peer.arrival d).1.take policy.prefixLength), peer') ∧
      peer.Gives d ((peer.arrival d).1.take policy.prefixLength) peer' := by
  have hlength := List.length_take_of_le henough
  obtain ⟨peer', hread, hgives⟩ :=
    Peer.readMore_of_isPrefix .earlyEnd (List.take_prefix policy.prefixLength (peer.arrival d).1)
  rw [hlength] at hread
  refine ⟨peer', ?_, hgives⟩
  rw [absorb_eq_judge h hread, judge_ok hlength]

/-- **Absorption is exact.** Let `bytes` arrive and end in a certain way. A policy for more bytes
than a prefix may have takes nothing. If there are fewer than the policy takes, all of them are
lost, nothing behind their end is, and the fault is a short prefix with that end as its cause. Of
enough bytes, exactly the first are taken and judged. A policy for no bytes leaves every stream as
it is. -/
theorem absorb_of_arrival {peer : Peer} {bytes : Bytes} {ending : Ending}
    (h : peer.arrival d = (bytes, ending)) :
    (maxPrefixLength < policy.prefixLength →
      policy.absorb d peer =
        (.fault (.absorbTooLarge policy.prefixLength maxPrefixLength), peer)) ∧
    (policy.prefixLength ≤ maxPrefixLength → bytes.length < policy.prefixLength →
      ∃ peer', policy.absorb d peer = (ending.shortPrefix policy.prefixLength, peer') ∧
        peer'.incoming = peer.beyond d) ∧
    (policy.prefixLength ≤ maxPrefixLength → policy.prefixLength ≤ bytes.length →
      ∃ peer', policy.absorb d peer =
          (policy.verdict (bytes.take policy.prefixLength), peer') ∧
        peer'.arrival d = (bytes.drop policy.prefixLength, ending)) ∧
    (policy.prefixLength = 0 → ∀ {σ : Type} [Duplex σ] (s : σ),
      policy.absorb d s = (.ok [], s)) := by
  refine ⟨fun hlarge => absorb_of_lt hlarge peer, ?_, ?_, ?_⟩
  · intro hfits hshort
    have hshort' : (peer.arrival d).1.length < policy.prefixLength := by rwa [h]
    have habsorb := absorb_of_length_lt hfits hshort'
    rwa [h] at habsorb
  · intro hfits henough
    have henough' : policy.prefixLength ≤ (peer.arrival d).1.length := by rwa [h]
    obtain ⟨peer', habsorb, hgives⟩ := absorb_of_length_le hfits henough'
    rw [h] at habsorb hgives
    refine ⟨peer', habsorb, hgives.arrival d.within_refl ?_⟩
    rw [h, List.take_append_drop]
  · intro hzero σ _ s
    exact absorb_of_prefixLength_eq_zero hzero s

/-- A policy beyond the limit, one that misses a byte when the connection is reset, and a DNS prefix
in three chunks with a byte behind it. -/
theorem absorb_of_arrival_chunks :
    (anyBytes 16385).absorb none (Peer.ofChunks [[1]]) =
      (.fault (.absorbTooLarge 16385 16384), Peer.ofChunks [[1]]) ∧
    (∃ peer', (exactly [1, 2]).absorb none
        (Peer.mk [.data [1], .fault (.ofKind .connectionReset)] [] [] [] [] 0) =
      (.fault (.shortPrefix 2 (.ofKind .connectionReset)), peer') ∧ peer'.incoming = []) ∧
    (∃ peer', (dnsOverTcp .standard).absorb none
        (Peer.ofChunks [[5], [0xDC, 7, 7, 1], [0x20, 9]]) = (.ok [5, 0xDC, 7, 7, 1, 0x20], peer') ∧
      peer'.arrival none = ([9], .closed)) := by
  have hone : (Peer.ofChunks [[1]]).arrival none = ([1], .closed) := rfl
  have hreset :
      (Peer.mk [.data [1], .fault (.ofKind .connectionReset)] [] [] [] [] 0).arrival none =
        ([1], .failed (.ofKind .connectionReset)) := rfl
  have hdns : (Peer.ofChunks [[5], [0xDC, 7, 7, 1], [0x20, 9]]).arrival none =
      ([5, 0xDC, 7, 7, 1, 0x20, 9], .closed) := rfl
  refine ⟨?_, ?_, ?_⟩
  · exact (absorb_of_arrival hone).1 (by decide)
  · exact (absorb_of_arrival hreset).2.1 (by decide) (by decide)
  · exact (absorb_of_arrival hdns).2.2.1 (by decide) (by decide)

/-- A read that is interrupted is tried again, so a short prefix never names an interruption as its
cause: here it names the end behind it. -/
theorem absorb_interrupted :
    ((anyBytes 2).absorb none
        (Peer.mk [.data [1], .fault (.ofKind .interrupted)] [] [] [] [] 0)).1 =
      .fault (.shortPrefix 2 .earlyEnd) ∧
    ((anyBytes 2).absorb none
        (Peer.mk [.data [1], .fault (.ofKind .interrupted)] [] [] [] [] 0)).1 ≠
      .fault (.shortPrefix 2 (.ofKind .interrupted)) := by
  have hfits : (anyBytes 2).prefixLength ≤ maxPrefixLength := by decide
  have hshort : ((Peer.mk [.data [1], .fault (.ofKind .interrupted)] [] [] [] [] 0).arrival
      none).1.length < (anyBytes 2).prefixLength := by decide
  obtain ⟨peer', habsorb, -⟩ := absorb_of_length_lt hfits hshort
  rw [habsorb]
  refine ⟨rfl, ?_⟩
  change Reply.fault (Fault.shortPrefix 2 .earlyEnd) ≠ _
  decide

end Absorb

end AbsorbPolicy

end Camouflage
