import Camouflage.Proofs.Config.Build
import Camouflage.Proofs.Text.Hex

/-!
# Configuring recommended absorbers

The policy that a dialer's configuration recommends can be written into that of a listener, and is
built from there again, exactly if it takes no more bytes than a prefix may have
(`build_ofPolicy_iff`). Only a program with calls is recommended a policy for more, because the
lengths of its calls are added up without a limit; but such a program never makes a prefix
(`configurable_of_matchingPolicy`).
-/

namespace Camouflage

open Text

/-! ## Policies in configurations -/

theorem constantPrefix_encode {bytes : Bytes} (h : bytes.length ≤ maxPrefixLength) :
    constantPrefix (Hex.encode bytes) = .ok bytes := by
  have hspells := Hex.spells_encodeChars bytes
  refine constantPrefix_eq_ok_iff.2 ⟨?_, h⟩
  rw [Hex.encode, String.toList_ofList, hspells.trim_eq]
  exact hspells

theorem DnsPrefix.size_le : size ≤ maxPrefixLength := by
  decide

theorem AbsorbConfig.build_anyBytes_of_lt {n : Nat} (h : maxPrefixLength < n) :
    (anyBytes n).build = .error (.absorbTooLong n) :=
  if_pos h

/-- A policy is built from the configuration that describes it exactly if it fits. -/
theorem AbsorbConfig.build_ofPolicy_iff {policy : AbsorbPolicy} :
    (ofPolicy policy).build = .ok policy ↔ policy.prefixLength ≤ maxPrefixLength := by
  cases policy with
  | nothing => exact ⟨fun _ => Nat.zero_le _, fun _ => rfl⟩
  | exactly expected =>
    constructor
    · intro h
      rw [ofPolicy, build, map_eq_ok_iff] at h
      obtain ⟨bytes, hbytes, hpolicy⟩ := h
      cases hpolicy
      exact length_le_of_constantPrefix hbytes
    · intro h
      rw [ofPolicy, build, constantPrefix_encode h]
      rfl
  | anyBytes count =>
    constructor
    · intro h
      by_contra hlong
      have hrefused := build_anyBytes_of_lt (Nat.not_le.1 hlong)
      cases h.symm.trans hrefused
    · intro h
      exact if_neg (Nat.not_lt.2 h)
  | dnsOverTcp d =>
    refine ⟨fun _ => DnsPrefix.size_le, fun _ => ?_⟩
    rw [ofPolicy, build, DnsPrefix.ofLength_messageLength]
    rfl

/-! ## Absorbing with a policy that fits -/

theorem AbsorbPolicy.refusal?_ne_absorbTooLarge {policy : AbsorbPolicy} {bs : Bytes}
    {size limit : Nat} : policy.refusal? bs ≠ some (.absorbTooLarge size limit) := by
  intro h
  cases policy with
  | nothing => cases h
  | anyBytes count => cases h
  | exactly expected =>
    rw [refusal?] at h
    split at h <;> cases h
  | dnsOverTcp d =>
    rw [refusal?] at h
    unfold DnsPrefix.mismatch? at h
    split at h
    · dsimp only at h
      split at h
      · cases h
      · split at h <;> cases h
    · cases h

/-- A policy that fits is never too large for any stream. -/
theorem AbsorbPolicy.absorb_ne_absorbTooLarge {policy : AbsorbPolicy}
    (h : policy.prefixLength ≤ maxPrefixLength) {σ : Type} [Duplex σ] (d : Deadline) (stream : σ)
    (size limit : Nat) : (policy.absorb d stream).1 ≠ .fault (.absorbTooLarge size limit) := by
  intro hlarge
  rw [absorb_eq_judge h rfl] at hlarge
  unfold judge at hlarge
  split at hlarge
  · split at hlarge
    · rename_i fault hrefusal
      obtain rfl := Reply.fault.inj hlarge
      exact refusal?_ne_absorbTooLarge hrefusal
    · cases hlarge
  · cases hlarge
  · cases hlarge

/-! ## Recommendations -/

section Recommended

variable {c : PrefixConfig} {m : PrefixMaker} {policy : AbsorbPolicy} {s s' : Source}

/-- A policy is found from bytes that fit, or from the length of a program with calls. -/
theorem PrefixMaker.WellMade.fits_or_anyBytes (hm : m.WellMade)
    (h : m.matchingPolicy.run s = some (some policy, s')) :
    policy.prefixLength ≤ maxPrefixLength ∨
      ∃ program n, m = .generator program ∧ policy = .anyBytes n := by
  cases hm with
  | nothing =>
    obtain ⟨hpolicy, -⟩ := Draw.run_pure_eq_some_iff.1 h
    cases hpolicy
    exact .inl (Nat.zero_le _)
  | fixed hfits =>
    obtain ⟨hpolicy, -⟩ := Draw.run_pure_eq_some_iff.1 h
    cases hpolicy
    exact .inl hfits
  | @generator registry text program hregistry hparse =>
    simp only [matchingPolicy] at h
    split at h
    · obtain ⟨made, t, hmade, h⟩ := Draw.run_bind_eq_some_iff.1 h
      obtain ⟨hpolicy, -⟩ := Draw.run_pure_eq_some_iff.1 h
      obtain ⟨bytes, hbytes, rfl⟩ := Option.map_eq_some_iff.1 hpolicy
      cases made with
      | error fault => cases hbytes
      | ok out =>
        cases hbytes
        exact .inl (Program.length_le_of_run_evaluate hmade)
    · obtain ⟨hpolicy, -⟩ := Draw.run_pure_eq_some_iff.1 h
      obtain ⟨n, -, rfl⟩ := Option.map_eq_some_iff.1 hpolicy
      exact .inr ⟨program, n, rfl, rfl⟩
  | dnsOverTcp d =>
    obtain ⟨hpolicy, -⟩ := Draw.run_pure_eq_some_iff.1 h
    cases hpolicy
    exact .inl DnsPrefix.size_le

theorem PrefixConfig.exists_text_of_build {program : Program}
    (h : c.build = .ok (.generator program)) : ∃ text, c = .generator text := by
  cases c with
  | generator text => exact ⟨text, rfl⟩
  | nothing => cases h
  | hex digits =>
    rw [build, map_eq_ok_iff] at h
    obtain ⟨bytes, -, hm⟩ := h
    cases hm
  | dnsOverTcp length =>
    rw [build, map_eq_ok_iff] at h
    obtain ⟨d, -, hm⟩ := h
    cases hm

/-- **Recommended absorbers that fit can be configured.** If the maker of a configuration recommends
a policy, this is built from the listener's configuration that describes it exactly if it takes no
more bytes than a prefix may have, and then absorbing with it is never refused as too large. A
policy for more bytes is only recommended for a program, by its length; the listener's configuration
refuses it because of this length, and no run of the program makes a prefix. -/
theorem PrefixConfig.configurable_of_matchingPolicy (hbuild : c.build = .ok m)
    (hpolicy : m.matchingPolicy.run s = some (some policy, s')) :
    ((AbsorbConfig.ofPolicy policy).build = .ok policy ↔ policy.prefixLength ≤ maxPrefixLength) ∧
    (policy.prefixLength ≤ maxPrefixLength → ∀ {σ : Type} [Duplex σ] (d : Deadline) (stream : σ)
      (size limit : Nat), (policy.absorb d stream).1 ≠ .fault (.absorbTooLarge size limit)) ∧
    (maxPrefixLength < policy.prefixLength → ∃ text n, c = .generator text ∧ policy = .anyBytes n ∧
      (AbsorbConfig.ofPolicy policy).build = .error (.absorbTooLong n) ∧
      ∀ t opening t', m.make.run t ≠ some (.ok opening, t')) := by
  have hm := PrefixConfig.wellMade_of_build hbuild
  refine ⟨AbsorbConfig.build_ofPolicy_iff, AbsorbPolicy.absorb_ne_absorbTooLarge, ?_⟩
  intro hlong
  rcases hm.fits_or_anyBytes hpolicy with hfits | ⟨program, n, rfl, rfl⟩
  · exact absurd hfits (Nat.not_le.2 hlong)
  · obtain ⟨text, rfl⟩ := PrefixConfig.exists_text_of_build hbuild
    refine ⟨text, n, rfl, rfl, AbsorbConfig.build_anyBytes_of_lt hlong, ?_⟩
    intro t opening t' hmake
    -- What was made would fit and have the length of the policy at the same time.
    have haccepts := hm.accepts hpolicy hmake
    exact absurd (haccepts.length ▸ haccepts.fits) (Nat.not_le.2 hlong)

/-- A constant prefix in mixed case with blanks around it. -/
theorem PrefixConfig.configurable_of_matchingPolicy_hex :
    (PrefixConfig.hex " 0aFF ").build = .ok (.fixed [10, 255]) ∧
    (AbsorbConfig.ofPolicy (.exactly [10, 255])).build = .ok (.exactly [10, 255]) ∧
    ((AbsorbPolicy.exactly [10, 255]).absorb none (Peer.ofChunks [[1, 2]])).1 ≠
      .fault (.absorbTooLarge 2 16384) := by
  have hbuild : (PrefixConfig.hex " 0aFF ").build = .ok (.fixed [10, 255]) := rfl
  have hpolicy : (PrefixMaker.fixed [10, 255]).matchingPolicy.run ⟨fun _ => 0, 0⟩ =
      some (some (.exactly [10, 255]), ⟨fun _ => 0, 0⟩) := rfl
  have hfits : (AbsorbPolicy.exactly [10, 255]).prefixLength ≤ maxPrefixLength := by decide
  obtain ⟨hiff, habsorb, -⟩ := PrefixConfig.configurable_of_matchingPolicy hbuild hpolicy
  exact ⟨hbuild, hiff.2 hfits, habsorb hfits none _ 2 16384⟩

/-- Five calls of 4096 bytes each are recommended a policy that no listener can be configured
for. -/
theorem PrefixConfig.not_configurable_calls :
    ∃ m, (PrefixConfig.generator (String.ofList ("v1.0 ".toList ++
        (List.replicate 5 "$random_bytes(4096, 4096)".toList).flatten))).build = .ok m ∧
      (∀ s, m.matchingPolicy.run s = some (some (.anyBytes 20480), s)) ∧
      (AbsorbConfig.ofPolicy (.anyBytes 20480)).build = .error (.absorbTooLong 20480) := by
  let call : Call :=
    ⟨"random_bytes", ["4096", "4096"], ⟨Standard.randomBytes, some Standard.boundsHint⟩⟩
  let piece : Program.Piece := .call "random_bytes".toList "4096, 4096".toList call.builtin
  have hpiece : piece.WellFormed Standard.registry := ⟨by decide, by simp, rfl⟩
  have hcut (k : Nat) : Program.WellCut Standard.registry (List.replicate k piece) := by
    induction k with
    | zero => exact Program.wellCut_nil
    | succ k ih => exact Program.wellCut_call_cons.2 ⟨hpiece, ih⟩
  have hparse : Program.parse Standard.registry (String.ofList ("v1.0 ".toList ++
      (List.replicate 5 "$random_bytes(4096, 4096)".toList).flatten)) =
      .ok ⟨0, List.replicate 5 (.call call)⟩ := by
    rw [Program.parse_eq_ok_iff, String.toList_ofList]
    refine ⟨0, _, List.replicate 5 piece, ⟨['1'], ['0'], by decide, by decide, by decide, rfl⟩,
      ?_, rfl⟩
    exact Program.pieces_eq_ok_iff.2 ⟨hcut 5, rfl⟩
  refine ⟨.generator ⟨0, List.replicate 5 (.call call)⟩, ?_, fun s => rfl,
    AbsorbConfig.build_anyBytes_of_lt (by decide)⟩
  rw [build, standardProgram, hparse]
  rfl

end Recommended

end Camouflage
