import Camouflage.Prefix.Maker
import Camouflage.Program.Standard
import Camouflage.Proofs.Prefix.Absorb
import Camouflage.Proofs.Program.Hints
import Camouflage.Proofs.Program.Length

/-!
# Makers and their policies

A prefix carries no length, so a listener strips what a dialer writes only if its policy agrees with
the maker on every byte of every run. `absorb_made` says that the matching policy does: what
is made is accepted by it (`WellMade.accepts`), and exactly these bytes are taken off the stream.
-/

namespace Camouflage

/-! ## DNS prefixes -/

namespace DnsPrefix

theorem exists_of_run_make {d : DnsPrefix} {s s' : Source} {opening : Bytes}
    (h : d.make.run s = some (opening, s')) : ∃ i j, opening = d.withId [i, j] := by
  obtain ⟨id, t, hid, h⟩ := Draw.run_bind_eq_some_iff.1 h
  obtain ⟨rfl, -⟩ := Draw.run_pure_eq_some_iff.1 h
  obtain ⟨i, j, rfl⟩ := List.length_eq_two.1 (Draw.length_of_run_bytes hid)
  exact ⟨i, j, rfl⟩

/-- The transaction id is not looked at. -/
theorem mismatch?_withId (d : DnsPrefix) (i j : UInt8) : d.mismatch? (d.withId [i, j]) = none := by
  simp [withId, Bytes.ofUInt16, flags, mismatch?, Bytes.toUInt16_ofNat_div_mod]

end DnsPrefix

namespace PrefixMaker

/-- The makers of prefixes that can be stripped: constant bytes have to fit, and a program has to
be read with a registry in which every hint is sound. -/
inductive WellMade : PrefixMaker → Prop
  | nothing : WellMade .nothing
  | fixed {bytes : Bytes} (h : bytes.length ≤ maxPrefixLength) : WellMade (.fixed bytes)
  | generator {registry : Registry} {text : String} {program : Program}
    (hregistry : registry.Sound) (h : Program.parse registry text = .ok program) :
    WellMade (.generator program)
  | dnsOverTcp (d : DnsPrefix) : WellMade (.dnsOverTcp d)

section Accepts

variable {policy : AbsorbPolicy} {s₀ s₁ s s' : Source} {opening : Bytes}

/-- A program without calls makes the bytes that its policy was found from, and one with calls
makes as many bytes as its policy takes. -/
theorem accepts_generator {program : Program} (hsound : ∀ seg ∈ program.segments, seg.HintSound)
    (hpolicy : (matchingPolicy (.generator program)).run s₀ = some (some policy, s₁))
    (hmake : program.evaluate.run s = some (.ok opening, s')) : policy.Accepts opening := by
  have hfits := Program.length_le_of_run_evaluate hmake
  simp only [matchingPolicy] at hpolicy
  split at hpolicy
  · rename_i hstatic
    obtain ⟨r, hr⟩ := Program.exists_run_evaluate_of_isStatic hstatic
    obtain ⟨r', t, hr', hpolicy⟩ := Draw.run_bind_eq_some_iff.1 hpolicy
    obtain ⟨hpolicy, -⟩ := Draw.run_pure_eq_some_iff.1 hpolicy
    rw [hr, Option.some.injEq, Prod.mk.injEq] at hr' hmake
    obtain ⟨rfl, -⟩ := hr'
    obtain ⟨rfl, -⟩ := hmake
    obtain rfl : AbsorbPolicy.exactly opening = policy := Option.some.inj hpolicy
    exact ⟨rfl, hfits, if_pos rfl⟩
  · obtain ⟨hpolicy, -⟩ := Draw.run_pure_eq_some_iff.1 hpolicy
    obtain ⟨n, hn, rfl⟩ := Option.map_eq_some_iff.1 hpolicy
    exact ⟨Program.length_of_run_evaluate hsound hn hmake, hfits, rfl⟩

/-- Whatever is made is accepted by the matching policy, whenever the policy was asked for. -/
theorem WellMade.accepts {m : PrefixMaker} (hm : m.WellMade)
    (hpolicy : m.matchingPolicy.run s₀ = some (some policy, s₁))
    (hmake : m.make.run s = some (.ok opening, s')) : policy.Accepts opening := by
  cases hm with
  | nothing =>
    obtain ⟨hpolicy, -⟩ := Draw.run_pure_eq_some_iff.1 hpolicy
    obtain ⟨hmake, -⟩ := Draw.run_pure_eq_some_iff.1 hmake
    cases hpolicy
    cases hmake
    exact ⟨rfl, Nat.zero_le _, rfl⟩
  | fixed hfits =>
    obtain ⟨hpolicy, -⟩ := Draw.run_pure_eq_some_iff.1 hpolicy
    obtain ⟨hmake, -⟩ := Draw.run_pure_eq_some_iff.1 hmake
    cases hpolicy
    cases hmake
    exact ⟨rfl, hfits, if_pos rfl⟩
  | generator hregistry hparse =>
    exact accepts_generator (Program.hintSound_of_parse hregistry hparse) hpolicy hmake
  | dnsOverTcp d =>
    obtain ⟨hpolicy, -⟩ := Draw.run_pure_eq_some_iff.1 hpolicy
    obtain ⟨made, t, hmade, hmake⟩ := Draw.run_bind_eq_some_iff.1 hmake
    obtain ⟨hmake, -⟩ := Draw.run_pure_eq_some_iff.1 hmake
    obtain ⟨i, j, rfl⟩ := DnsPrefix.exists_of_run_make hmade
    cases hpolicy
    cases hmake
    refine ⟨rfl, ?_, DnsPrefix.mismatch?_withId d i j⟩
    change 6 ≤ 16384
    decide

/-- **A listener strips what a dialer writes.** What a maker makes on any source has the length of
its matching policy, whatever source this was found with, and absorbing with the policy gives
these bytes and leaves what follows them. The standard registry is one in which every hint is
sound. -/
theorem absorb_made :
    Standard.registry.Sound ∧
      ∀ {m : PrefixMaker}, m.WellMade → ∀ {policy s₀ s₁},
        m.matchingPolicy.run s₀ = some (some policy, s₁) → ∀ {s s' opening},
          m.make.run s = some (.ok opening, s') →
            opening.length = policy.prefixLength ∧
              ∀ d peer rest ending, Peer.arrival d peer = (opening ++ rest, ending) →
                ∃ peer', policy.absorb d peer = (.ok opening, peer') ∧
                  peer'.arrival d = (rest, ending) := by
  refine ⟨Standard.sound_registry, ?_⟩
  intro m hm policy s₀ s₁ hpolicy s s' opening hmake
  have haccepts := hm.accepts hpolicy hmake
  refine ⟨haccepts.length, ?_⟩
  intro d peer rest ending hpeer
  obtain ⟨peer', habsorb, hgives⟩ := haccepts.absorb (Peer.isPrefix_of_arrival hpeer)
  exact ⟨peer', habsorb, hgives.arrival d.within_refl hpeer⟩

/-- Two random bytes behind a letter, on a source of zeros, sent in two chunks. -/
theorem absorb_made_random : ∃ peer',
    (AbsorbPolicy.anyBytes 3).absorb none (Peer.ofChunks [[0x41, 0], [0, 7, 8]]) =
      (.ok [0x41, 0, 0], peer') ∧ peer'.arrival none = ([7, 8], .closed) := by
  let call : Call := ⟨"random_bytes", ["2", "2"], ⟨Standard.randomBytes, some Standard.boundsHint⟩⟩
  let program : Program := ⟨0, [.literal "A", .call call]⟩
  have hparse : Program.parse Standard.registry "v1.0 A$random_bytes(2, 2)" = .ok program := by
    rw [Program.parse_eq_ok_iff]
    refine ⟨0, _, [.text ['A'], .call "random_bytes".toList "2, 2".toList call.builtin],
      ⟨['1'], ['0'], by decide, by decide, by decide, rfl⟩, ?_, rfl⟩
    rw [Program.pieces_eq_ok_iff]
    have hfree : Program.Unmarked [] ['A'] := ⟨rfl, trivial⟩
    refine ⟨?_, rfl⟩
    rw [Program.wellCut_text_cons, Program.wellCut_call_cons]
    exact ⟨⟨by simp, hfree.markerFree⟩, by simp [Program.StartsCall, Program.Piece.segment,
      Segment.isLiteral], ⟨by decide, by simp, rfl⟩, Program.wellCut_nil⟩
  have hm : WellMade (.generator program) := .generator Standard.sound_registry hparse
  have hpolicy : (matchingPolicy (.generator program)).run ⟨fun _ => 0, 0⟩ =
      some (some (.anyBytes 3), ⟨fun _ => 0, 0⟩) := rfl
  have hmake : (PrefixMaker.generator program).make.run ⟨fun _ => 0, 0⟩ =
      some (.ok [0x41, 0, 0], ⟨fun _ => 0, 1⟩) := rfl
  refine (absorb_made.2 hm hpolicy hmake).2 none _ [7, 8] .closed ?_
  exact Peer.arrival_ofChunks (by decide) none

end Accepts

end PrefixMaker

end Camouflage
