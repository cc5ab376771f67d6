import Camouflage.Proofs.Prefix.Pairing
import Camouflage.Proofs.Prefix.Verdict
import Camouflage.Proofs.Program.Reference
import Camouflage.Proofs.Program.Spelled

/-!
# DNS prefixes made by a program

A DNS prefix can be written down as a program: its message length in digits, two random bytes, and
the flags. On every source the program makes the prefix with the two bytes that are drawn there
(`run_program`), so it makes the same prefixes as the maker that knows the format,
and those are accepted by a listener of the same length and of no other (`programText_agrees`).
-/

namespace Camouflage.DnsPrefix

open Text

/-! ## Lengths in digits -/

/-- Four digits, in either case, that write a number of sixteen bits, the highest one first. -/
def SpellsLength (digits : List Char) (length : Nat) : Prop :=
  digits.map Char.toLower =
    [length / 4096, length / 256 % 16, length / 16 % 16, length % 16].map Hex.digit

instance (digits : List Char) (length : Nat) : Decidable (SpellsLength digits length) :=
  inferInstanceAs (Decidable (digits.map Char.toLower =
    [length / 4096, length / 256 % 16, length / 16 % 16, length % 16].map Hex.digit))

/-- The digits of a length spell the two bytes that carry it. -/
theorem SpellsLength.spells {digits : List Char} {n : UInt16} (h : SpellsLength digits n.toNat) :
    Hex.Spells digits (Bytes.ofUInt16 n) := by
  have hlt := n.toNat_lt
  have hhigh : n.toNat / 4096 * 16 + n.toNat / 256 % 16 = n.toNat / 256 := by omega
  have hlow : n.toNat / 16 % 16 * 16 + n.toNat % 16 = n.toNat % 256 := by omega
  have hbytes : Bytes.ofUInt16 n =
      [UInt8.ofNat (n.toNat / 4096 * 16 + n.toNat / 256 % 16),
        UInt8.ofNat (n.toNat / 16 % 16 * 16 + n.toNat % 16)] := by
    rw [hhigh, hlow, Bytes.ofUInt16]
  have hhalves : Hex.halves (Bytes.ofUInt16 n) =
      [n.toNat / 4096, n.toNat / 256 % 16, n.toNat / 16 % 16, n.toNat % 16] := by
    rw [hbytes, Hex.halves_ofNat (by omega) (by omega), Hex.halves_ofNat (by omega) (by omega)]
    rfl
  rw [Hex.Spells, Hex.encodeChars_eq_map, hhalves]
  exact h

/-! ## What a DNS prefix is made of -/

/-- The maker makes the prefix with every transaction id, and nothing else. -/
theorem exists_run_make_iff {d : DnsPrefix} {out : Bytes} :
    (∃ s s', d.make.run s = some (out, s')) ↔ ∃ i j, out = d.withId [i, j] := by
  constructor
  · rintro ⟨s, s', h⟩
    exact exists_of_run_make h
  · rintro ⟨i, j, rfl⟩
    obtain ⟨s, s', hid⟩ := Draw.exists_run_bytes_two i j
    refine ⟨s, s', ?_⟩
    rw [make, Draw.run_bind_eq_some_iff]
    exact ⟨[i, j], s', hid, rfl⟩

section Absorb

variable {d : DnsPrefix} {i j : UInt8}

/-- Of a prefix with the flags of a query only the length is judged. -/
theorem verdict_withId (d' : DnsPrefix) : (AbsorbPolicy.dnsOverTcp d').verdict (d.withId [i, j]) =
    if d.messageLength = d'.messageLength then .ok (d.withId [i, j])
    else .fault (.dnsLength d'.messageLength d.messageLength) := by
  have hlength : (d.withId [i, j]).take 2 = Bytes.ofUInt16 d.messageLength := rfl
  have hflags : (d.withId [i, j]).drop 4 = [0x01, 0x20] := rfl
  have hactual : Bytes.toUInt16 ((d.withId [i, j]).getD 0 0) ((d.withId [i, j]).getD 1 0) =
      d.messageLength :=
    Bytes.toUInt16_ofNat_div_mod d.messageLength
  simp only [AbsorbPolicy.verdict, hlength, hflags, hactual, ne_eq, Bytes.ofUInt16_inj, not_true,
    ↓reduceIte, ite_not]

/-- A prefix in front of a payload is taken off by every policy for DNS prefixes. -/
theorem absorb_withId (d' : DnsPrefix) {deadline : Deadline} {peer : Peer} {payload : Bytes}
    {ending : Ending} (h : peer.arrival deadline = (d.withId [i, j] ++ payload, ending)) :
    ∃ peer', (AbsorbPolicy.dnsOverTcp d').absorb deadline peer =
        ((AbsorbPolicy.dnsOverTcp d').verdict (d.withId [i, j]), peer') ∧
      peer'.arrival deadline = (payload, ending) := by
  have hfits : (AbsorbPolicy.dnsOverTcp d').prefixLength ≤ maxPrefixLength := by
    change 6 ≤ 16384
    decide
  have htake : (peer.arrival deadline).1.take (AbsorbPolicy.dnsOverTcp d').prefixLength =
      d.withId [i, j] := by
    rw [h]
    rfl
  have henough : (AbsorbPolicy.dnsOverTcp d').prefixLength ≤ (peer.arrival deadline).1.length := by
    rw [h, List.length_append]
    exact Nat.le_add_right 6 payload.length
  obtain ⟨peer', habsorb, hgives⟩ := AbsorbPolicy.absorb_of_length_le hfits henough
  rw [htake] at habsorb hgives
  exact ⟨peer', habsorb, hgives.arrival deadline.within_refl h⟩

end Absorb

/-! ## The program -/

/-- The text of a program that makes DNS prefixes. -/
def programText (minorDigits lengthDigits : String) : String :=
  "v1." ++ minorDigits ++ " $hex(" ++ lengthDigits ++ ")$random_bytes(2, 2)$hex(0120)"

/-- The call that makes its transaction id. -/
def randomId : Program.Piece :=
  .call "random_bytes".toList "2, 2".toList ⟨Standard.randomBytes, some Standard.boundsHint⟩

def programPieces (lengthDigits : List Char) : List Program.Piece :=
  [.hex lengthDigits, randomId, .hex "0120".toList]

/-- The program itself. -/
def program (minor : UInt32) (lengthDigits : List Char) : Program :=
  ⟨minor, (programPieces lengthDigits).map Program.Piece.segment⟩

theorem spells_flags : Hex.Spells "0120".toList flags := by
  decide

section Program

variable {d : DnsPrefix} {minor : UInt32} {digits : List Char}
  (hdigits : Hex.Spells digits (Bytes.ofUInt16 d.messageLength))

include hdigits

theorem wellCut_programPieces : Program.WellCut Standard.registry (programPieces digits) := by
  refine Program.wellCut_call_cons.2 ⟨Program.Piece.wellFormed_hex_of_spells hdigits,
    Program.wellCut_call_cons.2 ⟨⟨by decide, by simp, rfl⟩,
    Program.wellCut_call_cons.2 ⟨Program.Piece.wellFormed_hex_of_spells spells_flags,
    Program.wellCut_nil⟩⟩⟩

/-- On every source the program makes the prefix with the two bytes that are drawn there. -/
theorem run_program {s s' : Source} {id : Bytes} (hid : (Draw.bytes 2).run s = some (id, s')) :
    (program minor digits).evaluate.run s = some (.ok (d.withId id), s') := by
  have hlength : (Program.Piece.hex digits).segment.produce.run s =
      some (.ok (Bytes.ofUInt16 d.messageLength), s) := by
    refine Program.run_produce_hex_of_spells hdigits (List.cons_ne_nil _ _) ?_ s
    change 2 ≤ 4096
    decide
  have hflags : (Program.Piece.hex "0120".toList).segment.produce.run s' = some (.ok flags, s') :=
    Program.run_produce_hex_of_spells spells_flags (by decide) (by decide) s'
  have hrandom : randomId.segment.produce.run s = some (.ok id, s') := by
    have hbounds : Standard.lengthBounds ["2", "2"] = .ok (2, 2) := rfl
    refine Draw.run_bind_eq_some_iff.2 ⟨.ok id, s', ?_, rfl⟩
    change (Standard.sized Draw.bytes ["2", "2"]).run s = _
    rw [Standard.sized, hbounds]
    exact Draw.run_bind_eq_some_iff.2 ⟨2, s, Draw.run_between_of_le (Nat.le_refl 2) s,
      Draw.run_bind_eq_some_iff.2 ⟨id, s', hid, rfl⟩⟩
  have hparts : (Program.makeParts (program minor digits).segments).run s =
      some (.ok [Bytes.ofUInt16 d.messageLength, id, flags], s') :=
    Program.run_makeParts_cons.2 ⟨_, s, _, hlength, Program.run_makeParts_cons.2
      ⟨_, s', _, hrandom, Program.run_makeParts_cons.2 ⟨_, s', [], hflags, rfl, rfl⟩, rfl⟩, rfl⟩
  have htwo := Draw.length_of_run_bytes hid
  refine (Program.run_produceFrom_eq_ok_iff (Nat.zero_le _)).2 ⟨_, hparts, ?_, ?_⟩
  · simp [withId]
  · simp [htwo, flags, maxPrefixLength]

/-- So it makes some prefix on every source. -/
theorem exists_run_program (minor : UInt32) (s : Source) :
    ∃ i j s', (program minor digits).evaluate.run s = some (.ok (d.withId [i, j]), s') := by
  have hid := Draw.run_bytes 2 s
  obtain ⟨i, j, htwo⟩ := List.length_eq_two.1 (Draw.length_of_run_bytes hid)
  rw [htwo] at hid
  exact ⟨i, j, _, run_program hdigits hid⟩

/-- The program makes the prefix with every transaction id, and nothing else. -/
theorem exists_run_program_iff {out : Bytes} :
    (∃ s s', (program minor digits).evaluate.run s = some (.ok out, s')) ↔
      ∃ i j, out = d.withId [i, j] := by
  constructor
  · rintro ⟨s, s', h⟩
    obtain ⟨i, j, t, hrun⟩ := exists_run_program hdigits minor s
    rw [hrun, Option.some.injEq, Prod.mk.injEq, Except.ok.injEq] at h
    exact ⟨i, j, h.1.symm⟩
  · rintro ⟨i, j, rfl⟩
    obtain ⟨s, s', hid⟩ := Draw.exists_run_bytes_two i j
    exact ⟨s, s', run_program hdigits hid⟩

end Program

/-! ## Both together -/

/-- **A program and the DNS format agree.** Let a message length be one of a DNS prefix, and write
it as four digits in either case. The program with this length, two random bytes and the flags is
read with every minor version. On every source it makes six bytes. In front of any payload, a
listener of the same length accepts these, a listener of another length refuses them for their
length, and both leave the payload. The program and the maker for this length make the same
prefixes: those with any two bytes for a transaction id. -/
theorem programText_agrees {length minor : Nat} {minorDigits lengthDigits : String}
    (hlength : length < 0xFFFF) (hminor : IsNumeral minorDigits.toList minor)
    (hbound : minor < 2 ^ 32) (hdigits : SpellsLength lengthDigits.toList length) :
    ∃ d p, ofLength length = .ok d ∧
      Program.parse Standard.registry (programText minorDigits lengthDigits) = .ok p ∧
      p.version = (1, minor) ∧
      (∀ s, ∃ out s', p.evaluate.run s = some (.ok out, s') ∧ out.length = 6 ∧
        ∀ deadline peer payload ending,
          Peer.arrival deadline peer = (out ++ payload, ending) →
            (∃ peer', (AbsorbPolicy.dnsOverTcp d).absorb deadline peer = (.ok out, peer') ∧
              peer'.arrival deadline = (payload, ending)) ∧
            ∀ other d', other ≠ length → ofLength other = .ok d' →
              ∃ peer', (AbsorbPolicy.dnsOverTcp d').absorb deadline peer =
                  (.fault (.dnsLength (UInt16.ofNat other) (UInt16.ofNat length)), peer') ∧
                peer'.arrival deadline = (payload, ending)) ∧
      (∀ out, (∃ s s', p.evaluate.run s = some (.ok out, s')) ↔
        ∃ i j, out = Bytes.ofUInt16 (UInt16.ofNat length) ++ [i, j, 0x01, 0x20]) ∧
      ∀ out, (∃ s s', d.make.run s = some (out, s')) ↔
        ∃ i j, out = Bytes.ofUInt16 (UInt16.ofNat length) ++ [i, j, 0x01, 0x20] := by
  obtain ⟨d, hd⟩ : ∃ d, ofLength length = .ok d := ⟨_, dif_pos hlength⟩
  obtain rfl := ofLength_eq_ok_iff.1 hd
  have hspells := hdigits.spells
  have hversion : Program.HasVersion (programText minorDigits lengthDigits).toList minor
      ((programPieces lengthDigits.toList).flatMap Program.Piece.spelled) := by
    refine ⟨['1'], minorDigits.toList, by decide, hminor, hbound, ?_⟩
    simp [programText, programPieces, randomId, Program.Piece.hex, Program.Piece.spelled]
  have hparse : Program.parse Standard.registry (programText minorDigits lengthDigits) =
      .ok (program (UInt32.ofNat minor) lengthDigits.toList) :=
    Program.parse_eq_ok_iff.2 ⟨minor, _, programPieces lengthDigits.toList, hversion,
      Program.pieces_eq_ok_iff.2 ⟨wellCut_programPieces hspells, rfl⟩, rfl⟩
  have hlayout : ∀ i j, d.withId [i, j] =
      Bytes.ofUInt16 (UInt16.ofNat d.messageLength.toNat) ++ [i, j, 0x01, 0x20] := by
    intro i j
    rw [UInt16.ofNat_toNat]
    rfl
  refine ⟨d, _, hd, hparse, Prod.ext rfl hversion.toNat_minor, ?_, ?_, ?_⟩
  · intro s
    obtain ⟨i, j, s', hrun⟩ := exists_run_program hspells _ s
    refine ⟨_, s', hrun, rfl, ?_⟩
    intro deadline peer payload ending hpeer
    refine ⟨?_, ?_⟩
    · obtain ⟨peer', habsorb, hleft⟩ := absorb_withId d hpeer
      rw [verdict_withId, if_pos rfl] at habsorb
      exact ⟨peer', habsorb, hleft⟩
    · intro other d' hother hd'
      obtain rfl := ofLength_eq_ok_iff.1 hd'
      obtain ⟨peer', habsorb, hleft⟩ := absorb_withId d' hpeer
      have hne : d.messageLength ≠ d'.messageLength := fun heq => hother (by rw [heq])
      rw [verdict_withId, if_neg hne] at habsorb
      rw [UInt16.ofNat_toNat, UInt16.ofNat_toNat]
      exact ⟨peer', habsorb, hleft⟩
  · intro out
    simp only [← hlayout]
    exact exists_run_program_iff hspells
  · intro out
    simp only [← hlayout]
    exact exists_run_make_iff

/-- The standard length in mixed case. -/
theorem programText_agrees_standard : ∃ d p, ofLength 1500 = .ok d ∧
    Program.parse Standard.registry "v1.07 $hex(05dC)$random_bytes(2, 2)$hex(0120)" = .ok p ∧
    p.version = (1, 7) ∧ ∀ s, ∃ out s', p.evaluate.run s = some (.ok out, s') ∧ out.length = 6 := by
  have hminor : IsNumeral "07".toList 7 := by decide
  have hdigits : SpellsLength "05dC".toList 1500 := by decide
  obtain ⟨d, p, hd, hp, hversion, hruns, -⟩ :=
    programText_agrees (by decide) hminor (by decide) hdigits
  refine ⟨d, p, hd, hp, hversion, ?_⟩
  intro s
  obtain ⟨out, s', hrun, hsix, -⟩ := hruns s
  exact ⟨out, s', hrun, hsix⟩

end Camouflage.DnsPrefix
