import Camouflage.Config.Basic
import Camouflage.Proofs.Outcome
import Camouflage.Proofs.Prefix.Pairing
import Camouflage.Proofs.Text.Hex

/-!
# What configurations build

A configuration only builds makers whose prefixes can be stripped: constant bytes are checked
against the limit, and programs are read with the standard registry.
-/

namespace Camouflage

/-- Constant bytes are those that the digits spell without the blanks around them, up to the
limit. -/
theorem constantPrefix_eq_ok_iff {digits : String} {bytes : Bytes} :
    constantPrefix digits = .ok bytes ↔
      Text.Hex.Spells (Text.trim digits.toList) bytes ∧ bytes.length ≤ maxPrefixLength := by
  have hread : Text.Hex.decodeText (Text.trimmed digits) = .ok bytes ↔
      Text.Hex.Spells (Text.trim digits.toList) bytes := by
    rw [Text.Hex.decodeText_eq_ok_iff, Text.trimmed, String.toList_ofList]
  rw [← hread, constantPrefix]
  cases Text.Hex.decodeText (Text.trimmed digits) with
  | error cause => simp
  | ok decoded =>
    dsimp only
    split
    · rename_i hlong
      simp only [reduceCtorEq, Except.ok.injEq, false_iff]
      rintro ⟨rfl, hfits⟩
      exact absurd hlong (Nat.not_lt.2 hfits)
    · rename_i hfits
      simp only [Except.ok.injEq]
      constructor
      · rintro rfl
        exact ⟨rfl, Nat.not_lt.1 hfits⟩
      · exact fun h => h.1

theorem length_le_of_constantPrefix {digits : String} {bytes : Bytes}
    (h : constantPrefix digits = .ok bytes) : bytes.length ≤ maxPrefixLength :=
  (constantPrefix_eq_ok_iff.1 h).2

theorem PrefixConfig.wellMade_of_build {c : PrefixConfig} {m : PrefixMaker}
    (h : c.build = .ok m) : m.WellMade := by
  cases c with
  | nothing =>
    cases h
    exact .nothing
  | generator text =>
    rw [build, map_eq_ok_iff] at h
    obtain ⟨program, hprogram, rfl⟩ := h
    rw [standardProgram, mapError_eq_ok_iff] at hprogram
    exact .generator Standard.sound_registry hprogram
  | hex digits =>
    rw [build, map_eq_ok_iff] at h
    obtain ⟨bytes, hbytes, rfl⟩ := h
    rw [mapError_eq_ok_iff] at hbytes
    exact .fixed (length_le_of_constantPrefix hbytes)
  | dnsOverTcp length =>
    rw [build, map_eq_ok_iff] at h
    obtain ⟨d, -, rfl⟩ := h
    exact .dnsOverTcp d

end Camouflage
