import Camouflage.Program.Parse
import Camouflage.Proofs.Outcome
import Camouflage.Proofs.Text.Cuts
import Camouflage.Proofs.Text.Numeral

/-!
# The version in front of a program

A program text begins with `v`, two numerals with a point between them, and a blank. Neither
numeral holds a point or a blank, so the first ones found are the ones written
(`splitVersion_eq_ok_iff`), and what is left to reading a program is its body
(`parse_eq_ok_iff`).
-/

namespace Camouflage.Program

open Text

/-- A text of version 1 with a minor number and a body. -/
def HasVersion (text : List Char) (minor : Nat) (body : List Char) : Prop :=
  ∃ majorDigits minorDigits, IsNumeral majorDigits 1 ∧ IsNumeral minorDigits minor ∧
    minor < 2 ^ 32 ∧ text = 'v' :: (majorDigits ++ '.' :: (minorDigits ++ ' ' :: body))

theorem HasVersion.toNat_minor {text body : List Char} {minor : Nat}
    (h : HasVersion text minor body) : (UInt32.ofNat minor).toNat = minor := by
  obtain ⟨-, -, -, -, hbound, -⟩ := h
  rw [UInt32.toNat_ofNat']
  exact Nat.mod_eq_of_lt hbound

theorem readVersionNumber_eq_ok_iff {cs : List Char} {n : Nat} :
    readVersionNumber cs = .ok n ↔ IsNumeral cs n ∧ n < 2 ^ 32 := by
  unfold readVersionNumber
  split
  · rename_i h
    simp only [reduceCtorEq, false_iff]
    rintro ⟨⟨hne, hdigits, -⟩, -⟩
    simp only [Bool.or_eq_true, List.isEmpty_iff, Bool.not_eq_true', List.all_eq_false] at h
    rcases h with rfl | ⟨c, hc, hdigit⟩
    · exact hne rfl
    · exact hdigit (hdigits c hc)
  · rename_i h
    simp only [Bool.or_eq_true, List.isEmpty_iff, Bool.not_eq_true', not_or, Bool.not_eq_false,
      List.all_eq_true] at h
    obtain ⟨hne, hdigits⟩ := h
    have hread : readNat max32 cs = .ok n ↔ IsNumeral cs n ∧ n < 2 ^ 32 := by
      rw [readNat_eq_ok_iff hne hdigits]
      have hmax : n ≤ max32 ↔ n < 2 ^ 32 := by
        unfold max32
        omega
      rw [hmax]
      constructor
      · rintro ⟨hvalue, hn⟩
        exact ⟨⟨hne, hdigits, hvalue⟩, hn⟩
      · rintro ⟨⟨-, -, hvalue⟩, hn⟩
        exact ⟨hvalue, hn⟩
    rw [← hread]
    split <;> simp_all

/-- A version is split off exactly where one is written. -/
theorem splitVersion_eq_ok_iff {text body : List Char} {major minor : Nat} :
    splitVersion text = .ok (major, minor, body) ↔
      ∃ majorDigits minorDigits, (IsNumeral majorDigits major ∧ major < 2 ^ 32) ∧
        (IsNumeral minorDigits minor ∧ minor < 2 ^ 32) ∧
        text = 'v' :: (majorDigits ++ '.' :: (minorDigits ++ ' ' :: body)) := by
  constructor
  · intro h
    unfold splitVersion at h
    split at h
    · rename_i text
      split at h
      · cases h
      · rename_i version body' hblank
        split at h
        · cases h
        · rename_i majorDigits minorDigits hpoint
          obtain ⟨-, rfl⟩ := splitFirst_eq_some_iff.1 hblank
          obtain ⟨-, rfl⟩ := splitFirst_eq_some_iff.1 hpoint
          obtain ⟨m, hmajor, h⟩ := bind_eq_ok_iff.1 h
          obtain ⟨n, hminor, h⟩ := bind_eq_ok_iff.1 h
          cases h
          exact ⟨majorDigits, minorDigits, readVersionNumber_eq_ok_iff.1 hmajor,
            readVersionNumber_eq_ok_iff.1 hminor, by simp⟩
    · cases h
  · rintro ⟨majorDigits, minorDigits, hmajor, hminor, rfl⟩
    have hblank : splitFirst ' ' (majorDigits ++ '.' :: (minorDigits ++ ' ' :: body)) =
        some (majorDigits ++ '.' :: minorDigits, body) := by
      rw [splitFirst_eq_some_iff]
      refine ⟨?_, by simp⟩
      have hin := hmajor.1.notMem (c := ' ') rfl
      have hin' := hminor.1.notMem (c := ' ') rfl
      simp [hin, hin']
    have hpoint := splitFirst_append (hmajor.1.notMem (c := '.') rfl) minorDigits
    simp only [splitVersion, hblank, hpoint, readVersionNumber_eq_ok_iff.2 hmajor,
      readVersionNumber_eq_ok_iff.2 hminor]
    rfl

/-- A text is read exactly if it has the version and its body can be cut. -/
theorem parse_eq_ok_iff {registry : Registry} {text : String} {p : Program} :
    parse registry text = .ok p ↔
      ∃ minor body ps, HasVersion text.toList minor body ∧ pieces registry body = .ok ps ∧
        p = ⟨UInt32.ofNat minor, ps.map Piece.segment⟩ := by
  constructor
  · intro h
    obtain ⟨⟨major, minor, body⟩, hsplit, h⟩ := bind_eq_ok_iff.1 h
    dsimp only at h
    split at h
    · obtain ⟨-, h, -⟩ := bind_eq_ok_iff.1 h
      cases h
    · rename_i hone
      obtain rfl : major = 1 := not_not.1 hone
      obtain ⟨ps, hpieces, h⟩ := bind_eq_ok_iff.1 h
      cases h
      obtain ⟨majorDigits, minorDigits, hmajor, hminor, htext⟩ := splitVersion_eq_ok_iff.1 hsplit
      exact ⟨minor, body, ps, ⟨majorDigits, minorDigits, hmajor.1, hminor.1, hminor.2, htext⟩,
        hpieces, rfl⟩
  · rintro ⟨minor, body, ps, ⟨majorDigits, minorDigits, hmajor, hminor, hbound, htext⟩, hpieces,
      rfl⟩
    have hsplit : splitVersion text.toList = .ok (1, minor, body) := by
      rw [splitVersion_eq_ok_iff]
      exact ⟨majorDigits, minorDigits, ⟨hmajor, by decide⟩, ⟨hminor, hbound⟩, htext⟩
    exact bind_eq_ok_iff.2 ⟨_, hsplit, bind_eq_ok_iff.2 ⟨ps, hpieces, rfl⟩⟩

end Camouflage.Program
