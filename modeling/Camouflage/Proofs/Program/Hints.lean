import Camouflage.Program.Standard
import Camouflage.Proofs.Outcome
import Camouflage.Proofs.Random.Draws
import Camouflage.Proofs.Text.Hex

/-!
# Length hints

The hints of the standard builtins are sound: a call that succeeds gives as many bytes as its hint
says. The draws of a call have the length of their range, which the hint only tells when it has
one element; the bytes of `hex` are read in pairs of digits.
-/

namespace Camouflage

namespace Registry

theorem sound_empty : empty.Sound := by
  intro name b h
  rw [find?_empty] at h
  cases h

/-- Registering a builtin with a sound hint keeps a registry sound. -/
theorem Sound.registerSized {r : Registry} (hr : r.Sound) {name : String}
    {run : List String → Draw (Except String Bytes)} {hint : List String → Option Nat}
    (h : Builtin.HintSound ⟨run, some hint⟩) : (r.registerSized name run hint).Sound := by
  intro name' b hb
  rw [find?_registerSized] at hb
  split at hb
  · rw [← Option.some.inj hb]
    exact h
  · exact hr name' b hb

end Registry

namespace Standard

open Text

theorem length_of_hexBytes {digits : String} {bs : Bytes} (h : hexBytes [digits] = .ok bs) :
    bs.length = (utf8 digits).length / 2 := by
  simp only [hexBytes] at h
  split at h
  · cases h
  · split at h
    · rename_i decoded hdecoded
      rw [← Except.ok.inj h]
      exact Hex.length_of_decodeText hdecoded
    · cases h

theorem boundsHint_eq_some_iff {args : List String} {n : Nat} :
    boundsHint args = some n ↔ lengthBounds args = .ok (n, n) := by
  unfold boundsHint
  split
  · rename_i least most hbounds
    rw [hbounds]
    simp only [Except.ok.injEq, Prod.mk.injEq]
    split <;> simp <;> omega
  · rename_i hbounds
    simp [hbounds]

/-- The hint of `hex` is for texts that spell so many bytes, whether these are too many or not. -/
theorem hexHint_eq_some_iff {args : List String} {n : Nat} :
    hexHint args = some n ↔ ∃ digits bs, args = [digits] ∧ Hex.decodeText digits = .ok bs ∧
      bs.length = n := by
  constructor
  · intro h
    unfold hexHint at h
    split at h
    · rename_i digits
      dsimp only at h
      split at h
      · rename_i hdigits
        rw [List.all_eq_true] at hdigits
        obtain ⟨bs, hbs⟩ := Hex.exists_decodeText_iff.2 hdigits
        exact ⟨digits, bs, rfl, hbs, (Hex.length_of_decodeText hbs).trans (Option.some.inj h)⟩
      · cases h
    · cases h
  · rintro ⟨digits, bs, rfl, hbs, rfl⟩
    have hdigits := Hex.exists_decodeText_iff.1 ⟨bs, hbs⟩
    rw [← List.all_eq_true] at hdigits
    simp only [hexHint, if_pos hdigits, Hex.length_of_decodeText hbs]

/-- A call for which there is a hint fills the range of its arguments, which has one length. -/
theorem ok_of_run_sized {fill : Nat → Draw Bytes}
    (hfill : ∀ n s out s', (fill n).run s = some (out, s') → out.length = n)
    {args : List String} {n : Nat} (hn : boundsHint args = some n) {s s' : Source}
    {r : Except String Bytes} (hrun : (sized fill args).run s = some (r, s')) :
    ∃ out, r = .ok out ∧ out.length = n := by
  rw [sized, boundsHint_eq_some_iff.1 hn] at hrun
  obtain ⟨m, t, hm, hrun⟩ := Draw.run_bind_eq_some_iff.1 hrun
  obtain ⟨bs, t', hbs, hrun⟩ := Draw.run_bind_eq_some_iff.1 hrun
  obtain ⟨rfl, -⟩ := Draw.run_pure_eq_some_iff.1 hrun
  rw [Draw.run_between_of_le (Nat.le_refl n), Option.some.injEq, Prod.mk.injEq] at hm
  obtain ⟨rfl, rfl⟩ := hm
  exact ⟨bs, rfl, hfill _ _ _ _ hbs⟩

/-- A call that fills the range of its arguments gives as many bytes as they say. -/
theorem hintSound_sized {fill : Nat → Draw Bytes}
    (hfill : ∀ n s out s', (fill n).run s = some (out, s') → out.length = n) :
    Builtin.HintSound ⟨sized fill, some boundsHint⟩ := by
  rintro hint ⟨⟩ args n hn s out s' hrun
  obtain ⟨out', hout, hlength⟩ := ok_of_run_sized hfill hn hrun
  rwa [Except.ok.inj hout]

theorem hintSound_hex : Builtin.HintSound ⟨hex, some hexHint⟩ := by
  rintro hint ⟨⟩ args n hn s out s' hrun
  obtain ⟨hout, -⟩ := Draw.run_pure_eq_some_iff.1 hrun
  rw [mapError_eq_ok_iff] at hout
  obtain ⟨digits, bs, rfl, hbs, rfl⟩ := hexHint_eq_some_iff.1 hn
  rw [length_of_hexBytes hout, Hex.length_of_decodeText hbs]

/-- The hints of the standard builtins are sound. -/
theorem sound_registry : registry.Sound := by
  unfold registry
  refine ((Registry.sound_empty.registerSized ?_).registerSized ?_).registerSized hintSound_hex
  · exact hintSound_sized fun _ _ _ _ => Draw.length_of_run_bytes
  · exact hintSound_sized fun _ _ _ _ => Draw.length_of_run_times

end Standard

end Camouflage
