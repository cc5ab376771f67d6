import Camouflage.Proofs.Program.Pattern

/-!
# Bytes spelled out in a program

A call of `hex` has one argument if between its brackets there is no comma and something besides
blanks. It makes the bytes that this argument spells, without the blanks around it and in either
case, up to the limit of a call (`run_produce_hex`). A text that spells some bytes has neither
blanks nor signs in it, so it can always stand there (`run_produce_hex_of_spells`).
-/

namespace Camouflage.Program

open Text

/-- A call of `hex`, its digits as they were written. -/
def Piece.hex (raw : List Char) : Piece :=
  .call "hex".toList raw ⟨Standard.hex, some Standard.hexHint⟩

section Hex

variable {raw : List Char}

/-- Without a comma there is one argument. -/
theorem splitArguments_of_notMem (hfilled : trim raw ≠ []) (hcomma : ',' ∉ raw) :
    splitArguments raw = [String.ofList (trim raw)] := by
  have hempty : (trim raw).isEmpty = false := by
    simpa using hfilled
  rw [splitArguments, hempty, splitAll_eq_splitOn, List.splitOn_eq_singleton hcomma]
  rfl

theorem Piece.wellFormed_hex (hraw : ∀ c ∈ raw, c ≠ '$' ∧ c ≠ '(' ∧ c ≠ ')') :
    (Piece.hex raw).WellFormed Standard.registry :=
  ⟨by decide, hraw, rfl⟩

/-- A call of `hex` makes the bytes that its argument spells, and takes nothing from its source. -/
theorem run_produce_hex (hfilled : trim raw ≠ []) (hcomma : ',' ∉ raw) {bytes : Bytes}
    {s s' : Source} : (Piece.hex raw).segment.produce.run s = some (.ok bytes, s') ↔
      (Hex.Spells (trim raw) bytes ∧ bytes.length ≤ maxBuiltinOutput) ∧ s = s' := by
  have hargs := splitArguments_of_notMem hfilled hcomma
  have hrun : (Piece.hex raw).segment.produce.run s =
      some (((Standard.hexBytes [String.ofList (trim raw)]).mapError
        Standard.CallFault.reason).mapError (Fault.builtin "hex"), s) := by
    rw [← hargs]
    rfl
  rw [hrun, Option.some.injEq, Prod.mk.injEq, mapError_eq_ok_iff, mapError_eq_ok_iff,
    Standard.hexBytes_eq_ok_iff]
  simp

/-- So does a program that is one call of `hex`. -/
theorem run_evaluate_hex (hfilled : trim raw ≠ []) (hcomma : ',' ∉ raw) {minor : UInt32}
    {bytes : Bytes} {s s' : Source} :
    (Program.mk minor [(Piece.hex raw).segment]).evaluate.run s = some (.ok bytes, s') ↔
      (Hex.Spells (trim raw) bytes ∧ bytes.length ≤ maxBuiltinOutput) ∧ s = s' := by
  have hlimits : maxBuiltinOutput ≤ maxPrefixLength := by decide
  rw [evaluate, run_produceFrom_cons]
  constructor
  · rintro ⟨part, t, hpart, -, h⟩
    obtain ⟨hmade, rfl⟩ := (run_produce_hex hfilled hcomma).1 hpart
    obtain ⟨hout, rfl⟩ := Draw.run_pure_eq_some_iff.1 h
    obtain rfl : part = bytes := by
      simpa using hout
    exact ⟨hmade, rfl⟩
  · rintro ⟨hmade, rfl⟩
    refine ⟨bytes, s, (run_produce_hex hfilled hcomma).2 ⟨hmade, rfl⟩, ?_, ?_⟩
    · omega
    · exact Draw.run_pure_eq_some_iff.2 ⟨by simp, rfl⟩

/-- A program that is one call of `hex` is read if its digits, without the blanks around them, have
no signs in them, and makes the bytes that they spell. -/
theorem exists_parse_hex {digits : String} (hfilled : trim digits.toList ≠ [])
    (hsigns : ∀ c ∈ trim digits.toList, c ≠ '$' ∧ c ≠ '(' ∧ c ≠ ')' ∧ c ≠ ',') :
    ∃ p, parse Standard.registry ("v1.0 $hex(" ++ digits ++ ")") = .ok p ∧
      ∀ s bytes s', p.evaluate.run s = some (.ok bytes, s') ↔
        (Hex.Spells (trim digits.toList) bytes ∧ bytes.length ≤ maxBuiltinOutput) ∧ s = s' := by
  have hfree : ∀ c ∈ digits.toList, c ≠ '$' ∧ c ≠ '(' ∧ c ≠ ')' ∧ c ≠ ',' := by
    intro c hc
    by_cases hblank : isBlank c = true
    · refine ⟨?_, ?_, ?_, ?_⟩ <;>
      · rintro rfl
        cases hblank
    · exact hsigns c (mem_trim hc (Bool.eq_false_iff.2 hblank))
  have hcomma : ',' ∉ digits.toList := fun hmem => (hfree _ hmem).2.2.2 rfl
  have hform : (Piece.hex digits.toList).WellFormed Standard.registry :=
    Piece.wellFormed_hex fun c hc => ⟨(hfree c hc).1, (hfree c hc).2.1, (hfree c hc).2.2.1⟩
  have hcut : WellCut Standard.registry [Piece.hex digits.toList] :=
    wellCut_call_cons.2 ⟨hform, wellCut_nil⟩
  refine ⟨_, parse_of_wellCut hcut ?_, fun s bytes s' => run_evaluate_hex hfilled hcomma⟩
  simp [Piece.hex, Piece.spelled]

/-! ## Without blanks -/

variable {bytes : Bytes} (hspells : Hex.Spells raw bytes)

include hspells

theorem Piece.wellFormed_hex_of_spells : (Piece.hex raw).WellFormed Standard.registry := by
  apply Piece.wellFormed_hex
  intro c hc
  exact ⟨ne_of_mem_of_not_mem hc (hspells.notMem rfl),
    ne_of_mem_of_not_mem hc (hspells.notMem rfl), ne_of_mem_of_not_mem hc (hspells.notMem rfl)⟩

theorem run_produce_hex_of_spells (hne : bytes ≠ []) (hfits : bytes.length ≤ maxBuiltinOutput)
    (s : Source) : (Piece.hex raw).segment.produce.run s = some (.ok bytes, s) := by
  have hfilled : trim raw ≠ [] := by
    rw [hspells.trim_eq]
    rintro rfl
    have hlength := hspells.length
    rw [List.length_nil] at hlength
    exact hne (List.length_eq_zero_iff.1 (by omega))
  refine (run_produce_hex hfilled (hspells.notMem rfl)).2 ⟨⟨?_, hfits⟩, rfl⟩
  rwa [hspells.trim_eq]

end Hex

end Camouflage.Program
