import Camouflage.Proofs.Program.Hints
import Camouflage.Proofs.Program.Pattern

/-!
# What the hints promise

A hint is for calls that give so many bytes, if they give any (`Builtin.HintSound`). Up to the limit
of a call, the standard builtins do give them. The hint of `random_bytes` and `random_string` is
never beyond the limit, as it reads its arguments as the call does. That of `hex` may be: it does
not look at the limit, and there the call fails (`run_of_hint`).
-/

namespace Camouflage.Standard

open Text

/-- A call that gives `n` bytes: whatever it draws, it comes out with so many, and it does come out
on an ample source. -/
def GivesLength (n : Nat) (call : Draw (Except String Bytes)) : Prop :=
  ∀ s : Source, (∀ r s', call.run s = some (r, s') → ∃ out, r = .ok out ∧ out.length = n) ∧
    (s.Ample → ∃ out s', call.run s = some (.ok out, s') ∧ out.length = n)

theorem GivesLength.of_returns {n : Nat} {call : Draw (Except String Bytes)}
    (hreturns : call.Returns)
    (h : ∀ s r s', call.run s = some (r, s') → ∃ out, r = .ok out ∧ out.length = n) :
    GivesLength n call := by
  intro s
  refine ⟨h s, fun hample => ?_⟩
  obtain ⟨r, k, hrun⟩ := hreturns s hample
  obtain ⟨out, rfl, hout⟩ := h _ _ _ hrun
  exact ⟨out, _, hrun, hout⟩

section Hints

variable {args : List String} {n : Nat}

theorem le_of_boundsHint (h : boundsHint args = some n) : n ≤ maxBuiltinOutput := by
  obtain ⟨_, _, _, _, _, _, hle⟩ := lengthBounds_eq_ok_iff.1 (boundsHint_eq_some_iff.1 h)
  exact hle

theorem givesLength_sized {fill : Nat → Draw Bytes} (hreturns : ∀ n, (fill n).Returns)
    (hfill : ∀ n s out s', (fill n).run s = some (out, s') → out.length = n)
    (h : boundsHint args = some n) : GivesLength n (sized fill args) :=
  .of_returns (returns_sized hreturns args) fun _ _ _ => ok_of_run_sized hfill h

theorem run_hex_of_le (h : hexHint args = some n) (hle : n ≤ maxBuiltinOutput) :
    GivesLength n (hex args) := by
  obtain ⟨digits, bs, rfl, hbs, rfl⟩ := hexHint_eq_some_iff.1 h
  have hok : hexBytes [digits] = .ok bs :=
    hexBytes_eq_ok_iff.2 ⟨digits, rfl, Hex.decodeText_eq_ok_iff.1 hbs, hle⟩
  refine .of_returns (Draw.returns_pure _) fun s r s' hrun => ?_
  obtain ⟨rfl, -⟩ := Draw.run_pure_eq_some_iff.1 hrun
  exact ⟨bs, by rw [hok]; rfl, rfl⟩

theorem run_hex_of_lt (h : hexHint args = some n) (hlt : maxBuiltinOutput < n) (s : Source) :
    (hex args).run s = some (.error CallFault.tooManyDigits.reason, s) := by
  obtain ⟨digits, bs, rfl, hbs, rfl⟩ := hexHint_eq_some_iff.1 h
  rw [Hex.length_of_decodeText hbs] at hlt
  have herror : hexBytes [digits] = .error .tooManyDigits := by
    rw [hexBytes, if_pos hlt]
  rw [hex, herror]
  rfl

/-- **A hint is kept up to the limit of a call.** If a standard builtin has a hint for some
arguments, its call with them gives so many bytes, unless these are beyond the limit. Only `hex` has
such hints, and its call then fails without a draw. -/
theorem run_of_hint {name : String} {b : Builtin} {hint : List String → Option Nat}
    (hfind : registry.find? name = some b) (hhint : b.hint = some hint)
    (hn : hint args = some n) :
    (n ≤ maxBuiltinOutput → GivesLength n (b.run args)) ∧
    (maxBuiltinOutput < n → name = "hex" ∧
      ∀ s, (b.run args).run s = some (.error CallFault.tooManyDigits.reason, s)) := by
  rcases find?_registry hfind with ⟨-, hrun, hb⟩ | ⟨-, hrun, hb⟩ | ⟨hname, hrun, hb⟩
  all_goals
    rw [hhint, Option.some.injEq] at hb
    subst hb
    rw [hrun]
  · refine ⟨fun _ => givesLength_sized Draw.returns_bytes ?_ hn, fun hlt => ?_⟩
    · exact fun _ _ _ _ => Draw.length_of_run_bytes
    · exact absurd (le_of_boundsHint hn) (Nat.not_le.2 hlt)
  · refine ⟨fun _ => givesLength_sized Draw.returns_alphanumeric.times ?_ hn, fun hlt => ?_⟩
    · exact fun _ _ _ _ => Draw.length_of_run_times
    · exact absurd (le_of_boundsHint hn) (Nat.not_le.2 hlt)
  · exact ⟨run_hex_of_le hn, fun hlt => ⟨hname, run_hex_of_lt hn hlt⟩⟩

/-- Three letters or digits from a source of zeros, and two bytes in hexadecimal from any. -/
theorem run_of_hint_short :
    (∃ out s', (randomString ["3", "+03"]).run ⟨fun _ => 0, 0⟩ = some (.ok out, s') ∧
      out.length = 3) ∧
    GivesLength 2 (hex ["05dC"]) := by
  have hstring : registry.find? "random_string" = some ⟨randomString, some boundsHint⟩ := rfl
  have hhex : registry.find? "hex" = some ⟨hex, some hexHint⟩ := rfl
  have hthree : boundsHint ["3", "+03"] = some 3 := rfl
  have htwo : hexHint ["05dC"] = some 2 := rfl
  have hword : (0 : UInt32).toNat / Draw.sextetSpan < 62 := by
    decide
  have hample : (Source.mk (fun _ => 0) 0).Ample := Source.ample_of_forall_lt fun _ => hword
  refine ⟨?_, ?_⟩
  · exact ((run_of_hint hstring rfl hthree).1 (by decide) _).2 hample
  · exact (run_of_hint hhex rfl htwo).1 (by decide)

/-- There is a hint for one byte too many in hexadecimal. -/
theorem run_of_hint_beyond :
    registry.find? "hex" = some ⟨hex, some hexHint⟩ ∧
    hexHint [Hex.encode (List.replicate 4097 0)] = some 4097 ∧
    ∀ s, (hex [Hex.encode (List.replicate 4097 0)]).run s =
      some (.error "hex literal exceeds limit of 4096 bytes", s) := by
  have hhint : hexHint [Hex.encode (List.replicate 4097 0)] = some 4097 :=
    hexHint_eq_some_iff.2 ⟨_, _, rfl, Hex.decodeText_encode _, List.length_replicate⟩
  exact ⟨rfl, hhint, run_hex_of_lt hhint (by decide)⟩

end Hints

end Camouflage.Standard
