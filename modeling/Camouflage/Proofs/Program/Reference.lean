import Camouflage.Program.Standard
import Camouflage.Proofs.Program.Length

/-!
# Runs and the plain reference

A run looks at the limit behind every segment and ends early. The plain reference runs everything
in order, puts it together and looks at the limit once (`Program.plain`). Both make the same
prefixes: those that are spliced from the texts and from what the builtins give, one behind the
other (`Program.Spliced`). A run that makes none ends at the first segment that fails or that does
not fit behind those in front of it, and leaves the source as that segment did
(`run_evaluate_eq_plain`).
-/

namespace Camouflage.Program

/-! ## The reference -/

/-- What segments make, one after the other, up to the first call that fails. -/
def makeParts : List Segment → Draw (Except Fault (List Bytes))
  | [] => return .ok []
  | seg :: rest => do
    match ← seg.produce with
    | .error fault => return .error fault
    | .ok part => return (← makeParts rest).map (part :: ·)

/-- Runs everything, puts it together, and only then looks at the limit. -/
def plain (p : Program) : Draw (Except Fault Bytes) := do
  match ← makeParts p.segments with
  | .error fault => return .error fault
  | .ok parts =>
    if parts.flatten.length ≤ maxPrefixLength then return .ok parts.flatten
    else return .error (.prefixTooLarge parts.flatten.length maxPrefixLength)

theorem run_makeParts_cons {seg : Segment} {rest : List Segment} {s s' : Source}
    {parts : List Bytes} :
    (makeParts (seg :: rest)).run s = some (.ok parts, s') ↔
      ∃ part t more, seg.produce.run s = some (.ok part, t) ∧
        (makeParts rest).run t = some (.ok more, s') ∧ parts = part :: more := by
  rw [makeParts, Draw.run_bind_eq_some_iff]
  constructor
  · rintro ⟨r, t, hr, h⟩
    cases r with
    | error fault =>
      obtain ⟨hfault, -⟩ := Draw.run_pure_eq_some_iff.1 h
      cases hfault
    | ok part =>
      obtain ⟨q, u, hq, h⟩ := Draw.run_bind_eq_some_iff.1 h
      obtain ⟨hparts, rfl⟩ := Draw.run_pure_eq_some_iff.1 h
      obtain ⟨more, rfl, rfl⟩ := map_eq_ok_iff.1 hparts
      exact ⟨part, t, more, hr, hq, rfl⟩
  · rintro ⟨part, t, more, hr, hmore, rfl⟩
    refine ⟨.ok part, t, hr, ?_⟩
    exact Draw.run_bind_eq_some_iff.2 ⟨.ok more, s', hmore, rfl⟩

/-- Parts that segments make, each on the source that the one in front of it has left. -/
inductive Spliced : List Segment → Source → List Bytes → Source → Prop
  | nil {s : Source} : Spliced [] s [] s
  | cons {seg : Segment} {rest : List Segment} {s t s' : Source} {part : Bytes}
      {parts : List Bytes} :
    seg.Makes s part t → Spliced rest t parts s' → Spliced (seg :: rest) s (part :: parts) s'

theorem run_makeParts_eq_ok_iff {segments : List Segment} {s s' : Source} {parts : List Bytes} :
    (makeParts segments).run s = some (.ok parts, s') ↔ Spliced segments s parts s' := by
  constructor
  · intro h
    induction segments generalizing s parts with
    | nil =>
      obtain ⟨hparts, rfl⟩ := Draw.run_pure_eq_some_iff.1 h
      obtain rfl := Except.ok.inj hparts
      exact .nil
    | cons seg rest ih =>
      obtain ⟨part, t, more, hpart, hmore, rfl⟩ := run_makeParts_cons.1 h
      exact .cons (Segment.run_produce_eq_ok_iff.1 hpart) (ih hmore)
  · intro h
    induction h with
    | nil => rfl
    | cons hmakes _ ih =>
      exact run_makeParts_cons.2 ⟨_, _, _, Segment.run_produce_eq_ok_iff.2 hmakes, ih, rfl⟩

theorem run_plain_eq_ok_iff {p : Program} {s s' : Source} {out : Bytes} :
    p.plain.run s = some (.ok out, s') ↔
      ∃ parts, (makeParts p.segments).run s = some (.ok parts, s') ∧ out = parts.flatten ∧
        out.length ≤ maxPrefixLength := by
  rw [plain, Draw.run_bind_eq_some_iff]
  constructor
  · rintro ⟨r, t, hr, h⟩
    cases r with
    | error fault =>
      obtain ⟨hfault, -⟩ := Draw.run_pure_eq_some_iff.1 h
      cases hfault
    | ok parts =>
      dsimp only at h
      split at h
      · rename_i hfits
        obtain ⟨hout, rfl⟩ := Draw.run_pure_eq_some_iff.1 h
        obtain rfl := Except.ok.inj hout
        exact ⟨parts, hr, rfl, hfits⟩
      · obtain ⟨hfault, -⟩ := Draw.run_pure_eq_some_iff.1 h
        cases hfault
  · rintro ⟨parts, hr, rfl, hfits⟩
    refine ⟨.ok parts, s', hr, ?_⟩
    dsimp only
    rw [if_pos hfits]
    rfl

/-- A run comes to a segment: those in front of it have made `parts` and left the source `t`, and
behind `size` bytes none of their beginnings is too long. -/
def Reaches (size : Nat) (segments : List Segment) (s : Source) (seg : Segment)
    (parts : List Bytes) (t : Source) : Prop :=
  ∃ leading rest, segments = leading ++ seg :: rest ∧
    (makeParts leading).run s = some (.ok parts, t) ∧
    ∀ k, size + (parts.take k).flatten.length ≤ maxPrefixLength

theorem not_reaches_nil {size : Nat} {s t : Source} {seg : Segment} {parts : List Bytes} :
    ¬ Reaches size [] s seg parts t := by
  rintro ⟨leading, rest, h, -⟩
  cases leading <;> cases h

/-- A run comes to its first segment at once, and to another one behind what the first has made. -/
theorem exists_reaches_cons_iff {size : Nat} {first : Segment} {rest : List Segment} {s : Source}
    (hsize : size ≤ maxPrefixLength) {P : Segment → List Bytes → Source → Prop} :
    (∃ seg parts t, Reaches size (first :: rest) s seg parts t ∧ P seg parts t) ↔
      P first [] s ∨
      ∃ part u, first.produce.run s = some (.ok part, u) ∧ size + part.length ≤ maxPrefixLength ∧
        ∃ seg more t, Reaches (size + part.length) rest u seg more t ∧ P seg (part :: more) t := by
  constructor
  · rintro ⟨seg, parts, t, ⟨leading, behind, hsegments, hparts, hfits⟩, h⟩
    cases leading with
    | nil =>
      obtain ⟨rfl, rfl⟩ := List.cons.inj hsegments
      obtain ⟨hnil, rfl⟩ := Draw.run_pure_eq_some_iff.1 hparts
      rw [← Except.ok.inj hnil] at h
      exact .inl h
    | cons _ leading =>
      obtain ⟨rfl, rfl⟩ := List.cons.inj hsegments
      obtain ⟨part, u, more, hpart, hmore, rfl⟩ := run_makeParts_cons.1 hparts
      have hrest : ∀ k, size + part.length + (more.take k).flatten.length ≤ maxPrefixLength := by
        intro k
        have hk := hfits (k + 1)
        rwa [List.take_succ_cons, List.flatten_cons, List.length_append, ← Nat.add_assoc] at hk
      exact .inr ⟨part, u, hpart, hrest 0, seg, more, t, ⟨leading, behind, rfl, hmore, hrest⟩, h⟩
  · intro h
    rcases h with h | ⟨part, u, hpart, -, seg, more, t, ⟨leading, behind, rfl, hmore, hrest⟩, h⟩
    · refine ⟨first, [], s, ⟨[], rest, rfl, rfl, ?_⟩, h⟩
      intro k
      rwa [List.take_nil, List.flatten_nil, List.length_nil, Nat.add_zero]
    · refine ⟨seg, part :: more, t, ⟨first :: leading, behind, rfl, ?_, ?_⟩, h⟩
      · exact run_makeParts_cons.2 ⟨part, u, more, hpart, hmore, rfl⟩
      · intro k
        cases k with
        | zero => exact hsize
        | succ k =>
          rw [List.take_succ_cons, List.flatten_cons, List.length_append, ← Nat.add_assoc]
          exact hrest k

/-! ## A run -/

section Run

variable {done : Bytes} {size : Nat} {seg : Segment} {segments : List Segment} {s s' : Source}

/-- A run fails if its first segment ends it, or fits and the others fail behind it. -/
theorem run_produceFrom_cons_eq_error_iff {fault : Fault} :
    (produceFrom done size (seg :: segments)).run s = some (.error fault, s') ↔
      seg.Ends size s fault s' ∨
      ∃ part t, seg.produce.run s = some (.ok part, t) ∧ size + part.length ≤ maxPrefixLength ∧
        (produceFrom (part.reverse ++ done) (size + part.length) segments).run t =
          some (.error fault, s') := by
  rw [run_produceFrom_cons_eq_iff]
  simp

/-- A run gives up if its first segment does, or fits and the others give up behind it. -/
theorem run_produceFrom_cons_eq_none_iff :
    (produceFrom done size (seg :: segments)).run s = none ↔
      seg.produce.run s = none ∨
      ∃ part t, seg.produce.run s = some (.ok part, t) ∧ size + part.length ≤ maxPrefixLength ∧
        (produceFrom (part.reverse ++ done) (size + part.length) segments).run t = none := by
  rw [run_produceFrom_cons_eq_iff]
  simp

variable (hsize : size ≤ maxPrefixLength)

include hsize

/-- A run makes a prefix exactly if all segments make their parts and these fit together. -/
theorem run_produceFrom_eq_ok_iff {out : Bytes} :
    (produceFrom done size segments).run s = some (.ok out, s') ↔
      ∃ parts, (makeParts segments).run s = some (.ok parts, s') ∧
        out = done.reverse ++ parts.flatten ∧ size + parts.flatten.length ≤ maxPrefixLength := by
  induction segments generalizing done size s with
  | nil =>
    constructor
    · intro h
      obtain ⟨hout, rfl⟩ := Draw.run_pure_eq_some_iff.1 h
      refine ⟨[], rfl, ?_, hsize⟩
      rw [List.flatten_nil, List.append_nil, Except.ok.inj hout]
    · rintro ⟨parts, h, rfl, -⟩
      obtain ⟨hparts, rfl⟩ := Draw.run_pure_eq_some_iff.1 h
      rw [← Except.ok.inj hparts, List.flatten_nil, List.append_nil]
      rfl
  | cons seg rest ih =>
    rw [run_produceFrom_cons]
    constructor
    · rintro ⟨part, t, hpart, hfits, h⟩
      obtain ⟨more, hmore, rfl, hall⟩ := (ih hfits).1 h
      refine ⟨part :: more, run_makeParts_cons.2 ⟨part, t, more, hpart, hmore, rfl⟩, ?_, ?_⟩
      · simp
      · rwa [List.flatten_cons, List.length_append, ← Nat.add_assoc]
    · rintro ⟨parts, hparts, rfl, hall⟩
      obtain ⟨part, t, more, hpart, hmore, rfl⟩ := run_makeParts_cons.1 hparts
      rw [List.flatten_cons, List.length_append, ← Nat.add_assoc] at hall
      have hfits : size + part.length ≤ maxPrefixLength := by omega
      refine ⟨part, t, hpart, hfits, (ih hfits).2 ⟨more, hmore, ?_, hall⟩⟩
      simp

/-- A run fails exactly if it comes to a segment that ends it. -/
theorem run_produceFrom_eq_error_iff {fault : Fault} :
    (produceFrom done size segments).run s = some (.error fault, s') ↔
      ∃ seg parts t, Reaches size segments s seg parts t ∧
        seg.Ends (size + parts.flatten.length) t fault s' := by
  induction segments generalizing done size s with
  | nil =>
    constructor
    · intro h
      obtain ⟨h, -⟩ := Draw.run_pure_eq_some_iff.1 h
      cases h
    · rintro ⟨seg, parts, t, h, -⟩
      exact absurd h not_reaches_nil
  | cons seg rest ih =>
    rw [run_produceFrom_cons_eq_error_iff, exists_reaches_cons_iff hsize]
    refine or_congr Iff.rfl (exists_congr fun part => exists_congr fun t => ?_)
    refine and_congr_right fun _ => and_congr_right fun hfits => ?_
    rw [ih hfits]
    simp only [List.flatten_cons, List.length_append, Nat.add_assoc]

/-- A run gives up exactly if it comes to a segment that does. -/
theorem run_produceFrom_eq_none_iff :
    (produceFrom done size segments).run s = none ↔
      ∃ seg parts t, Reaches size segments s seg parts t ∧ seg.produce.run t = none := by
  induction segments generalizing done size s with
  | nil =>
    constructor
    · intro h
      cases h
    · rintro ⟨seg, parts, t, h, -⟩
      exact absurd h not_reaches_nil
  | cons seg rest ih =>
    rw [run_produceFrom_cons_eq_none_iff, exists_reaches_cons_iff hsize]
    refine or_congr Iff.rfl (exists_congr fun part => exists_congr fun t => ?_)
    exact and_congr_right fun _ => and_congr_right fun hfits => ih hfits

end Run

/-- **A run agrees with the plain reference.** It makes a prefix exactly if the reference does, that
is, if all segments make their parts and these fit together. The parts are the texts of the program
and what its builtins give, each on the source that the one in front of it has left. Otherwise a run
comes to a segment that ends it, behind segments whose parts fit however many of them are taken, and
the fault and the source are those of this segment. It gives up only in a draw of a segment that it
comes to. -/
theorem run_evaluate_eq_plain (p : Program) (s : Source) :
    (∀ out s', p.evaluate.run s = some (.ok out, s') ↔ p.plain.run s = some (.ok out, s')) ∧
    (∀ out s', p.evaluate.run s = some (.ok out, s') ↔
      ∃ parts, (makeParts p.segments).run s = some (.ok parts, s') ∧ out = parts.flatten ∧
        out.length ≤ maxPrefixLength) ∧
    (∀ out s', p.evaluate.run s = some (.ok out, s') ↔
      ∃ parts, Spliced p.segments s parts s' ∧ out = parts.flatten ∧
        out.length ≤ maxPrefixLength) ∧
    (∀ fault s', p.evaluate.run s = some (.error fault, s') ↔
      ∃ seg parts t, Reaches 0 p.segments s seg parts t ∧
        seg.Ends parts.flatten.length t fault s') ∧
    (p.evaluate.run s = none ↔
      ∃ seg parts t, Reaches 0 p.segments s seg parts t ∧ seg.produce.run t = none) := by
  have hok : ∀ out s', p.evaluate.run s = some (.ok out, s') ↔
      ∃ parts, (makeParts p.segments).run s = some (.ok parts, s') ∧ out = parts.flatten ∧
        out.length ≤ maxPrefixLength := by
    intro out s'
    rw [evaluate, run_produceFrom_eq_ok_iff (Nat.zero_le _)]
    refine exists_congr fun parts => and_congr_right fun _ => ?_
    rw [List.reverse_nil, List.nil_append, Nat.zero_add]
    exact and_congr_right fun hout => by rw [hout]
  refine ⟨?_, hok, ?_, ?_, run_produceFrom_eq_none_iff (Nat.zero_le _)⟩
  · intro out s'
    rw [hok, run_plain_eq_ok_iff]
  · intro out s'
    simp only [hok, run_makeParts_eq_ok_iff]
  · intro fault s'
    rw [evaluate, run_produceFrom_eq_error_iff (Nat.zero_le _)]
    simp only [Nat.zero_add]

/-- Texts and calls in turn: each call takes the next word. -/
example :
    let bytes (length : String) : Call :=
      ⟨"random_bytes", [length, length], ⟨Standard.randomBytes, none⟩⟩
    let p : Program := ⟨0, [.literal "GE", .call (bytes "2"), .literal "T ", .call (bytes "1")]⟩
    p.evaluate.run ⟨fun i => UInt32.ofNat (i + 1), 0⟩ =
      some (.ok [0x47, 0x45, 1, 0, 0x54, 0x20, 2], ⟨fun i => UInt32.ofNat (i + 1), 2⟩) :=
  rfl

end Camouflage.Program
