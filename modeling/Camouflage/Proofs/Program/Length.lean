import Camouflage.Proofs.Outcome
import Camouflage.Proofs.Program.Cut
import Camouflage.Proofs.Program.Version
import Camouflage.Proofs.Random.Draws

/-!
# Runs, and the length of what they make

A literal makes its text, and a call what its builtin gives (`Segment.Makes`). A run goes on while
its segments succeed and fit, and ends with the first one that does not (`Segment.Ends`,
`run_produceFrom_cons_eq_iff`). So what is made fits (`length_le_of_run_evaluate`),
a program without calls makes the same on each source (`exists_run_evaluate_of_isStatic`), and if
every hint is sound, what is made has the length that the hints add up to
(`length_of_run_evaluate`).
-/

namespace Camouflage

/-- The hint of a segment's builtin, if it has one, is sound. -/
def Segment.HintSound : Segment → Prop
  | .literal _ => True
  | .call c => c.builtin.HintSound

/-- The builtin of a segment, if it has one, is that of its name in a registry. -/
def Segment.Resolved (registry : Registry) : Segment → Prop
  | .literal _ => True
  | .call c => registry.find? c.name = some c.builtin

/-! ## One segment -/

namespace Segment

variable {seg : Segment} {s s' : Source}

/-- What a segment makes on the source `s`: a literal its text, a call what its builtin gives. -/
inductive Makes : Segment → Source → Bytes → Source → Prop
  | literal (text : String) (s : Source) : Makes (.literal text) s (Text.utf8 text) s
  | call {c : Call} {s s' : Source} {part : Bytes} :
    (c.builtin.run c.args).run s = some (.ok part, s') → Makes (.call c) s part s'

theorem run_produce_eq_ok_iff {part : Bytes} :
    seg.produce.run s = some (.ok part, s') ↔ seg.Makes s part s' := by
  constructor
  · intro h
    cases seg with
    | literal text =>
      obtain ⟨hpart, rfl⟩ := Draw.run_pure_eq_some_iff.1 h
      obtain rfl := Except.ok.inj hpart
      exact .literal text s
    | call c =>
      obtain ⟨r, t, hr, h⟩ := Draw.run_bind_eq_some_iff.1 h
      obtain ⟨hpart, rfl⟩ := Draw.run_pure_eq_some_iff.1 h
      obtain rfl := mapError_eq_ok_iff.1 hpart
      exact .call hr
  · intro h
    cases h with
    | literal text => rfl
    | call hr => exact Draw.run_bind_eq_some_iff.2 ⟨_, _, hr, rfl⟩

theorem length_of_run_produce (hsound : seg.HintSound) {n : Nat}
    (hn : seg.fixedLength? = some n) {out : Bytes}
    (h : seg.produce.run s = some (.ok out, s')) : out.length = n := by
  cases run_produce_eq_ok_iff.1 h with
  | literal text => exact Option.some.inj hn
  | call hr =>
    obtain ⟨hint, hhint, hn⟩ := Option.bind_eq_some_iff.1 hn
    exact hsound hint hhint _ n hn s out s' hr

/-- Only a call fails, and its fault names it. -/
theorem run_produce_eq_error_iff {fault : Fault} :
    seg.produce.run s = some (.error fault, s') ↔
      ∃ c reason, seg = .call c ∧ (c.builtin.run c.args).run s = some (.error reason, s') ∧
        fault = .builtin c.name reason := by
  cases seg with
  | literal text =>
    constructor
    · intro h
      obtain ⟨h, -⟩ := Draw.run_pure_eq_some_iff.1 h
      cases h
    · rintro ⟨c, reason, h, -⟩
      cases h
  | call c =>
    rw [produce, Draw.run_bind_eq_some_iff]
    constructor
    · rintro ⟨r, t, hr, h⟩
      obtain ⟨hr', rfl⟩ := Draw.run_pure_eq_some_iff.1 h
      obtain ⟨reason, rfl, rfl⟩ := mapError_eq_error_iff.1 hr'
      exact ⟨c, reason, rfl, hr, rfl⟩
    · rintro ⟨_, reason, ⟨⟩, hr, rfl⟩
      exact ⟨_, _, hr, rfl⟩

/-- A segment that ends a run, behind `size` bytes and on the source `t`: its call fails, or what it
makes does not fit. -/
inductive Ends (seg : Segment) (size : Nat) (t : Source) : Fault → Source → Prop
  | failed {c : Call} {reason : String} {s' : Source} :
    seg = .call c → (c.builtin.run c.args).run t = some (.error reason, s') →
    Ends seg size t (.builtin c.name reason) s'
  | tooLarge {part : Bytes} {s' : Source} :
    seg.produce.run t = some (.ok part, s') → maxPrefixLength < size + part.length →
    Ends seg size t (.prefixTooLarge (size + part.length) maxPrefixLength) s'

theorem ends_iff {size : Nat} {fault : Fault} :
    seg.Ends size s fault s' ↔
      seg.produce.run s = some (.error fault, s') ∨
      ∃ part, seg.produce.run s = some (.ok part, s') ∧ maxPrefixLength < size + part.length ∧
        fault = .prefixTooLarge (size + part.length) maxPrefixLength := by
  rw [run_produce_eq_error_iff]
  constructor
  · intro h
    cases h with
    | failed hcall hrun => exact .inl ⟨_, _, hcall, hrun, rfl⟩
    | tooLarge hpart hlarge => exact .inr ⟨_, hpart, hlarge, rfl⟩
  · rintro (⟨c, reason, hcall, hrun, rfl⟩ | ⟨part, hpart, hlarge, rfl⟩)
    · exact .failed hcall hrun
    · exact .tooLarge hpart hlarge

end Segment

namespace Program

/-! ## A run -/

/-- What a run does with its first segment. -/
theorem run_produceFrom_step (done : Bytes) (size : Nat) (seg : Segment) (rest : List Segment)
    (s : Source) :
    (produceFrom done size (seg :: rest)).run s =
      match seg.produce.run s with
      | none => none
      | some (.error fault, t) => some (.error fault, t)
      | some (.ok part, t) =>
        if size + part.length > maxPrefixLength then
          some (.error (.prefixTooLarge (size + part.length) maxPrefixLength), t)
        else (produceFrom (part.reverse ++ done) (size + part.length) rest).run t := by
  rw [produceFrom, StateT.run_bind]
  cases seg.produce.run s with
  | none => rfl
  | some made =>
    obtain ⟨r, t⟩ := made
    cases r with
    | error fault => rfl
    | ok part => exact apply_ite (fun d : Draw _ => d.run t) _ _ _

section Cons

variable {done out : Bytes} {size : Nat} {seg : Segment} {rest : List Segment} {s s' : Source}

/-- A run gives up or ends with its first segment, or goes on behind it. -/
theorem run_produceFrom_cons_eq_iff {r : Option (Except Fault Bytes × Source)} :
    (produceFrom done size (seg :: rest)).run s = r ↔
      seg.produce.run s = none ∧ r = none ∨
      (∃ fault t, seg.Ends size s fault t ∧ r = some (.error fault, t)) ∨
      ∃ part t, seg.produce.run s = some (.ok part, t) ∧ size + part.length ≤ maxPrefixLength ∧
        (produceFrom (part.reverse ++ done) (size + part.length) rest).run t = r := by
  rw [run_produceFrom_step]
  simp only [Segment.ends_iff]
  cases seg.produce.run s with
  | none => simp [eq_comm]
  | some made =>
    obtain ⟨made, t⟩ := made
    cases made with
    | error fault => simp [eq_comm]
    | ok part =>
      by_cases hfits : size + part.length ≤ maxPrefixLength
      · simp [hfits, Nat.not_lt.2 hfits]
      · simp [hfits, Nat.not_le.1 hfits, eq_comm]

/-- A run succeeds exactly if its first segment does, still fits, and the others succeed behind
it. -/
theorem run_produceFrom_cons :
    (produceFrom done size (seg :: rest)).run s = some (.ok out, s') ↔
      ∃ part t, seg.produce.run s = some (.ok part, t) ∧ size + part.length ≤ maxPrefixLength ∧
        (produceFrom (part.reverse ++ done) (size + part.length) rest).run t =
          some (.ok out, s') := by
  rw [run_produceFrom_cons_eq_iff]
  simp

end Cons

theorem run_produceFrom_nil {done out : Bytes} {size : Nat} {s s' : Source}
    (h : (produceFrom done size []).run s = some (.ok out, s')) : out = done.reverse := by
  obtain ⟨hout, -⟩ := Draw.run_pure_eq_some_iff.1 h
  exact (Except.ok.inj hout).symm

theorem length_le_of_run_produceFrom {done out : Bytes} {size : Nat} {segments : List Segment}
    {s s' : Source} (hsize : done.length = size) (hfits : size ≤ maxPrefixLength)
    (h : (produceFrom done size segments).run s = some (.ok out, s')) :
    out.length ≤ maxPrefixLength := by
  induction segments generalizing done size s with
  | nil =>
    rw [run_produceFrom_nil h, List.length_reverse, hsize]
    exact hfits
  | cons seg rest ih =>
    obtain ⟨more, t, -, hmore, h⟩ := run_produceFrom_cons.1 h
    refine ih ?_ hmore h
    rw [List.length_append, List.length_reverse, hsize, Nat.add_comm]

/-- Behind `size` bytes, a run makes as many bytes as the hints add up to. -/
theorem length_of_run_produceFrom {done out : Bytes} {size n : Nat} {segments : List Segment}
    {s s' : Source} (hsound : ∀ seg ∈ segments, seg.HintSound)
    (hn : sumKnown size segments = some n) (hsize : done.length = size)
    (h : (produceFrom done size segments).run s = some (.ok out, s')) : out.length = n := by
  induction segments generalizing done size s with
  | nil =>
    rw [run_produceFrom_nil h, List.length_reverse, hsize]
    exact Option.some.inj hn
  | cons seg rest ih =>
    obtain ⟨more, t, hmore, -, h⟩ := run_produceFrom_cons.1 h
    obtain ⟨k, hk, hn⟩ := Option.bind_eq_some_iff.1 hn
    have hlength := Segment.length_of_run_produce (hsound seg List.mem_cons_self) hk hmore
    subst hlength
    refine ih (fun seg hseg => hsound seg (List.mem_cons_of_mem _ hseg)) hn ?_ h
    rw [List.length_append, List.length_reverse, hsize, Nat.add_comm]

/-- A run takes nothing if none of its segments does. -/
theorem idle_produceFrom {segments : List Segment} (h : ∀ seg ∈ segments, seg.produce.Idle)
    (done : Bytes) (size : Nat) : (produceFrom done size segments).Idle := by
  induction segments generalizing done size with
  | nil => exact Draw.idle_pure _
  | cons seg rest ih =>
    obtain ⟨hseg, hrest⟩ := List.forall_mem_cons.1 h
    refine hseg.bind ?_
    intro r
    cases r with
    | error fault => exact Draw.idle_pure _
    | ok part =>
      dsimp only
      split
      · exact Draw.idle_pure _
      · exact ih hrest _ _

/-! ## A program -/

section Evaluate

variable {p : Program} {s s' : Source} {out : Bytes}

/-- What a program makes is no longer than a prefix may be. -/
theorem length_le_of_run_evaluate (h : p.evaluate.run s = some (.ok out, s')) :
    out.length ≤ maxPrefixLength :=
  length_le_of_run_produceFrom rfl (Nat.zero_le _) h

/-- If the hints are sound and add up to a length, this is the length of what a program makes. -/
theorem length_of_run_evaluate (hsound : ∀ seg ∈ p.segments, seg.HintSound) {n : Nat}
    (hn : p.fixedLength? = some n) (h : p.evaluate.run s = some (.ok out, s')) : out.length = n :=
  length_of_run_produceFrom hsound hn rfl h

/-- A program without calls takes nothing from its source and makes the same on each one. -/
theorem exists_run_evaluate_of_isStatic (h : p.isStatic = true) :
    ∃ r, ∀ s, p.evaluate.run s = some (r, s) := by
  refine idle_produceFrom ?_ [] 0
  intro seg hseg
  have hliteral := List.all_eq_true.1 h seg hseg
  cases seg with
  | literal text => exact Draw.idle_pure _
  | call c => cases hliteral

/-- The builtins of a program are those of the registry it was read with. -/
theorem resolved_of_parse {registry : Registry} {text : String}
    (h : parse registry text = .ok p) : ∀ seg ∈ p.segments, seg.Resolved registry := by
  obtain ⟨minor, body, ps, -, hpieces, rfl⟩ := parse_eq_ok_iff.1 h
  obtain ⟨hcut, -⟩ := pieces_eq_ok_iff.1 hpieces
  rw [List.forall_mem_map]
  intro piece hpiece
  have hform := hcut.wellFormed piece hpiece
  cases piece with
  | text cs => trivial
  | call name raw builtin => exact hform.2.2

/-- A text of version 1.0 is read as the pieces that spell its body. -/
theorem parse_of_wellCut {registry : Registry} {text : String} {ps : List Piece}
    (hps : WellCut registry ps)
    (htext : text.toList = 'v' :: '1' :: '.' :: '0' :: ' ' :: ps.flatMap Piece.spelled) :
    parse registry text = .ok ⟨0, ps.map Piece.segment⟩ := by
  have hversion : HasVersion text.toList 0 (ps.flatMap Piece.spelled) :=
    ⟨['1'], ['0'], by decide, by decide, by decide, htext⟩
  exact parse_eq_ok_iff.2 ⟨0, _, ps, hversion, pieces_eq_ok_iff.2 ⟨hps, rfl⟩, rfl⟩

theorem hintSound_of_parse {registry : Registry} (hregistry : registry.Sound) {text : String}
    (h : parse registry text = .ok p) : ∀ seg ∈ p.segments, seg.HintSound := by
  intro seg hseg
  have hresolved := resolved_of_parse h seg hseg
  cases seg with
  | literal text => trivial
  | call c => exact hregistry c.name c.builtin hresolved

end Evaluate

end Program

end Camouflage
