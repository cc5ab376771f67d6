import Camouflage.Proofs.Program.Pattern
import Camouflage.Prefix.Maker

/-!
# Generators on one source

Generators that are bound to one source share its words: what one run takes is gone for all that
come later. A session is a sequence of things asked of such generators, a prefix or the policy that
matches. A program that calls neither of the random builtins takes nothing, whether its run
succeeds or not, and a policy takes nothing whatever the program is (`Inquiry.idle_answer`). So the
runs that draw go as if nothing else had been asked (`map_drawn_session`), and everything else has
an answer of its own wherever it is asked (`forall₂_session`).
-/

namespace Camouflage

/-! ## Programs that take nothing -/

/-- Whether a segment calls a standard builtin that draws. -/
def Segment.callsRandom : Segment → Bool
  | .literal _ => false
  | .call c => c.name = "random_bytes" || c.name = "random_string"

/-- Whether a program calls a standard builtin that draws. -/
def Program.callsRandom (p : Program) : Bool :=
  p.segments.any Segment.callsRandom

theorem Segment.idle_produce {seg : Segment} (hstandard : seg.Resolved Standard.registry)
    (h : seg.callsRandom = false) : seg.produce.Idle := by
  cases seg with
  | literal text => exact Draw.idle_pure _
  | call c =>
    simp only [callsRandom, Bool.or_eq_false_iff, decide_eq_false_iff_not] at h
    rcases Standard.find?_registry hstandard with ⟨hname, -⟩ | ⟨hname, -⟩ | ⟨-, hrun, -⟩
    · exact absurd hname h.1
    · exact absurd hname h.2
    · have hidle : (c.builtin.run c.args).Idle := by
        rw [hrun]
        exact Draw.idle_pure _
      exact hidle.bind fun r => Draw.idle_pure _

/-- A program that calls neither of the random builtins takes nothing from its source. -/
theorem Program.idle_evaluate {text : String} {p : Program}
    (hparse : parse Standard.registry text = .ok p) (h : p.callsRandom = false) :
    p.evaluate.Idle := by
  rw [callsRandom, List.any_eq_false] at h
  apply idle_produceFrom
  intro seg hseg
  apply Segment.idle_produce (resolved_of_parse hparse seg hseg)
  exact Bool.eq_false_iff.2 (h seg hseg)

/-- The matching policy takes nothing from the source, also where it is found by a run. -/
theorem PrefixMaker.idle_matchingPolicy (m : PrefixMaker) : m.matchingPolicy.Idle := by
  cases m with
  | nothing => exact Draw.idle_pure _
  | fixed bytes => exact Draw.idle_pure _
  | dnsOverTcp d => exact Draw.idle_pure _
  | generator p =>
    rw [matchingPolicy]
    split
    · rename_i hstatic
      have hidle : p.evaluate.Idle := Program.exists_run_evaluate_of_isStatic hstatic
      exact hidle.bind fun r => Draw.idle_pure _
    · exact Draw.idle_pure _

/-! ## Sessions -/

/-- What is asked of a generator. -/
inductive Inquiry where
  /-- To run its program once. -/
  | make (p : Program)
  /-- For the policy that strips what it makes. -/
  | recommend (p : Program)

inductive Answer where
  | made (result : Except Fault Bytes)
  | recommended (policy : Option AbsorbPolicy)

namespace Inquiry

def program : Inquiry → Program
  | .make p => p
  | .recommend p => p

def answer : Inquiry → Draw Answer
  | .make p => return .made (← (PrefixMaker.generator p).make)
  | .recommend p => return .recommended (← (PrefixMaker.generator p).matchingPolicy)

/-- Whether words may be taken: by a run of a program that calls a random builtin. -/
def draws : Inquiry → Bool
  | .make p => p.callsRandom
  | .recommend _ => false

/-- The program was read with the standard registry. -/
def IsStandard (q : Inquiry) : Prop :=
  ∃ text, Program.parse Standard.registry text = .ok q.program

theorem idle_answer {q : Inquiry} (hstandard : q.IsStandard) (h : q.draws = false) :
    q.answer.Idle := by
  cases q with
  | make p =>
    obtain ⟨text, hparse⟩ := hstandard
    exact (Program.idle_evaluate hparse h).bind fun r => Draw.idle_pure _
  | recommend p =>
    exact (PrefixMaker.generator p).idle_matchingPolicy.bind fun policy => Draw.idle_pure _

end Inquiry

/-- The answers to some inquiries, one after the other on one source. -/
def session (qs : List Inquiry) : Draw (List Answer) :=
  qs.mapM Inquiry.answer

/-- The answers to those inquiries that may take words, and the source behind a session. -/
def drawn (qs : List Inquiry) (r : List Answer × Source) : List (Inquiry × Answer) × Source :=
  ((qs.zip r.1).filter fun e => e.1.draws, r.2)

theorem run_session_cons (q : Inquiry) (qs : List Inquiry) (s : Source) :
    (session (q :: qs)).run s =
      (q.answer.run s).bind fun r => ((session qs).run r.2).map fun r' => (r.1 :: r'.1, r'.2) := by
  rw [session, List.mapM_cons, StateT.run_bind]
  cases q.answer.run s with
  | none => rfl
  | some r =>
    simp only [Option.bind_eq_bind, Option.bind_some, StateT.run_bind, StateT.run_pure]
    exact (Option.map_eq_bind ..).symm

section Runs

variable {q : Inquiry} {qs : List Inquiry} {a : Answer} {as : List Answer} {s s' : Source}

theorem drawn_comp_cons_of_draws (h : q.draws = true) :
    (drawn (q :: qs) ∘ fun r => (a :: r.1, r.2)) =
      (fun r => ((q, a) :: r.1, r.2)) ∘ drawn qs := by
  funext r
  simp [drawn, h]

theorem drawn_comp_cons_of_idle (h : q.draws = false) :
    (drawn (q :: qs) ∘ fun r => (a :: r.1, r.2)) = drawn qs := by
  funext r
  simp [drawn, h]

/-- The runs that may take words go as if nothing else were asked. -/
theorem map_drawn_session (h : ∀ q ∈ qs, q.IsStandard) (s : Source) :
    ((session qs).run s).map (drawn qs) =
      ((session (qs.filter Inquiry.draws)).run s).map (drawn (qs.filter Inquiry.draws)) := by
  induction qs generalizing s with
  | nil => rfl
  | cons q qs ih =>
    obtain ⟨hq, hqs⟩ := List.forall_mem_cons.1 h
    cases hdraws : q.draws with
    | true =>
      rw [List.filter_cons_of_pos hdraws, run_session_cons, run_session_cons]
      cases q.answer.run s with
      | none => rfl
      | some r =>
        rw [Option.bind_some, Option.bind_some, Option.map_map, Option.map_map,
          drawn_comp_cons_of_draws hdraws, drawn_comp_cons_of_draws hdraws, ← Option.map_map,
          ← Option.map_map, ih hqs r.2]
    | false =>
      obtain ⟨a, ha⟩ := Inquiry.idle_answer hq hdraws
      rw [List.filter_cons_of_neg (Bool.eq_false_iff.1 hdraws), ← ih hqs s, run_session_cons, ha s,
        Option.bind_some, Option.map_map, drawn_comp_cons_of_idle hdraws]

/-- Everything else has the answer that it has alone, on whatever source. -/
theorem forall₂_session (h : ∀ q ∈ qs, q.IsStandard)
    (hrun : (session qs).run s = some (as, s')) :
    List.Forall₂ (fun q a => q.draws = false → ∀ t, q.answer.run t = some (a, t)) qs as := by
  induction qs generalizing s as with
  | nil =>
    obtain ⟨rfl, -⟩ := Draw.run_pure_eq_some_iff.1 hrun
    exact .nil
  | cons q qs ih =>
    obtain ⟨hq, hqs⟩ := List.forall_mem_cons.1 h
    rw [run_session_cons, Option.bind_eq_some_iff] at hrun
    obtain ⟨⟨a, t⟩, ha, hrun⟩ := hrun
    obtain ⟨⟨more, t'⟩, hmore, hrun⟩ := Option.map_eq_some_iff.1 hrun
    obtain ⟨rfl, rfl⟩ := Prod.mk.inj hrun
    refine .cons ?_ (ih hqs hmore)
    intro hidle
    obtain ⟨b, hb⟩ := Inquiry.idle_answer hq hidle
    rw [hb s, Option.some.injEq, Prod.mk.injEq] at ha
    rw [← ha.1]
    exact hb

end Runs

/-- **Runs that draw nothing are invisible.** Two sessions with the same drawing runs in the same
order, whatever else is asked in between and wherever, give these runs the same answers, leave the
source alike, and give up alike. Everything else, a run of a program that calls neither of the
random builtins or a question for a policy, has one answer of its own at every place of every
session. -/
theorem session_of_same_draws :
    ∃ fixed : Inquiry → Answer, ∀ qs qs' : List Inquiry, (∀ q ∈ qs, q.IsStandard) →
      (∀ q ∈ qs', q.IsStandard) → qs.filter Inquiry.draws = qs'.filter Inquiry.draws → ∀ s,
        ((session qs).run s).map (drawn qs) = ((session qs').run s).map (drawn qs') ∧
        ∀ as s', (session qs).run s = some (as, s') →
          List.Forall₂ (fun q a => q.draws = false → a = fixed q) qs as := by
  let zeros : Source := ⟨fun _ => 0, 0⟩
  let fixed (q : Inquiry) : Answer := ((q.answer.run zeros).map Prod.fst).getD (.recommended none)
  refine ⟨fixed, ?_⟩
  intro qs qs' hqs hqs' hsame s
  constructor
  · rw [map_drawn_session hqs, map_drawn_session hqs', hsame]
  · intro as s' hrun
    refine (forall₂_session hqs hrun).imp ?_
    intro q a halone hidle
    have hzeros : fixed q = a := by
      simp only [fixed, halone hidle zeros, Option.map_some, Option.getD_some]
    exact hzeros.symm

/-- A byte that is spelled out is made before a random one, and two policies are asked for. -/
theorem session_of_same_draws_hex : ∃ spelled random : Program,
    Program.parse Standard.registry "v1.0 $hex(4A)" = .ok spelled ∧
    Program.parse Standard.registry "v1.0 $random_bytes(1, 1)" = .ok random ∧
    ∀ s, ((session [.make spelled, .recommend random, .make random]).run s).map
        (drawn [.make spelled, .recommend random, .make random]) =
      ((session [.make random, .recommend spelled]).run s).map
        (drawn [.make random, .recommend spelled]) := by
  let hexPiece : Program.Piece :=
    .call "hex".toList "4A".toList ⟨Standard.hex, some Standard.hexHint⟩
  let randomPiece : Program.Piece :=
    .call "random_bytes".toList "1, 1".toList ⟨Standard.randomBytes, some Standard.boundsHint⟩
  let spelled : Program := ⟨0, [hexPiece.segment]⟩
  let random : Program := ⟨0, [randomPiece.segment]⟩
  have hspelledCut : Program.WellCut Standard.registry [hexPiece] :=
    Program.wellCut_call_cons.2 ⟨⟨by decide, by simp, rfl⟩, Program.wellCut_nil⟩
  have hrandomCut : Program.WellCut Standard.registry [randomPiece] :=
    Program.wellCut_call_cons.2 ⟨⟨by decide, by simp, rfl⟩, Program.wellCut_nil⟩
  have hspelled : Program.parse Standard.registry "v1.0 $hex(4A)" = .ok spelled :=
    Program.parse_of_wellCut hspelledCut rfl
  have hrandom : Program.parse Standard.registry "v1.0 $random_bytes(1, 1)" = .ok random :=
    Program.parse_of_wellCut hrandomCut rfl
  have hmade : (Inquiry.make spelled).IsStandard ∧ (Inquiry.make random).IsStandard :=
    ⟨⟨_, hspelled⟩, ⟨_, hrandom⟩⟩
  have hfirst : ∀ q ∈ [.make spelled, .recommend random, .make random], Inquiry.IsStandard q := by
    simp only [List.forall_mem_cons]
    exact ⟨hmade.1, hmade.2, hmade.2, by simp⟩
  have hsecond : ∀ q ∈ [.make random, .recommend spelled], Inquiry.IsStandard q := by
    simp only [List.forall_mem_cons]
    exact ⟨hmade.2, hmade.1, by simp⟩
  obtain ⟨fixed, hsessions⟩ := session_of_same_draws
  exact ⟨spelled, random, hspelled, hrandom, fun s => (hsessions _ _ hfirst hsecond rfl s).1⟩

end Camouflage
