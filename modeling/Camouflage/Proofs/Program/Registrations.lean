import Camouflage.Program.Standard
import Camouflage.Proofs.Program.Length

/-!
# What a registry holds

A registry is made by registrations, one behind the other (`Registry.MadeBy`). Its functions and its
hints stand in two tables, and each registration writes to both: it puts its function in, and it
puts its hint in or takes the old one out. So both tables follow the registrations step by step
(`Registry.Follows`), and under each name they hold what the latest registration of the name came
with, be it the first one or a replacement.
-/

namespace Camouflage

/-- A builtin under the name that it is registered with. -/
structure Registration where
  name : String
  builtin : Builtin

namespace Registration

variable {gs : List Registration} {g h : Registration}

/-- A registration of which the name is not registered again. -/
def IsLatest (gs : List Registration) (g : Registration) : Prop :=
  ∃ before after, gs = before ++ g :: after ∧ ∀ h ∈ after, h.name ≠ g.name

theorem isLatest_concat : IsLatest (gs ++ [g]) h ↔ h = g ∨ g.name ≠ h.name ∧ IsLatest gs h := by
  constructor
  · rintro ⟨before, after, hgs, hafter⟩
    rcases List.eq_nil_or_concat' after with rfl | ⟨after, last, rfl⟩
    · exact .inl (List.singleton_inj.1 (List.append_inj_right' hgs rfl)).symm
    · rw [← List.cons_append, ← List.append_assoc] at hgs
      obtain ⟨rfl, hlast⟩ := List.append_inj' hgs rfl
      obtain rfl := List.singleton_inj.1 hlast
      refine .inr ⟨hafter g (by simp), before, after, rfl, ?_⟩
      intro other hother
      exact hafter other (List.mem_append_left _ hother)
  · rintro (rfl | ⟨hne, before, after, rfl, hafter⟩)
    · exact ⟨gs, [], rfl, by simp⟩
    · refine ⟨before, after ++ [g], by simp, ?_⟩
      intro other hother
      rcases List.mem_append.1 hother with hother | hother
      · exact hafter other hother
      · rwa [List.mem_singleton.1 hother]

/-- A registered name has a latest registration. -/
theorem exists_isLatest (h : g ∈ gs) : ∃ h, IsLatest gs h ∧ h.name = g.name := by
  induction gs using List.reverseRecOn with
  | nil => cases h
  | append_singleton gs last ih =>
    by_cases hname : last.name = g.name
    · exact ⟨last, isLatest_concat.2 (.inl rfl), hname⟩
    · rcases List.mem_append.1 h with h | h
      · obtain ⟨latest, hlatest, hg⟩ := ih h
        exact ⟨latest, isLatest_concat.2 (.inr ⟨hg ▸ hname, hlatest⟩), hg⟩
      · exact absurd (List.mem_singleton.1 h ▸ rfl) hname

end Registration

namespace Registry

open Registration

/-- The registry that some registrations make, in their order. -/
inductive MadeBy : Registry → List Registration → Prop
  | empty : MadeBy empty []
  | register {r gs} (name : String) (run : List String → Draw (Except String Bytes)) :
    MadeBy r gs → MadeBy (r.register name run) (gs ++ [⟨name, run, none⟩])
  | registerSized {r gs} (name : String) (run : List String → Draw (Except String Bytes))
    (hint : List String → Option Nat) :
    MadeBy r gs → MadeBy (r.registerSized name run hint) (gs ++ [⟨name, run, some hint⟩])

/-- Both tables of a registry hold what the latest registrations came with, and nothing else. -/
structure Follows (r : Registry) (gs : List Registration) : Prop where
  function_of_isLatest : ∀ g, IsLatest gs g → r.functions.find? g.name = some g.builtin.run
  hint_of_isLatest : ∀ g, IsLatest gs g → r.hints.find? g.name = g.builtin.hint
  of_forall_ne : ∀ name, (∀ g ∈ gs, g.name ≠ name) →
    r.functions.find? name = none ∧ r.hints.find? name = none

section Follows

variable {r r' : Registry} {gs : List Registration}

theorem follows_empty : empty.Follows [] where
  function_of_isLatest := by
    rintro g ⟨before, after, hgs, -⟩
    simp at hgs
  hint_of_isLatest := by
    rintro g ⟨before, after, hgs, -⟩
    simp at hgs
  of_forall_ne _ _ := ⟨rfl, rfl⟩

/-- A registration that writes its name in both tables, and nothing else, is followed by them. -/
theorem Follows.concat (h : r.Follows gs) (g : Registration)
    (hfunctions : ∀ name, r'.functions.find? name =
      if g.name = name then some g.builtin.run else r.functions.find? name)
    (hhints : ∀ name, r'.hints.find? name =
      if g.name = name then g.builtin.hint else r.hints.find? name) : r'.Follows (gs ++ [g]) where
  function_of_isLatest := by
    intro other hother
    rw [hfunctions]
    rcases isLatest_concat.1 hother with rfl | ⟨hne, hother⟩
    · exact if_pos rfl
    · rw [if_neg hne]
      exact h.function_of_isLatest other hother
  hint_of_isLatest := by
    intro other hother
    rw [hhints]
    rcases isLatest_concat.1 hother with rfl | ⟨hne, hother⟩
    · exact if_pos rfl
    · rw [if_neg hne]
      exact h.hint_of_isLatest other hother
  of_forall_ne := by
    intro name hname
    have hne : g.name ≠ name := hname g (by simp)
    rw [hfunctions, hhints, if_neg hne, if_neg hne]
    exact h.of_forall_ne name fun other hother => hname other (List.mem_append_left _ hother)

/-- The tables follow the registrations through any number of replacements. -/
theorem MadeBy.follows (h : MadeBy r gs) : r.Follows gs := by
  induction h with
  | empty => exact follows_empty
  | register name run _ ih =>
    refine ih.concat _ ?_ ?_
    · intro other
      exact Table.find?_insert ..
    · intro other
      exact Table.find?_erase ..
  | registerSized name run hint _ ih =>
    refine ih.concat _ ?_ ?_
    · intro other
      exact Table.find?_insert ..
    · intro other
      exact Table.find?_insert ..

theorem Follows.mem_names_iff (h : r.Follows gs) {name : String} :
    name ∈ r.names ↔ ∃ g ∈ gs, g.name = name := by
  rw [names, Table.mem_names_iff]
  constructor
  · rintro ⟨run, hrun⟩
    by_contra hnone
    have hne : ∀ g ∈ gs, g.name ≠ name := by
      intro g hg hname
      exact hnone ⟨g, hg, hname⟩
    rw [(h.of_forall_ne name hne).1] at hrun
    cases hrun
  · rintro ⟨g, hg, rfl⟩
    obtain ⟨latest, hlatest, hname⟩ := exists_isLatest hg
    exact ⟨_, hname ▸ h.function_of_isLatest latest hlatest⟩

/-- A builtin that is found is that of the latest registration of its name, function and hint. -/
theorem Follows.isLatest_of_find? (h : r.Follows gs) {name : String} {b : Builtin}
    (hfind : r.find? name = some b) : IsLatest gs ⟨name, b⟩ := by
  obtain ⟨run, hrun, hb⟩ := Option.bind_eq_some_iff.1 hfind
  have hmem : name ∈ r.names := Table.mem_names_iff.2 ⟨run, hrun⟩
  obtain ⟨g, hg, rfl⟩ := h.mem_names_iff.1 hmem
  obtain ⟨⟨name, builtin⟩, hlatest, rfl⟩ := exists_isLatest hg
  rw [h.function_of_isLatest _ hlatest, Option.some.injEq] at hrun
  rw [h.hint_of_isLatest _ hlatest, ← hrun] at hb
  rwa [← Option.some.inj hb]

end Follows

end Registry

/-- The registrations of the standard builtins. -/
def Standard.registrations : List Registration :=
  [⟨"random_bytes", randomBytes, some boundsHint⟩, ⟨"random_string", randomString, some boundsHint⟩,
    ⟨"hex", hex, some hexHint⟩]

theorem Standard.madeBy_registry : Registry.MadeBy registry registrations :=
  ((Registry.MadeBy.empty.registerSized _ _ _).registerSized _ _ _).registerSized _ _ _

namespace Registry

open Registration

/-- **No stale hint.** However often names are registered again, with hints or without: under a name
that is registered, both tables hold what its latest registration came with, and under any other
name they hold nothing. The names come out in strictly increasing order. So each call of a program
has the function and the hint of one registration, which is the latest of its name. -/
theorem latest_of_madeBy :
    MadeBy Standard.registry Standard.registrations ∧
    ∀ {r : Registry} {gs : List Registration}, MadeBy r gs →
      (∀ name,
        (∃ g, IsLatest gs g ∧ g.name = name ∧ r.functions.find? name = some g.builtin.run ∧
          r.hints.find? name = g.builtin.hint) ∨
        (∀ g ∈ gs, g.name ≠ name) ∧ r.functions.find? name = none ∧
          r.hints.find? name = none) ∧
      (r.names.Pairwise (· < ·) ∧ ∀ name, name ∈ r.names ↔ ∃ g ∈ gs, g.name = name) ∧
      ∀ text p, Program.parse r text = .ok p → ∀ c, .call c ∈ p.segments →
        IsLatest gs ⟨c.name, c.builtin⟩ := by
  refine ⟨Standard.madeBy_registry, ?_⟩
  intro r gs hmade
  have hfollows := hmade.follows
  refine ⟨?_, ⟨r.functions.names_sorted, fun name => hfollows.mem_names_iff⟩, ?_⟩
  · intro name
    by_cases hname : ∃ g ∈ gs, g.name = name
    · obtain ⟨g, hg, rfl⟩ := hname
      obtain ⟨latest, hlatest, hsame⟩ := exists_isLatest hg
      refine .inl ⟨latest, hlatest, hsame, ?_, ?_⟩
      · rw [← hsame, hfollows.function_of_isLatest latest hlatest]
      · rw [← hsame, hfollows.hint_of_isLatest latest hlatest]
    · have hne : ∀ g ∈ gs, g.name ≠ name := fun g hg hsame => hname ⟨g, hg, hsame⟩
      exact .inr ⟨hne, hfollows.of_forall_ne name hne⟩
  · intro text p hparse c hc
    have hresolved : (Segment.call c).Resolved r := Program.resolved_of_parse hparse _ hc
    exact hfollows.isLatest_of_find? hresolved

/-- `hex` replaced by a builtin without a hint, and this by one that always has the same. -/
theorem latest_of_madeBy_hex :
    let bare := Standard.registry.register "hex" Standard.randomBytes
    let sized := bare.registerSized "hex" Standard.randomString fun _ => some 1
    (∀ text p, Program.parse bare text = .ok p → ∀ c, .call c ∈ p.segments → c.name = "hex" →
      c.builtin = ⟨Standard.randomBytes, none⟩) ∧
    ∀ text p, Program.parse sized text = .ok p → ∀ c, .call c ∈ p.segments → c.name = "hex" →
      c.builtin = ⟨Standard.randomString, some fun _ => some 1⟩ := by
  intro bare sized
  have hbare := Standard.madeBy_registry.register "hex" Standard.randomBytes
  have hsized := hbare.registerSized "hex" Standard.randomString fun _ => some 1
  refine ⟨?_, ?_⟩
  · intro text p hparse c hc hname
    have hlatest := (latest_of_madeBy.2 hbare).2.2 text p hparse c hc
    rcases isLatest_concat.1 hlatest with heq | ⟨hne, -⟩
    · exact congrArg Registration.builtin heq
    · exact absurd hname.symm hne
  · intro text p hparse c hc hname
    have hlatest := (latest_of_madeBy.2 hsized).2.2 text p hparse c hc
    rcases isLatest_concat.1 hlatest with heq | ⟨hne, -⟩
    · exact congrArg Registration.builtin heq
    · exact absurd hname.symm hne

end Registry

end Camouflage
