import Camouflage.Proofs.Target.Placeholder
import Mathlib.Data.List.Forall2

/-!
# Draws in their bounds

A number drawn from a range lies in it, wherever the words come from: the scaled draw is below the
span, and where a second draw may add one, it is not the largest one below it
(`Draw.scaled_add_one_lt`). Bytes picked from an alphabet are as many as were asked for, and each of
them stands in it at an index that was drawn (`Draw.run_chooseFrom_eq_some_iff`). A placeholder is
made of one such number and so many letters.
-/

namespace Camouflage

namespace Draw

variable {α β : Type}

/-- To change each of repeated draws is to change all of what they give. -/
theorem times_map (f : α → β) (d : Draw α) (n : Nat) :
    times (f <$> d) n = List.map f <$> times d n := by
  induction n with
  | zero => simp [times]
  | succ n ih => simp [times, ih]

/-- What is picked from an alphabet is what stands in it at the indices that are drawn. -/
theorem run_chooseFrom_eq_some_iff {alphabet : Bytes} (hne : alphabet ≠ []) {n : Nat}
    {s s' : Source} {bs : Bytes} :
    (chooseFrom alphabet n).run s = some (bs, s') ↔
      ∃ indices, (times (index alphabet.length) n).run s = some (indices, s') ∧
        bs = indices.map (alphabet.getD · 0) := by
  have hchoose : chooseFrom alphabet n =
      List.map (alphabet.getD · 0) <$> times (index alphabet.length) n := by
    obtain ⟨b, alphabet, rfl⟩ := List.exists_cons_of_ne_nil hne
    rw [← times_map, map_eq_pure_bind]
    rfl
  rw [hchoose, map_eq_pure_bind, run_bind_eq_some_iff]
  constructor
  · rintro ⟨indices, t, hindices, h⟩
    obtain ⟨rfl, rfl⟩ := run_pure_eq_some_iff.1 h
    exact ⟨indices, hindices, rfl⟩
  · rintro ⟨indices, hindices, rfl⟩
    exact ⟨indices, s', hindices, rfl⟩

theorem lt_of_mem_of_run_times {size n : Nat} {s s' : Source} {indices : List Nat}
    (hsize : 0 < size) (h : (times (index size) n).run s = some (indices, s')) {i : Nat}
    (hi : i ∈ indices) : i < size := by
  obtain ⟨t, t', hdrawn⟩ := exists_run_of_mem_times h hi
  exact lt_of_run_index hdrawn hsize

end Draw

/-- **Draws stay in their bounds.** On every source, a number of a range can be drawn and lies in
it. What is picked from an alphabet are as many bytes as were asked for, each the one at an index
below the alphabet's size that was drawn for it; and a placeholder is a label of 2 to 22 letters, a
point, the base, a colon and 443. Of these two one is drawn wherever indices can be. -/
theorem draws_in_bounds (s : Source) :
    (∀ least most, least ≤ most → most < 2 ^ 64 →
      ∃ n s', (Draw.between least most).run s = some (n, s') ∧ least ≤ n ∧ n ≤ most) ∧
    (∀ alphabet n, alphabet ≠ [] →
      (s.Picks alphabet.length → ∃ bs s', (Draw.chooseFrom alphabet n).run s = some (bs, s')) ∧
      ∀ bs s', (Draw.chooseFrom alphabet n).run s = some (bs, s') →
        bs.length = n ∧
        ∃ indices, (Draw.times (Draw.index alphabet.length) n).run s = some (indices, s') ∧
          List.Forall₂ (fun i b => ∃ h : i < alphabet.length, b = alphabet[i]) indices bs) ∧
    ∀ base,
      (s.Picks Placeholder.letters.length →
        ∃ placeholder s', (Placeholder.fresh base).run s = some (placeholder, s')) ∧
      ∀ placeholder s', (Placeholder.fresh base).run s = some (placeholder, s') →
        ∃ label : String, placeholder = label ++ "." ++ base ++ ":443" ∧
          2 ≤ label.length ∧ label.length ≤ 22 ∧ ∀ c ∈ label.toList, c.isAlpha = true := by
  refine ⟨?_, ?_, ?_⟩
  · intro least most hle hmost
    obtain ⟨n, taken, hrun⟩ := Draw.returnsOn_between (s := s) least most 0
    have hbounds := Draw.mem_of_run_between hle (by simpa [wordSpan] using hmost) hrun
    exact ⟨n, _, hrun, hbounds.1, hbounds.2⟩
  · intro alphabet n hne
    constructor
    · intro hpicks
      obtain ⟨bs, taken, hrun⟩ := Draw.returnsOn_chooseFrom hpicks n 0
      exact ⟨bs, _, hrun⟩
    · intro bs s' hrun
      refine ⟨(Draw.of_run_chooseFrom hne hrun).1, ?_⟩
      obtain ⟨indices, hindices, rfl⟩ := (Draw.run_chooseFrom_eq_some_iff hne).1 hrun
      refine ⟨indices, hindices, ?_⟩
      rw [List.forall₂_map_right_iff, List.forall₂_same]
      intro i hi
      have hlt := Draw.lt_of_mem_of_run_times (List.length_pos_iff.2 hne) hindices hi
      exact ⟨hlt, (List.getElem_eq_getD (h := hlt) 0).symm⟩
  · intro base
    refine ⟨fun hpicks => Placeholder.exists_run_fresh hpicks base, ?_⟩
    intro placeholder s' hrun
    obtain ⟨label, hlabel, rfl⟩ := Placeholder.exists_label_of_run_fresh hrun
    obtain ⟨hleast, hmost, hletters⟩ := Placeholder.isLabel_of_run_label hlabel
    refine ⟨label, ?_, hleast, hmost, hletters⟩
    rw [← String.toList_inj, Placeholder.toList_withLabel]
    simp

/-- A source whose first word makes the number of a range depend on the second one, which adds one
to it: of 10, 11 and 12 the first word alone would give 10. -/
def Source.carrying : Source :=
  ⟨fun i => if i = 0 then 1431655765 else 4294967295, 0⟩

/-- All three kinds of draw on that source. -/
theorem draws_in_bounds_carrying :
    (10 ≤ 12 ∧ 12 < 2 ^ 64 ∧
      (Draw.between 10 12).run Source.carrying = some (11, Source.carrying.advance 2) ∧
      ∃ n s', (Draw.between 10 12).run Source.carrying = some (n, s') ∧ 10 ≤ n ∧ n ≤ 12) ∧
    (∃ bs s', (Draw.chooseFrom [0x61, 0x62, 0x63] 2).run Source.carrying = some (bs, s') ∧
      bs.length = 2) ∧
    ∃ label : String, (∃ s', (Placeholder.fresh "b.c").run Source.carrying =
        some (label ++ "." ++ "b.c" ++ ":443", s')) ∧
      2 ≤ label.length ∧ label.length ≤ 22 ∧ ∀ c ∈ label.toList, c.isAlpha = true := by
  obtain ⟨hbetween, hchoose, hfresh⟩ := draws_in_bounds Source.carrying
  have hpicks : ∀ size, wordSpan % size ≤ 1431655765 * size % wordSpan →
      wordSpan % size ≤ 4294967295 * size % wordSpan → Source.carrying.Picks size := by
    intro size hfirst hlater
    apply Source.picks_of_forall_le
    intro i
    simp only [Source.carrying]
    split
    · exact hfirst
    · exact hlater
  obtain ⟨hexists, hbytes⟩ := hchoose [0x61, 0x62, 0x63] 2 (by decide)
  obtain ⟨bs, t, hbs⟩ := hexists (hpicks 3 (by decide) (by decide))
  obtain ⟨hmade, hlabel⟩ := hfresh "b.c"
  obtain ⟨placeholder, s', hrun⟩ := hmade (hpicks 52 (by decide) (by decide))
  obtain ⟨label, rfl, hshape⟩ := hlabel _ _ hrun
  exact ⟨⟨by decide, by decide, rfl, hbetween 10 12 (by decide) (by decide)⟩,
    ⟨bs, t, hbs, (hbytes _ _ hbs).1⟩, label, ⟨s', hrun⟩, hshape⟩

end Camouflage
