import Camouflage.Text.Blank
import Camouflage.Text.Split
import Mathlib.Data.List.DropRight

/-!
# Where texts are cut

`splitFirst` and `splitLast` are determined by what they give: the side that is looked through
first does not hold the character cut at. `splitAll` is core's `List.splitOn`, and trimming is
cutting off blanks at either end, once and for all (`trim_trim`).
-/

namespace Camouflage.Text

/-! ## At a character -/

section Split

variable {α : Type} [DecidableEq α] {x : α} {xs before after : List α}

theorem splitFirst_append (h : x ∉ before) (after : List α) :
    splitFirst x (before ++ x :: after) = some (before, after) := by
  have hp : ∀ y ∈ before, decide (y ≠ x) = true := by
    intro y hy
    rw [decide_eq_true_eq]
    rintro rfl
    exact h hy
  unfold splitFirst
  rw [List.dropWhile_append_of_pos hp, List.takeWhile_append_of_pos hp]
  simp

/-- The first cut is the one with nothing to cut at before it. -/
theorem splitFirst_eq_some_iff :
    splitFirst x xs = some (before, after) ↔ x ∉ before ∧ xs = before ++ x :: after := by
  constructor
  · intro h
    refine ⟨?_, eq_append_of_splitFirst h⟩
    unfold splitFirst at h
    split at h
    · cases h
    · simp only [Option.some.injEq, Prod.mk.injEq] at h
      rw [← h.1]
      intro hx
      have := List.mem_takeWhile_imp hx
      simp at this
  · rintro ⟨h, rfl⟩
    exact splitFirst_append h after

/-- The last cut is the one with nothing to cut at behind it. -/
theorem splitLast_eq_some_iff :
    splitLast x xs = some (before, after) ↔ x ∉ after ∧ xs = before ++ x :: after := by
  unfold splitLast
  rw [Option.map_eq_some_iff]
  constructor
  · rintro ⟨⟨a, b⟩, hs, hab⟩
    obtain ⟨hx, hr⟩ := splitFirst_eq_some_iff.1 hs
    simp only [Prod.mk.injEq] at hab
    obtain ⟨rfl, rfl⟩ := hab
    refine ⟨by simpa using hx, ?_⟩
    rw [← List.reverse_reverse xs, hr]
    simp
  · rintro ⟨hx, rfl⟩
    refine ⟨(after.reverse, before.reverse), ?_, by simp⟩
    rw [splitFirst_eq_some_iff]
    exact ⟨by simpa using hx, by simp⟩

theorem splitAll_go (piece xs : List α) :
    splitAll.go x piece xs = xs.splitOnPPrepend (· == x) piece := by
  induction xs generalizing piece with
  | nil => rfl
  | cons y ys ih =>
    rw [splitAll.go, List.splitOnPPrepend_cons_eq_if]
    simp only [ih, beq_iff_eq, List.splitOnPPrepend_nil_right]

theorem splitAll_eq_splitOn (x : α) (xs : List α) : splitAll x xs = xs.splitOn x := by
  unfold splitAll
  rw [splitAll_go]
  rfl

/-- What stands between the cuts is from the text and does not hold what is cut at. -/
theorem of_mem_splitOn {piece : List α} (hpiece : piece ∈ xs.splitOn x) {y : α} (hy : y ∈ piece) :
    y ∈ xs ∧ y ≠ x := by
  induction xs generalizing piece with
  | nil =>
    rw [List.splitOn_nil, List.mem_singleton] at hpiece
    rw [hpiece] at hy
    cases hy
  | cons z zs ih =>
    rw [List.splitOn_cons_eq_if_modifyHead] at hpiece
    split at hpiece
    · rcases List.mem_cons.1 hpiece with rfl | hpiece
      · cases hy
      · obtain ⟨hmem, hne⟩ := ih hpiece hy
        exact ⟨List.mem_cons_of_mem z hmem, hne⟩
    · rename_i hz
      obtain ⟨first, others, hsplit⟩ := List.exists_cons_of_ne_nil (List.splitOn_ne_nil x zs)
      rw [hsplit] at hpiece ih
      rcases List.mem_cons.1 hpiece with rfl | hpiece
      · rcases List.mem_cons.1 hy with rfl | hy
        · exact ⟨List.mem_cons_self, by simpa using hz⟩
        · obtain ⟨hmem, hne⟩ := ih List.mem_cons_self hy
          exact ⟨List.mem_cons_of_mem z hmem, hne⟩
      · obtain ⟨hmem, hne⟩ := ih (List.mem_cons_of_mem first hpiece) hy
        exact ⟨List.mem_cons_of_mem z hmem, hne⟩

end Split

/-! ## Behind a run -/

section Run

variable {α : Type} {p q : α → Bool} {run rest : List α}

theorem takeWhile_run (hrun : ∀ x ∈ run, p x = true) (hrest : ∀ x ∈ rest.head?, p x = false) :
    (run ++ rest).takeWhile p = run := by
  rw [List.takeWhile_append_of_pos hrun]
  cases rest with
  | nil => rw [List.takeWhile_nil, List.append_nil]
  | cons x rest => rw [List.takeWhile_cons_of_neg (by simp [hrest x rfl]), List.append_nil]

theorem dropWhile_run (hrun : ∀ x ∈ run, p x = true) (hrest : ∀ x ∈ rest.head?, p x = false) :
    (run ++ rest).dropWhile p = rest := by
  rw [List.dropWhile_append_of_pos hrun]
  cases rest with
  | nil => rfl
  | cons x rest => exact List.dropWhile_cons_of_neg (by simp [hrest x rfl])

theorem dropWhile_of_forall {xs : List α} (h : ∀ x ∈ xs, p x = false) : xs.dropWhile p = xs := by
  rw [← List.nil_append xs]
  refine dropWhile_run (List.forall_mem_nil _) ?_
  intro x hx
  exact h x (List.mem_of_mem_head? hx)

theorem rdropWhile_of_forall {xs : List α} (h : ∀ x ∈ xs, p x = false) :
    xs.rdropWhile p = xs := by
  have hreverse : ∀ x ∈ xs.reverse, p x = false := by
    intro x hx
    exact h x (List.mem_reverse.1 hx)
  rw [List.rdropWhile, dropWhile_of_forall hreverse, List.reverse_reverse]

section Ends

variable {β : Type} [DecidableEq β] {x : β} {xs : List β}

theorem dropWhile_eq_self_iff_head? : xs.dropWhile (· = x) = xs ↔ xs.head? ≠ some x := by
  cases xs <;> simp

theorem rdropWhile_eq_self_iff_getLast? : xs.rdropWhile (· = x) = xs ↔ xs.getLast? ≠ some x := by
  induction xs using List.reverseRecOn <;> simp

end Ends

/-- A list cut in front stays so when it is cut behind. -/
theorem dropWhile_rdropWhile_dropWhile (xs : List α) :
    ((xs.dropWhile p).rdropWhile q).dropWhile p = (xs.dropWhile p).rdropWhile q := by
  have hpre := List.rdropWhile_prefix q (xs.dropWhile p)
  cases hr : (xs.dropWhile p).rdropWhile q with
  | nil => rfl
  | cons y ys =>
    obtain ⟨more, hmore⟩ := hpre
    rw [hr, List.cons_append] at hmore
    have hy := List.head?_dropWhile_not p xs
    rw [← hmore] at hy
    exact List.dropWhile_cons_of_neg (by simpa using hy)

end Run

/-! ## Blanks at the ends -/

section Trim

theorem trimEnd_eq_rdropWhile (cs : List Char) : trimEnd cs = cs.rdropWhile isBlank :=
  rfl

theorem mem_of_mem_trim {cs : List Char} {c : Char} (h : c ∈ trim cs) : c ∈ cs := by
  unfold trim at h
  rw [trimEnd_eq_rdropWhile] at h
  have hstart : c ∈ trimStart cs := (List.rdropWhile_prefix isBlank _).subset h
  exact (List.dropWhile_sublist isBlank).subset hstart

/-- What is left in front after trimming there is no blank. -/
theorem trimStart_eq_nil_or_cons (cs : List Char) :
    trimStart cs = [] ∨ ∃ c rest, trimStart cs = c :: rest ∧ isBlank c = false := by
  unfold trimStart
  cases hd : cs.dropWhile isBlank with
  | nil => exact .inl rfl
  | cons c rest =>
    have hc := List.head?_dropWhile_not isBlank cs
    rw [hd] at hc
    exact .inr ⟨c, rest, rfl, by simpa using hc⟩

/-- A text is trimmed to nothing exactly if it has blanks only. -/
theorem trim_eq_nil_iff {cs : List Char} : trim cs = [] ↔ ∀ c ∈ cs, isBlank c = true := by
  unfold trim
  rw [trimEnd_eq_rdropWhile, List.rdropWhile_eq_nil_iff]
  constructor
  · intro h
    rcases trimStart_eq_nil_or_cons cs with hnil | ⟨c, rest, hcons, hc⟩
    · exact List.dropWhile_eq_nil_iff.1 hnil
    · rw [hcons] at h
      rw [h c List.mem_cons_self] at hc
      cases hc
  · intro h c hc
    exact h c ((List.dropWhile_sublist isBlank).subset hc)

theorem trim_of_forall {cs : List Char} (h : ∀ c ∈ cs, isBlank c = false) : trim cs = cs := by
  rw [trim, trimStart, dropWhile_of_forall h, trimEnd_eq_rdropWhile, rdropWhile_of_forall h]

/-- What is no blank is not trimmed off. -/
theorem mem_trim {cs : List Char} {c : Char} (hc : c ∈ cs) (hblank : isBlank c = false) :
    c ∈ trim cs := by
  have hkept : ∀ {ds : List Char}, c ∈ ds → c ∈ ds.dropWhile isBlank := by
    intro ds hds
    rw [← List.takeWhile_append_dropWhile (p := isBlank) (l := ds), List.mem_append] at hds
    rcases hds with hds | hds
    · rw [List.mem_takeWhile_imp hds] at hblank
      cases hblank
    · exact hds
  rw [trim, trimEnd, List.mem_reverse]
  exact hkept (List.mem_reverse.2 (hkept hc))

theorem toNat_of_isAlpha {c : Char} (hc : c.isAlpha = true) :
    65 ≤ c.toNat ∧ c.toNat ≤ 90 ∨ 97 ≤ c.toNat ∧ c.toNat ≤ 122 := by
  have hletter : (decide ('A'.val ≤ c.val ∧ c.val ≤ 'Z'.val) ||
      (decide ('a'.val ≤ c.val) && decide (c.val ≤ 'z'.val))) = true := hc
  simp only [Bool.or_eq_true, Bool.and_eq_true, decide_eq_true_eq, UInt32.le_iff_toNat_le]
    at hletter
  exact hletter

theorem isBlank_of_isAlpha {c : Char} (hc : c.isAlpha = true) : isBlank c = false := by
  have hletter := toNat_of_isAlpha hc
  simp [isBlank]
  omega

theorem isBlank_of_isDigit {c : Char} (h : c.isDigit = true) : isBlank c = false := by
  have hrange := Char.isDigit_iff_toNat.1 h
  rw [show '0'.toNat = 48 from rfl, show '9'.toNat = 57 from rfl] at hrange
  simp [isBlank]
  omega

theorem isBlank_of_isAlphanum {c : Char} (h : c.isAlphanum = true) : isBlank c = false := by
  have hor : (c.isAlpha || c.isDigit) = true := h
  rcases Bool.or_eq_true_iff.1 hor with halpha | hdigit
  · exact isBlank_of_isAlpha halpha
  · exact isBlank_of_isDigit hdigit

theorem trim_blank_cons {b : Char} (hb : isBlank b = true) (cs : List Char) :
    trim (b :: cs) = trim cs := by
  unfold trim trimStart
  rw [List.dropWhile_cons_of_pos hb]

theorem trimmed_eq_iff {s : String} : trimmed s = s ↔ trim s.toList = s.toList := by
  rw [← String.toList_inj, trimmed, String.toList_ofList]

/-- Trimming twice is trimming once. -/
@[simp] theorem trim_trim (cs : List Char) : trim (trim cs) = trim cs := by
  have hstart : trimStart (trim cs) = trim cs := dropWhile_rdropWhile_dropWhile cs
  rw [trim, hstart]
  exact List.rdropWhile_idempotent isBlank (trimStart cs)

end Trim

end Camouflage.Text
