/-!
# Cutting a text at a character

The first occurrence, the last occurrence, or every occurrence. In each case the character cut at
belongs to neither side.
-/

namespace Camouflage.Text

variable {α : Type} [DecidableEq α]

/-- The parts before and after the first `x`, if there is one. -/
def splitFirst (x : α) (xs : List α) : Option (List α × List α) :=
  match xs.dropWhile (· ≠ x) with
  | [] => none
  | _ :: rest => some (xs.takeWhile (· ≠ x), rest)

/-- The parts before and after the last `x`, if there is one. -/
def splitLast (x : α) (xs : List α) : Option (List α × List α) :=
  (splitFirst x xs.reverse).map fun (after, before) => (before.reverse, after.reverse)

/-- The pieces between the occurrences of `x`; always at least one piece. -/
def splitAll (x : α) (xs : List α) : List (List α) :=
  go [] xs
where
  /-- The pieces of what is left, the first of them begun with `piece` reversed. -/
  go (piece : List α) : List α → List (List α)
    | [] => [piece.reverse]
    | y :: ys => if y = x then piece.reverse :: go [] ys else go (y :: piece) ys

/-- Cutting at the first occurrence loses nothing but that occurrence. -/
theorem eq_append_of_splitFirst {x : α} {xs before after : List α}
    (h : splitFirst x xs = some (before, after)) : xs = before ++ x :: after := by
  unfold splitFirst at h
  split at h
  · simp at h
  · rename_i y rest hd
    simp only [Option.some.injEq, Prod.mk.injEq] at h
    obtain ⟨rfl, rfl⟩ := h
    have hy : y = x := by
      have := List.head?_dropWhile_not (fun z => decide (z ≠ x)) xs
      rw [hd] at this
      simpa using this
    subst hy
    rw [← hd, List.takeWhile_append_dropWhile]

end Camouflage.Text
