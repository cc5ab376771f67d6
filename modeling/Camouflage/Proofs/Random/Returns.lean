import Camouflage.Proofs.Random.Draws

/-!
# Draws that return

Every draw does no more to its source than to take words from it. All but those that throw words
away have a value on each source. Picking letters and digits has one if the stream never runs out of
words that fit (`Source.Ample`), and so has picking from an alphabet (`Source.Picks`). What is put
together from draws that return on a source returns on it (`ReturnsOn.bind`, `ReturnsOn.times`).
-/

namespace Camouflage

namespace Source

/-- Picking a letter or digit never gives up, from whatever place of the stream it starts. -/
def Ample (s : Source) : Prop :=
  ∀ taken, (Draw.alphanumeric.run { s with taken }).isSome = true

/-- Nor does picking one of `size`. -/
def Picks (s : Source) (size : Nat) : Prop :=
  ∀ taken, ((Draw.index size).run { s with taken }).isSome = true

theorem advance_advance (s : Source) (m n : Nat) :
    (s.advance m).advance n = s.advance (m + n) := by
  simp only [advance, Nat.add_assoc]

theorem Ample.advance {s : Source} (h : s.Ample) (n : Nat) : (s.advance n).Ample :=
  h

end Source

namespace Draw

variable {α β : Type}

/-! ## On one source -/

/-- A draw that has a value from each place of a source on, and only takes words from it. -/
def ReturnsOn (s : Source) (d : Draw α) : Prop :=
  ∀ k, ∃ a n, d.run (s.advance k) = some (a, s.advance (k + n))

section ReturnsOn

variable {s : Source} {d : Draw α} {f : α → Draw β}

theorem returnsOn_pure (a : α) : ReturnsOn s (pure a) := by
  intro k
  exact ⟨a, 0, rfl⟩

theorem ReturnsOn.bind (hd : d.ReturnsOn s) (hf : ∀ a, (f a).ReturnsOn s) :
    (d >>= f).ReturnsOn s := by
  intro k
  obtain ⟨a, m, ha⟩ := hd k
  obtain ⟨b, n, hb⟩ := hf a (k + m)
  refine ⟨b, m + n, ?_⟩
  rw [run_bind_eq_some_iff, ← Nat.add_assoc]
  exact ⟨a, s.advance (k + m), ha, hb⟩

theorem ReturnsOn.times (hd : d.ReturnsOn s) (n : Nat) : (d.times n).ReturnsOn s := by
  induction n with
  | zero => exact returnsOn_pure []
  | succ n ih =>
    refine hd.bind ?_
    intro a
    refine ih.bind ?_
    intro rest
    exact returnsOn_pure (a :: rest)

theorem returnsOn_word : word.ReturnsOn s := by
  intro k
  exact ⟨_, 1, rfl⟩

theorem returnsOn_bytes (n : Nat) : (bytes n).ReturnsOn s := by
  intro k
  have hrun := run_bytes n (s.advance k)
  rw [Source.advance_advance] at hrun
  exact ⟨_, _, hrun⟩

theorem returnsOn_number (wide : Bool) : (number wide).ReturnsOn s := by
  cases wide with
  | false =>
    refine returnsOn_word.bind ?_
    intro w
    exact returnsOn_pure w.toNat
  | true =>
    refine returnsOn_word.bind ?_
    intro low
    refine returnsOn_word.bind ?_
    intro high
    exact returnsOn_pure (low.toNat + high.toNat * wordSpan)

theorem returnsOn_between (least most : Nat) : (between least most).ReturnsOn s := by
  unfold between
  split
  · exact returnsOn_pure least
  · dsimp only
    generalize (if decide (most ≥ wordSpan) = true then wordSpan * wordSpan else wordSpan) = full
    split
    · exact returnsOn_number _
    · refine (returnsOn_number _).bind ?_
      intro x
      split
      · refine (returnsOn_number _).bind ?_
        intro y
        exact returnsOn_pure _
      · exact returnsOn_pure _

theorem exists_advance_of_run_search {accept : UInt32 → Option α} {tries : Nat} {s s' : Source}
    {a : α} (h : (search accept tries).run s = some (a, s')) : ∃ n, s' = s.advance n := by
  induction tries generalizing s with
  | zero => cases h
  | succ tries ih =>
    rw [search, run_bind_eq_some_iff] at h
    obtain ⟨w, t, hw, h⟩ := h
    obtain ⟨-, rfl⟩ := Prod.mk.inj (Option.some.inj hw)
    split at h
    · obtain ⟨-, rfl⟩ := run_pure_eq_some_iff.1 h
      exact ⟨1, rfl⟩
    · obtain ⟨n, rfl⟩ := ih h
      exact ⟨1 + n, s.advance_advance 1 n⟩

/-- A search that never gives up returns. -/
theorem returnsOn_search {accept : UInt32 → Option α} {tries : Nat}
    (h : ∀ taken, ((search accept tries).run { s with taken }).isSome = true) :
    (search accept tries).ReturnsOn s := by
  intro k
  obtain ⟨⟨a, s'⟩, hrun⟩ := Option.isSome_iff_exists.1 (h (s.taken + k))
  obtain ⟨n, rfl⟩ := exists_advance_of_run_search hrun
  refine ⟨a, n, ?_⟩
  rw [← Source.advance_advance]
  exact hrun

theorem returnsOn_chooseFrom {alphabet : Bytes} (h : s.Picks alphabet.length) (n : Nat) :
    (chooseFrom alphabet n).ReturnsOn s := by
  cases alphabet with
  | nil => exact returnsOn_pure []
  | cons b bs =>
    refine ReturnsOn.times ?_ n
    refine (returnsOn_search h).bind ?_
    intro i
    exact returnsOn_pure _

end ReturnsOn

/-! ## On ample sources -/

/-- A draw that has a value on each ample source, and only takes words from it. -/
def Returns (d : Draw α) : Prop :=
  ∀ s : Source, s.Ample → ∃ a n, d.run s = some (a, s.advance n)

theorem returns_iff {d : Draw α} : d.Returns ↔ ∀ s : Source, s.Ample → d.ReturnsOn s := by
  constructor
  · intro h s hs k
    obtain ⟨a, n, hrun⟩ := h (s.advance k) (hs.advance k)
    exact ⟨a, n, by rw [hrun, Source.advance_advance]⟩
  · intro h s hs
    obtain ⟨a, n, hrun⟩ := h s hs 0
    rw [Nat.zero_add] at hrun
    exact ⟨a, n, hrun⟩

theorem returns_pure (a : α) : Returns (pure a) :=
  returns_iff.2 fun _ _ => returnsOn_pure a

theorem Returns.bind {d : Draw α} {f : α → Draw β} (hd : d.Returns) (hf : ∀ a, (f a).Returns) :
    (d >>= f).Returns := by
  rw [returns_iff] at hd ⊢
  intro s hs
  exact (hd s hs).bind fun a => returns_iff.1 (hf a) s hs

theorem Returns.times {d : Draw α} (hd : d.Returns) (n : Nat) : (d.times n).Returns := by
  rw [returns_iff] at hd ⊢
  intro s hs
  exact (hd s hs).times n

theorem returns_bytes (n : Nat) : (bytes n).Returns :=
  returns_iff.2 fun _ _ => returnsOn_bytes n

theorem returns_between (least most : Nat) : (between least most).Returns :=
  returns_iff.2 fun _ _ => returnsOn_between least most

theorem returns_alphanumeric : alphanumeric.Returns :=
  returns_iff.2 fun _ hs => returnsOn_search hs

/-- What is picked is a letter or a digit. -/
theorem isAlphanum_of_run_alphanumeric {s s' : Source} {b : UInt8}
    (h : alphanumeric.run s = some (b, s')) : (Char.ofNat b.toNat).isAlphanum = true := by
  have hall : alphanumerics.all (fun b => (Char.ofNat b.toNat).isAlphanum) = true := by
    decide
  obtain ⟨w, hw⟩ := exists_accept_of_run_search h
  dsimp only at hw
  split at hw
  · rename_i hlt
    have hlength : alphanumerics.length = 62 := by decide
    refine List.all_eq_true.1 hall b ?_
    rw [← Option.some.inj hw, ← List.getElem_eq_getD (h := hlength ▸ hlt) 0]
    exact List.getElem_mem _
  · cases hw

/-- A search does not give up if the first word is accepted. -/
theorem isSome_run_search {accept : UInt32 → Option α} {s : Source} {a : α}
    (h : accept (s.word s.taken) = some a) : ((search accept patience).run s).isSome = true := by
  have hpatience : patience = patience - 1 + 1 := by decide
  have hrun : (search accept patience).run s = some (a, s.advance 1) := by
    rw [hpatience, search, run_bind_eq_some_iff]
    refine ⟨s.word s.taken, s.advance 1, rfl, ?_⟩
    rw [h]
    rfl
  rw [hrun]
  rfl

end Draw

/-- A source is ample if each of its words picks a letter or digit. -/
theorem Source.ample_of_forall_lt {s : Source} (h : ∀ i, (s.word i).toNat / Draw.sextetSpan < 62) :
    s.Ample :=
  fun taken => Draw.isSome_run_search (if_pos (h taken))

/-- A source picks one of `size` if none of its words would favour the lower ones. -/
theorem Source.picks_of_forall_le {s : Source} {size : Nat}
    (h : ∀ i, wordSpan % size ≤ (s.word i).toNat * size % wordSpan) : s.Picks size :=
  fun taken => Draw.isSome_run_search (if_pos (h taken))

end Camouflage
