import Camouflage.Proofs.Text.Utf8

/-!
# What is decoded

Strict reading accepts the UTF-8 forms of texts and nothing else (`decodeUtf8_eq_ok_iff`). When the
machine emits nothing but characters, each of them has been begun by one byte and completed by
others. The ranges of the bytes leave room for one form of each character and for no surrogate, so
the bytes that were read are those the encoder gives.

Lossy reading can be cut at an ASCII byte (`decodeLossy_append_ascii`). Such a byte ends whatever
has been begun before it, just as the end of the bytes does, and it is shown as itself.
-/

namespace Camouflage.Text

namespace Utf8

theorem Encodes.unique {n : Nat} {bs bs' : Bytes} (h : Encodes n bs) (h' : Encodes n bs') :
    bs = bs' := by
  cases h <;> cases h' <;> first | rfl | omega

/-- Outside the surrogates, the bytes of a number are those of its character. -/
theorem Encodes.eq_encodeChar {n : Nat} {bs : Bytes} (h : Encodes n bs)
    (hs : n < 0xD800 ∨ 0xDFFF < n) : String.utf8EncodeChar (Char.ofNat n) = bs := by
  have hlimit : n < 0x110000 := by
    cases h <;> omega
  have hvalid : n.isValidChar := by
    unfold Nat.isValidChar
    omega
  have hn : (Char.ofNat n).toNat = n := by
    rw [Char.ofNat, dif_pos hvalid]
    rfl
  have hchar := encodes (Char.ofNat n)
  rw [hn] at hchar
  exact hchar.unique h

/-- Bytes that go on with a character that has begun and end it, and the number that it has then. -/
inductive Completes : Begun → Bytes → Nat → Prop
  | last {g : Begun} {b : UInt8} {n : Nat} : g.low.toNat ≤ b.toNat → b.toNat ≤ g.high.toNat →
    g.owed ≤ 1 → n = g.bits * 64 + (b.toNat - 0x80) → Completes g [b] n
  | more {g : Begun} {b : UInt8} {bs : Bytes} {n : Nat} : g.low.toNat ≤ b.toNat →
    b.toNat ≤ g.high.toNat → 1 < g.owed →
    Completes ⟨g.bits * 64 + (b.toNat - 0x80), g.seen + 1, g.owed - 1, 0x80, 0xBF⟩ bs n →
    Completes g (b :: bs) n

theorem run_cons (st : State) (b : UInt8) (bs : Bytes) :
    run [] st (b :: bs) = (step st b).1 ++ run [] (step st b).2 bs := by
  simp only [run]
  rw [run_eq]
  simp

/-- A byte that cannot go on with a character is read again from the start. -/
theorem run_of_not_mem_range {g : Begun} {b : UInt8}
    (h : ¬ (g.low.toNat ≤ b.toNat ∧ b.toNat ≤ g.high.toNat)) (bs : Bytes) :
    run [] (some g) (b :: bs) = .bad g.seen :: run [] none (b :: bs) := by
  rw [run_cons, run_cons]
  simp only [step, UInt8.le_iff_toNat_le, ← Bool.decide_and, h, decide_false, Bool.false_eq_true,
    ↓reduceIte, List.cons_append]

section Completes

variable {g : Begun} {bs : Bytes} {n : Nat}

theorem Completes.exists_last (h : Completes g bs n) (howed : g.owed ≤ 1) :
    ∃ b, bs = [b] ∧ g.low.toNat ≤ b.toNat ∧ b.toNat ≤ g.high.toNat ∧
      n = g.bits * 64 + (b.toNat - 0x80) := by
  cases h with
  | last hlow hhigh _ hn => exact ⟨_, rfl, hlow, hhigh, hn⟩
  | more _ _ hmore => omega

theorem Completes.exists_more (h : Completes g bs n) (howed : 1 < g.owed) :
    ∃ b bs', bs = b :: bs' ∧ g.low.toNat ≤ b.toNat ∧ b.toNat ≤ g.high.toNat ∧
      Completes ⟨g.bits * 64 + (b.toNat - 0x80), g.seen + 1, g.owed - 1, 0x80, 0xBF⟩ bs' n := by
  cases h with
  | last _ _ hlast => omega
  | more hlow hhigh _ h => exact ⟨_, _, rfl, hlow, hhigh, h⟩

end Completes

/-- A machine inside a character emits only characters if this one is completed first. -/
theorem exists_completes_of_run {g : Begun} {bs : Bytes} {cs : List Char}
    (h : run [] (some g) bs = cs.map .char) :
    ∃ more n rest cs', bs = more ++ rest ∧ cs = Char.ofNat n :: cs' ∧ Completes g more n ∧
      run [] none rest = cs'.map .char := by
  induction bs generalizing g with
  | nil =>
    cases cs with
    | nil => cases h
    | cons c cs => simp [run, finish] at h
  | cons b bs ih =>
    by_cases hrange : g.low.toNat ≤ b.toNat ∧ b.toNat ≤ g.high.toNat
    · obtain ⟨hlow, hhigh⟩ := hrange
      rw [← UInt8.ofNat_toNat (x := b)] at h
      by_cases howed : g.owed ≤ 1
      · rw [run_last b.toNat_lt hlow hhigh howed] at h
        obtain ⟨c, cs', rfl, hc, hrest⟩ := List.map_eq_cons_iff.1 h.symm
        refine ⟨[b], _, bs, cs', rfl, ?_, .last hlow hhigh howed rfl, hrest.symm⟩
        rw [Piece.char.inj hc]
      · rw [run_more b.toNat_lt hlow hhigh (by omega)] at h
        obtain ⟨more, n, rest, cs', rfl, rfl, hmore, hrest⟩ := ih h
        exact ⟨b :: more, n, rest, cs', rfl, rfl, .more hlow hhigh (by omega) hmore, hrest⟩
    · -- The machine says here that the bytes before are no character.
      rw [run_of_not_mem_range hrange] at h
      cases cs <;> simp at h

/-- A byte that stands for itself. -/
theorem first_eq_inl_char {b : UInt8} {c : Char} (h : first b = .inl (.char c)) :
    Encodes b.toNat [b] ∧ b.toNat < 0xD800 ∧ c = Char.ofNat b.toNat := by
  rw [← UInt8.ofNat_toNat (x := b), first_ofNat b.toNat_lt] at h
  split at h
  · rename_i hsmall
    refine ⟨?_, by omega, (Piece.char.inj (Sum.inl.inj h)).symm⟩
    have hone : Encodes b.toNat [UInt8.ofNat b.toNat] := .one hsmall
    rwa [UInt8.ofNat_toNat] at hone
  · repeat' split at h
    all_goals simp at h

/-- The bits in a first byte, and the range of the byte behind it: so narrow that nothing is encoded
in more bytes than it needs, and no surrogate at all. -/
theorem first_eq_inr {b : UInt8} {g : Begun} (h : first b = .inr g) :
    (g.owed = 1 ∧ b.toNat = g.bits + 0xC0 ∧ 2 ≤ g.bits ∧ g.bits < 0x20 ∧
      0x80 ≤ g.low.toNat ∧ g.high.toNat ≤ 0xBF) ∨
    (g.owed = 2 ∧ b.toNat = g.bits + 0xE0 ∧ g.bits < 0x10 ∧ 0x80 ≤ g.low.toNat ∧
      g.high.toNat ≤ 0xBF ∧ (g.bits = 0 → 0xA0 ≤ g.low.toNat) ∧
      (g.bits = 0xD → g.high.toNat ≤ 0x9F)) ∨
    (g.owed = 3 ∧ b.toNat = g.bits + 0xF0 ∧ g.bits ≤ 4 ∧ 0x80 ≤ g.low.toNat ∧
      g.high.toNat ≤ 0xBF ∧ (g.bits = 0 → 0x90 ≤ g.low.toNat) ∧
      (g.bits = 4 → g.high.toNat ≤ 0x8F)) := by
  rw [← UInt8.ofNat_toNat (x := b), first_ofNat b.toNat_lt] at h
  split at h
  · cases h
  split at h
  · rw [← Sum.inr.inj h]
    exact .inl ⟨rfl, by simp; omega, by simp; omega, by simp; omega, by simp, by simp⟩
  split at h
  · rw [← Sum.inr.inj h]
    exact .inr (.inl ⟨rfl, by simpa, by simp, by simp, by simp, by simp, by simp⟩)
  split at h
  · rw [← Sum.inr.inj h]
    exact .inr (.inl ⟨rfl, by simpa, by simp, by simp, by simp, by simp, by simp⟩)
  split at h
  · rw [← Sum.inr.inj h]
    exact .inr (.inl ⟨rfl, by simp; omega, by simp; omega, by simp, by simp,
      by simp; omega, by simp; omega⟩)
  split at h
  · rw [← Sum.inr.inj h]
    exact .inr (.inr ⟨rfl, by simpa, by simp, by simp, by simp, by simp, by simp⟩)
  split at h
  · rw [← Sum.inr.inj h]
    exact .inr (.inr ⟨rfl, by simp; omega, by simp; omega, by simp, by simp,
      by simp; omega, by simp; omega⟩)
  split at h
  · rw [← Sum.inr.inj h]
    exact .inr (.inr ⟨rfl, by simpa, by simp, by simp, by simp, by simp, by simp⟩)
  · cases h

theorem ofNat_eq {b : UInt8} {k : Nat} (h : b.toNat = k) : UInt8.ofNat k = b := by
  rw [← h, UInt8.ofNat_toNat]

/-- A first byte and what completes it are the bytes of a character, and of no surrogate. -/
theorem Completes.encodes {b : UInt8} {g : Begun} {bs : Bytes} {n : Nat} (hfirst : first b = .inr g)
    (h : Completes g bs n) : Encodes n (b :: bs) ∧ (n < 0xD800 ∨ 0xDFFF < n) := by
  have hleast : (0x80 : UInt8).toNat = 0x80 := rfl
  have hmost' : (0xBF : UInt8).toNat = 0xBF := rfl
  rcases first_eq_inr hfirst with
    ⟨howed, hb, hnarrow, hmost, hlow, hhigh⟩ |
    ⟨howed, hb, hmost, hlow, hhigh, hzero, hsurrogate⟩ |
    ⟨howed, hb, hmost, hlow, hhigh, hzero, hlimit⟩
  · obtain ⟨b₁, rfl, hlow₁, hhigh₁, hn⟩ := h.exists_last (by omega)
    refine ⟨?_, by omega⟩
    have hbytes := Encodes.two (n := n) (by omega) (by omega)
    rwa [ofNat_eq (b := b) (by omega), ofNat_eq (b := b₁) (by omega)] at hbytes
  · obtain ⟨b₁, bs, rfl, hlow₁, hhigh₁, h⟩ := h.exists_more (by omega)
    obtain ⟨b₂, rfl, hlow₂, hhigh₂, hn⟩ := h.exists_last (by simp [howed])
    simp only [hleast, hmost'] at hlow₂ hhigh₂ hn
    refine ⟨?_, by omega⟩
    have hbytes := Encodes.three (n := n) (by omega) (by omega)
    rwa [ofNat_eq (b := b) (by omega), ofNat_eq (b := b₁) (by omega),
      ofNat_eq (b := b₂) (by omega)] at hbytes
  · obtain ⟨b₁, bs, rfl, hlow₁, hhigh₁, h⟩ := h.exists_more (by omega)
    obtain ⟨b₂, bs, rfl, hlow₂, hhigh₂, h⟩ := h.exists_more (by simp [howed])
    obtain ⟨b₃, rfl, hlow₃, hhigh₃, hn⟩ := h.exists_last (by simp [howed])
    simp only [hleast, hmost'] at hlow₂ hhigh₂ hlow₃ hhigh₃ hn
    refine ⟨?_, by omega⟩
    have hbytes := Encodes.four (n := n) (by omega) (by omega)
    rwa [ofNat_eq (b := b) (by omega), ofNat_eq (b := b₁) (by omega),
      ofNat_eq (b := b₂) (by omega), ofNat_eq (b := b₃) (by omega)] at hbytes

/-- If the machine emits nothing but characters, the bytes are these characters encoded. -/
theorem encodeUtf8_of_run : ∀ {bs : Bytes} {cs : List Char},
    run [] none bs = cs.map .char → encodeUtf8 cs = bs
  | [], cs, h => by
    obtain rfl := List.map_eq_nil_iff.1 h.symm
    rfl
  | b :: bs, cs, h => by
    cases hfirst : first b with
    | inl piece =>
      rw [run_of_first_inl hfirst] at h
      obtain ⟨c, cs', rfl, rfl, hrest⟩ := List.map_eq_cons_iff.1 h.symm
      obtain ⟨hbytes, hsmall, rfl⟩ := first_eq_inl_char hfirst
      have hcons : encodeUtf8 (Char.ofNat b.toNat :: cs') =
        String.utf8EncodeChar (Char.ofNat b.toNat) ++ encodeUtf8 cs' := rfl
      rw [hcons, hbytes.eq_encodeChar (.inl hsmall), encodeUtf8_of_run hrest.symm]
      rfl
    | inr g =>
      rw [run_of_first_inr hfirst] at h
      obtain ⟨more, n, rest, cs', hbs, rfl, hcompletes, hrest⟩ := exists_completes_of_run h
      obtain ⟨hbytes, hn⟩ := hcompletes.encodes hfirst
      have hshorter : rest.length < (b :: bs).length := by
        rw [hbs, List.length_cons, List.length_append]
        omega
      have hcons : encodeUtf8 (Char.ofNat n :: cs') =
        String.utf8EncodeChar (Char.ofNat n) ++ encodeUtf8 cs' := rfl
      rw [hcons, hbytes.eq_encodeChar hn, encodeUtf8_of_run hrest, hbs]
      rfl
termination_by bs => bs.length

theorem chars_of_collect {index : Nat} {done cs : List Char} {ps : List Piece}
    (h : collect index done ps = .ok cs) : ∃ ds, ps = ds.map .char ∧ cs = done.reverse ++ ds := by
  induction ps generalizing index done with
  | nil =>
    cases h
    exact ⟨[], rfl, by simp⟩
  | cons p ps ih =>
    cases p with
    | char c =>
      obtain ⟨ds, rfl, rfl⟩ := ih h
      exact ⟨c :: ds, rfl, by simp⟩
    | bad size => cases h
    | cut => cases h

/-! ## Cut at an ASCII byte -/

/-- A character that has begun cannot go on with an ASCII byte. -/
def State.Closed : State → Prop
  | none => True
  | some g => 0x80 ≤ g.low.toNat

theorem closed_start (b : UInt8) : (start b).2.Closed := by
  unfold start
  split
  · trivial
  · rename_i g hfirst
    change 0x80 ≤ g.low.toNat
    rcases first_eq_inr hfirst with
      ⟨-, -, -, -, hlow, -⟩ | ⟨-, -, -, hlow, -⟩ | ⟨-, -, -, hlow, -⟩ <;> exact hlow

theorem closed_step (st : State) (b : UInt8) : (step st b).2.Closed := by
  cases st with
  | none => exact closed_start b
  | some g =>
    unfold step
    dsimp only
    split
    · split
      · trivial
      · change 0x80 ≤ (0x80 : UInt8).toNat
        decide
    · exact closed_start b

/-- What is shown in front of an ASCII byte is what is shown when the bytes end there. -/
theorem shown_run_append {st : State} (hst : st.Closed) {b : UInt8} (hb : b.toNat < 0x80)
    (bs rest : Bytes) : (run [] st (bs ++ b :: rest)).map Piece.shown =
      (run [] st bs).map Piece.shown ++
        Char.ofNat b.toNat :: (run [] none rest).map Piece.shown := by
  induction bs generalizing st with
  | nil =>
    have hfirst : first b = .inl (.char (Char.ofNat b.toNat)) := by
      unfold first
      rw [if_pos (UInt8.lt_iff_toNat_lt.2 hb)]
    rw [List.nil_append]
    cases st with
    | none =>
      rw [run_of_first_inl hfirst]
      rfl
    | some g =>
      have hlow : 0x80 ≤ g.low.toNat := hst
      rw [run_of_not_mem_range (by omega), run_of_first_inl hfirst]
      rfl
  | cons c bs ih =>
    rw [List.cons_append, run_cons, run_cons, List.map_append, ih (closed_step st c),
      List.map_append, List.append_assoc]

end Utf8

/-- Bytes are decoded exactly if they are an encoded text, and then as this text. -/
theorem decodeUtf8_eq_ok_iff {bs : Bytes} {cs : List Char} :
    decodeUtf8 bs = .ok cs ↔ encodeUtf8 cs = bs := by
  constructor
  · intro h
    obtain ⟨ds, hpieces, rfl⟩ := Utf8.chars_of_collect h
    exact Utf8.encodeUtf8_of_run hpieces
  · rintro rfl
    exact decodeUtf8_encodeUtf8 cs

/-- Lossy reading goes on at an ASCII byte as it would at the start. -/
theorem decodeLossy_append_ascii {b : UInt8} (hb : b.toNat < 0x80) (bs rest : Bytes) :
    decodeLossy (bs ++ b :: rest) = decodeLossy bs ++ Char.ofNat b.toNat :: decodeLossy rest := by
  have hclosed : Utf8.State.Closed none := trivial
  exact Utf8.shown_run_append hclosed hb bs rest

end Camouflage.Text
