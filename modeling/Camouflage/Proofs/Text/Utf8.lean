import Camouflage.Text.Utf8

/-!
# Encoding and decoding

Core's encoder and the reading machine agree: `decodeUtf8_encodeUtf8`. The numbers of the bytes of
a character are taken from `Encodes`, one constructor for each number of bytes, and the machine is
run on each of the four.

An ASCII character is its own byte, and no other character has such a byte
(`mem_encodeUtf8_ascii`). So bytes can be cut at an ASCII character where the text can, and
nowhere else (`eq_append_of_encodeUtf8_eq`).
-/

namespace Camouflage.Text

namespace Utf8

/-- The bytes of the character number `n`, with one constructor for each number of bytes. -/
inductive Encodes (n : Nat) : Bytes → Prop
  | one (hi : n < 0x80) : Encodes n [UInt8.ofNat n]
  | two (lo : 0x80 ≤ n) (hi : n < 0x800) :
    Encodes n [UInt8.ofNat (n / 64 + 0xC0), UInt8.ofNat (n % 64 + 0x80)]
  | three (lo : 0x800 ≤ n) (hi : n < 0x10000) :
    Encodes n [UInt8.ofNat (n / 4096 + 0xE0), UInt8.ofNat (n / 64 % 64 + 0x80),
      UInt8.ofNat (n % 64 + 0x80)]
  | four (lo : 0x10000 ≤ n) (hi : n < 0x110000) :
    Encodes n [UInt8.ofNat (n / 262144 + 0xF0), UInt8.ofNat (n / 4096 % 64 + 0x80),
      UInt8.ofNat (n / 64 % 64 + 0x80), UInt8.ofNat (n % 64 + 0x80)]

/-- The number of a character is no surrogate and within Unicode. -/
theorem toNat_valid (c : Char) : c.toNat < 0xD800 ∨ 0xDFFF < c.toNat ∧ c.toNat < 0x110000 :=
  c.valid

theorem encodes (c : Char) : Encodes c.toNat (String.utf8EncodeChar c) := by
  have hv := toNat_valid c
  have hn : c.val.toNat = c.toNat := rfl
  unfold String.utf8EncodeChar
  simp only [hn]
  split
  · exact .one (by omega)
  · split
    · rw [Nat.mod_eq_of_lt (show c.toNat / 64 < 0x20 by omega)]
      exact .two (by omega) (by omega)
    · split
      · rw [Nat.mod_eq_of_lt (show c.toNat / 4096 < 0x10 by omega)]
        exact .three (by omega) (by omega)
      · rw [Nat.mod_eq_of_lt (show c.toNat / 262144 < 0x08 by omega)]
        exact .four (by omega) (by omega)

theorem toNat_ofNat {n : Nat} (h : n < 256) : (UInt8.ofNat n).toNat = n := by
  rw [UInt8.toNat_ofNat']; exact Nat.mod_eq_of_lt h

/-- Outside ASCII every byte has its high bit. -/
theorem Encodes.le_of_mem {n : Nat} {bs : Bytes} (h : Encodes n bs) (hn : 0x80 ≤ n) {b : UInt8}
    (hb : b ∈ bs) : 0x80 ≤ b.toNat := by
  cases h with
  | one hi => omega
  | two lo hi =>
    simp only [List.mem_cons, List.not_mem_nil, or_false] at hb
    rcases hb with rfl | rfl <;> rw [toNat_ofNat (by omega)] <;> omega
  | three lo hi =>
    simp only [List.mem_cons, List.not_mem_nil, or_false] at hb
    rcases hb with rfl | rfl | rfl <;> rw [toNat_ofNat (by omega)] <;> omega
  | four lo hi =>
    simp only [List.mem_cons, List.not_mem_nil, or_false] at hb
    rcases hb with rfl | rfl | rfl | rfl <;> rw [toNat_ofNat (by omega)] <;> omega

/-! ## The machine on the bytes of a character -/

theorem run_of_first_inl {b : UInt8} {p : Piece} (h : first b = .inl p) (rest : Bytes) :
    run [] none (b :: rest) = p :: run [] none rest := by
  simp only [run, step, start, h]
  rw [run_eq]
  rfl

theorem run_of_first_inr {b : UInt8} {g : Begun} (h : first b = .inr g) (rest : Bytes) :
    run [] none (b :: rest) = run [] (some g) rest := by
  simp only [run, step, start, h]
  rfl

section Continuation

variable {g : Begun} {k : Nat} (hk : k < 256) (low : g.low.toNat ≤ k) (high : k ≤ g.high.toNat)

include hk low high

theorem run_more (howed : 1 < g.owed) (rest : Bytes) :
    run [] (some g) (UInt8.ofNat k :: rest) =
      run [] (some ⟨g.bits * 64 + (k - 0x80), g.seen + 1, g.owed - 1, 0x80, 0xBF⟩) rest := by
  have hb := toNat_ofNat hk
  have h1 : g.low ≤ UInt8.ofNat k := by rw [UInt8.le_iff_toNat_le, hb]; exact low
  have h2 : UInt8.ofNat k ≤ g.high := by rw [UInt8.le_iff_toNat_le, hb]; exact high
  simp only [run, step, h1, h2, decide_true, Bool.and_self, ↓reduceIte, hb,
    show ¬ g.owed ≤ 1 by omega]
  rfl

theorem run_last (howed : g.owed ≤ 1) (rest : Bytes) :
    run [] (some g) (UInt8.ofNat k :: rest) =
      .char (Char.ofNat (g.bits * 64 + (k - 0x80))) :: run [] none rest := by
  have hb := toNat_ofNat hk
  have h1 : g.low ≤ UInt8.ofNat k := by rw [UInt8.le_iff_toNat_le, hb]; exact low
  have h2 : UInt8.ofNat k ≤ g.high := by rw [UInt8.le_iff_toNat_le, hb]; exact high
  simp only [run, step, h1, h2, decide_true, Bool.and_self, ↓reduceIte, hb, howed]
  rw [run_eq]
  rfl

end Continuation

theorem ofNat_beq {k m : Nat} (hk : k < 256) (hm : m < 256) :
    (UInt8.ofNat k == UInt8.ofNat m) = decide (k = m) := by
  rw [Bool.eq_iff_iff, beq_iff_eq, decide_eq_true_eq, ← UInt8.toNat_inj, toNat_ofNat hk,
    toNat_ofNat hm]

/-- `first`, with the bounds on the number of the byte. -/
theorem first_ofNat {k : Nat} (hk : k < 256) : first (UInt8.ofNat k) =
    if k < 0x80 then .inl (.char (Char.ofNat k))
    else if 0xC2 ≤ k ∧ k ≤ 0xDF then .inr ⟨k - 0xC0, 1, 1, 0x80, 0xBF⟩
    else if k = 0xE0 then .inr ⟨0, 1, 2, 0xA0, 0xBF⟩
    else if k = 0xED then .inr ⟨0xD, 1, 2, 0x80, 0x9F⟩
    else if 0xE1 ≤ k ∧ k ≤ 0xEF then .inr ⟨k - 0xE0, 1, 2, 0x80, 0xBF⟩
    else if k = 0xF0 then .inr ⟨0, 1, 3, 0x90, 0xBF⟩
    else if 0xF1 ≤ k ∧ k ≤ 0xF3 then .inr ⟨k - 0xF0, 1, 3, 0x80, 0xBF⟩
    else if k = 0xF4 then .inr ⟨4, 1, 3, 0x80, 0x8F⟩
    else .inl (.bad 1) := by
  have h1 : (UInt8.ofNat k == 0xE0) = decide (k = 0xE0) := ofNat_beq hk (by decide)
  have h2 : (UInt8.ofNat k == 0xED) = decide (k = 0xED) := ofNat_beq hk (by decide)
  have h3 : (UInt8.ofNat k == 0xF0) = decide (k = 0xF0) := ofNat_beq hk (by decide)
  have h4 : (UInt8.ofNat k == 0xF4) = decide (k = 0xF4) := ofNat_beq hk (by decide)
  simp only [first, UInt8.lt_iff_toNat_lt, UInt8.le_iff_toNat_le, toNat_ofNat hk, h1, h2, h3, h4,
    Bool.and_eq_true, decide_eq_true_eq]
  rfl

/-- A first byte of three: the range of the second one depends on it. -/
theorem first_three {n : Nat} (lo : 0x800 ≤ n) (hi : n < 0x10000)
    (hs : n < 0xD800 ∨ 0xDFFF < n) : ∃ low high : UInt8,
    first (UInt8.ofNat (n / 4096 + 0xE0)) = .inr ⟨n / 4096, 1, 2, low, high⟩ ∧
      low.toNat ≤ n / 64 % 64 + 0x80 ∧ n / 64 % 64 + 0x80 ≤ high.toNat := by
  rw [first_ofNat (by omega), if_neg (by omega), if_neg (by omega)]
  by_cases h0 : n / 4096 = 0
  · rw [if_pos (by omega)]
    exact ⟨0xA0, 0xBF, by rw [h0], by simp; omega, by simp; omega⟩
  · rw [if_neg (by omega)]
    by_cases hd : n / 4096 = 0xD
    · rw [if_pos (by omega)]
      exact ⟨0x80, 0x9F, by rw [hd], by simp, by simp; omega⟩
    · rw [if_neg (by omega), if_pos (by omega), Nat.add_sub_cancel]
      exact ⟨0x80, 0xBF, rfl, by simp, by simp; omega⟩

/-- A first byte of four: the range of the second one depends on it. -/
theorem first_four {n : Nat} (lo : 0x10000 ≤ n) (hi : n < 0x110000) : ∃ low high : UInt8,
    first (UInt8.ofNat (n / 262144 + 0xF0)) = .inr ⟨n / 262144, 1, 3, low, high⟩ ∧
      low.toNat ≤ n / 4096 % 64 + 0x80 ∧ n / 4096 % 64 + 0x80 ≤ high.toNat := by
  rw [first_ofNat (by omega), if_neg (by omega), if_neg (by omega), if_neg (by omega),
    if_neg (by omega), if_neg (by omega)]
  by_cases h0 : n / 262144 = 0
  · rw [if_pos (by omega)]
    exact ⟨0x90, 0xBF, by rw [h0], by simp; omega, by simp; omega⟩
  · rw [if_neg (by omega)]
    by_cases h4 : n / 262144 = 4
    · rw [if_neg (by omega), if_pos (by omega)]
      exact ⟨0x80, 0x8F, by rw [h4], by simp, by simp; omega⟩
    · rw [if_pos (by omega), Nat.add_sub_cancel]
      exact ⟨0x80, 0xBF, rfl, by simp, by simp; omega⟩

/-- The machine reads the bytes of a character as that character. -/
theorem Encodes.run {n : Nat} {bs : Bytes} (h : Encodes n bs) (hs : n < 0xD800 ∨ 0xDFFF < n)
    (rest : Bytes) : run [] none (bs ++ rest) = .char (Char.ofNat n) :: run [] none rest := by
  cases h with
  | one hi =>
    apply run_of_first_inl
    rw [first_ofNat (by omega), if_pos hi]
  | two lo hi =>
    have hf : first (UInt8.ofNat (n / 64 + 0xC0)) = .inr ⟨n / 64, 1, 1, 0x80, 0xBF⟩ := by
      rw [first_ofNat (by omega), if_neg (by omega), if_pos (by omega), Nat.add_sub_cancel]
    have hn : n / 64 * 64 + (n % 64 + 0x80 - 0x80) = n := by omega
    simp only [List.cons_append, List.nil_append]
    rw [run_of_first_inr hf, run_last (by omega) (by simp) (by simp; omega) (by simp), hn]
  | three lo hi =>
    obtain ⟨low, high, hf, hlow, hhigh⟩ := first_three lo hi hs
    have hn : (n / 4096 * 64 + (n / 64 % 64 + 0x80 - 0x80)) * 64 + (n % 64 + 0x80 - 0x80) = n := by
      omega
    simp only [List.cons_append, List.nil_append]
    rw [run_of_first_inr hf, run_more (by omega) hlow hhigh (by simp),
      run_last (by omega) (by simp) (by simp; omega) (by simp), hn]
  | four lo hi =>
    obtain ⟨low, high, hf, hlow, hhigh⟩ := first_four lo hi
    have hn : ((n / 262144 * 64 + (n / 4096 % 64 + 0x80 - 0x80)) * 64 +
        (n / 64 % 64 + 0x80 - 0x80)) * 64 + (n % 64 + 0x80 - 0x80) = n := by
      omega
    simp only [List.cons_append, List.nil_append]
    rw [run_of_first_inr hf, run_more (by omega) hlow hhigh (by simp),
      run_more (by omega) (by simp) (by simp; omega) (by simp),
      run_last (by omega) (by simp) (by simp; omega) (by simp), hn]

/-- The machine reads an encoded text as its characters, whatever follows. -/
theorem run_encodeUtf8 (cs : List Char) (rest : Bytes) :
    run [] none (encodeUtf8 cs ++ rest) = cs.map .char ++ run [] none rest := by
  induction cs with
  | nil => rfl
  | cons c cs ih =>
    have hs := toNat_valid c
    have hcons : encodeUtf8 (c :: cs) = String.utf8EncodeChar c ++ encodeUtf8 cs := rfl
    rw [hcons, List.append_assoc, (encodes c).run (by omega), ih, Char.ofNat_toNat]
    rfl

theorem pieces_encodeUtf8 (cs : List Char) : pieces (encodeUtf8 cs) = cs.map .char := by
  have h := run_encodeUtf8 cs []
  simpa [pieces, run, finish] using h

theorem collect_chars (index : Nat) (done cs : List Char) :
    collect index done (cs.map .char) = .ok (done.reverse ++ cs) := by
  induction cs generalizing index done with
  | nil => simp [collect]
  | cons c cs ih =>
    simp only [List.map_cons, collect, ih]
    simp

end Utf8

/-- Decoding undoes encoding. -/
@[simp] theorem decodeUtf8_encodeUtf8 (cs : List Char) : decodeUtf8 (encodeUtf8 cs) = .ok cs := by
  unfold decodeUtf8
  rw [Utf8.pieces_encodeUtf8, Utf8.collect_chars]
  rfl

@[simp] theorem decodeLossy_encodeUtf8 (cs : List Char) : decodeLossy (encodeUtf8 cs) = cs := by
  unfold decodeLossy
  rw [Utf8.pieces_encodeUtf8, List.map_map]
  exact List.map_id cs

/-- What is encoded is shown as it was, whatever stands behind it. -/
theorem decodeLossy_encodeUtf8_append (cs : List Char) (rest : Bytes) :
    decodeLossy (encodeUtf8 cs ++ rest) = cs ++ decodeLossy rest := by
  unfold decodeLossy Utf8.pieces
  rw [Utf8.run_encodeUtf8, List.map_append, List.map_map]
  exact congrArg (· ++ _) (List.map_id cs)

theorem encodeUtf8_eq_nil_iff {cs : List Char} : encodeUtf8 cs = [] ↔ cs = [] := by
  rw [encodeUtf8, List.flatMap_eq_nil_iff, List.eq_nil_iff_forall_not_mem]
  exact forall₂_congr fun _ _ => iff_of_false String.utf8EncodeChar_ne_nil id

/-! ## ASCII in encoded text -/

section Ascii

variable {c : Char} (hc : c.toNat < 0x80)

include hc

theorem encodeChar_ascii : String.utf8EncodeChar c = [UInt8.ofNat c.toNat] := by
  have henc := Utf8.encodes c
  generalize String.utf8EncodeChar c = bs at henc
  cases henc with
  | one => rfl
  | two lo => omega
  | three lo => omega
  | four lo => omega

/-- An ASCII byte in the bytes of a character is all of them. -/
theorem eq_of_mem_encodeChar {d : Char} (h : UInt8.ofNat c.toNat ∈ String.utf8EncodeChar d) :
    d = c := by
  by_cases hd : d.toNat < 0x80
  · rw [encodeChar_ascii hd, List.mem_singleton] at h
    have hn : c.toNat = d.toNat := by
      rw [← Utf8.toNat_ofNat (show c.toNat < 256 by omega), h, Utf8.toNat_ofNat (by omega)]
    exact (Char.toNat_inj.1 hn).symm
  · have hle := (Utf8.encodes d).le_of_mem (by omega) h
    rw [Utf8.toNat_ofNat (by omega)] at hle
    omega

theorem mem_encodeUtf8_ascii {cs : List Char} : UInt8.ofNat c.toNat ∈ encodeUtf8 cs ↔ c ∈ cs := by
  unfold encodeUtf8
  rw [List.mem_flatMap]
  constructor
  · rintro ⟨d, hd, hb⟩
    rw [← eq_of_mem_encodeChar hc hb]
    exact hd
  · intro h
    exact ⟨c, h, by rw [encodeChar_ascii hc]; exact List.mem_singleton_self _⟩

/-- Bytes that are cut at an ASCII byte are a text cut at that character. -/
theorem eq_append_of_encodeUtf8_eq {cs : List Char} {before after : Bytes}
    (h : encodeUtf8 cs = before ++ UInt8.ofNat c.toNat :: after) :
    ∃ front back, cs = front ++ c :: back ∧ before = encodeUtf8 front ∧
      after = encodeUtf8 back := by
  induction cs generalizing before with
  | nil => simp at h
  | cons d ds ih =>
    have hcons : encodeUtf8 (d :: ds) = String.utf8EncodeChar d ++ encodeUtf8 ds := rfl
    rw [hcons] at h
    rcases List.append_eq_append_iff.1 h with ⟨mid, hbefore, hrest⟩ | ⟨mid, hd, hafter⟩
    · obtain ⟨front, back, rfl, rfl, rfl⟩ := ih hrest
      exact ⟨d :: front, back, rfl, hbefore, rfl⟩
    · cases mid with
      | nil =>
        obtain ⟨front, back, rfl, hnil, rfl⟩ := @ih [] hafter.symm
        refine ⟨d :: front, back, rfl, ?_, rfl⟩
        rw [List.append_nil] at hd
        rw [encodeUtf8, List.flatMap_cons, ← encodeUtf8, ← hnil, List.append_nil, hd]
      | cons b mid =>
        obtain ⟨rfl, rfl⟩ := List.cons.inj hafter
        have hdc : d = c := eq_of_mem_encodeChar hc (by rw [hd]; simp)
        subst hdc
        rw [encodeChar_ascii hc] at hd
        cases before with
        | nil =>
          obtain ⟨-, rfl⟩ := List.cons.inj hd
          exact ⟨[], ds, rfl, rfl, rfl⟩
        | cons b before => simp at hd

end Ascii

/-- An encoded text that begins with another one goes on with an encoded text. -/
theorem eq_append_of_encodeUtf8_append {cs ds : List Char} {bs : Bytes}
    (h : encodeUtf8 cs = encodeUtf8 ds ++ bs) : ∃ rest, cs = ds ++ rest ∧ bs = encodeUtf8 rest := by
  have hrun := Utf8.run_encodeUtf8 cs []
  rw [List.append_nil, h, Utf8.run_encodeUtf8] at hrun
  have hmap : cs.map Utf8.Piece.char = ds.map .char ++ Utf8.run [] none bs := by
    simpa [Utf8.run, Utf8.finish] using hrun.symm
  obtain ⟨front, rest, rfl, hfront, -⟩ := List.map_eq_append_iff.1 hmap
  have hds : front = ds := by
    refine (List.map_inj_right ?_).1 hfront
    intro a b hab
    exact Utf8.Piece.char.inj hab
  subst hds
  refine ⟨rest, rfl, ?_⟩
  rw [encodeUtf8_append] at h
  exact (List.append_cancel_left h).symm

end Camouflage.Text
