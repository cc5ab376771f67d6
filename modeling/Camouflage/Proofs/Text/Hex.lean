import Camouflage.Proofs.Text.Cuts
import Camouflage.Proofs.Text.Utf8
import Camouflage.Text.Hex

/-!
# Reading hexadecimal bytes

A text is read as some bytes exactly if it is their written form up to the case of the digits
(`decodeText_eq_ok_iff`), and it is the form of some bytes exactly if it is an even number of digits
(`exists_spells_iff`). Reading goes over bytes and writing over characters; between them stand the
halves of the bytes, each a number below sixteen.
-/

namespace Camouflage.Text.Hex

/-- A digit, in either case. -/
def IsDigit (c : Char) : Prop :=
  ∃ n < 16, c.toLower = digit n

/-- A text is the written form of some bytes, up to the case of its digits. -/
def Spells (cs : List Char) (bs : Bytes) : Prop :=
  cs.map Char.toLower = encodeChars bs

instance (cs : List Char) (bs : Bytes) : Decidable (Spells cs bs) :=
  inferInstanceAs (Decidable (cs.map Char.toLower = encodeChars bs))

/-! ## Digits -/

theorem value?_eq_some {k : Nat} (hk : k < 0x80) {n : Nat}
    (h : value? (UInt8.ofNat k) = some n) : n < 16 ∧ (Char.ofNat k).toLower = digit n := by
  have hall : ∀ k < 0x80, ∀ n ∈ value? (UInt8.ofNat k),
      n < 16 ∧ (Char.ofNat k).toLower = digit n := by
    decide
  exact hall k hk n h

theorem value?_of_toLower {k : Nat} (hk : k < 0x80) {n : Nat} (hn : n < 16)
    (h : (Char.ofNat k).toLower = digit n) : value? (UInt8.ofNat k) = some n := by
  have hall : ∀ k < 0x80, ∀ n < 16, (Char.ofNat k).toLower = digit n →
      value? (UInt8.ofNat k) = some n := by
    decide +kernel
  exact hall k hk n hn h

theorem toLower_digit : ∀ n < 16, (digit n).toLower = digit n := by
  decide

theorem toNat_digit_lt : ∀ n < 16, (digit n).toNat < 0x80 := by
  decide

/-- Outside ASCII no byte is a digit. -/
theorem value?_of_le {b : UInt8} (h : 0x80 ≤ b.toNat) : value? b = none := by
  have hlarge : ∀ m : UInt8, m.toNat < 0x80 → ¬ b ≤ m := by
    intro m hm hb
    rw [UInt8.le_iff_toNat_le] at hb
    omega
  simp [value?, hlarge 0x39 (by decide), hlarge 0x66 (by decide), hlarge 0x46 (by decide)]

theorem value?_lt {b : UInt8} {n : Nat} (h : value? b = some n) : n < 16 := by
  rcases Nat.lt_or_ge b.toNat 0x80 with hb | hb
  · rw [← UInt8.ofNat_toNat (x := b)] at h
    exact (value?_eq_some hb h).1
  · rw [value?_of_le hb] at h
    cases h

theorem toLower_of_le {c : Char} (h : 0x80 ≤ c.toNat) : c.toLower = c := by
  unfold Char.toLower
  split
  · rename_i hupper
    have hle := UInt32.le_iff_toNat_le.1 hupper.2
    change c.toNat ≤ 90 at hle
    omega
  · rfl

theorem IsDigit.toNat_lt {c : Char} (h : IsDigit c) : c.toNat < 0x80 := by
  obtain ⟨n, hn, hc⟩ := h
  by_contra hlarge
  rw [toLower_of_le (Nat.not_lt.1 hlarge)] at hc
  exact hlarge (hc ▸ toNat_digit_lt n hn)

theorem IsDigit.isAlphanum {c : Char} (h : IsDigit c) : c.isAlphanum = true := by
  have hall : ∀ k < 0x80, ∀ n < 16, (Char.ofNat k).toLower = digit n →
      (Char.ofNat k).isAlphanum = true := by
    decide +kernel
  have hlt := h.toNat_lt
  obtain ⟨n, hn, hc⟩ := h
  have hk := hall c.toNat hlt n hn
  rw [Char.ofNat_toNat] at hk
  exact hk hc

/-! ## Halves of bytes -/

/-- The halves of some bytes, the high one of each first. -/
def halves (bs : Bytes) : List Nat :=
  bs.flatMap fun b => [b.toNat / 16, b.toNat % 16]

theorem lt_of_mem_halves {bs : Bytes} {n : Nat} (h : n ∈ halves bs) : n < 16 := by
  obtain ⟨b, -, hb⟩ := List.mem_flatMap.1 h
  have := b.toNat_lt
  rcases List.mem_pair.1 hb with rfl | rfl <;> omega

theorem encodeChars_eq_map (bs : Bytes) : encodeChars bs = (halves bs).map digit := by
  rw [halves, List.map_flatMap]
  rfl

theorem length_halves (bs : Bytes) : (halves bs).length = 2 * bs.length := by
  rw [← length_encodeChars, encodeChars_eq_map, List.length_map]

theorem halves_ofNat {high low : Nat} (hhigh : high < 16) (hlow : low < 16) (bs : Bytes) :
    halves (UInt8.ofNat (high * 16 + low) :: bs) = high :: low :: halves bs := by
  have hbyte : (UInt8.ofNat (high * 16 + low)).toNat = high * 16 + low :=
    Utf8.toNat_ofNat (by omega)
  have hdiv : (high * 16 + low) / 16 = high := by omega
  have hmod : (high * 16 + low) % 16 = low := by omega
  simp only [halves, List.flatMap_cons, hbyte, hdiv, hmod, List.cons_append, List.nil_append]

/-- Pairs of bytes are read exactly if their values are the halves of what is read. -/
theorem decodePairs_eq_ok_iff {index : Nat} {done digits out : Bytes}
    (heven : digits.length % 2 = 0) : decodePairs index done digits = .ok out ↔
      ∃ bs, out = done.reverse ++ bs ∧ digits.map value? = (halves bs).map some := by
  induction index, done, digits using decodePairs.induct with
  | case1 index done high low rest hhigh =>
    simp only [decodePairs, hhigh, reduceCtorEq, List.map_cons, false_iff]
    rintro ⟨bs, -, hbs⟩
    cases bs <;> cases hbs
  | case2 index done high low rest h hhigh hlow =>
    simp only [decodePairs, hhigh, hlow, reduceCtorEq, List.map_cons, false_iff]
    rintro ⟨bs, -, hbs⟩
    cases bs <;> cases hbs
  | case3 index done high low rest h hhigh l hlow ih =>
    have hrest : rest.length % 2 = 0 := by
      simp only [List.length_cons] at heven
      omega
    simp only [decodePairs, hhigh, hlow, ih hrest, List.map_cons]
    constructor
    · rintro ⟨bs, rfl, hbs⟩
      refine ⟨UInt8.ofNat (h * 16 + l) :: bs, by simp, ?_⟩
      rw [halves_ofNat (value?_lt hhigh) (value?_lt hlow), hbs]
      rfl
    · rintro ⟨bs, rfl, hbs⟩
      cases bs with
      | nil => cases hbs
      | cons b bs =>
        have hcons : halves (b :: bs) = b.toNat / 16 :: b.toNat % 16 :: halves bs := rfl
        simp only [hcons, List.map_cons, List.cons.injEq, Option.some.injEq] at hbs
        obtain ⟨rfl, rfl, hbs⟩ := hbs
        refine ⟨bs, ?_, hbs⟩
        rw [Nat.div_add_mod', UInt8.ofNat_toNat]
        simp
  | case4 digits index done hdigits =>
    obtain rfl : digits = [] := by
      match digits, hdigits with
      | [], _ => rfl
      | [_], _ => cases heven
      | high :: low :: rest, hdigits => exact (hdigits high low rest rfl).elim
    simp only [decodePairs, Except.ok.injEq, List.map_nil]
    constructor
    · rintro rfl
      exact ⟨[], by simp, rfl⟩
    · rintro ⟨bs, rfl, hbs⟩
      have hlength := congrArg List.length hbs
      rw [List.length_map, length_halves, List.length_nil] at hlength
      obtain rfl : bs = [] := List.length_eq_zero_iff.1 (by omega)
      simp

/-- The bytes of a text have some values exactly if its characters are the digits of these. -/
theorem map_value?_encodeUtf8_iff {cs : List Char} {ns : List Nat} (hns : ∀ n ∈ ns, n < 16) :
    (encodeUtf8 cs).map value? = ns.map some ↔ cs.map Char.toLower = ns.map digit := by
  induction cs generalizing ns with
  | nil =>
    cases ns <;> simp
  | cons c cs ih =>
    have hcons : encodeUtf8 (c :: cs) = String.utf8EncodeChar c ++ encodeUtf8 cs := rfl
    rcases Nat.lt_or_ge c.toNat 0x80 with hc | hc
    · rw [hcons, encodeChar_ascii hc]
      cases ns with
      | nil => simp
      | cons n ns =>
        have hn : n < 16 := hns n List.mem_cons_self
        have hdigit : value? (UInt8.ofNat c.toNat) = some n ↔ c.toLower = digit n := by
          constructor
          · intro hvalue
            have hlower := (value?_eq_some hc hvalue).2
            rwa [Char.ofNat_toNat] at hlower
          · intro hlower
            refine value?_of_toLower hc hn ?_
            rwa [Char.ofNat_toNat]
        have hrest := @ih ns fun m hm => hns m (List.mem_cons_of_mem n hm)
        simp only [List.singleton_append, List.map_cons, List.cons.injEq, hdigit, hrest]
    · -- A character outside ASCII is no digit, and none of its bytes is.
      obtain ⟨b, bytes, hbytes⟩ : ∃ b bytes, String.utf8EncodeChar c = b :: bytes :=
        List.exists_cons_of_ne_nil String.utf8EncodeChar_ne_nil
      have hb : value? b = none := by
        refine value?_of_le ((Utf8.encodes c).le_of_mem hc ?_)
        rw [hbytes]
        exact List.mem_cons_self
      rw [hcons, hbytes]
      cases ns with
      | nil => simp
      | cons n ns =>
        have hn := hns n List.mem_cons_self
        have hne : c.toLower ≠ digit n := by
          intro hlower
          have hlt := IsDigit.toNat_lt ⟨n, hn, hlower⟩
          omega
        simp [hb, hne]

/-! ## Texts -/

/-- A text spells some bytes exactly if the values of its own bytes are their halves. -/
theorem spells_iff_map_value? {digits : String} {bs : Bytes} :
    Spells digits.toList bs ↔ (utf8 digits).map value? = (halves bs).map some := by
  rw [Spells, encodeChars_eq_map, ← map_value?_encodeUtf8_iff fun _ => lt_of_mem_halves]
  rfl

theorem Spells.length_utf8 {digits : String} {bs : Bytes} (h : Spells digits.toList bs) :
    (utf8 digits).length = 2 * bs.length := by
  have hlength := congrArg List.length (spells_iff_map_value?.1 h)
  rwa [List.length_map, List.length_map, length_halves] at hlength

/-- Reading gives exactly the bytes that a text spells. -/
theorem decodeText_eq_ok_iff {digits : String} {bs : Bytes} :
    decodeText digits = .ok bs ↔ Spells digits.toList bs := by
  unfold decodeText decode
  split
  · rename_i hodd
    simp only [reduceCtorEq, false_iff]
    intro hspells
    have hlength := hspells.length_utf8
    omega
  · rename_i heven
    rw [decodePairs_eq_ok_iff (Nat.mod_two_ne_one.1 heven), spells_iff_map_value?]
    simp

/-- Digits in pairs are always read. -/
theorem exists_decodePairs {index : Nat} {done digits : Bytes}
    (hdigits : ∀ b ∈ digits, (value? b).isSome = true) :
    ∃ out, decodePairs index done digits = .ok out := by
  induction index, done, digits using decodePairs.induct with
  | case1 index done high low rest hhigh =>
    have hsome := hdigits high List.mem_cons_self
    rw [hhigh] at hsome
    cases hsome
  | case2 index done high low rest h hhigh hlow =>
    have hsome := hdigits low (by simp)
    rw [hlow] at hsome
    cases hsome
  | case3 index done high low rest h hhigh l hlow ih =>
    simp only [decodePairs, hhigh, hlow]
    exact ih fun b hb => hdigits b (by simp [hb])
  | case4 digits index done hpairs => exact ⟨done.reverse, by rw [decodePairs]; exact hpairs⟩

/-- A text is read exactly if it has an even number of bytes, each of which is a digit. -/
theorem exists_decodeText_iff {digits : String} :
    (∃ bs, decodeText digits = .ok bs) ↔
      (utf8 digits).length % 2 = 0 ∧ ∀ b ∈ utf8 digits, (value? b).isSome = true := by
  constructor
  · rintro ⟨bs, hbs⟩
    have hspells := decodeText_eq_ok_iff.1 hbs
    refine ⟨by rw [hspells.length_utf8]; omega, ?_⟩
    intro b hb
    have hvalue := List.mem_map_of_mem (f := value?) hb
    rw [spells_iff_map_value?.1 hspells] at hvalue
    obtain ⟨n, -, hn⟩ := List.mem_map.1 hvalue
    rw [← hn]
    rfl
  · rintro ⟨heven, hdigits⟩
    rw [decodeText, decode, if_neg (by omega)]
    exact exists_decodePairs hdigits

theorem Spells.length {cs : List Char} {bs : Bytes} (h : Spells cs bs) :
    cs.length = 2 * bs.length := by
  rw [← length_encodeChars, ← h, List.length_map]

theorem exists_spells : ∀ {cs : List Char}, cs.length % 2 = 0 → (∀ c ∈ cs, IsDigit c) →
    ∃ bs, Spells cs bs
  | [], _, _ => ⟨[], rfl⟩
  | [_], heven, _ => by cases heven
  | c :: d :: cs, heven, hdigits => by
    obtain ⟨high, hhigh, hc⟩ := hdigits c List.mem_cons_self
    obtain ⟨low, hlow, hd⟩ := hdigits d (by simp)
    have hrest : cs.length % 2 = 0 := by
      simp only [List.length_cons] at heven
      omega
    obtain ⟨bs, hbs⟩ := exists_spells hrest fun e he => hdigits e (by simp [he])
    refine ⟨UInt8.ofNat (high * 16 + low) :: bs, ?_⟩
    rw [Spells, encodeChars_eq_map] at hbs ⊢
    simp only [halves_ofNat hhigh hlow, List.map_cons, hc, hd, hbs]

/-- A text spells some bytes exactly if it is an even number of digits. -/
theorem exists_spells_iff {cs : List Char} :
    (∃ bs, Spells cs bs) ↔ cs.length % 2 = 0 ∧ ∀ c ∈ cs, IsDigit c := by
  constructor
  · rintro ⟨bs, hbs⟩
    refine ⟨by rw [hbs.length]; omega, ?_⟩
    intro c hc
    have hlower := List.mem_map_of_mem (f := Char.toLower) hc
    rw [hbs, encodeChars_eq_map] at hlower
    obtain ⟨n, hn, hdigit⟩ := List.mem_map.1 hlower
    exact ⟨n, lt_of_mem_halves hn, hdigit.symm⟩
  · rintro ⟨heven, hdigits⟩
    exact exists_spells heven hdigits

theorem spells_encodeChars (bs : Bytes) : Spells (encodeChars bs) bs := by
  rw [Spells, encodeChars_eq_map, List.map_map]
  refine List.map_congr_left ?_
  intro n hn
  exact toLower_digit n (lt_of_mem_halves hn)

/-- Reading undoes writing. -/
@[simp] theorem decodeText_encode (bs : Bytes) : decodeText (encode bs) = .ok bs := by
  rw [decodeText_eq_ok_iff, encode, String.toList_ofList]
  exact spells_encodeChars bs

theorem length_of_decodeText {digits : String} {bs : Bytes} (h : decodeText digits = .ok bs) :
    bs.length = (utf8 digits).length / 2 := by
  rw [(decodeText_eq_ok_iff.1 h).length_utf8]
  omega

theorem Spells.isAlphanum {cs : List Char} {bs : Bytes} (h : Spells cs bs) :
    ∀ c ∈ cs, c.isAlphanum = true := by
  intro c hc
  exact ((exists_spells_iff.1 ⟨bs, h⟩).2 c hc).isAlphanum

/-- Among digits there are no signs. -/
theorem Spells.notMem {cs : List Char} {bs : Bytes} (h : Spells cs bs) {c : Char}
    (hc : c.isAlphanum = false) : c ∉ cs := by
  intro hmem
  rw [h.isAlphanum c hmem] at hc
  cases hc

/-- There are no blanks around digits. -/
theorem Spells.trim_eq {cs : List Char} {bs : Bytes} (h : Spells cs bs) : trim cs = cs :=
  trim_of_forall fun c hc => isBlank_of_isAlphanum (h.isAlphanum c hc)

end Camouflage.Text.Hex
