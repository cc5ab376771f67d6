import Camouflage.Text.Integer
import Mathlib.Data.Nat.Digits.Defs

/-!
# Numerals

A numeral is one or more ASCII digits. Reading digits gives their value exactly when it is within
the limit, with any number of leading zeros; printing gives a numeral of the number printed,
without leading zeros.
-/

namespace Camouflage.Text

/-- The value of decimal digits, the highest one first. -/
def numeralValue (ds : List Char) : Nat :=
  Nat.ofDigits 10 (ds.map fun c => c.toNat - '0'.toNat).reverse

/-- One or more ASCII digits of value `n`. -/
def IsNumeral (ds : List Char) (n : Nat) : Prop :=
  ds ≠ [] ∧ (∀ c ∈ ds, c.isDigit = true) ∧ numeralValue ds = n

instance (ds : List Char) (n : Nat) : Decidable (IsNumeral ds n) :=
  decidable_of_iff (ds ≠ [] ∧ ds.all Char.isDigit = true ∧ numeralValue ds = n) (by
    simp only [IsNumeral, List.all_eq_true])

theorem IsNumeral.notMem {ds : List Char} {n : Nat} {c : Char} (h : IsNumeral ds n)
    (hc : c.isDigit = false) : c ∉ ds := by
  intro hmem
  rw [h.2.1 c hmem] at hc
  cases hc

theorem numeralValue_cons (c : Char) (ds : List Char) :
    numeralValue (c :: ds) = (c.toNat - '0'.toNat) * 10 ^ ds.length + numeralValue ds := by
  unfold numeralValue
  rw [List.map_cons, Nat.ofDigits_reverse_cons, List.length_map]
  ring

theorem numeralValue_concat (ds : List Char) (c : Char) :
    numeralValue (ds ++ [c]) = numeralValue ds * 10 + (c.toNat - '0'.toNat) := by
  unfold numeralValue
  rw [List.map_append, List.reverse_append]
  simp [Nat.ofDigits_cons]
  ring

/-! ## Reading -/

/-- Digits are read exactly if their value, behind that of the digits before, is within the
limit. -/
theorem readDigits_eq_ok_iff {limit : Nat} {beyond : IntegerFault} {acc n : Nat} {cs : List Char}
    (hacc : acc ≤ limit) : readDigits limit beyond acc cs = .ok n ↔
      (∀ c ∈ cs, c.isDigit = true) ∧ acc * 10 ^ cs.length + numeralValue cs = n ∧ n ≤ limit := by
  induction cs generalizing acc with
  | nil =>
    simp only [readDigits, Except.ok.injEq]
    constructor
    · rintro rfl
      exact ⟨by simp, by simp [numeralValue], hacc⟩
    · rintro ⟨-, h, -⟩
      simpa [numeralValue] using h
  | cons c cs ih =>
    by_cases hc : c.isDigit = true
    · have hpow : (acc * 10 + (c.toNat - '0'.toNat)) * 10 ^ cs.length + numeralValue cs =
          acc * 10 ^ (c :: cs).length + numeralValue (c :: cs) := by
        rw [numeralValue_cons, List.length_cons]
        ring
      simp only [readDigits, digitValue?, if_pos hc]
      split
      · rename_i hbig
        have hle : (acc * 10 + (c.toNat - '0'.toNat)) * 1 ≤
            (acc * 10 + (c.toNat - '0'.toNat)) * 10 ^ cs.length :=
          Nat.mul_le_mul_left _ (Nat.one_le_pow _ _ (by decide))
        simp only [reduceCtorEq, false_iff]
        rintro ⟨-, hn, hlimit⟩
        omega
      · rename_i hsmall
        rw [ih (by omega), hpow]
        simp [hc]
    · simp only [readDigits, digitValue?, if_neg hc]
      simp [hc]

/-- A number without a sign is read exactly from its numerals. -/
theorem readNat_eq_ok_iff {limit n : Nat} {cs : List Char} (hne : cs ≠ [])
    (hdigits : ∀ c ∈ cs, c.isDigit = true) :
    readNat limit cs = .ok n ↔ numeralValue cs = n ∧ n ≤ limit := by
  have hread : readNat limit cs = readDigits limit .tooLarge 0 cs := by
    unfold readNat
    split
    · exact absurd rfl hne
    · exact absurd (hdigits '+' (by simp)) (by decide)
    · exact absurd (hdigits '+' (by simp)) (by decide)
    · rfl
  rw [hread, readDigits_eq_ok_iff (Nat.zero_le _)]
  simp only [Nat.zero_mul, Nat.zero_add]
  exact ⟨fun h => h.2, fun h => ⟨hdigits, h⟩⟩

/-- A number is read exactly from its numerals, with or without a `+` in front. -/
theorem readNat_eq_ok_iff_exists {limit n : Nat} {cs : List Char} :
    readNat limit cs = .ok n ↔
      ∃ ds, IsNumeral ds n ∧ n ≤ limit ∧ (cs = ds ∨ cs = '+' :: ds) := by
  have hdigits {ds : List Char} (hne : ds ≠ []) :
      readDigits limit .tooLarge 0 ds = .ok n ↔ IsNumeral ds n ∧ n ≤ limit := by
    rw [readDigits_eq_ok_iff (Nat.zero_le _)]
    simp [IsNumeral, hne, and_assoc]
  constructor
  · intro h
    unfold readNat at h
    split at h
    · cases h
    · cases h
    · rename_i ds hne
      have hds := (hdigits hne).1 h
      exact ⟨ds, hds.1, hds.2, .inr rfl⟩
    · rename_i hne _ _
      have hds := (hdigits hne).1 h
      exact ⟨cs, hds.1, hds.2, .inl rfl⟩
  · rintro ⟨ds, hds, hlimit, rfl | rfl⟩
    · rw [readNat_eq_ok_iff hds.1 hds.2.1]
      exact ⟨hds.2.2, hlimit⟩
    · have hread : readNat limit ('+' :: ds) = readDigits limit .tooLarge 0 ds := by
        obtain ⟨c, cs, rfl⟩ := List.exists_cons_of_ne_nil hds.1
        rfl
      rw [hread]
      exact (hdigits hds.1).2 ⟨hds, hlimit⟩

/-! ## Printing -/

/-- A number is printed as a numeral of itself. -/
theorem isNumeral_decimal (n : Nat) : IsNumeral (decimal n) n := by
  induction n using decimal.induct with
  | case1 n hn =>
    rw [decimal, if_pos hn]
    refine ⟨List.cons_ne_nil _ _, ?_, ?_⟩
    · intro c hc
      rw [List.mem_singleton.1 hc]
      simpa using hn
    · rw [numeralValue_cons, Nat.toNat_digitChar_of_lt_ten hn]
      simp [numeralValue]
  | case2 n hn ih =>
    obtain ⟨-, hdigits, hvalue⟩ := ih
    have hlt : n % 10 < 10 := Nat.mod_lt _ (by decide)
    rw [decimal, if_neg hn]
    refine ⟨by simp, ?_, ?_⟩
    · intro c hc
      rcases List.mem_append.1 hc with hc | hc
      · exact hdigits c hc
      · rw [List.mem_singleton.1 hc]
        simpa using hlt
    · rw [numeralValue_concat, hvalue, Nat.toNat_digitChar_of_lt_ten hlt]
      have hzero : '0'.toNat = 48 := rfl
      omega

theorem decimal_eq_toDigits (n : Nat) : decimal n = Nat.toDigits 10 n := by
  induction n using decimal.induct with
  | case1 n hn => rw [decimal, if_pos hn, Nat.toDigits_of_lt_base hn]
  | case2 n hn ih =>
    rw [decimal, if_neg hn, ih, Nat.toDigits_eq_if (n := n) (by decide), if_neg hn]

/-- A number is printed without a zero in front. -/
theorem head?_decimal_ne_zero {n : Nat} (hn : 0 < n) : (decimal n).head? ≠ some '0' := by
  induction n using decimal.induct with
  | case1 n hsmall =>
    rw [decimal, if_pos hsmall, List.head?_cons, ne_eq, Option.some.injEq, Nat.digitChar_eq_zero]
    omega
  | case2 n hlarge ih =>
    obtain ⟨c, cs, hcons⟩ := List.exists_cons_of_ne_nil (isNumeral_decimal (n / 10)).1
    have hhead := ih (by omega)
    rw [hcons] at hhead
    rw [decimal, if_neg hlarge, hcons]
    exact hhead

end Camouflage.Text
