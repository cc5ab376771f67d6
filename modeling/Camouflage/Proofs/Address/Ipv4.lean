import Camouflage.Address.Ipv4
import Camouflage.Proofs.Text.Cuts
import Camouflage.Proofs.Text.Numeral

/-!
# Reading IPv4 addresses

An address is read back from its text, and what stands behind is left if it does not begin with a
digit (`read_text`). There is no other text that it is read from (`ofText?_eq_some_iff`). No address
is read where there are no points (`read_of_notMem`), or off what does not begin with a digit
(`read_of_not_isDigit`).
-/

namespace Camouflage.Ipv4

open Text

/-! ## Digits -/

theorem digitsValue_concat (radix : Nat) (value : Char → Nat) (ds : List Char) (c : Char) :
    digitsValue radix value (ds ++ [c]) = digitsValue radix value ds * radix + value c := by
  rw [digitsValue, List.foldl_append]
  rfl

/-- Digits that are printed in a radix have the value of what was printed. -/
theorem digitsValue_toDigits {radix : Nat} {value : Char → Nat} (hradix : 1 < radix)
    (hvalue : ∀ n < radix, value n.digitChar = n) (n : Nat) :
    digitsValue radix value (Nat.toDigits radix n) = n := by
  induction n using Nat.strongRecOn with
  | ind n ih =>
    by_cases hn : n < radix
    · rw [Nat.toDigits_of_lt_base hn, ← List.nil_append [n.digitChar], digitsValue_concat,
        hvalue n hn]
      simp [digitsValue]
    · have hpos : 0 < n := by omega
      have hmod : n % radix < radix := Nat.mod_lt n (by omega)
      rw [Nat.toDigits_eq_if hradix, if_neg hn, digitsValue_concat,
        ih (n / radix) (Nat.div_lt_self hpos hradix), hvalue _ hmod, Nat.div_add_mod']

theorem decimalValue_digitChar {n : Nat} (hn : n < 10) : decimalValue n.digitChar = n := by
  rw [decimalValue, Nat.toNat_digitChar_of_lt_ten hn]
  exact Nat.add_sub_cancel_left 48 n

/-! ## Numbers -/

variable {cs rest : List Char}

theorem length_decimal_le (n : UInt8) : (decimal n.toNat).length ≤ 3 := by
  have hn : n.toNat < 10 ^ 3 := Nat.lt_trans n.toNat_lt (by decide)
  rw [decimal_eq_toDigits]
  exact (Nat.length_toDigits_le_iff (by decide) (by decide)).2 hn

/-- A number of two digits or more does not begin with a zero. -/
theorem head?_decimal_of_length {n : Nat} (h : 1 < (decimal n).length) :
    (decimal n).head? ≠ some '0' := by
  apply head?_decimal_ne_zero
  apply Nat.pos_of_ne_zero
  rintro rfl
  simp [decimal] at h

theorem readOctet_decimal (n : UInt8) (hrest : ∀ c ∈ rest.head?, c.isDigit = false) :
    readOctet (decimal n.toNat ++ rest) = some (n, rest) := by
  obtain ⟨hne, hdigits, -⟩ := isNumeral_decimal n.toNat
  have hlength := length_decimal_le n
  have hvalue : digitsValue 10 decimalValue (decimal n.toNat) = n.toNat := by
    rw [decimal_eq_toDigits]
    exact digitsValue_toDigits (by decide) (fun _ => decimalValue_digitChar) n.toNat
  have hlimit : n.toNat ≤ 255 := Nat.le_of_lt_succ n.toNat_lt
  simp only [readOctet, takeWhile_run hdigits hrest, dropWhile_run hdigits hrest, hvalue]
  rw [if_neg, if_neg, if_neg (Nat.not_lt.2 hlimit), UInt8.ofNat_toNat]
  · rw [Bool.and_eq_true, decide_eq_true_eq, decide_eq_true_eq]
    rintro ⟨hlong, hzero⟩
    exact head?_decimal_of_length hlong hzero
  · rw [Bool.or_eq_true, List.isEmpty_iff, decide_eq_true_eq]
    rintro (hnil | hlong)
    · exact hne hnil
    · exact Nat.not_lt.2 hlength hlong

theorem readPointOctet_decimal (n : UInt8) (hrest : ∀ c ∈ rest.head?, c.isDigit = false) :
    readPointOctet ('.' :: decimal n.toNat ++ rest) = some (n, rest) :=
  readOctet_decimal n hrest

/-! ## Addresses -/

/-- **Reading undoes writing.** What stands behind an address is left, if it does not go on with a
digit. -/
theorem read_text (ip : Ipv4) (hrest : ∀ c ∈ rest.head?, c.isDigit = false) :
    read (ip.text ++ rest) = some (ip, rest) := by
  have hpoint (n : UInt8) (cs : List Char) :
      ∀ c ∈ ('.' :: decimal n.toNat ++ cs).head?, c.isDigit = false := by
    rintro c ⟨⟩
    rfl
  have htext : ip.text ++ rest = decimal ip.a.toNat ++ ('.' :: decimal ip.b.toNat ++
      ('.' :: decimal ip.c.toNat ++ ('.' :: decimal ip.d.toNat ++ rest))) := by
    simp [text]
  rw [htext, read, readOctet_decimal ip.a (hpoint _ _)]
  simp only [Option.bind_eq_bind, Option.bind_some, readPointOctet_decimal _ (hpoint _ _),
    readPointOctet_decimal ip.d hrest]
  rfl

theorem ofText?_text (ip : Ipv4) : ofText? ip.text = some ip := by
  have hread : read (ip.text ++ []) = some (ip, []) := read_text ip (by simp)
  rw [List.append_nil] at hread
  rw [ofText?, hread]

/-- The characters of an address are digits and points. -/
theorem isDigit_or_point_of_mem_text {ip : Ipv4} {c : Char} (hc : c ∈ ip.text) :
    c.isDigit = true ∨ c = '.' := by
  have hdigits (n : UInt8) (h : c ∈ decimal n.toNat) : c.isDigit = true :=
    (isNumeral_decimal n.toNat).2.1 c h
  simp only [text, List.append_assoc, List.cons_append, List.mem_append, List.mem_cons] at hc
  rcases hc with h | rfl | h | rfl | h | rfl | h
  · exact .inl (hdigits _ h)
  · exact .inr rfl
  · exact .inl (hdigits _ h)
  · exact .inr rfl
  · exact .inl (hdigits _ h)
  · exact .inr rfl
  · exact .inl (hdigits _ h)

theorem bracket_notMem_text (ip : Ipv4) : '[' ∉ ip.text ∧ ']' ∉ ip.text := by
  constructor <;> intro h <;> rcases isDigit_or_point_of_mem_text h with h | h <;> cases h

/-! ## One spelling -/

theorem decimalValue_lt {c : Char} (hc : c.isDigit = true) : decimalValue c < 10 := by
  have hrange := Char.isDigit_iff_toNat.1 hc
  have hzero : '0'.toNat = 48 := rfl
  have hnine : '9'.toNat = 57 := rfl
  rw [decimalValue]
  omega

theorem digitChar_decimalValue {c : Char} (hc : c.isDigit = true) :
    (decimalValue c).digitChar = c := by
  have hrange := Char.isDigit_iff_toNat.1 hc
  have hzero : '0'.toNat = 48 := rfl
  apply Char.toNat_inj.1
  rw [Nat.toNat_digitChar_of_lt_ten (decimalValue_lt hc), decimalValue]
  omega

/-- Digits without a zero in front of them are how their value is printed. -/
theorem decimal_digitsValue {ds : List Char} (hne : ds ≠ []) (hdigits : ∀ c ∈ ds, c.isDigit = true)
    (hzero : 1 < ds.length → ds.head? ≠ some '0') :
    decimal (digitsValue 10 decimalValue ds) = ds := by
  induction ds using List.reverseRecOn with
  | nil => exact absurd rfl hne
  | append_singleton ds c ih =>
    have hc : c.isDigit = true := hdigits c (by simp)
    have hlt := decimalValue_lt hc
    cases ds with
    | nil =>
      have hvalue : digitsValue 10 decimalValue ([] ++ [c]) = decimalValue c := by
        simp [digitsValue]
      rw [hvalue, decimal, if_pos hlt, digitChar_decimalValue hc]
      rfl
    | cons d ds =>
      have hd : d ≠ '0' := by
        simpa using hzero (by simp)
      have hfront := ih (List.cons_ne_nil d ds)
        (fun x hx => hdigits x (List.mem_append_left [c] hx)) (fun _ => by simpa using hd)
      -- The digits in front have a value, as zero would be printed as a single one.
      have hpos : digitsValue 10 decimalValue (d :: ds) ≠ 0 := by
        intro hnil
        rw [hnil, decimal, if_pos (by decide)] at hfront
        exact hd (List.cons.inj hfront).1.symm
      rw [digitsValue_concat, decimal, if_neg (by omega)]
      have hdiv : (digitsValue 10 decimalValue (d :: ds) * 10 + decimalValue c) / 10 =
          digitsValue 10 decimalValue (d :: ds) := by
        omega
      have hmod : (digitsValue 10 decimalValue (d :: ds) * 10 + decimalValue c) % 10 =
          decimalValue c := by
        omega
      rw [hdiv, hmod, hfront, digitChar_decimalValue hc]

theorem eq_append_of_readOctet {n : UInt8} (h : readOctet cs = some (n, rest)) :
    cs = decimal n.toNat ++ rest := by
  simp only [readOctet] at h
  split at h
  · cases h
  rename_i hlength
  split at h
  · cases h
  rename_i hzero
  split at h
  · cases h
  rename_i hlimit
  obtain ⟨rfl, rfl⟩ := Prod.mk.inj (Option.some.inj h)
  simp only [Bool.or_eq_true, List.isEmpty_iff, decide_eq_true_eq, not_or] at hlength
  simp only [Bool.and_eq_true, decide_eq_true_eq, not_and] at hzero
  have hdigits : ∀ c ∈ cs.takeWhile Char.isDigit, c.isDigit = true := fun c hc =>
    List.mem_takeWhile_imp hc
  have hvalue : (UInt8.ofNat (digitsValue 10 decimalValue (cs.takeWhile Char.isDigit))).toNat =
      digitsValue 10 decimalValue (cs.takeWhile Char.isDigit) := by
    rw [UInt8.toNat_ofNat']
    exact Nat.mod_eq_of_lt (by omega)
  rw [hvalue, decimal_digitsValue hlength.1 hdigits hzero, List.takeWhile_append_dropWhile]

theorem eq_append_of_readPointOctet {n : UInt8} (h : readPointOctet cs = some (n, rest)) :
    cs = '.' :: decimal n.toNat ++ rest := by
  unfold readPointOctet at h
  split at h
  · rw [eq_append_of_readOctet h, List.cons_append]
  · cases h

theorem eq_append_of_read {ip : Ipv4} (h : read cs = some (ip, rest)) : cs = ip.text ++ rest := by
  obtain ⟨⟨a, cs₁⟩, ha, h⟩ := Option.bind_eq_some_iff.1 h
  obtain ⟨⟨b, cs₂⟩, hb, h⟩ := Option.bind_eq_some_iff.1 h
  obtain ⟨⟨c, cs₃⟩, hc, h⟩ := Option.bind_eq_some_iff.1 h
  obtain ⟨⟨d, cs₄⟩, hd, h⟩ := Option.bind_eq_some_iff.1 h
  cases h
  rw [eq_append_of_readOctet ha, eq_append_of_readPointOctet hb, eq_append_of_readPointOctet hc,
    eq_append_of_readPointOctet hd]
  simp [text]

/-- Only the text of an address is read as this address. -/
theorem ofText?_eq_some_iff {ip : Ipv4} : ofText? cs = some ip ↔ cs = ip.text := by
  constructor
  · intro h
    unfold ofText? at h
    split at h
    · rename_i hread
      cases h
      rw [eq_append_of_read hread, List.append_nil]
    · cases h
  · rintro rfl
    exact ofText?_text ip

/-! ## What is no address -/

theorem eq_dropWhile_of_readOctet {n : UInt8} (h : readOctet cs = some (n, rest)) :
    rest = cs.dropWhile Char.isDigit := by
  simp only [readOctet] at h
  split at h
  · cases h
  · split at h
    · cases h
    · split at h
      · cases h
      · exact (Prod.mk.inj (Option.some.inj h)).2.symm

theorem readPointOctet_of_notMem (h : '.' ∉ cs) : readPointOctet cs = none := by
  unfold readPointOctet
  split
  · exact absurd List.mem_cons_self h
  · rfl

/-- No address is read off a text without points. -/
theorem read_of_notMem (h : '.' ∉ cs) : read cs = none := by
  rw [read]
  cases hoctet : readOctet cs with
  | none => rfl
  | some found =>
    obtain ⟨n, left⟩ := found
    have hleft : '.' ∉ left := by
      rw [eq_dropWhile_of_readOctet hoctet]
      exact fun hmem => h ((List.dropWhile_sublist Char.isDigit).subset hmem)
    simp only [Option.bind_eq_bind, Option.bind_some, readPointOctet_of_notMem hleft,
      Option.bind_none]

theorem read_of_not_isDigit {c : Char} (hc : c.isDigit = false) : read (c :: cs) = none := by
  have hnone : readOctet (c :: cs) = none := by
    simp [readOctet, hc]
  rw [read, hnone]
  rfl

end Camouflage.Ipv4
