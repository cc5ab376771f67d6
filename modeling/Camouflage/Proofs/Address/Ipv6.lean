import Camouflage.Address.Ipv6
import Camouflage.Proofs.Address.Ipv4

/-!
# Reading IPv6 addresses

An address is read back from its text (`ofText?_text`). The groups in front of two colons are read
up to there and those behind up to the end (`readGroups_groupsText`); the zeros between them are as
many as are missing, because the two colons stand for a run of zeros (`longestRun_spec`).
-/

namespace Camouflage.Ipv6

open Text

variable {cs rest : List Char}

/-! ## One group -/

theorem isHexDigit_digitChar : ∀ n < 16, isHexDigit n.digitChar = true := by
  decide

theorem hexValue_digitChar : ∀ n < 16, hexValue n.digitChar = n := by
  decide

theorem isHexDigit_of_mem_toDigits {n : Nat} {c : Char} (h : c ∈ Nat.toDigits 16 n) :
    isHexDigit c = true := by
  induction n using Nat.strongRecOn with
  | ind n ih =>
    by_cases hn : n < 16
    · rw [Nat.toDigits_of_lt_base hn, List.mem_singleton] at h
      rw [h]
      exact isHexDigit_digitChar n hn
    · rw [Nat.toDigits_eq_if (by decide), if_neg hn, List.mem_append, List.mem_singleton] at h
      rcases h with h | rfl
      · exact ih (n / 16) (by omega) h
      · exact isHexDigit_digitChar _ (Nat.mod_lt n (by decide))

theorem isHexDigit_of_mem_groupText {g : UInt16} {c : Char} (h : c ∈ groupText g) :
    isHexDigit c = true :=
  isHexDigit_of_mem_toDigits h

theorem length_groupText_le (g : UInt16) : (groupText g).length ≤ 4 :=
  (Nat.length_toDigits_le_iff (by decide) (by decide)).2 g.toNat_lt

theorem readGroup_groupText (g : UInt16) (hrest : ∀ c ∈ rest.head?, isHexDigit c = false) :
    readGroup (groupText g ++ rest) = some (g, rest) := by
  have hdigits : ∀ c ∈ groupText g, isHexDigit c = true := fun _ => isHexDigit_of_mem_groupText
  have hvalue : Ipv4.digitsValue 16 hexValue (groupText g) = g.toNat :=
    Ipv4.digitsValue_toDigits (by decide) hexValue_digitChar g.toNat
  have hlength := length_groupText_le g
  simp only [readGroup, takeWhile_run hdigits hrest, dropWhile_run hdigits hrest, hvalue]
  rw [if_neg, UInt16.ofNat_toNat]
  rw [Bool.or_eq_true, List.isEmpty_iff, decide_eq_true_eq]
  rintro (hnil | hlong)
  · exact Nat.toDigits_ne_nil hnil
  · exact Nat.not_lt.2 hlength hlong

theorem eq_dropWhile_of_readGroup {left : List Char} {group : UInt16}
    (h : readGroup cs = some (group, left)) : left = cs.dropWhile isHexDigit := by
  simp only [readGroup] at h
  split at h
  · cases h
  · rw [Option.some.injEq, Prod.mk.injEq] at h
    exact h.2.symm

/-! ## Groups -/

theorem separated_of_ne_colon {α : Type} (read : List Char → Option (α × List Char))
    {d : Char} (hd : d ≠ ':') : separated false read (d :: rest) = none := by
  simp only [separated, Bool.false_eq_true, ↓reduceIte]
  split
  · rename_i heq
    exact absurd (List.cons.inj heq).1 hd
  · rfl

/-- Groups end where neither an IPv4 address nor a group can be read. -/
theorem readGroups_of_eq_none {isFirst : Bool} (hv4 : separated isFirst Ipv4.read rest = none)
    (hgroup : separated isFirst readGroup rest = none) (most : Nat) :
    readGroups isFirst most rest = ([], false, rest) := by
  cases most with
  | zero => rfl
  | succ most => rw [readGroups, hv4, hgroup, ite_self]

/-- Groups do not go on without a colon. -/
theorem readGroups_of_ne_colon {d : Char} (hd : d ≠ ':') (most : Nat) :
    readGroups false most (d :: rest) = ([], false, d :: rest) :=
  readGroups_of_eq_none (separated_of_ne_colon _ hd) (separated_of_ne_colon _ hd) most

/-- What can stand behind groups: nothing, or two colons. -/
inductive Ends : List Char → Prop where
  | nil : Ends []
  | gap (rest : List Char) : Ends (':' :: ':' :: rest)

theorem readGroups_of_ends (h : Ends rest) (isFirst : Bool) (most : Nat) :
    readGroups isFirst most rest = ([], false, rest) := by
  have hnone : separated isFirst Ipv4.read rest = none ∧
      separated isFirst readGroup rest = none := by
    cases h <;> cases isFirst <;> exact ⟨rfl, rfl⟩
  exact readGroups_of_eq_none hnone.1 hnone.2 most

/-- Groups with a colon in front of each. -/
def tailText (gs : List UInt16) : List Char :=
  gs.flatMap fun g => ':' :: groupText g

theorem groupsText_cons (g : UInt16) (gs : List UInt16) :
    groupsText (g :: gs) = groupText g ++ tailText gs := by
  induction gs generalizing g with
  | nil => simp [groupsText, tailText]
  | cons g' gs ih =>
    rw [groupsText, ih]
    · simp [tailText]
    · simp

/-- The characters of groups are digits and colons. -/
theorem isHexDigit_or_colon_of_mem_groupsText {gs : List UInt16} {c : Char}
    (h : c ∈ groupsText gs) : isHexDigit c = true ∨ c = ':' := by
  cases gs with
  | nil => cases h
  | cons g gs =>
    rw [groupsText_cons, List.mem_append] at h
    rcases h with h | h
    · exact .inl (isHexDigit_of_mem_groupText h)
    · obtain ⟨g', -, hg'⟩ := List.mem_flatMap.1 h
      rcases List.mem_cons.1 hg' with rfl | hg'
      · exact .inr rfl
      · exact .inl (isHexDigit_of_mem_groupText hg')

theorem point_notMem_groupsText (gs : List UInt16) : '.' ∉ groupsText gs := by
  intro h
  rcases isHexDigit_or_colon_of_mem_groupsText h with h | h <;> cases h

theorem head?_tailText_append (gs : List UInt16) (h : Ends rest) :
    ∀ c ∈ (tailText gs ++ rest).head?, isHexDigit c = false := by
  cases gs with
  | cons g gs =>
    rintro c ⟨⟩
    rfl
  | nil =>
    cases h <;> rintro c ⟨⟩
    rfl

/-- A group is read off the front, if that is no IPv4 address. -/
theorem readGroups_groupText {g : UInt16} {most : Nat}
    (hv4 : Ipv4.read (groupText g ++ rest) = none)
    (hrest : ∀ c ∈ rest.head?, isHexDigit c = false) :
    readGroups true (most + 1) (groupText g ++ rest) =
        (g :: (readGroups false most rest).1, (readGroups false most rest).2) ∧
      readGroups false (most + 1) (':' :: groupText g ++ rest) =
        (g :: (readGroups false most rest).1, (readGroups false most rest).2) := by
  have hgroup : readGroup (groupText g ++ rest) = some (g, rest) := readGroup_groupText g hrest
  constructor
  · simp only [readGroups, separated, ↓reduceIte, hv4, hgroup, ite_self]
  · simp only [readGroups, separated, List.cons_append, Bool.false_eq_true, ↓reduceIte, hv4, hgroup,
      ite_self]

theorem readGroups_tailText {gs : List UInt16} {most : Nat} (hmost : gs.length ≤ most)
    (h : Ends rest) (hpoint : '.' ∉ tailText gs ++ rest) :
    readGroups false most (tailText gs ++ rest) = (gs, false, rest) := by
  induction gs generalizing most with
  | nil => exact readGroups_of_ends h false most
  | cons g gs ih =>
    obtain ⟨most, rfl⟩ : ∃ n, most = n + 1 := Nat.exists_eq_succ_of_ne_zero (by grind)
    have htext : tailText (g :: gs) ++ rest = ':' :: groupText g ++ (tailText gs ++ rest) := by
      simp [tailText]
    rw [htext, List.cons_append, List.mem_cons, not_or] at hpoint
    have htail : '.' ∉ tailText gs ++ rest :=
      fun hmem => hpoint.2 (List.mem_append_right _ hmem)
    have hv4 := Ipv4.read_of_notMem hpoint.2
    rw [htext, (readGroups_groupText hv4 (head?_tailText_append gs h)).2,
      ih (Nat.le_of_succ_le_succ hmost) htail]

/-- Groups are read up to their end. -/
theorem readGroups_groupsText {gs : List UInt16} {most : Nat} (hmost : gs.length ≤ most)
    (h : Ends rest) (hpoint : '.' ∉ rest) :
    readGroups true most (groupsText gs ++ rest) = (gs, false, rest) := by
  have hall : '.' ∉ groupsText gs ++ rest := by
    rw [List.mem_append, not_or]
    exact ⟨point_notMem_groupsText gs, hpoint⟩
  cases gs with
  | nil => exact readGroups_of_ends h true most
  | cons g gs =>
    obtain ⟨most, rfl⟩ : ∃ n, most = n + 1 := Nat.exists_eq_succ_of_ne_zero (by grind)
    rw [groupsText_cons, List.append_assoc] at hall ⊢
    have htail : '.' ∉ tailText gs ++ rest :=
      fun hmem => hall (List.mem_append_right _ hmem)
    have hv4 := Ipv4.read_of_notMem hall
    rw [(readGroups_groupText hv4 (head?_tailText_append gs h)).1,
      readGroups_tailText (Nat.le_of_succ_le_succ hmost) h htail]

/-! ## Runs of zeros -/

/-- The zeros in front, and what follows them. -/
theorem eq_zeros_append (gs : List UInt16) :
    ∃ back, gs = List.replicate (zeroRun gs) 0 ++ back := by
  have hzeros : gs.takeWhile (· = 0) = List.replicate (zeroRun gs) 0 := by
    rw [List.eq_replicate_iff]
    refine ⟨rfl, ?_⟩
    intro g hg
    simpa using List.mem_takeWhile_imp hg
  refine ⟨gs.dropWhile (· = 0), ?_⟩
  rw [← hzeros, List.takeWhile_append_dropWhile]

/-- The longest run is one of zeros. -/
theorem longestRun_spec {gs : List UInt16} {start length : Nat}
    (h : longestRun gs = (start, length)) :
    ∃ front back, gs = front ++ (List.replicate length 0 ++ back) ∧ front.length = start := by
  induction gs generalizing start length with
  | nil =>
    cases h
    exact ⟨[], [], rfl, rfl⟩
  | cons g gs ih =>
    cases hlater : longestRun gs with
    | mk start' length' =>
      simp only [longestRun, hlater] at h
      split at h
      · cases h
        obtain ⟨back, hback⟩ := eq_zeros_append (g :: gs)
        exact ⟨[], back, hback, rfl⟩
      · cases h
        obtain ⟨front, back, hgs, hfront⟩ := ih hlater
        refine ⟨g :: front, back, ?_, ?_⟩
        · rw [hgs, List.cons_append]
        · rw [List.length_cons, hfront]

/-! ## Addresses -/

theorem text_of_mapped? {ip : Ipv6} {v4 : Ipv4} (h : ip.mapped? = some v4) :
    ip.text = ':' :: ':' :: (groupText 0xFFFF ++ ':' :: v4.text) := by
  rw [text, h]
  rfl

/-- The text of an address without an IPv4 address in it, as its groups give it. -/
theorem text_of_mapped?_eq_none {ip : Ipv6} (h : ip.mapped? = none) :
    ip.text = groupsText ip.groups ∨
      ∃ front length back, ip.groups = front ++ (List.replicate length 0 ++ back) ∧ 1 < length ∧
        ip.text = groupsText front ++ (':' :: ':' :: groupsText back) := by
  cases hrun : longestRun ip.groups with
  | mk start length =>
    simp only [text, h, hrun]
    split
    · rename_i hlong
      obtain ⟨front, back, hgroups, hfront⟩ := longestRun_spec hrun
      refine .inr ⟨front, length, back, hgroups, hlong, ?_⟩
      have htake : ip.groups.take start = front := by
        rw [hgroups, ← hfront, List.take_left]
      have hdrop : ip.groups.drop (start + length) = back := by
        rw [hgroups, ← hfront, ← List.drop_drop, List.drop_left,
          List.drop_left' List.length_replicate]
      rw [htake, hdrop, List.append_assoc]
      rfl
    · exact .inl rfl

theorem read_groupsText (ip : Ipv6) : read (groupsText ip.groups) = some (ip, []) := by
  have hread : readGroups true 8 (groupsText ip.groups ++ []) = (ip.groups, false, []) :=
    readGroups_groupsText (Nat.le_of_eq ip.length_groups) .nil (by simp)
  rw [List.append_nil] at hread
  simp only [read, hread, ip.length_groups, ↓reduceIte, ↓reduceDIte]

/-- Two colons are read as the zeros that are missing. -/
theorem read_gap {ip : Ipv6} {front back : List UInt16} {length : Nat} (hlength : 1 < length)
    (hgroups : ip.groups = front ++ (List.replicate length 0 ++ back)) :
    read (groupsText front ++ (':' :: ':' :: groupsText back)) = some (ip, []) := by
  have hsum : front.length + (length + back.length) = 8 := by
    rw [← ip.length_groups, hgroups]
    simp
  have hpoint : '.' ∉ ':' :: ':' :: groupsText back := by
    simp [point_notMem_groupsText]
  have hfront : readGroups true 8 (groupsText front ++ (':' :: ':' :: groupsText back)) =
      (front, false, ':' :: ':' :: groupsText back) :=
    readGroups_groupsText (by omega) (.gap (groupsText back)) hpoint
  -- The run has at least two zeros, so those behind it are fewer than the reader allows.
  have hback : readGroups true (7 - front.length) (groupsText back ++ []) = (back, false, []) :=
    readGroups_groupsText (by omega) .nil (by simp)
  rw [List.append_nil] at hback
  have hmissing : 8 - front.length - back.length = length := by omega
  have hshort : front.length ≠ 8 := by omega
  simp only [read, hfront, hshort, ↓reduceIte, Bool.false_eq_true, hback, hmissing,
    List.append_assoc, ← hgroups, ip.length_groups, ↓reduceDIte]

/-- An IPv4 address ends the groups, as two of them. -/
theorem readGroups_v4 (v4 : Ipv4) (most : Nat) :
    readGroups false (most + 2) (':' :: v4.text) =
      ([Bytes.toUInt16 v4.a v4.b, Bytes.toUInt16 v4.c v4.d], true, []) := by
  have hread : Ipv4.read (v4.text ++ []) = some (v4, []) := Ipv4.read_text v4 (by simp)
  rw [List.append_nil] at hread
  simp only [readGroups, separated, Nat.add_eq_zero_iff, one_ne_zero, and_false,
    Bool.false_eq_true, ↓reduceIte, hread]

theorem groups_of_mapped? {ip : Ipv6} {v4 : Ipv4} (h : ip.mapped? = some v4) :
    ip.groups = List.replicate 5 0 ++
      [0xFFFF, Bytes.toUInt16 v4.a v4.b, Bytes.toUInt16 v4.c v4.d] := by
  unfold mapped? at h
  split at h
  · rename_i hgroups
    cases h
    rw [hgroups]
    simp only [Bytes.toUInt16_ofNat_div_mod]
    rfl
  · cases h

theorem read_mapped {ip : Ipv6} {v4 : Ipv4} (h : ip.mapped? = some v4) :
    read (':' :: ':' :: (groupText 0xFFFF ++ ':' :: v4.text)) = some (ip, []) := by
  obtain ⟨groups, hlength⟩ := ip
  obtain rfl := groups_of_mapped? h
  have hfront := readGroups_of_ends (.gap (groupText 0xFFFF ++ ':' :: v4.text)) true 8
  -- There are points in this text, but the first group has letters in front of them.
  have hv4 : Ipv4.read (groupText 0xFFFF ++ ':' :: v4.text) = none :=
    Ipv4.read_of_not_isDigit rfl
  have hcolon : ∀ c ∈ (':' :: v4.text).head?, isHexDigit c = false := by
    rintro c ⟨⟩
    rfl
  have hback : readGroups true 7 (groupText 0xFFFF ++ ':' :: v4.text) =
      ([0xFFFF, Bytes.toUInt16 v4.a v4.b, Bytes.toUInt16 v4.c v4.d], true, []) := by
    rw [(readGroups_groupText hv4 hcolon).1, readGroups_v4 v4 4]
  simp only [read, hfront, List.length_nil, Nat.sub_zero, hback]
  rfl

/-- **Reading undoes writing.** An address is read from its text, with its zeros written out or not
and with an IPv4 address in it or not. -/
theorem ofText?_text (ip : Ipv6) : ofText? ip.text = some ip := by
  have hread : read ip.text = some (ip, []) := by
    cases hmapped : ip.mapped? with
    | some v4 =>
      rw [text_of_mapped? hmapped]
      exact read_mapped hmapped
    | none =>
      rcases text_of_mapped?_eq_none hmapped with
        htext | ⟨front, length, back, hgroups, hlong, htext⟩
      · rw [htext]
        exact read_groupsText ip
      · rw [htext]
        exact read_gap hlong hgroups
  rw [ofText?, hread]

/-! ## What a text looks like -/

/-- Without an IPv4 address in it, an address has digits and colons only. -/
theorem isHexDigit_or_colon_of_mem_text {ip : Ipv6} (h : ip.mapped? = none) {c : Char}
    (hc : c ∈ ip.text) : isHexDigit c = true ∨ c = ':' := by
  rcases text_of_mapped?_eq_none h with htext | ⟨front, length, back, -, -, htext⟩
  · rw [htext] at hc
    exact isHexDigit_or_colon_of_mem_groupsText hc
  · rw [htext, List.mem_append, List.mem_cons, List.mem_cons] at hc
    rcases hc with hc | rfl | rfl | hc
    · exact isHexDigit_or_colon_of_mem_groupsText hc
    · exact .inr rfl
    · exact .inr rfl
    · exact isHexDigit_or_colon_of_mem_groupsText hc

/-- The text of an IPv6 address is no IPv4 address. -/
theorem ipv4_ofText?_text (ip : Ipv6) : Ipv4.ofText? ip.text = none := by
  have hread : Ipv4.read ip.text = none := by
    cases hmapped : ip.mapped? with
    | some v4 =>
      rw [text_of_mapped? hmapped]
      exact Ipv4.read_of_not_isDigit rfl
    | none =>
      apply Ipv4.read_of_notMem
      intro hpoint
      rcases isHexDigit_or_colon_of_mem_text hmapped hpoint with h | h <;> cases h
  rw [Ipv4.ofText?, hread]

/-- Nor is the text of an IPv4 address an IPv6 address: it is two groups, and ends them. -/
theorem ofText?_v4_text (v4 : Ipv4) : ofText? v4.text = none := by
  have hv4 : Ipv4.read (v4.text ++ []) = some (v4, []) := Ipv4.read_text v4 (by simp)
  rw [List.append_nil] at hv4
  have hgroups : readGroups true 8 v4.text =
      ([Bytes.toUInt16 v4.a v4.b, Bytes.toUInt16 v4.c v4.d], true, []) := by
    simp only [readGroups, separated, ↓reduceIte, OfNat.ofNat_ne_zero, hv4]
  have hread : read v4.text = none := by
    simp only [read, hgroups]
    rfl
  rw [ofText?, hread]

theorem bracket_notMem_text (ip : Ipv6) : '[' ∉ ip.text ∧ ']' ∉ ip.text := by
  cases hmapped : ip.mapped? with
  | none =>
    constructor <;> intro h <;> rcases isHexDigit_or_colon_of_mem_text hmapped h with h | h <;>
      cases h
  | some v4 =>
    have hgroup : groupText 0xFFFF = ['f', 'f', 'f', 'f'] := rfl
    rw [text_of_mapped? hmapped, hgroup]
    simpa using v4.bracket_notMem_text

end Camouflage.Ipv6
