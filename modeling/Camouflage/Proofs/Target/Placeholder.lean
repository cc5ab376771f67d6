import Camouflage.Placeholder
import Camouflage.Target
import Camouflage.Proofs.Random.Returns
import Camouflage.Proofs.Target.Canonical

/-!
# Headers of placeholders

A placeholder begins with a letter and goes on with letters up to a point, so it is never taken for
an address (`Host.ofChars_letters`), and its last colon is the one in front of the service number.
What is asked for is a domain name: the label, a point and the base without closing brackets at its
end (`exists_of_encode_withLabel`).
-/

namespace Camouflage

open Text

/-! ## Labels -/

namespace Placeholder

/-- What a label is like. -/
structure IsLabel (label : String) : Prop where
  least : minLabel ≤ label.length
  most : label.length ≤ maxLabel
  letters : ∀ c ∈ label.toList, c.isAlpha = true

theorem isAlpha_of_mem_letters : ∀ b ∈ letters, (Char.ofNat b.toNat).isAlpha = true :=
  List.all_eq_true.1 (by decide)

theorem isLabel_of_run_label {label : String} {s s' : Source}
    (h : Placeholder.label.run s = some (label, s')) : IsLabel label := by
  obtain ⟨n, t, hn, h⟩ := Draw.run_bind_eq_some_iff.1 h
  obtain ⟨bs, t', hbs, h⟩ := Draw.run_bind_eq_some_iff.1 h
  obtain ⟨rfl, -⟩ := Draw.run_pure_eq_some_iff.1 h
  obtain ⟨hleast, hmost⟩ := Draw.mem_of_run_between (by decide) (by decide) hn
  obtain ⟨hlength, hmem⟩ := Draw.of_run_chooseFrom (by decide) hbs
  have hsize : (String.ofList (bs.map fun b => Char.ofNat b.toNat)).length = n := by
    rw [String.length_ofList, List.length_map, hlength]
  refine ⟨by rw [hsize]; exact hleast, by rw [hsize]; exact hmost, ?_⟩
  intro c hc
  rw [String.toList_ofList, List.mem_map] at hc
  obtain ⟨b, hb, rfl⟩ := hc
  exact isAlpha_of_mem_letters b (hmem b hb)

theorem exists_label_of_run_fresh {base placeholder : String} {s s' : Source}
    (h : (fresh base).run s = some (placeholder, s')) :
    ∃ label, Placeholder.label.run s = some (label, s') ∧ placeholder = withLabel label base := by
  obtain ⟨label, t, hlabel, h⟩ := Draw.run_bind_eq_some_iff.1 h
  obtain ⟨rfl, rfl⟩ := Draw.run_pure_eq_some_iff.1 h
  exact ⟨label, hlabel, rfl⟩

/-- A placeholder can be drawn where letters can be picked. -/
theorem exists_run_fresh {s : Source} (h : s.Picks letters.length) (base : String) :
    ∃ placeholder s', (fresh base).run s = some (placeholder, s') := by
  have hlabel : label.ReturnsOn s := by
    refine (Draw.returnsOn_between minLabel maxLabel).bind ?_
    intro n
    refine (Draw.returnsOn_chooseFrom h n).bind ?_
    intro bs
    exact Draw.returnsOn_pure _
  obtain ⟨placeholder, n, hrun⟩ := hlabel.bind (fun l => Draw.returnsOn_pure (withLabel l base)) 0
  exact ⟨placeholder, _, hrun⟩

end Placeholder

/-! ## No address begins like a label -/

theorem isDigit_of_isAlpha {c : Char} (hc : c.isAlpha = true) : c.isDigit = false := by
  have hletter := toNat_of_isAlpha hc
  rw [Bool.eq_false_iff]
  intro hdigit
  have hrange := Char.isDigit_iff_toNat.1 hdigit
  have hnine : '9'.toNat = 57 := rfl
  omega

section Letters

variable {cs rest : List Char}

/-- Behind letters and a point, the first character that is no hexadecimal digit is no colon. -/
theorem dropWhile_isHexDigit_letters (rest : List Char) (hcs : ∀ c ∈ cs, c.isAlpha = true) :
    ∃ d tail, (cs ++ '.' :: rest).dropWhile Ipv6.isHexDigit = d :: tail ∧ d ≠ ':' := by
  induction cs with
  | nil => exact ⟨'.', rest, rfl, by decide⟩
  | cons c cs ih =>
    by_cases hc : Ipv6.isHexDigit c = true
    · rw [List.cons_append, List.dropWhile_cons_of_pos hc]
      exact ih fun d hd => hcs d (List.mem_cons_of_mem c hd)
    · rw [List.cons_append, List.dropWhile_cons_of_neg hc]
      refine ⟨c, cs ++ '.' :: rest, rfl, ?_⟩
      rintro rfl
      exact absurd (hcs ':' List.mem_cons_self) (by decide)

/-- At most one group can be read off the front, and no colon follows it. -/
theorem Ipv6.readGroups_letters (rest : List Char) {c : Char} (hc : c.isAlpha = true)
    (hcs : ∀ d ∈ cs, d.isAlpha = true) :
    ∃ front d tail, Ipv6.readGroups true 8 (c :: cs ++ '.' :: rest) = (front, false, d :: tail) ∧
      front.length ≤ 1 ∧ d ≠ ':' := by
  have hcolon : c ≠ ':' := by
    rintro rfl
    exact absurd hc (by decide)
  obtain ⟨d, tail, hdrop, hd⟩ := dropWhile_isHexDigit_letters rest
    (List.forall_mem_cons.2 ⟨hc, hcs⟩)
  have hipv4 : Ipv4.read (c :: cs ++ '.' :: rest) = none :=
    Ipv4.read_of_not_isDigit (isDigit_of_isAlpha hc)
  rw [Ipv6.readGroups]
  simp only [Ipv6.separated, ↓reduceIte, hipv4, OfNat.ofNat_ne_zero]
  cases hgroup : Ipv6.readGroup (c :: cs ++ '.' :: rest) with
  | none => exact ⟨[], c, cs ++ '.' :: rest, rfl, Nat.zero_le 1, hcolon⟩
  | some found =>
    obtain ⟨group, left⟩ := found
    obtain rfl : left = d :: tail := (Ipv6.eq_dropWhile_of_readGroup hgroup).trans hdrop
    refine ⟨[group], d, tail, ?_, Nat.le_refl 1, hd⟩
    simp only [Ipv6.readGroups_of_ne_colon hd]

theorem Ipv6.ofText?_letters {c : Char} (hc : c.isAlpha = true)
    (hcs : ∀ d ∈ cs, d.isAlpha = true) : Ipv6.ofText? (c :: cs ++ '.' :: rest) = none := by
  obtain ⟨front, d, tail, hgroups, hfront, hd⟩ := Ipv6.readGroups_letters rest hc hcs
  have hread : Ipv6.read (c :: cs ++ '.' :: rest) = none := by
    simp only [Ipv6.read, hgroups, show front.length ≠ 8 by omega, ↓reduceIte,
      Bool.false_eq_true]
    split
    · rename_i heq
      exact absurd (List.cons.inj heq).1 hd
    · rfl
  rw [Ipv6.ofText?, hread]

/-- What begins with letters and a point is a domain name, unless it is too long. -/
theorem Host.ofChars_letters (hne : cs ≠ []) (hcs : ∀ c ∈ cs, c.isAlpha = true) :
    Host.ofChars (cs ++ '.' :: rest) =
      if (encodeUtf8 (cs ++ '.' :: rest)).length > 255 then
        .error (.domainLength (encodeUtf8 (cs ++ '.' :: rest)).length)
      else .ok (.domain (String.ofList (cs ++ '.' :: rest))) := by
  obtain ⟨c, cs, rfl⟩ := List.exists_cons_of_ne_nil hne
  obtain ⟨hc, hcs⟩ := List.forall_mem_cons.1 hcs
  have hv4 : Ipv4.ofText? (c :: cs ++ '.' :: rest) = none := by
    rw [Ipv4.ofText?, List.cons_append, Ipv4.read_of_not_isDigit (isDigit_of_isAlpha hc)]
  have hsome : (encodeUtf8 (c :: cs ++ '.' :: rest)).length ≠ 0 := by
    rw [encodeUtf8_append, List.length_append]
    exact Nat.ne_of_gt (Nat.lt_add_left _ (Nat.succ_pos _))
  simp only [Host.ofChars, hv4, Ipv6.ofText?_letters hc hcs, hsome, false_or]

/-- Letters are encoded in one byte each. -/
theorem length_encodeUtf8_letters (hcs : ∀ c ∈ cs, c.isAlpha = true) :
    (encodeUtf8 cs).length = cs.length := by
  induction cs with
  | nil => rfl
  | cons c cs ih =>
    obtain ⟨hc, hcs⟩ := List.forall_mem_cons.1 hcs
    have hletter := toNat_of_isAlpha hc
    have hcons : encodeUtf8 (c :: cs) = String.utf8EncodeChar c ++ encodeUtf8 cs := rfl
    rw [hcons, encodeChar_ascii (by omega), List.length_append, ih hcs]
    exact Nat.add_comm 1 cs.length

end Letters

/-! ## The domain name of a placeholder -/

namespace Placeholder

/-- The domain name that is asked for with a label. -/
def domainName (label base : String) : List Char :=
  label.toList ++ '.' :: base.toList.rdropWhile (· = ']')

theorem rdropWhile_append_cons {p : Char → Bool} {x : Char} (hx : p x = false) (xs ys : List Char) :
    (xs ++ x :: ys).rdropWhile p = xs ++ x :: ys.rdropWhile p := by
  induction ys using List.reverseRecOn with
  | nil => rw [List.rdropWhile_concat_neg _ _ _ (by simp [hx]), List.rdropWhile_nil]
  | append_singleton ys y ih =>
    have hassoc : xs ++ x :: (ys ++ [y]) = (xs ++ x :: ys) ++ [y] := by simp
    rw [hassoc]
    by_cases hy : p y = true
    · rw [List.rdropWhile_concat_pos _ _ _ hy, List.rdropWhile_concat_pos _ _ _ hy, ih]
    · rw [List.rdropWhile_concat_neg _ _ _ hy, List.rdropWhile_concat_neg _ _ _ hy, hassoc]

theorem IsLabel.ne_nil {label : String} (h : IsLabel label) : label.toList ≠ [] := by
  intro hnil
  have hlength := h.least
  rw [← String.length_toList, hnil] at hlength
  exact absurd hlength (by decide)

theorem stripBrackets_label {label : String} (hlabel : IsLabel label) (base : String) :
    Host.stripBrackets (label.toList ++ '.' :: base.toList) = domainName label base := by
  have hletters := hlabel.letters
  obtain ⟨c, cs, hcs⟩ := List.exists_cons_of_ne_nil hlabel.ne_nil
  rw [hcs] at hletters
  have hopen : c ≠ '[' := by
    rintro rfl
    exact absurd (hletters '[' List.mem_cons_self) (by decide)
  rw [Host.stripBrackets, domainName, hcs, List.cons_append,
    List.dropWhile_cons_of_neg (by simpa using hopen)]
  exact rdropWhile_append_cons (by decide) (c :: cs) base.toList

theorem toList_withLabel (label base : String) : (withLabel label base).toList =
    (label.toList ++ '.' :: base.toList) ++ ':' :: ['4', '4', '3'] := by
  have hnumber : Nat.toDigits 10 serviceNumber = ['4', '4', '3'] := rfl
  simp [withLabel, hnumber]

theorem ofText_withLabel {label : String} (hlabel : IsLabel label) (base : String) :
    Target.ofText (withLabel label base) =
      (Host.ofChars (domainName label base)).map fun host => ⟨host, 443⟩ := by
  have hcolon : ':' ∉ ['4', '4', '3'] := by decide
  have hnumber : readNat max16 ['4', '4', '3'] = .ok 443 := rfl
  rw [Target.ofText_eq_map (toList_withLabel label base) hcolon hnumber,
    stripBrackets_label hlabel]
  rfl

/-- The target that a placeholder names. -/
def target (label base : String) : Target :=
  ⟨.domain (String.ofList (domainName label base)), 443⟩

theorem text_target (label base : String) :
    (target label base).text = String.ofList (domainName label base) ++ ":443" := by
  have hnumber : decimal (443 : UInt16).toNat = ['4', '4', '3'] := by
    simp [decimal]
  rw [← String.toList_inj, target, Target.text, hnumber]
  simp [Host.chars]

/-- How many bytes the domain name of a placeholder has. -/
def size (label base : String) : Nat :=
  label.length + 1 + (encodeUtf8 (base.toList.rdropWhile (· = ']'))).length

section Label

variable {label base : String} (hlabel : IsLabel label)

include hlabel

theorem length_domainName : (encodeUtf8 (domainName label base)).length = size label base := by
  have hpoint : ∀ cs, (encodeUtf8 ('.' :: cs)).length = 1 + (encodeUtf8 cs).length := by
    intro cs
    rw [Nat.add_comm]
    rfl
  rw [domainName, encodeUtf8_append, List.length_append, length_encodeUtf8_letters hlabel.letters,
    hpoint, String.length_toList, size, Nat.add_assoc]

theorem fits_target (hsize : size label base ≤ 255) : (target label base).host.Fits := by
  rw [target, Host.Fits, utf8, String.toList_ofList, length_domainName hlabel]
  exact ⟨Nat.lt_of_lt_of_le (Nat.succ_pos _) (Nat.le_add_right _ _), hsize⟩

theorem encode_withLabel : Target.encode (withLabel label base) =
    if size label base > 255 then .error (.domainLength (size label base))
    else .ok (target label base).header := by
  have hhost : Host.ofChars (domainName label base) =
      if size label base > 255 then .error (.domainLength (size label base))
      else .ok (target label base).host := by
    rw [← length_domainName hlabel]
    exact Host.ofChars_letters hlabel.ne_nil hlabel.letters
  rw [Target.encode, ofText_withLabel hlabel, hhost]
  split <;> rfl

/-- If a placeholder can be encoded, its header is that of its domain name. -/
theorem exists_of_encode_withLabel {header : Bytes}
    (h : Target.encode (withLabel label base) = .ok header) :
    ∃ target : Target, header = target.header ∧ target.host.Fits ∧
      target.text = String.ofList (domainName label base) ++ ":443" := by
  rw [encode_withLabel hlabel] at h
  split at h
  · cases h
  · rename_i hsize
    cases h
    exact ⟨_, rfl, fits_target hlabel (Nat.not_lt.1 hsize), text_target label base⟩

end Label

end Placeholder

end Camouflage
