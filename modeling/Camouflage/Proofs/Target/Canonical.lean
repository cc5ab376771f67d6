import Camouflage.Proofs.Address.Ipv6
import Camouflage.Proofs.Outcome
import Camouflage.Proofs.Target.Header

/-!
# Canonical targets

A target has one text of its own, whatever spelling it was named by: naming it by this text gives
the same target again (`ofText_text`). So a header that is read and written once more is the same
header (`read_encode`). There is a header for each host of 1 to 255 bytes (`exists_encode`).

For a host the reason is that the three kinds are told apart in the same way on the second pass. An
address is read back from its text without the brackets, and a domain name is what is left when the
brackets are gone, of which none can be taken away again.
-/

namespace Camouflage

open Text

namespace Host

/-! ## Brackets -/

variable {cs : List Char}

theorem stripBrackets_eq (cs : List Char) :
    stripBrackets cs = (cs.dropWhile (· = '[')).rdropWhile (· = ']') :=
  rfl

/-- There are no brackets to take away twice. -/
@[simp] theorem stripBrackets_stripBrackets (cs : List Char) :
    stripBrackets (stripBrackets cs) = stripBrackets cs := by
  rw [stripBrackets_eq (stripBrackets cs), stripBrackets_eq cs, dropWhile_rdropWhile_dropWhile]
  exact List.rdropWhile_idempotent _ _

theorem ne_of_notMem {c : Char} (h : c ∉ cs) : ∀ x ∈ cs, decide (x = c) = false := by
  intro x hx
  apply decide_eq_false
  rintro rfl
  exact h hx

theorem stripBrackets_of_notMem (h : '[' ∉ cs ∧ ']' ∉ cs) : stripBrackets cs = cs := by
  rw [stripBrackets_eq, dropWhile_of_forall (ne_of_notMem h.1),
    rdropWhile_of_forall (ne_of_notMem h.2)]

theorem stripBrackets_bracketed (h : '[' ∉ cs ∧ ']' ∉ cs) :
    stripBrackets ('[' :: cs ++ [']']) = cs := by
  have hopen : '[' ∉ cs ++ [']'] := by
    simpa using h.1
  have hfront : ('[' :: cs ++ [']']).dropWhile (· = '[') = (cs ++ [']']).dropWhile (· = '[') :=
    List.dropWhile_cons_of_pos rfl
  rw [stripBrackets_eq, hfront, dropWhile_of_forall (ne_of_notMem hopen),
    List.rdropWhile_concat_pos _ _ _ rfl, rdropWhile_of_forall (ne_of_notMem h.2)]

/-! ## Hosts -/

/-- What a text names is an address, or the domain name that the text is. -/
theorem cases_of_ofChars {host : Host} (h : ofChars cs = .ok host) :
    (∃ ip, host = .v4 ip ∧ Ipv4.ofText? cs = some ip) ∨
      (∃ ip, host = .v6 ip ∧ Ipv6.ofText? cs = some ip) ∨
      (host = .domain (String.ofList cs) ∧ host.Fits ∧ Ipv6.ofText? cs = none) := by
  unfold ofChars at h
  split at h
  · rename_i hip
    exact .inl ⟨_, (Except.ok.inj h).symm, hip⟩
  · split at h
    · rename_i hip
      exact .inr (.inl ⟨_, (Except.ok.inj h).symm, hip⟩)
    · rename_i hnone
      dsimp only at h
      split at h
      · cases h
      · rename_i hsize
        obtain rfl := Except.ok.inj h
        refine .inr (.inr ⟨rfl, ?_, hnone⟩)
        rw [Fits, utf8, String.toList_ofList]
        omega

theorem exists_ofChars (hleast : 0 < (encodeUtf8 cs).length)
    (hmost : (encodeUtf8 cs).length ≤ 255) : ∃ host, ofChars cs = .ok host := by
  have hsize : ¬((encodeUtf8 cs).length = 0 ∨ (encodeUtf8 cs).length > 255) := by
    omega
  unfold ofChars
  split
  · exact ⟨_, rfl⟩
  · split
    · exact ⟨_, rfl⟩
    · exact ⟨_, if_neg hsize⟩

theorem stripBrackets_chars_v6 (ip : Ipv6) : stripBrackets (Host.v6 ip).chars = ip.text :=
  stripBrackets_bracketed ip.bracket_notMem_text

theorem ofChars_chars_v4 (ip : Ipv4) :
    ofChars (stripBrackets (Host.v4 ip).chars) = .ok (.v4 ip) := by
  rw [chars, stripBrackets_of_notMem ip.bracket_notMem_text, ofChars, ip.ofText?_text]

theorem ofChars_chars_v6 (ip : Ipv6) :
    ofChars (stripBrackets (Host.v6 ip).chars) = .ok (.v6 ip) := by
  rw [stripBrackets_chars_v6, ofChars, ip.ipv4_ofText?_text, ip.ofText?_text]

/-- A host is named by its own text. -/
theorem ofChars_chars {host : Host} (h : ofChars (stripBrackets cs) = .ok host) :
    ofChars (stripBrackets host.chars) = .ok host ∧ host.Fits := by
  rcases cases_of_ofChars h with ⟨ip, rfl, -⟩ | ⟨ip, rfl, -⟩ | ⟨rfl, hfits, -⟩
  · exact ⟨ofChars_chars_v4 ip, trivial⟩
  · exact ⟨ofChars_chars_v6 ip, trivial⟩
  · refine ⟨?_, hfits⟩
    -- The name is the very text that was no address, so it is none on the second pass either.
    rw [chars, String.toList_ofList, stripBrackets_stripBrackets]
    exact h

end Host

namespace Target

/-- A text is cut at its last colon, which has no other behind it. -/
theorem ofText_eq_map {s : String} {cs digits : List Char} {n : Nat}
    (hs : s.toList = cs ++ ':' :: digits) (hcolon : ':' ∉ digits)
    (hnumber : readNat max16 digits = .ok n) :
    ofText s =
      (Host.ofChars (Host.stripBrackets cs)).map fun host => ⟨host, UInt16.ofNat n⟩ := by
  have hsplit : splitLast ':' s.toList = some (cs, digits) :=
    splitLast_eq_some_iff.2 ⟨hcolon, hs⟩
  simp only [ofText, hsplit, hnumber]
  cases Host.ofChars (Host.stripBrackets cs) <;> rfl

theorem readNat_decimal (n : UInt16) : readNat max16 (decimal n.toNat) = .ok n.toNat := by
  obtain ⟨hne, hdigits, hvalue⟩ := isNumeral_decimal n.toNat
  exact (readNat_eq_ok_iff hne hdigits).2 ⟨hvalue, Nat.le_of_lt_succ n.toNat_lt⟩

theorem ofText_text_eq_map (t : Target) : ofText t.text =
    (Host.ofChars (Host.stripBrackets t.host.chars)).map fun host => ⟨host, t.number⟩ := by
  have htext : t.text.toList = t.host.chars ++ ':' :: decimal t.number.toNat :=
    String.toList_ofList
  have hcolon : ':' ∉ decimal t.number.toNat := (isNumeral_decimal t.number.toNat).notMem rfl
  rw [ofText_eq_map htext hcolon (readNat_decimal t.number), UInt16.ofNat_toNat]

theorem ofChars_of_ofText {s : String} {t : Target} (h : ofText s = .ok t) :
    ∃ cs, Host.ofChars (Host.stripBrackets cs) = .ok t.host := by
  unfold ofText at h
  split at h
  · cases h
  · rename_i host digits hsplit
    split at h
    · cases h
    · obtain ⟨host', hhost, h⟩ := bind_eq_ok_iff.1 h
      cases h
      exact ⟨host, hhost⟩

/-- A target is named by its own text, and fits into a header. -/
theorem ofText_text {s : String} {t : Target} (h : ofText s = .ok t) :
    ofText t.text = .ok t ∧ t.host.Fits := by
  obtain ⟨cs, hhost⟩ := ofChars_of_ofText h
  obtain ⟨hsame, hfits⟩ := Host.ofChars_chars hhost
  refine ⟨?_, hfits⟩
  rw [ofText_text_eq_map, hsame]
  rfl

/-- Every host of 1 to 255 bytes without the brackets around it can be named, with a number in any
spelling. -/
theorem exists_encode {cs digits : List Char} {n : Nat} (hcolon : ':' ∉ digits)
    (hnumber : readNat max16 digits = .ok n)
    (hleast : 0 < (encodeUtf8 (Host.stripBrackets cs)).length)
    (hmost : (encodeUtf8 (Host.stripBrackets cs)).length ≤ 255) :
    ∃ header, encode (String.ofList (cs ++ ':' :: digits)) = .ok header := by
  obtain ⟨host, hhost⟩ := Host.exists_ofChars hleast hmost
  refine ⟨(Target.mk host (UInt16.ofNat n)).header, ?_⟩
  rw [encode, ofText_eq_map String.toList_ofList hcolon hnumber, hhost]
  rfl

/-- **Headers are canonical.** Whatever spelling a target is named by, its header is read as a
target whose own text gives the same header, and what stands behind the header is left. -/
theorem read_encode {s : String} {header : Bytes} (h : encode s = .ok header) :
    ∃ target : Target, encode target.text = .ok header ∧
      ∀ {d : Deadline} {p : Peer} {rest : Bytes} {ending : Ending},
        p.arrival d = (header ++ rest, ending) →
          ∃ p', read d p = (.ok target, p') ∧ p'.arrival d = (rest, ending) := by
  obtain ⟨target, htarget, h⟩ := bind_eq_ok_iff.1 h
  cases h
  obtain ⟨hsame, hfits⟩ := ofText_text htarget
  refine ⟨target, ?_, ?_⟩
  · rw [encode, hsame]
    rfl
  · intro d p rest ending harrival
    obtain ⟨p', hread, hgives⟩ := read_header hfits (Peer.isPrefix_of_arrival harrival)
    exact ⟨p', hread, hgives.arrival d.within_refl harrival⟩

/-- An IPv6 address in two pairs of brackets, neither it nor the number as they would be written,
and a domain name with a colon and a bracket in it. -/
theorem read_encode_spellings :
    (encode "[[2001:DB8:0:0:1::1]]:+0443" =
        .ok [4, 0x20, 1, 0xD, 0xB8, 0, 0, 0, 0, 0, 1, 0, 0, 0, 0, 0, 1, 1, 0xBB] ∧
      ∃ target : Target, encode target.text =
          .ok [4, 0x20, 1, 0xD, 0xB8, 0, 0, 0, 0, 0, 1, 0, 0, 0, 0, 0, 1, 1, 0xBB] ∧
        ∃ p', read none (Peer.ofChunks
            [[4, 0x20, 1, 0xD, 0xB8, 0], [0, 0, 0, 0, 1, 0, 0, 0, 0, 0, 1, 1, 0xBB, 9]]) =
            (.ok target, p') ∧ p'.arrival none = ([9], .closed)) ∧
    (encode "[a:[x]:053" = .ok [3, 4, 97, 58, 91, 120, 0, 53] ∧
      ∃ target : Target, encode target.text = .ok [3, 4, 97, 58, 91, 120, 0, 53] ∧
        ∃ p', read none (Peer.ofChunks [[3, 4, 97, 58, 91, 120, 0, 53]]) = (.ok target, p') ∧
          p'.arrival none = ([], .closed)) := by
  constructor
  · have hencode : encode "[[2001:DB8:0:0:1::1]]:+0443" =
        .ok [4, 0x20, 1, 0xD, 0xB8, 0, 0, 0, 0, 0, 1, 0, 0, 0, 0, 0, 1, 1, 0xBB] := rfl
    obtain ⟨target, hsame, hread⟩ := read_encode hencode
    exact ⟨hencode, target, hsame, hread (Peer.arrival_ofChunks (by decide) none)⟩
  · have hencode : encode "[a:[x]:053" = .ok [3, 4, 97, 58, 91, 120, 0, 53] := rfl
    obtain ⟨target, hsame, hread⟩ := read_encode hencode
    exact ⟨hencode, target, hsame, hread (Peer.arrival_ofChunks (by decide) none)⟩

end Target

end Camouflage
