import Camouflage.Proofs.Target.Canonical
import Camouflage.Proofs.Target.Layout

/-!
# Targets that are passed on

A target that has been read can be written again from its text. Addresses come back as they were. A
domain name is only text the second time: it loses the brackets in front and behind, and what is
left may be an address. So it comes back as it was exactly if it is `Host.Stable`, and there is no
header for a name that is nothing but brackets (`encode_text_of_read`).
-/

namespace Camouflage

open Text

namespace Host

/-- A host whose text is still its text when it has been written and read once more: an address, a
domain name that has no brackets to lose and is no IPv6 address, or one that is the text of an IPv6
address in its brackets. -/
def Stable : Host → Prop
  | .v4 _ => True
  | .v6 _ => True
  | .domain name =>
    (name.toList.head? ≠ some '[' ∧ name.toList.getLast? ≠ some ']' ∧
      Ipv6.ofText? name.toList = none) ∨
    ∃ ip, name.toList = (Host.v6 ip).chars

/-! ## Brackets -/

section Brackets

variable {cs : List Char}

theorem exists_stripBrackets (cs : List Char) :
    ∃ front back, cs = front ++ (stripBrackets cs ++ back) := by
  obtain ⟨front, hfront⟩ := List.dropWhile_suffix (l := cs) (· = '[')
  obtain ⟨back, hback⟩ := List.rdropWhile_prefix (· = ']') (cs.dropWhile (· = '['))
  exact ⟨front, back, by rw [stripBrackets_eq, hback, hfront]⟩

theorem stripBrackets_eq_self_iff :
    stripBrackets cs = cs ↔ cs.head? ≠ some '[' ∧ cs.getLast? ≠ some ']' := by
  rw [← dropWhile_eq_self_iff_head?, ← rdropWhile_eq_self_iff_getLast?, stripBrackets_eq]
  constructor
  · intro h
    have hdrop : cs.dropWhile (· = '[') = cs := by
      apply (List.dropWhile_suffix _).eq_of_length_le
      have hlength := (List.rdropWhile_prefix (· = ']') (cs.dropWhile (· = '['))).length_le
      rwa [h] at hlength
    rw [hdrop] at h
    exact ⟨hdrop, h⟩
  · rintro ⟨hdrop, h⟩
    rw [hdrop, h]

end Brackets

/-! ## Naming a host by its text -/

section Again

variable {host again : Host}

/-- A domain name stays if it has no brackets to lose and is no IPv6 address, which would get some,
or if it is such an address and gets back the brackets that it has lost. -/
theorem chars_eq_iff_of_domain {name : String}
    (h : ofChars (stripBrackets name.toList) = .ok again) :
    again.chars = name.toList ↔ (Host.domain name).Stable := by
  have hbracketed : ∀ {ip : Ipv6}, name.toList = (Host.v6 ip).chars →
      Ipv6.ofText? (stripBrackets name.toList) = some ip := by
    intro ip hname
    rw [hname, stripBrackets_chars_v6, ip.ofText?_text]
  rw [Stable, ← and_assoc, ← stripBrackets_eq_self_iff]
  rcases cases_of_ofChars h with ⟨ip, rfl, hip⟩ | ⟨ip, rfl, hip⟩ | ⟨rfl, -, hnone⟩
  · -- The text of an IPv4 address is never read as one of the other kind.
    rw [Ipv4.ofText?_eq_some_iff] at hip
    have hnone : Ipv6.ofText? (stripBrackets name.toList) = none := by
      rw [hip, Ipv6.ofText?_v4_text]
    constructor
    · intro hname
      have hself : stripBrackets name.toList = name.toList := hip.trans hname
      exact .inl ⟨hself, hself ▸ hnone⟩
    · rintro (⟨hself, -⟩ | ⟨ip', hname⟩)
      · exact hip.symm.trans hself
      · rw [hbracketed hname] at hnone
        cases hnone
  · constructor
    · intro hname
      exact .inr ⟨ip, hname.symm⟩
    · rintro (⟨hself, hnone⟩ | ⟨ip', hname⟩)
      · rw [hself, hnone] at hip
        cases hip
      · rw [hbracketed hname] at hip
        cases hip
        exact hname.symm
  · rw [chars, String.toList_ofList]
    constructor
    · intro hself
      exact .inl ⟨hself, hself ▸ hnone⟩
    · rintro (⟨hself, -⟩ | ⟨ip, hname⟩)
      · exact hself
      · rw [hbracketed hname] at hnone
        cases hnone

/-- What is named by its own text is what it was, or another one with other text. -/
theorem chars_eq_iff (h : ofChars (stripBrackets host.chars) = .ok again) :
    again.chars = host.chars ↔ host.Stable := by
  cases host with
  | v4 ip =>
    rw [ofChars_chars_v4] at h
    cases h
    exact iff_of_true rfl trivial
  | v6 ip =>
    rw [ofChars_chars_v6] at h
    cases h
    exact iff_of_true rfl trivial
  | domain name => exact chars_eq_iff_of_domain h

/-- Behind its brackets, a host has a text, or it is a domain name that is none. -/
theorem exists_ofChars_chars (hfits : host.Fits) (hne : stripBrackets host.chars ≠ []) :
    ∃ again, ofChars (stripBrackets host.chars) = .ok again := by
  cases host with
  | v4 ip => exact ⟨_, ofChars_chars_v4 ip⟩
  | v6 ip => exact ⟨_, ofChars_chars_v6 ip⟩
  | domain name =>
    obtain ⟨front, back, hname⟩ := exists_stripBrackets name.toList
    have hmost : (encodeUtf8 name.toList).length ≤ 255 := hfits.2
    rw [hname, encodeUtf8_append, encodeUtf8_append, List.length_append, List.length_append]
      at hmost
    refine exists_ofChars (List.length_pos_iff.2 ?_) (by rw [chars]; omega)
    rwa [ne_eq, encodeUtf8_eq_nil_iff]

theorem Stable.stripBrackets_ne_nil (hstable : host.Stable) (hfits : host.Fits) :
    stripBrackets host.chars ≠ [] := by
  have hnone : ofChars [] = .error (.domainLength 0) := rfl
  intro hnil
  cases host with
  | v4 ip =>
    rw [← hnil, ofChars_chars_v4] at hnone
    cases hnone
  | v6 ip =>
    rw [← hnil, ofChars_chars_v6] at hnone
    cases hnone
  | domain name =>
    change stripBrackets name.toList = [] at hnil
    rcases hstable with ⟨hfront, hback, -⟩ | ⟨ip, hname⟩
    · rw [stripBrackets_eq_self_iff.2 ⟨hfront, hback⟩] at hnil
      have hleast : 0 < (encodeUtf8 name.toList).length := hfits.1
      rw [hnil] at hleast
      cases hleast
    · rw [← hnil, hname, ofChars_chars_v6] at hnone
      cases hnone

end Again

end Host

namespace Target

variable {d : Deadline} {p : Peer} {t : Target}

/-- **What is kept when a target is passed on.** Let a target be read off a stream. There is no
header for its text if nothing is left of the host without its brackets. Otherwise there is one, and
what is read from it, in whatever chunks it arrives, has the same number and the host that is named
by what is left. It has the same text exactly if the host is stable, in which case something is
left. -/
theorem encode_text_of_read (hread : (read d p).1 = .ok t) :
    (Host.stripBrackets t.host.chars = [] → encode t.text = .error (.domainLength 0)) ∧
    (Host.stripBrackets t.host.chars ≠ [] → ∃ header again, encode t.text = .ok header ∧
      (∀ {d' : Deadline} {q : Peer} {rest : Bytes} {ending : Ending},
        q.arrival d' = (header ++ rest, ending) →
          ∃ q', read d' q = (.ok again, q') ∧ q'.arrival d' = (rest, ending)) ∧
      again.number = t.number ∧
      Host.ofChars (Host.stripBrackets t.host.chars) = .ok again.host ∧
      (again.text = t.text ↔ t.host.Stable)) ∧
    (t.host.Stable → Host.stripBrackets t.host.chars ≠ []) := by
  obtain ⟨head, -, hhead⟩ := exists_laidOut_of_read hread
  have hfits := (laidOut_iff.1 hhead).1
  refine ⟨?_, ?_, fun hstable => hstable.stripBrackets_ne_nil hfits⟩
  · intro hnil
    rw [encode, ofText_text_eq_map, hnil]
    rfl
  · intro hne
    obtain ⟨host, hhost⟩ := Host.exists_ofChars_chars hfits hne
    have hagain : Host.ofChars (Host.stripBrackets host.chars) = .ok host ∧ host.Fits :=
      Host.ofChars_chars hhost
    refine ⟨(Target.mk host t.number).header, ⟨host, t.number⟩, ?_, ?_, rfl, hhost, ?_⟩
    · rw [encode, ofText_text_eq_map, hhost]
      rfl
    · intro d' q rest ending hq
      obtain ⟨q', hq', hgives⟩ := read_header hagain.2 (Peer.isPrefix_of_arrival hq)
      exact ⟨q', hq', hgives.arrival d'.within_refl hq⟩
    · rw [← Host.chars_eq_iff hhost, text, text, String.ofList_inj, List.append_left_inj]

/-- A name that stays, one that loses a bracket, and one that has nothing else. -/
theorem encode_text_of_read_names :
    (∃ (header : Bytes) (again : Target), encode (Target.mk (.domain "a.b") 80).text = .ok header ∧
      (∀ {d : Deadline} {q : Peer} {rest : Bytes} {ending : Ending},
        q.arrival d = (header ++ rest, ending) →
          ∃ q', read d q = (.ok again, q') ∧ q'.arrival d = (rest, ending)) ∧
      again.text = (Target.mk (.domain "a.b") 80).text) ∧
    (∃ (header : Bytes) (again : Target), encode (Target.mk (.domain "[x") 80).text = .ok header ∧
      again.text ≠ (Target.mk (.domain "[x") 80).text) ∧
    encode (Target.mk (.domain "[") 80).text = .error (.domainLength 0) := by
  have hstays : (read none (Peer.ofChunks [[3, 3, 97, 46, 98, 0, 80]])).1 =
      .ok ⟨.domain "a.b", 80⟩ := read_ofChunks ⟨by decide, by decide⟩ rfl
  have hloses : (read none (Peer.ofChunks [[3, 2, 91, 120, 0, 80]])).1 =
      .ok ⟨.domain "[x", 80⟩ := read_ofChunks ⟨by decide, by decide⟩ rfl
  have hnothing : (read none (Peer.ofChunks [[3, 1, 91, 0, 80]])).1 =
      .ok ⟨.domain "[", 80⟩ := read_ofChunks ⟨by decide, by decide⟩ rfl
  refine ⟨?_, ?_, ?_⟩
  · have hstable : (Host.domain "a.b").Stable := .inl ⟨by decide, by decide, rfl⟩
    obtain ⟨header, again, hencode, hread, -, -, htext⟩ :=
      (encode_text_of_read hstays).2.1 ((encode_text_of_read hstays).2.2 hstable)
    exact ⟨header, again, hencode, hread, htext.2 hstable⟩
  · obtain ⟨header, again, hencode, -, -, -, htext⟩ :=
      (encode_text_of_read hloses).2.1 (by decide)
    refine ⟨header, again, hencode, fun hsame => ?_⟩
    rcases htext.1 hsame with ⟨hfront, -⟩ | ⟨ip, hname⟩
    · exact hfront rfl
    · have hlast : some 'x' = some ']' :=
        (congrArg List.getLast? hname).trans (List.getLast?_concat (l := '[' :: ip.text))
      cases hlast
  · exact (encode_text_of_read hnothing).1 rfl

/-- A name that begins with a bracket comes back without it, one that is an IPv6 address comes back
in brackets, and a single bracket does not come back. -/
theorem encode_text_brackets :
    ((read none (Peer.ofChunks [[3, 2, 91, 120, 0, 80]])).1 = .ok ⟨.domain "[x", 80⟩ ∧
      (Target.mk (.domain "[x") 80).text = "[x:80" ∧
      encode "[x:80" = .ok [3, 1, 120, 0, 80] ∧
      (read none (Peer.ofChunks [[3, 1, 120, 0, 80]])).1 = .ok ⟨.domain "x", 80⟩ ∧
      (Target.mk (.domain "x") 80).text ≠ "[x:80") ∧
    ((read none (Peer.ofChunks [[3, 3, 58, 58, 49, 0, 80]])).1 = .ok ⟨.domain "::1", 80⟩ ∧
      (Target.mk (.domain "::1") 80).text = "::1:80" ∧
      encode "::1:80" = .ok [4, 0, 0, 0, 0, 0, 0, 0, 0, 0, 0, 0, 0, 0, 0, 0, 1, 0, 80] ∧
      (read none (Peer.ofChunks
          [[4, 0, 0, 0, 0, 0, 0, 0, 0, 0, 0, 0, 0, 0, 0, 0, 1, 0, 80]])).1 =
        .ok ⟨.v6 ⟨[0, 0, 0, 0, 0, 0, 0, 1], rfl⟩, 80⟩ ∧
      (Target.mk (.v6 ⟨[0, 0, 0, 0, 0, 0, 0, 1], rfl⟩) 80).text ≠ "::1:80") ∧
    ((read none (Peer.ofChunks [[3, 1, 91, 0, 80]])).1 = .ok ⟨.domain "[", 80⟩ ∧
      (Target.mk (.domain "[") 80).text = "[:80" ∧
      encode "[:80" = .error (.domainLength 0)) := by
  have hnumber : decimal (80 : UInt16).toNat = ['8', '0'] := by
    simp [decimal]
  simp only [text, hnumber]
  refine ⟨⟨?_, rfl, rfl, ?_, by decide⟩, ⟨?_, rfl, rfl, ?_, by decide⟩, ?_, rfl, rfl⟩
  · exact read_ofChunks ⟨by decide, by decide⟩ rfl
  · exact read_ofChunks ⟨by decide, by decide⟩ rfl
  · exact read_ofChunks ⟨by decide, by decide⟩ rfl
  · exact read_ofChunks trivial rfl
  · exact read_ofChunks ⟨by decide, by decide⟩ rfl

end Target

end Camouflage
