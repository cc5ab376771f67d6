import Camouflage.Target
import Camouflage.Proofs.Stream.Arrival
import Camouflage.Proofs.Text.Utf8

/-!
# Reading headers

A header is read back as the target that it was written for, and reading stops at its end
(`read_header`). Each part of a header is a whole read of as many bytes as the part has.
-/

namespace Camouflage

open Text

/-- A host that fits into a header: the bytes of a domain name are counted by one byte, and there
is at least one of them. -/
def Host.Fits : Host → Prop
  | .v4 _ => True
  | .v6 _ => True
  | .domain name => 0 < (utf8 name).length ∧ (utf8 name).length ≤ 255

theorem Ipv6.groupsOfBytes_flatMap (groups : List UInt16) :
    Ipv6.groupsOfBytes (groups.flatMap Bytes.ofUInt16) = groups := by
  induction groups with
  | nil => rfl
  | cons g gs ih =>
    rw [List.flatMap_cons, Bytes.ofUInt16, List.cons_append, List.singleton_append,
      Ipv6.groupsOfBytes, Bytes.toUInt16_ofNat_div_mod, ih]

theorem Ipv6.ofBytes?_bytes (ip : Ipv6) : Ipv6.ofBytes? ip.bytes = some ip := by
  have hgroups := Ipv6.groupsOfBytes_flatMap ip.groups
  unfold Ipv6.ofBytes? Ipv6.bytes
  simp only [hgroups, ip.length_groups, ↓reduceDIte]

theorem Ipv6.length_bytes (ip : Ipv6) : ip.bytes.length = 16 := by
  rw [Ipv6.bytes, List.length_flatMap]
  simp [List.map_const', ip.length_groups]

namespace Target

variable {d : Deadline} {p : Peer}

theorem readNumber_of_isPrefix (host : Host) (n : UInt16)
    (h : Bytes.ofUInt16 n <+: (p.arrival d).1) :
    ∃ p', readNumber host d p = (.ok ⟨host, n⟩, p') ∧ p.Gives d (Bytes.ofUInt16 n) p' := by
  rw [← List.append_nil (Bytes.ofUInt16 n)] at h
  obtain ⟨p', hread, hgives, -⟩ := Peer.readNumber_of_append (Bytes.length_ofUInt16 n) h
  refine ⟨p', ?_, hgives⟩
  rw [readNumber, hread]
  simp [thenRead, Bytes.ofUInt16, Bytes.toUInt16_ofNat_div_mod]

theorem readDomain_of_isPrefix {name : String} (hname : (Host.domain name).Fits) {rest : Bytes}
    (h : utf8 name ++ rest <+: (p.arrival d).1) :
    ∃ p', readDomain (utf8 name).length d p = readNumber (.domain name) d p' ∧
      p.Gives d (utf8 name) p' ∧ rest <+: (p'.arrival d).1 := by
  obtain ⟨p', hread, hgives, hrest⟩ := Peer.readExact_of_append rfl h
  refine ⟨p', ?_, hgives, hrest⟩
  have hne : (utf8 name).length ≠ 0 := Nat.ne_of_gt hname.1
  have hdecode : decodeUtf8 (utf8 name) = .ok name.toList := decodeUtf8_encodeUtf8 name.toList
  rw [readDomain, if_neg hne, hread, thenRead, hdecode]
  dsimp only
  rw [String.ofList_toList]

/-- Behind a host, the number is read. -/
theorem read_of_host_isPrefix {host : Host} (hhost : host.Fits) {rest : Bytes}
    (h : host.header ++ rest <+: (p.arrival d).1) :
    ∃ p', read d p = readNumber host d p' ∧ p.Gives d host.header p' ∧
      rest <+: (p'.arrival d).1 := by
  cases host with
  | v4 ip =>
    change [0x01] ++ (ip.bytes ++ rest) <+: _ at h
    obtain ⟨p₁, htype, hgives₁, h₁⟩ := Peer.readNumber_of_append (n := 1) rfl h
    obtain ⟨p₂, hip, hgives₂, h₂⟩ := Peer.readExact_of_append (n := 4) rfl h₁
    refine ⟨p₂, ?_, hgives₁.append hgives₂, h₂⟩
    simp only [read, htype, thenRead, List.getD_cons_zero, hip]
    rfl
  | v6 ip =>
    change [0x04] ++ (ip.bytes ++ rest) <+: _ at h
    obtain ⟨p₁, htype, hgives₁, h₁⟩ := Peer.readNumber_of_append (n := 1) rfl h
    obtain ⟨p₂, hip, hgives₂, h₂⟩ := Peer.readExact_of_append ip.length_bytes h₁
    refine ⟨p₂, ?_, hgives₁.append hgives₂, h₂⟩
    simp only [read, htype, thenRead, List.getD_cons_zero, hip, ip.ofBytes?_bytes]
  | domain name =>
    change [0x03] ++ ([UInt8.ofNat (utf8 name).length] ++ (utf8 name ++ rest)) <+: _ at h
    obtain ⟨p₁, htype, hgives₁, h₁⟩ := Peer.readNumber_of_append (n := 1) rfl h
    obtain ⟨p₂, hsize, hgives₂, h₂⟩ := Peer.readNumber_of_append (n := 1) rfl h₁
    obtain ⟨p₃, hname, hgives₃, h₃⟩ := readDomain_of_isPrefix hhost h₂
    refine ⟨p₃, ?_, hgives₁.append (hgives₂.append hgives₃), h₃⟩
    have hcount : (UInt8.ofNat (utf8 name).length).toNat = (utf8 name).length :=
      Utf8.toNat_ofNat (Nat.lt_of_le_of_lt hhost.2 (by decide))
    simp only [read, htype, thenRead, List.getD_cons_zero, hsize, hcount]
    exact hname

/-- **Reading undoes writing.** A header that arrives in time is read as its target, and not a byte
behind it is taken. -/
theorem read_header {t : Target} (ht : t.host.Fits) (h : t.header <+: (p.arrival d).1) :
    ∃ p', read d p = (.ok t, p') ∧ p.Gives d t.header p' := by
  obtain ⟨p₁, hhost, hgives₁, h₁⟩ := read_of_host_isPrefix ht h
  obtain ⟨p₂, hnumber, hgives₂⟩ := readNumber_of_isPrefix t.host t.number h₁
  exact ⟨p₂, hhost.trans hnumber, hgives₁.append hgives₂⟩

/-- A header that arrives in one chunk. -/
theorem read_ofChunks {t : Target} {bytes : Bytes} (hfits : t.host.Fits)
    (hheader : t.header = bytes) : (read none (Peer.ofChunks [bytes])).1 = .ok t := by
  subst hheader
  obtain ⟨p', hread, -⟩ := read_header hfits (Peer.isPrefix_arrival_singleton t.header none)
  rw [hread]

end Target

end Camouflage
