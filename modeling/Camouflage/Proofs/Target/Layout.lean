import Camouflage.Proofs.Stream.Shortfall
import Camouflage.Proofs.Target.Header
import Camouflage.Proofs.Text.Decoding

/-!
# What a header is

A header has one of three layouts, told apart by its first byte (`Host.LaidOut`, `Target.LaidOut`).
Bytes begin with a header, begin with something that is refused (`Target.Refused`), or end before
either is complete (`Target.Incomplete`); there is nothing else (`cases_of_bytes`). Reading tells
these apart by what arrives and how that ends, whatever the chunks are, and takes what it has
decided about and nothing behind it (`read_of_arrival`).
-/

namespace Camouflage

open Text

namespace Ipv6

theorem length_groupsOfBytes : ∀ bs : Bytes, (groupsOfBytes bs).length = bs.length / 2
  | [] => rfl
  | [byte] => by simp [groupsOfBytes]
  | high :: low :: bs => by
    rw [groupsOfBytes, List.length_cons, length_groupsOfBytes bs, List.length_cons,
      List.length_cons]
    omega

/-- Of an even number of bytes, none is left over. -/
theorem flatMap_groupsOfBytes :
    ∀ {bs : Bytes}, bs.length % 2 = 0 → (groupsOfBytes bs).flatMap Bytes.ofUInt16 = bs
  | [], _ => rfl
  | high :: low :: bs, h => by
    have hrest : bs.length % 2 = 0 := by
      rw [List.length_cons, List.length_cons] at h
      omega
    rw [groupsOfBytes, List.flatMap_cons, flatMap_groupsOfBytes hrest,
      ← Bytes.toUInt16_eq_iff.1 rfl]
    rfl

/-- The address that sixteen bytes spell. -/
def ofBytes (address : Bytes) (h : address.length = 16) : Ipv6 :=
  ⟨groupsOfBytes address, by rw [length_groupsOfBytes, h]⟩

theorem bytes_ofBytes {address : Bytes} (h : address.length = 16) :
    (ofBytes address h).bytes = address :=
  flatMap_groupsOfBytes (by rw [h])

end Ipv6

/-! ## Layouts -/

/-- The bytes of a host: a type byte and four bytes, a type byte and sixteen, or a type byte, a
length that is not zero and so many bytes of UTF-8. -/
inductive Host.LaidOut : Bytes → Host → Prop
  | v4 (a b c d : UInt8) : LaidOut [0x01, a, b, c, d] (.v4 ⟨a, b, c, d⟩)
  | v6 {address : Bytes} (h : address.length = 16) :
    LaidOut (0x04 :: address) (.v6 (Ipv6.ofBytes address h))
  | domain {size : UInt8} {name : String} : size ≠ 0 → (utf8 name).length = size.toNat →
    LaidOut (0x03 :: size :: utf8 name) (.domain name)

namespace Target

/-- The bytes of a target: those of its host and two of its number, the high one first. -/
inductive LaidOut : Bytes → Target → Prop
  | behind {head : Bytes} {host : Host} (high low : UInt8) : Host.LaidOut head host →
    LaidOut (head ++ [high, low]) ⟨host, Bytes.toUInt16 high low⟩

/-- The bytes at whose end a header is refused, and why it is. -/
inductive Refused : Bytes → TargetFault → Prop
  | addressType {byte : UInt8} : byte ≠ 0x01 → byte ≠ 0x03 → byte ≠ 0x04 →
    Refused [byte] (.addressType byte)
  | domainLength : Refused [0x03, 0x00] (.domainLength 0)
  | domainName {size : UInt8} {name : Bytes} {cause : Utf8.Fault} : size ≠ 0 →
    name.length = size.toNat → decodeUtf8 name = .error cause →
    Refused (0x03 :: size :: name) (.domainName cause)

/-- Bytes that end inside a header, and the fault that says so if nothing follows them. -/
inductive Incomplete : Bytes → IoFault → Prop
  | type : Incomplete [] (.ofKind .unexpectedEof)
  | v4 {part : Bytes} : part.length < 4 → Incomplete (0x01 :: part) .earlyEnd
  | v6 {part : Bytes} : part.length < 16 → Incomplete (0x04 :: part) .earlyEnd
  | size : Incomplete [0x03] (.ofKind .unexpectedEof)
  | domain {size : UInt8} {part : Bytes} : size ≠ 0 → part.length < size.toNat →
    Incomplete (0x03 :: size :: part) .earlyEnd
  | number {head part : Bytes} {host : Host} : Host.LaidOut head host → part.length < 2 →
    Incomplete (head ++ part) (.ofKind .unexpectedEof)

end Target

section Layouts

variable {head bytes : Bytes} {host : Host} {t : Target} {short : IoFault}

/-- Laid out are the hosts that fit into a header, in the way they are written there. -/
theorem Host.laidOut_iff : Host.LaidOut head host ↔ host.Fits ∧ head = host.header := by
  constructor
  · rintro (⟨a, b, c, d⟩ | ⟨h⟩ | ⟨hsize, hname⟩)
    · exact ⟨trivial, rfl⟩
    · exact ⟨trivial, by rw [Host.header, Ipv6.bytes_ofBytes]⟩
    · rename_i size name
      have hpos : size.toNat ≠ 0 := fun h => hsize (UInt8.toNat_inj.1 h)
      have hle := size.toNat_lt
      refine ⟨⟨by omega, by omega⟩, ?_⟩
      rw [Host.header, hname, UInt8.ofNat_toNat]
  · rintro ⟨hfits, rfl⟩
    cases host with
    | v4 ip => exact .v4 ip.a ip.b ip.c ip.d
    | v6 ip =>
      have hip : Ipv6.ofBytes ip.bytes ip.length_bytes = ip := by
        have hgroups := Ipv6.groupsOfBytes_flatMap ip.groups
        unfold Ipv6.ofBytes Ipv6.bytes
        simp only [hgroups]
      rw [Host.header, ← hip, Ipv6.bytes_ofBytes]
      exact .v6 ip.length_bytes
    | domain name =>
      have hcount : (UInt8.ofNat (utf8 name).length).toNat = (utf8 name).length :=
        Utf8.toNat_ofNat (Nat.lt_of_le_of_lt hfits.2 (by decide))
      refine .domain (fun hzero => ?_) hcount.symm
      rw [hzero] at hcount
      exact absurd hcount (Nat.ne_of_lt hfits.1)

theorem Target.laidOut_iff : LaidOut head t ↔ t.host.Fits ∧ head = t.header := by
  constructor
  · rintro ⟨high, low, hhost⟩
    obtain ⟨hfits, rfl⟩ := Host.laidOut_iff.1 hhost
    exact ⟨hfits, by rw [Target.header, Bytes.toUInt16_eq_iff.1 rfl]⟩
  · rintro ⟨hfits, rfl⟩
    obtain ⟨host, n⟩ := t
    have hheader := LaidOut.behind (UInt8.ofNat (n.toNat / 256)) (UInt8.ofNat (n.toNat % 256))
      (Host.laidOut_iff.2 ⟨hfits, rfl⟩)
    rwa [Bytes.toUInt16_ofNat_div_mod] at hheader

theorem Target.Incomplete.kind (h : Target.Incomplete bytes short) :
    short.kind = .unexpectedEof := by
  cases h <;> rfl

end Layouts

/-! ## Nothing else -/

namespace Target

/-- A domain name that is no text is refused at its end. -/
theorem exists_refused {size : UInt8} {name : Bytes} (hsize : size ≠ 0)
    (hlength : name.length = size.toNat) (hname : ∀ text, utf8 text ≠ name) :
    ∃ cause, Refused (0x03 :: size :: name) (.domainName cause) := by
  cases hdecode : decodeUtf8 name with
  | error cause => exact ⟨cause, .domainName hsize hlength hdecode⟩
  | ok cs =>
    have htext : utf8 (String.ofList cs) = name := by
      rw [utf8, String.toList_ofList, decodeUtf8_eq_ok_iff.1 hdecode]
    exact absurd htext (hname _)

/-- How bytes that begin with a host go on. -/
theorem cases_of_host {head : Bytes} {host : Host} (h : Host.LaidOut head host) (rest : Bytes) :
    (∃ number t, number <+: rest ∧ LaidOut (head ++ number) t) ∨
      Incomplete (head ++ rest) (.ofKind .unexpectedEof) := by
  match rest with
  | high :: low :: rest => exact .inl ⟨[high, low], _, ⟨rest, rfl⟩, .behind high low h⟩
  | [high] => exact .inr (.number h (by simp))
  | [] => exact .inr (.number h (by simp))

/-- Bytes begin with a header, begin with something refused, or end before either. -/
theorem cases_of_bytes (bytes : Bytes) :
    (∃ head t, head <+: bytes ∧ LaidOut head t) ∨
      (∃ head cause, head <+: bytes ∧ Refused head cause) ∨
      ∃ short, Incomplete bytes short := by
  have hbehind : ∀ {head : Bytes} {host : Host} (rest : Bytes), Host.LaidOut head host →
      (∃ head' t, head' <+: head ++ rest ∧ LaidOut head' t) ∨
        (∃ head' cause, head' <+: head ++ rest ∧ Refused head' cause) ∨
        ∃ short, Incomplete (head ++ rest) short := by
    intro head host rest hhost
    rcases cases_of_host hhost rest with ⟨number, t, hnumber, ht⟩ | hshort
    · exact .inl ⟨head ++ number, t, (List.prefix_append_right_inj head).2 hnumber, ht⟩
    · exact .inr (.inr ⟨_, hshort⟩)
  match bytes with
  | [] => exact .inr (.inr ⟨_, .type⟩)
  | byte :: bytes =>
    by_cases hv4 : byte = 0x01
    · subst hv4
      match bytes with
      | a :: b :: c :: d :: rest => exact hbehind rest (.v4 a b c d)
      | [a, b, c] => exact .inr (.inr ⟨_, .v4 (by simp)⟩)
      | [a, b] => exact .inr (.inr ⟨_, .v4 (by simp)⟩)
      | [a] => exact .inr (.inr ⟨_, .v4 (by simp)⟩)
      | [] => exact .inr (.inr ⟨_, .v4 (by simp)⟩)
    by_cases hv6 : byte = 0x04
    · subst hv6
      rcases Nat.lt_or_ge bytes.length 16 with hlt | hle
      · exact .inr (.inr ⟨_, .v6 hlt⟩)
      · have hcases := hbehind (bytes.drop 16) (.v6 (List.length_take_of_le hle))
        rwa [List.cons_append, List.take_append_drop] at hcases
    by_cases hdomain : byte = 0x03
    · subst hdomain
      match bytes with
      | [] => exact .inr (.inr ⟨_, .size⟩)
      | size :: bytes =>
        by_cases hsize : size = 0
        · subst hsize
          exact .inr (.inl ⟨_, _, ⟨bytes, rfl⟩, .domainLength⟩)
        rcases Nat.lt_or_ge bytes.length size.toNat with hlt | hle
        · exact .inr (.inr ⟨_, .domain hsize hlt⟩)
        have hlength : (bytes.take size.toNat).length = size.toNat := List.length_take_of_le hle
        by_cases hname : ∃ name, utf8 name = bytes.take size.toNat
        · obtain ⟨name, hname⟩ := hname
          have hcases := hbehind (bytes.drop size.toNat) (.domain hsize (hname ▸ hlength))
          rwa [List.cons_append, List.cons_append, hname, List.take_append_drop] at hcases
        · obtain ⟨cause, hcause⟩ := exists_refused hsize hlength (not_exists.1 hname)
          refine .inr (.inl ⟨_, _, ⟨bytes.drop size.toNat, ?_⟩, hcause⟩)
          rw [List.cons_append, List.cons_append, List.take_append_drop]
    · exact .inr (.inl ⟨_, _, ⟨bytes, rfl⟩, .addressType hv4 hdomain hv6⟩)

end Target

/-! ## Reading -/

/-- How reading a header ends that meets the end of what arrives. -/
def Ending.cutShort (short : IoFault) : Ending → Reply Fault Target
  | .closed => .fault (.io short)
  | .failed cause => .fault (.io cause)
  | .overdue => .expired

theorem Ending.cutShort_ne_ok (short : IoFault) (ending : Ending) (t : Target) :
    ending.cutShort short ≠ .ok t := by
  cases ending <;> exact nofun

namespace Target

variable {d : Deadline} {p : Peer} {head bytes rest : Bytes} {ending : Ending}

theorem readByte_of_arrival {byte : UInt8} (h : p.arrival d = (byte :: rest, ending)) :
    ∃ p', Duplex.readNumber 1 d p = (.ok [byte], p') ∧ p.Gives d [byte] p' ∧
      p'.arrival d = (rest, ending) := by
  have h' : p.arrival d = ([byte] ++ rest, ending) := h
  obtain ⟨p', hread, hgives, -⟩ :=
    Peer.readNumber_of_append (n := 1) rfl (Peer.isPrefix_of_arrival_eq h')
  exact ⟨p', hread, hgives, hgives.arrival d.within_refl h'⟩

theorem thenRead_of_lt {short : IoFault} {n : Nat} {next : Bytes → Peer → Reply Fault Target × Peer}
    (h : p.arrival d = (bytes, ending)) (hshort : bytes.length < n) :
    (thenRead (Duplex.readMore short d n [] p) next).1 = ending.cutShort short := by
  have hlt : (p.arrival d).1.length < n := by rwa [h]
  obtain ⟨p', hread, -⟩ := Peer.readMore_of_lt short [] hlt
  rw [hread, h]
  cases ending <;> rfl

theorem read_of_laidOut {t : Target} (ht : LaidOut head t) (h : head <+: (p.arrival d).1) :
    ∃ p', read d p = (.ok t, p') ∧ p.Gives d head p' := by
  obtain ⟨hfits, rfl⟩ := laidOut_iff.1 ht
  exact read_header hfits h

theorem read_of_refused {cause : TargetFault} (hcause : Refused head cause)
    (h : head <+: (p.arrival d).1) :
    ∃ p', read d p = (.fault cause.fault, p') ∧ p.Gives d head p' := by
  cases hcause with
  | @addressType byte hv4 hdomain hv6 =>
    change [byte] ++ [] <+: _ at h
    obtain ⟨p₁, htype, hgives, -⟩ := Peer.readNumber_of_append (n := 1) rfl h
    refine ⟨p₁, ?_, hgives⟩
    simp only [read, htype, thenRead, List.getD_cons_zero]
  | domainLength =>
    change [0x03] ++ ([0x00] ++ []) <+: (p.arrival d).1 at h
    obtain ⟨p₁, htype, hgives₁, h₁⟩ := Peer.readNumber_of_append (n := 1) rfl h
    obtain ⟨p₂, hsize, hgives₂, -⟩ := Peer.readNumber_of_append (n := 1) rfl h₁
    refine ⟨p₂, ?_, hgives₁.append hgives₂⟩
    simp only [read, htype, thenRead, List.getD_cons_zero, hsize]
    rfl
  | @domainName size name cause hsize hlength hdecode =>
    rw [← List.append_nil name] at h
    change [0x03] ++ ([size] ++ (name ++ [])) <+: _ at h
    obtain ⟨p₁, htype, hgives₁, h₁⟩ := Peer.readNumber_of_append (n := 1) rfl h
    obtain ⟨p₂, hcount, hgives₂, h₂⟩ := Peer.readNumber_of_append (n := 1) rfl h₁
    obtain ⟨p₃, hname, hgives₃, -⟩ := Peer.readExact_of_append hlength h₂
    refine ⟨p₃, ?_, hgives₁.append (hgives₂.append hgives₃)⟩
    have hne : size.toNat ≠ 0 := fun h => hsize (UInt8.toNat_inj.1 h)
    simp only [read, htype, thenRead, List.getD_cons_zero, hcount, readDomain, if_neg hne, hname,
      hdecode]

theorem read_of_incomplete {short : IoFault} (hshort : Incomplete bytes short)
    (h : p.arrival d = (bytes, ending)) : (read d p).1 = ending.cutShort short := by
  cases hshort with
  | type => exact thenRead_of_lt h Nat.zero_lt_one
  | v4 hpart =>
    obtain ⟨p', htype, -, h'⟩ := readByte_of_arrival h
    simp only [read, htype, thenRead, List.getD_cons_zero]
    exact thenRead_of_lt h' hpart
  | v6 hpart =>
    obtain ⟨p', htype, -, h'⟩ := readByte_of_arrival h
    simp only [read, htype, thenRead, List.getD_cons_zero]
    exact thenRead_of_lt h' hpart
  | size =>
    obtain ⟨p', htype, -, h'⟩ := readByte_of_arrival h
    simp only [read, htype, thenRead, List.getD_cons_zero]
    exact thenRead_of_lt h' Nat.zero_lt_one
  | @domain size part hsize hpart =>
    obtain ⟨p₁, htype, -, h₁⟩ := readByte_of_arrival h
    obtain ⟨p₂, hcount, -, h₂⟩ := readByte_of_arrival h₁
    have hne : size.toNat ≠ 0 := fun h => hsize (UInt8.toNat_inj.1 h)
    simp only [read, htype, thenRead, List.getD_cons_zero, hcount, readDomain, if_neg hne]
    exact thenRead_of_lt h₂ hpart
  | @number head part host hhost hpart =>
    obtain ⟨hfits, rfl⟩ := Host.laidOut_iff.1 hhost
    obtain ⟨p', hread, hgives, -⟩ :=
      read_of_host_isPrefix hfits (Peer.isPrefix_of_arrival_eq h)
    rw [hread]
    exact thenRead_of_lt (hgives.arrival d.within_refl h) hpart

/-- A part of a header ends inside it. Reading could not tell apart what ends at two places. -/
theorem LaidOut.incomplete {more : Bytes} {t : Target} (ht : LaidOut (bytes ++ more) t)
    (hmore : more ≠ []) : ∃ short, Incomplete bytes short := by
  have hprefix := Peer.isPrefix_arrival_singleton (bytes ++ more) none
  obtain ⟨p, hread, hgives⟩ := read_of_laidOut ht hprefix
  have hfront : bytes <+: bytes ++ more := List.prefix_append bytes more
  rcases cases_of_bytes bytes with ⟨head, t', hhead, ht'⟩ | ⟨head, cause, hhead, hcause⟩ | hshort
  · obtain ⟨p', hread', hgives'⟩ := read_of_laidOut ht' ((hhead.trans hfront).trans hprefix)
    obtain ⟨-, rfl⟩ := Prod.mk.inj (hread.symm.trans hread')
    have hsame : head = bytes ++ more := Peer.Gives.unique hgives' hgives
    have hlength := hhead.length_le
    rw [hsame, List.length_append] at hlength
    exact absurd (List.length_pos_iff.2 hmore) (by omega)
  · obtain ⟨p', hread', -⟩ := read_of_refused hcause ((hhead.trans hfront).trans hprefix)
    cases hread.symm.trans hread'
  · exact hshort

/-- What reading gives depends on what arrives and how it ends only. -/
theorem read_congr {d' : Deadline} {q : Peer} (h : q.arrival d' = p.arrival d) :
    (read d' q).1 = (read d p).1 := by
  rcases cases_of_bytes (p.arrival d).1 with
    ⟨head, t, hhead, ht⟩ | ⟨head, cause, hhead, hcause⟩ | ⟨short, hshort⟩
  · obtain ⟨p', hread, -⟩ := read_of_laidOut ht hhead
    obtain ⟨q', hread', -⟩ := read_of_laidOut ht (h ▸ hhead)
    rw [hread, hread']
  · obtain ⟨p', hread, -⟩ := read_of_refused hcause hhead
    obtain ⟨q', hread', -⟩ := read_of_refused hcause (h ▸ hhead)
    rw [hread, hread']
  · rw [read_of_incomplete hshort rfl, read_of_incomplete hshort h]

/-- If a target is read, its header has arrived. -/
theorem exists_laidOut_of_read {t : Target} (h : (read d p).1 = .ok t) :
    ∃ head, head <+: (p.arrival d).1 ∧ LaidOut head t := by
  rcases cases_of_bytes (p.arrival d).1 with
    ⟨head, t', hhead, ht⟩ | ⟨head, cause, hhead, hcause⟩ | ⟨short, hshort⟩
  · obtain ⟨p', hread, -⟩ := read_of_laidOut ht hhead
    rw [hread] at h
    cases h
    exact ⟨head, hhead, ht⟩
  · obtain ⟨p', hread, -⟩ := read_of_refused hcause hhead
    rw [hread] at h
    cases h
  · rw [read_of_incomplete hshort rfl] at h
    exact absurd h (Ending.cutShort_ne_ok short _ t)

/-- **Headers are read exactly.** Let `bytes` arrive and end in a certain way. A target is read
exactly if they begin with its header, and a header is refused if they begin with what is refused
for that reason; in both cases the bytes it took to decide are taken, and not a byte behind them. If
they end inside a header, reading fails with their end. The chunks they come in play no part. -/
theorem read_of_arrival (h : p.arrival d = (bytes, ending)) :
    (∀ t, (read d p).1 = .ok t ↔ ∃ head, head <+: bytes ∧ LaidOut head t) ∧
    (∀ head t, head <+: bytes → LaidOut head t → p.Gives d head (read d p).2) ∧
    (∀ head cause, head <+: bytes → Refused head cause →
      (read d p).1 = .fault cause.fault ∧ p.Gives d head (read d p).2) ∧
    (∀ more t, more ≠ [] → LaidOut (bytes ++ more) t →
      ∃ short, short.kind = .unexpectedEof ∧ (read d p).1 = ending.cutShort short) ∧
    ∀ (d' : Deadline) (q : Peer),
      q.arrival d' = (bytes, ending) → (read d' q).1 = (read d p).1 := by
  have hfront : ∀ {head}, head <+: bytes → head <+: (p.arrival d).1 := by
    intro head hhead
    rwa [h]
  refine ⟨fun t => ⟨fun hread => ?_, ?_⟩, ?_, ?_, ?_, ?_⟩
  · have hlaid := exists_laidOut_of_read hread
    rwa [h] at hlaid
  · rintro ⟨head, hhead, ht⟩
    obtain ⟨p', hread, -⟩ := read_of_laidOut ht (hfront hhead)
    rw [hread]
  · intro head t hhead ht
    obtain ⟨p', hread, hgives⟩ := read_of_laidOut ht (hfront hhead)
    rwa [hread]
  · intro head cause hhead hcause
    obtain ⟨p', hread, hgives⟩ := read_of_refused hcause (hfront hhead)
    rw [hread]
    exact ⟨rfl, hgives⟩
  · intro more t hmore ht
    obtain ⟨short, hshort⟩ := ht.incomplete hmore
    exact ⟨short, hshort.kind, read_of_incomplete hshort h⟩
  · intro d' q hq
    exact read_congr (hq.trans h.symm)

/-- A header in three chunks with a byte behind it, the same in one, a name that is not UTF-8, and
an address that is cut off. -/
theorem read_of_arrival_chunks :
    ((read none (Peer.ofChunks [[1, 10], [0, 0], [7, 0, 80, 9]])).1 =
        .ok ⟨.v4 ⟨10, 0, 0, 7⟩, 80⟩ ∧
      (Peer.ofChunks [[1, 10], [0, 0], [7, 0, 80, 9]]).Gives none [1, 10, 0, 0, 7, 0, 80]
        (read none (Peer.ofChunks [[1, 10], [0, 0], [7, 0, 80, 9]])).2) ∧
    (read none (Peer.ofChunks [[1, 10, 0, 0, 7, 0, 80, 9]])).1 =
      (read none (Peer.ofChunks [[1, 10], [0, 0], [7, 0, 80, 9]])).1 ∧
    ((read none (Peer.ofChunks [[3, 2, 0xC3], [0x28, 9]])).1 =
        .fault (TargetFault.domainName (.invalid 1 0)).fault ∧
      (Peer.ofChunks [[3, 2, 0xC3], [0x28, 9]]).Gives none [3, 2, 0xC3, 0x28]
        (read none (Peer.ofChunks [[3, 2, 0xC3], [0x28, 9]])).2) ∧
    ∃ short : IoFault, short.kind = .unexpectedEof ∧
      (read none (Peer.ofChunks [[4], [0, 0]])).1 = .fault (.io short) := by
  have hthree : (Peer.ofChunks [[1, 10], [0, 0], [7, 0, 80, 9]]).arrival none =
      ([1, 10, 0, 0, 7, 0, 80, 9], .closed) := rfl
  have hone : (Peer.ofChunks [[1, 10, 0, 0, 7, 0, 80, 9]]).arrival none =
      ([1, 10, 0, 0, 7, 0, 80, 9], .closed) := rfl
  have hbad : (Peer.ofChunks [[3, 2, 0xC3], [0x28, 9]]).arrival none =
      ([3, 2, 0xC3, 0x28, 9], .closed) := rfl
  have hcut : (Peer.ofChunks [[4], [0, 0]]).arrival none = ([4, 0, 0], .closed) := rfl
  have hfront : [1, 10, 0, 0, 7, 0, 80] <+: ([1, 10, 0, 0, 7, 0, 80, 9] : Bytes) := ⟨[9], rfl⟩
  have hv4 : LaidOut [1, 10, 0, 0, 7, 0, 80] ⟨.v4 ⟨10, 0, 0, 7⟩, 80⟩ :=
    LaidOut.behind 0 80 (Host.LaidOut.v4 10 0 0 7)
  have hsixteen : (List.replicate 16 0 : Bytes).length = 16 := rfl
  have hv6 : LaidOut ([4, 0, 0] ++ List.replicate 16 0) ⟨.v6 (Ipv6.ofBytes _ hsixteen), 0⟩ :=
    LaidOut.behind 0 0 (Host.LaidOut.v6 hsixteen)
  refine ⟨⟨?_, ?_⟩, ?_, ?_, ?_⟩
  · exact ((read_of_arrival hthree).1 _).2 ⟨_, hfront, hv4⟩
  · exact (read_of_arrival hthree).2.1 _ _ hfront hv4
  · exact (read_of_arrival hthree).2.2.2.2 none _ hone
  · exact (read_of_arrival hbad).2.2.1 _ _ ⟨[9], rfl⟩ (.domainName (by decide) rfl rfl)
  · exact (read_of_arrival hcut).2.2.2.1 _ _ (by decide) hv6

end Target

end Camouflage
