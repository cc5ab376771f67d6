import Camouflage.Proofs.Config.Loaders
import Camouflage.Proofs.Tunnel.EndToEnd

/-!
# What a dialer asks for

Of the base of its placeholders, a configuration is only held to be not blank. So there are dialers
whose placeholders have no header: the label that is drawn, a point and the base without closing
brackets at its end must have no more than 255 bytes. If they have not, the header is read as just
these, which is the placeholder if there were no brackets (`request_of_config`).
-/

namespace Camouflage

open Text

/-! ## The base -/

theorem Settings.filled_of_required {t : Settings} {key value : String}
    (h : t.required key = .ok value) : Filled value := by
  unfold required at h
  split at h
  · cases h
  · rename_i cs hcs
    cases h
    unfold filled? at hcs
    split at hcs
    · cases hcs
    · rename_i found _
      split at hcs
      · cases hcs
      · rename_i hne
        obtain rfl := Option.some.inj hcs
        refine ⟨?_, ?_⟩
        · rw [ne_eq, ← String.toList_eq_nil_iff, String.toList_ofList]
          exact fun hnil => hne hnil
        · rw [trimmed, String.toList_ofList, trim_trim]

theorem DialerConfig.filled_base {bs : Bytes} {c : DialerConfig}
    (h : DialerConfig.ofBytes bs = .ok c) : Filled c.base := by
  obtain ⟨-, -, -, hbase, -⟩ := ofSettings_eq_ok_iff.1 h
  exact Settings.filled_of_required hbase

theorem filled_letters {cs : List Char} (hne : cs ≠ []) (hcs : ∀ ch ∈ cs, ch.isAlpha = true) :
    Filled (String.ofList cs) := by
  refine ⟨?_, ?_⟩
  · rwa [ne_eq, ← String.toList_eq_nil_iff, String.toList_ofList]
  · rw [trimmed, String.toList_ofList, trim_of_forall fun ch hch => isBlank_of_isAlpha (hcs ch hch)]

/-! ## The placeholder -/

namespace Placeholder

theorem text_target_eq_iff (label base : String) :
    (target label base).text = withLabel label base ↔ base.toList.getLast? ≠ some ']' := by
  rw [text_target, ← String.toList_inj, toList_withLabel, ← rdropWhile_eq_self_iff_getLast?]
  simp [domainName]

theorem size_letters (label : String) {cs : List Char} (hcs : ∀ ch ∈ cs, ch.isAlpha = true) :
    size label (String.ofList cs) = label.length + 1 + cs.length := by
  have hbracket : ']' ∉ cs := fun hmem => absurd (hcs ']' hmem) (by decide)
  rw [size, String.toList_ofList, rdropWhile_of_forall (Host.ne_of_notMem hbracket),
    length_encodeUtf8_letters hcs]

end Placeholder

/-- **What comes of a base.** The base of a dialer that has been loaded and built is not blank, and
a placeholder can be drawn if letters can be picked; it has a label of 2 to 22 letters in front of
the base. For a placeholder with too long a name there is no header. For every other one there is,
and it is read as the placeholder without the closing brackets at the end of its base, whatever its
chunks are and whatever stands behind it. -/
theorem request_of_config {bs : Bytes} {c : DialerConfig} {d : Dialer}
    (hload : DialerConfig.ofBytes bs = .ok c) (hdialer : Dialer.ofConfig c = .ok d) (s : Source) :
    Filled c.base ∧
    (s.Picks Placeholder.letters.length →
      ∃ placeholder s', (Placeholder.fresh d.base).run s = some (placeholder, s')) ∧
    ∀ placeholder s', (Placeholder.fresh d.base).run s = some (placeholder, s') →
      ∃ label, Placeholder.label.run s = some (label, s') ∧
        (2 ≤ label.length ∧ label.length ≤ 22 ∧ ∀ ch ∈ label.toList, ch.isAlpha = true) ∧
        placeholder = Placeholder.withLabel label c.base ∧
        (255 < Placeholder.size label c.base →
          Target.encode placeholder = .error (.domainLength (Placeholder.size label c.base))) ∧
        (Placeholder.size label c.base ≤ 255 →
          ∃ header target, Target.encode placeholder = .ok header ∧
            (∀ {deadline : Deadline} {peer : Peer} {rest : Bytes} {ending : Ending},
              peer.arrival deadline = (header ++ rest, ending) →
                ∃ peer', Target.read deadline peer = (.ok target, peer') ∧
                  peer'.arrival deadline = (rest, ending)) ∧
            target.text =
              label ++ "." ++ String.ofList (c.base.toList.rdropWhile (· = ']')) ++ ":443" ∧
            (target.text = placeholder ↔ c.base.toList.getLast? ≠ some ']')) := by
  obtain ⟨-, hbase⟩ := Dialer.wellMade_of_ofConfig hdialer
  rw [hbase]
  refine ⟨DialerConfig.filled_base hload, fun h => Placeholder.exists_run_fresh h c.base, ?_⟩
  intro placeholder s' hfresh
  obtain ⟨label, hdrawn, rfl⟩ := Placeholder.exists_label_of_run_fresh hfresh
  have hlabel := Placeholder.isLabel_of_run_label hdrawn
  refine ⟨label, hdrawn, ⟨hlabel.least, hlabel.most, hlabel.letters⟩, rfl, ?_, ?_⟩
  · intro hlong
    rw [Placeholder.encode_withLabel hlabel, if_pos hlong]
  · intro hshort
    refine ⟨(Placeholder.target label c.base).header, Placeholder.target label c.base, ?_, ?_, ?_,
      Placeholder.text_target_eq_iff label c.base⟩
    · rw [Placeholder.encode_withLabel hlabel, if_neg (Nat.not_lt.2 hshort)]
    · intro deadline peer rest ending hpeer
      obtain ⟨peer', hread, hgives⟩ := Target.read_header (Placeholder.fits_target hlabel hshort)
        (Peer.isPrefix_of_arrival hpeer)
      exact ⟨peer', hread, hgives.arrival deadline.within_refl hpeer⟩
    · rw [Placeholder.text_target, ← String.toList_inj]
      simp [Placeholder.domainName]

/-- A base as it should be, and the label `aa`. -/
theorem request_of_config_plain :
    DialerConfig.ofBytes (utf8 "addr=a:1\ncipher=plain\nupstream=b.c") =
        .ok ⟨"a:1", "", "plain", "b.c", .nothing⟩ ∧
      (∃ placeholder s', (Placeholder.fresh "b.c").run ⟨fun _ => 1, 0⟩ = some (placeholder, s')) ∧
      ∃ header target, Target.encode "aa.b.c:443" = .ok header ∧
        (∀ {deadline : Deadline} {peer : Peer} {rest : Bytes} {ending : Ending},
          peer.arrival deadline = (header ++ rest, ending) →
            ∃ peer', Target.read deadline peer = (.ok target, peer') ∧
              peer'.arrival deadline = (rest, ending)) ∧
        target.text = "aa.b.c:443" := by
  have hload : DialerConfig.ofBytes (utf8 "addr=a:1\ncipher=plain\nupstream=b.c") =
      .ok ⟨"a:1", "", "plain", "b.c", .nothing⟩ := rfl
  have hdialer : Dialer.ofConfig ⟨"a:1", "", "plain", "b.c", .nothing⟩ =
      .ok ⟨"a:1", .nothing, "b.c"⟩ := rfl
  have hdrawn : Placeholder.label.run ⟨fun _ => 1, 0⟩ = some ("aa", ⟨fun _ => 1, 3⟩) := rfl
  have hfresh : (Placeholder.fresh "b.c").run ⟨fun _ => 1, 0⟩ =
      some ("aa.b.c:443", ⟨fun _ => 1, 3⟩) := rfl
  have hword : wordSpan % Placeholder.letters.length ≤
      (1 : UInt32).toNat * Placeholder.letters.length % wordSpan := by
    decide
  have hpicks : (Source.mk (fun _ => 1) 0).Picks Placeholder.letters.length :=
    Source.picks_of_forall_le fun _ => hword
  obtain ⟨-, hreturns, hall⟩ := request_of_config hload hdialer ⟨fun _ => 1, 0⟩
  refine ⟨hload, hreturns hpicks, ?_⟩
  obtain ⟨label, hlabel, -, -, -, hshort⟩ := hall _ _ hfresh
  rw [hdrawn, Option.some.injEq, Prod.mk.injEq] at hlabel
  obtain ⟨rfl, -⟩ := hlabel
  obtain ⟨header, target, hencode, hread, -, htext⟩ := hshort (by decide)
  exact ⟨header, target, hencode, hread, htext.2 (by decide)⟩

/-- A base that ends in a bracket comes back without it, and one of 253 letters cannot be asked
for: configurations with either are accepted. -/
theorem request_of_config_breaks :
    (∃ c d, DialerConfig.ofBytes (utf8 "addr=a:1\ncipher=plain\nupstream=x]") = .ok c ∧
      Dialer.ofConfig c = .ok d ∧
      (Placeholder.fresh d.base).run ⟨fun _ => 1, 0⟩ = some ("aa.x]:443", ⟨fun _ => 1, 3⟩) ∧
      Target.encode "aa.x]:443" = .ok [3, 4, 97, 97, 46, 120, 1, 187] ∧
      (Target.read none (Peer.ofChunks [[3, 4, 97, 97, 46, 120, 1, 187]])).1 =
        .ok ⟨.domain "aa.x", 443⟩ ∧
      (Target.mk (.domain "aa.x") 443).text ≠ "aa.x]:443") ∧
    ∃ bs c d, DialerConfig.ofBytes bs = .ok c ∧ Dialer.ofConfig c = .ok d ∧
      c.base = String.ofList (List.replicate 253 'a') ∧
      ∃ placeholder s', (Placeholder.fresh d.base).run ⟨fun _ => 1, 0⟩ = some (placeholder, s') ∧
        Target.encode placeholder = .error (.domainLength 256) := by
  have hdrawn : Placeholder.label.run ⟨fun _ => 1, 0⟩ = some ("aa", ⟨fun _ => 1, 3⟩) := rfl
  constructor
  · refine ⟨⟨"a:1", "", "plain", "x]", .nothing⟩, ⟨"a:1", .nothing, "x]"⟩, rfl, rfl, rfl, rfl,
      Target.read_ofChunks ⟨by decide, by decide⟩ rfl, ?_⟩
    have hnumber : decimal (443 : UInt16).toNat = ['4', '4', '3'] := by
      simp [decimal]
    rw [Target.text, hnumber]
    decide
  · let base := String.ofList (List.replicate 253 'a')
    have hletters : ∀ ch ∈ List.replicate 253 'a', ch.isAlpha = true := by
      intro ch hch
      rw [List.eq_of_mem_replicate hch]
      rfl
    have hfilled : Filled base := filled_letters (List.cons_ne_nil _ _) hletters
    have hsize : Placeholder.size "aa" base = 256 := by
      rw [Placeholder.size_letters "aa" hletters, List.length_replicate]
      rfl
    let c : DialerConfig := ⟨"a:1", "", "plain", base, .nothing⟩
    have hc : c.Expressible :=
      ⟨⟨by decide, by decide⟩, ⟨by decide, by decide⟩, hfilled, trivial⟩
    have hsays : Settings.Says (c.entries.map fun e => (.entry e.1 e.2, .newline)) c.entries :=
      ⟨.refl _, by simp [c]⟩
    refine ⟨_, c, ⟨"a:1", .nothing, base⟩, DialerConfig.ofBytes_written hc hsays, rfl, rfl,
      Placeholder.withLabel "aa" base, ⟨fun _ => 1, 3⟩, rfl, ?_⟩
    have hlabel := Placeholder.isLabel_of_run_label hdrawn
    rw [Placeholder.encode_withLabel hlabel, hsize]
    rfl

end Camouflage
