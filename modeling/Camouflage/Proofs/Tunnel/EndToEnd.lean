import Camouflage.Tunnel.Listen
import Camouflage.Proofs.Config.Build
import Camouflage.Proofs.Stream.Written
import Camouflage.Proofs.Target.Placeholder
import Camouflage.Proofs.Tunnel.Dial

/-!
# From the dialer to the listener

A dial that succeeds has written its prefix and its header and nothing else
(`Transcript.written`). A listener with the matching policy takes both off and nothing else
(`handle_of_accepts`), whatever the chunks they come in. What the dialer writes afterwards is
what the listener's user reads first.
-/

namespace Camouflage

open Text

/-! ## The listener's side -/

/-- An absorber whose policy accepts some bytes gives the target behind them, if both arrive within
its time limit. -/
theorem PrefixAbsorber.handle_of_accepts {policy : AbsorbPolicy} {timeout : Option Nat}
    {opening : Bytes} {target : Target} {peer : Peer} (hpolicy : policy.Accepts opening)
    (htarget : target.host.Fits)
    (hpeer : opening ++ target.header <+: (peer.arrival (timeout.map (peer.now + ·))).1) :
    ∃ peer', (PrefixAbsorber.mk policy timeout).handle peer = (.ok target, peer') ∧
      peer.Gives (timeout.map (peer.now + ·)) (opening ++ target.header) peer' := by
  obtain ⟨peer₁, habsorb, hgives₁⟩ :=
    PrefixAbsorber.absorb_of_accepts hpolicy ((List.prefix_append _ _).trans hpeer)
  obtain ⟨peer₂, hread, hgives₂⟩ := Target.read_header htarget (hgives₁.isPrefix hpeer)
  refine ⟨peer₂, ?_, hgives₁.append hgives₂⟩
  have hread' : Target.read (timeout.map (Duplex.now peer + ·)) peer₁ = (.ok target, peer₂) := hread
  simp only [PrefixAbsorber.handle, habsorb, hread']

/-! ## The dialer's side -/

namespace Dialer

theorem wellMade_of_ofConfig {c : DialerConfig} {d : Dialer} (h : Dialer.ofConfig c = .ok d) :
    d.maker.WellMade ∧ d.base = c.base := by
  obtain ⟨-, -, h⟩ := bind_eq_ok_iff.1 h
  obtain ⟨maker, hbuild, h⟩ := bind_eq_ok_iff.1 h
  cases h
  exact ⟨PrefixConfig.wellMade_of_build hbuild, rfl⟩

/-- A dial that has succeeded has written the prefix and the header. -/
theorem Transcript.written {d : Dialer} {connect : String → Except IoFault Peer}
    {deadline : Deadline} {prefixes placeholders : Source} {dialed : Dialed Peer}
    {placeholder : String} {opening header : Bytes} {opened begun ended : Peer}
    (h : Transcript d connect deadline prefixes placeholders dialed placeholder opening header
      opened begun ended) : ended.written = opened.written ++ (opening ++ header) := by
  rw [Peer.written_of_writeAll_ok h.asked, Peer.written_of_writeAll_ok h.wrote, List.append_assoc]

end Dialer

/-- **A tunnel comes up.** If a dial succeeds, a listener with the policy that matches the dialer's
maker takes the connection: of the bytes written, in any chunks and with anything behind them, it
takes exactly these and finds the placeholder, with the label of this dial and the base without
closing brackets at its end. -/
theorem handle_dialed {c : DialerConfig} {d : Dialer} {policy : AbsorbPolicy} {s₀ s₁ : Source}
    {connect : String → Except IoFault Peer} {deadline : Deadline} {prefixes placeholders : Source}
    {dialed : Dialed Peer} {placeholder : String} (hconfig : Dialer.ofConfig c = .ok d)
    (hpolicy : d.maker.matchingPolicy.run s₀ = some (some policy, s₁))
    (hdial : d.dial connect deadline prefixes placeholders = some dialed)
    (hok : dialed.reply = .ok placeholder) :
    ∃ opened ended wire label,
      connect d.addr = .ok opened ∧ dialed.stream = some ended ∧
      ended.written = opened.written ++ wire ∧
      Placeholder.label.run placeholders = some (label, dialed.placeholders) ∧
      (2 ≤ label.length ∧ label.length ≤ 22 ∧ ∀ ch ∈ label.toList, ch.isAlpha = true) ∧
      ∀ timeout peer payload ending, Peer.arrival none peer = (wire ++ payload, ending) →
        wire <+: (peer.arrival (timeout.map (peer.now + ·))).1 →
        ∃ target peer', (PrefixAbsorber.mk policy timeout).handle peer = (.ok target, peer') ∧
          target.text =
            label ++ "." ++ String.ofList (c.base.toList.rdropWhile (· = ']')) ++ ":443" ∧
          peer'.arrival none = (payload, ending) := by
  obtain ⟨hmaker, hbase⟩ := Dialer.wellMade_of_ofConfig hconfig
  obtain ⟨opening, header, opened, begun, ended, hsteps⟩ :=
    Dialer.exists_transcript_of_dial hdial hok
  obtain ⟨label, hdrawn, rfl⟩ := Placeholder.exists_label_of_run_fresh hsteps.drawn
  have hlabel := Placeholder.isLabel_of_run_label hdrawn
  obtain ⟨target, rfl, hfits, htext⟩ :=
    Placeholder.exists_of_encode_withLabel hlabel hsteps.encoded
  refine ⟨opened, ended, opening ++ target.header, label, hsteps.connected, hsteps.stream,
    hsteps.written, hdrawn, ⟨hlabel.least, hlabel.most, hlabel.letters⟩, ?_⟩
  intro timeout peer payload ending hpeer hintime
  obtain ⟨peer', hhandle, hgives⟩ :=
    PrefixAbsorber.handle_of_accepts (hmaker.accepts hpolicy hsteps.made) hfits hintime
  refine ⟨target, peer', hhandle, ?_, hgives.arrival (Deadline.within_none _) hpeer⟩
  rw [htext, hbase, ← String.toList_inj]
  simp [Placeholder.domainName]

/-- One byte as prefix and `aa` as label, sent in three chunks with two bytes behind them. The
bracket at the end of the base is gone. -/
theorem handle_dialed_local :
    ∃ target peer', (PrefixAbsorber.mk (.exactly [7]) (some 5)).handle
        (Peer.ofChunks [[7, 3, 8], [97, 97, 46, 108, 111], [99, 97, 108, 1, 187, 9, 9]]) =
      (.ok target, peer') ∧ target.text = "aa.local:443" ∧
      peer'.arrival none = ([9, 9], .closed) := by
  let source : Source := ⟨fun _ => 1, 0⟩
  let connect : String → Except IoFault Peer := fun _ => .ok { incoming := [] }
  let dialer : Dialer := ⟨"", .fixed [7], "local]"⟩
  let header : Bytes := [3, 8, 97, 97, 46, 108, 111, 99, 97, 108, 1, 187]
  have hconfig : Dialer.ofConfig ⟨"", "", "plain", "local]", .hex "07"⟩ = .ok dialer := rfl
  have hpolicy : dialer.maker.matchingPolicy.run source = some (some (.exactly [7]), source) := rfl
  have hdial : dialer.dial connect none source source =
      some ⟨.ok "aa.local]:443", some { incoming := [], written := 7 :: header }, source,
        ⟨fun _ => 1, 3⟩⟩ := by
    have hmade : dialer.maker.make.run source = some (.ok [7], source) := rfl
    have hfresh : (Placeholder.fresh "local]").run ⟨fun _ => 1, 0⟩ =
        some ("aa.local]:443", ⟨fun _ => 1, 3⟩) := rfl
    have hencode : Target.encode "aa.local]:443" = .ok header := rfl
    simp only [Dialer.dial, hmade, connect, Peer.writeAll_of_outgoing_nil, Dialer.request, dialer,
      source, hfresh, hencode, Option.bind_eq_bind, Option.bind_some]
    rfl
  obtain ⟨opened, ended, wire, label, hopened, hended, hwritten, hlabel, -, hhandle⟩ :=
    handle_dialed hconfig hpolicy hdial rfl
  cases hopened
  cases hended
  obtain rfl : 7 :: header = wire := hwritten
  have hdrawn : Placeholder.label.run ⟨fun _ => 1, 0⟩ = some ("aa", ⟨fun _ => 1, 3⟩) := rfl
  rw [hdrawn, Option.some.injEq, Prod.mk.injEq] at hlabel
  obtain ⟨rfl, -⟩ := hlabel
  refine hhandle (some 5) _ [9, 9] .closed (Peer.arrival_ofChunks (by decide) none) ?_
  rw [Peer.arrival_ofChunks (by decide)]
  exact ⟨[9, 9], rfl⟩

end Camouflage
