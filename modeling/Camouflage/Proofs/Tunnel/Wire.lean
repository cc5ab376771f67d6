import Camouflage.Proofs.Stream.Written
import Camouflage.Proofs.Tunnel.Request

/-!
# What a dial writes

Of a dial, the other side gets the front of the prefix and the header behind it. How much it gets
tells how far the dial has come, and so which of the two sources have been drawn from: nothing is
connected to without a prefix, no placeholder is drawn before all of the prefix has been taken, and
the dial is done exactly if all of the header has been taken too (`written_dial`).
-/

namespace Camouflage

/-- The bytes that ask for a placeholder; there are none if it has no header. -/
def Placeholder.header (placeholder : String) : Bytes :=
  (Target.encode placeholder).toOption.getD []

namespace Dialer

section Steps

variable {d : Dialer} {connect : String → Except IoFault Peer} {deadline : Deadline}
  {prefixes placeholders : Source} {dialed : Dialed Peer}

/-- A request adds the front of the header of the placeholder that it draws. -/
theorem written_request {s : Peer}
    (h : d.request deadline s prefixes placeholders = some dialed) :
    dialed.prefixes = prefixes ∧ ∃ placeholder ended front,
      (Placeholder.fresh d.base).run placeholders = some (placeholder, dialed.placeholders) ∧
      dialed.stream = some ended ∧ ended.written = s.written ++ front ∧
      front <+: Placeholder.header placeholder ∧
      ∀ p, dialed.reply = .ok p ↔ p = placeholder ∧ Target.encode placeholder = .ok front := by
  obtain ⟨placeholder, rest, hfresh, ⟨e, hencode, rfl⟩ |
    ⟨header, reply, ended, hencode, hwrite, rfl⟩⟩ := request_eq_some_iff.1 h
  · refine ⟨rfl, placeholder, s, [], hfresh, rfl, (List.append_nil _).symm, List.nil_prefix, ?_⟩
    intro p
    simp [hencode]
  · obtain ⟨front, hfront, hwritten, hdone⟩ := Peer.written_writeAll hwrite
    refine ⟨rfl, placeholder, ended, front, hfresh, rfl, hwritten, ?_, ?_⟩
    · rwa [Placeholder.header, hencode]
    · intro p
      rw [hencode, Except.ok.injEq, eq_comm (a := header), ← hdone]
      cases reply <;> simp [Reply.mapFault, Reply.map, eq_comm]

/-- A dial that is connected adds the front of its prefix, or all of it and what its request
adds. -/
theorem written_of_connected {opening : Bytes} {rest : Source} {opened : Peer}
    (h : d.dial connect deadline prefixes placeholders = some dialed)
    (hmake : d.maker.make.run prefixes = some (.ok opening, rest))
    (hconnect : connect d.addr = .ok opened) :
    dialed.prefixes = rest ∧ ∃ ended accepted,
      dialed.stream = some ended ∧ ended.written = opened.written ++ accepted ∧
      ((Duplex.writeAll opening deadline opened).1 ≠ .ok () ∧ accepted <+: opening ∧
          accepted ≠ opening ∧ dialed.placeholders = placeholders ∨
        (Duplex.writeAll opening deadline opened).1 = .ok () ∧ ∃ placeholder front,
          (Placeholder.fresh d.base).run placeholders = some (placeholder, dialed.placeholders) ∧
          accepted = opening ++ front ∧ front <+: Placeholder.header placeholder ∧
          ∀ p, dialed.reply = .ok p ↔ p = placeholder ∧ Target.encode placeholder = .ok front) := by
  cases dial_eq_some_iff.1 h with
  | unmade hmake' => cases hmake.symm.trans hmake'
  | unconnected hmake' hconnect' => cases hconnect.symm.trans hconnect'
  | broken hmake' hconnect' hwrite =>
    cases hmake.symm.trans hmake'
    cases hconnect.symm.trans hconnect'
    obtain ⟨front, hfront, hne, hwritten⟩ := Peer.written_of_writeAll_ne_ok hwrite (by simp)
    exact ⟨rfl, _, front, rfl, hwritten, .inl ⟨by simp [hwrite], hfront, hne, rfl⟩⟩
  | stalled hmake' hconnect' hwrite =>
    cases hmake.symm.trans hmake'
    cases hconnect.symm.trans hconnect'
    obtain ⟨front, hfront, hne, hwritten⟩ := Peer.written_of_writeAll_ne_ok hwrite (by simp)
    exact ⟨rfl, _, front, rfl, hwritten, .inl ⟨by simp [hwrite], hfront, hne, rfl⟩⟩
  | requested hmake' hconnect' hwrite hrequest =>
    cases hmake.symm.trans hmake'
    cases hconnect.symm.trans hconnect'
    obtain ⟨hprefixes, placeholder, ended, front, hfresh, hstream, hwritten, hfront, hreply⟩ :=
      written_request hrequest
    refine ⟨hprefixes, ended, opening ++ front, hstream, ?_, .inr ⟨by rw [hwrite], placeholder,
      front, hfresh, rfl, hfront, hreply⟩⟩
    rw [hwritten, Peer.written_of_writeAll_ok hwrite, List.append_assoc]

/-- A dial is done exactly if the prefix and the header are there and all their bytes have been
taken. -/
theorem reply_eq_ok_iff (h : d.dial connect deadline prefixes placeholders = some dialed)
    {placeholder : String} : dialed.reply = .ok placeholder ↔
      ∃ opening rest header rest' opened ended,
        d.maker.make.run prefixes = some (.ok opening, rest) ∧
        (Placeholder.fresh d.base).run placeholders = some (placeholder, rest') ∧
        Target.encode placeholder = .ok header ∧ connect d.addr = .ok opened ∧
        dialed.stream = some ended ∧ ended.written = opened.written ++ opening ++ header := by
  constructor
  · intro hok
    obtain ⟨opening, header, opened, begun, ended, htranscript⟩ := exists_transcript_of_dial h hok
    refine ⟨opening, _, header, _, opened, ended, htranscript.made, htranscript.drawn,
      htranscript.encoded, htranscript.connected, htranscript.stream, ?_⟩
    rw [htranscript.written, List.append_assoc]
  · rintro ⟨opening, rest, header, rest', opened, ended, hmake, hfresh, hencode, hconnect,
      hstream, hwritten⟩
    obtain ⟨-, ended', accepted, hstream', hwritten', hends⟩ :=
      written_of_connected h hmake hconnect
    obtain rfl := Option.some.inj (hstream'.symm.trans hstream)
    rw [hwritten', List.append_assoc, List.append_right_inj] at hwritten
    rcases hends with ⟨-, hfront, hne, -⟩ | ⟨-, name, front, hfresh', haccepted, -, hreply⟩
    · -- a part of the prefix is shorter than the prefix and the header
      refine absurd (hfront.eq_of_length_le ?_) hne
      rw [hwritten]
      exact (List.prefix_append opening header).length_le
    · rw [haccepted, List.append_right_inj] at hwritten
      cases hfresh.symm.trans hfresh'
      exact (hreply placeholder).2 ⟨rfl, hwritten ▸ hencode⟩

end Steps

/-- **The bytes of a dial.** There is an outcome if there is one of making the prefix and letters
can be picked. If no prefix is made, that is the fault, nothing is connected to, and the
placeholders' source is as before; so it is if connecting fails. A connection gets a part of the
prefix, and then no placeholder has been drawn; or all of it and some front of the header of the one
placeholder that has been drawn. The dial is done exactly if there are a prefix and a header and the
connection has got all of both. -/
theorem written_dial (d : Dialer) (connect : String → Except IoFault Peer) (deadline : Deadline)
    (prefixes placeholders : Source) :
    ((∃ made, d.maker.make.run prefixes = some made) →
      placeholders.Picks Placeholder.letters.length →
        ∃ dialed, d.dial connect deadline prefixes placeholders = some dialed) ∧
    ∀ dialed, d.dial connect deadline prefixes placeholders = some dialed →
      (∀ fault rest, d.maker.make.run prefixes = some (.error fault, rest) →
        dialed = ⟨.fault fault, none, rest, placeholders⟩ ∧
        ∀ connect', d.dial connect' deadline prefixes placeholders = some dialed) ∧
      (∀ opening rest, d.maker.make.run prefixes = some (.ok opening, rest) →
        dialed.prefixes = rest ∧
        (∀ e, connect d.addr = .error e →
          dialed = ⟨.fault (.io e), none, rest, placeholders⟩) ∧
        ∀ opened, connect d.addr = .ok opened → ∃ ended accepted,
          dialed.stream = some ended ∧ ended.written = opened.written ++ accepted ∧
          ((Duplex.writeAll opening deadline opened).1 ≠ .ok () ∧ accepted <+: opening ∧
              accepted ≠ opening ∧ dialed.placeholders = placeholders ∨
            (Duplex.writeAll opening deadline opened).1 = .ok () ∧ ∃ placeholder,
              (Placeholder.fresh d.base).run placeholders =
                some (placeholder, dialed.placeholders) ∧
              opening <+: accepted ∧ accepted <+: opening ++ Placeholder.header placeholder)) ∧
      ∀ placeholder, dialed.reply = .ok placeholder ↔
        ∃ opening rest header rest' opened ended,
          d.maker.make.run prefixes = some (.ok opening, rest) ∧
          (Placeholder.fresh d.base).run placeholders = some (placeholder, rest') ∧
          Target.encode placeholder = .ok header ∧ connect d.addr = .ok opened ∧
          dialed.stream = some ended ∧ ended.written = opened.written ++ opening ++ header := by
  constructor
  · intro hmake hpicks
    obtain ⟨placeholder, rest, hfresh⟩ := Placeholder.exists_run_fresh hpicks d.base
    exact exists_dial hmake ⟨_, hfresh⟩ connect deadline
  · intro dialed h
    refine ⟨?_, ?_, ?_⟩
    · intro fault rest hmake
      have hdial (connect' : String → Except IoFault Peer) :
          d.dial connect' deadline prefixes placeholders =
            some ⟨.fault fault, none, rest, placeholders⟩ :=
        dial_eq_some_iff.2 (.unmade hmake)
      obtain rfl := Option.some.inj (h.symm.trans (hdial connect))
      exact ⟨rfl, hdial⟩
    · intro opening rest hmake
      have hunconnected : ∀ e, connect d.addr = .error e →
          dialed = ⟨.fault (.io e), none, rest, placeholders⟩ := by
        intro e hconnect
        exact Option.some.inj (h.symm.trans (dial_eq_some_iff.2 (.unconnected hmake hconnect)))
      refine ⟨?_, hunconnected, ?_⟩
      · cases hconnect : connect d.addr with
        | error e => rw [hunconnected e hconnect]
        | ok opened => exact (written_of_connected h hmake hconnect).1
      · intro opened hconnect
        obtain ⟨-, ended, accepted, hstream, hwritten, hends⟩ :=
          written_of_connected h hmake hconnect
        refine ⟨ended, accepted, hstream, hwritten, hends.imp_right ?_⟩
        rintro ⟨hwrite, placeholder, front, hfresh, rfl, hfront, -⟩
        exact ⟨hwrite, placeholder, hfresh, List.prefix_append opening front,
          (List.prefix_append_right_inj opening).2 hfront⟩
    · intro placeholder
      exact reply_eq_ok_iff h

/-- A connection that takes one byte of two and breaks. -/
theorem written_dial_broken :
    let source : Source := ⟨fun _ => 1, 0⟩
    let peer : Peer :=
      { incoming := [], outgoing := [.accept 1, .fault (.ofKind .connectionReset)] }
    ∃ dialed ended,
      (Dialer.mk "a:1" (.fixed [0x41, 0x42]) "b.c").dial (fun _ => .ok peer) none source source =
        some dialed ∧
      dialed.stream = some ended ∧ ended.written <+: [0x41, 0x42] ∧
      ended.written ≠ [0x41, 0x42] ∧ dialed.placeholders = source := by
  intro source peer
  have hword : wordSpan % Placeholder.letters.length ≤
      (1 : UInt32).toNat * Placeholder.letters.length % wordSpan := by
    decide
  have hpicks : source.Picks Placeholder.letters.length :=
    Source.picks_of_forall_le fun _ => hword
  let begun : Peer :=
    { incoming := [], outgoing := [.fault (.ofKind .connectionReset)], written := [0x41] }
  have htaken : Duplex.write [0x41, 0x42] none peer = (.ok 1, begun) := rfl
  have hrefused : Duplex.write [0x42] none begun =
      (.fault (.ofKind .connectionReset), { begun with outgoing := [] }) :=
    rfl
  have hbroken : (Duplex.writeAll [0x41, 0x42] none peer).1 ≠ .ok () := by
    rw [Duplex.writeAll_of_write (by simp) htaken]
    change (Duplex.writeAll [0x42] none begun).1 ≠ .ok ()
    rw [Duplex.writeAll_of_write (by simp) hrefused]
    exact nofun
  obtain ⟨hreturns, hall⟩ := written_dial (Dialer.mk "a:1" (.fixed [0x41, 0x42]) "b.c")
    (fun _ => .ok peer) none source source
  obtain ⟨dialed, hdial⟩ := hreturns ⟨_, rfl⟩ hpicks
  obtain ⟨-, hmade, -⟩ := hall dialed hdial
  obtain ⟨-, -, hconnected⟩ := hmade [0x41, 0x42] source rfl
  obtain ⟨ended, accepted, hstream, hwritten, hends⟩ := hconnected peer rfl
  obtain rfl : ended.written = accepted := hwritten
  rcases hends with ⟨-, hfront, hne, hplaceholders⟩ | ⟨hdone, -⟩
  · exact ⟨dialed, ended, hdial, hstream, hfront, hne, hplaceholders⟩
  · exact absurd hdone hbroken

end Dialer

end Camouflage
