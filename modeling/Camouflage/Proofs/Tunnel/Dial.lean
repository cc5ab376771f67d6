import Camouflage.Tunnel.Dial

/-!
# Dials

A dial goes on as long as its steps succeed, and ends with the first one that does not: `Course`
lists the ways, and `dial_eq_some_iff` says that there are no others.

A dial succeeds only if all of its steps do, in their order: `Transcript` lists them, and
`exists_transcript_of_dial` finds them.
-/

namespace Camouflage.Dialer

variable {σ : Type} [Duplex σ]

/-! ## Ways to end -/

/-- What a dial leaves behind where it ends: without a prefix, without a connection, within the
prefix, or with the request. -/
inductive Course (d : Dialer) (connect : String → Except IoFault σ) (deadline : Deadline)
    (prefixes placeholders : Source) : Dialed σ → Prop
  | unmade {fault : Fault} {rest : Source}
    (hmake : d.maker.make.run prefixes = some (.error fault, rest)) :
    Course d connect deadline prefixes placeholders ⟨.fault fault, none, rest, placeholders⟩
  | unconnected {opening : Bytes} {rest : Source} {e : IoFault}
    (hmake : d.maker.make.run prefixes = some (.ok opening, rest))
    (hconnect : connect d.addr = .error e) :
    Course d connect deadline prefixes placeholders ⟨.fault (.io e), none, rest, placeholders⟩
  | broken {opening : Bytes} {rest : Source} {opened begun : σ} {e : IoFault}
    (hmake : d.maker.make.run prefixes = some (.ok opening, rest))
    (hconnect : connect d.addr = .ok opened)
    (hwrite : Duplex.writeAll opening deadline opened = (.fault e, begun)) :
    Course d connect deadline prefixes placeholders
      ⟨.fault (.io e), some begun, rest, placeholders⟩
  | stalled {opening : Bytes} {rest : Source} {opened begun : σ}
    (hmake : d.maker.make.run prefixes = some (.ok opening, rest))
    (hconnect : connect d.addr = .ok opened)
    (hwrite : Duplex.writeAll opening deadline opened = (.expired, begun)) :
    Course d connect deadline prefixes placeholders ⟨.expired, some begun, rest, placeholders⟩
  | requested {opening : Bytes} {rest : Source} {opened begun : σ} {dialed : Dialed σ}
    (hmake : d.maker.make.run prefixes = some (.ok opening, rest))
    (hconnect : connect d.addr = .ok opened)
    (hwrite : Duplex.writeAll opening deadline opened = (.ok (), begun))
    (hrequest : d.request deadline begun rest placeholders = some dialed) :
    Course d connect deadline prefixes placeholders dialed

/-- The steps of a dial that has succeeded: the prefix and the header that were made, and the
connection as it was opened, behind the prefix, and behind the header. -/
structure Transcript (d : Dialer) (connect : String → Except IoFault σ) (deadline : Deadline)
    (prefixes placeholders : Source) (dialed : Dialed σ) (placeholder : String)
    (opening header : Bytes) (opened begun ended : σ) : Prop where
  made : d.maker.make.run prefixes = some (.ok opening, dialed.prefixes)
  connected : connect d.addr = .ok opened
  wrote : Duplex.writeAll opening deadline opened = (.ok (), begun)
  drawn : (Placeholder.fresh d.base).run placeholders = some (placeholder, dialed.placeholders)
  encoded : Target.encode placeholder = .ok header
  asked : Duplex.writeAll header deadline begun = (.ok (), ended)
  stream : dialed.stream = some ended

section Steps

variable {d : Dialer} {connect : String → Except IoFault σ} {deadline : Deadline}
  {prefixes placeholders : Source} {dialed : Dialed σ} {placeholder : String}

theorem dial_eq_some_iff : d.dial connect deadline prefixes placeholders = some dialed ↔
    Course d connect deadline prefixes placeholders dialed := by
  constructor
  · intro h
    obtain ⟨⟨made, rest⟩, hmake, h⟩ := Option.bind_eq_some_iff.1 h
    dsimp only at h
    cases made with
    | error fault =>
      cases h
      exact .unmade hmake
    | ok opening =>
      cases hconnect : connect d.addr with
      | error e =>
        rw [hconnect] at h
        cases h
        exact .unconnected hmake hconnect
      | ok opened =>
        rw [hconnect] at h
        cases hwrite : Duplex.writeAll opening deadline opened with
        | mk reply begun =>
          simp only [hwrite] at h
          cases reply with
          | fault e =>
            cases h
            exact .broken hmake hconnect hwrite
          | expired =>
            cases h
            exact .stalled hmake hconnect hwrite
          | ok u => exact .requested hmake hconnect hwrite h
  · intro h
    refine Option.bind_eq_some_iff.2 ?_
    cases h with
    | unmade hmake => exact ⟨_, hmake, rfl⟩
    | unconnected hmake hconnect =>
      refine ⟨_, hmake, ?_⟩
      simp only [hconnect]
      rfl
    | broken hmake hconnect hwrite =>
      refine ⟨_, hmake, ?_⟩
      simp only [hconnect, hwrite]
      rfl
    | stalled hmake hconnect hwrite =>
      refine ⟨_, hmake, ?_⟩
      simp only [hconnect, hwrite]
      rfl
    | requested hmake hconnect hwrite hrequest =>
      refine ⟨_, hmake, ?_⟩
      simp only [hconnect, hwrite]
      exact hrequest

/-- A request draws one placeholder. It ends without a header, or with the header written as far as
the connection takes it. -/
theorem request_eq_some_iff {s : σ} : d.request deadline s prefixes placeholders = some dialed ↔
    ∃ placeholder rest, (Placeholder.fresh d.base).run placeholders = some (placeholder, rest) ∧
      ((∃ e, Target.encode placeholder = .error e ∧
        dialed = ⟨.fault e.fault, some s, prefixes, rest⟩) ∨
      ∃ header reply ended, Target.encode placeholder = .ok header ∧
        Duplex.writeAll header deadline s = (reply, ended) ∧
        dialed =
          ⟨(reply.mapFault .io).map fun _ => placeholder, some ended, prefixes, rest⟩) := by
  constructor
  · intro h
    obtain ⟨⟨placeholder, rest⟩, hfresh, h⟩ := Option.bind_eq_some_iff.1 h
    refine ⟨placeholder, rest, hfresh, ?_⟩
    dsimp only at h
    split at h
    · rename_i e hencode
      cases h
      exact .inl ⟨e, hencode, rfl⟩
    · rename_i header hencode
      cases h
      exact .inr ⟨header, _, _, hencode, rfl, rfl⟩
  · rintro ⟨placeholder, rest, hfresh, h⟩
    refine Option.bind_eq_some_iff.2 ⟨(placeholder, rest), hfresh, ?_⟩
    dsimp only
    rcases h with ⟨e, hencode, rfl⟩ | ⟨header, reply, ended, hencode, hwrite, rfl⟩
    · rw [hencode]
      rfl
    · rw [hencode]
      dsimp only
      rw [hwrite]
      rfl

/-! ## Dials that have an outcome -/

theorem exists_request (hfresh : ∃ drawn, (Placeholder.fresh d.base).run placeholders = some drawn)
    (deadline : Deadline) (s : σ) (prefixes : Source) :
    ∃ dialed, d.request deadline s prefixes placeholders = some dialed := by
  obtain ⟨⟨placeholder, rest⟩, hfresh⟩ := hfresh
  simp only [request_eq_some_iff]
  cases hencode : Target.encode placeholder with
  | error e => exact ⟨_, placeholder, rest, hfresh, .inl ⟨e, hencode, rfl⟩⟩
  | ok header => exact ⟨_, placeholder, rest, hfresh, .inr ⟨header, _, _, hencode, rfl, rfl⟩⟩

/-- A dial has an outcome if both of its draws have one. -/
theorem exists_dial (hmake : ∃ made, d.maker.make.run prefixes = some made)
    (hfresh : ∃ drawn, (Placeholder.fresh d.base).run placeholders = some drawn)
    (connect : String → Except IoFault σ) (deadline : Deadline) :
    ∃ dialed, d.dial connect deadline prefixes placeholders = some dialed := by
  obtain ⟨⟨made, rest⟩, hmake⟩ := hmake
  simp only [dial_eq_some_iff]
  cases made with
  | error fault => exact ⟨_, .unmade hmake⟩
  | ok opening =>
    cases hconnect : connect d.addr with
    | error e => exact ⟨_, .unconnected hmake hconnect⟩
    | ok opened =>
      cases hwrite : Duplex.writeAll opening deadline opened with
      | mk reply begun =>
        cases reply with
        | fault e => exact ⟨_, .broken hmake hconnect hwrite⟩
        | expired => exact ⟨_, .stalled hmake hconnect hwrite⟩
        | ok u =>
          obtain ⟨dialed, hrequest⟩ := exists_request hfresh deadline begun rest
          exact ⟨dialed, .requested hmake hconnect hwrite hrequest⟩

/-! ## Dials that succeed -/

theorem of_request_ok {s : σ} (h : d.request deadline s prefixes placeholders = some dialed)
    (hok : dialed.reply = .ok placeholder) :
    dialed.prefixes = prefixes ∧
      (Placeholder.fresh d.base).run placeholders = some (placeholder, dialed.placeholders) ∧
      ∃ header ended, Target.encode placeholder = .ok header ∧
        Duplex.writeAll header deadline s = (.ok (), ended) ∧ dialed.stream = some ended := by
  obtain ⟨name, rest, hfresh, ⟨e, -, rfl⟩ | ⟨header, reply, ended, hencode, hwrite, rfl⟩⟩ :=
    request_eq_some_iff.1 h
  · cases hok
  · cases reply with
    | ok u =>
      cases hok
      exact ⟨rfl, hfresh, header, ended, hencode, hwrite, rfl⟩
    | fault e => cases hok
    | expired => cases hok

theorem exists_transcript_of_dial
    (h : d.dial connect deadline prefixes placeholders = some dialed)
    (hok : dialed.reply = .ok placeholder) :
    ∃ opening header opened begun ended, Transcript d connect deadline prefixes placeholders
      dialed placeholder opening header opened begun ended := by
  cases dial_eq_some_iff.1 h with
  | unmade hmake => cases hok
  | unconnected hmake hconnect => cases hok
  | broken hmake hconnect hwrite => cases hok
  | stalled hmake hconnect hwrite => cases hok
  | requested hmake hconnect hwrite hrequest =>
    obtain ⟨rfl, hdrawn, header, ended, hencode, hasked, hstream⟩ := of_request_ok hrequest hok
    exact ⟨_, header, _, _, ended, hmake, hconnect, hwrite, hdrawn, hencode, hasked, hstream⟩

end Steps

end Camouflage.Dialer
