import Camouflage.Config.OfSettings
import Camouflage.Proofs.Config.Recommended
import Camouflage.Proofs.Program.Reference
import Camouflage.Proofs.Tunnel.Dial
import Camouflage.Tunnel.Listen

/-!
# Classes of faults

A caller gives up a whole configuration because of some faults, and one connection because of the
others. Loading and building meet only the first kind, and what has been built meets only the second
(`fault_classes`). So each step of a connection is shown to have faults of its own class, and going
on with another step adds none (`Reply.OnConnection`).
-/

namespace Camouflage

namespace Fault

variable {f : Fault}

/-- The configuration is unusable. -/
def AtStartup (f : Fault) : Prop :=
  (f.kind = .config ∨ f.kind = .parse) ∧ f.perConnection = false

/-- One connection has failed, and others need not. -/
def OnConnection (f : Fault) : Prop :=
  (f.kind = .runtime ∨ f.kind = .protocol ∨ f.kind = .io) ∧ f.perConnection = true

theorem onConnection_of_runtime (h : f.kind = .runtime) : f.OnConnection := by
  refine ⟨.inl h, ?_⟩
  rw [perConnection, h]

theorem onConnection_of_protocol (h : f.kind = .protocol) : f.OnConnection := by
  refine ⟨.inr (.inl h), ?_⟩
  rw [perConnection, h]

theorem onConnection_io (cause : IoFault) : (io cause).OnConnection :=
  ⟨.inr (.inr rfl), rfl⟩

end Fault

theorem ConfigFault.atStartup_fault (e : ConfigFault) : e.fault.AtStartup :=
  ⟨.inl rfl, rfl⟩

theorem ParseFault.atStartup_fault (e : ParseFault) : e.fault.AtStartup :=
  ⟨.inr rfl, rfl⟩

theorem TargetFault.onConnection_fault (e : TargetFault) : e.fault.OnConnection :=
  Fault.onConnection_of_protocol rfl

/-! ## Building -/

theorem PrefixConfig.atStartup_of_build {c : PrefixConfig} {f : Fault}
    (h : c.build = .error f) : f.AtStartup := by
  cases c with
  | nothing => cases h
  | generator text =>
    rw [build, map_eq_error_iff] at h
    obtain ⟨e, -, rfl⟩ := mapError_eq_error_iff.1 h
    exact e.atStartup_fault
  | hex digits =>
    rw [build, map_eq_error_iff] at h
    obtain ⟨e, -, rfl⟩ := mapError_eq_error_iff.1 h
    exact e.atStartup_fault
  | dnsOverTcp length =>
    rw [build, map_eq_error_iff] at h
    obtain ⟨e, -, rfl⟩ := mapError_eq_error_iff.1 h
    exact e.atStartup_fault

/-- What is built of a listener's configuration never takes more than a prefix may have. -/
theorem AbsorbConfig.prefixLength_le_of_build {c : AbsorbConfig} {policy : AbsorbPolicy}
    (h : c.build = .ok policy) : policy.prefixLength ≤ maxPrefixLength := by
  cases c with
  | nothing =>
    cases h
    exact Nat.zero_le _
  | exactly digits =>
    rw [build, map_eq_ok_iff] at h
    obtain ⟨bytes, hbytes, rfl⟩ := h
    exact length_le_of_constantPrefix hbytes
  | anyBytes count =>
    rw [build] at h
    split at h
    · cases h
    · rename_i hfits
      cases h
      exact Nat.not_lt.1 hfits
  | dnsOverTcp length =>
    rw [build, map_eq_ok_iff] at h
    obtain ⟨d, -, rfl⟩ := h
    exact DnsPrefix.size_le

theorem ListenerConfig.prefixLength_le_of_absorber {c : ListenerConfig} {absorber : PrefixAbsorber}
    (h : c.absorber = .ok absorber) : absorber.policy.prefixLength ≤ maxPrefixLength := by
  obtain ⟨policy, hpolicy, h⟩ := bind_eq_ok_iff.1 h
  cases h
  exact AbsorbConfig.prefixLength_le_of_build hpolicy

/-! ## Making prefixes -/

theorem Segment.Ends.onConnection {seg : Segment} {size : Nat} {s s' : Source} {f : Fault}
    (h : seg.Ends size s f s') : f.OnConnection := by
  refine Fault.onConnection_of_runtime ?_
  cases h with
  | failed hcall hrun => rfl
  | tooLarge hpart hlarge => rfl

theorem PrefixMaker.onConnection_of_run_make {m : PrefixMaker} {s s' : Source} {f : Fault}
    (h : m.make.run s = some (.error f, s')) : f.OnConnection := by
  cases m with
  | nothing =>
    obtain ⟨h, -⟩ := Draw.run_pure_eq_some_iff.1 h
    cases h
  | fixed bytes =>
    obtain ⟨h, -⟩ := Draw.run_pure_eq_some_iff.1 h
    cases h
  | generator program =>
    obtain ⟨seg, parts, t, -, hends⟩ := (Program.run_produceFrom_eq_error_iff (Nat.zero_le _)).1 h
    exact hends.onConnection
  | dnsOverTcp d =>
    obtain ⟨bs, t, -, h⟩ := Draw.run_bind_eq_some_iff.1 h
    obtain ⟨h, -⟩ := Draw.run_pure_eq_some_iff.1 h
    cases h

/-! ## Replies -/

namespace Reply

variable {α β : Type}

/-- The fault of a reply, if it has one, is one of a connection. -/
def OnConnection (r : Reply Fault α) : Prop :=
  ∀ f, r = .fault f → f.OnConnection

theorem onConnection_ok (a : α) : (ok a : Reply Fault α).OnConnection := by
  rintro f ⟨⟩

theorem onConnection_expired : (expired : Reply Fault α).OnConnection := by
  rintro f ⟨⟩

theorem onConnection_fault {f : Fault} (h : f.OnConnection) :
    (fault f : Reply Fault α).OnConnection := by
  rintro _ ⟨⟩
  exact h

theorem onConnection_mapFault {g : IoFault → Fault} (hg : ∀ e, (g e).OnConnection)
    (r : Reply IoFault α) : (r.mapFault g).OnConnection := by
  cases r with
  | ok a => exact onConnection_ok a
  | fault e => exact onConnection_fault (hg e)
  | expired => exact onConnection_expired

theorem OnConnection.map {r : Reply Fault α} (h : r.OnConnection) (g : α → β) :
    (r.map g).OnConnection := by
  cases r with
  | ok a => exact onConnection_ok (g a)
  | fault f => exact onConnection_fault (h f rfl)
  | expired => exact onConnection_expired

end Reply

/-! ## Headers -/

section Steps

variable {σ : Type}

theorem Target.onConnection_thenRead {α β : Type} {next : α → σ → Reply Fault β × σ}
    (hnext : ∀ a s, (next a s).1.OnConnection) (r : Reply IoFault α × σ) :
    (thenRead r next).1.OnConnection := by
  obtain ⟨reply, s⟩ := r
  cases reply with
  | ok a => exact hnext a s
  | fault e => exact Reply.onConnection_fault (Fault.onConnection_io e)
  | expired => exact Reply.onConnection_expired

variable [Duplex σ]

theorem Target.onConnection_readNumber (host : Host) (deadline : Deadline) (s : σ) :
    (readNumber host deadline s).1.OnConnection := by
  refine onConnection_thenRead ?_ _
  intro bs s
  exact Reply.onConnection_ok _

theorem Target.onConnection_readDomain (size : Nat) (deadline : Deadline) (s : σ) :
    (readDomain size deadline s).1.OnConnection := by
  unfold readDomain
  split
  · exact Reply.onConnection_fault (TargetFault.onConnection_fault _)
  · refine onConnection_thenRead ?_ _
    intro bs s
    split
    · exact Reply.onConnection_fault (TargetFault.onConnection_fault _)
    · exact onConnection_readNumber _ deadline s

theorem Target.onConnection_read (deadline : Deadline) (s : σ) :
    (read deadline s).1.OnConnection := by
  refine onConnection_thenRead ?_ _
  intro bs s
  split
  · refine onConnection_thenRead ?_ _
    intro bs s
    exact onConnection_readNumber _ deadline s
  · refine onConnection_thenRead ?_ _
    intro bs s
    exact onConnection_readDomain _ deadline s
  · refine onConnection_thenRead ?_ _
    intro bs s
    split
    · exact onConnection_readNumber _ deadline s
    · exact Reply.onConnection_fault (TargetFault.onConnection_fault _)
  · exact Reply.onConnection_fault (TargetFault.onConnection_fault _)

/-! ## Absorbing -/

theorem AbsorbPolicy.onConnection_of_refusal? {policy : AbsorbPolicy} {bs : Bytes} {f : Fault}
    (h : policy.refusal? bs = some f) : f.OnConnection := by
  refine Fault.onConnection_of_protocol ?_
  cases policy with
  | nothing => cases h
  | anyBytes count => cases h
  | exactly expected =>
    rw [refusal?] at h
    split at h <;> cases h
    rfl
  | dnsOverTcp d =>
    rw [refusal?] at h
    unfold DnsPrefix.mismatch? at h
    split at h
    · dsimp only at h
      split at h
      · cases h
        rfl
      · split at h <;> cases h
        rfl
    · cases h

theorem onConnection_readPrefix (count : Nat) (deadline : Deadline) (s : σ) :
    (readPrefix count deadline s).1.OnConnection := by
  unfold readPrefix
  split
  · exact Reply.onConnection_fault (Fault.onConnection_of_protocol rfl)
  · refine Reply.onConnection_mapFault ?_ _
    intro e
    exact Fault.onConnection_of_protocol rfl

theorem AbsorbPolicy.onConnection_absorb (policy : AbsorbPolicy) (deadline : Deadline) (s : σ) :
    (policy.absorb deadline s).1.OnConnection := by
  have hread := onConnection_readPrefix policy.prefixLength deadline s
  unfold absorb
  split
  · split
    · rename_i hrefusal
      exact Reply.onConnection_fault (onConnection_of_refusal? hrefusal)
    · exact Reply.onConnection_ok _
  · rename_i hreply
    rw [hreply] at hread
    exact hread

/-- An absorber's faults are those of its policy, and being late. -/
theorem PrefixAbsorber.absorb_fault {absorber : PrefixAbsorber} {limit : Deadline} {s : σ}
    {f : Fault} (h : (absorber.absorb limit s).1 = .fault f) :
    (∃ deadline, (absorber.policy.absorb deadline s).1 = .fault f) ∨
      ∃ ms, f = late absorber.policy ms := by
  unfold absorb at h
  split at h
  · exact .inl ⟨limit, h⟩
  · rename_i ms _
    dsimp only at h
    split at h
    · split at h
      · exact .inr ⟨ms, (Reply.fault.inj h).symm⟩
      · cases h
    · rename_i hreply
      exact .inl ⟨_, by rw [hreply]; exact h⟩

theorem PrefixAbsorber.onConnection_absorb (absorber : PrefixAbsorber) (limit : Deadline) (s : σ) :
    (absorber.absorb limit s).1.OnConnection := by
  intro f h
  rcases absorb_fault h with ⟨deadline, h⟩ | ⟨ms, rfl⟩
  · exact absorber.policy.onConnection_absorb deadline s f h
  · exact Fault.onConnection_of_protocol rfl

theorem PrefixAbsorber.absorb_ne_absorbTooLarge {absorber : PrefixAbsorber}
    (hfits : absorber.policy.prefixLength ≤ maxPrefixLength) (limit : Deadline) (s : σ)
    (size most : Nat) : (absorber.absorb limit s).1 ≠ .fault (.absorbTooLarge size most) := by
  intro h
  rcases absorb_fault h with ⟨deadline, h⟩ | ⟨ms, h⟩
  · exact AbsorbPolicy.absorb_ne_absorbTooLarge hfits deadline s size most h
  · cases h

/-! ## Connections -/

theorem PrefixAbsorber.onConnection_handle (absorber : PrefixAbsorber) (s : σ) :
    (absorber.handle s).1.OnConnection := by
  have habsorb := absorber.onConnection_absorb none s
  unfold handle
  dsimp only
  split
  · rename_i s' _
    have hread := Target.onConnection_read (absorber.timeout.map (Duplex.now s + ·)) s'
    split
    · exact Reply.onConnection_fault (Fault.onConnection_of_protocol rfl)
    · exact hread
  · rename_i e s' hreply
    rw [hreply] at habsorb
    exact Reply.onConnection_fault (habsorb e rfl)
  · exact Reply.onConnection_expired

variable {d : Dialer} {deadline : Deadline} {prefixes placeholders : Source} {dialed : Dialed σ}

theorem Dialer.onConnection_request {s : σ}
    (h : d.request deadline s prefixes placeholders = some dialed) :
    dialed.reply.OnConnection := by
  obtain ⟨placeholder, rest, -, ⟨e, -, rfl⟩ | ⟨header, reply, ended, -, -, rfl⟩⟩ :=
    request_eq_some_iff.1 h
  · exact Reply.onConnection_fault (TargetFault.onConnection_fault _)
  · exact (Reply.onConnection_mapFault Fault.onConnection_io _).map _

theorem Dialer.onConnection_dial {connect : String → Except IoFault σ}
    (h : d.dial connect deadline prefixes placeholders = some dialed) :
    dialed.reply.OnConnection := by
  cases dial_eq_some_iff.1 h with
  | unmade hmake => exact Reply.onConnection_fault (PrefixMaker.onConnection_of_run_make hmake)
  | unconnected hmake hconnect => exact Reply.onConnection_fault (Fault.onConnection_io _)
  | broken hmake hconnect hwrite => exact Reply.onConnection_fault (Fault.onConnection_io _)
  | stalled hmake hconnect hwrite => exact Reply.onConnection_expired
  | requested hmake hconnect hwrite hrequest => exact onConnection_request hrequest

end Steps

/-! ## Both classes -/

theorem atStartup_of_mapError {α : Type} {x : Except ConfigFault α} {f : Fault}
    (h : x.mapError ConfigFault.fault = .error f) : f.AtStartup := by
  obtain ⟨e, -, rfl⟩ := mapError_eq_error_iff.1 h
  exact e.atStartup_fault

/-- **Faults of configurations and of connections never mix.** Whatever is wrong with the settings
or with what they say, loading and building report as a fault of the configuration. Whatever goes
wrong afterwards, in making a prefix, in dialing or in handling a connection, for every behaviour of
the other side, is a fault of that connection; and an absorber that was built from a configuration
is never asked for too much. -/
theorem fault_classes :
    (∀ bs f, (DialerConfig.ofBytes bs).mapError ConfigFault.fault = .error f → f.AtStartup) ∧
    (∀ bs f, (ListenerConfig.ofBytes bs).mapError ConfigFault.fault = .error f → f.AtStartup) ∧
    (∀ (c : PrefixConfig) f, c.build = .error f → f.AtStartup) ∧
    (∀ (c : ListenerConfig) f, c.absorber.mapError ConfigFault.fault = .error f →
      f.AtStartup) ∧
    (∀ cipher f, (requirePlain cipher).mapError ConfigFault.fault = .error f → f.AtStartup) ∧
    (∀ (m : PrefixMaker) s s' f, m.make.run s = some (.error f, s') → f.OnConnection) ∧
    (∀ (σ : Type) [Duplex σ] (d : Dialer) (connect : String → Except IoFault σ) deadline prefixes
      placeholders dialed, d.dial connect deadline prefixes placeholders = some dialed →
        ∀ f, dialed.reply = .fault f → f.OnConnection) ∧
    (∀ (σ : Type) [Duplex σ] (absorber : PrefixAbsorber) (s : σ) f,
      (absorber.handle s).1 = .fault f → f.OnConnection) ∧
    (∀ (c : ListenerConfig) absorber, c.absorber = .ok absorber → ∀ (σ : Type) [Duplex σ] (s : σ)
      limit size most, (absorber.absorb limit s).1 ≠ .fault (.absorbTooLarge size most)) := by
  refine ⟨?_, ?_, ?_, ?_, ?_, ?_, ?_, ?_, ?_⟩
  · intro bs f h
    exact atStartup_of_mapError h
  · intro bs f h
    exact atStartup_of_mapError h
  · intro c f h
    exact PrefixConfig.atStartup_of_build h
  · intro c f h
    exact atStartup_of_mapError h
  · intro cipher f h
    exact atStartup_of_mapError h
  · intro m s s' f h
    exact PrefixMaker.onConnection_of_run_make h
  · intro σ _ d connect deadline prefixes placeholders dialed h
    exact Dialer.onConnection_dial h
  · intro σ _ absorber s
    exact absorber.onConnection_handle s
  · intro c absorber h σ _ s limit size most
    have hfits := ListenerConfig.prefixLength_le_of_absorber h
    exact PrefixAbsorber.absorb_ne_absorbTooLarge hfits limit s size most

/-- Settings without an address, a program of a later version, a call without its argument, a server
that refuses, and a peer that stops within the prefix. -/
theorem fault_classes_each :
    (ConfigFault.missing "addr").fault.AtStartup ∧
    (ParseFault.unsupportedVersion 2 0).fault.AtStartup ∧
    (Fault.builtin "hex" (Standard.CallFault.argumentCount 1 0).reason).OnConnection ∧
    (Fault.io (.ofKind .connectionRefused)).OnConnection ∧
    (Fault.shortPrefix 2 .earlyEnd).OnConnection ∧
    ((PrefixAbsorber.mk (.anyBytes 2) none).absorb none (Peer.ofChunks [[1]])).1 ≠
      .fault (.absorbTooLarge 2 maxPrefixLength) := by
  obtain ⟨hdialer, -, hbuild, -, -, hmake, hdial, hhandle, habsorb⟩ := fault_classes
  let call : Call := ⟨"hex", [], ⟨Standard.hex, some Standard.hexHint⟩⟩
  let source : Source := ⟨fun _ => 0, 0⟩
  let server : Dialer := ⟨"a:1", .nothing, "b"⟩
  let listener : ListenerConfig := ⟨"a:1", "", "plain", 0, .anyBytes 2, 0⟩
  have hhandled : ((PrefixAbsorber.mk (.anyBytes 2) none).handle (Peer.ofChunks [[1]])).1 =
      .fault (.shortPrefix 2 .earlyEnd) := by
    decide +kernel
  refine ⟨hdialer [] _ rfl, hbuild (.generator "v2.0 ") _ rfl, ?_, ?_, ?_, ?_⟩
  · exact hmake (.generator ⟨0, [.call call]⟩) source source _ rfl
  · exact hdial Peer server (fun _ => .error (.ofKind .connectionRefused)) none source source
      ⟨_, none, source, source⟩ rfl _ rfl
  · exact hhandle Peer _ _ _ hhandled
  · exact habsorb listener _ rfl Peer _ none 2 maxPrefixLength

end Camouflage
