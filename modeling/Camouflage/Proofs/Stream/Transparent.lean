import Camouflage.Proofs.Stream.Layer
import Camouflage.Proofs.Stream.Shortfall
import Camouflage.Proofs.Stream.Smoothed
import Camouflage.Proofs.Stream.Written

/-!
# Smoothed streams are transparent

Two layers: a smoothed stream hides the faults of a closed connection and writes nothing down, a
watched one hides nothing and writes these faults down. So what a stream below reports of closing
while a conversation goes on is a matter of the bare conversation (`reported_eq`), and as long as it
reports nothing, a smoothed conversation is the bare one (`Smoothed.converse_of_reported_eq_nil`).

Where it does report closing, reading to the end gives what has arrived and finds the end, a whole
read falls short, and a whole write fails with some of its bytes left
(`Smoothed.converse_transparent`).
-/

namespace Camouflage

/-! ## Results that are shown as they are -/

section Shown

variable {hidden : IoFault → Bool}

theorem Reply.replacing_eq_self {α : Type} {reply instead : Reply IoFault α}
    (h : ∀ e, reply.fault? = some e → hidden e = false) :
    reply.replacing hidden instead = reply := by
  cases reply with
  | ok a => rfl
  | expired => rfl
  | fault e => exact replacing_of_not_hidden (h e rfl)

theorem Operation.shown_eq_self (op : Operation) {result : Operation.Result}
    (h : ∀ e, result.fault? = some e → hidden e = false) : op.shown hidden result = result := by
  cases op with
  | read most =>
    cases result with
    | bytes reply => exact congrArg Result.bytes (Reply.replacing_eq_self h)
    | _ => rfl
  | readExact count =>
    cases result with
    | bytes reply => exact congrArg Result.bytes (Reply.replacing_eq_self h)
    | _ => rfl
  | readToEnd =>
    cases result with
    | drained bytes ending => exact congrArg (Result.drained bytes) (Reply.replacing_eq_self h)
    | _ => rfl
  | write bytes =>
    cases result with
    | count reply => exact congrArg Result.count (Reply.replacing_eq_self h)
    | _ => rfl
  | writeAll bytes =>
    cases result with
    | done reply => exact congrArg Result.done (Reply.replacing_eq_self h)
    | _ => rfl
  | flush => rfl
  | shutdown =>
    cases result with
    | done reply => exact congrArg Result.done (Reply.replacing_eq_self h)
    | _ => rfl

theorem zipWith_shown_eq_self {uses : List (Operation × Deadline)}
    {results : List Operation.Result} (hlength : results.length = uses.length)
    (h : ∀ result ∈ results, ∀ e, result.fault? = some e → hidden e = false) :
    List.zipWith (fun use result => use.1.shown hidden result) uses results = results := by
  induction uses generalizing results with
  | nil => exact (List.eq_nil_of_length_eq_zero hlength).symm
  | cons use uses ih =>
    obtain ⟨result, results, rfl⟩ := List.exists_cons_of_length_eq_add_one hlength
    obtain ⟨hresult, hresults⟩ := List.forall_mem_cons.1 h
    rw [List.zipWith_cons_cons, use.1.shown_eq_self hresult,
      ih (Nat.succ_inj.1 hlength) hresults]

end Shown

/-! ## Watched streams -/

/-- A stream with the faults of a closed connection that it has reported, in order. -/
structure Watched (σ : Type) where
  inner : σ
  seen : List IoFault

namespace Watched

variable {σ : Type} [Duplex σ]

/-- What an operation below comes to, its fault written down. -/
def note {α : Type} (seen : List IoFault) (r : Reply IoFault α × σ) :
    Reply IoFault α × Watched σ :=
  (r.1, ⟨r.2, seen ++ r.1.closing⟩)

instance : Duplex (Watched σ) where
  read n deadline s := note s.seen (Duplex.read n deadline s.inner)
  write bytes deadline s := note s.seen (Duplex.write bytes deadline s.inner)
  flush deadline s := note s.seen (Duplex.flush deadline s.inner)
  shutdown deadline s := note s.seen (Duplex.shutdown deadline s.inner)
  now s := Duplex.now s.inner
  unread s := Duplex.unread s.inner
  unwritten s := Duplex.unwritten s.inner
  unread_lt_of_ok h hbs := by
    obtain ⟨hreply, rfl⟩ := Prod.mk.inj h
    exact Duplex.unread_lt_of_ok (Prod.ext hreply rfl) hbs
  unread_lt_of_fault h := by
    obtain ⟨hreply, rfl⟩ := Prod.mk.inj h
    exact Duplex.unread_lt_of_fault (Prod.ext hreply rfl)
  unwritten_lt_of_fault h := by
    obtain ⟨hreply, rfl⟩ := Prod.mk.inj h
    exact Duplex.unwritten_lt_of_fault (Prod.ext hreply rfl)

/-- A watched stream shows everything. -/
def layer (σ : Type) [Duplex σ] : Layer σ (Watched σ) where
  wrap := mk
  hidden _ := false
  tellsClosed_of_hidden h := absurd h (by decide)
  read_wrap log h := by
    rw [Reply.replacing_eq_self fun _ _ => rfl]
    exact congrArg (note log) h
  write_wrap log h := by
    rw [Reply.replacing_eq_self fun _ _ => rfl]
    exact congrArg (note log) h
  flush_wrap log h := congrArg (note log) h
  shutdown_wrap log h := by
    rw [Reply.replacing_eq_self fun _ _ => rfl]
    exact congrArg (note log) h

@[simp] theorem hidden_layer : (layer σ).hidden = fun _ => false := rfl

theorem converse_watched (uses : List (Operation × Deadline)) (s : σ) (seen : List IoFault) :
    converse uses (mk s seen) =
      ((converse uses s).1, ⟨(converse uses s).2,
        seen ++ (converse uses s).1.flatMap Operation.Result.closing⟩) := by
  have hwrap := (layer σ).converse_wrap uses s seen
  rw [hidden_layer, zipWith_shown_eq_self (length_converse uses s) fun _ _ _ _ => rfl] at hwrap
  exact hwrap

end Watched

section Reported

variable {σ : Type} [Duplex σ]

/-- The faults of a closed connection that a stream reports during a conversation. -/
def reported (uses : List (Operation × Deadline)) (s : σ) : List IoFault :=
  (converse uses (Watched.mk s [])).2.seen

/-- They are those that the caller is told of: none of them is tried again. -/
theorem reported_eq (uses : List (Operation × Deadline)) (s : σ) :
    reported uses s = (converse uses s).1.flatMap Operation.Result.closing := by
  rw [reported, Watched.converse_watched, List.nil_append]

theorem reported_singleton (op : Operation) (deadline : Deadline) (s : σ) :
    reported [(op, deadline)] s = (op.perform deadline s).1.closing := by
  rw [reported_eq]
  exact List.append_nil _

end Reported

/-! ## Smoothed streams -/

namespace Smoothed

variable {σ : Type} [Duplex σ]

theorem smoothRead_eq (reply : Reply IoFault Bytes) :
    smoothRead reply = reply.replacing IoFault.tellsClosed (.ok []) := by
  cases reply <;> rfl

theorem smoothWrite_eq (reply : Reply IoFault Nat) :
    smoothWrite reply = reply.replacing IoFault.tellsClosed (.fault closed) := by
  cases reply <;> rfl

theorem smoothShutdown_eq (reply : Reply IoFault Unit) :
    smoothShutdown reply = reply.replacing IoFault.tellsClosed (.ok ()) := by
  cases reply <;> rfl

/-- A smoothed stream hides all faults of a closed connection, except those of a flush. -/
def layer (σ : Type) [Duplex σ] : Layer σ (Smoothed σ) where
  wrap s _ := ⟨s⟩
  hidden := IoFault.tellsClosed
  tellsClosed_of_hidden h := h
  read_wrap _ h := by
    rw [← smoothRead_eq]
    exact congrArg (fun r => (smoothRead r.1, mk r.2)) h
  write_wrap _ h := by
    rw [← smoothWrite_eq]
    exact congrArg (fun r => (smoothWrite r.1, mk r.2)) h
  flush_wrap _ h := congrArg (fun r => (r.1, mk r.2)) h
  shutdown_wrap _ h := by
    rw [← smoothShutdown_eq]
    exact congrArg (fun r => (smoothShutdown r.1, mk r.2)) h

@[simp] theorem hidden_layer : (layer σ).hidden = IoFault.tellsClosed := rfl

/-- The stream below goes through the same states, whatever it reports. -/
theorem converse_snd (uses : List (Operation × Deadline)) (s : σ) :
    (converse uses (mk s)).2 = ⟨(converse uses s).2⟩ :=
  congrArg Prod.snd ((layer σ).converse_wrap uses s [])

theorem converse_of_reported_eq_nil {uses : List (Operation × Deadline)} {s : σ}
    (h : reported uses s = []) :
    converse uses (mk s) = ((converse uses s).1, ⟨(converse uses s).2⟩) := by
  have hshown : ∀ result ∈ (converse uses s).1, ∀ e, result.fault? = some e →
      e.tellsClosed = false := by
    intro result hresult e he
    rw [reported_eq, List.flatMap_eq_nil_iff] at h
    have hclosing := h result hresult
    rw [Operation.Result.closing, he] at hclosing
    exact IoFault.closing_some_eq_nil_iff.1 hclosing
  have hwrap := (layer σ).converse_wrap uses s []
  rw [hidden_layer, zipWith_shown_eq_self (length_converse uses s) hshown] at hwrap
  exact hwrap

/-- The results so far do not depend on what follows. -/
theorem take_converse (before after : List (Operation × Deadline)) (s : σ) :
    (converse (before ++ after) s).1.take before.length = (converse before s).1 := by
  rw [converse_append]
  exact List.take_left' (length_converse before s)

/-! ## Whole operations that meet the closing -/

section Peer

variable {p : Peer} {deadline : Deadline} {bs : Bytes} {cause : IoFault}

theorem readToEnd_of_arrival (h : p.arrival deadline = (bs, .failed cause))
    (hcause : cause.tellsClosed = true) :
    ∃ p', Duplex.readToEnd deadline (mk p) = (bs, .ok (), ⟨p'⟩) ∧
      p'.incoming = p.beyond deadline := by
  obtain ⟨p', hdrain, hleft⟩ := Peer.drain_eq deadline [] p
  rw [h, List.nil_append] at hdrain
  refine ⟨p', ?_, hleft⟩
  have hwrap := (layer Peer).drain_wrap [] hdrain
  rw [Ending.outcome, hidden_layer, Reply.replacing_of_hidden hcause] at hwrap
  exact hwrap

theorem readExact_of_arrival (h : p.arrival deadline = (bs, .failed cause))
    (hcause : cause.tellsClosed = true) {n : Nat} (hn : bs.length < n) :
    ∃ p', Duplex.readExact n deadline (mk p) = (.fault .earlyEnd, ⟨p'⟩) ∧
      p'.incoming = p.beyond deadline := by
  rw [← congrArg (fun a => a.1.length) h] at hn
  obtain ⟨p', hread, hleft⟩ := Peer.readMore_of_lt .earlyEnd [] hn
  refine ⟨p', ?_, hleft⟩
  have hwrap := (layer Peer).readMore_wrap rfl [] hread
  rw [h, Ending.reply, hidden_layer, Reply.replacing_of_hidden hcause] at hwrap
  exact hwrap

/-- A whole write that meets the closing fails, and has written some of its bytes. -/
theorem writeAll_of_reported (h : reported [(.writeAll bs, deadline)] p ≠ []) :
    ∃ p', Duplex.writeAll bs deadline (mk p) = (.fault closed, ⟨p'⟩) ∧
      ∃ front, front <+: bs ∧ front ≠ bs ∧ p'.written = p.written ++ front := by
  rw [reported_singleton] at h
  change (Duplex.writeAll bs deadline p).1.closing ≠ [] at h
  rcases hwrite : Duplex.writeAll bs deadline p with ⟨reply, p'⟩
  rw [hwrite] at h
  cases reply with
  | ok done => exact absurd rfl h
  | expired => exact absurd rfl h
  | fault e =>
    refine ⟨p', ?_, Peer.written_of_writeAll_ne_ok hwrite (by simp)⟩
    have hclosed : e.tellsClosed = true := by
      by_contra hopen
      exact h (Reply.closing_fault_of_eq_false (Bool.eq_false_iff.2 hopen))
    have hwrap := (layer Peer).writeAll_wrap [] hwrite
    rw [hidden_layer, Reply.replacing_of_hidden hclosed] at hwrap
    exact hwrap

end Peer

/-- **Smoothing changes nothing but how closing looks.** Whatever is done with a smoothed peer, the
peer below goes through the same states as it does bare, and as long as it reports none of the
three kinds of fault, so are the results the same. If its bytes end in such a fault, reading to the
end gives just these bytes and is done, and a whole read that wants more fails with an unexpected
end. So does a whole write during which such a fault is reported, and the peer has then taken the
front of its bytes and not all of them. -/
theorem converse_transparent (p : Peer) :
    (∀ uses : List (Operation × Deadline),
      (converse uses (mk p)).2 = ⟨(converse uses p).2⟩) ∧
    (∀ before after : List (Operation × Deadline), reported before p = [] →
      (converse (before ++ after) (mk p)).1.take before.length =
        (converse (before ++ after) p).1.take before.length) ∧
    (∀ deadline bs cause, p.arrival deadline = (bs, .failed cause) →
      cause.kind = .notConnected ∨ cause.kind = .brokenPipe ∨ cause.kind = .connectionAborted →
        (∃ p', Duplex.readToEnd deadline (mk p) = (bs, .ok (), ⟨p'⟩)) ∧
        ∀ n, bs.length < n → ∃ e p', Duplex.readExact n deadline (mk p) = (.fault e, ⟨p'⟩) ∧
          e.kind = .unexpectedEof) ∧
    ∀ bs deadline, reported [(.writeAll bs, deadline)] p ≠ [] →
      ∃ e p' front, Duplex.writeAll bs deadline (mk p) = (.fault e, ⟨p'⟩) ∧
        e.kind = .unexpectedEof ∧ front <+: bs ∧ front ≠ bs ∧ p'.written = p.written ++ front := by
  refine ⟨fun uses => converse_snd uses p, ?_, ?_, ?_⟩
  · intro before after h
    rw [take_converse, take_converse, converse_of_reported_eq_nil h]
  · intro deadline bs cause h hkind
    have hcause := IoFault.tellsClosed_eq_true_iff.2 hkind
    constructor
    · obtain ⟨p', hread, -⟩ := readToEnd_of_arrival h hcause
      exact ⟨p', hread⟩
    · intro n hn
      obtain ⟨p', hread, -⟩ := readExact_of_arrival h hcause hn
      exact ⟨.earlyEnd, p', hread, rfl⟩
  · intro bs deadline h
    obtain ⟨p', hwrite, front, hfront, hne, hwritten⟩ := writeAll_of_reported h
    exact ⟨closed, p', front, hwrite, rfl, hfront, hne, hwritten⟩

/-- A peer that sends three bytes in two pieces and takes one byte before the connection closes. -/
def leaving : Peer :=
  { incoming := [.data [0x61, 0x62], .fault (.ofKind .interrupted), .data [0x63],
      .fault (.ofKind .notConnected)]
    outgoing := [.accept 1, .fault (.ofKind .brokenPipe)] }

/-- A byte read and a byte written before the closing, and each of the whole operations at it. -/
theorem converse_transparent_leaving :
    (reported [(.read 1, none), (.write [0x64], none)] leaving = [] ∧
      (converse ([(.read 1, none), (.write [0x64], none)] ++ [(.shutdown, none)])
        (mk leaving)).1.take 2 = [.bytes (.ok [0x61]), .count (.ok 1)]) ∧
    (leaving.arrival none = ([0x61, 0x62, 0x63], .failed (.ofKind .notConnected)) ∧
      (∃ p', Duplex.readToEnd none (mk leaving) = ([0x61, 0x62, 0x63], .ok (), ⟨p'⟩)) ∧
      ∃ e p', Duplex.readExact 4 none (mk leaving) = (.fault e, ⟨p'⟩) ∧
        e.kind = .unexpectedEof) ∧
    reported [(.writeAll [0x64, 0x65], none)] leaving ≠ [] ∧
      ∃ e p' front, Duplex.writeAll [0x64, 0x65] none (mk leaving) = (.fault e, ⟨p'⟩) ∧
        e.kind = .unexpectedEof ∧ front <+: [0x64, 0x65] ∧ front ≠ [0x64, 0x65] ∧
        p'.written = front := by
  obtain ⟨-, hsame, harrives, hwrites⟩ := converse_transparent leaving
  have hopen : reported [(.read 1, none), (.write [0x64], none)] leaving = [] := rfl
  have harrival : leaving.arrival none =
      ([0x61, 0x62, 0x63], .failed (.ofKind .notConnected)) := rfl
  have hfirst : Duplex.write [0x64, 0x65] none leaving =
      (.ok 1, { leaving with outgoing := [.fault (.ofKind .brokenPipe)], written := [0x64] }) := rfl
  have hwrite : (Duplex.writeAll [0x64, 0x65] none leaving).1 =
      .fault (.ofKind .brokenPipe) := by
    rw [Duplex.writeAll_of_write (by decide) hfirst]
    exact congrArg Prod.fst (Duplex.writeAll_of_fault (by decide) rfl (by decide))
  have hreported : reported [(.writeAll [0x64, 0x65], none)] leaving ≠ [] := by
    rw [reported_singleton]
    change (Duplex.writeAll [0x64, 0x65] none leaving).1.closing ≠ []
    rw [hwrite]
    decide
  obtain ⟨hdrained, hshort⟩ := harrives none _ _ harrival (.inl rfl)
  obtain ⟨e, p', front, hfault, hkind, hfront, hne, hwritten⟩ := hwrites _ none hreported
  exact ⟨⟨hopen, hsame _ _ hopen⟩, ⟨harrival, hdrained, hshort 4 (by decide)⟩, hreported,
    e, p', front, hfault, hkind, hfront, hne, hwritten⟩

end Smoothed

end Camouflage
