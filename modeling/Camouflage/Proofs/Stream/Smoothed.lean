import Camouflage.Proofs.Stream.Conversation
import Camouflage.Stream.Peer
import Camouflage.Stream.Smoothed
import Mathlib.Data.List.Forall2

/-!
# What a smoothed stream still shows

Of the operations of a smoothed stream, reads, writes and shutdowns turn the faults of a closed
connection into something else. A flush does not: its fault is the one from below. So in a
conversation of any length these faults come from flushes only (`closed_of_converse_smoothed`).
-/

namespace Camouflage

theorem IoFault.tellsClosed_eq_true_iff {e : IoFault} : e.tellsClosed = true ↔
    e.kind = .notConnected ∨ e.kind = .brokenPipe ∨ e.kind = .connectionAborted := by
  simp only [tellsClosed, Bool.or_eq_true, decide_eq_true_eq, or_assoc]

namespace Smoothed

/-! ## One operation -/

section Operations

variable {σ : Type} [Duplex σ] {deadline : Deadline} {s s' : Smoothed σ} {e : IoFault}

/-- Where the faults of a closed connection are replaced, none is left. -/
theorem not_tellsClosed_of_replaced {α : Type} {instead : Reply IoFault α} {below : IoFault}
    (hinstead : ∀ e, instead = .fault e → ¬ e.tellsClosed = true)
    (h : (if below.tellsClosed then instead else .fault below) = .fault e) :
    ¬ e.tellsClosed = true := by
  by_cases hclosed : below.tellsClosed = true
  · rw [if_pos hclosed] at h
    exact hinstead e h
  · rw [if_neg hclosed] at h
    cases h
    exact hclosed

theorem not_tellsClosed_of_smoothRead {reply : Reply IoFault Bytes}
    (h : smoothRead reply = .fault e) : ¬ e.tellsClosed = true := by
  cases reply with
  | ok bs => cases h
  | expired => cases h
  | fault below =>
    apply not_tellsClosed_of_replaced _ h
    intro e he
    cases he

theorem not_tellsClosed_of_smoothWrite {reply : Reply IoFault Nat}
    (h : smoothWrite reply = .fault e) : ¬ e.tellsClosed = true := by
  cases reply with
  | ok n => cases h
  | expired => cases h
  | fault below =>
    apply not_tellsClosed_of_replaced _ h
    intro e he
    cases he
    decide

theorem not_tellsClosed_of_smoothShutdown {reply : Reply IoFault Unit}
    (h : smoothShutdown reply = .fault e) : ¬ e.tellsClosed = true := by
  cases reply with
  | ok u => cases h
  | expired => cases h
  | fault below =>
    apply not_tellsClosed_of_replaced _ h
    intro e he
    cases he

theorem not_tellsClosed_of_read {n : Nat} (h : Duplex.read n deadline s = (.fault e, s')) :
    ¬ e.tellsClosed = true :=
  not_tellsClosed_of_smoothRead (Prod.mk.inj h).1

theorem not_tellsClosed_of_write {bs : Bytes} (h : Duplex.write bs deadline s = (.fault e, s')) :
    ¬ e.tellsClosed = true :=
  not_tellsClosed_of_smoothWrite (Prod.mk.inj h).1

/-- Every operation but a flush hides that the connection is closed. -/
theorem eq_flush_of_perform {op : Operation}
    (h : (op.perform deadline s).1.fault? = some e) (hclosed : e.tellsClosed = true) :
    op = .flush := by
  cases op with
  | flush => rfl
  | read most =>
    have hreply := Reply.fault?_eq_some_iff.1 h
    exact absurd hclosed (not_tellsClosed_of_read (Prod.ext hreply rfl))
  | readExact count =>
    have hreply := Reply.fault?_eq_some_iff.1 h
    apply absurd hclosed
    exact Duplex.of_readMore_fault not_tellsClosed_of_read (by decide) (Prod.ext hreply rfl)
  | readToEnd =>
    have hreply := Reply.fault?_eq_some_iff.1 h
    apply absurd hclosed
    exact Duplex.of_drain_fault not_tellsClosed_of_read (Prod.ext rfl (Prod.ext hreply rfl))
  | write bytes =>
    have hreply := Reply.fault?_eq_some_iff.1 h
    exact absurd hclosed (not_tellsClosed_of_write (Prod.ext hreply rfl))
  | writeAll bytes =>
    have hreply := Reply.fault?_eq_some_iff.1 h
    apply absurd hclosed
    exact Duplex.of_writeAll_fault not_tellsClosed_of_write (by decide) (Prod.ext hreply rfl)
  | shutdown =>
    have hreply := Reply.fault?_eq_some_iff.1 h
    exact absurd hclosed (not_tellsClosed_of_smoothShutdown hreply)

end Operations

/-! ## Conversations -/

section Converse

variable {σ : Type} [Duplex σ]

theorem forall₂_converse (uses : List (Operation × Deadline)) (s : Smoothed σ) :
    List.Forall₂ (fun use result => ∀ e, result.fault? = some e → e.tellsClosed = true →
      use.1 = .flush) uses (converse uses s).1 := by
  induction uses generalizing s with
  | nil => exact .nil
  | cons use rest ih => exact .cons (fun e he hclosed => eq_flush_of_perform he hclosed) (ih _)

/-- **Only a flush shows that the connection is closed.** Whatever stream is smoothed and whatever
is done with it, an operation that reports a fault of one of the three kinds is a flush. What a
flush reports is what the stream below reports to it there, so these faults do come through. -/
theorem closed_of_converse_smoothed (s : σ) (uses : List (Operation × Deadline)) :
    List.Forall₂ (fun use result => ∀ e, result.fault? = some e →
        e.kind = .notConnected ∨ e.kind = .brokenPipe ∨ e.kind = .connectionAborted →
          use.1 = .flush)
      uses (converse uses (Smoothed.mk s)).1 ∧
    ∀ before deadline after, uses = before ++ (.flush, deadline) :: after →
      (converse uses (Smoothed.mk s)).1[before.length]? =
        some (.done (Duplex.flush deadline (converse before (Smoothed.mk s)).2.inner).1) := by
  constructor
  · refine (forall₂_converse uses ⟨s⟩).imp ?_
    intro use result h e he hclosed
    exact h e he (IoFault.tellsClosed_eq_true_iff.2 hclosed)
  · rintro before deadline after rfl
    rw [converse_append, List.getElem?_append_right (Nat.le_of_eq (length_converse before _)),
      length_converse, Nat.sub_self]
    rfl

end Converse

/-- A peer that has hung up: every operation on it fails because the connection is closed. -/
def hungUp : Peer :=
  { incoming := [.fault (.ofKind .notConnected)], outgoing := [.fault (.ofKind .brokenPipe)],
    flushes := [some (.ofKind .brokenPipe)], shutdowns := [some (.ofKind .connectionAborted)] }

/-- A flush behind a write that was told less. -/
theorem closed_of_converse_smoothed_hungUp :
    (converse [(.write [0x61], none), (.flush, none)] (Smoothed.mk hungUp)).1[1]? =
      some (.done (.fault (.ofKind .brokenPipe))) :=
  (closed_of_converse_smoothed hungUp _).2 [(.write [0x61], none)] none [] rfl

/-- Of the four operations, a flush is the one that reports the broken pipe. -/
theorem converse_hungUp_flush : ∃ e : IoFault, e.kind = .brokenPipe ∧
    (converse [(.read 1, none), (.write [0x61], none), (.flush, none), (.shutdown, none)]
        (Smoothed.mk hungUp)).1 =
      [.bytes (.ok []), .count (.fault closed), .done (.fault e), .done (.ok ())] :=
  ⟨.ofKind .brokenPipe, rfl, rfl⟩

end Smoothed

end Camouflage
