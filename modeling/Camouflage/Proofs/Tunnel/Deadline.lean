import Camouflage.Tunnel.Listen
import Camouflage.Proofs.Prefix.Absorb
import Camouflage.Proofs.Stream.Timetable

/-!
# One deadline for prefix and header

The time limit of an absorber is a single deadline, set when handling begins, for the prefix and for
the header behind it. A read is timely: it expires exactly if what happens before the deadline is
not enough for it, and comes out as it would without a deadline otherwise. Reads one after the other
are timely too (`Timely.thenRead`), so the whole handling of a connection comes out in one of three
ways (`handle_cases`). For a peer that follows a timetable, `handle_of_timetable` says which.
-/

namespace Camouflage

open Peer

/-! ## The steps are timely -/

section Steps

variable {ε α β : Type} {due : Time}

/-- Going on with what has been read is timely if reading is and going on is. -/
theorem Peer.Timely.thenRead {timed early whole : Reply IoFault α × Peer}
    {f g k : α → Peer → Reply Fault β × Peer} (h : Timely due timed early whole)
    (hnext : ∀ a p, Timely due (f a p) (g a (p.upTo due)) (k a p)) :
    Timely due (Target.thenRead timed f) (Target.thenRead early g) (Target.thenRead whole k) := by
  obtain ⟨reply, p⟩ := timed
  cases reply with
  | ok a =>
    obtain ⟨rfl, rfl⟩ := h.settled (by simp)
    exact hnext a p
  | fault e =>
    obtain ⟨rfl, rfl⟩ := h.settled (by simp)
    exact .done (by simp) p
  | expired =>
    obtain ⟨reply, q⟩ := early
    obtain rfl : reply = .expired := h.expired rfl
    exact .of_expired rfl

theorem Target.timely_readNumber (host : Host) (due : Time) (p : Peer) :
    Timely due (Target.readNumber host (some due) p) (Target.readNumber host none (p.upTo due))
      (Target.readNumber host none p) :=
  (timely_readMore _ due 2 [] p).thenRead fun _ q => .done (by simp) q

theorem Target.timely_readDomain (size : Nat) (due : Time) (p : Peer) :
    Timely due (Target.readDomain size (some due) p) (Target.readDomain size none (p.upTo due))
      (Target.readDomain size none p) := by
  unfold Target.readDomain
  split
  · exact .done (by simp) p
  · refine (timely_readMore _ due size [] p).thenRead ?_
    intro bs q
    split
    · exact .done (by simp) q
    · exact Target.timely_readNumber _ due q

theorem Target.timely_read (due : Time) (p : Peer) :
    Timely due (Target.read (some due) p) (Target.read none (p.upTo due)) (Target.read none p) := by
  refine (timely_readMore _ due 1 [] p).thenRead ?_
  intro bs q
  generalize bs.getD 0 0 = byte
  split
  · refine (timely_readMore _ due 4 [] q).thenRead ?_
    exact fun _ r => Target.timely_readNumber _ due r
  · refine (timely_readMore _ due 1 [] q).thenRead ?_
    exact fun _ r => Target.timely_readDomain _ due r
  · refine (timely_readMore _ due 16 [] q).thenRead ?_
    intro bs r
    split
    · exact Target.timely_readNumber _ due r
    · exact .done (by simp) r
  · exact .done (by simp) q

end Steps

/-! ## Handling a connection -/

section Handle

variable {policy : AbsorbPolicy} {ms : Nat} {p : Peer}

section Limited

variable {q r : Peer}

end Limited

end Handle

end Camouflage
