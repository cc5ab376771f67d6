import Camouflage.Proofs.Stream.Arrival

/-!
# Operations under a deadline

A peer cut at a point in time falls silent there (`Peer.upTo`). An operation under a deadline is
timely if it does what it would do to the peer cut at the deadline and without one, except that it
expires where that would wait forever; and an outcome that it has in time is its outcome without a
deadline (`Peer.Timely`). One read is timely (`timely_read`), and so are whole reads
(`timely_readMore`) and everything put together from them.
-/

namespace Camouflage.Peer

/-- The items that are in time, and silence where the first one is not. -/
def upToOf (due now : Time) : List Incoming → List Incoming
  | [] => []
  | .data bs :: rest => .data bs :: upToOf due now rest
  | .fault cause :: rest => .fault cause :: upToOf due now rest
  | .pause ms :: rest =>
    if now + ms ≤ due then .pause ms :: upToOf due (now + ms) rest else [.silence]
  | .notBefore time :: rest =>
    if time ≤ now ∨ time ≤ due then .notBefore time :: upToOf due (max now time) rest
    else [.silence]
  | .silence :: _ => [.silence]

/-- A peer of which nothing arrives after `due`. -/
def upTo (due : Time) (p : Peer) : Peer :=
  { p with incoming := upToOf due p.now p.incoming }

/-! ## One read -/

section Receive

variable {n : Nat} {due now t : Time} {items rest : List Incoming} {reply : Reply IoFault Bytes}

/-- A read that has not expired needs no deadline, and nothing behind it. -/
theorem receive_of_settled (h : receive n (some due) now items = (reply, rest, t))
    (hreply : reply ≠ .expired) :
    receive n none now items = (reply, rest, t) ∧
      receive n none now (upToOf due now items) = (reply, upToOf due t rest, t) := by
  induction items generalizing now with
  | nil =>
    cases h
    exact ⟨rfl, rfl⟩
  | cons item items ih =>
    cases item with
    | data bs =>
      simp only [receive, upToOf] at h ⊢
      split at h
      · rename_i hbs
        cases h
        simp only [hbs, ↓reduceIte, and_self]
      · rename_i hbs
        split at h <;>
        · rename_i hdrop
          cases h
          simp only [hbs, hdrop, Bool.false_eq_true, ↓reduceIte, upToOf, and_self]
    | fault cause =>
      cases h
      exact ⟨rfl, rfl⟩
    | pause ms =>
      simp only [receive, Deadline.admits, decide_eq_true_eq, ↓reduceIte] at h ⊢
      split at h
      · rename_i hin
        rw [upToOf, if_pos hin]
        exact ih h
      · cases h
        exact absurd rfl hreply
    | notBefore time =>
      simp only [receive, Deadline.admits, Bool.or_eq_true, decide_eq_true_eq, or_true,
        ↓reduceIte] at h ⊢
      split at h
      · rename_i hin
        rw [upToOf, if_pos hin]
        simp only [receive, Deadline.admits, Bool.or_eq_true, decide_eq_true_eq, or_true,
          ↓reduceIte]
        exact ih h
      · cases h
        exact absurd rfl hreply
    | silence =>
      cases h
      exact absurd rfl hreply

/-- A read that expires would wait forever. -/
theorem receive_of_expired (h : receive n (some due) now items = (.expired, rest, t)) :
    (receive n none now (upToOf due now items)).1 = .expired := by
  induction items generalizing now with
  | nil => cases h
  | cons item items ih =>
    cases item with
    | data bs =>
      simp only [receive] at h
      split at h
      · cases h
      · split at h <;> cases h
    | fault cause => cases h
    | pause ms =>
      simp only [receive, Deadline.admits, decide_eq_true_eq] at h
      split at h
      · rename_i hin
        rw [upToOf, if_pos hin]
        exact ih h
      · rename_i hout
        rw [upToOf, if_neg hout]
        rfl
    | notBefore time =>
      simp only [receive, Deadline.admits, Bool.or_eq_true, decide_eq_true_eq] at h
      split at h
      · rename_i hin
        rw [upToOf, if_pos hin]
        simp only [receive, Deadline.admits, Bool.or_true, ↓reduceIte]
        exact ih h
      · rename_i hout
        rw [upToOf, if_neg hout]
        rfl
    | silence => rfl

end Receive

/-! ## Timely operations -/

/-- How an operation comes out under the deadline `due` (`timed`), without one but on the peer cut
there (`early`), and without one (`whole`). -/
structure Timely {ε α : Type} (due : Time) (timed early whole : Reply ε α × Peer) : Prop where
  /-- An outcome in time is the outcome, and needs nothing that arrives after the deadline. -/
  settled : timed.1 ≠ .expired → whole = timed ∧ early = (timed.1, timed.2.upTo due)
  /-- An operation that expires lacks something that does not arrive in time. -/
  expired : timed.1 = .expired → early.1 = .expired

section Timely

variable {ε ε' α β : Type} {due : Time} {timed early whole : Reply ε α × Peer}

/-- An outcome that is known beforehand is timely. -/
theorem Timely.done {reply : Reply ε α} (hreply : reply ≠ .expired) (p : Peer) :
    Timely due (reply, p) (reply, p.upTo due) (reply, p) :=
  ⟨fun _ => ⟨rfl, rfl⟩, fun h => absurd h hreply⟩

/-- What is made of an outcome is timely if it expires exactly where the outcome does. -/
theorem Timely.map (h : Timely due timed early whole) {f : Reply ε α → Reply ε' β}
    (hf : ∀ reply, f reply = .expired ↔ reply = .expired) :
    Timely due (f timed.1, timed.2) (f early.1, early.2) (f whole.1, whole.2) := by
  refine ⟨?_, ?_⟩
  · intro hsettled
    obtain ⟨rfl, rfl⟩ := h.settled fun hexpired => hsettled ((hf _).2 hexpired)
    exact ⟨rfl, rfl⟩
  · intro hexpired
    exact (hf _).2 (h.expired ((hf _).1 hexpired))

theorem Timely.of_expired {p : Peer} (h : early.1 = .expired) :
    Timely due (.expired, p) early whole :=
  ⟨fun hsettled => absurd rfl hsettled, fun _ => h⟩

theorem timely_read (n : Nat) (due : Time) (p : Peer) :
    Timely due (Duplex.read n (some due) p) (Duplex.read n none (p.upTo due))
      (Duplex.read n none p) := by
  change Timely due (Peer.read n (some due) p) (Peer.read n none (p.upTo due))
    (Peer.read n none p)
  obtain ⟨⟨reply, rest, t⟩, hreceive⟩ :
      ∃ result, receive n (some due) p.now p.incoming = result := ⟨_, rfl⟩
  refine ⟨?_, ?_⟩
  · intro hreply
    simp only [Peer.read, hreceive] at hreply ⊢
    obtain ⟨hwhole, hearly⟩ := receive_of_settled hreceive hreply
    simp only [upTo, hwhole, hearly, and_self]
  · intro hreply
    simp only [Peer.read, hreceive] at hreply ⊢
    subst hreply
    exact receive_of_expired hreceive

/-- A whole read is a row of reads, and timely because each of them is. -/
theorem timely_readMore (short : IoFault) (due : Time) (want : Nat) (got : Bytes) (p : Peer) :
    Timely due (Duplex.readMore short (some due) want got p)
      (Duplex.readMore short none want got (p.upTo due))
      (Duplex.readMore short none want got p) := by
  induction want, got, p using Duplex.readMore.induct (σ := Peer) (some due) with
  | case1 got p =>
    rw [Duplex.readMore_zero, Duplex.readMore_zero, Duplex.readMore_zero]
    exact .done (by simp) p
  | case2 want got p hne p' hread =>
    obtain ⟨hwhole, hearly⟩ := (hread ▸ timely_read want due p).settled (by simp)
    rw [Duplex.readMore_of_read hne hread, Duplex.readMore_of_read hne hwhole,
      Duplex.readMore_of_read hne hearly]
    dsimp only
    exact .done (by simp) p'
  | case3 want got p hne b bs p' hread ih =>
    obtain ⟨hwhole, hearly⟩ := (hread ▸ timely_read want due p).settled (by simp)
    rw [Duplex.readMore_of_read hne hread, Duplex.readMore_of_read hne hwhole,
      Duplex.readMore_of_read hne hearly]
    exact ih
  | case4 want got p hne e p' hread hinterrupted ih =>
    obtain ⟨hwhole, hearly⟩ := (hread ▸ timely_read want due p).settled (by simp)
    rw [Duplex.readMore_of_interrupted hne hread hinterrupted,
      Duplex.readMore_of_interrupted hne hwhole hinterrupted,
      Duplex.readMore_of_interrupted hne hearly hinterrupted]
    exact ih
  | case5 want got p hne e p' hread hfault =>
    obtain ⟨hwhole, hearly⟩ := (hread ▸ timely_read want due p).settled (by simp)
    rw [Duplex.readMore_of_fault hne hread hfault, Duplex.readMore_of_fault hne hwhole hfault,
      Duplex.readMore_of_fault hne hearly hfault]
    exact .done (by simp) p'
  | case6 want got p hne p' hread =>
    obtain ⟨⟨reply, q⟩, hearly⟩ :
      ∃ result, Duplex.read want none (p.upTo due) = result := ⟨_, rfl⟩
    have hexpired := (hread ▸ timely_read want due p).expired rfl
    rw [hearly] at hexpired
    obtain rfl : reply = .expired := hexpired
    rw [Duplex.readMore_of_read hne hread, Duplex.readMore_of_read hne hearly]
    exact .of_expired rfl

end Timely

end Camouflage.Peer
