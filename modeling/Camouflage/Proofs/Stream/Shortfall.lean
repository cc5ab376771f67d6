import Camouflage.Proofs.Stream.Arrival

/-!
# Whole reads that fall short

If fewer bytes arrive than a whole read wants, it takes all of them, meets what ends them and says
so (`readMore_of_lt`); reading to the end always does (`drain_eq`). Of the script, what stands
behind that end is left, and nothing else (`Peer.beyond`).
-/

namespace Camouflage

/-- How a whole read ends that meets the end of what arrives. -/
def Ending.reply (short : IoFault) : Ending → Reply IoFault Bytes
  | .closed => .fault short
  | .failed cause => .fault cause
  | .overdue => .expired

/-- How reading to the end of what arrives ends. -/
def Ending.outcome : Ending → Reply IoFault Unit
  | .closed => .ok ()
  | .failed cause => .fault cause
  | .overdue => .expired

namespace Peer

/-- The items behind what ends the bytes that arrive. A wait beyond the deadline is still there. -/
def beyondOf (d : Deadline) (now : Time) : List Incoming → List Incoming
  | [] => []
  | .data bs :: rest => if bs = [] then rest else beyondOf d now rest
  | .fault cause :: rest => if cause.kind = .interrupted then beyondOf d now rest else rest
  | .pause ms :: rest =>
    if d.admits (now + ms) then beyondOf d (now + ms) rest else .notBefore (now + ms) :: rest
  | .notBefore time :: rest =>
    if time ≤ now || d.admits time then beyondOf d (max now time) rest
    else .notBefore time :: rest
  | .silence :: rest => .silence :: rest

/-- What stands in a peer's script behind the end of what arrives. -/
def beyond (d : Deadline) (p : Peer) : List Incoming :=
  beyondOf d p.now p.incoming

/-- What is beyond the end if one read gives `reply` and leaves `rest`, beyond the end of which
there is `later`: a read that gives bytes or is interrupted has not met the end. -/
def beyondReply (later rest : List Incoming) : Reply IoFault Bytes → List Incoming
  | .ok bs => if bs = [] then rest else later
  | .fault cause => if cause.kind = .interrupted then later else rest
  | .expired => rest

/-! ## One read -/

theorem beyondOf_receive {n : Nat} (hn : 0 < n) {d : Deadline} {now t : Time}
    {items rest : List Incoming} {reply : Reply IoFault Bytes}
    (h : receive n d now items = (reply, rest, t)) :
    beyondOf d now items = beyondReply (beyondOf d t rest) rest reply := by
  induction items generalizing now with
  | nil =>
    cases h
    rfl
  | cons item items ih =>
    cases item with
    | data bs =>
      simp only [receive, List.isEmpty_iff] at h
      by_cases hbs : bs = []
      · rw [if_pos hbs] at h
        cases h
        rw [beyondOf, if_pos hbs]
        rfl
      · have htake : bs.take n ≠ [] := by
          simp only [ne_eq, List.take_eq_nil_iff, hbs, or_false]
          omega
        rw [if_neg hbs] at h
        rw [beyondOf, if_neg hbs]
        by_cases hdrop : bs.drop n = []
        · rw [if_pos hdrop] at h
          cases h
          rw [beyondReply, if_neg htake]
        · rw [if_neg hdrop] at h
          cases h
          rw [beyondReply, if_neg htake, beyondOf, if_neg hdrop]
    | fault cause =>
      cases h
      rfl
    | pause ms =>
      simp only [receive] at h
      split at h
      · rename_i hin
        rw [beyondOf, if_pos hin]
        exact ih h
      · rename_i hout
        cases h
        rw [beyondOf, if_neg hout]
        rfl
    | notBefore time =>
      simp only [receive] at h
      split at h
      · rename_i hin
        rw [beyondOf, if_pos hin]
        exact ih h
      · rename_i hout
        cases h
        rw [beyondOf, if_neg hout]
        rfl
    | silence =>
      cases h
      rfl

theorem beyond_read {n : Nat} (hn : 0 < n) {d : Deadline} {p p' : Peer}
    {reply : Reply IoFault Bytes} (h : Duplex.read n d p = (reply, p')) :
    p.beyond d = beyondReply (p'.beyond d) p'.incoming reply := by
  change Peer.read n d p = (reply, p') at h
  simp only [Peer.read, Prod.mk.injEq] at h
  obtain ⟨rfl, rfl⟩ := h
  exact beyondOf_receive hn rfl

/-! ## Whole reads -/

/-- If fewer bytes arrive than are wanted, all of them are lost, and a whole read ends in the way
they do. -/
theorem readMore_of_lt (short : IoFault) {d : Deadline} {want : Nat} (got : Bytes) {p : Peer}
    (hwant : (p.arrival d).1.length < want) :
    ∃ p', Duplex.readMore short d want got p = ((p.arrival d).2.reply short, p') ∧
      p'.incoming = p.beyond d := by
  induction want, got, p using Duplex.readMore.induct (σ := Peer) d with
  | case1 got p => exact absurd hwant (Nat.not_lt_zero _)
  | case2 want got p hne p' hread =>
    rw [Duplex.readMore_of_read hne hread, beyond_read (Nat.pos_of_ne_zero hne) hread,
      arrival_read (Nat.pos_of_ne_zero hne) d.within_refl hread (.inr rfl)]
    exact ⟨p', rfl, rfl⟩
  | case3 want got p hne b bs p' hread ih =>
    rw [arrival_read (Nat.pos_of_ne_zero hne) d.within_refl hread (.inr rfl), Arrival.ofReply,
      if_neg (List.cons_ne_nil b bs)] at hwant ⊢
    rw [Duplex.readMore_of_read hne hread, beyond_read (Nat.pos_of_ne_zero hne) hread, beyondReply,
      if_neg (List.cons_ne_nil b bs)]
    rw [Arrival.behind, List.length_append] at hwant
    exact ih (by omega)
  | case4 want got p hne e p' hread hinterrupted ih =>
    rw [arrival_read (Nat.pos_of_ne_zero hne) d.within_refl hread (.inr rfl), Arrival.ofReply,
      if_pos hinterrupted] at hwant ⊢
    rw [Duplex.readMore_of_interrupted hne hread hinterrupted,
      beyond_read (Nat.pos_of_ne_zero hne) hread, beyondReply, if_pos hinterrupted]
    exact ih hwant
  | case5 want got p hne e p' hread hfault =>
    rw [Duplex.readMore_of_fault hne hread hfault, beyond_read (Nat.pos_of_ne_zero hne) hread,
      beyondReply, arrival_read (Nat.pos_of_ne_zero hne) d.within_refl hread (.inr rfl),
      Arrival.ofReply, if_neg hfault, if_neg hfault]
    exact ⟨p', rfl, rfl⟩
  | case6 want got p hne p' hread =>
    rw [Duplex.readMore_of_read hne hread, beyond_read (Nat.pos_of_ne_zero hne) hread,
      arrival_read (Nat.pos_of_ne_zero hne) d.within_refl hread (.inr rfl)]
    exact ⟨p', rfl, rfl⟩

/-- Reading to the end gives all that arrives, and ends in the way it does. -/
theorem drain_eq (d : Deadline) (got : Bytes) (p : Peer) :
    ∃ p', Duplex.drain d got p = (got ++ (p.arrival d).1, (p.arrival d).2.outcome, p') ∧
      p'.incoming = p.beyond d := by
  have hchunk : 0 < Duplex.chunkSize := by decide
  induction got, p using Duplex.drain.induct (σ := Peer) d with
  | case1 got p p' hread =>
    rw [Duplex.drain_of_read hread, beyond_read hchunk hread,
      arrival_read hchunk d.within_refl hread (.inr rfl)]
    exact ⟨p', by simp [Arrival.ofReply, Ending.outcome], rfl⟩
  | case2 got p b bs p' hread ih =>
    obtain ⟨p'', hdrain, hleft⟩ := ih
    refine ⟨p'', ?_, ?_⟩
    · rw [Duplex.drain_of_read hread, arrival_read hchunk d.within_refl hread (.inr rfl),
        Arrival.ofReply, if_neg (List.cons_ne_nil b bs), Arrival.behind, ← List.append_assoc]
      exact hdrain
    · rw [beyond_read hchunk hread, beyondReply, if_neg (List.cons_ne_nil b bs), hleft]
  | case3 got p e p' hread hinterrupted ih =>
    rw [Duplex.drain_of_interrupted hread hinterrupted, beyond_read hchunk hread,
      arrival_read hchunk d.within_refl hread (.inr rfl), beyondReply, Arrival.ofReply,
      if_pos hinterrupted, if_pos hinterrupted]
    exact ih
  | case4 got p e p' hread hfault =>
    rw [Duplex.drain_of_fault hread hfault, beyond_read hchunk hread,
      arrival_read hchunk d.within_refl hread (.inr rfl), beyondReply, Arrival.ofReply,
      if_neg hfault, if_neg hfault]
    exact ⟨p', by simp [Ending.outcome], rfl⟩
  | case5 got p p' hread =>
    rw [Duplex.drain_of_read hread, beyond_read hchunk hread,
      arrival_read hchunk d.within_refl hread (.inr rfl)]
    exact ⟨p', by simp [Arrival.ofReply, Ending.outcome], rfl⟩

end Peer

end Camouflage
