import Camouflage.Stream.Peer
import Camouflage.Stream.Whole

/-!
# What a peer has taken

A write adds to the bytes taken the front of what it was offered. So a whole write adds the front of
its bytes, and all of them exactly if it is done (`written_writeAll`).
-/

namespace Camouflage.Peer

/-- How many bytes a write has taken. -/
def taken : Reply IoFault Nat → Nat
  | .ok n => n
  | .fault _ => 0
  | .expired => 0

theorem written_write {bs : Bytes} {d : Deadline} {p p' : Peer} {reply : Reply IoFault Nat}
    (h : Duplex.write bs d p = (reply, p')) :
    p'.written = p.written ++ bs.take (taken reply) := by
  change Peer.send bs d p = (reply, p') at h
  unfold Peer.send at h
  dsimp only at h
  split at h <;> cases h <;>
    simp [taken, ← List.take_eq_take_min]

/-- A whole write that ends with some of its bytes left is not done. -/
theorem not_done {bs : Bytes} {reply : Reply IoFault Unit} (hreply : reply ≠ .ok ())
    (hbs : bs.length ≠ 0) : reply = .ok () ↔ [] = bs := by
  refine iff_of_false hreply ?_
  rintro rfl
  exact hbs rfl

/-- A whole write adds the front of its bytes, and it is done exactly if it has added all of
them. -/
theorem written_writeAll {bs : Bytes} {d : Deadline} {p p' : Peer} {reply : Reply IoFault Unit}
    (h : Duplex.writeAll bs d p = (reply, p')) :
    ∃ front, front <+: bs ∧ p'.written = p.written ++ front ∧ (reply = .ok () ↔ front = bs) := by
  induction bs, p using Duplex.writeAll.induct (σ := Peer) d with
  | case1 bs p hbs =>
    obtain rfl := List.length_eq_zero_iff.1 hbs
    rw [Duplex.writeAll_nil] at h
    cases h
    exact ⟨[], List.nil_prefix, by rw [List.append_nil], iff_of_true rfl rfl⟩
  | case2 bs p hbs p₁ hwrite =>
    rw [Duplex.writeAll_of_write hbs hwrite] at h
    cases h
    exact ⟨[], List.nil_prefix, written_write hwrite, not_done (by simp) hbs⟩
  | case3 bs p hbs n p₁ hwrite ih =>
    rw [Duplex.writeAll_of_write hbs hwrite] at h
    obtain ⟨front, hfront, hwritten, hdone⟩ := ih h
    have hsplit := List.take_append_drop (n + 1) bs
    refine ⟨bs.take (n + 1) ++ front, ?_, ?_, ?_⟩
    · rw [← List.prefix_append_right_inj (bs.take (n + 1)), hsplit] at hfront
      exact hfront
    · rw [hwritten, written_write hwrite, List.append_assoc]
      rfl
    · rw [hdone, ← List.append_right_inj (bs.take (n + 1)), hsplit]
  | case4 bs p hbs e p₁ hwrite hinterrupted ih =>
    rw [Duplex.writeAll_of_interrupted hbs hwrite hinterrupted] at h
    obtain ⟨front, hfront, hwritten, hdone⟩ := ih h
    refine ⟨front, hfront, ?_, hdone⟩
    rw [hwritten, written_write hwrite, taken, List.take_zero, List.append_nil]
  | case5 bs p hbs e p₁ hwrite hfault =>
    rw [Duplex.writeAll_of_fault hbs hwrite hfault] at h
    cases h
    exact ⟨[], List.nil_prefix, written_write hwrite, not_done (by simp) hbs⟩
  | case6 bs p hbs p₁ hwrite =>
    rw [Duplex.writeAll_of_write hbs hwrite] at h
    cases h
    exact ⟨[], List.nil_prefix, written_write hwrite, not_done (by simp) hbs⟩

/-- A whole write that is done has added all its bytes. -/
theorem written_of_writeAll_ok {bs : Bytes} {d : Deadline} {p p' : Peer}
    (h : Duplex.writeAll bs d p = (.ok (), p')) : p'.written = p.written ++ bs := by
  obtain ⟨front, -, hwritten, hdone⟩ := written_writeAll h
  rw [hwritten, hdone.1 rfl]

/-- A whole write that is not done has added a front of its bytes and left some of them. -/
theorem written_of_writeAll_ne_ok {bs : Bytes} {d : Deadline} {p p' : Peer}
    {reply : Reply IoFault Unit} (h : Duplex.writeAll bs d p = (reply, p'))
    (hreply : reply ≠ .ok ()) :
    ∃ front, front <+: bs ∧ front ≠ bs ∧ p'.written = p.written ++ front := by
  obtain ⟨front, hfront, hwritten, hdone⟩ := written_writeAll h
  exact ⟨front, hfront, fun hall => hreply (hdone.2 hall), hwritten⟩

/-- A peer whose script is used up takes everything at once. -/
theorem writeAll_of_outgoing_nil (bs : Bytes) (d : Deadline) {p : Peer} (hp : p.outgoing = []) :
    Duplex.writeAll bs d p = (.ok (), { p with written := p.written ++ bs }) := by
  cases bs with
  | nil => rw [Duplex.writeAll_nil, List.append_nil]
  | cons b bs =>
    have hwrite : Duplex.write (b :: bs) d p =
        (.ok (bs.length + 1), { p with written := p.written ++ b :: bs }) := by
      change Peer.send (b :: bs) d p = _
      simp [Peer.send, hp]
    rw [Duplex.writeAll_of_write (by simp) hwrite]
    dsimp only
    rw [List.drop_eq_nil_of_le (by simp), Duplex.writeAll_nil]

end Camouflage.Peer
