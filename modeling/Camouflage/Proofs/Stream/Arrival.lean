import Camouflage.Stream.Peer
import Camouflage.Stream.Whole

/-!
# What arrives from a peer

All that a reader can get of a scripted peer before its deadline is a string of bytes and the way it
ends (`Peer.arrival`). How the bytes are split into chunks and what interrupts them is forgotten.

One read takes bytes off the front of what arrives and leaves the rest (`arrival_read`), and so does
a whole read (`readMore_of_le`). A later deadline only adds to what arrives, so what is left is
right for every later deadline at once.
-/

namespace Camouflage

/-- How what arrives ends. -/
inductive Ending where
  /-- The peer has closed its side. -/
  | closed
  /-- Reading fails. -/
  | failed (cause : IoFault)
  /-- Nothing more comes in time. -/
  | overdue
  deriving DecidableEq, Repr

/-- Bytes that arrive, and how they end. -/
abbrev Arrival := Bytes × Ending

namespace Arrival

/-- What arrives when some bytes do first. -/
def behind (bs : Bytes) (a : Arrival) : Arrival :=
  (bs ++ a.1, a.2)

@[simp] theorem behind_nil (a : Arrival) : a.behind [] = a := rfl

@[simp] theorem behind_append (bs cs : Bytes) (a : Arrival) :
    a.behind (bs ++ cs) = (a.behind cs).behind bs := by
  simp [behind]

theorem eq_of_behind_eq {bs rest : Bytes} {ending : Ending} {a : Arrival}
    (h : a.behind bs = (bs ++ rest, ending)) : a = (rest, ending) := by
  rw [behind, Prod.mk.injEq] at h
  exact Prod.ext (List.append_cancel_left h.1) h.2

/-- What arrives if one read gives `reply` and `later` arrives after it. -/
def ofReply (later : Arrival) : Reply IoFault Bytes → Arrival
  | .ok bs => if bs = [] then ([], .closed) else later.behind bs
  | .fault cause => if cause.kind = .interrupted then later else ([], .failed cause)
  | .expired => ([], .overdue)

end Arrival

/-- Whatever is in time for one deadline is in time for the other. -/
def Deadline.Within (d d' : Deadline) : Prop :=
  ∀ t, d.admits t = true → d'.admits t = true

theorem Deadline.within_refl (d : Deadline) : d.Within d :=
  fun _ h => h

theorem Deadline.within_none (d : Deadline) : d.Within none :=
  fun _ _ => rfl

namespace Peer

/-- What arrives of some items from time `now` on, as far as it is in time. -/
def arrivalOf (d : Deadline) (now : Time) : List Incoming → Arrival
  | [] => ([], .closed)
  | .data bs :: rest => if bs = [] then ([], .closed) else (arrivalOf d now rest).behind bs
  | .fault cause :: rest =>
    if cause.kind = .interrupted then arrivalOf d now rest else ([], .failed cause)
  | .pause ms :: rest =>
    if d.admits (now + ms) then arrivalOf d (now + ms) rest else ([], .overdue)
  | .notBefore time :: rest =>
    if time ≤ now || d.admits time then arrivalOf d (max now time) rest else ([], .overdue)
  | .silence :: _ => ([], .overdue)

/-- What arrives from a peer until a deadline. -/
def arrival (d : Deadline) (p : Peer) : Arrival :=
  arrivalOf d p.now p.incoming

/-- Of a peer that sends chunks and closes, the chunks arrive. An empty one would be the end. -/
theorem arrival_ofChunks {chunks : List Bytes} (h : ∀ chunk ∈ chunks, chunk ≠ []) (d : Deadline) :
    (ofChunks chunks).arrival d = (chunks.flatten, .closed) := by
  change arrivalOf d 0 (chunks.map .data) = _
  induction chunks with
  | nil => rfl
  | cons chunk chunks ih =>
    rw [List.map_cons, arrivalOf, if_neg (h chunk List.mem_cons_self),
      ih fun c hc => h c (List.mem_cons_of_mem chunk hc)]
    rfl

theorem isPrefix_of_arrival_eq {d : Deadline} {bs : Bytes} {p : Peer} {ending : Ending}
    (h : p.arrival d = (bs, ending)) : bs <+: (p.arrival d).1 :=
  ⟨[], by rw [List.append_nil, h]⟩

theorem isPrefix_of_arrival {d : Deadline} {bs rest : Bytes} {p : Peer} {ending : Ending}
    (h : p.arrival d = (bs ++ rest, ending)) : bs <+: (p.arrival d).1 :=
  (List.prefix_append bs rest).trans (isPrefix_of_arrival_eq h)

/-- Of a peer that sends one chunk, all of it arrives, be it empty or not. -/
theorem isPrefix_arrival_singleton (bs : Bytes) (d : Deadline) :
    bs <+: ((ofChunks [bs]).arrival d).1 := by
  by_cases hbs : bs = []
  · rw [hbs]
    exact List.nil_prefix
  · have hchunk : ∀ chunk ∈ [bs], chunk ≠ [] := fun chunk h => List.mem_singleton.1 h ▸ hbs
    have harrival := arrival_ofChunks hchunk d
    rw [List.flatten_singleton] at harrival
    exact isPrefix_of_arrival_eq harrival

/-- One peer gives up some bytes and becomes the other: the bytes arrive first, and what arrives of
the other follows. This is so for every deadline that is not before `d`. -/
def Gives (d : Deadline) (bs : Bytes) (p p' : Peer) : Prop :=
  ∀ d', d.Within d' → p.arrival d' = (p'.arrival d').behind bs

section Gives

variable {d d' : Deadline} {bs cs rest : Bytes} {p p' p'' : Peer} {ending : Ending}

theorem Gives.nil : Gives d [] p p :=
  fun _ _ => rfl

theorem Gives.unique (h : Gives d bs p p') (h' : Gives d cs p p') : bs = cs := by
  have hsame := (h d d.within_refl).symm.trans (h' d d.within_refl)
  exact List.append_cancel_right (Prod.mk.inj hsame).1

theorem Gives.append (h : Gives d bs p p') (h' : Gives d cs p' p'') :
    Gives d (bs ++ cs) p p'' := by
  intro d' hd
  rw [h d' hd, h' d' hd, Arrival.behind_append]

theorem Gives.isPrefix (h : Gives d bs p p') (hp : bs ++ cs <+: (p.arrival d).1) :
    cs <+: (p'.arrival d).1 := by
  rw [h d d.within_refl] at hp
  exact (List.prefix_append_right_inj bs).1 hp

theorem Gives.arrival (h : Gives d bs p p') (hd : d.Within d')
    (hp : p.arrival d' = (bs ++ rest, ending)) : p'.arrival d' = (rest, ending) := by
  rw [h d' hd] at hp
  exact Arrival.eq_of_behind_eq hp

end Gives

/-! ## One read -/

theorem length_le_of_receive {n : Nat} {d : Deadline} {now t : Time} {items rest : List Incoming}
    {bs : Bytes} (h : receive n d now items = (.ok bs, rest, t)) : bs.length ≤ n := by
  induction items generalizing now with
  | nil =>
    cases h
    exact Nat.zero_le _
  | cons item items ih =>
    cases item with
    | data cs =>
      simp only [receive] at h
      split at h
      · cases h
        exact Nat.zero_le _
      · split at h <;>
        · cases h
          exact List.length_take_le n cs
    | fault cause => cases h
    | pause ms =>
      simp only [receive] at h
      split at h
      · exact ih h
      · cases h
    | notBefore time =>
      simp only [receive] at h
      split at h
      · exact ih h
      · cases h
    | silence => cases h

/-- What arrives is what one read gives and what arrives after it. For another deadline this holds
if the read has not expired. -/
theorem arrivalOf_receive {n : Nat} (hn : 0 < n) {d d' : Deadline} (hd : d.Within d')
    {now t : Time} {items rest : List Incoming} {reply : Reply IoFault Bytes}
    (h : receive n d now items = (reply, rest, t)) (hreply : reply ≠ .expired ∨ d' = d) :
    arrivalOf d' now items = (arrivalOf d' t rest).ofReply reply := by
  induction items generalizing now with
  | nil =>
    cases h
    rfl
  | cons item items ih =>
    cases item with
    | data bs =>
      simp only [receive, List.isEmpty_iff] at h
      by_cases hbs : bs = []
      · rw [if_pos hbs] at h
        cases h
        rw [arrivalOf, if_pos hbs]
        rfl
      · rw [if_neg hbs] at h
        rw [arrivalOf, if_neg hbs]
        have htake : bs.take n ≠ [] := by
          simp only [ne_eq, List.take_eq_nil_iff, hbs, or_false]
          omega
        have hsplit := List.take_append_drop n bs
        by_cases hdrop : bs.drop n = []
        · rw [if_pos hdrop] at h
          cases h
          rw [hdrop, List.append_nil] at hsplit
          rw [Arrival.ofReply, if_neg htake, hsplit]
        · rw [if_neg hdrop] at h
          cases h
          rw [Arrival.ofReply, if_neg htake, arrivalOf, if_neg hdrop, ← Arrival.behind_append,
            hsplit]
    | fault cause =>
      cases h
      rfl
    | pause ms =>
      simp only [receive] at h
      split at h
      · rename_i hin
        rw [arrivalOf, if_pos (hd _ hin)]
        exact ih h
      · rename_i hout
        cases h
        rw [hreply.resolve_left (fun hne => hne rfl), arrivalOf, if_neg hout]
        rfl
    | notBefore time =>
      simp only [receive] at h
      split at h
      · rename_i hin
        have hin' : (decide (time ≤ now) || d'.admits time) = true := by
          rw [Bool.or_eq_true] at hin ⊢
          exact hin.imp_right (hd time)
        rw [arrivalOf, if_pos hin']
        exact ih h
      · rename_i hout
        cases h
        rw [hreply.resolve_left (fun hne => hne rfl), arrivalOf, if_neg hout]
        rfl
    | silence =>
      cases h
      rfl

theorem arrival_read {n : Nat} (hn : 0 < n) {d d' : Deadline} (hd : d.Within d') {p p' : Peer}
    {reply : Reply IoFault Bytes} (h : Duplex.read n d p = (reply, p'))
    (hreply : reply ≠ .expired ∨ d' = d) : p.arrival d' = (p'.arrival d').ofReply reply := by
  change Peer.read n d p = (reply, p') at h
  simp only [Peer.read, Prod.mk.injEq] at h
  obtain ⟨rfl, rfl⟩ := h
  exact arrivalOf_receive hn hd rfl hreply

theorem length_le_of_read {n : Nat} {d : Deadline} {p p' : Peer} {bs : Bytes}
    (h : Duplex.read n d p = (.ok bs, p')) : bs.length ≤ n := by
  change Peer.read n d p = (.ok bs, p') at h
  simp only [Peer.read, Prod.mk.injEq] at h
  exact length_le_of_receive (Prod.ext h.1 rfl)

/-! ## Whole reads -/

/-- If enough bytes are in time, so many are read, and the others are left to arrive. -/
theorem readMore_of_le (short : IoFault) {d : Deadline} {want : Nat} (got : Bytes) {p : Peer}
    (hwant : want ≤ (p.arrival d).1.length) :
    ∃ bs p', Duplex.readMore short d want got p = (.ok (got ++ bs), p') ∧ bs.length = want ∧
      Gives d bs p p' := by
  induction want, got, p using Duplex.readMore.induct (σ := Peer) d with
  | case1 got p =>
    exact ⟨[], p, by rw [Duplex.readMore_zero, List.append_nil], rfl, .nil⟩
  | case2 want got p hne p' hread =>
    rw [arrival_read (Nat.pos_of_ne_zero hne) d.within_refl hread (.inr rfl)] at hwant
    exact absurd (Nat.le_zero.1 hwant) hne
  | case3 want got p hne b bs p' hread ih =>
    have hgives : Gives d (b :: bs) p p' := by
      intro d' hd
      rw [arrival_read (Nat.pos_of_ne_zero hne) hd hread (.inl (by simp)), Arrival.ofReply,
        if_neg (List.cons_ne_nil b bs)]
    have hbs := length_le_of_read hread
    rw [hgives d d.within_refl, Arrival.behind, List.length_append] at hwant
    obtain ⟨cs, p'', hmore, hcs, hgives'⟩ := ih (by omega)
    refine ⟨b :: bs ++ cs, p'', ?_, ?_, hgives.append hgives'⟩
    · rw [Duplex.readMore_of_read hne hread]
      dsimp only
      rw [hmore, List.append_assoc]
    · rw [List.length_append, hcs]
      omega
  | case4 want got p hne e p' hread hinterrupted ih =>
    have hgives : Gives d [] p p' := by
      intro d' hd
      rw [arrival_read (Nat.pos_of_ne_zero hne) hd hread (.inl (by simp)), Arrival.ofReply,
        if_pos hinterrupted, Arrival.behind_nil]
    rw [hgives d d.within_refl, Arrival.behind_nil] at hwant
    obtain ⟨bs, p'', hmore, hbs, hgives'⟩ := ih hwant
    refine ⟨bs, p'', ?_, hbs, hgives.append hgives'⟩
    rw [Duplex.readMore_of_interrupted hne hread hinterrupted, hmore]
  | case5 want got p hne e p' hread hfault =>
    rw [arrival_read (Nat.pos_of_ne_zero hne) d.within_refl hread (.inr rfl), Arrival.ofReply,
      if_neg hfault] at hwant
    exact absurd (Nat.le_zero.1 hwant) hne
  | case6 want got p hne p' hread =>
    rw [arrival_read (Nat.pos_of_ne_zero hne) d.within_refl hread (.inr rfl)] at hwant
    exact absurd (Nat.le_zero.1 hwant) hne

/-- A whole read of the first bytes that are in time gives them and leaves what is behind them. -/
theorem readMore_of_isPrefix (short : IoFault) {d : Deadline} {bs : Bytes} {p : Peer}
    (h : bs <+: (p.arrival d).1) :
    ∃ p', Duplex.readMore short d bs.length [] p = (.ok bs, p') ∧ Gives d bs p p' := by
  obtain ⟨cs, p', hread, hlength, hgives⟩ := readMore_of_le short [] h.length_le
  have hsame : cs = bs := by
    rw [hgives d d.within_refl] at h
    exact List.IsPrefix.eq_of_length (List.prefix_of_prefix_length_le (List.prefix_append cs _) h
      (Nat.le_of_eq hlength)) hlength
  subst hsame
  exact ⟨p', hread, hgives⟩

section Append

variable {d : Deadline} {n : Nat} {bs rest : Bytes} {p : Peer}

theorem readMore_of_append (short : IoFault) (hn : bs.length = n)
    (h : bs ++ rest <+: (p.arrival d).1) :
    ∃ p', Duplex.readMore short d n [] p = (.ok bs, p') ∧ Gives d bs p p' ∧
      rest <+: (p'.arrival d).1 := by
  obtain ⟨p', hread, hgives⟩ := readMore_of_isPrefix short ((List.prefix_append _ _).trans h)
  subst hn
  exact ⟨p', hread, hgives, hgives.isPrefix h⟩

theorem readExact_of_append (hn : bs.length = n) (h : bs ++ rest <+: (p.arrival d).1) :
    ∃ p', Duplex.readExact n d p = (.ok bs, p') ∧ Gives d bs p p' ∧
      rest <+: (p'.arrival d).1 :=
  readMore_of_append .earlyEnd hn h

theorem readNumber_of_append (hn : bs.length = n) (h : bs ++ rest <+: (p.arrival d).1) :
    ∃ p', Duplex.readNumber n d p = (.ok bs, p') ∧ Gives d bs p p' ∧
      rest <+: (p'.arrival d).1 :=
  readMore_of_append (.ofKind .unexpectedEof) hn h

end Append

end Peer

end Camouflage
