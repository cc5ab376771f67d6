import Camouflage.Stream.Basic

/-!
# Scripted peers

A peer whose behaviour is written down beforehand: what arrives and when, how much each write
takes, and how flushes and shutdowns end. Time is virtual and passes only while an operation waits.

Once the script of a side is used up, reading finds the end of the stream and writing takes
everything.
-/

namespace Camouflage

/-- What a read meets. -/
inductive Incoming where
  /-- Bytes; a read that does not take all of them leaves the rest. None at all is the end of the
  stream, once. -/
  | data (bytes : Bytes)
  | fault (cause : IoFault)
  /-- Nothing for so many milliseconds from the first read that meets it on. -/
  | pause (ms : Nat)
  /-- Nothing before a point in time. -/
  | notBefore (time : Time)
  /-- Nothing ever again. -/
  | silence
  deriving DecidableEq, Repr

/-- What a write meets. -/
inductive Outgoing where
  /-- At most so many bytes are taken. -/
  | accept (most : Nat)
  | acceptAll
  | fault (cause : IoFault)
  /-- No write is ever taken again. -/
  | silence
  deriving DecidableEq, Repr

/-- A peer with a script. -/
structure Peer where
  /-- What is still to arrive. -/
  incoming : List Incoming
  /-- What the next writes meet. -/
  outgoing : List Outgoing := []
  /-- How the next flushes end. -/
  flushes : List (Option IoFault) := []
  /-- How the next shutdowns end. -/
  shutdowns : List (Option IoFault) := []
  /-- All bytes taken so far. -/
  written : Bytes := []
  now : Time := 0
  deriving DecidableEq, Repr

namespace Peer

/-- The peer that sends some chunks and closes. -/
def ofChunks (chunks : List Bytes) : Peer :=
  { incoming := chunks.map .data }

/-- One read of at most `n` bytes at time `now`. -/
def receive (n : Nat) (deadline : Deadline) (now : Time) :
    List Incoming → Reply IoFault Bytes × List Incoming × Time
  | [] => (.ok [], [], now)
  | .data bs :: rest =>
    if bs.isEmpty then (.ok [], rest, now)
    else if (bs.drop n).isEmpty then (.ok (bs.take n), rest, now)
    else (.ok (bs.take n), .data (bs.drop n) :: rest, now)
  | .fault cause :: rest => (.fault cause, rest, now)
  | .pause ms :: rest =>
    if deadline.admits (now + ms) then receive n deadline (now + ms) rest
    else (.expired, .notBefore (now + ms) :: rest, deadline.expiry now)
  | .notBefore time :: rest =>
    if time ≤ now || deadline.admits time then receive n deadline (max now time) rest
    else (.expired, .notBefore time :: rest, deadline.expiry now)
  | .silence :: rest => (.expired, .silence :: rest, deadline.expiry now)

def send (bs : Bytes) (deadline : Deadline) (p : Peer) : Reply IoFault Nat × Peer :=
  let taking (n : Nat) (rest : List Outgoing) : Reply IoFault Nat × Peer :=
    (.ok (min n bs.length), { p with outgoing := rest, written := p.written ++ bs.take n })
  match p.outgoing with
  | [] => taking bs.length []
  | .accept most :: rest => taking most rest
  | .acceptAll :: rest => taking bs.length rest
  | .fault cause :: rest => (.fault cause, { p with outgoing := rest })
  | .silence :: _ => (.expired, { p with now := deadline.expiry p.now })

/-- How a flush or a shutdown ends when this is its script. -/
def react : List (Option IoFault) → Reply IoFault Unit × List (Option IoFault)
  | [] => (.ok (), [])
  | none :: rest => (.ok (), rest)
  | some cause :: rest => (.fault cause, rest)

/-- What one item weighs in the measure of reading. -/
def weight : Incoming → Nat
  | .data bs => bs.length + 1
  | _ => 1

/-- The measure of reading. -/
def weights : List Incoming → Nat
  | [] => 0
  | item :: rest => weight item + weights rest

theorem weights_receive {n : Nat} {deadline : Deadline} {now : Time} {items rest : List Incoming}
    {r : Reply IoFault Bytes} {time : Time}
    (h : receive n deadline now items = (r, rest, time)) (hr : r ≠ .ok []) (he : r ≠ .expired) :
    weights rest < weights items := by
  induction items generalizing now with
  | nil =>
    simp only [receive, Prod.mk.injEq] at h
    exact absurd h.1.symm hr
  | cons item items ih =>
    cases item with
    | data bs =>
      simp only [receive] at h
      split at h
      · simp only [Prod.mk.injEq] at h
        exact absurd h.1.symm hr
      · split at h
        · simp only [Prod.mk.injEq] at h
          obtain ⟨-, rfl, -⟩ := h
          simp [weights, weight]
        · simp only [Prod.mk.injEq] at h
          obtain ⟨rfl, rfl, -⟩ := h
          have hn : n ≠ 0 := by
            rintro rfl
            simp at hr
          simp only [weights, weight, List.length_drop]
          rename_i hbs _
          have : bs.length ≠ 0 := by
            intro h0
            exact hbs (by simpa using h0)
          omega
    | fault cause =>
      simp only [receive, Prod.mk.injEq] at h
      obtain ⟨-, rfl, -⟩ := h
      simp [weights, weight]
    | pause ms =>
      simp only [receive] at h
      split at h
      · have := ih h
        simp only [weights, weight] at this ⊢
        omega
      · simp only [Prod.mk.injEq] at h
        exact absurd h.1.symm he
    | notBefore t =>
      simp only [receive] at h
      split at h
      · have := ih h
        simp only [weights, weight] at this ⊢
        omega
      · simp only [Prod.mk.injEq] at h
        exact absurd h.1.symm he
    | silence =>
      simp only [receive, Prod.mk.injEq] at h
      exact absurd h.1.symm he

def read (n : Nat) (deadline : Deadline) (p : Peer) : Reply IoFault Bytes × Peer :=
  let (reply, rest, time) := receive n deadline p.now p.incoming
  (reply, { p with incoming := rest, now := time })

def flush (_ : Deadline) (p : Peer) : Reply IoFault Unit × Peer :=
  let (reply, rest) := react p.flushes
  (reply, { p with flushes := rest })

def shutdown (_ : Deadline) (p : Peer) : Reply IoFault Unit × Peer :=
  let (reply, rest) := react p.shutdowns
  (reply, { p with shutdowns := rest })

theorem weights_read {n : Nat} {d : Deadline} {p p' : Peer} {r : Reply IoFault Bytes}
    (h : p.read n d = (r, p')) (hr : r ≠ .ok []) (he : r ≠ .expired) :
    weights p'.incoming < weights p.incoming := by
  simp only [read, Prod.mk.injEq] at h
  obtain ⟨rfl, rfl⟩ := h
  exact weights_receive rfl hr he

theorem length_outgoing_send {bs : Bytes} {d : Deadline} {p p' : Peer} {e : IoFault}
    (h : p.send bs d = (.fault e, p')) : p'.outgoing.length < p.outgoing.length := by
  unfold send at h
  split at h <;> rename_i heq <;> simp only [Prod.mk.injEq, reduceCtorEq, false_and] at h
  obtain ⟨-, rfl⟩ := h
  simp [heq]

instance : Duplex Peer where
  read := read
  write := send
  flush := flush
  shutdown := shutdown
  now := Peer.now
  unread p := weights p.incoming
  unwritten p := p.outgoing.length
  unread_lt_of_ok h hne := weights_read h (by simpa using hne) (by simp)
  unread_lt_of_fault h := weights_read h (by simp) (by simp)
  unwritten_lt_of_fault h := length_outgoing_send h

end Peer

end Camouflage
