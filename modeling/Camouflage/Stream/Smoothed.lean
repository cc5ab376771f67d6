import Camouflage.Stream.Basic

/-!
# Smoothed streams

When a connection has been closed on this side, the layers below report one of three kinds of
fault. A smoothed stream turns them into what a caller expects of a closed connection: reads find
the end, writes fail with an unexpected end, shutting down again is done. Flushing is passed on as
it is.

Each operation looks at its own outcome only, so after a read that found such an end later reads go
on with whatever the stream has.
-/

namespace Camouflage

/-- A stream on which closing looks like an end. -/
structure Smoothed (σ : Type) where
  inner : σ

namespace Smoothed

variable {σ : Type} [Duplex σ]

/-- The fault of a write on a closed connection. -/
def closed : IoFault :=
  ⟨.unexpectedEof, "connection closed"⟩

/-- How a read ends, given how it ended below. -/
def smoothRead : Reply IoFault Bytes → Reply IoFault Bytes
  | .fault e => if e.tellsClosed then .ok [] else .fault e
  | reply => reply

/-- How a write ends, given how it ended below. -/
def smoothWrite : Reply IoFault Nat → Reply IoFault Nat
  | .fault e => if e.tellsClosed then .fault closed else .fault e
  | reply => reply

/-- How a shutdown ends, given how it ended below. -/
def smoothShutdown : Reply IoFault Unit → Reply IoFault Unit
  | .fault e => if e.tellsClosed then .ok () else .fault e
  | reply => reply

def read (n : Nat) (deadline : Deadline) (s : Smoothed σ) : Reply IoFault Bytes × Smoothed σ :=
  let (reply, inner) := Duplex.read n deadline s.inner
  (smoothRead reply, ⟨inner⟩)

def write (bs : Bytes) (deadline : Deadline) (s : Smoothed σ) :
    Reply IoFault Nat × Smoothed σ :=
  let (reply, inner) := Duplex.write bs deadline s.inner
  (smoothWrite reply, ⟨inner⟩)

def flush (deadline : Deadline) (s : Smoothed σ) : Reply IoFault Unit × Smoothed σ :=
  let (reply, inner) := Duplex.flush deadline s.inner
  (reply, ⟨inner⟩)

def shutdown (deadline : Deadline) (s : Smoothed σ) : Reply IoFault Unit × Smoothed σ :=
  let (reply, inner) := Duplex.shutdown deadline s.inner
  (smoothShutdown reply, ⟨inner⟩)

theorem smoothRead_eq_ok {r : Reply IoFault Bytes} {bs : Bytes} (h : smoothRead r = .ok bs)
    (hbs : bs ≠ []) : r = .ok bs := by
  cases r with
  | ok a => exact h
  | expired => exact h
  | fault e =>
    simp only [smoothRead] at h
    split at h
    · simp only [Reply.ok.injEq] at h
      exact absurd h.symm hbs
    · cases h

theorem smoothRead_eq_fault {r : Reply IoFault Bytes} {e : IoFault}
    (h : smoothRead r = .fault e) : r = .fault e := by
  cases r with
  | ok a => exact h
  | expired => exact h
  | fault e' =>
    simp only [smoothRead] at h
    split at h
    · cases h
    · exact h

theorem smoothWrite_eq_fault {r : Reply IoFault Nat} {e : IoFault}
    (h : smoothWrite r = .fault e) : ∃ e', r = .fault e' := by
  cases r with
  | ok a => cases h
  | expired => cases h
  | fault e' => exact ⟨e', rfl⟩

instance : Duplex (Smoothed σ) where
  read := read
  write := write
  flush := flush
  shutdown := shutdown
  now s := Duplex.now s.inner
  unread s := Duplex.unread s.inner
  unwritten s := Duplex.unwritten s.inner
  unread_lt_of_ok {n d s bs s'} h hbs := by
    simp only [read, Prod.mk.injEq] at h
    obtain ⟨h, rfl⟩ := h
    exact Duplex.unread_lt_of_ok (Prod.ext (smoothRead_eq_ok h hbs) rfl) hbs
  unread_lt_of_fault {n d s e s'} h := by
    simp only [read, Prod.mk.injEq] at h
    obtain ⟨h, rfl⟩ := h
    exact Duplex.unread_lt_of_fault (Prod.ext (smoothRead_eq_fault h) rfl)
  unwritten_lt_of_fault {bs d s e s'} h := by
    simp only [write, Prod.mk.injEq] at h
    obtain ⟨h, rfl⟩ := h
    obtain ⟨e', he⟩ := smoothWrite_eq_fault h
    exact Duplex.unwritten_lt_of_fault (Prod.ext he rfl)

end Smoothed

end Camouflage
