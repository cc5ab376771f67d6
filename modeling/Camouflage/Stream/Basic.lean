import Camouflage.Bytes
import Camouflage.Fault

/-!
# Byte streams

A stream is used through four operations: one read, one write, a flush and a shutdown. Each of them
either is done, fails, or has to wait. Waiting is bounded by a deadline; an operation that is still
waiting when its deadline has passed is reported as `expired`, and one without a deadline that never
ends is reported in the same way. Data that is there at the deadline counts as being there in time.

A read may give fewer bytes than asked for, and gives none at the end of the stream. A write may
take fewer bytes than offered.

What the operations of `Stream.Whole` need to know of a stream is the class `Duplex`. Its two
measures bound how often reads and writes can make progress or fail; they make the loops end.
-/

namespace Camouflage

/-- A point in time, in milliseconds. -/
abbrev Time := Nat

/-- Until when an operation may wait; `none` is forever. -/
abbrev Deadline := Option Time

namespace Deadline

/-- Whether a point in time is not behind a deadline. -/
def admits : Deadline → Time → Bool
  | none, _ => true
  | some d, t => t ≤ d

/-- The earlier one of a deadline and a point in time. -/
def orEarlier : Deadline → Time → Deadline
  | none, t => some t
  | some d, t => some (min d t)

/-- The time at which an operation that waits from `now` on expires. -/
def expiry : Deadline → Time → Time
  | none, now => now
  | some d, now => max now d

end Deadline

/-- How an operation ends. -/
inductive Reply (ε α : Type) where
  | ok (a : α)
  | fault (e : ε)
  /-- It was still waiting at its deadline. -/
  | expired
  deriving DecidableEq, Repr

namespace Reply

variable {ε ε' α β : Type}

def map (f : α → β) : Reply ε α → Reply ε β
  | .ok a => .ok (f a)
  | .fault e => .fault e
  | .expired => .expired

def mapFault (f : ε → ε') : Reply ε α → Reply ε' α
  | .ok a => .ok a
  | .fault e => .fault (f e)
  | .expired => .expired

end Reply

/-- A stream that can be read and written. -/
class Duplex (σ : Type) where
  /-- Reads at most so many bytes. -/
  read : Nat → Deadline → σ → Reply IoFault Bytes × σ
  /-- Writes some of the bytes; gives their number. -/
  write : Bytes → Deadline → σ → Reply IoFault Nat × σ
  flush : Deadline → σ → Reply IoFault Unit × σ
  shutdown : Deadline → σ → Reply IoFault Unit × σ
  now : σ → Time
  /-- Bounds how often a read can give bytes or fail. -/
  unread : σ → Nat
  /-- Bounds how often a write can fail. -/
  unwritten : σ → Nat
  unread_lt_of_ok : ∀ {n d s bs s'}, read n d s = (.ok bs, s') → bs ≠ [] → unread s' < unread s
  unread_lt_of_fault : ∀ {n d s e s'}, read n d s = (.fault e, s') → unread s' < unread s
  unwritten_lt_of_fault : ∀ {bs d s e s'},
    write bs d s = (.fault e, s') → unwritten s' < unwritten s

end Camouflage
