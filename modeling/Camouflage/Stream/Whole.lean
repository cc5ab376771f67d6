import Camouflage.Stream.Basic

/-!
# Whole reads and writes

Reading an exact number of bytes, reading to the end, and writing all of some bytes: loops over the
single operations of a stream. An interrupted operation is tried again; every other fault ends the
loop and is reported. What had been read before a fault is lost, except when reading to the end.
-/

namespace Camouflage.Duplex

variable {σ : Type} [Duplex σ]

/-- Reads `want` more bytes behind those of `got`. If the stream ends before, the fault is
`short`. -/
def readMore (short : IoFault) (deadline : Deadline) (want : Nat) (got : Bytes) (s : σ) :
    Reply IoFault Bytes × σ :=
  if want = 0 then (.ok got, s)
  else
    match _h : read want deadline s with
    | (.ok [], s') => (.fault short, s')
    | (.ok (b :: bs), s') =>
      readMore short deadline (want - (b :: bs).length) (got ++ b :: bs) s'
    | (.fault e, s') =>
      if e.kind = .interrupted then readMore short deadline want got s' else (.fault e, s')
    | (.expired, s') => (.expired, s')
termination_by unread s
decreasing_by
  · exact unread_lt_of_ok _h (by simp)
  · exact unread_lt_of_fault _h

/-- Reads exactly `n` bytes. Reading none does not touch the stream. -/
def readExact (n : Nat) (deadline : Deadline) (s : σ) : Reply IoFault Bytes × σ :=
  readMore .earlyEnd deadline n [] s

/-- Reads a fixed-size number of `n` bytes. -/
def readNumber (n : Nat) (deadline : Deadline) (s : σ) : Reply IoFault Bytes × σ :=
  readMore (.ofKind .unexpectedEof) deadline n [] s

/-- The number of bytes asked for at once when reading to the end. -/
def chunkSize : Nat := 8192

/-- Reads to the end of the stream, behind the bytes of `got`; gives what was read in any case, and
how reading ended. -/
def drain (deadline : Deadline) (got : Bytes) (s : σ) : Bytes × Reply IoFault Unit × σ :=
  match _h : read chunkSize deadline s with
  | (.ok [], s') => (got, .ok (), s')
  | (.ok (b :: bs), s') => drain deadline (got ++ b :: bs) s'
  | (.fault e, s') =>
    if e.kind = .interrupted then drain deadline got s' else (got, .fault e, s')
  | (.expired, s') => (got, .expired, s')
termination_by unread s
decreasing_by
  · exact unread_lt_of_ok _h (by simp)
  · exact unread_lt_of_fault _h

def readToEnd (deadline : Deadline) (s : σ) : Bytes × Reply IoFault Unit × σ :=
  drain deadline [] s

/-- Writes all of some bytes. A write that takes none of them is a fault. -/
def writeAll (bs : Bytes) (deadline : Deadline) (s : σ) : Reply IoFault Unit × σ :=
  if bs.length = 0 then (.ok (), s)
  else
    match _h : write bs deadline s with
    | (.ok 0, s') => (.fault (.ofKind .writeZero), s')
    | (.ok (n + 1), s') => writeAll (bs.drop (n + 1)) deadline s'
    | (.fault e, s') =>
      if e.kind = .interrupted then writeAll bs deadline s' else (.fault e, s')
    | (.expired, s') => (.expired, s')
termination_by (bs.length, unwritten s)
decreasing_by
  · apply Prod.Lex.left
    simp only [List.length_drop]
    omega
  · apply Prod.Lex.right
    exact unwritten_lt_of_fault _h

/-! ## Their first steps -/

section Steps

variable {deadline : Deadline} {s s' : σ}

theorem readMore_zero (short : IoFault) (got : Bytes) (s : σ) :
    readMore short deadline 0 got s = (.ok got, s) := by
  rw [readMore, if_pos rfl]

/-- What a whole read does after its first read. -/
theorem readMore_of_read {short : IoFault} {want : Nat} {got : Bytes} {reply : Reply IoFault Bytes}
    (hwant : want ≠ 0) (h : read want deadline s = (reply, s')) :
    readMore short deadline want got s =
      match reply with
      | .ok [] => (.fault short, s')
      | .ok (b :: bs) => readMore short deadline (want - (b :: bs).length) (got ++ b :: bs) s'
      | .fault e =>
        if e.kind = .interrupted then readMore short deadline want got s' else (.fault e, s')
      | .expired => (.expired, s') := by
  rw [readMore, if_neg hwant]
  split <;>
  · rename_i hread
    rw [h] at hread
    cases hread
    rfl

theorem readMore_of_interrupted {short : IoFault} {want : Nat} {got : Bytes} {e : IoFault}
    (hwant : want ≠ 0) (h : read want deadline s = (.fault e, s')) (he : e.kind = .interrupted) :
    readMore short deadline want got s = readMore short deadline want got s' :=
  (readMore_of_read hwant h).trans (if_pos he)

theorem readMore_of_fault {short : IoFault} {want : Nat} {got : Bytes} {e : IoFault}
    (hwant : want ≠ 0) (h : read want deadline s = (.fault e, s')) (he : ¬ e.kind = .interrupted) :
    readMore short deadline want got s = (.fault e, s') :=
  (readMore_of_read hwant h).trans (if_neg he)

/-- What reading to the end does after its first read. -/
theorem drain_of_read {got : Bytes} {reply : Reply IoFault Bytes}
    (h : read chunkSize deadline s = (reply, s')) :
    drain deadline got s =
      match reply with
      | .ok [] => (got, .ok (), s')
      | .ok (b :: bs) => drain deadline (got ++ b :: bs) s'
      | .fault e => if e.kind = .interrupted then drain deadline got s' else (got, .fault e, s')
      | .expired => (got, .expired, s') := by
  rw [drain]
  split <;>
  · rename_i hread
    rw [h] at hread
    cases hread
    rfl

theorem drain_of_interrupted {got : Bytes} {e : IoFault}
    (h : read chunkSize deadline s = (.fault e, s')) (he : e.kind = .interrupted) :
    drain deadline got s = drain deadline got s' :=
  (drain_of_read h).trans (if_pos he)

theorem drain_of_fault {got : Bytes} {e : IoFault}
    (h : read chunkSize deadline s = (.fault e, s')) (he : ¬ e.kind = .interrupted) :
    drain deadline got s = (got, .fault e, s') :=
  (drain_of_read h).trans (if_neg he)

theorem writeAll_nil (s : σ) : writeAll [] deadline s = (.ok (), s) := by
  rw [writeAll, if_pos List.length_nil]

/-- What a whole write does after its first write. -/
theorem writeAll_of_write {bs : Bytes} {reply : Reply IoFault Nat} (hbs : bs.length ≠ 0)
    (h : write bs deadline s = (reply, s')) :
    writeAll bs deadline s =
      match reply with
      | .ok 0 => (.fault (.ofKind .writeZero), s')
      | .ok (n + 1) => writeAll (bs.drop (n + 1)) deadline s'
      | .fault e =>
        if e.kind = .interrupted then writeAll bs deadline s' else (.fault e, s')
      | .expired => (.expired, s') := by
  rw [writeAll, if_neg hbs]
  split <;>
  · rename_i hwrite
    rw [h] at hwrite
    cases hwrite
    rfl

theorem writeAll_of_interrupted {bs : Bytes} {e : IoFault} (hbs : bs.length ≠ 0)
    (h : write bs deadline s = (.fault e, s')) (he : e.kind = .interrupted) :
    writeAll bs deadline s = writeAll bs deadline s' :=
  (writeAll_of_write hbs h).trans (if_pos he)

theorem writeAll_of_fault {bs : Bytes} {e : IoFault} (hbs : bs.length ≠ 0)
    (h : write bs deadline s = (.fault e, s')) (he : ¬ e.kind = .interrupted) :
    writeAll bs deadline s = (.fault e, s') :=
  (writeAll_of_write hbs h).trans (if_neg he)

end Steps

end Camouflage.Duplex
