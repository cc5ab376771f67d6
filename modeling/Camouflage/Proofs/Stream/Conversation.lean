import Camouflage.Stream.Whole

/-!
# Conversations

A conversation is what one caller does with a stream: operations, one after the other, each with its
deadline. Its results are all that the caller sees of the stream.

The operations that are put together from reads or writes report faults of these, or one of their
own where the bytes run out (`of_readMore_fault`, `of_drain_fault`, `of_writeAll_fault`).
-/

namespace Camouflage

/-! ## Faults of whole reads and writes -/

namespace Duplex

variable {σ : Type} [Duplex σ] {P : IoFault → Prop} {deadline : Deadline} {s s' : σ} {e : IoFault}

/-- A whole read fails as one of its reads does, or because it falls short. -/
theorem of_readMore_fault {short : IoFault} {want : Nat} {got : Bytes}
    (hread : ∀ {n t e t'}, read (σ := σ) n deadline t = (.fault e, t') → P e) (hshort : P short)
    (h : readMore short deadline want got s = (.fault e, s')) : P e := by
  induction want, got, s using readMore.induct (σ := σ) deadline with
  | case1 got s =>
    rw [readMore_zero] at h
    cases h
  | case2 want got s hne t hstep =>
    rw [readMore_of_read hne hstep] at h
    cases h
    exact hshort
  | case3 want got s hne b bs t hstep ih =>
    rw [readMore_of_read hne hstep] at h
    exact ih h
  | case4 want got s hne e' t hstep hinterrupted ih =>
    rw [readMore_of_interrupted hne hstep hinterrupted] at h
    exact ih h
  | case5 want got s hne e' t hstep hfault =>
    rw [readMore_of_fault hne hstep hfault] at h
    cases h
    exact hread hstep
  | case6 want got s hne t hstep =>
    rw [readMore_of_read hne hstep] at h
    cases h

/-- Reading to the end fails as one of its reads does. -/
theorem of_drain_fault {got all : Bytes}
    (hread : ∀ {n t e t'}, read (σ := σ) n deadline t = (.fault e, t') → P e)
    (h : drain deadline got s = (all, .fault e, s')) : P e := by
  induction got, s using drain.induct (σ := σ) deadline with
  | case1 got s t hstep =>
    rw [drain_of_read hstep] at h
    cases h
  | case2 got s b bs t hstep ih =>
    rw [drain_of_read hstep] at h
    exact ih h
  | case3 got s e' t hstep hinterrupted ih =>
    rw [drain_of_interrupted hstep hinterrupted] at h
    exact ih h
  | case4 got s e' t hstep hfault =>
    rw [drain_of_fault hstep hfault] at h
    cases h
    exact hread hstep
  | case5 got s t hstep =>
    rw [drain_of_read hstep] at h
    cases h

/-- A whole write fails as one of its writes does, or because one of them takes nothing. -/
theorem of_writeAll_fault {bs : Bytes}
    (hwrite : ∀ {cs t e t'}, write (σ := σ) cs deadline t = (.fault e, t') → P e)
    (hzero : P (.ofKind .writeZero)) (h : writeAll bs deadline s = (.fault e, s')) : P e := by
  induction bs, s using writeAll.induct (σ := σ) deadline with
  | case1 bs s hnil =>
    rw [writeAll, if_pos hnil] at h
    cases h
  | case2 bs s hne t hstep =>
    rw [writeAll_of_write hne hstep] at h
    cases h
    exact hzero
  | case3 bs s hne n t hstep ih =>
    rw [writeAll_of_write hne hstep] at h
    exact ih h
  | case4 bs s hne e' t hstep hinterrupted ih =>
    rw [writeAll_of_interrupted hne hstep hinterrupted] at h
    exact ih h
  | case5 bs s hne e' t hstep hfault =>
    rw [writeAll_of_fault hne hstep hfault] at h
    cases h
    exact hwrite hstep
  | case6 bs s hne t hstep =>
    rw [writeAll_of_write hne hstep] at h
    cases h

end Duplex

/-! ## Operations -/

/-- The fault of a reply, if it is one. -/
def Reply.fault? {ε α : Type} : Reply ε α → Option ε
  | .fault e => some e
  | _ => none

@[simp] theorem Reply.fault?_eq_some_iff {ε α : Type} {reply : Reply ε α} {e : ε} :
    reply.fault? = some e ↔ reply = .fault e := by
  cases reply <;> simp [fault?]

/-- One use of a stream. -/
inductive Operation where
  | read (most : Nat)
  | readExact (count : Nat)
  | readToEnd
  | write (bytes : Bytes)
  | writeAll (bytes : Bytes)
  | flush
  | shutdown
  deriving DecidableEq, Repr

namespace Operation

/-- How an operation has ended. -/
inductive Result where
  /-- A read, or one of an exact number of bytes. -/
  | bytes (reply : Reply IoFault Bytes)
  /-- Reading to the end; what was read before a fault is kept. -/
  | drained (bytes : Bytes) (ending : Reply IoFault Unit)
  /-- A write; so many bytes were taken. -/
  | count (reply : Reply IoFault Nat)
  /-- A whole write, a flush or a shutdown. -/
  | done (reply : Reply IoFault Unit)
  deriving DecidableEq, Repr

/-- The fault that a caller is told of, if there is one. -/
def Result.fault? : Result → Option IoFault
  | .bytes reply => reply.fault?
  | .drained _ ending => ending.fault?
  | .count reply => reply.fault?
  | .done reply => reply.fault?

variable {σ : Type} [Duplex σ]

def perform (deadline : Deadline) (s : σ) : Operation → Result × σ
  | .read most => (Duplex.read most deadline s).map .bytes id
  | .readExact count => (Duplex.readExact count deadline s).map .bytes id
  | .readToEnd =>
    let (bytes, ending, s) := Duplex.readToEnd deadline s
    (.drained bytes ending, s)
  | .write bytes => (Duplex.write bytes deadline s).map .count id
  | .writeAll bytes => (Duplex.writeAll bytes deadline s).map .done id
  | .flush => (Duplex.flush deadline s).map .done id
  | .shutdown => (Duplex.shutdown deadline s).map .done id

end Operation

/-! ## Conversations -/

section Converse

variable {σ : Type} [Duplex σ]

/-- The results of some operations, one after the other, and the stream behind them. -/
def converse : List (Operation × Deadline) → σ → List Operation.Result × σ
  | [], s => ([], s)
  | (op, deadline) :: rest, s =>
    let (result, s) := op.perform deadline s
    let (results, s) := converse rest s
    (result :: results, s)

theorem length_converse (uses : List (Operation × Deadline)) (s : σ) :
    (converse uses s).1.length = uses.length := by
  induction uses generalizing s with
  | nil => rfl
  | cons use rest ih => exact congrArg Nat.succ (ih _)

/-- A conversation goes on where its first part has ended. -/
theorem converse_append (first rest : List (Operation × Deadline)) (s : σ) :
    converse (first ++ rest) s =
      ((converse first s).1 ++ (converse rest (converse first s).2).1,
        (converse rest (converse first s).2).2) := by
  induction first generalizing s with
  | nil => rfl
  | cons use first ih => simp only [List.cons_append, converse, ih]

end Converse

end Camouflage
