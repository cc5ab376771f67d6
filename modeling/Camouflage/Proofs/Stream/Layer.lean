import Camouflage.Proofs.Stream.Conversation
import Camouflage.Stream.Smoothed

/-!
# Layers on a stream

A layer hands each operation on to the stream below. It may put something else in the place of a
fault of a closed connection, and it may write down that there was one; it does nothing more.

These faults are never tried again, so each of them ends the operation that meets it. Hence what a
layer does to single operations is all that it does to whole reads and writes
(`Layer.readMore_wrap`, `Layer.drain_wrap`, `Layer.writeAll_wrap`), and in a conversation the stream
below goes through the same states as without the layer (`Layer.converse_wrap`).
-/

namespace Camouflage

/-- The fault of a closed connection that an outcome is, if it is one. -/
def IoFault.closing (fault? : Option IoFault) : List IoFault :=
  fault?.toList.filter IoFault.tellsClosed

theorem IoFault.closing_some_eq_nil_iff {e : IoFault} :
    closing (some e) = [] ↔ e.tellsClosed = false := by
  simp [closing]

/-- A fault that is tried again tells of no closed connection. -/
theorem IoFault.tellsClosed_of_interrupted {e : IoFault} (h : e.kind = .interrupted) :
    e.tellsClosed = false := by
  simp [tellsClosed, h]

namespace Reply

variable {α : Type} {hidden : IoFault → Bool} {instead : Reply IoFault α} {e : IoFault}

/-- The fault of a closed connection that a reply is, if it is one. -/
def closing (reply : Reply IoFault α) : List IoFault :=
  IoFault.closing reply.fault?

/-- A reply with another one in the place of some faults. -/
def replacing (reply : Reply IoFault α) (hidden : IoFault → Bool) (instead : Reply IoFault α) :
    Reply IoFault α :=
  match reply with
  | .fault e => if hidden e then instead else .fault e
  | reply => reply

@[simp] theorem closing_ok (a : α) : (ok a : Reply IoFault α).closing = [] := rfl

theorem closing_fault_of_eq_false (h : e.tellsClosed = false) :
    (fault e : Reply IoFault α).closing = [] :=
  IoFault.closing_some_eq_nil_iff.2 h

@[simp] theorem replacing_ok (a : α) : (ok a).replacing hidden instead = ok a := rfl

theorem replacing_of_hidden (h : hidden e = true) : (fault e).replacing hidden instead = instead :=
  if_pos h

theorem replacing_of_not_hidden (h : hidden e = false) :
    (fault e).replacing hidden instead = fault e :=
  if_neg (by simp [h])

/-- Hiding leaves a fault as it is that would be put in its own place. -/
@[simp] theorem replacing_self (e : IoFault) :
    (fault e : Reply IoFault α).replacing hidden (fault e) = fault e :=
  ite_self _

end Reply

namespace Operation

/-- The fault of a closed connection that a result reports, if there is one. -/
def Result.closing (result : Result) : List IoFault :=
  IoFault.closing result.fault?

/-- The result of an operation as it is shown by a layer that hides some faults: reading finds the
end, writing fails, and shutting down is done. -/
def shown (hidden : IoFault → Bool) : Operation → Result → Result
  | .read _, .bytes reply => .bytes (reply.replacing hidden (.ok []))
  | .readExact _, .bytes reply => .bytes (reply.replacing hidden (.fault .earlyEnd))
  | .readToEnd, .drained bytes ending => .drained bytes (ending.replacing hidden (.ok ()))
  | .write _, .count reply => .count (reply.replacing hidden (.fault Smoothed.closed))
  | .writeAll _, .done reply => .done (reply.replacing hidden (.fault Smoothed.closed))
  | .shutdown, .done reply => .done (reply.replacing hidden (.ok ()))
  | _, result => result

end Operation

/-- Streams of one type as a layer on streams of another. -/
structure Layer (σ τ : Type) [Duplex σ] [Duplex τ] where
  /-- The layer on a stream, with the faults written down so far. -/
  wrap : σ → List IoFault → τ
  /-- Which faults are not shown. -/
  hidden : IoFault → Bool
  tellsClosed_of_hidden : ∀ {e}, hidden e = true → e.tellsClosed = true
  read_wrap : ∀ {n deadline s reply s'} log, Duplex.read n deadline s = (reply, s') →
    Duplex.read n deadline (wrap s log) =
      (reply.replacing hidden (.ok []), wrap s' (log ++ reply.closing))
  write_wrap : ∀ {bytes deadline s reply s'} log, Duplex.write bytes deadline s = (reply, s') →
    Duplex.write bytes deadline (wrap s log) =
      (reply.replacing hidden (.fault Smoothed.closed), wrap s' (log ++ reply.closing))
  flush_wrap : ∀ {deadline s reply s'} log, Duplex.flush deadline s = (reply, s') →
    Duplex.flush deadline (wrap s log) = (reply, wrap s' (log ++ reply.closing))
  shutdown_wrap : ∀ {deadline s reply s'} log, Duplex.shutdown deadline s = (reply, s') →
    Duplex.shutdown deadline (wrap s log) =
      (reply.replacing hidden (.ok ()), wrap s' (log ++ reply.closing))

namespace Layer

variable {σ τ : Type} [Duplex σ] [Duplex τ] (layer : Layer σ τ) {deadline : Deadline}

theorem hidden_eq_false {e : IoFault} (h : e.tellsClosed = false) : layer.hidden e = false :=
  Bool.eq_false_iff.2 fun hidden => absurd (layer.tellsClosed_of_hidden hidden) (by simp [h])

/-! ## Single operations that meet a fault -/

/-- A fault of an open connection is shown as it is, and nothing is written down. -/
theorem shown_of_open {α : Type} {e : IoFault} (h : e.tellsClosed = false)
    (instead : Reply IoFault α) (s : σ) (log : List IoFault) :
    ((Reply.fault e).replacing layer.hidden instead,
      layer.wrap s (log ++ (Reply.fault e : Reply IoFault α).closing)) =
      (.fault e, layer.wrap s log) := by
  rw [Reply.replacing_of_not_hidden (layer.hidden_eq_false h), Reply.closing_fault_of_eq_false h,
    List.append_nil]

theorem read_wrap_of_interrupted {n : Nat} {s s' : σ} {e : IoFault} (log : List IoFault)
    (h : Duplex.read n deadline s = (.fault e, s')) (he : e.kind = .interrupted) :
    Duplex.read n deadline (layer.wrap s log) = (.fault e, layer.wrap s' log) := by
  rw [layer.read_wrap log h, layer.shown_of_open (IoFault.tellsClosed_of_interrupted he)]

theorem write_wrap_of_interrupted {bytes : Bytes} {s s' : σ} {e : IoFault} (log : List IoFault)
    (h : Duplex.write bytes deadline s = (.fault e, s')) (he : e.kind = .interrupted) :
    Duplex.write bytes deadline (layer.wrap s log) = (.fault e, layer.wrap s' log) := by
  rw [layer.write_wrap log h, layer.shown_of_open (IoFault.tellsClosed_of_interrupted he)]

/-! ## Whole reads and writes -/

/-- A whole read through a layer falls short where one below meets a hidden fault. -/
theorem readMore_wrap {short : IoFault} (hshort : short.tellsClosed = false) {want : Nat}
    {got : Bytes} {s : σ} (log : List IoFault) {reply : Reply IoFault Bytes} {s' : σ}
    (h : Duplex.readMore short deadline want got s = (reply, s')) :
    Duplex.readMore short deadline want got (layer.wrap s log) =
      (reply.replacing layer.hidden (.fault short), layer.wrap s' (log ++ reply.closing)) := by
  induction want, got, s using Duplex.readMore.induct (σ := σ) deadline generalizing log with
  | case1 got s =>
    rw [Duplex.readMore_zero] at h
    cases h
    simp [Duplex.readMore_zero]
  | case2 want got s hne t hread =>
    rw [Duplex.readMore_of_read hne hread] at h
    cases h
    rw [Duplex.readMore_of_read hne (layer.read_wrap log hread)]
    simp [Reply.closing_fault_of_eq_false hshort]
  | case3 want got s hne b bs t hread ih =>
    rw [Duplex.readMore_of_read hne hread] at h
    rw [Duplex.readMore_of_read hne (layer.read_wrap log hread)]
    simpa using ih log h
  | case4 want got s hne e t hread hinterrupted ih =>
    rw [Duplex.readMore_of_interrupted hne hread hinterrupted] at h
    rw [Duplex.readMore_of_interrupted hne
      (layer.read_wrap_of_interrupted log hread hinterrupted) hinterrupted]
    exact ih log h
  | case5 want got s hne e t hread hfault =>
    rw [Duplex.readMore_of_fault hne hread hfault] at h
    cases h
    have hwrap := layer.read_wrap log hread
    cases hhidden : layer.hidden e with
    | true =>
      -- The loop finds an end in the place of the fault, and falls short by itself.
      rw [Reply.replacing_of_hidden hhidden] at hwrap ⊢
      exact Duplex.readMore_of_read hne hwrap
    | false =>
      rw [Reply.replacing_of_not_hidden hhidden] at hwrap ⊢
      exact Duplex.readMore_of_fault hne hwrap hfault
  | case6 want got s hne t hread =>
    rw [Duplex.readMore_of_read hne hread] at h
    cases h
    exact Duplex.readMore_of_read hne (layer.read_wrap log hread)

/-- Reading to the end through a layer finds the end where one below meets a hidden fault. -/
theorem drain_wrap {got all : Bytes} {s : σ} (log : List IoFault) {ending : Reply IoFault Unit}
    {s' : σ} (h : Duplex.drain deadline got s = (all, ending, s')) :
    Duplex.drain deadline got (layer.wrap s log) =
      (all, ending.replacing layer.hidden (.ok ()), layer.wrap s' (log ++ ending.closing)) := by
  induction got, s using Duplex.drain.induct (σ := σ) deadline generalizing log with
  | case1 got s t hread =>
    rw [Duplex.drain_of_read hread] at h
    cases h
    exact Duplex.drain_of_read (layer.read_wrap log hread)
  | case2 got s b bs t hread ih =>
    rw [Duplex.drain_of_read hread] at h
    rw [Duplex.drain_of_read (layer.read_wrap log hread)]
    simpa using ih log h
  | case3 got s e t hread hinterrupted ih =>
    rw [Duplex.drain_of_interrupted hread hinterrupted] at h
    rw [Duplex.drain_of_interrupted (layer.read_wrap_of_interrupted log hread hinterrupted)
      hinterrupted]
    exact ih log h
  | case4 got s e t hread hfault =>
    rw [Duplex.drain_of_fault hread hfault] at h
    cases h
    have hwrap := layer.read_wrap log hread
    cases hhidden : layer.hidden e with
    | true =>
      rw [Reply.replacing_of_hidden hhidden] at hwrap ⊢
      exact Duplex.drain_of_read hwrap
    | false =>
      rw [Reply.replacing_of_not_hidden hhidden] at hwrap ⊢
      exact Duplex.drain_of_fault hwrap hfault
  | case5 got s t hread =>
    rw [Duplex.drain_of_read hread] at h
    cases h
    exact Duplex.drain_of_read (layer.read_wrap log hread)

/-- A whole write through a layer fails where one below meets a hidden fault. -/
theorem writeAll_wrap {bytes : Bytes} {s : σ} (log : List IoFault) {reply : Reply IoFault Unit}
    {s' : σ} (h : Duplex.writeAll bytes deadline s = (reply, s')) :
    Duplex.writeAll bytes deadline (layer.wrap s log) =
      (reply.replacing layer.hidden (.fault Smoothed.closed),
        layer.wrap s' (log ++ reply.closing)) := by
  induction bytes, s using Duplex.writeAll.induct (σ := σ) deadline generalizing log with
  | case1 bytes s hnil =>
    rw [Duplex.writeAll, if_pos hnil] at h
    cases h
    rw [Duplex.writeAll, if_pos hnil]
    simp
  | case2 bytes s hne t hwrite =>
    rw [Duplex.writeAll_of_write hne hwrite] at h
    cases h
    have hopen : (IoFault.ofKind .writeZero).tellsClosed = false := rfl
    rw [Duplex.writeAll_of_write hne (layer.write_wrap log hwrite), layer.shown_of_open hopen]
    simp
  | case3 bytes s hne n t hwrite ih =>
    rw [Duplex.writeAll_of_write hne hwrite] at h
    rw [Duplex.writeAll_of_write hne (layer.write_wrap log hwrite)]
    simpa using ih log h
  | case4 bytes s hne e t hwrite hinterrupted ih =>
    rw [Duplex.writeAll_of_interrupted hne hwrite hinterrupted] at h
    rw [Duplex.writeAll_of_interrupted hne
      (layer.write_wrap_of_interrupted log hwrite hinterrupted) hinterrupted]
    exact ih log h
  | case5 bytes s hne e t hwrite hfault =>
    rw [Duplex.writeAll_of_fault hne hwrite hfault] at h
    cases h
    have hwrap := layer.write_wrap log hwrite
    cases hhidden : layer.hidden e with
    | true =>
      -- The fault that is put in its place is not tried again either.
      rw [Reply.replacing_of_hidden hhidden] at hwrap ⊢
      exact Duplex.writeAll_of_fault hne hwrap (by decide)
    | false =>
      rw [Reply.replacing_of_not_hidden hhidden] at hwrap ⊢
      exact Duplex.writeAll_of_fault hne hwrap hfault
  | case6 bytes s hne t hwrite =>
    rw [Duplex.writeAll_of_write hne hwrite] at h
    cases h
    exact Duplex.writeAll_of_write hne (layer.write_wrap log hwrite)

/-! ## Conversations -/

/-- Every operation goes below as it would without the layer, and its result is shown. -/
theorem perform_wrap (op : Operation) (deadline : Deadline) (s : σ) (log : List IoFault) :
    op.perform deadline (layer.wrap s log) =
      (op.shown layer.hidden (op.perform deadline s).1,
        layer.wrap (op.perform deadline s).2 (log ++ (op.perform deadline s).1.closing)) := by
  cases op with
  | read most =>
    simp only [Operation.perform, layer.read_wrap log rfl]
    rfl
  | readExact count =>
    have hshort : IoFault.earlyEnd.tellsClosed = false := rfl
    simp only [Operation.perform, Duplex.readExact, layer.readMore_wrap hshort log rfl]
    rfl
  | readToEnd =>
    simp only [Operation.perform, Duplex.readToEnd, layer.drain_wrap log rfl]
    rfl
  | write bytes =>
    simp only [Operation.perform, layer.write_wrap log rfl]
    rfl
  | writeAll bytes =>
    simp only [Operation.perform, layer.writeAll_wrap log rfl]
    rfl
  | flush =>
    simp only [Operation.perform, layer.flush_wrap log rfl]
    rfl
  | shutdown =>
    simp only [Operation.perform, layer.shutdown_wrap log rfl]
    rfl

/-- A conversation goes below as it would without the layer, and its results are shown. -/
theorem converse_wrap (uses : List (Operation × Deadline)) (s : σ) (log : List IoFault) :
    converse uses (layer.wrap s log) =
      (List.zipWith (fun use result => use.1.shown layer.hidden result) uses (converse uses s).1,
        layer.wrap (converse uses s).2
          (log ++ (converse uses s).1.flatMap Operation.Result.closing)) := by
  induction uses generalizing s log with
  | nil => simp [converse]
  | cons use rest ih =>
    simp only [converse, layer.perform_wrap, ih, List.zipWith_cons_cons, List.flatMap_cons,
      List.append_assoc]

end Layer

end Camouflage
