import Camouflage.Random.Source
import Camouflage.Table

/-!
# Builtins and their registry

A builtin turns the arguments of a call and some random words into bytes, or fails with a reason.
Beside it stands an optional length hint: from the arguments alone it may tell how many bytes the
call gives.

A registry holds the functions of builtins by name, and in a second table the hints of those that
have one. Registering a name again replaces its function, and its hint as well: a builtin that comes
without a hint takes away the one that stood there.
-/

namespace Camouflage

/-- What a call does, and what can be told of its length beforehand. -/
structure Builtin where
  run : List String → Draw (Except String Bytes)
  hint : Option (List String → Option Nat)

/-- Whatever the hint promises, each successful call keeps. -/
def Builtin.HintSound (b : Builtin) : Prop :=
  ∀ hint, b.hint = some hint → ∀ args n, hint args = some n →
    ∀ s out s', (b.run args).run s = some (.ok out, s') → out.length = n

/-- The functions of builtins, and the hints of some of them. -/
structure Registry where
  functions : Table (List String → Draw (Except String Bytes))
  hints : Table (List String → Option Nat)

namespace Registry

def empty : Registry :=
  ⟨.empty, .empty⟩

/-- Registers a builtin of which the length is unknown. -/
def register (r : Registry) (name : String) (run : List String → Draw (Except String Bytes)) :
    Registry :=
  ⟨r.functions.insert name run, r.hints.erase name⟩

def registerSized (r : Registry) (name : String) (run : List String → Draw (Except String Bytes))
    (hint : List String → Option Nat) : Registry :=
  ⟨r.functions.insert name run, r.hints.insert name hint⟩

/-- The names of the functions, in increasing order. -/
def names (r : Registry) : List String :=
  r.functions.names

/-- The builtin of a name: its function, if there is one, with what the other table holds under the
same name. -/
def find? (r : Registry) (name : String) : Option Builtin := do
  return ⟨← r.functions.find? name, r.hints.find? name⟩

def Sound (r : Registry) : Prop :=
  ∀ name b, r.find? name = some b → b.HintSound

@[simp] theorem find?_empty (name : String) : empty.find? name = none := rfl

theorem find?_register (r : Registry) (name other : String)
    (run : List String → Draw (Except String Bytes)) :
    (r.register name run).find? other =
      if name = other then some ⟨run, none⟩ else r.find? other := by
  simp only [find?, register, Table.find?_insert, Table.find?_erase]
  split <;> rfl

theorem find?_registerSized (r : Registry) (name other : String)
    (run : List String → Draw (Except String Bytes)) (hint : List String → Option Nat) :
    (r.registerSized name run hint).find? other =
      if name = other then some ⟨run, some hint⟩ else r.find? other := by
  simp only [find?, registerSized, Table.find?_insert]
  split <;> rfl

end Registry

end Camouflage
