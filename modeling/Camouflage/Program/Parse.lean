import Camouflage.Program.Basic
import Camouflage.Text.Blank
import Camouflage.Text.Integer
import Camouflage.Text.Split

/-!
# Reading programs

A program text is `v`, a major and a minor version number with a point between them, a blank, and
a body. The body is literal text except where a marker stands: `$`, an identifier, and an opening
bracket. A marker begins a call, which reaches to the next closing bracket. A `$` that begins no
marker is text.

The body is cut into pieces from left to right. A piece keeps the arguments of its call as they
were written, so the pieces put together again are the body.
-/

namespace Camouflage

/-- Why a text is no program. -/
inductive ParseFault where
  /-- The text does not begin with a version. -/
  | malformedVersion
  /-- A version number does not fit into thirty-two bits. -/
  | versionOutOfRange (digits : String)
  | unsupportedVersion (major minor : Nat)
  | unterminated (name : String)
  /-- A `$` or an opening bracket among the arguments of a call. -/
  | nested (name : String)
  | unknownBuiltin (name : String)
  deriving DecidableEq, Repr

def ParseFault.message : ParseFault → String
  | .malformedVersion => "program must start with 'v<major>.<minor> '"
  | .versionOutOfRange digits => s!"version number '{digits}' out of range"
  | .unsupportedVersion major minor => s!"unsupported generator version v{major}.{minor}"
  | .unterminated name => s!"unterminated call to ${name}"
  | .nested name => s!"nested calls are not supported (in ${name})"
  | .unknownBuiltin name => s!"unsupported builtin ${name}"

/-- A fault of a text, as it is reported. -/
def ParseFault.fault (f : ParseFault) : Fault :=
  .parse f.message

namespace Program

open Text

/-- Reads a version number: ASCII digits only, no sign. -/
def readVersionNumber (cs : List Char) : Except ParseFault Nat :=
  if cs.isEmpty || !cs.all Char.isDigit then .error .malformedVersion
  else match readNat max32 cs with
    | .ok n => .ok n
    | .error _ => .error (.versionOutOfRange (String.ofList cs))

/-- Splits a program text into its major version, its minor version and its body. -/
def splitVersion : List Char → Except ParseFault (Nat × Nat × List Char)
  | 'v' :: text =>
    match splitFirst ' ' text with
    | none => .error .malformedVersion
    | some (version, body) =>
      match splitFirst '.' version with
      | none => .error .malformedVersion
      | some (major, minor) => do
        return (← readVersionNumber major, ← readVersionNumber minor, body)
  | _ => .error .malformedVersion

/-- Whether a character may stand in an identifier behind the first one. -/
def isIdentifierPart (c : Char) : Bool :=
  c.isAlphanum || c = '_'

/-- The identifier at the front of a text and what follows it, if there is one. -/
def identifier? : List Char → Option (List Char × List Char)
  | [] => none
  | c :: cs =>
    if c.isAlpha then some (c :: cs.takeWhile isIdentifierPart, cs.dropWhile isIdentifierPart)
    else none

/-- The name in the marker at the front of a text and what follows the bracket, if there is a
marker. -/
def marker? : List Char → Option (List Char × List Char)
  | '$' :: cs =>
    match identifier? cs with
    | some (name, '(' :: rest) => some (name, rest)
    | _ => none
  | _ => none

inductive Piece where
  | text (cs : List Char)
  /-- A call, its arguments as they were written. -/
  | call (name : List Char) (raw : List Char) (builtin : Builtin)

/-- A piece as it was written. -/
def Piece.spelled : Piece → List Char
  | .text cs => cs
  | .call name raw _ => '$' :: name ++ '(' :: raw ++ [')']

/-- The arguments in the brackets of a call: none if there are only blanks, else what stands
between the commas, without the blanks around it. -/
def splitArguments (raw : List Char) : List String :=
  if (trim raw).isEmpty then []
  else (splitAll ',' raw).map fun arg => String.ofList (trim arg)

/-- A piece as a segment. -/
def Piece.segment : Piece → Segment
  | .text cs => .literal (String.ofList cs)
  | .call name raw builtin => .call ⟨String.ofList name, splitArguments raw, builtin⟩

/-- Whether a character may not stand among the arguments of a call. -/
def opensCall (c : Char) : Bool :=
  c = '$' || c = '('

/-- Puts literal text, last character first, in front of pieces, last piece first. Empty text is
no piece. -/
def closeText (literal : List Char) (pieces : List Piece) : List Piece :=
  if literal.isEmpty then pieces else .text literal.reverse :: pieces

theorem length_lt_of_marker? {cs name rest : List Char} (h : marker? cs = some (name, rest)) :
    rest.length < cs.length := by
  unfold marker? at h
  split at h
  · rename_i tail
    unfold identifier? at h
    split at h
    · rename_i n r heq
      split at heq
      · simp at heq
      · rename_i c cs'
        split at heq
        · simp only [Option.some.injEq, Prod.mk.injEq] at heq h
          obtain ⟨-, hr⟩ := heq
          obtain ⟨-, rfl⟩ := h
          have := (List.dropWhile_sublist isIdentifierPart (l := cs')).length_le
          rw [hr] at this
          simp only [List.length_cons] at this ⊢
          omega
        · simp at heq
    · simp at h
  · simp at h

theorem length_le_of_splitFirst {α : Type} [DecidableEq α] {x : α} {xs before after : List α}
    (h : splitFirst x xs = some (before, after)) : after.length ≤ xs.length := by
  rw [eq_append_of_splitFirst h]
  simp only [List.length_append, List.length_cons]
  omega

/-- Cuts a body into pieces. `pieces` holds the earlier ones, last first, and `literal` the
literal text since then, last character first. -/
def scan (registry : Registry) (pieces : List Piece) (literal : List Char) (body : List Char) :
    Except ParseFault (List Piece) :=
  match body with
  | [] => .ok (closeText literal pieces).reverse
  | c :: rest =>
    match _hm : marker? (c :: rest) with
    | none => scan registry pieces (c :: literal) rest
    | some (name, behind) =>
      match _hs : splitFirst ')' behind with
      | none => .error (.unterminated (String.ofList name))
      | some (raw, tail) =>
        if raw.any opensCall then .error (.nested (String.ofList name))
        else match registry.find? (String.ofList name) with
          | none => .error (.unknownBuiltin (String.ofList name))
          | some builtin =>
            scan registry (.call name raw builtin :: closeText literal pieces) [] tail
termination_by body.length
decreasing_by
  · simp
  · have := length_lt_of_marker? _hm
    have := length_le_of_splitFirst _hs
    omega

def pieces (registry : Registry) (body : List Char) : Except ParseFault (List Piece) :=
  scan registry [] [] body

/-- Reads a program text, resolving each call in a registry. -/
def parse (registry : Registry) (text : String) : Except ParseFault Program := do
  let (major, minor, body) ← splitVersion text.toList
  if major ≠ 1 then throw (.unsupportedVersion major minor)
  let ps ← pieces registry body
  return ⟨UInt32.ofNat minor, ps.map Piece.segment⟩

end Program

end Camouflage
