import Camouflage.Json.Number

/-!
# Reading JSON

A reader takes what it was asked for off the front of a text. Reading goes from left to right and
stops at the first trouble, so a wrong type is reported even if the text is malformed behind it, and
the other way round.

`Reader` is a function on the rest of the text. Blanks between tokens are spaces, newlines, carriage
returns and tabs.
-/

namespace Camouflage.Json

/-- Takes a value off the front of a text. -/
abbrev Reader := StateT (List Char) (Except Fault)

/-- Whether a character may stand between tokens. -/
def isSpace (c : Char) : Bool :=
  c = ' ' || c = '\n' || c = '\r' || c = '\t'

def skipSpaces (cs : List Char) : List Char :=
  cs.dropWhile isSpace

def hexDigit? (c : Char) : Option Nat :=
  if c.isDigit then some (c.toNat - '0'.toNat)
  else if 'a' ≤ c ∧ c ≤ 'f' then some (c.toNat - 'a'.toNat + 10)
  else if 'A' ≤ c ∧ c ≤ 'F' then some (c.toNat - 'A'.toNat + 10)
  else none

def hexQuad? (a b c d : Char) : Option Nat := do
  return (((← hexDigit? a) * 16 + (← hexDigit? b)) * 16 + (← hexDigit? c)) * 16 + (← hexDigit? d)

/-- What a backslash and a character stand for. -/
def escape? : Char → Option Char
  | '"' => some '"'
  | '\\' => some '\\'
  | '/' => some '/'
  | 'b' => some '\x08'
  | 'f' => some '\x0c'
  | 'n' => some '\n'
  | 'r' => some '\r'
  | 't' => some '\t'
  | _ => none

/-- The character of two surrogates. -/
def surrogates (high low : Nat) : Char :=
  Char.ofNat ((high - 0xD800) * 0x400 + (low - 0xDC00) + 0x10000)

/-- Reads a string behind its opening quote; `done` holds what stands before, last character
first. A control character has to be escaped, and surrogates have to come in pairs. -/
def readString (done : List Char) : List Char → Except Fault (String × List Char)
  | [] => .error .malformed
  | '"' :: rest => .ok (String.ofList done.reverse, rest)
  | '\\' :: 'u' :: a :: b :: c :: d :: rest =>
    match hexQuad? a b c d with
    | none => .error .malformed
    | some n =>
      if 0xDC00 ≤ n ∧ n ≤ 0xDFFF then .error .malformed
      else if 0xD800 ≤ n ∧ n ≤ 0xDBFF then
        match rest with
        | '\\' :: 'u' :: e :: f :: g :: h :: rest =>
          match hexQuad? e f g h with
          | none => .error .malformed
          | some m =>
            if 0xDC00 ≤ m ∧ m ≤ 0xDFFF then readString (surrogates n m :: done) rest
            else .error .malformed
        | _ => .error .malformed
      else readString (Char.ofNat n :: done) rest
  | '\\' :: c :: rest =>
    match escape? c with
    | some x => readString (x :: done) rest
    | none => .error .malformed
  | ['\\'] => .error .malformed
  | c :: rest => if c.toNat < 0x20 then .error .malformed else readString (c :: done) rest

/-- Skips a string behind its opening quote. Surrogates are not looked at. -/
def skipString : List Char → Except Fault (List Char)
  | [] => .error .malformed
  | '"' :: rest => .ok rest
  | '\\' :: 'u' :: a :: b :: c :: d :: rest =>
    match hexQuad? a b c d with
    | none => .error .malformed
    | some _ => skipString rest
  | '\\' :: c :: rest =>
    match escape? c with
    | some _ => skipString rest
    | none => .error .malformed
  | ['\\'] => .error .malformed
  | c :: rest => if c.toNat < 0x20 then .error .malformed else skipString rest

def expect (word : List Char) (cs : List Char) : Except Fault (List Char) :=
  match word, cs with
  | [], cs => .ok cs
  | w :: ws, c :: cs => if w = c then expect ws cs else .error .malformed
  | _ :: _, [] => .error .malformed

/-- Skips a bare word behind its first character, or fails. -/
def skipWord : Char → List Char → Except Fault (List Char)
  | 'n', cs => expect ['u', 'l', 'l'] cs
  | 't', cs => expect ['r', 'u', 'e'] cs
  | 'f', cs => expect ['a', 'l', 's', 'e'] cs
  | _, _ => .error .malformed

/-- The fault of finding the value at the front of a text where something else was expected. -/
def unexpected (expected : String) (cs : List Char) : Fault :=
  let found (f : Found) : Fault := .data (.invalidType f expected)
  let after {α : Type} (r : Except Fault α) (f : α → Found) : Fault :=
    match r with
    | .ok a => found (f a)
    | .error e => e
  match cs with
  | [] => .malformed
  | '"' :: rest => after (readString [] rest) fun r => .string r.1
  | '[' :: _ => found .sequence
  | '{' :: _ => found .map
  | 'n' :: rest => after (skipWord 'n' rest) fun _ => .null
  | 't' :: rest => after (skipWord 't' rest) fun _ => .boolean true
  | 'f' :: rest => after (skipWord 'f' rest) fun _ => .boolean false
  | cs =>
    match Number.begin? cs with
    | some (minus, rest) => after (Number.read minus rest) fun r => r.1.found
    | none => .malformed

namespace Reader

def fail {α : Type} (fault : Fault) : Reader α :=
  fun _ => .error fault

/-- The next character that is no blank, which stays where it is. -/
def peek : Reader (Option Char) :=
  fun cs => .ok ((skipSpaces cs).head?, skipSpaces cs)

def advance : Reader Unit :=
  fun cs => .ok ((), cs.tail)

/-- Fails because of the value that comes next. -/
def failAt {α : Type} (expected : String) : Reader α :=
  fun cs => .error (unexpected expected cs)

/-- A string; `expected` is what is said of anything else. -/
def string (expected : String) : Reader String := do
  match ← peek with
  | some '"' => advance; readString []
  | _ => failAt expected

/-- A count or a length; `expected` is what is said of anything else. -/
def count (expected : String) : Reader Nat := do
  let _ ← peek
  let cs ← get
  match Number.begin? cs with
  | none => failAt expected
  | some (minus, rest) =>
    set rest
    match ← Number.read minus with
    | .natural n => return n
    | .negative n => fail (.data (.invalidValue (Number.negative n).found expected))
    | .real shown => fail (.data (.invalidType (.real shown) expected))

/-- The value that says nothing. -/
def unit : Reader Unit := do
  match ← peek with
  | some 'n' => advance; fun cs => (skipWord 'n' cs).map fun rest => ((), rest)
  | _ => failAt "unit"

def colon : Reader Unit := do
  match ← peek with
  | some ':' => advance
  | _ => fail .malformed

/-- What encloses a value that is being skipped. -/
inductive Frame where
  | array
  | object
  deriving DecidableEq, Repr

/-- Skips the name and the colon in front of a member's value, if the value is one of an object. -/
def skipName (frame : Frame) (cs : List Char) : Except Fault (List Char) :=
  match frame with
  | .array => .ok cs
  | .object =>
    match skipSpaces cs with
    | '"' :: rest => do
      match skipSpaces (← skipString rest) with
      | ':' :: rest => return rest
      | _ => throw .malformed
    | _ => .error .malformed

/-- Skips a value, or what is left behind one inside of the frames; `begins` tells which. Every step
but the last takes at least one character, so a step for each character of `fuel` is enough if that
is longer than the text. -/
def skipFrom (begins : Bool) (frames : List Frame) :
    List Char → List Char → Except Fault (List Char)
  | [], _ => .error .malformed
  | _ :: fuel, cs =>
    let cs := skipSpaces cs
    if begins then
      match cs with
      | [] => .error .malformed
      | '[' :: rest =>
        match skipSpaces rest with
        | ']' :: rest => skipFrom false frames fuel rest
        | rest => skipFrom true (.array :: frames) fuel rest
      | '{' :: rest =>
        match skipSpaces rest with
        | '}' :: rest => skipFrom false frames fuel rest
        | rest => do skipFrom true (.object :: frames) fuel (← skipName .object rest)
      | '"' :: rest => do skipFrom false frames fuel (← skipString rest)
      | c :: rest =>
        match Number.begin? (c :: rest) with
        | some (_, rest) => do skipFrom false frames fuel (← Number.skip rest)
        | none => do skipFrom false frames fuel (← skipWord c rest)
    else
      match frames, cs with
      | [], cs => .ok cs
      | .array :: outer, ']' :: rest => skipFrom false outer fuel rest
      | .object :: outer, '}' :: rest => skipFrom false outer fuel rest
      | frame :: outer, ',' :: rest => do
        skipFrom true (frame :: outer) fuel (← skipName frame rest)
      | _, _ => .error .malformed

/-- Any value, which is left out. -/
def skipValue : Reader Unit :=
  -- The fuel is the text itself and a blank: counting the text for each value would take long.
  fun cs => (skipFrom true [] (' ' :: cs) cs).map fun rest => ((), rest)

/-- Whether an array has another element; stops in front of it. -/
def hasElement (isFirst : Bool) : Reader Bool := do
  match ← peek with
  | none => fail .malformed
  | some ']' => return false
  | some ',' =>
    if isFirst then return true
    else
      advance
      match ← peek with
      | none | some ']' => fail .malformed
      | some _ => return true
  | some _ => if isFirst then return true else fail .malformed

/-- The next element of an array, if there is one. -/
def element? {α : Type} (isFirst : Bool) (read : Reader α) : Reader (Option α) := do
  if ← hasElement isFirst then return some (← read) else return none

/-- The name of the next member of an object, if there is one. -/
def name? (isFirst : Bool) : Reader (Option String) := do
  match ← peek with
  | some '}' => return none
  | some '"' => if isFirst then return some (← string "a name") else fail .malformed
  | some ',' =>
    if isFirst then fail .malformed
    else
      advance
      match ← peek with
      | some '"' => return some (← string "a name")
      | _ => fail .malformed
  | _ => fail .malformed

/-- The members of an object, put one after the other into `a` by `member`, which is given the
name and reads the colon and the value. -/
def membersFrom {α : Type} (member : String → α → Reader α) (isFirst : Bool) (a : α) :
    Nat → Reader α
  | 0 => fail .malformed
  | fuel + 1 => do
    match ← name? isFirst with
    | none => return a
    | some name => membersFrom member false (← member name a) fuel

/-- The members of an object. Each of them takes at least one character. -/
def members {α : Type} (member : String → α → Reader α) (a : α) : Reader α := do
  membersFrom member true a ((← get).length + 1)

/-- The value of a member that may be set only once. -/
def once {α : Type} (name : String) (slot : Option α) (read : Reader α) : Reader (Option α) := do
  if slot.isSome then fail (.data (.duplicateField name))
  else
    colon
    return some (← read)

/-- A member that nobody asked for. -/
def ignored : Reader Unit := do
  colon
  skipValue

/-- The value of a member that must not be missing. -/
def need {α : Type} (name : String) : Option α → Reader α
  | some a => return a
  | none => fail (.data (.missingField name))

def close (bracket : Char) : Reader Unit := do
  if (← peek) = some bracket then advance else fail .malformed

/-- A record: an object, or an array of its fields in order. -/
def record {α : Type} (expected : String) (ofArray ofObject : Reader α) : Reader α := do
  match ← peek with
  | some '[' =>
    advance
    let a ← ofArray
    close ']'
    return a
  | some '{' =>
    advance
    let a ← ofObject
    close '}'
    return a
  | _ => failAt expected

/-- The name of a variant. Whatever is no string there is malformed, not of a wrong type. -/
def variantName (known : List String) : Reader String := do
  match ← peek with
  | some '"' =>
    advance
    let name ← readString []
    if name ∈ known then return name else fail (.data (.unknownVariant name known))
  | _ => fail .malformed

/-- A variant: its bare name, or an object with its name and its content. -/
def variant {α : Type} (known : List String) (bare : String → Option α)
    (full : String → Reader α) : Reader α := do
  match ← peek with
  | some '{' =>
    advance
    let name ← variantName known
    colon
    let a ← full name
    close '}'
    return a
  | _ =>
    match bare (← variantName known) with
    | some a => return a
    | none => fail (.data (.invalidType .unitVariant "newtype variant"))

def readText {α : Type} (read : Reader α) (s : String) : Except Fault α := do
  let (a, rest) ← read s.toList
  if (skipSpaces rest).isEmpty then return a else throw .malformed

end Reader

end Camouflage.Json
