import Camouflage.Config.Fault
import Camouflage.Table
import Camouflage.Text.Blank
import Camouflage.Text.Split
import Camouflage.Text.Utf8

/-!
# Settings text

A flat table of settings, one `key=value` to a line. The key loses the blanks around it; the value
is everything behind the first `=`, except for one carriage return at its end. Lines whose first
character that is not blank is `#`, and lines without `=`, say nothing. Of two lines with the same
key the later one counts.

In a value a backslash with `n`, `r`, `t` or another backslash stands for a newline, a carriage
return, a tab or a backslash. In front of anything else, and at the end, it stands for itself.

A line ends with a newline, or with a carriage return and a newline. What follows the last newline
is a line too, unless it is empty; a carriage return at its end belongs to it.
-/

namespace Camouflage

abbrev Settings := Table String

namespace Settings

open Text

/-- A text without a carriage return at its end. -/
def dropReturn (cs : List Char) : List Char :=
  if cs.getLast? = some '\r' then cs.dropLast else cs

/-- The lines among the pieces between newlines. -/
def linesOfPieces : List (List Char) → List (List Char)
  | [] => []
  | [last] => if last.isEmpty then [] else [last]
  | line :: rest => dropReturn line :: linesOfPieces rest

def lines (cs : List Char) : List (List Char) :=
  linesOfPieces (splitAll '\n' cs)

/-- What a backslash and the character behind it stand for. -/
def expand : Char → List Char
  | 'n' => ['\n']
  | 'r' => ['\r']
  | 't' => ['\t']
  | '\\' => ['\\']
  | c => ['\\', c]

/-- Expands the escapes of a value; `done` holds what stands before, last character first. -/
def unescapeFrom (done : List Char) : List Char → List Char
  | [] => done.reverse
  | ['\\'] => ('\\' :: done).reverse
  | '\\' :: c :: rest => unescapeFrom ((expand c).reverse ++ done) rest
  | c :: rest => unescapeFrom (c :: done) rest

/-- A value with its escapes expanded. -/
def unescape (cs : List Char) : List Char :=
  unescapeFrom [] cs

/-- How a character is written in a value. -/
def escapeChar : Char → List Char
  | '\\' => ['\\', '\\']
  | '\n' => ['\\', 'n']
  | '\r' => ['\\', 'r']
  | '\t' => ['\\', 't']
  | c => [c]

def escape (cs : List Char) : List Char :=
  cs.flatMap escapeChar

/-- The key and the value of a line, if it says anything. -/
def setting? (line : List Char) : Option (String × String) :=
  if (trimStart line).head? = some '#' then none
  else (splitFirst '=' line).map fun (key, value) =>
    (String.ofList (trim key), String.ofList (unescape (dropReturn value)))

def ofChars (cs : List Char) : Settings :=
  Table.ofList ((lines cs).filterMap setting?)

/-- The settings of a file. Bytes that are not UTF-8 are shown as U+FFFD. -/
def ofBytes (bs : Bytes) : Settings :=
  ofChars (decodeLossy bs)

/-- The value of a key without the blanks around it, unless nothing is left then. -/
def filled? (t : Settings) (key : String) : Option (List Char) :=
  match t.find? key with
  | none => none
  | some value =>
    match trim value.toList with
    | [] => none
    | cs => some cs

/-- The value of a key read by `read`; a blank value counts as absent. -/
def readWith {α : Type} (t : Settings) (read : List Char → Except ValueFault α) (key : String) :
    Except ConfigFault (Option α) :=
  match t.filled? key with
  | none => .ok none
  | some cs =>
    match read cs with
    | .ok a => .ok (some a)
    | .error cause => .error (.badValue key cause)

/-- A number from 0 to `limit` as a setting. -/
def natValue (limit : Nat) (cs : List Char) : Except ValueFault Nat :=
  (readNat limit cs).mapError .integer

/-- A number from `-below` to `limit` as a setting. -/
def intValue (below limit : Nat) (cs : List Char) : Except ValueFault Int :=
  (readInt below limit cs).mapError .integer

/-- A truth value as a setting. -/
def boolValue (cs : List Char) : Except ValueFault Bool :=
  if String.ofList cs = "true" then .ok true
  else if String.ofList cs = "false" then .ok false
  else .error .notBoolean

/-- The value of a key as a count or a length. -/
def count (t : Settings) (key : String) : Except ConfigFault (Option Nat) :=
  t.readWith (natValue max64) key

/-- The value of a key that must not be missing or blank, without the blanks around it. -/
def required (t : Settings) (key : String) : Except ConfigFault String :=
  match t.filled? key with
  | none => .error (.missing key)
  | some cs => .ok (String.ofList cs)

/-- The one key of some that is set, and its value. -/
def exclusive (t : Settings) (keys : List String) : Except ConfigFault (Option (String × String)) :=
  match keys.filterMap fun key => (t.find? key).map fun value => (key, value) with
  | [] => .ok none
  | [one] => .ok (some one)
  | _ => .error (.notExclusive keys)

end Settings

end Camouflage
