import Camouflage.Settings

/-!
# Writing settings text

Every table of settings can be written: a value is escaped so that it fits on its line, and between
the entries there may be remarks. What is written is read back (`unescape_escape` for values).
-/

namespace Camouflage.Settings

open Text

/-- A line of settings text, without its end. -/
inductive Line where
  /-- A key with its value. -/
  | entry (key value : String)
  /-- A line that says nothing. -/
  | remark (text : String)
  deriving DecidableEq, Repr

/-- How a line ends. -/
inductive LineEnd where
  | newline
  | returnNewline
  deriving DecidableEq, Repr

def Line.chars : Line → List Char
  | .entry key value => key.toList ++ '=' :: escape value.toList
  | .remark text => text.toList

def LineEnd.chars : LineEnd → List Char
  | .newline => ['\n']
  | .returnNewline => ['\r', '\n']

/-- What a line says. -/
def Line.setting? : Line → Option (String × String)
  | .entry key value => some (key, value)
  | .remark _ => none

/-- Whether a line is read as what it was written for: a key has no blanks around it, no `=` and no
newline in it and no `#` in front, and a remark is a comment or has no `=`. -/
def Line.Legible : Line → Prop
  | .entry key _ =>
    trim key.toList = key.toList ∧ '\n' ∉ key.toList ∧ '=' ∉ key.toList
      ∧ key.toList.head? ≠ some '#'
  | .remark text =>
    '\n' ∉ text.toList ∧ ((trimStart text.toList).head? = some '#' ∨ '=' ∉ text.toList)

/-- The text of some lines. -/
def write (ls : List (Line × LineEnd)) : List Char :=
  ls.flatMap fun (line, stop) => line.chars ++ stop.chars

theorem unescapeFrom_escape (done cs : List Char) :
    unescapeFrom done (escape cs) = done.reverse ++ cs := by
  induction cs generalizing done with
  | nil => simp [escape, unescapeFrom]
  | cons c cs ih =>
    have hcons : escape (c :: cs) = escapeChar c ++ escape cs := by simp [escape]
    rw [hcons]
    by_cases h₁ : c = '\\'
    · subst h₁
      simp [escapeChar, unescapeFrom, expand, ih]
    by_cases h₂ : c = '\n'
    · subst h₂
      simp [escapeChar, unescapeFrom, expand, ih]
    by_cases h₃ : c = '\r'
    · subst h₃
      simp [escapeChar, unescapeFrom, expand, ih]
    by_cases h₄ : c = '\t'
    · subst h₄
      simp [escapeChar, unescapeFrom, expand, ih]
    simp [escapeChar, unescapeFrom, h₁, ih]

/-- A value that was escaped is read back. -/
theorem unescape_escape (cs : List Char) : unescape (escape cs) = cs := by
  simp [unescape, unescapeFrom_escape]

end Camouflage.Settings
