import Camouflage.Json.Reader

/-!
# Writing JSON

Strings and objects as JSON text. In a string only the quote, the backslash and the control
characters are escaped, the last by number. A written string is read back
(`readString_stringBody`).
-/

namespace Camouflage.Json

def stringChar (c : Char) : List Char :=
  if c = '"' then ['\\', '"']
  else if c = '\\' then ['\\', '\\']
  else if c.toNat < 0x20 then
    ['\\', 'u', '0', '0', Nat.digitChar (c.toNat / 16), Nat.digitChar (c.toNat % 16)]
  else [c]

/-- What stands between the quotes of a string. -/
def stringBody (s : String) : List Char :=
  s.toList.flatMap stringChar

def writeString (s : String) : List Char :=
  '"' :: stringBody s ++ ['"']

def writeNat (n : Nat) : List Char :=
  Text.decimal n

/-- A member of an object, its value already written. -/
def writeMember (name : String) (value : List Char) : List Char :=
  writeString name ++ ':' :: value

/-- An object of some members, their values already written. -/
def writeObject (members : List (String × List Char)) : List Char :=
  '{' :: (List.intercalate [','] (members.map fun (name, value) => writeMember name value) ++ ['}'])

theorem hexDigit?_digitChar {n : Nat} (h : n < 16) : hexDigit? (Nat.digitChar n) = some n := by
  have : ∀ k : Fin 16, hexDigit? (Nat.digitChar k.val) = some k.val := by decide
  exact this ⟨n, h⟩

theorem hexQuad?_of_lt {n : Nat} (h : n < 0x20) :
    hexQuad? '0' '0' (Nat.digitChar (n / 16)) (Nat.digitChar (n % 16)) = some n := by
  have hd : hexDigit? '0' = some 0 := by decide
  have h₁ := hexDigit?_digitChar (n := n / 16) (by omega)
  have h₂ := hexDigit?_digitChar (n := n % 16) (by omega)
  simp only [hexQuad?, hd, h₁, h₂, Option.pure_def, Option.bind_eq_bind, Option.bind_some,
    Option.some.injEq]
  omega

/-- A string that was written is read back, and reading stops behind its closing quote. -/
theorem readString_stringBody (done rest : List Char) (s : String) :
    readString done (stringBody s ++ '"' :: rest)
      = .ok (String.ofList (done.reverse ++ s.toList), rest) := by
  unfold stringBody
  generalize s.toList = cs
  induction cs generalizing done with
  | nil => simp [readString]
  | cons c cs ih =>
    rw [List.flatMap_cons, List.append_assoc]
    by_cases h₁ : c = '"'
    · subst h₁
      simp [stringChar, readString, escape?, ih]
    by_cases h₂ : c = '\\'
    · subst h₂
      simp [stringChar, readString, escape?, ih]
    by_cases h₃ : c.toNat < 0x20
    · have hq := hexQuad?_of_lt h₃
      have hlow : ¬ (0xDC00 ≤ c.toNat ∧ c.toNat ≤ 0xDFFF) := by omega
      have hhigh : ¬ (0xD800 ≤ c.toNat ∧ c.toNat ≤ 0xDBFF) := by omega
      simp [stringChar, h₁, h₂, h₃, readString, hq, hlow, hhigh, ih, Char.ofNat_toNat]
    · simp [stringChar, h₁, h₂, h₃, readString, ih]

end Camouflage.Json
