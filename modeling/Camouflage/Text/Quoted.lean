import Camouflage.Text.Escape
import Camouflage.Text.Printable

/-!
# Quoted text

A text between double quotes, fit for one line of a message: the quote and the backslash are
escaped, common control characters and zero have names, and every other character that is not
printable is shown by its number.
-/

namespace Camouflage.Text

/-- One character inside a quoted text. -/
def quotedChar (c : Char) : List Char :=
  match c with
  | '"' => ['\\', '"']
  | '\\' => ['\\', '\\']
  | '\n' => ['\\', 'n']
  | '\r' => ['\\', 'r']
  | '\t' => ['\\', 't']
  | '\x00' => ['\\', '0']
  | c =>
    if isPrintable c then [c]
    else '\\' :: 'u' :: '\x7b' :: (Nat.toDigits 16 c.toNat ++ ['\x7d'])

def quoted (s : String) : String :=
  String.ofList ('"' :: (s.toList.flatMap quotedChar ++ ['"']))

end Camouflage.Text
