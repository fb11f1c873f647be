import BoundPage.Text.Shown
/-!
# Quoted texts

A text in double quotes, for a reader: quotes, backslashes and the common controls are escaped with a backslash, and
every other character that does not show is given by its code point.
-/
namespace BoundPage.Text

/-- A character by its code point, in hexadecimal. -/
def codeEscape (c : Char) : List Char := ['\\', 'u', '{'] ++ Nat.toDigits 16 c.toNat ++ ['}']

/-- How a character stands in a quoted text. -/
def quotedChar (c : Char) : List Char :=
  match c with
  | '"' => ['\\', '"']
  | '\\' => ['\\', '\\']
  | '\t' => ['\\', 't']
  | '\n' => ['\\', 'n']
  | '\r' => ['\\', 'r']
  | '\x00' => ['\\', '0']
  | c => if isShown c then [c] else codeEscape c

def quoted (s : String) : String := String.ofList ('"' :: s.toList.flatMap quotedChar ++ ['"'])

end BoundPage.Text
