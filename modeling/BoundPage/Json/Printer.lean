import BoundPage.Json.Basic
/-!
# Writing JSON

`compact` writes a value without blanks, `pretty` over several lines with two blanks a level.  In a string only quotes,
backslashes and control characters are escaped.
-/
namespace BoundPage.Json

def hexDigit (n : Nat) : Char := if n < 10 then Char.ofNat (48 + n) else Char.ofNat (87 + n)

/-- How a character stands in a written string. -/
def escape (c : Char) : List Char :=
  match c with
  | '"' => ['\\', '"']
  | '\\' => ['\\', '\\']
  | '\x08' => ['\\', 'b']
  | '\x0c' => ['\\', 'f']
  | '\n' => ['\\', 'n']
  | '\r' => ['\\', 'r']
  | '\t' => ['\\', 't']
  | c =>
    if c.toNat < 0x20 then ['\\', 'u', '0', '0', hexDigit (c.toNat / 16), hexDigit (c.toNat % 16)]
    else [c]

def quote (s : List Char) : List Char := '"' :: s.flatMap escape ++ ['"']

mutual

def chars : Json → List Char
  | .null => "null".toList
  | .bool b => if b then "true".toList else "false".toList
  | .num n => n.render.toList
  | .str s => quote s.toList
  | .arr [] => ['[', ']']
  | .arr (v :: vs) => '[' :: chars v ++ charsOfItems vs
  | .obj [] => ['{', '}']
  | .obj ((k, v) :: fs) => '{' :: quote k.toList ++ ':' :: chars v ++ charsOfFields fs

/-- The items after the first, with the closing bracket. -/
def charsOfItems : List Json → List Char
  | [] => [']']
  | v :: vs => ',' :: chars v ++ charsOfItems vs

/-- The fields after the first, with the closing brace. -/
def charsOfFields : List (String × Json) → List Char
  | [] => ['}']
  | (k, v) :: fs => ',' :: quote k.toList ++ ':' :: chars v ++ charsOfFields fs

end

def compact (v : Json) : String := String.ofList v.chars

def newline (level : Nat) : List Char := '\n' :: List.replicate (2 * level) ' '

mutual

def prettyChars (level : Nat) : Json → List Char
  | .arr (v :: vs) => '[' :: newline (level + 1) ++ prettyChars (level + 1) v ++ prettyItems level vs
  | .obj ((k, v) :: fs) =>
    '{' :: newline (level + 1) ++ quote k.toList ++ ':' :: ' ' :: prettyChars (level + 1) v ++ prettyFields level fs
  | .null => "null".toList
  | .bool b => if b then "true".toList else "false".toList
  | .num n => n.render.toList
  | .str s => quote s.toList
  | .arr [] => ['[', ']']
  | .obj [] => ['{', '}']

def prettyItems (level : Nat) : List Json → List Char
  | [] => newline level ++ [']']
  | v :: vs => ',' :: newline (level + 1) ++ prettyChars (level + 1) v ++ prettyItems level vs

def prettyFields (level : Nat) : List (String × Json) → List Char
  | [] => newline level ++ ['}']
  | (k, v) :: fs =>
    ',' :: newline (level + 1) ++ quote k.toList ++ ':' :: ' ' :: prettyChars (level + 1) v ++ prettyFields level fs

end

def pretty (v : Json) : String := String.ofList (v.prettyChars 0)

/-- The text a value is shown as: a string is its own text, `null` is empty, and all else is JSON. -/
def text : Json → String
  | .str s => s
  | .null => ""
  | v => v.compact

end BoundPage.Json
