import BoundPage.Json.Document
/-!
# Reading JSON

A strict reader: blanks are space, tab, line feed and carriage return; no sign but `-` before a number, no zero before
another digit, a digit on both sides of a point; no control character in a string; nothing after the value.

Each function takes the text and answers what it read with the rest of the text.
-/
namespace BoundPage.Json.Reader

def isSpace (c : Char) : Bool := c == ' ' || c == '\t' || c == '\n' || c == '\r'

def skip (s : List Char) : List Char := s.dropWhile isSpace

/-! ## Strings -/

/-- A unit of a string: a character, or the code of a `\u` escape. -/
inductive Piece where
  | char (c : Char)
  | code (n : Nat)

def hexValue? (c : Char) : Option Nat :=
  if Text.isDigit c then some (c.toNat - 48)
  else if 'a' ≤ c ∧ c ≤ 'f' then some (c.toNat - 87)
  else if 'A' ≤ c ∧ c ≤ 'F' then some (c.toNat - 55)
  else none

def hexCode? (a b c d : Char) : Option Nat := do
  return 4096 * (← hexValue? a) + 256 * (← hexValue? b) + 16 * (← hexValue? c) + (← hexValue? d)

/-- The character a one-letter escape stands for. -/
def unescape? : Char → Option Char
  | '"' => some '"'
  | '\\' => some '\\'
  | '/' => some '/'
  | 'b' => some '\x08'
  | 'f' => some '\x0c'
  | 'n' => some '\n'
  | 'r' => some '\r'
  | 't' => some '\t'
  | _ => none

/-- The units up to the closing quote, and what follows it. -/
def pieces? : List Char → Option (List Piece × List Char)
  | [] => none
  | '"' :: s => some ([], s)
  | '\\' :: 'u' :: a :: b :: c :: d :: s => do
    let n ← hexCode? a b c d
    let (ps, rest) ← pieces? s
    return (.code n :: ps, rest)
  | '\\' :: e :: s => do
    let c ← unescape? e
    let (ps, rest) ← pieces? s
    return (.char c :: ps, rest)
  | c :: s => do
    if c.toNat < 0x20 || c == '\\' then none
    let (ps, rest) ← pieces? s
    return (.char c :: ps, rest)

def isLead (n : Nat) : Bool := decide (0xD800 ≤ n) && decide (n < 0xDC00)

def isTrail (n : Nat) : Bool := decide (0xDC00 ≤ n) && decide (n < 0xE000)

/-- The characters of the units; two codes of a surrogate pair make one character, and an unpaired one has none. -/
def joined? : List Piece → Option (List Char)
  | [] => some []
  | .char c :: ps => (joined? ps).map (c :: ·)
  | .code n :: .code m :: ps =>
    if isLead n then
      if isTrail m then
        (joined? ps).map (Char.ofNat (0x10000 + (n - 0xD800) * 0x400 + (m - 0xDC00)) :: ·)
      else none
    else if isTrail n then none
    else (joined? (.code m :: ps)).map (Char.ofNat n :: ·)
  | .code n :: ps => if isLead n || isTrail n then none else (joined? ps).map (Char.ofNat n :: ·)

/-- A string whose opening quote has been read; its text is `none` when it stands for nothing. -/
def string? (s : List Char) : Option (Option String × List Char) := do
  let (ps, rest) ← pieces? s
  return ((joined? ps).map String.ofList, rest)

/-! ## Numbers -/

/-- At least one digit, and the rest. -/
def digits? (s : List Char) : Option (List Char × List Char) :=
  let ds := s.takeWhile Text.isDigit
  if ds.isEmpty then none else some (ds, s.dropWhile Text.isDigit)

def fraction? : List Char → Option (List Char × List Char)
  | '.' :: s => digits? s
  | s => some ([], s)

/-- The sign and the digits of an exponent whose mark has been read. -/
def exponentDigits? (s : List Char) : Option (Option (Bool × List Char) × List Char) :=
  let signed := match s with
    | '-' :: r => (true, r)
    | '+' :: r => (false, r)
    | r => (false, r)
  (digits? signed.2).map fun (ds, rest) => (some (signed.1, ds), rest)

def exponent? : List Char → Option (Option (Bool × List Char) × List Char)
  | 'e' :: s => exponentDigits? s
  | 'E' :: s => exponentDigits? s
  | s => some (none, s)

/-- A number; its value is `none` when it is out of range. -/
def number? (s : List Char) : Option (Option Number × List Char) := do
  let (negative, s) := match s with
    | '-' :: r => (true, r)
    | r => (false, r)
  let (whole, s) ← digits? s
  if whole.head? == some '0' && whole.length != 1 then none
  let (fraction, s) ← fraction? s
  let (exponent, s) ← exponent? s
  return (Number.ofLiteral? { negative, whole, fraction, exponent }, s)

/-! ## Values -/

/-- A list or an object, if there is room for one more level. -/
def enclosed (room : Nat) (d : Document) : Document := if room = 0 then .void else d

mutual

/-- A value, inside at most `room` further levels of lists and objects.  Every call but the first starts behind a
character of the call that made it, so `fuel` lasts when it is twice the length of the text. -/
def value? : Nat → Nat → List Char → Option (Document × List Char)
  | 0, _, _ => none
  | fuel + 1, room, s =>
    match skip s with
    | 'n' :: 'u' :: 'l' :: 'l' :: r => some (.null, r)
    | 't' :: 'r' :: 'u' :: 'e' :: r => some (.bool true, r)
    | 'f' :: 'a' :: 'l' :: 's' :: 'e' :: r => some (.bool false, r)
    | '"' :: r => (string? r).map fun (t, rest) => (t.elim .void .str, rest)
    | '[' :: r =>
      match skip r with
      | ']' :: rest => some (enclosed room (.arr []), rest)
      | _ => (items? fuel (room - 1) r).map fun (ds, rest) => (enclosed room (.arr ds), rest)
    | '{' :: r =>
      match skip r with
      | '}' :: rest => some (enclosed room (.obj []), rest)
      | _ => (fields? fuel (room - 1) r).map fun (fs, rest) => (enclosed room (.obj fs), rest)
    | r => (number? r).map fun (n, rest) => (n.elim .void .num, rest)

/-- Items up to the closing bracket. -/
def items? : Nat → Nat → List Char → Option (List Document × List Char)
  | 0, _, _ => none
  | fuel + 1, room, s => do
    let (d, s) ← value? fuel room s
    match skip s with
    | ']' :: rest => some ([d], rest)
    | ',' :: s =>
      let (ds, rest) ← items? fuel room s
      return (d :: ds, rest)
    | _ => none

/-- Fields up to the closing brace. -/
def fields? : Nat → Nat → List Char → Option (List (Option String × Document) × List Char)
  | 0, _, _ => none
  | fuel + 1, room, s =>
    match skip s with
    | '"' :: s => do
      let (name, s) ← string? s
      match skip s with
      | ':' :: s =>
        let (d, s) ← value? fuel room s
        match skip s with
        | '}' :: rest => some ([(name, d)], rest)
        | ',' :: s =>
          let (fs, rest) ← fields? fuel room s
          return ((name, d) :: fs, rest)
        | _ => none
      | _ => none
    | _ => none

end

/-- The levels of lists and objects a value may have. -/
def levels : Nat := 127

end Reader

def Document.read? (text : String) : Option Document := do
  let s := text.toList
  let (d, rest) ← Reader.value? (2 * s.length + 2) Reader.levels s
  if (Reader.skip rest).isEmpty then some d else none

def read? (text : String) : Option Json := do (← Document.read? text).value?

end BoundPage.Json
