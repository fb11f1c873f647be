/-!
# Parts of a text

A text is taken apart at its ends or at one occurrence of a piece.  Each function answers `none` when the piece is not
there, and otherwise the parts beside it.
-/
namespace BoundPage.Text

/-- What stands before `p` at the end of `s`. -/
def beforeSuffix? (p s : String) : Option String :=
  (p.toList.isSuffixOf? s.toList).map String.ofList

/-- The parts before and after the first occurrence of `piece`. -/
def breakOn? (piece : List Char) : List Char → Option (List Char × List Char)
  | [] => if piece.isEmpty then some ([], []) else none
  | c :: s =>
    match piece.isPrefixOf? (c :: s) with
    | some rest => some ([], rest)
    | none => (breakOn? piece s).map fun parts => (c :: parts.1, parts.2)

/-- The parts before and after the last occurrence of `piece`. -/
def breakOnLast? (piece s : List Char) : Option (List Char × List Char) :=
  (breakOn? piece.reverse s.reverse).map fun parts => (parts.2.reverse, parts.1.reverse)

/-- The text with the first occurrence of `piece` replaced, or `none` when it has none. -/
def replaceFirst? (piece replacement s : String) : Option String :=
  (breakOn? piece.toList s.toList).map fun parts =>
    String.ofList (parts.1 ++ replacement.toList ++ parts.2)

def isDigit (c : Char) : Bool := decide (48 ≤ c.toNat) && decide (c.toNat ≤ 57)

def digitValue (c : Char) : Nat := c.toNat - 48

/-- The number a run of decimal digits stands for. -/
def natOfDigits (ds : List Char) : Nat := ds.foldl (fun n c => 10 * n + digitValue c) 0

end BoundPage.Text
