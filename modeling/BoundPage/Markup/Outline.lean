import BoundPage.Markup.Basic
import BoundPage.Text.Quoted
/-!
# Outlines

A tree as lines, one for each node in document order, with two blanks a level: the tag, the data-id after `#`, the
external child in parentheses, the styles in braces and the text in quotes.
-/
namespace BoundPage.Markup

/-- The styles in braces, unless there are none. -/
def outlinedStyles (styles : Table String) : String :=
  if styles.isEmpty then ""
  else " \x7b" ++ "; ".intercalate (styles.entries.map fun s => s.1 ++ ": " ++ s.2) ++ "\x7d"

def outlineLine (depth : Nat) (tag : String) (id externalId : Option String) (text : String) (styles : Table String) :
    String :=
  String.ofList (List.replicate (2 * depth) ' ') ++ tag ++ id.elim "" ("#" ++ ·) ++
    externalId.elim "" (" (ext " ++ · ++ ")") ++ outlinedStyles styles ++
    (if text.isEmpty then "" else " " ++ Text.quoted text) ++ "\n"

mutual

/-- The lines of a node and of what is below it. -/
def outlineFrom (depth : Nat) : Markup → String
  | ⟨tag, id, externalId, text, _, styles, children⟩ =>
    outlineLine depth tag id externalId text styles ++ outlineAll (depth + 1) children

def outlineAll (depth : Nat) : List Markup → String
  | [] => ""
  | m :: ms => outlineFrom depth m ++ outlineAll depth ms

end

def outline (ms : List Markup) : String := outlineAll 0 ms

end BoundPage.Markup
