import BoundPage.Text.Blank
import BoundPage.Json.Printer
import BoundPage.Table
/-!
# Dependencies

What a write to a variable does to one node: replace its text (or the list behind a template), show or hide it, or apply
a set of style parameters.
-/
namespace BoundPage

/-- When a node is visible. -/
inductive Condition where
  /-- The value is blank. -/
  | isNull
  /-- The value is not blank. -/
  | isNotNull
  | equals (value : String)
deriving DecidableEq, Repr

namespace Condition

/-- The texts that stand for the two conditions on blankness. -/
def nullText : String := "$IsNull$"

def notNullText : String := "$IsNotNull$"

/-- The condition a JSON value stands for: one of the two texts, or equality with the value's text. -/
def ofJson (v : Json) : Condition :=
  match v with
  | .str s => if s = nullText then .isNull else if s = notNullText then .isNotNull else .equals s
  | v => .equals v.text

def holds (value : String) : Condition → Bool
  | isNull => Text.isBlankText value
  | isNotNull => !Text.isBlankText value
  | equals expected => expected == value

def text : Condition → String
  | isNull => nullText
  | isNotNull => notNullText
  | equals value => value

end Condition

/-- A style value; without a text it clears the property. -/
structure StyleValue where
  text : Option String := none
  important : Bool := false
deriving DecidableEq, Repr

/-- One parameter of a style dependency: the value it takes, and the value it goes back to. -/
structure StyleParameter where
  value : StyleValue
  fallback : Option StyleValue := none
deriving DecidableEq, Repr

inductive Dependency where
  /-- The node shows the value: as its text, or as a list if it is a template. -/
  | value
  /-- The node is visible as long as the condition holds. -/
  | visible (condition : Condition)
  /-- The parameters apply when the value equals the condition, and go back otherwise.  Without a condition they never
  apply. -/
  | style (condition : Option String) (parameters : Table StyleParameter)

/-- The nodes that depend on a variable, by element, in order. -/
abbrev DependencyTable := Table (List Dependency)

end BoundPage
