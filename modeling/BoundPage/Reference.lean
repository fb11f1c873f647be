import BoundPage.Variables
/-!
# Literals and references

An action's parameter is a literal beside a reference.  A reference is shaped like its literal; where it holds a string,
that string names the variable whose value takes the place of the literal.  A literal `$VALUE` without such a variable
stands for the value of the event.
-/
namespace BoundPage

/-- The literal that stands for the value of the event. -/
def eventMark : String := "$VALUE"

namespace Reference

/-- The value of a known variable. -/
def lookup? (vs : Variables) (name : String) : Option Json := (vs.value? name).map .str

/-- The value of the variable that a reference names, if it names a known one. -/
def named? (vs : Variables) : Json → Option Json
  | .str name => lookup? vs name
  | _ => none

/-- The literal, or the event's value in its place. -/
def plain (event : Option String) (literal : Json) : Json :=
  match literal, event with
  | .str s, some e => if s = eventMark then .str e else literal
  | _, _ => literal

/-- The part of a reference for the item at an index: an item of a list, or the field of an object that has the index
as its name. -/
def forItem? (reference : Json) (index : Nat) : Option Json :=
  match reference with
  | .arr items => items[index]?
  | .obj fields => Json.field? (toString index) fields
  | _ => none

/-- The part of a reference for a field. -/
def forField? (reference : Json) (name : String) : Option Json :=
  match reference with
  | .obj fields => Json.field? name fields
  | _ => none

/-- The fields that only the reference has, as far as they name known variables, set among the others. -/
def addNamed (vs : Variables) (literal : List (String × Json)) (reference : Json) (sofar : List (String × Json)) :
    List (String × Json) :=
  match reference with
  | .obj fields =>
    fields.foldl (fun acc f =>
      if (Json.field? f.1 literal).isSome then acc
      else match named? vs f.2 with
        | some v => Json.insertField f.1 v acc
        | none => acc) sofar
  | _ => sofar

mutual

/-- A literal inside another one, with its part of the reference.  A string that names no variable leaves the literal as
it is; a list or an object without a part is left as it is altogether. -/
def resolvePart (vs : Variables) (event : Option String) (part : Option Json) : Json → Json
  | .obj fields =>
    match part with
    | some r => .obj (addNamed vs fields r (resolveFields vs event r fields))
    | none => .obj fields
  | .arr items =>
    match part with
    | some r => .arr (resolveItems vs event r 0 items)
    | none => .arr items
  | literal =>
    match part with
    | some (.str name) => (lookup? vs name).getD literal
    | _ => plain event literal

/-- Every field with its part of the reference. -/
def resolveFields (vs : Variables) (event : Option String) (reference : Json) :
    List (String × Json) → List (String × Json)
  | [] => []
  | (name, literal) :: fs =>
    (name, resolvePart vs event (forField? reference name) literal) :: resolveFields vs event reference fs

/-- Every item, from an index on, with its part of the reference. -/
def resolveItems (vs : Variables) (event : Option String) (reference : Json) (index : Nat) : List Json → List Json
  | [] => []
  | literal :: rest =>
    resolvePart vs event (forItem? reference index) literal :: resolveItems vs event reference (index + 1) rest

end

/-- A literal that stands on its own. -/
def resolve (vs : Variables) (event : Option String) (reference literal : Json) : Json :=
  match literal with
  | .obj _ | .arr _ => resolvePart vs event (some reference) literal
  | _ => (named? vs reference).getD (plain event literal)

end Reference
end BoundPage
