import BoundPage.Json.Reader
import BoundPage.Table
/-!
# Reading JSON into a shape

Each decoder answers `none` when the document does not have its shape.  Nothing is coerced: a whole float is no integer
and `null` is no text.

A record may be written as an object or as a list of its fields in their order.  In an object fields of other names are
ignored and a field of the record may stand once; in a list there may be no further items.
-/
namespace BoundPage.Json.Decode

def string : Document → Option String
  | .str s => some s
  | _ => none

def boolean : Document → Option Bool
  | .bool b => some b
  | _ => none

def integer : Document → Option Int
  | .num (.int n) => if -9223372036854775808 ≤ n ∧ n ≤ 9223372036854775807 then some n else none
  | _ => none

def value (d : Document) : Option Json := d.value?

def list {α : Type} (item : Document → Option α) : Document → Option (List α)
  | .arr ds => ds.mapM item
  | _ => none

/-- Sets one field of a table; its name and its value must be readable even if a later field replaces it. -/
def tableEntry {α : Type} (entry : Document → Option α) (t : Table α) (f : Option String × Document) :
    Option (Table α) := do
  return t.insert (← f.1) (← entry f.2)

/-- Of fields with the same name the last one counts, in the place of the first. -/
def table {α : Type} (entry : Document → Option α) : Document → Option (Table α)
  | .obj fields => fields.foldlM (tableEntry entry) ∅
  | _ => none

/-- `null`, or a value. -/
def nullable {α : Type} (item : Document → Option α) : Document → Option (Option α)
  | .null => some none
  | d => (item d).map some

/-! ## Records -/

/-- The fields of the given names in a document, in the order of the names; a missing field is `none`. -/
def record (names : List String) : Document → Option (List (Option Document))
  | .arr items =>
    if items.length ≤ names.length then
      some (items.map some ++ List.replicate (names.length - items.length) none)
    else none
  | .obj fields =>
    let once (name : String) : Bool := decide ((fields.filter fun f => f.1 == some name).length ≤ 1)
    if fields.all (·.1.isSome) && names.all once then
      some (names.map fun name => (fields.find? fun f => f.1 == some name).map Prod.snd)
    else none
  | _ => none

def required {α : Type} (item : Document → Option α) : Option Document → Option α
  | none => none
  | some d => item d

def defaulted {α : Type} (otherwise : α) (item : Document → Option α) : Option Document → Option α
  | none => some otherwise
  | some d => item d

/-- One of several names, written as the name or as an object whose only field has the name and the value `null`. -/
def choice {α : Type} (named? : String → Option α) : Document → Option α
  | .str s => named? s
  | .obj [(some s, .null)] => named? s
  | _ => none

/-- The value of a text under a decoder. -/
def ofText? {α : Type} (item : Document → Option α) (text : String) : Option α := do
  item (← Document.read? text)

end BoundPage.Json.Decode
