import BoundPage.Json.Basic
/-!
# JSON documents

What a text says before anything is asked of it.  A document keeps the fields of an object in the order of the text,
repeated ones included, and it keeps the parts that are well formed but stand for nothing (`void`): a string with an
unpaired surrogate, a number out of range, a list or an object nested too deeply.  Such a part is harmless as long as
nobody reads it.
-/
namespace BoundPage.Json

inductive Document where
  | null
  | bool (b : Bool)
  | num (n : Number)
  | str (s : String)
  | arr (items : List Document)
  /-- A name that stands for nothing is `none`. -/
  | obj (fields : List (Option String × Document))
  | void

namespace Document

mutual

/-- Every part of the document stands for something. -/
def sound : Document → Bool
  | .arr items => soundItems items
  | .obj fields => soundFields fields
  | .void => false
  | _ => true

def soundItems : List Document → Bool
  | [] => true
  | d :: ds => sound d && soundItems ds

def soundFields : List (Option String × Document) → Bool
  | [] => true
  | (name, d) :: fs => name.isSome && sound d && soundFields fs

end

mutual

/-- The value of a document.  The fields of an object are sorted, and of equal names the last one counts. -/
def value? : Document → Option Json
  | .null => some .null
  | .bool b => some (.bool b)
  | .num n => some (.num n)
  | .str s => some (.str s)
  | .arr items => (valuesOf? items).map .arr
  | .obj fields => (fieldsFrom? [] fields).map .obj
  | .void => none

def valuesOf? : List Document → Option (List Json)
  | [] => some []
  | d :: ds => do
    let v ← value? d
    let vs ← valuesOf? ds
    return v :: vs

/-- The fields so far, with those of the list set one after the other. -/
def fieldsFrom? (sofar : List (String × Json)) : List (Option String × Document) → Option (List (String × Json))
  | [] => some sofar
  | (none, _) :: _ => none
  | (some name, d) :: fs => do
    let v ← value? d
    fieldsFrom? (insertField name v sofar) fs

end

end Document
end BoundPage.Json
