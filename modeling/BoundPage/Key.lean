import BoundPage.Text.Affix
/-!
# Node keys

A rendered node is addressed by an element id and the id of the instance that rendered it; its data-id is the two with a
colon between.

The hidden template of a list has an element id that ends in `:dummy`.  Each item of the list has the id of the template
up to there, a comma, its index and `:new`.
-/
namespace BoundPage

/-- What the element id of a template ends with. -/
def templateMark : String := ":dummy"

/-- What the element id of a list item ends with. -/
def itemMark : String := ":new"

namespace Element

/-- The element id of a template without its mark. -/
def templateBase? (element : String) : Option String := Text.beforeSuffix? templateMark element

def isTemplate (element : String) : Bool := (templateBase? element).isSome

/-- The element id of the item of a template at an index; no item belongs to an element that is no template. -/
def item? (template : String) (index : Nat) : Option String :=
  (templateBase? template).map fun base => base ++ "," ++ toString index ++ itemMark

/-- A text that can be an index: digits, at least one. -/
def isIndex (s : List Char) : Bool := !s.isEmpty && s.all Text.isDigit

def isItemOf (element template : String) : Bool :=
  match templateBase? template with
  | none => false
  | some base =>
    match (base ++ ",").toList.isPrefixOf? element.toList with
    | none => false
    | some rest =>
      match itemMark.toList.isSuffixOf? rest with
      | none => false
      | some index => isIndex index

/-- The element is an item of some template: an index stands between its last comma and the mark. -/
def isItem (element : String) : Bool :=
  match Text.breakOnLast? [','] element.toList with
  | none => false
  | some (_, rest) =>
    match itemMark.toList.isSuffixOf? rest with
    | none => false
    | some index => isIndex index

end Element

/-- The address of a node: its element and the instance it belongs to. -/
structure NodeKey where
  element : String
  instanceId : String
deriving DecidableEq, Repr

namespace NodeKey

def text (k : NodeKey) : String := k.element ++ ":" ++ k.instanceId

def isTemplate (k : NodeKey) : Bool := Element.isTemplate k.element

/-- The key of the item of this template at an index. -/
def item? (k : NodeKey) (index : Nat) : Option NodeKey :=
  (Element.item? k.element index).map fun element => { k with element }

def isItemOf (k template : NodeKey) : Bool :=
  k.instanceId == template.instanceId && Element.isItemOf k.element template.element

end NodeKey
end BoundPage
