import BoundPage.Markup.Basic
import BoundPage.Text.Blank
import BoundPage.Text.Affix
/-!
# Surfaces

A surface is the rendered page: trees of nodes in numbered slots.  A node knows its parent and its children by their
slots.  The slots of removed nodes are kept on a stack, and the slot that was given back last is the first to be used
again.

Reading is total: a slot that was never used reads as a removed node that holds nothing.
-/
namespace BoundPage

/-- The number of a node on its surface. -/
abbrev Slot := Nat

/-- The value of a style property, and whether it was set as important. -/
structure StyleEntry where
  value : String
  important : Bool := false
deriving DecidableEq, Repr

namespace StyleEntry

def importantMark : String := "!important"

/-- Reads a style value with its mark; the blanks around the two parts are dropped. -/
def ofText (text : String) : StyleEntry :=
  let trimmed := Text.trim text
  match Text.beforeSuffix? importantMark trimmed with
  | some value => ⟨Text.trim value, true⟩
  | none => ⟨trimmed, false⟩

def text (e : StyleEntry) : String := if e.important then e.value ++ " " ++ importantMark else e.value

end StyleEntry

/-- What is in a slot. -/
structure Node where
  tag : String := ""
  id : Option String := none
  externalId : Option String := none
  /-- The node's own text, before its children. -/
  text : String := ""
  attributes : Table String := ∅
  styles : Table StyleEntry := ∅
  children : List Slot := []
  parent : Option Slot := none
  /-- The node has not been removed. -/
  live : Bool := false

instance : Inhabited Node := ⟨{}⟩

namespace Node

def ofMarkup (m : Markup) : Node where
  tag := m.tag
  id := m.id
  externalId := m.externalId
  text := m.text
  attributes := m.attributes
  styles := m.styles.map StyleEntry.ofText
  live := true

/-- What is left in the slot of a removed node. -/
def removed (n : Node) : Node := { tag := n.tag }

end Node

structure Surface where
  slots : Array Node := #[]
  roots : List Slot := []
  /-- The slots of removed nodes, the next one to be used first. -/
  free : List Slot := []

namespace Surface

instance : EmptyCollection Surface := ⟨{}⟩

instance : Inhabited Surface := ⟨∅⟩

/-! ## Reading -/

def node (s : Surface) (h : Slot) : Node := (s.slots[h]?).getD default

/-- The number of slots, in use or free. -/
def size (s : Surface) : Nat := s.slots.size

/-- The slots in use, in the order of their numbers. -/
def liveSlots (s : Surface) : List Slot := (List.range s.size).filter fun h => (s.node h).live

def liveCount (s : Surface) : Nat := s.liveSlots.length

/-- The first node with a data-id. -/
def find? (s : Surface) (id : String) : Option Slot := s.liveSlots.find? fun h => (s.node h).id == some id

/-- The nodes that belong to an external child. -/
def externals (s : Surface) (id : String) : List Slot :=
  s.liveSlots.filter fun h => (s.node h).externalId == some id

/-- The nodes from a node down, `depth` levels of them, in document order. -/
def walk (s : Surface) : Nat → Slot → List Slot
  | 0, _ => []
  | depth + 1, h => h :: (s.node h).children.flatMap (walk s depth)

/-- A node and all nodes below it, in document order.  No tree has more levels than there are slots. -/
def subtree (s : Surface) (h : Slot) : List Slot := s.walk s.size h

def textContent (s : Surface) (h : Slot) : String := String.join ((s.subtree h).map fun k => (s.node k).text)

/-- The description of a node, with `depth` levels of its tree. -/
def markupWithin (s : Surface) : Nat → Slot → Markup
  | 0, _ => default
  | depth + 1, h =>
    let n := s.node h
    { tag := n.tag
      id := n.id
      externalId := n.externalId
      text := n.text
      attributes := n.attributes
      styles := n.styles.map StyleEntry.text
      children := n.children.map (markupWithin s depth) }

def markupOf (s : Surface) (h : Slot) : Markup := s.markupWithin s.size h

def markup (s : Surface) : List Markup := s.roots.map s.markupOf

/-! ## Changing slots and links -/

def modify (s : Surface) (h : Slot) (f : Node → Node) : Surface := { s with slots := s.slots.modify h f }

/-- Puts a node into a slot: the free one on top of the stack, or a new one. -/
def place (s : Surface) (n : Node) : Slot × Surface :=
  match s.free with
  | h :: free => (h, { s with slots := s.slots.setIfInBounds h n, free })
  | [] => (s.size, { s with slots := s.slots.push n })

/-- Makes a node the last child of a parent, or the last root. -/
def attach (s : Surface) (parent : Option Slot) (child : Slot) : Surface :=
  let s := s.modify child fun n => { n with parent }
  match parent with
  | some p => s.modify p fun n => { n with children := n.children ++ [child] }
  | none => { s with roots := s.roots ++ [child] }

/-- Takes a node from its parent, or from the roots. -/
def detach (s : Surface) (child : Slot) : Surface :=
  let without (hs : List Slot) : List Slot := hs.filter fun h => h != child
  let s := match (s.node child).parent with
    | some p => s.modify p fun n => { n with children := without n.children }
    | none => { s with roots := without s.roots }
  s.modify child fun n => { n with parent := none }

mutual

/-- Adds a described tree below a parent, or as a root; answers the slot of its top node. -/
def mount (s : Surface) (parent : Option Slot) : Markup → Slot × Surface
  | ⟨tag, id, externalId, text, attributes, styles, children⟩ =>
    let (h, s) := s.place (.ofMarkup { tag, id, externalId, text, attributes, styles })
    (h, mountAll (s.attach parent h) (some h) children)

def mountAll (s : Surface) (parent : Option Slot) : List Markup → Surface
  | [] => s
  | m :: ms => mountAll (mount s parent m).2 parent ms

end

/-- The page that a description is mounted to. -/
def ofMarkup (ms : List Markup) : Surface := (∅ : Surface).mountAll none ms

/-- Copies a node, with `depth` levels below it, to a parent; answers the slot of the copy. -/
def copyWithin : Nat → Surface → Slot → Option Slot → Slot × Surface
  | depth, s, source, parent =>
    let n := s.node source
    let (h, s) := s.place { n with children := [], parent := none }
    let s := s.attach parent h
    match depth with
    | 0 => (h, s)
    | depth + 1 => (h, n.children.foldl (fun s c => (copyWithin depth s c (some h)).2) s)

def copy (s : Surface) (source : Slot) (parent : Option Slot) : Slot × Surface := copyWithin s.size s source parent

/-- Empties a slot and gives it back. -/
def empty (s : Surface) (h : Slot) : Surface := { s.modify h Node.removed with free := h :: s.free }

/-- Removes a node and `depth` levels below it, parents before their children; what is removed already is left alone. -/
def releaseWithin : Nat → Surface → Slot → Surface
  | depth, s, h =>
    if (s.node h).live then
      match depth with
      | 0 => s.empty h
      | depth + 1 => (s.node h).children.foldl (releaseWithin depth) (s.empty h)
    else s

/-- Removes a node and all that is below it.  Its place in the children of its parent is not touched. -/
def release (s : Surface) (h : Slot) : Surface := s.releaseWithin s.size h

/-! ## Changing the page -/

/-- Sets a style property; no value, or an empty one, clears it. -/
def setStyle (s : Surface) (h : Slot) (property : String) (value : Option String) (important : Bool) : Surface :=
  s.modify h fun n =>
    match value with
    | some v =>
      if v.isEmpty then { n with styles := n.styles.erase property }
      else { n with styles := n.styles.insert property ⟨v, important⟩ }
    | none => { n with styles := n.styles.erase property }

def setText (s : Surface) (h : Slot) (text : String) : Surface :=
  let children := (s.node h).children
  let s := s.modify h fun n => { n with children := [] }
  (children.foldl release s).modify h fun n => { n with text }

/-- Copies a node with all that is below it to the end of its own parent, and gives the copy a data-id. -/
def clone (s : Surface) (template : Slot) (id : String) : Slot × Surface :=
  let (h, s) := s.copy template (s.node template).parent
  (h, s.modify h fun n => { n with id := some id })

/-- Replaces the first occurrence of a placeholder, in document order, in the texts from a node down. -/
def substitute (s : Surface) (h : Slot) (placeholder replacement : String) : Surface :=
  let replaced (k : Slot) : Option Surface :=
    (Text.replaceFirst? placeholder replacement (s.node k).text).map fun text => s.modify k fun n => { n with text }
  ((s.subtree h).findSome? replaced).getD s

def remove (s : Surface) (h : Slot) : Surface := (s.detach h).release h

def append (s : Surface) (parent child : Slot) : Surface := (s.detach child).attach (some parent) child

end Surface
end BoundPage
