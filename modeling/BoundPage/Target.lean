import BoundPage.Key
/-!
# What a page is rendered to

Writing needs little of a rendered page: find nodes by their keys, read what is near them, and a few changes.  A type
with these operations is a `RenderTarget`.  Nodes are known by numbers.
-/
namespace BoundPage

class RenderTarget (S : Type) where
  /-- The node with a data-id. -/
  locate : S → NodeKey → Option Nat
  /-- The nodes that belong to an external child. -/
  locateExternal : S → NodeKey → List Nat
  parent : S → Nat → Option Nat
  children : S → Nat → List Nat
  attributeOf : S → Nat → String → Option String
  /-- The value of a style property; `none` when it is not set. -/
  style : S → Nat → String → Option String
  /-- Sets a style property, or clears it when there is no value. -/
  setStyle : S → Nat → String → Option String → Bool → S
  /-- Replaces all that is in a node by a text. -/
  setText : S → Nat → String → S
  /-- Copies a node to the end of its own parent and gives the copy the data-id of a key. -/
  cloneNode : S → Nat → NodeKey → Nat × S
  /-- Replaces the first occurrence of a placeholder from a node down. -/
  substituteText : S → Nat → String → String → S
  remove : S → Nat → S
  /-- Moves a node to the end of a parent's children. -/
  appendChild : S → Nat → Nat → S

namespace RenderTarget

variable {S : Type} [RenderTarget S]

def isVisible (s : S) (n : Nat) : Bool := style s n "display" != some "none"

/-- The property has a value that is not empty. -/
def hasStyle (s : S) (n : Nat) (property : String) : Bool := (style s n property).any fun v => !v.isEmpty

end RenderTarget

/-- A surface does not have the node it takes. -/
inductive SurfaceError where
  | nodeNotFound (key : NodeKey)
  /-- The node is there but has no parent. -/
  | detached (key : NodeKey)
deriving DecidableEq, Repr

def SurfaceError.message : SurfaceError → String
  | nodeNotFound key => "No render-surface node for key '" ++ key.text ++ "'"
  | detached key => "Node '" ++ key.text ++ "' has no parent to render into"

/-- The node of a key, which has to be there. -/
def RenderTarget.require {S : Type} [RenderTarget S] (s : S) (key : NodeKey) : Except SurfaceError Nat :=
  match locate s key with
  | some n => .ok n
  | none => .error (.nodeNotFound key)

end BoundPage
