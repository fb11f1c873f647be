import BoundPage.Surface.Basic
import BoundPage.Target
/-!
# Surfaces as render targets
-/
namespace BoundPage.Surface

def locate (s : Surface) (k : NodeKey) : Option Slot := s.find? k.text

def style (s : Surface) (h : Slot) (property : String) : Option String :=
  ((s.node h).styles.get? property).map (·.value)

instance : RenderTarget Surface where
  locate := locate
  locateExternal s k := s.externals k.text
  parent s h := (s.node h).parent
  children s h := (s.node h).children
  attributeOf s h name := (s.node h).attributes.get? name
  style := style
  setStyle := setStyle
  setText := setText
  cloneNode s h k := s.clone h k.text
  substituteText := substitute
  remove := remove
  appendChild := append

/-! ## Questions by data-id -/

def textAt? (s : Surface) (id : String) : Option String := (s.find? id).map s.textContent

/-- The entry of a style property. -/
def styleAt? (s : Surface) (id property : String) : Option StyleEntry := do
  (s.node (← s.find? id)).styles.get? property

/-- The data-ids of the children; children without one are left out. -/
def childIds (s : Surface) (id : String) : List String :=
  match s.find? id with
  | some h => (s.node h).children.filterMap fun c => (s.node c).id
  | none => []

def parentId? (s : Surface) (id : String) : Option String := do
  (s.node (← (s.node (← s.find? id)).parent)).id

end BoundPage.Surface
