import BoundPage.Table
/-!
# Markup

The description of a rendered tree: what a page is built from and what it is exported to.  A style is written as its
value, with `!important` behind it if it is important.
-/
namespace BoundPage

structure Markup where
  tag : String := ""
  /-- The data-id. -/
  id : Option String := none
  /-- The key of the external child that the node belongs to. -/
  externalId : Option String := none
  /-- The text before the children. -/
  text : String := ""
  attributes : Table String := ∅
  styles : Table String := ∅
  children : List Markup := []

instance : Inhabited Markup := ⟨{}⟩

end BoundPage
