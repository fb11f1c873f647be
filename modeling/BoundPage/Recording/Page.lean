import BoundPage.Engine.Basic
import BoundPage.Markup.Json
import BoundPage.Surface.Target
/-!
# Recorded pages

What a page was when it had just been set up: the rendered trees, and the variables and external children of every
instance.
-/
namespace BoundPage.Recording
open Json (Document)
open Json.Decode

structure PageInstance where
  id : String
  inst : Instance := {}

structure Page where
  trees : List Markup
  instances : List PageInstance

namespace PageInstance

def ofDocument? (d : Document) : Option PageInstance := do
  let [id, store, externals] ← record ["id", "variables", "externalChildren"] d | none
  let id ← required string id
  let store ← defaulted ∅ Variables.ofDocument? store
  let externals ← defaulted ∅ ExternalChildren.ofDocument? externals
  return { id, inst := { store, externals } }

end PageInstance

namespace Page

def ofDocument? (d : Document) : Option Page := do
  let [trees, instances] ← record ["tree", "instances"] d | none
  let trees ← required Markup.listOfDocument? trees
  let instances ← required (list PageInstance.ofDocument?) instances
  return { trees, instances }

/-- What keeps a text from being a recorded page. -/
inductive ReadError where
  | malformed
  | noInstances
deriving DecidableEq, Repr

/-- A page has at least one instance. -/
def ofText? (text : String) : Except ReadError Page :=
  match Json.Decode.ofText? ofDocument? text with
  | none => .error .malformed
  | some page => if page.instances.isEmpty then .error .noInstances else .ok page

/-- The instance that steps without one are for. -/
def defaultInstance (p : Page) : String := (p.instances.head?.map (·.id)).getD ""

/-- The engine of a recorded page has no host. -/
abbrev PageEngine := Engine Surface Empty Unit

/-- The page as it runs: its trees are mounted and its instances are started. -/
def engine (p : Page) (options : Options) : PageEngine :=
  let g : PageEngine := Engine.new (.ofMarkup p.trees) ()
  p.instances.foldl (fun g i => (g.start i.id i.inst).state) { g with options }

/-- Places the external children of every instance; answers the objects placed, by instance. -/
def refreshAll (g : PageEngine) : Ran PageEngine (List (String × List String)) :=
  Ran.each (fun g id => (g.refresh id).map (id, ·)) g g.instanceIds

end Page
end BoundPage.Recording
