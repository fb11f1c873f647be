import BoundPage.Recording.Page
/-!
# Checking a recorded page

Every element that a page refers to should have a node: the dependents of its variables, list items apart, and the
slots and conditions of its external children.  An external child should have a node of its own, too.
-/
namespace BoundPage.Recording

/-- One reference of a page: who refers to what, and whether it is there. -/
structure Finding where
  instanceId : String
  /-- The variable, or the external child. -/
  owner : String
  key : String
  found : Bool
deriving DecidableEq, Repr

namespace Finding

variable (s : Surface) (id : String)

/-- A reference to an element. -/
def ofElement (owner element : String) : Finding :=
  let key : NodeKey := ⟨element, id⟩
  ⟨id, owner, key.text, (s.locate key).isSome⟩

def ofVariable (name : String) (v : Variable) : List Finding :=
  (v.dependents.names.filter fun element => !Element.isItem element).map (ofElement s id name)

/-- The references of an external child.  Its own node is spoken of only when it is missing. -/
def ofRegistration (r : Registration) : List Finding :=
  let owner := "external " ++ r.object
  let tag := NodeKey.text ⟨r.object, id⟩
  ofElement s id owner r.slot :: r.condition.map (ofElement s id owner) ++
    if (s.externals tag).isEmpty then [⟨id, owner, "ext " ++ tag, false⟩] else []

def ofInstance (i : PageInstance) : List Finding :=
  (i.inst.store.entries.flatMap fun e => ofVariable s i.id e.1 e.2) ++
    i.inst.externals.registrations.flatMap (ofRegistration s i.id)

end Finding

def Page.findings (p : Page) : List Finding := p.instances.flatMap (Finding.ofInstance (.ofMarkup p.trees))

/-- The keys that are there. -/
def Page.resolved (p : Page) : List String := (p.findings.filter (·.found)).map (·.key)

def Page.problems (p : Page) : List Finding := p.findings.filter fun f => !f.found

end BoundPage.Recording
