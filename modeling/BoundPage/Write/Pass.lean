import BoundPage.Dependency.Basic
import BoundPage.Layout
import BoundPage.ListRegion
import BoundPage.Options
import BoundPage.Style.Effect
/-!
# Passes

A pass takes a written value to the nodes that depend on the variable, entry by entry in the order of the table as it
was when the pass began.

Three things are kept while it goes on.  A parameter that a matching style dependency has applied to an element is not
reset by a later one that does not match (`edited`).  The items of a list that was rebuilt are not looked at any more
(`destroyed`).  And the table changes with every list that is rebuilt (`table`).
-/
namespace BoundPage
open RenderTarget

/-- What is fixed during a pass. -/
structure Pass (S : Type) where
  effector : StyleEffector S
  options : Options
  instanceId : String
  /-- The text that was written. -/
  value : String
  /-- The table at the beginning. -/
  dependents : DependencyTable

namespace Pass

/-- What has become of the page and the table so far. -/
structure State (S : Type) where
  surface : S
  table : DependencyTable
  /-- The elements and parameters that a matching style dependency applied. -/
  edited : List (String × String) := []
  /-- The list items that were destroyed. -/
  destroyed : List String := []
  missing : List NodeKey := []
  detached : List NodeKey := []
  materialized : List NodeKey := []
  events : List Event := []

variable {S : Type} [RenderTarget S]

def State.say (st : State S) (e : Event) : State S := { st with events := st.events ++ [e] }

def key (p : Pass S) (element : String) : NodeKey := ⟨element, p.instanceId⟩

/-! ## Texts and lists -/

/-- The element is an item of a template of the same table, which alone says what text it has. -/
def ownedByTemplate (p : Pass S) (element : String) : Bool := p.dependents.names.any (Element.isItemOf element)

def showText (p : Pass S) (k : NodeKey) (st : State S) : Except SurfaceError (State S) := do
  let n ← require st.surface k
  return { st with surface := setText st.surface n p.value }.say (.replacedText k)

/-- The table with the items of a template replaced by new ones, which stand right before it. -/
def rekey (table : DependencyTable) (template : String) (created : List String) (ds : List Dependency) :
    DependencyTable :=
  .ofList (table.entries.flatMap fun e =>
    if Element.isItemOf e.1 template then []
    else if e.1 = template then created.map (fun c => (c, ds)) ++ [e]
    else [e])

/-- Rebuilds the list behind a template: the old items are destroyed before the new ones are made, so that no two nodes
have the same key. -/
def rebuildList (p : Pass S) (k : NodeKey) (ds : List Dependency) (st : State S) : Except SurfaceError (State S) := do
  let template ← require st.surface k
  if (parent st.surface template).isNone then throw (.detached k)
  let stale := st.table.names.filter fun element => Element.isItemOf element k.element
  let (surface, missing) := ListRegion.destroyAll st.surface (stale.map p.key)
  let (surface, created, events) :=
    ListRegion.materialize surface template k p.value p.options.loopPlaceholder
  return { st with
    surface
    table := rekey st.table k.element (created.map (·.element)) ds
    destroyed := st.destroyed ++ stale
    materialized := st.materialized ++ created
    events := st.events ++ ListRegion.destroyEvents missing ++ events ++
      [.rebuiltList k created.length stale.length] }

/-! ## Visibility and styles -/

def setVisible (k : NodeKey) (visible : Bool) (st : State S) : Except SurfaceError (State S) := do
  let n ← require st.surface k
  let display := if visible then (Layout.detect st.surface n).display else "none"
  let surface := Layout.refreshSpacing (setStyle st.surface n "display" (some display) false) n
  return { st with surface }.say (.appliedVisibility k display)

/-- The width of a border that is none. -/
def zeroWidth : String := "0px"

/-- Takes a parameter back: to its default, or to no width if it is one of those, or to nothing. -/
def resetParameter (p : Pass S) (s : S) (n : Nat) (parameter : String) (style : StyleParameter) : S :=
  match style.fallback with
  | some v => p.effector s n parameter v.text v.important
  | none =>
    if p.options.resetsToZero parameter then setStyle s n parameter (some zeroWidth) false
    else p.effector s n parameter none false

/-- Applies or resets one parameter of an element.  What was applied in this pass is not reset. -/
def styleParameter (p : Pass S) (element : String) (n : Nat) (matched : Bool) (st : State S)
    (entry : String × StyleParameter) : State S :=
  if matched then
    { st with
      surface := p.effector st.surface n entry.1 entry.2.value.text entry.2.value.important
      edited := (element, entry.1) :: st.edited }
  else if st.edited.contains (element, entry.1) then st
  else { st with surface := p.resetParameter st.surface n entry.1 entry.2 }

def applyStyle (p : Pass S) (k : NodeKey) (matched : Bool) (parameters : Table StyleParameter) (st : State S) :
    Except SurfaceError (State S) := do
  let n ← require st.surface k
  return (parameters.entries.foldl (p.styleParameter k.element n matched) st).say
    (.appliedStyle k matched parameters.size)

/-! ## The pass -/

/-- Carries out one dependency of a node; `ds` are all dependencies of it. -/
def applyOne (p : Pass S) (k : NodeKey) (ds : List Dependency) (d : Dependency) (st : State S) :
    Except SurfaceError (State S) :=
  match d with
  | .value =>
    if p.ownedByTemplate k.element then .ok (st.say (.ownedByTemplate k))
    else if k.isTemplate then p.rebuildList k ds st
    else p.showText k st
  | .visible condition => setVisible k (condition.holds p.value) st
  | .style condition parameters => p.applyStyle k (condition == some p.value) parameters st

/-- Carries out dependencies of a node.  A node that is not there ends them; a template without a parent does not. -/
def applyEach (p : Pass S) (k : NodeKey) (ds : List Dependency) : List Dependency → State S → State S
  | [], st => st
  | d :: rest, st =>
    match p.applyOne k ds d st with
    | .ok st => p.applyEach k ds rest st
    | .error (.nodeNotFound missing) =>
      { st with missing := st.missing ++ [missing] }.say (.missingNode missing)
    | .error (.detached template) =>
      p.applyEach k ds rest ({ st with detached := st.detached ++ [template] }.say (.detachedTemplate template))

def entry (p : Pass S) (st : State S) (e : String × List Dependency) : State S :=
  if st.destroyed.contains e.1 then st else p.applyEach (p.key e.1) e.2 e.2 st

def run (p : Pass S) (s : S) : State S :=
  p.dependents.entries.foldl p.entry
    { surface := s
      table := p.dependents
      events := [.propagating p.value p.dependents.size] }

end Pass
end BoundPage
