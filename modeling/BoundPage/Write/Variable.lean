import BoundPage.External.Placement
import BoundPage.Instance
import BoundPage.Scalar
import BoundPage.Write.Pass
import BoundPage.Write.Report
/-!
# Writing a variable

A write sets the text of a variable, takes it to the nodes that depend on the variable, and places the external
children that can be placed now.
-/
namespace BoundPage

/-- The outcome of a write to an instance, with what has become of the instance and the page. -/
structure Written (S : Type) where
  surface : S
  inst : Instance
  outcome : WriteOutcome
  events : List Event

namespace Instance

variable {S : Type} [RenderTarget S]

def write (effector : StyleEffector S) (options : Options) (id : String) (s : S) (i : Instance) (name : String)
    (value : Scalar) : Written S :=
  match i.store.get? name with
  | none =>
    { surface := s
      inst := i
      outcome := .skipped (.unknownVariable name)
      events := [.writeUnknownVariable] }
  | some old =>
    let text := value.render
    let pass : Pass S := { effector, options, instanceId := id, value := text, dependents := old.dependents }
    let st := pass.run s
    let placing := i.externals.placePending st.surface id
    { surface := placing.surface
      inst :=
        { store := i.store.insert name { value := text, dependents := st.table }
          externals := placing.children }
      outcome := .applied
        { target := name
          value := text
          missing := st.missing
          detached := st.detached
          materialized := st.materialized
          placed := placing.placed }
      events := st.events ++ placing.events }

end Instance
end BoundPage
