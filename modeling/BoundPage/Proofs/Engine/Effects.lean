import BoundPage.Proofs.Engine.Forests
import BoundPage.Proofs.Write.Styling
/-!
# Which style effect is the last

When several style dependencies of a node match, all of them are applied, one after the other, and so the last one
prevails (`last_match_prevails`).  The first one does only if the last one gives the parameter the same value
(`not_firstWins_repainted`).
-/
namespace BoundPage
open RenderTarget

namespace Pass

variable {S : Type} {p : Pass S} {ds : List Dependency} {parameter : String}

/-- The value of the first matching style dependency, or else the last reset. -/
def first? (p : Pass S) (ds : List Dependency) (parameter : String) : Option Effect :=
  ((p.matching ds parameter).head?.map .give).or
    ((styled ds parameter).getLast?.map fun x => p.resetEffect parameter x.2)

theorem prevailing?_eq_first?_iff : p.prevailing? ds parameter = p.first? ds parameter ↔
    (p.matching ds parameter).head? = (p.matching ds parameter).getLast? := by
  unfold prevailing? first?
  cases hvalues : p.matching ds parameter with
  | nil => exact iff_of_true rfl rfl
  | cons v vs =>
    rw [List.getLast?_cons, List.head?_cons, Option.map_some, Option.map_some, Option.some_or, Option.some_or,
      Option.some_inj, Option.some_inj, Effect.give.injEq, eq_comm]

end Pass

namespace Engine
open Pass

variable {H W : Type} {g : Engine Surface H W} {op : Operation} {p : Pass Surface} {e : String × List Dependency}
  {n : Slot}

/-- What an operation does for style parameters. -/
def styleCalls (g : Engine Surface H W) (op : Operation) : List Call :=
  (g.passOf? op).elim [] fun p => p.calls g.surface

/-- **The last matching style dependency prevails**, whatever carries the effects out: the last effect of a write on a
parameter of a node that stays is its value, or without one the reset of the last style dependency that names the
parameter.  It is the effect of the first matching one exactly if both give the parameter the same value. -/
theorem last_match_prevails (hop : g.passOf? op = some p) (h : p.Remains g.surface e n) (parameter : String) :
    lastEffect? (g.styleCalls op) n parameter = p.prevailing? e.2 parameter ∧
      (lastEffect? (g.styleCalls op) n parameter = p.first? e.2 parameter ↔
        (p.matching e.2 parameter).head? = (p.matching e.2 parameter).getLast?) := by
  have hlast : lastEffect? (g.styleCalls op) n parameter = p.prevailing? e.2 parameter := by
    unfold styleCalls
    rw [hop]
    exact h.lastEffect?_calls parameter
  exact ⟨hlast, hlast ▸ prevailing?_eq_first?_iff⟩

/-- Of the matching style dependencies of a node the first one wins. -/
def FirstWins (g : Engine Surface H W) : Prop :=
  ∀ {op p e n}, g.passOf? op = some p → p.Remains g.surface e n →
    ∀ parameter, lastEffect? (g.styleCalls op) n parameter = p.first? e.2 parameter

/-! ## A label painted twice -/

def painted (condition colour : String) : Dependency :=
  .style (some condition) (.ofList [("color", { value := { text := colour } })])

def repaintedEntry : String × List Dependency := ("label", [painted "1" "red", painted "1" "blue", painted "2" "green"])

def repainted : Engine Surface Empty Unit :=
  (mounted [{ tag := "p", id := "label:main" }] {} ∅ ()).perform
    (.start "main" { store := .ofList [("x", { dependents := .ofList [repaintedEntry] })] })

def painting : Pass Surface where
  effector := inlineStyles
  options := {}
  instanceId := "main"
  value := "1"
  dependents := .ofList [repaintedEntry]

theorem passOf?_repainted : repainted.passOf? (.write "main" "x" (.text "1")) = some painting := rfl

theorem remains_repainted : painting.Remains repainted.surface repaintedEntry 0 := by
  have hstyles : painting.StylesOnly := by
    rintro e he d hd
    obtain rfl := List.mem_singleton.1 he
    simp only [repaintedEntry, List.mem_cons, List.not_mem_nil, or_false] at hd
    rcases hd with rfl | rfl | rfl <;> exact ⟨_, _, rfl⟩
  exact hstyles.remains rfl List.mem_cons_self (by decide +kernel)

theorem last_match_prevails_repainted :
    lastEffect? (repainted.styleCalls (.write "main" "x" (.text "1"))) 0 "color" = some (.give { text := "blue" }) :=
  (last_match_prevails passOf?_repainted remains_repainted "color").1

/-- **The first matching style dependency does not win**: both are carried out, and the label is blue. -/
theorem not_firstWins_repainted : ¬ repainted.FirstWins := fun h => by
  have hfirst := h passOf?_repainted remains_repainted "color"
  exact absurd hfirst (by decide +kernel)

end Engine
end BoundPage
