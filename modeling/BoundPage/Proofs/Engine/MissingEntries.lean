import BoundPage.Proofs.Engine.Footprint
import BoundPage.Proofs.Write.Inert
/-!
# Missing entries of a write

A write to a variable whose table has an entry without a node is the same as a write without this entry, but for the
report, which names its key once (`missing_entry_inert`).
-/
namespace BoundPage.Engine
open RenderTarget

section

variable {S H W : Type}

/-- Takes an entry out of the table of a variable. -/
def forget (g : Engine S H W) (id name element : String) : Engine S H W :=
  (g.instance? id).elim g fun i => (i.store.get? name).elim g fun v =>
    { g with
      instances := g.instances.insert id
        { i with store := i.store.insert name { v with dependents := v.dependents.erase element } } }

theorem forget_eq {g : Engine S H W} {id name : String} {i : Instance} {v : Variable} (hi : g.instance? id = some i)
    (hv : i.store.get? name = some v) (element : String) : g.forget id name element =
      { g with
        instances := g.instances.insert id
          { i with store := i.store.insert name { v with dependents := v.dependents.erase element } } } := by
  unfold forget
  rw [hi, Option.elim_some, hv, Option.elim_some]

variable [RenderTarget S]

/-- **What a write answers.** -/
theorem answer_write {g : Engine S H W} {id name : String} {i : Instance} {v : Variable}
    (hi : g.instance? id = some i) (hv : i.store.get? name = some v) (value : Scalar) :
    (g.write id name value).answer = .applied
      { target := name
        value := value.render
        missing := ((g.passFor id v value).run g.surface).missing
        detached := ((g.passFor id v value).run g.surface).detached
        materialized := ((g.passFor id v value).run g.surface).materialized
        placed := (g.placingFor id i v value).placed } := by
  unfold write Instance.write
  simp only [hi, hv]
  rfl

end

variable {H W : Type} {g : Engine Surface H W} {id name : String} {value : Scalar} {p : Pass Surface}
  {e : String × List Dependency}

/-- **A missing entry is inert and reported once.**  Taking it out of the table before the write is taking it out
afterwards; the two reports differ in its key, which stands in the order of the table. -/
theorem missing_entry_inert (hop : g.passOf? (.write id name value) = some p) (hmissing : p.IsMissing g.surface e)
    (heffector : Pass.BringsNone g.effector (p.key e.1)) :
    ((g.forget id name e.1).write id name value).state = (g.write id name value).state.forget id name e.1 ∧
    ∃ r pre post before after, p.dependents.entries = pre ++ e :: post ∧
      (g.write id name value).answer = .applied r ∧ r.missing = before ++ p.key e.1 :: after ∧
      ((g.forget id name e.1).write id name value).answer = .applied { r with missing := before ++ after } ∧
      (∀ m ∈ before, ∃ e' ∈ pre, m = p.key e'.1) ∧ ∀ m ∈ after, ∃ e' ∈ post, m = p.key e'.1 := by
  rw [passOf?_write] at hop
  obtain ⟨i, hi, hop⟩ := Option.bind_eq_some_iff.1 hop
  obtain ⟨v, hv, rfl⟩ := Option.map_eq_some_iff.1 hop
  obtain ⟨halike, pre, post, before, after, hes, hbefore, hafter, hkeys⟩ := hmissing.run heffector
  have hforget := forget_eq hi hv e.1
  have hi' : (g.forget id name e.1).instance? id =
      some { i with store := i.store.insert name { v with dependents := v.dependents.erase e.1 } } := by
    rw [hforget]
    exact Table.get?_insert_self _ _ _
  have hv' : (i.store.insert name { v with dependents := v.dependents.erase e.1 }).get? name =
      some { v with dependents := v.dependents.erase e.1 } := Table.get?_insert_self _ _ _
  have hrun : ((g.forget id name e.1).passFor id { v with dependents := v.dependents.erase e.1 } value).run
      (g.forget id name e.1).surface = ((g.passFor id v value).without e.1).run g.surface := by
    rw [hforget]
    rfl
  change Pass.Alike e.1 ((g.passFor id v value).run g.surface) (((g.passFor id v value).without e.1).run g.surface)
    at halike
  change (((g.passFor id v value).without e.1).run g.surface).missing = before ++ after at hafter
  have hplacing : (g.forget id name e.1).placingFor id
      { i with store := i.store.insert name { v with dependents := v.dependents.erase e.1 } }
      { v with dependents := v.dependents.erase e.1 } value = g.placingFor id i v value := by
    unfold placingFor
    rw [hrun, halike.surface]
  constructor
  · have hafter' : (g.write id name value).state.instance? id = some
        { store := i.store.insert name
            { value := value.render, dependents := ((g.passFor id v value).run g.surface).table }
          externals := (g.placingFor id i v value).children } := by
      rw [state_write hi hv]
      exact Table.get?_insert_self _ _ _
    rw [forget_eq hafter' (Table.get?_insert_self _ _ _), state_write hi' hv', hrun, hplacing, halike.table,
      state_write hi hv, hforget]
    simp only [Table.insert_insert]
  · refine ⟨_, pre, post, before, after, hes, answer_write hi hv value, hbefore, ?_, hkeys⟩
    rw [answer_write hi' hv', hrun, hplacing, halike.detached, halike.materialized, hafter]

/-- A list with an old item and a note. -/
def draftPage : List Markup :=
  [{ tag := "div", id := "root:main"
     children :=
      [{ tag := "li", id := "list,0:new:main" }, { tag := "li", id := "list:dummy:main", text := "$loop$" },
       { tag := "p", id := "note:main" }] }]

/-- The note, which is there, between two nodes that are not; the second one is to be hidden before it is written. -/
def draftTable : DependencyTable :=
  .ofList [("ghost", [.visible .isNull]), ("list,0:new", []), ("list:dummy", [.value]), ("note", [.value]),
    ("shade", [.visible .isNull, .value]), ("gone", [.value])]

def draft : Engine Surface Empty Unit :=
  (mounted draftPage {} ∅ ()).perform (.start "main" { store := .ofList [("x", { dependents := draftTable })] })

def draftPass : Pass Surface where
  effector := inlineStyles
  options := {}
  instanceId := "main"
  value := "new"
  dependents := draftTable

theorem missing_entry_inert_draft : draft.passOf? (.write "main" "x" (.text "new")) = some draftPass ∧
    draftPass.IsMissing draft.surface ("shade", [.visible .isNull, .value]) ∧
    Pass.BringsNone draft.effector ⟨"shade", "main"⟩ ∧
    ((draft.forget "main" "x" "shade").write "main" "x" (.text "new")).state =
      (draft.write "main" "x" (.text "new")).state.forget "main" "x" "shade" ∧
    ∃ r, (draft.write "main" "x" (.text "new")).answer = .applied r ∧
      r.missing = [⟨"ghost", "main"⟩, ⟨"shade", "main"⟩, ⟨"gone", "main"⟩] := by
  have hmissing : draftPass.IsMissing draft.surface ("shade", [.visible .isNull, .value]) :=
    ⟨List.mem_of_getElem? (i := 4) rfl, by decide +kernel, by decide +kernel, nofun, by decide +kernel⟩
  have heffector : Pass.BringsNone draft.effector ⟨"shade", "main"⟩ := Pass.bringsNone_inlineStyles _
  have hop : draft.passOf? (.write "main" "x" (.text "new")) = some draftPass := rfl
  obtain ⟨hstate, r, -, -, -, -, -, hr, -⟩ := missing_entry_inert hop hmissing heffector
  refine ⟨hop, hmissing, heffector, hstate, r, hr, ?_⟩
  have hanswer : (draft.write "main" "x" (.text "new")).answer.report?.map (·.missing) =
      some [⟨"ghost", "main"⟩, ⟨"shade", "main"⟩, ⟨"gone", "main"⟩] := by decide +kernel
  rw [hr] at hanswer
  exact Option.some.inj hanswer

end BoundPage.Engine
