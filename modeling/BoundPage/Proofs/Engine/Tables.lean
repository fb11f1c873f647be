import BoundPage.Proofs.Engine.Footprint
import BoundPage.Proofs.Write.Relisting
/-!
# The table of a variable after a write

A write leaves the table that its pass has made of the old one: the lists that it rebuilt have their new items in it, and
everything else is as it was (`write_relists`).
-/
namespace BoundPage.Engine

variable {S H W : Type} {g : Engine S H W} {id name : String} {value : Scalar} {p : Pass S}

/-- A variable of a running instance. -/
def stored? (g : Engine S H W) (id name : String) : Option Variable :=
  (g.instance? id).bind fun i => i.store.get? name

variable [RenderTarget S]

/-- **A write stores the value and the table of its pass.** -/
theorem stored?_write (hop : g.passOf? (.write id name value) = some p) :
    (g.perform (.write id name value)).stored? id name =
      some { value := p.value, dependents := (p.run g.surface).table } := by
  rw [passOf?_write] at hop
  obtain ⟨i, hi, hop⟩ := Option.bind_eq_some_iff.1 hop
  obtain ⟨v, hv, rfl⟩ := Option.map_eq_some_iff.1 hop
  show (g.write id name value).state.stored? id name = _
  rw [state_write hi hv]
  unfold stored? instance?
  rw [Table.get?_insert_self, Option.bind_some, Table.get?_insert_self]
  rfl

/-- **A write puts the items of its value into the table**, before the template of every list that it rebuilds, in the
place of the old items; all else in the table stays.  Writing the same value once more changes nothing, as long as no
other list is rebuilt. -/
theorem write_relists (hop : g.passOf? (.write id name value) = some p) :
    ∃ rebuilt table, (g.perform (.write id name value)).stored? id name =
        some { value := p.value, dependents := table } ∧
      p.Relists g.surface rebuilt table ∧
      ∀ (g' : Engine S H W) value' p', g'.passOf? (.write id name value') = some p' → p'.value = p.value →
        p'.dependents = table → (∀ t, p'.RebuildsList g'.surface t → t ∈ rebuilt) →
        (g'.perform (.write id name value')).stored? id name = some { value := p.value, dependents := table } := by
  obtain ⟨rebuilt, h⟩ := Pass.relists_run p g.surface
  refine ⟨rebuilt, _, stored?_write hop, h, fun g' value' p' hop' hvalue htable hmem => ?_⟩
  rw [stored?_write hop', hvalue, h.again hvalue htable hmem]

/-- Two lists with old items beside and behind their templates, and a third one that is nowhere on the page. -/
def listsPage : List Markup :=
  [{ tag := "ul", id := "root:main"
     children :=
      [{ tag := "li", id := "b:dummy:main", text := "$loop$" }, { tag := "li", id := "a:dummy:main", text := "$loop$" },
       { tag := "li", id := "a,007:new:main" }, { tag := "li", id := "b,3:new:main" }] }]

def listsTable : DependencyTable :=
  .ofList [("b,3:new", []), ("a:dummy", [.value]), ("note", []), ("a,007:new", []), ("c,0:new", []),
    ("b:dummy", [.value]), ("c:dummy", [.value])]

def lists : Engine Surface Empty Unit :=
  (mounted listsPage {} ∅ ()).perform (.start "main" { store := .ofList [("x", { dependents := listsTable })] })

/-- The pass of a write of two items. -/
def listsPass : Pass Surface where
  effector := inlineStyles
  options := {}
  instanceId := "main"
  value := "[\"p\", \"q\"]"
  dependents := listsTable

theorem relists_lists : lists.passOf? (.write "main" "x" (.text "[\"p\", \"q\"]")) = some listsPass ∧
    ∃ rebuilt table, (lists.perform (.write "main" "x" (.text "[\"p\", \"q\"]"))).stored? "main" "x" =
        some { value := listsPass.value, dependents := table } ∧
      listsPass.Relists lists.surface rebuilt table ∧
      table.names = ["a,0:new", "a,1:new", "a:dummy", "note", "c,0:new", "b,0:new", "b,1:new", "b:dummy", "c:dummy"] := by
  have hop : lists.passOf? (.write "main" "x" (.text "[\"p\", \"q\"]")) = some listsPass := rfl
  obtain ⟨rebuilt, table, hstored, hrelists, -⟩ := write_relists hop
  refine ⟨hop, rebuilt, table, hstored, hrelists, ?_⟩
  have hnames : ((lists.perform (.write "main" "x" (.text "[\"p\", \"q\"]"))).stored? "main" "x").map
      (·.dependents.names) =
        some ["a,0:new", "a,1:new", "a:dummy", "note", "c,0:new", "b,0:new", "b,1:new", "b:dummy", "c:dummy"] := by
    decide +kernel
  rw [hstored] at hnames
  exact Option.some.inj hnames

/-- The same value once more. -/
example : ((lists.after (List.replicate 2 (.write "main" "x" (.text "[\"p\", \"q\"]")))).stored? "main" "x").map
    (·.dependents.names) =
      some ["a,0:new", "a,1:new", "a:dummy", "note", "c,0:new", "b,0:new", "b,1:new", "b:dummy", "c:dummy"] := by
  decide +kernel

end BoundPage.Engine
