import BoundPage.Proofs.Engine.Footprint
import BoundPage.Proofs.Engine.Idle
import BoundPage.Proofs.Engine.Repeated
import BoundPage.Proofs.Write.ItemStyles
/-!
# What list items look like

The items that a write makes look as their template did when its list was rebuilt (`items_look_as_template`).  So they
have what the style dependencies before the value declare.  What those behind it declare they do not have, though the
table has these dependencies for the items, too; and what they have may go when a node beside them is shown or hidden
(`not_stylesItems`).
-/
namespace BoundPage
open RenderTarget

namespace Engine
open Pass

variable {H W : Type} {g : Engine Surface H W} {id name : String} {value : Scalar} {p : Pass Surface}
  {e : String × List Dependency} {left : List Dependency} {st : State Surface} {template parent item : Slot}

def dependents? (g : Engine Surface H W) (id name : String) : Option DependencyTable :=
  ((g.instance? id).bind fun i => i.store.get? name).map (·.dependents)

theorem dependents?_write (hop : g.passOf? (.write id name value) = some p) :
    (g.perform (.write id name value)).dependents? id name = some (p.run g.surface).table := by
  rw [passOf?_write] at hop
  obtain ⟨i, hi, hop⟩ := Option.bind_eq_some_iff.1 hop
  obtain ⟨v, hv, rfl⟩ := Option.map_eq_some_iff.1 hop
  show (g.write id name value).state.dependents? id name = _
  rw [state_write hi hv]
  unfold dependents? instance?
  rw [Table.get?_insert_self, Option.bind_some, Table.get?_insert_self]
  rfl

/-- The element that a node stands for after a write has these dependencies in the table. -/
def Declares (g : Engine Surface H W) (id name : String) (item : Slot) (ds : List Dependency) : Prop :=
  ∃ element table, (g.surface.node item).id = some (NodeKey.text ⟨element, id⟩) ∧
    g.dependents? id name = some table ∧ table.get? element = some ds

/-- **The items of a list look as their template**: an item that a write makes and that lasts has the dependencies of
the template in the table.  Its styles are those that the template had when the item was made, but for the display, and
for the property that it is spaced by if a node beside it is shown or hidden afterwards.  So it has what a style
dependency before the value declares. -/
theorem items_look_as_template {starts : String → Instance → Prop} {page : List Markup} {options : Options}
    {handlers : Handlers H} {host : W} (hrun : Runs starts (mounted page options handlers host) g)
    (hop : g.passOf? (.write id name value) = some p) (hplain : PlainStyles e.2)
    (hitem : p.Makes g.surface e left st template parent item) (hlasts : p.Lasts g.surface e left item) :
    (g.perform (.write id name value)).Declares id name item e.2 ∧
    (∀ property, property ≠ "display" → ¬ p.Respaces g.surface e left parent property →
      (g.perform (.write id name value)).surface.looks item property = st.surface.looks template property) ∧
    ∀ before condition parameters mid property style,
      e.2 = before ++ .style condition parameters :: (mid ++ .value :: left) →
      parameters.get? property = some style →
      p.Anchored g.surface e (.style condition parameters :: (mid ++ .value :: left)) (.value :: left) template →
      ¬ p.Respaces g.surface e (.style condition parameters :: (mid ++ .value :: left)) parent property →
      (g.perform (.write id name value)).surface.looks item property = p.declared? condition style := by
  obtain ⟨ops, -, hpage⟩ := hrun
  have hs : g.surface.Linked := by
    rw [← hpage.surface]
    exact linked_after rfl (Surface.forest_ofMarkup page).toLinked ops
  have hp : p.effector = inlineStyles := by
    rw [effector_passOf? hop, ← hpage.effector, effector_after]
    rfl
  have hid : p.instanceId = id := by
    obtain ⟨_, _, _, _, hop', -⟩ := passOf?_eq_some hop
    exact (Operation.write.inj hop').1.symm
  have hown := (own_perform hop).2 item
  have hlooks := Surface.looks_of_own hown
  obtain ⟨⟨element, hitemId, hmem⟩, hstyles⟩ := hitem.at_end hp hs hlasts
  refine ⟨⟨element, _, ?_, dependents?_write hop, Table.get?_eq_some.2 hmem⟩, fun property hproperty hspacing => ?_,
    fun before condition parameters mid property style hds hget hanchored hspacing => ?_⟩
  · rw [Node.id_eq hown, hitemId, Pass.key, hid]
  · rw [hlooks]
    exact hstyles property hproperty hspacing
  · have hdisplay := (hplain.plain _ (hds ▸ List.mem_append_right _ List.mem_cons_self) property
      (mem_parameters_of_get? hget)).2
    have hbehind : ¬ p.Respaces g.surface e left parent property := fun h => hspacing
      (h.of_suffix ⟨.style condition parameters :: (mid ++ [.value]), by simp⟩ ⟨before, hds.symm⟩)
    rw [hlooks, hstyles property hdisplay hbehind]
    exact hplain.looks_template hp hs hds hitem.reached hitem.attached hanchored hget hspacing

/-- Every item has on it what the style dependencies of its template declare, wherever they stand. -/
def StylesItems (g : Engine Surface H W) : Prop :=
  ∀ {id name : String} {value : Scalar} {p e left st template parent item},
    g.passOf? (.write id name value) = some p → PlainStyles e.2 →
    p.Makes g.surface e left st template parent item → p.Lasts g.surface e left item →
    ∀ condition parameters property style, .style condition parameters ∈ e.2 → parameters.get? property = some style →
      (g.perform (.write id name value)).surface.looks item property = p.declared? condition style

/-! ## A list with one style -/

/-- A parameter that one value gives another text than its default. -/
def accent (parameter text fallback : String) : Table StyleParameter :=
  .ofList [(parameter, { value := { text }, fallback := some { text := fallback } })]

theorem plainStyles_accent (parameter text fallback : String) {ds : List Dependency} (hplain : Act.IsPlain parameter)
    (hdisplay : parameter ≠ "display")
    (h : ∀ condition parameters, .style condition parameters ∈ ds → parameters = accent parameter text fallback)
    (once : ds.Pairwise fun d d' => ∀ parameter ∈ d.parameters, parameter ∉ d'.parameters) : PlainStyles ds where
  plain d hd x hx := by
    cases d with
    | style condition parameters =>
      rw [h condition parameters hd] at hx
      obtain rfl := List.mem_singleton.1 hx
      exact ⟨hplain, hdisplay⟩
    | _ => cases hx
  once := once
  fallback condition parameters hmem x style hget := by
    rw [h condition parameters hmem] at hget
    obtain ⟨rfl, rfl⟩ := Prod.mk.inj (List.mem_singleton.1 (Table.get?_eq_some.1 hget))
    rfl

def rowPage : List Markup := spacedRow "margin-left: 4px" ["heading", "list:dummy"]

def listed (ds : List Dependency) (rest : List (String × List Dependency)) : Engine Surface Empty Unit :=
  bound rowPage (("list:dummy", ds) :: rest) ∅

def listing (ds : List Dependency) (rest : List (String × List Dependency)) : Pass Surface where
  effector := inlineStyles
  options := {}
  instanceId := "main"
  value := "1"
  dependents := .ofList (("list:dummy", ds) :: rest)

variable {ds : List Dependency} {rest : List (String × List Dependency)}

theorem passOf?_listed : (listed ds rest).passOf? (.write "main" "x" (.text "1")) = some (listing ds rest) := rfl

theorem runs_listed : Runs (fun _ _ => True) (mounted rowPage {} (∅ : Handlers Empty) ()) (listed ds rest) :=
  ⟨[_], fun _ _ _ => trivial, .refl _⟩

/-- The list when some of its dependencies have been carried out. -/
def listedAfter (ds : List Dependency) (rest : List (String × List Dependency)) (before : List Dependency) :
    State Surface :=
  (listing ds rest).applyEach ((listing ds rest).key "list:dummy") ds before
    ((listing ds rest).begin (listed ds rest).surface)

theorem at_listed (ds : List Dependency) (rest : List (String × List Dependency)) (before : List Dependency)
    (hentries : (listing ds rest).dependents.entries = ("list:dummy", ds) :: rest) (hds : ds = before ++ left) :
    (listing ds rest).At (listed ds rest).surface ("list:dummy", ds) left (listedAfter ds rest before) :=
  ⟨[], rest, before, hentries, rfl, hds, rfl⟩

/-- The template is the third node, below the first one, and the item is the fourth. -/
theorem makes_listed (before : List Dependency)
    (hentries : (listing ds rest).dependents.entries = ("list:dummy", ds) :: rest) (hds : ds = before ++ .value :: left)
    (hl : locate (listedAfter ds rest before).surface ((listing ds rest).key "list:dummy") = some 2)
    (hparent : ((listedAfter ds rest before).surface.node 2).parent = some 0)
    (howned : (listing ds rest).ownedByTemplate "list:dummy" = false)
    (hmade : let st := listedAfter ds rest before
      let list := (listing ds rest).key "list:dummy"
      let made := ((listing ds rest).refilled list st.table st.surface 2 (ListRegion.items "1")).1
      (((listing ds rest).cleared list st.table st.surface).node 3).live = false ∧
        (made.node 3).live ∧ (made.node 3).parent = some 0) :
    (listing ds rest).Makes (listed ds rest).surface ("list:dummy", ds) left (listedAfter ds rest before) 2 0 3 where
  reached := at_listed ds rest before hentries hds
  rebuilds := ⟨howned, (by decide : Element.isTemplate "list:dummy"), hl, Option.isSome_of_eq_some hparent⟩
  attached := hparent
  fresh := hmade.1
  live := hmade.2.1
  under := hmade.2.2

/-- What comes behind a stage of the list is left there, or belongs to the rest. -/
theorem mem_left_of_listed (hentries : (listing ds rest).dependents.entries = ("list:dummy", ds) :: rest)
    {behind : List Dependency} {e : String × List Dependency} {d : Dependency} {left : List Dependency}
    {st : State Surface}
    (h : (listing ds rest).Since (listed ds rest).surface ("list:dummy", ds) behind e (d :: left) st) :
    d ∈ behind ∨ ∃ e ∈ rest, d ∈ e.2 := by
  refine h.mem_left.imp id fun hne => ⟨e, ?_, h.reached.mem_left⟩
  have hmem := h.reached.mem
  rw [hentries] at hmem
  exact (List.mem_cons.1 hmem).resolve_left hne

def styledFirst : List Dependency := [.style (some "1") (accent "color" "red" "black"), .value]

/-- The item of a red template is red. -/
theorem items_look_as_template_red :
    ((listed styledFirst []).perform (.write "main" "x" (.text "1"))).surface.looks 3 "color" =
      some { value := "red" } := by
  have hplain : PlainStyles styledFirst := plainStyles_accent "color" "red" "black" (fun _ _ => rfl) (by decide)
    (by simp [styledFirst]) (by decide)
  have hlasts : (listing styledFirst []).Lasts (listed styledFirst []).surface ("list:dummy", styledFirst) [] 3 :=
    fun e d left st st' h => absurd (mem_left_of_listed rfl h) (by simp)
  refine (items_look_as_template runs_listed passOf?_listed hplain (makes_listed [_] rfl rfl (by decide +kernel)
    (by decide +kernel) (by decide +kernel) (by decide +kernel)) hlasts).2.2 [] _ _ [] "color"
    { value := { text := "red" }, fallback := some { text := "black" } } rfl rfl ?_ ?_
  · exact anchored_of_valueless rfl [_] (by simp) (at_listed _ _ [] rfl rfl) (by decide +kernel)
  · rintro ⟨e, condition, left, st, m, h, -⟩
    exact absurd (mem_left_of_listed rfl h) (by simp)

def styledLast : List Dependency := [.value, .style (some "1") (accent "color" "red" "black")]

def styledMargin : List Dependency := [.style (some "1") (accent "margin-left" "9px" "0px"), .value]

def headingShown : List (String × List Dependency) := [("heading", [.visible .isNotNull])]

/-- **What the table declares for an item may not be on it**: a style behind the value is for the template only, and a
margin goes when the row of the item is spaced anew. -/
theorem not_stylesItems : ¬ (listed styledLast []).StylesItems ∧ ¬ (listed styledMargin headingShown).StylesItems := by
  constructor
  · intro h
    have hplain : PlainStyles styledLast := plainStyles_accent "color" "red" "black" (fun _ _ => rfl) (by decide)
      (by simp [styledLast]) (by decide)
    have hlasts := lasts_of_valueless (n := 3) rfl (at_listed styledLast [] [.value] rfl rfl) (by decide +kernel)
      fun e d left st hst hd => absurd (mem_left_of_listed rfl (hd ▸ hst)) (by simp)
    have hred := h passOf?_listed hplain (makes_listed [] rfl rfl (by decide +kernel) (by decide +kernel)
      (by decide +kernel) (by decide +kernel)) hlasts _ _ "color"
      { value := { text := "red" }, fallback := some { text := "black" } }
        (List.mem_cons_of_mem _ List.mem_cons_self) rfl
    exact absurd hred (by decide +kernel)
  · intro h
    have hplain : PlainStyles styledMargin := plainStyles_accent "margin-left" "9px" "0px" (fun _ _ => rfl) (by decide)
      (by simp [styledMargin]) (by decide)
    have hlasts := lasts_of_valueless (n := 3) rfl (at_listed styledMargin headingShown [_, .value] rfl rfl)
      (by decide +kernel)
      fun e d left st hst hd => absurd (mem_left_of_listed rfl (hd ▸ hst)) (by simp [headingShown])
    have hmargin := h passOf?_listed hplain (makes_listed [_] rfl rfl (by decide +kernel) (by decide +kernel)
      (by decide +kernel) (by decide +kernel)) hlasts _ _ "margin-left"
      { value := { text := "9px" }, fallback := some { text := "0px" } } List.mem_cons_self rfl
    exact absurd hmargin (by decide +kernel)

end Engine
end BoundPage
