import BoundPage.Proofs.Engine.Forests
/-!
# When list items get fresh data-ids

The old items that a rebuilt list destroys are those that one variable's table names.  So an item is made with the
data-id of a node that is still there exactly if such a node is not destroyed with them (`fresh_iff_clears`); with two
variables for one list this happens.
-/
namespace BoundPage
open RenderTarget

/-- The page when the item with an index is about to be made. -/
def Pass.pageBefore (p : Pass Surface) (k : NodeKey) (table : DependencyTable) (s : Surface) (template i : Nat) :
    Surface :=
  (p.refilled k table s template ((ListRegion.items p.value).take i)).1

/-- **The data-id of an item is free when the item's turn comes exactly if every node that has it goes with the old
items.** -/
theorem Pass.locate_pageBefore_iff {p : Pass Surface} {k : NodeKey} {table : DependencyTable} {s : Surface}
    {template i : Nat} {key : NodeKey} (hs : s.Linked) (hk : k.isTemplate) (hi : i < (ListRegion.items p.value).length)
    (hkey : k.item? i = some key) :
    (p.pageBefore k table s template i).locate key = none ↔
      ∀ m, (s.node m).live → (s.node m).id = some key.text → ListRegion.Doomed s (p.staleKeys k table) m := by
  have hlen : ((ListRegion.items p.value).take i).length = i := by
    rw [List.length_take]
    omega
  have hlinked : (p.cleared k table s).Linked := ListRegion.linked_destroyAll hs _
  have hlive : ∀ m, ((p.cleared k table s).node m).live ↔
      (s.node m).live ∧ ¬ ListRegion.Doomed s (p.staleKeys k table) m := ListRegion.live_destroyAll_iff _ hs
  have hid : ∀ m, ((p.cleared k table s).node m).live → ((p.cleared k table s).node m).id = (s.node m).id :=
    fun m hm => Node.id_eq (ListRegion.own_destroyAll (p.staleKeys k table) hm).2.1
  unfold pageBefore refilled
  rw [ListRegion.locate_makeItems_iff hk hlinked _ (by rw [hlen]; exact hkey)]
  constructor
  · intro h m hm hmid
    by_contra hd
    have hl := (hlive m).2 ⟨hm, hd⟩
    exact h m hl ((hid m hl).trans hmid)
  · intro h m hm hmid
    obtain ⟨hl, hd⟩ := (hlive m).1 hm
    exact hd (h m hl ((hid m hm).symm.trans hmid))

namespace Engine

variable {H W : Type} {g : Engine Surface H W}

/-- **No item is made with the data-id of a live node.** -/
def MakesFresh (g : Engine Surface H W) (op : Operation) : Prop :=
  ∀ p, g.passOf? op = some p → ∀ e left st template i key, p.At g.surface e (.value :: left) st →
    p.Rebuilds (p.key e.1) st.surface template → i < (ListRegion.items p.value).length →
    (p.key e.1).item? i = some key → (p.pageBefore (p.key e.1) st.table st.surface template i).locate key = none

/-- **Every live node with the data-id of an item to come goes with the old items**, which are those that the table of
the written variable names. -/
def Clears (g : Engine Surface H W) (op : Operation) : Prop :=
  ∀ p, g.passOf? op = some p → ∀ e left st template i key, p.At g.surface e (.value :: left) st →
    p.Rebuilds (p.key e.1) st.surface template → i < (ListRegion.items p.value).length →
    (p.key e.1).item? i = some key → ∀ m, (st.surface.node m).live → (st.surface.node m).id = some key.text →
      ListRegion.Doomed st.surface (p.staleKeys (p.key e.1) st.table) m

theorem makesFresh_iff_clears (he : g.effector = inlineStyles) (hs : g.surface.Linked) (op : Operation) :
    g.MakesFresh op ↔ g.Clears op := by
  have hlinked : ∀ p, g.passOf? op = some p → ∀ e left st, p.At g.surface e left st → st.surface.Linked :=
    fun p hp e left st hst => linked_goesThrough he hs (.stage hp hst)
  constructor
  · intro h p hp e left st template i key hst hr hi hkey
    exact (Pass.locate_pageBefore_iff (hlinked p hp _ _ _ hst) hr.isTemplate hi hkey).1
      (h p hp e left st template i key hst hr hi hkey)
  · intro h p hp e left st template i key hst hr hi hkey
    exact (Pass.locate_pageBefore_iff (hlinked p hp _ _ _ hst) hr.isTemplate hi hkey).2
      (h p hp e left st template i key hst hr hi hkey)

/-- **In every run, the items are fresh exactly as long as the nodes with their data-ids go first**, and so in every
session, which is made up of operations. -/
theorem fresh_iff_clears (page : List Markup) (options : Options) :
    (∀ {H W : Type} (handlers : Handlers H) (host : W) (ops : List Operation),
      (mounted page options handlers host).Throughout MakesFresh ops ↔
        (mounted page options handlers host).Throughout Clears ops) ∧
    ∀ (handlers : Handlers Session.ScriptedHandler) (calls : List (String × Session.Call)),
      Session.MadeUp (Session.opened page options handlers) calls
          (Session.operations (Session.opened page options handlers) calls) ∧
        ((Session.opened page options handlers).Throughout MakesFresh
            (Session.operations (Session.opened page options handlers) calls) ↔
          (Session.opened page options handlers).Throughout Clears
            (Session.operations (Session.opened page options handlers) calls)) := by
  have hruns : ∀ {H W : Type} (handlers : Handlers H) (host : W) (ops : List Operation),
      (mounted page options handlers host).Throughout MakesFresh ops ↔
        (mounted page options handlers host).Throughout Clears ops := by
    intro H W handlers host ops
    have hs : (mounted page options handlers host).surface.Forest := Surface.forest_ofMarkup page
    have hiff : ∀ pre op, ((mounted page options handlers host).after pre).MakesFresh op ↔
        ((mounted page options handlers host).after pre).Clears op := fun pre op =>
      makesFresh_iff_clears (effector_after pre _) (linked_after rfl hs.toLinked pre) op
    exact forall_congr' fun pre => forall_congr' fun op => forall_congr' fun _ => imp_congr_right fun _ => hiff pre op
  exact ⟨hruns, fun handlers calls => ⟨Session.madeUp_operations _ calls, hruns handlers [] _⟩⟩

/-- A list and its template. -/
def listPage : List Markup :=
  [{ tag := "ul", id := "root:main", children := [{ tag := "li", id := "list:dummy:main", text := "$loop$" }] }]

/-- Two variables for one list. -/
def sharedList : Instance :=
  { store := .ofList [("x", { dependents := .ofList [("list:dummy", [.value])] }),
      ("y", { dependents := .ofList [("list:dummy", [.value])] })] }

/-- **Two variables for one list** do not know each other's items: the first item of the second is made while that of
the first is still there. -/
theorem not_fresh_shared_list :
    ¬ (mounted listPage {} (∅ : Handlers Empty) ()).Throughout MakesFresh
      [.start "main" sharedList, .write "main" "x" (.text "a"), .write "main" "y" (.text "b")] := by
  intro h
  have hy := h [.start "main" sharedList, .write "main" "x" (.text "a")] (.write "main" "y" (.text "b")) [] rfl
  let p : Pass Surface :=
    { effector := inlineStyles, options := {}, instanceId := "main", value := "b"
      dependents := .ofList [("list:dummy", [.value])] }
  have hfree := hy p rfl ("list:dummy", [.value]) [] (p.begin _) 1 0 ⟨"list,0:new", "main"⟩
    ⟨[], [], [], rfl, rfl, rfl, rfl⟩
    ⟨by decide +kernel, by decide +kernel, by decide +kernel, by decide +kernel⟩ (by decide +kernel) (by decide +kernel)
  exact absurd hfree (by decide +kernel)

end Engine
end BoundPage
