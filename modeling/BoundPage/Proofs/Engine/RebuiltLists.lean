import BoundPage.Proofs.Engine.FreshItems
/-!
# Rebuilt lists on the page

A rebuilt list reports the keys of the items that it has made.  They are on the page, beside their template, unless the
template went with the old items (`Pass.list_on_page_iff`): the slot of a removed template is copied as it is, and the
copies are removed nodes like it.
-/
namespace BoundPage
open RenderTarget

/-- The last item is made when the others have been. -/
theorem ListRegion.makeItems_append_singleton {S : Type} [RenderTarget S] {k key : NodeKey} (hk : k.isTemplate)
    (template : Nat) (placeholder item : String) : ∀ (items : List String) (i : Nat) (s : S),
    k.item? (i + items.length) = some key → (makeItems s template k placeholder i (items ++ [item])).1 =
      makeItem (makeItems s template k placeholder i items).1 template key placeholder item
  | [], i, s, hkey => by
    rw [List.nil_append, makeItems_cons (i := i) hkey]
    rfl
  | x :: items, i, s, hkey => by
    obtain ⟨first, hfirst⟩ := NodeKey.exists_item? hk i
    rw [List.cons_append, makeItems_cons hfirst, makeItems_cons hfirst]
    refine makeItems_append_singleton hk template placeholder item items (i + 1) _ ?_
    rw [← hkey, List.length_cons]
    congr 1
    omega

namespace Pass

variable {p : Pass Surface} {k : NodeKey} {st : State Surface} {table : DependencyTable}
  {s : Surface} {template : Slot}

/-- The node that is made for the item with an index. -/
def itemNode (p : Pass Surface) (k key : NodeKey) (table : DependencyTable) (s : Surface) (template i : Nat) : Slot :=
  (cloneNode (p.pageBefore k table s template i) template key).1

/-- **A list that was rebuilt is on the page**: its template is, and the reported items are children of the parent that
the template had. -/
structure ListOnPage (p : Pass Surface) (k : NodeKey) (st : State Surface) (template : Slot) (keys : List NodeKey)
    (page : Surface) : Prop where
  located : ∀ key ∈ keys, ∃ n, locate page key = some n ∧ (page.node n).live
  template_live : (page.node template).live
  /-- The nodes that were made for the items are live children. -/
  children : ∀ i < (ListRegion.items p.value).length, ∀ key, k.item? i = some key →
    ∃ above, parent st.surface template = some above ∧
      (page.node (p.itemNode k key st.table st.surface template i)).live ∧
      (page.node (p.itemNode k key st.table st.surface template i)).id = some key.text ∧
      parent page (p.itemNode k key st.table st.surface template i) = some above ∧
      page.Child above (p.itemNode k key st.table st.surface template i)

/-! ## A list is rebuilt -/

theorem pageBefore_zero : p.pageBefore k table s template 0 = p.cleared k table s := by
  unfold pageBefore
  rw [List.take_zero]
  rfl

theorem pageBefore_length : p.pageBefore k table s template (ListRegion.items p.value).length =
    (p.refilled k table s template (ListRegion.items p.value)).1 := by
  unfold pageBefore
  rw [List.take_length]

theorem pageBefore_succ (hk : k.isTemplate) {i : Nat} (hi : i < (ListRegion.items p.value).length) {key : NodeKey}
    (hkey : k.item? i = some key) : p.pageBefore k table s template (i + 1) =
      ListRegion.makeItem (p.pageBefore k table s template i) template key p.options.loopPlaceholder
        (ListRegion.items p.value)[i] := by
  unfold pageBefore refilled
  rw [List.take_succ_eq_append_getElem hi]
  refine ListRegion.makeItems_append_singleton hk _ _ _ _ 0 _ ?_
  rw [List.length_take, Nat.min_eq_left (Nat.le_of_lt hi), Nat.zero_add]
  exact hkey

/-! ## The items are made -/

/-- While items are made the template stays, and so do the items that have been made. -/
structure Made (p : Pass Surface) (k : NodeKey) (table : DependencyTable) (s : Surface) (template i : Nat)
    (page : Surface) : Prop where
  linked : page.Linked
  template_live : (page.node template).live
  template_parent : (page.node template).parent = (s.node template).parent
  item : ∀ j < i, ∀ key, k.item? j = some key → (page.node (p.itemNode k key table s template j)).live ∧
    (page.node (p.itemNode k key table s template j)).id = some key.text ∧
    (page.node (p.itemNode k key table s template j)).parent = (s.node template).parent

theorem Made.next (hk : k.isTemplate) {i : Nat} (hi : i < (ListRegion.items p.value).length)
    (h : p.Made k table s template i (p.pageBefore k table s template i)) :
    p.Made k table s template (i + 1) (p.pageBefore k table s template (i + 1)) := by
  obtain ⟨key, hkey⟩ := NodeKey.exists_item? hk i
  have hm := Surface.makesItem key p.options.loopPlaceholder (ListRegion.items p.value)[i] h.linked h.template_live
  rw [← pageBefore_succ hk hi hkey] at hm
  refine ⟨hm.linked, hm.live h.template_live, (hm.parent_eq h.template_live).trans h.template_parent,
    fun j hj key' hkey' => ?_⟩
  rcases Nat.lt_or_eq_of_le (Nat.le_of_lt_succ hj) with hj | rfl
  · obtain ⟨hlive, hid, hparent⟩ := h.item j hj key' hkey'
    exact ⟨hm.live hlive, (Node.id_eq (hm.own hlive)).trans hid, (hm.parent_eq hlive).trans hparent⟩
  · obtain rfl := Option.some.inj (hkey.symm.trans hkey')
    exact ⟨hm.live_top, hm.id_top, hm.top.trans h.template_parent⟩

theorem made_pageBefore (hk : k.isTemplate) (hs : s.Linked) (hlive : ((p.cleared k table s).node template).live) :
    ∀ i ≤ (ListRegion.items p.value).length, p.Made k table s template i (p.pageBefore k table s template i)
  | 0, _ => by
    rw [pageBefore_zero]
    exact ⟨ListRegion.linked_destroyAll hs _, hlive, (ListRegion.own_destroyAll _ hlive).2.2,
      fun j hj => absurd hj (Nat.not_lt_zero j)⟩
  | i + 1, hi => (made_pageBefore hk hs hlive i (Nat.le_of_succ_le hi)).next hk hi

/-! ## The list is on the page -/

theorem list_on_page (hs : st.surface.Linked) (hr : p.Rebuilds k st.surface template)
    (hlive : ((p.cleared k st.table st.surface).node template).live) :
    p.ListOnPage k st template (p.refilled k st.table st.surface template (ListRegion.items p.value)).2.1
      (p.refilled k st.table st.surface template (ListRegion.items p.value)).1 := by
  have hmade := made_pageBefore hr.isTemplate hs hlive _ (Nat.le_refl _)
  rw [pageBefore_length] at hmade
  refine ⟨fun key hkey => ?_, hmade.template_live, fun i hi key hkey => ?_⟩
  · have hkeys := ListRegion.keys_makeItems hr.isTemplate template p.options.loopPlaceholder
      (ListRegion.items p.value) 0 (p.cleared k st.table st.surface)
    have hmem : some key ∈ (List.range' 0 (ListRegion.items p.value).length).map k.item? :=
      hkeys ▸ List.mem_map_of_mem hkey
    obtain ⟨i, hi, hkey⟩ := List.mem_map.1 hmem
    obtain ⟨hl, hid, -⟩ := hmade.item i (by simpa using hi) key hkey
    cases hloc : (p.refilled k st.table st.surface template (ListRegion.items p.value)).1.locate key with
    | none => exact absurd hid (Surface.find?_eq_none _ |>.1 hloc _ hl)
    | some n => exact ⟨n, hloc, (ListRegion.locate_live hloc).1⟩
  · obtain ⟨hl, hid, hparent⟩ := hmade.item i hi key hkey
    obtain ⟨above, habove⟩ := Option.isSome_iff_exists.1 hr.attached
    have hitem := hparent.trans habove
    exact ⟨above, habove, hl, hid, hitem, (hmade.linked.parent hitem).2⟩

/-- **A rebuilt list is on the page exactly if its template does not go with the old items**, whatever the table names
as such. -/
theorem list_on_page_iff (hs : st.surface.Forest) (hr : p.Rebuilds k st.surface template) (ds : List Dependency) :
    ∃ st' keys, p.rebuildList k ds st = .ok st' ∧ st'.materialized = st.materialized ++ keys ∧
      keys.map some = (List.range (ListRegion.items p.value).length).map k.item? ∧
      (p.ListOnPage k st template keys st'.surface ↔
        ¬ ListRegion.Doomed st.surface (p.staleKeys k st.table) template) := by
  obtain ⟨events, hok⟩ := rebuildList_eq_ok hr.located hr.attached ds
  have hkeys := ListRegion.keys_makeItems hr.isTemplate template p.options.loopPlaceholder
    (ListRegion.items p.value) 0 (p.cleared k st.table st.surface)
  rw [← List.range_eq_range'] at hkeys
  refine ⟨_, _, hok, rfl, hkeys, ?_⟩
  have hcleared := ListRegion.live_destroyAll_iff (p.staleKeys k st.table) hs.toLinked template
  constructor
  · intro h hdoomed
    have hdead : ((p.cleared k st.table st.surface).node template).live = false :=
      Bool.eq_false_iff.2 fun hl => (hcleared.1 hl).2 hdoomed
    have hlinked : (p.cleared k st.table st.surface).Linked := ListRegion.linked_destroyAll hs.toLinked _
    exact absurd h.template_live (Bool.eq_false_iff.1 (ListRegion.dead_makeItems hr.isTemplate hlinked hdead _ 0).1)
  · intro hnot
    exact list_on_page hs.toLinked hr (hcleared.2 ⟨(ListRegion.locate_live hr.located).1, hnot⟩)

/-- The pass of a list with an old item. -/
def menuPass : Pass Surface where
  effector := inlineStyles
  options := {}
  instanceId := "main"
  value := "[\"a\", \"b\"]"
  dependents := .ofList [("list,0:new", [.value]), ("list:dummy", [.value])]

def menuPage : List Markup :=
  [{ tag := "ul", id := "root:main"
     children := [{ tag := "li", id := "list,0:new:main", text := "old" },
                  { tag := "li", id := "list:dummy:main", text := "$loop$" }] }]

theorem list_on_page_menu : (Surface.ofMarkup menuPage).Forest ∧
    menuPass.Rebuilds ⟨"list:dummy", "main"⟩ (Surface.ofMarkup menuPage) 2 ∧
    ∃ st' keys, menuPass.rebuildList ⟨"list:dummy", "main"⟩ [.value] (menuPass.begin (Surface.ofMarkup menuPage)) =
        .ok st' ∧ st'.materialized = keys ∧ keys.length = 2 ∧
      menuPass.ListOnPage ⟨"list:dummy", "main"⟩ (menuPass.begin (Surface.ofMarkup menuPage)) 2 keys st'.surface := by
  have hs : (menuPass.begin (Surface.ofMarkup menuPage)).surface.Forest := Surface.forest_ofMarkup menuPage
  have hr : menuPass.Rebuilds ⟨"list:dummy", "main"⟩ (menuPass.begin (Surface.ofMarkup menuPage)).surface 2 :=
    ⟨by decide +kernel, by decide +kernel, by decide +kernel, by decide +kernel⟩
  obtain ⟨st', keys, hok, hkeys, hmade, hiff⟩ := list_on_page_iff hs hr [.value]
  have hstays : ((menuPass.cleared ⟨"list:dummy", "main"⟩ menuPass.dependents
      (Surface.ofMarkup menuPage)).node 2).live := by
    decide +kernel
  refine ⟨hs, hr, st', keys, hok, hkeys, ?_, hiff.2 ((ListRegion.live_destroyAll_iff _ hs.toLinked 2).1 hstays).2⟩
  have hlen := congrArg List.length hmade
  rw [List.length_map, List.length_map, List.length_range] at hlen
  exact hlen.trans (by decide +kernel)

/-- The pass of a list whose template is inside its old item. -/
def swallowingPass : Pass Surface where
  effector := inlineStyles
  options := {}
  instanceId := "main"
  value := "a"
  dependents := .ofList [("list,0:new", []), ("list:dummy", [.value])]

/-- **A list with its template inside an old item reports an item that is nowhere on the page**; its template is gone,
too. -/
theorem not_on_page_swallowing : (Surface.ofMarkup Engine.swallowingPage).Forest ∧
    swallowingPass.Rebuilds ⟨"list:dummy", "main"⟩ (Surface.ofMarkup Engine.swallowingPage) 2 ∧
    ∃ st', swallowingPass.rebuildList ⟨"list:dummy", "main"⟩ [.value]
        (swallowingPass.begin (Surface.ofMarkup Engine.swallowingPage)) = .ok st' ∧
      st'.materialized = [⟨"list,0:new", "main"⟩] ∧ locate st'.surface ⟨"list,0:new", "main"⟩ = none ∧
      (st'.surface.node 2).live = false := by
  have hr : swallowingPass.Rebuilds ⟨"list:dummy", "main"⟩
      (swallowingPass.begin (Surface.ofMarkup Engine.swallowingPage)).surface 2 :=
    ⟨by decide +kernel, by decide +kernel, by decide +kernel, by decide +kernel⟩
  obtain ⟨events, hok⟩ := rebuildList_eq_ok hr.located hr.attached [.value]
  refine ⟨Surface.forest_ofMarkup _, hr, _, hok, ?_⟩
  dsimp only
  decide +kernel

end Pass
end BoundPage
