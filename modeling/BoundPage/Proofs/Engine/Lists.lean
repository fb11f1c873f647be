import BoundPage.Proofs.Engine.Idle
import BoundPage.Proofs.Write.Lists
/-!
# When a list shows what is stored

A list that belongs to one variable is filled with the value of that variable by every write of it, and is left as it
stands by the writes of the other variables of its instance (`fills_list_of_written`).
-/
namespace BoundPage
open RenderTarget

/-! ## The variable of a list -/

namespace Instance

/-- The value of a variable is written to an element. -/
def Binds (i : Instance) (element : String) : Prop :=
  ∃ name v ds, i.store.get? name = some v ∧ (element, ds) ∈ v.dependents.entries ∧ .value ∈ ds

/-- **A list belongs to a variable of an instance.**  The table of the variable names its template and no other one, and
the value is among what the template depends on; no other table names the template or an item of it.  The values of
variables are written to templates, to items and to certain elements only, and no external child is pending. -/
structure OwnsList (list : NodeKey) (x : String) (bound : String → Prop) (i : Instance) : Prop where
  found : ∃ v ds, i.store.get? x = some v ∧ (list.element, ds) ∈ v.dependents.entries ∧ .value ∈ ds
  only : ∀ {v e}, i.store.get? x = some v → e ∈ v.dependents.names → Element.isTemplate e → e = list.element
  others : ∀ {name v e}, name ≠ x → i.store.get? name = some v → e ∈ v.dependents.names →
    e ≠ list.element ∧ Element.isItemOf e list.element = false
  bound : ∀ {e}, i.Binds e → Element.isTemplate e ∨ Element.isItem e ∨ bound e
  placed : i.externals.pending = []

variable {list : NodeKey} {x name : String} {bound : String → Prop} {i j : Instance} {p : Pass Surface} {s : Surface}
  {old : Variable}

theorem OwnsList.written (h : i.OwnsList list x bound) (hlist : list.isTemplate) (hold : i.store.get? name = some old)
    (hdep : p.dependents = old.dependents)
    (hstore : j.store = i.store.insert name { value := p.value, dependents := (p.run s).table })
    (hext : j.externals = i.externals) : j.OwnsList list x bound := by
  have hself : j.store.get? name = some { value := p.value, dependents := (p.run s).table } := by
    rw [hstore, Table.get?_insert_self]
  have hother : ∀ {m}, m ≠ name → j.store.get? m = i.store.get? m := fun hm => by
    rw [hstore, Table.get?_insert_of_ne _ _ hm]
  have htable : ∀ e ∈ (p.run s).table.entries, e ∈ old.dependents.entries ∨
      ∃ t ∈ old.dependents.names, Element.isItemOf e.1 t := by
    rw [← hdep]
    exact (p.run_table s).1
  exact {
    found := by
      obtain ⟨v, ds, hv, hmem, hval⟩ := h.found
      by_cases hx : x = name
      · subst hx
        obtain rfl := Option.some.inj (hv.symm.trans hold)
        rw [← hdep] at hmem
        exact ⟨_, ds, hself, (p.run_table s).2 _ hmem (Element.isItem_of_isTemplate hlist), hval⟩
      · exact ⟨v, ds, (hother hx).trans hv, hmem, hval⟩
    only := fun {v e} hv he ht => by
      by_cases hx : x = name
      · subst hx
        obtain rfl := Option.some.inj (hself.symm.trans hv)
        obtain ⟨ds, he⟩ := Table.mem_names.1 he
        rcases htable _ he with he | ⟨t, -, hi⟩
        · exact h.only hold (List.mem_map_of_mem he) ht
        · exact absurd (Element.isItem_of_isItemOf hi) (Element.not_isItem_of_isTemplate ht)
      · exact h.only ((hother hx).symm.trans hv) he ht
    others := fun {m v e} hm hv he => by
      by_cases hx : m = name
      · subst hx
        obtain rfl := Option.some.inj (hself.symm.trans hv)
        obtain ⟨ds, he⟩ := Table.mem_names.1 he
        rcases htable _ he with he | ⟨t, ht, hi⟩
        · exact h.others hm hold (List.mem_map_of_mem he)
        · constructor
          · rintro rfl
            exact Element.not_isItem_of_isTemplate hlist (Element.isItem_of_isItemOf hi)
          · by_contra hl
            exact (h.others hm hold ht).1 (Element.template_unique hi (eq_true_of_ne_false hl))
      · exact h.others hm ((hother hx).symm.trans hv) he
    bound := fun {e} ⟨m, v, ds, hv, he, hval⟩ => by
      by_cases hx : m = name
      · subst hx
        obtain rfl := Option.some.inj (hself.symm.trans hv)
        rcases htable _ he with he | ⟨t, -, hi⟩
        · exact h.bound ⟨m, old, ds, hold, he, hval⟩
        · exact .inr (.inl (Element.isItem_of_isItemOf hi))
      · exact h.bound ⟨m, v, ds, (hother hx).symm.trans hv, he, hval⟩
    placed := by rw [hext]; exact h.placed }

end Instance

/-! ## One write -/

namespace Engine

variable {H W : Type} {list : NodeKey} {template parent : Slot} {bound : String → Prop} {texts : List String}
  {x : String} {g : Engine Surface H W}

/-- **A page holds a list**, which belongs to a variable of a running instance, and the variable knows its items. -/
structure HoldsList (list : NodeKey) (template parent : Slot) (bound : String → Prop) (texts : List String) (x : String)
    (g : Engine Surface H W) : Prop where
  effector : g.effector = inlineStyles
  hasList : g.surface.HasList list template parent bound texts
  owned : ∃ i, g.instance? list.instanceId = some i ∧ i.OwnsList list x bound ∧
    ∀ v, i.store.get? x = some v → g.surface.ItemsIn list v.dependents.names

/-- **A list is filled with the value of its variable**, and the table of the variable names its items and no other
ones. -/
def FillsList (list : NodeKey) (parent : Slot) (texts : List String) (x : String) (g : Engine Surface H W) : Prop :=
  ∃ i v, g.instance? list.instanceId = some i ∧ i.store.get? x = some v ∧
    g.surface.Filled list parent texts g.options.loopPlaceholder v.value v.dependents.names

theorem perform_write {id name : String} {i : Instance} {old : Variable} (value : Scalar)
    (hi : g.instance? id = some i) (hold : i.store.get? name = some old) (hplaced : i.externals.pending = []) :
    ∃ p : Pass Surface, p = ⟨g.effector, g.options, id, value.render, old.dependents⟩ ∧
      g.perform (.write id name value) =
        { g with
          surface := (p.run g.surface).surface
          instances := g.instances.insert id
            { store := i.store.insert name { value := p.value, dependents := (p.run g.surface).table }
              externals := i.externals } } := by
  refine ⟨_, rfl, ?_⟩
  show (g.write id name value).state = _
  unfold Engine.write Instance.write
  simp only [hi, hold]
  obtain ⟨hsurface, hchildren⟩ := (ExternalChildren.idle_of_pending hplaced
    (Pass.run ⟨g.effector, g.options, id, value.render, old.dependents⟩ g.surface).surface id).placePending
  rw [hsurface, hchildren]

theorem perform_write_unknown {id name : String} {i : Instance} (value : Scalar) (hi : g.instance? id = some i)
    (hnone : i.store.get? name = none) :
    g.perform (.write id name value) = { g with instances := g.instances.insert id i } := by
  show (g.write id name value).state = _
  unfold Engine.write Instance.write
  simp only [hi, hnone]

/-- **A write of the variable fills the list, and a write of another one leaves it filled.** -/
theorem HoldsList.write (hg : g.HoldsList list template parent bound texts x) (name : String) (value : Scalar) :
    (g.perform (.write list.instanceId name value)).HoldsList list template parent bound texts x ∧
      (name = x ∨ g.FillsList list parent texts x →
        (g.perform (.write list.instanceId name value)).FillsList list parent texts x) := by
  obtain ⟨i, hi, hown, hitems⟩ := hg.owned
  cases hold : i.store.get? name with
  | none =>
    obtain ⟨v, ds, hv, -⟩ := hown.found
    have hx : name ≠ x := by
      rintro rfl
      rw [hold] at hv
      cases hv
    rw [perform_write_unknown value hi hold]
    refine ⟨⟨hg.effector, hg.hasList, i, Table.get?_insert_self _ _ _, hown, hitems⟩, fun h => ?_⟩
    obtain ⟨i', v', hi', hv', hfilled⟩ := h.resolve_left hx
    obtain rfl := Option.some.inj (hi.symm.trans hi')
    exact ⟨i, v', Table.get?_insert_self _ _ _, hv', hfilled⟩
  | some old =>
    obtain ⟨p, hp, hperform⟩ := perform_write value hi hold hown.placed
    have he : p.effector = inlineStyles := by rw [hp]; exact hg.effector
    have hid : p.instanceId = list.instanceId := by rw [hp]
    have hopt : p.options = g.options := by rw [hp]
    have hdep : p.dependents = old.dependents := by rw [hp]
    have hbound : ∀ e ∈ p.dependents.entries, .value ∈ e.2 →
        Element.isTemplate e.1 ∨ Element.isItem e.1 ∨ bound e.1 := fun e he hval => by
      rw [hdep] at he
      exact hown.bound ⟨name, old, e.2, hold, he, hval⟩
    rw [hperform]
    have hown' := hown.written (p := p) (s := g.surface) hg.hasList.isTemplate hold hdep
      (j := { store := i.store.insert name { value := p.value, dependents := (p.run g.surface).table }
              externals := i.externals }) rfl rfl
    by_cases hx : name = x
    · -- The variable of the list.
      subst hx
      obtain ⟨v, ds, hv, hmem, hval⟩ := hown.found
      obtain rfl := Option.some.inj (hv.symm.trans hold)
      obtain ⟨htracks, hfilled⟩ := Pass.run_fills he hid hg.hasList (by rw [hdep]; exact hitems v hv)
        (by rw [hdep]; exact hmem) hval (fun e he => hown.only hv (by rw [← hdep]; exact he)) hbound
      rw [hopt] at hfilled
      refine ⟨⟨hg.effector, htracks.hasList, _, Table.get?_insert_self _ _ _, hown', fun v' hv' => ?_⟩, fun _ => ?_⟩
      · rw [Table.get?_insert_self] at hv'
        rw [← Option.some.inj hv']
        exact htracks.items
      · exact ⟨_, _, Table.get?_insert_self _ _ _, Table.get?_insert_self _ _ _, hfilled⟩
    · -- Another variable.
      have hspares := Pass.run_spares he hid hg.hasList (fun e he => hown.others hx hold (by rw [← hdep]; exact he))
        hbound
      have hget := Table.get?_insert_of_ne i.store
        { value := p.value, dependents := (p.run g.surface).table } (Ne.symm hx)
      refine ⟨⟨hg.effector, hspares.hasList, _, Table.get?_insert_self _ _ _, hown', fun v hv => ?_⟩, fun h => ?_⟩
      · exact hspares.itemsIn (hitems v (hget.symm.trans hv))
      · obtain ⟨i', v, hi', hv, hfilled⟩ := h.resolve_left hx
        obtain rfl := Option.some.inj (hi.symm.trans hi')
        exact ⟨_, v, Table.get?_insert_self _ _ _, hget.trans hv, hspares.filled hfilled⟩

/-! ## Runs -/

/-- The writes of values to variables of an instance. -/
def writesTo (id : String) (writes : List (String × Scalar)) : List Operation :=
  writes.map fun w => .write id w.1 w.2

theorem HoldsList.after : ∀ (writes : List (String × Scalar)) {g : Engine Surface H W},
    g.HoldsList list template parent bound texts x →
    (g.after (writesTo list.instanceId writes)).HoldsList list template parent bound texts x ∧
      ((∃ value, (x, value) ∈ writes) ∨ g.FillsList list parent texts x →
        (g.after (writesTo list.instanceId writes)).FillsList list parent texts x)
  | [], _, hg => ⟨hg, fun h => h.resolve_left fun ⟨_, h⟩ => List.not_mem_nil h⟩
  | w :: writes, g, hg => by
    obtain ⟨hg', hfill⟩ := hg.write w.1 w.2
    obtain ⟨h1, h2⟩ := HoldsList.after writes hg'
    refine ⟨h1, fun h => h2 ?_⟩
    rcases h with ⟨value, hmem⟩ | h
    · rcases List.mem_cons.1 hmem with h | h
      · exact .inr (hfill (.inl (congrArg Prod.fst h.symm)))
      · exact .inl ⟨value, h⟩
    · exact .inr (hfill (.inr h))

/-- **List regions are fully replaced**: as soon as the variable of a list has been written, the live items of the list
are those of its value, in order, and every write of the instance leaves it so. -/
theorem fills_list_of_written {i : Instance} (he : g.effector = inlineStyles)
    (hi : g.instance? list.instanceId = some i) (hown : i.OwnsList list x i.Binds)
    (hlist : g.surface.HasList list template parent i.Binds texts)
    (hitems : ∀ v, i.store.get? x = some v → g.surface.ItemsIn list v.dependents.names)
    {writes : List (String × Scalar)} (hx : ∃ value, (x, value) ∈ writes) :
    (g.after (writesTo list.instanceId writes)).FillsList list parent texts x :=
  (HoldsList.after writes ⟨he, hlist, i, hi, hown, hitems⟩).2 (.inl hx)

/-- An item of a list, from before. -/
def oldItem : Markup := { tag := "span", id := "a,0:new:main", text := "old" }

/-- Two lists, with nodes beside them and nodes inside the template of the second. -/
def twoLists (beside inside : List Markup) : List Markup :=
  [{ tag := "ul", id := "root:main"
     children := [{ tag := "li", id := "a:dummy:main", text := "$loop$" },
       { tag := "li", id := "b:dummy:main", children := inside }] ++ beside }]

/-- A variable for each list; the first knows the old item. -/
def twoVariables : Instance where
  store := .ofList [("x", { dependents := .ofList [("a,0:new", []), ("a:dummy", [.value])] }),
    ("y", { dependents := .ofList [("b:dummy", [.value])] })]

/-- The page with its instance. -/
def twoListed (beside inside : List Markup) : Engine Surface Empty Unit :=
  (mounted (twoLists beside inside) {} ∅ ()).perform (.start "main" twoVariables)

theorem mem_twoVariables {name : String} {v : Variable} (h : twoVariables.store.get? name = some v) :
    name = "x" ∧ v.dependents.entries = [("a,0:new", []), ("a:dummy", [.value])] ∨
      name = "y" ∧ v.dependents.entries = [("b:dummy", [.value])] := by
  have hmem : (name, v) ∈ [("x", _), ("y", _)] := Table.get?_eq_some.1 h
  simp only [List.mem_cons, Prod.mk.injEq, List.not_mem_nil, or_false] at hmem
  rcases hmem with ⟨rfl, rfl⟩ | ⟨rfl, rfl⟩
  · exact .inl ⟨rfl, rfl⟩
  · exact .inr ⟨rfl, rfl⟩

theorem ownsList_twoVariables : twoVariables.OwnsList ⟨"a:dummy", "main"⟩ "x" twoVariables.Binds where
  found := ⟨_, [.value], rfl, List.mem_cons_of_mem ("a,0:new", []) List.mem_cons_self, List.mem_singleton.2 rfl⟩
  only {v e} hv he ht := by
    obtain ⟨ds, he⟩ := Table.mem_names.1 he
    rcases mem_twoVariables hv with ⟨-, hes⟩ | ⟨h, -⟩
    · rw [hes] at he
      simp only [List.mem_cons, Prod.mk.injEq, List.not_mem_nil, or_false] at he
      rcases he with ⟨rfl, -⟩ | ⟨rfl, -⟩
      · exact absurd ht (by decide)
      · rfl
    · exact absurd h (by decide)
  others {name v e} hname hv he := by
    obtain ⟨ds, he⟩ := Table.mem_names.1 he
    rcases mem_twoVariables hv with ⟨h, -⟩ | ⟨-, hes⟩
    · exact absurd h hname
    · rw [hes] at he
      obtain ⟨rfl, -⟩ := Prod.mk.inj (List.mem_singleton.1 he)
      exact ⟨by decide, by decide⟩
  bound h := .inr (.inr h)
  placed := rfl

/-- The first list stands on the page if the old item is beside it, and also if it is inside the other template. -/
theorem stands_twoLists {beside inside : List Markup}
    (h : beside = [oldItem] ∧ inside = [] ∨ beside = [] ∧ inside = [oldItem]) :
    (twoListed beside inside).surface.Stands ⟨"a:dummy", "main"⟩ 1 0 twoVariables.Binds ["$loop$"] ∧
      (twoListed beside inside).surface.ItemsIn ⟨"a:dummy", "main"⟩ ["a,0:new", "a:dummy"] := by
  have hroot : ¬ (Element.isTemplate "root" ∨ Element.isItem "root" ∨ twoVariables.Binds "root") := by
    rintro (ht | hi | ⟨name, v, ds, hv, he, -⟩)
    · exact absurd ht (by decide)
    · exact absurd hi (by decide)
    · rcases mem_twoVariables hv with ⟨-, hes⟩ | ⟨-, hes⟩ <;> simp [hes] at he
  have hs : (twoListed beside inside).surface.Forest := Surface.forest_ofMarkup _
  have htext : (twoListed beside inside).surface.texts 1 = ["$loop$"] := by
    rcases h with ⟨rfl, rfl⟩ | ⟨rfl, rfl⟩ <;> decide +kernel
  have hnode : ((twoListed beside inside).surface.node 1).live ∧
      ((twoListed beside inside).surface.node 1).id = some (NodeKey.text ⟨"a:dummy", "main"⟩) ∧
      ((twoListed beside inside).surface.node 1).parent = some 0 ∧
      ((twoListed beside inside).surface.node 1).children = [] := by
    rcases h with ⟨rfl, rfl⟩ | ⟨rfl, rfl⟩ <;> decide +kernel
  have hids : ∀ k ∈ (twoListed beside inside).surface.liveSlots, ∀ j ∈ (twoListed beside inside).surface.liveSlots,
      ((twoListed beside inside).surface.node k).id = ((twoListed beside inside).surface.node j).id → k = j := by
    rcases h with ⟨rfl, rfl⟩ | ⟨rfl, rfl⟩ <;> decide +kernel
  have habove : ∀ k ∈ (twoListed beside inside).surface.liveSlots, 0 ∈ (twoListed beside inside).surface.subtree k →
      ((twoListed beside inside).surface.node k).id = some (NodeKey.text ⟨"root", "main"⟩) := by
    rcases h with ⟨rfl, rfl⟩ | ⟨rfl, rfl⟩ <;> decide +kernel
  have hitem : ∀ k ∈ (twoListed beside inside).surface.liveSlots,
      (twoListed beside inside).surface.itemAt ⟨"a:dummy", "main"⟩ k →
      ((twoListed beside inside).surface.node k).id = some (NodeKey.text ⟨"a,0:new", "main"⟩) ∧
        ((twoListed beside inside).surface.node k).children = [] := by
    rcases h with ⟨rfl, rfl⟩ | ⟨rfl, rfl⟩ <;> decide +kernel
  generalize (twoListed beside inside).surface = s at hs htext hnode hids habove hitem ⊢
  obtain ⟨hl, hid, hparent, hchildren⟩ := hnode
  constructor
  · rw [← htext]
    refine .of_slots hs.toRooted (by decide) hl hid hparent (fun k hk hkid => ?_) (fun k hk hb e he => ?_)
      (fun c hc => ?_) (fun k hk hi c hc => ?_) fun k hk j hj _ hkj => hids k hk j hj hkj
    · exact hids k hk 1 (s.mem_liveSlots.2 hl) (hkid.trans hid.symm)
    · rw [habove k hk hb] at he
      rwa [← NodeKey.text_inj_of_instance (Option.some.inj he)]
    · rw [hchildren] at hc
      cases hc
    · rw [(hitem k hk hi).2] at hc
      cases hc
  · exact fun k hk hi => ⟨"a,0:new", List.mem_cons_self, (hitem k (s.mem_liveSlots.2 hk) hi).1⟩

/-- The first list is filled, whatever was there before, and a write for the other one leaves it so. -/
theorem fills_twoLists :
    ((twoListed [oldItem] []).after (writesTo "main" [("y", .text "p"), ("x", .text "v"), ("y", .text "q")])).FillsList
      ⟨"a:dummy", "main"⟩ 0 ["$loop$"] "x" := by
  obtain ⟨hstands, hitems⟩ := stands_twoLists (.inl ⟨rfl, rfl⟩)
  have houtside : ∀ t ∈ (twoListed [oldItem] []).surface.liveSlots,
      ((twoListed [oldItem] []).surface.node t).id.any NodeKey.isTemplateText →
      ∀ k ∈ (twoListed [oldItem] []).surface.subtree t,
        (twoListed [oldItem] []).surface.itemAt ⟨"a:dummy", "main"⟩ k = false := by
    decide +kernel
  refine fills_list_of_written rfl rfl ownsList_twoVariables
    { hstands with outside := fun {t e k} hl hid he hb => ?_ } (fun v hv => ?_) ⟨.text "v", by simp⟩
  · refine houtside t ((Surface.mem_liveSlots _).2 hl) ?_ k ((hstands.rooted.mem_subtree hl).2 hb)
    have hcolon : ':' ∉ "main".toList := by decide
    rw [hid, Option.any_some, NodeKey.isTemplateText_text hcolon]
    exact he
  · rcases mem_twoVariables hv with ⟨-, hes⟩ | ⟨h, -⟩
    · unfold Table.names
      rw [hes]
      exact hitems
    · exact absurd h (by decide)

/-- **An item inside another template is copied with it**, and the copy stays when the list is rebuilt. -/
theorem not_fills_item_in_template :
    (∀ k ∈ (twoListed [] [oldItem]).surface.liveSlots, ∀ j ∈ (twoListed [] [oldItem]).surface.liveSlots,
      ((twoListed [] [oldItem]).surface.node k).id = ((twoListed [] [oldItem]).surface.node j).id → k = j) ∧
    (twoListed [] [oldItem]).surface.Stands ⟨"a:dummy", "main"⟩ 1 0 twoVariables.Binds ["$loop$"] ∧
    twoVariables.OwnsList ⟨"a:dummy", "main"⟩ "x" twoVariables.Binds ∧
    (∀ v, twoVariables.store.get? "x" = some v →
      (twoListed [] [oldItem]).surface.ItemsIn ⟨"a:dummy", "main"⟩ v.dependents.names) ∧
    ¬ ((twoListed [] [oldItem]).after (writesTo "main" [("y", .text "p"), ("x", .text "v")])).FillsList
      ⟨"a:dummy", "main"⟩ 0 ["$loop$"] "x" := by
  obtain ⟨hstands, hitems⟩ := stands_twoLists (.inr ⟨rfl, rfl⟩)
  refine ⟨by decide +kernel, hstands, ownsList_twoVariables, fun v hv => ?_, fun ⟨i, v, hi, hv, hfilled⟩ => ?_⟩
  · rcases mem_twoVariables hv with ⟨-, hes⟩ | ⟨h, -⟩
    · unfold Table.names
      rw [hes]
      exact hitems
    · exact absurd h (by decide)
  · have hcopy := hfilled.shows.only (h := 5) (by decide +kernel) (by decide +kernel)
    exact absurd hcopy (by decide +kernel)

end Engine
end BoundPage
