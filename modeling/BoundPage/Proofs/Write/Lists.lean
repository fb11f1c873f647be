import BoundPage.Proofs.Surface.ListItems
import BoundPage.Proofs.Write.Changes
import BoundPage.Proofs.Write.Rekey
/-!
# Lists in a pass

A pass that names neither a list nor an item of it leaves the list as it stands (`run_spares`).  A pass whose table
names its template and all its items fills it with the written value (`run_fills`).
-/
namespace BoundPage
open RenderTarget

namespace Surface

variable {list : NodeKey} {template parent : Slot} {bound : String → Prop} {texts names : List String}
  {placeholder value : String} {s t : Surface}

/-- **All items of a list are named.** -/
def ItemsIn (list : NodeKey) (names : List String) (s : Surface) : Prop :=
  ∀ h, (s.node h).live → s.itemAt list h → ∃ e ∈ names, (s.node h).id = some (NodeKey.text ⟨e, list.instanceId⟩)

/-- **A list is filled with a value**: it shows the items of the value, and these are the items that are named. -/
structure Filled (list : NodeKey) (parent : Slot) (texts : List String) (placeholder value : String)
    (names : List String) (s : Surface) : Prop where
  shows : s.ShowsList list parent
    ((ListRegion.items value).map fun item => Text.replaceInFirst placeholder item texts)
  names : (names.filter fun e => Element.isItemOf e list.element).map some =
    (List.range (ListRegion.items value).length).map (Element.item? list.element)

theorem Filled.itemsIn (h : s.Filled list parent texts placeholder value names) (hs : s.Linked) :
    s.ItemsIn list names := fun k hk hi => by
  have hmem : k ∈ s.itemsOf list parent := mem_itemsOf.2 ⟨(hs.parent (h.shows.only hk hi)).2, hi⟩
  have hid := List.mem_map_of_mem (f := fun k => (s.node k).id) hmem
  rw [h.shows.ids, List.length_map] at hid
  obtain ⟨i, hr, hid⟩ := List.mem_map.1 hid
  obtain ⟨e, he⟩ := itemAt_iff.1 hi
  rw [he.2] at hid ⊢
  obtain ⟨key, hkey, ht⟩ := Option.map_eq_some_iff.1 hid
  obtain ⟨hel, hinst⟩ := NodeKey.item?_eq_some hkey
  have hmem : some key.element ∈ (names.filter fun e => Element.isItemOf e list.element).map some := by
    rw [h.names]
    exact List.mem_map.2 ⟨i, hr, hel⟩
  obtain ⟨e', he', hsome⟩ := List.mem_map.1 hmem
  refine ⟨e', (List.mem_filter.1 he').1, ?_⟩
  rw [Option.some.inj hsome, ← ht, ← hinst]

namespace SparesList

theorem itemsIn (h : SparesList list template parent bound texts s t) (hs : s.ItemsIn list names) :
    t.ItemsIn list names := fun k hk hi => by
  obtain ⟨hl, hid⟩ := h.old hk hi
  rw [hid]
  exact hs k hl (by rwa [itemAt_congr hid] at hi)

theorem filled (h : SparesList list template parent bound texts s t)
    (hs : s.Filled list parent texts placeholder value names) : t.Filled list parent texts placeholder value names :=
  ⟨h.shows hs.shows, hs.names⟩

end SparesList

/-- **A list stands on a page, and a table names it and its items.** -/
structure Tracks (list : NodeKey) (template parent : Slot) (bound : String → Prop) (texts : List String)
    (table : DependencyTable) (s : Surface) : Prop where
  hasList : s.HasList list template parent bound texts
  named : list.element ∈ table.names
  items : s.ItemsIn list table.names

end Surface

namespace Pass

variable {p : Pass Surface} {list k : NodeKey} {template parent : Slot} {bound : String → Prop} {texts : List String}
  {ds : List Dependency} {st : State Surface} {d : Dependency} {s : Surface} {table : DependencyTable}
  {destroyed : List String}

/-! ## One dependency -/

/-- **A dependency that writes neither to a list nor to an item of it leaves the list as it stands.** -/
theorem Change.spares (hp : p.effector = inlineStyles) (hid : p.instanceId = list.instanceId)
    (hk : k.instanceId = list.instanceId) (hs : st.surface.HasList list template parent bound texts)
    (hvalue : d = .value → p.ownedByTemplate k.element = false → k.element ≠ list.element ∧
      Element.isItemOf k.element list.element = false ∧
      (Element.isTemplate k.element ∨ Element.isItem k.element ∨ bound k.element))
    (h : p.Change k ds st d s table destroyed) :
    Surface.SparesList list template parent bound texts st.surface s := by
  have hlocated : ∀ {n}, locate st.surface k = some n →
      (st.surface.node n).id = some (NodeKey.text ⟨k.element, list.instanceId⟩) := fun hl => by
    rw [← hk]
    exact (ListRegion.locate_live hl).2
  cases h with
  | owned _ => exact .refl hs
  | @text n ho hplain hl =>
    obtain ⟨-, hother, hb⟩ := hvalue rfl ho
    refine .setText hs (hlocated hl) hplain (hb.resolve_left ?_) hother p.value
    rw [show Element.isTemplate k.element = false from hplain]
    exact Bool.false_ne_true
  | @list other hr =>
    obtain ⟨hne, -, -⟩ := hvalue rfl hr.notOwned
    have hstale : ∀ key ∈ p.staleKeys k st.table, key.instanceId = list.instanceId ∧ Element.isItem key.element ∧
        Element.isItemOf key.element list.element = false := fun key hkey => by
      obtain ⟨e, he, rfl⟩ := List.mem_map.1 hkey
      have hi : Element.isItemOf e k.element := (List.mem_filter.1 he).2
      refine ⟨hid, Element.isItem_of_isItemOf hi, ?_⟩
      by_contra h
      exact hne (Element.template_unique hi (eq_true_of_ne_false h))
    have hclear := Surface.SparesList.destroyAll hs (p.staleKeys k st.table) hstale
    refine hclear.trans (.makeItems hclear.hasList hr.isTemplate hk hne (fun hl => ?_) _)
    rw [Node.id_eq (ListRegion.own_destroyAll _ hl).2.1]
    exact (ListRegion.locate_live hr.located).2
  | visible _ => exact .restyled hs (restyled_visible _ _ _)
  | style _ => exact .restyled hs (restyled_styleParameters hp _ _ _ _ _)

theorem Change.table_eq (hlist : d = .value → k.isTemplate = false) (h : p.Change k ds st d s table destroyed) :
    table = st.table ∧ destroyed = st.destroyed := by
  cases h with
  | list hr =>
    rw [hr.isTemplate] at hlist
    cases hlist rfl
  | owned _ => exact ⟨rfl, rfl⟩
  | text _ _ _ => exact ⟨rfl, rfl⟩
  | visible _ => exact ⟨rfl, rfl⟩
  | style _ => exact ⟨rfl, rfl⟩

/-- **A list that is rebuilt is filled with the value.** -/
theorem Change.fills (hid : p.instanceId = list.instanceId)
    (hs : st.surface.Tracks list template parent bound texts st.table) (hown : p.ownedByTemplate list.element = false)
    (h : p.Change list ds st .value s table destroyed) : s.Tracks list template parent bound texts table ∧
      s.Filled list parent texts p.options.loopPlaceholder p.value table.names := by
  cases h with
  | owned ho =>
    rw [hown] at ho
    cases ho
  | text _ hplain _ =>
    rw [hs.hasList.isTemplate] at hplain
    cases hplain
  | @list found hr =>
    obtain ⟨hl, hfid⟩ := ListRegion.locate_live hr.located
    obtain rfl := hs.hasList.unique hl hfid
    have hclear : (p.cleared list st.table st.surface).HasList list found parent bound texts :=
      hs.hasList.destroyAll _ fun key hkey => by
        obtain ⟨e, he, rfl⟩ := List.mem_map.1 hkey
        exact ⟨hid, Element.isItem_of_isItemOf (List.mem_filter.1 he).2⟩
    have hempty : (p.cleared list st.table st.surface).ShowsList list parent [] :=
      hs.hasList.showsList_destroyAll _ fun {h} hl hi => by
        obtain ⟨e, he, hid'⟩ := hs.items h hl hi
        rw [Surface.itemAt_of_id hid'] at hi
        refine ⟨p.key e, List.mem_map_of_mem (List.mem_filter.2 ⟨he, hi⟩), ?_⟩
        unfold Pass.key
        rw [hid, hid']
    obtain ⟨hnew, hshows⟩ := hclear.showsList_makeItems p.options.loopPlaceholder hempty
      (ListRegion.items p.value)
    have hfilled : (p.refilled list st.table st.surface found (ListRegion.items p.value)).1.Filled list parent texts
        p.options.loopPlaceholder p.value
        (rekey st.table list.element (p.created list st.table st.surface found) ds).names :=
      ⟨hshows, by rw [items_rekey hr.isTemplate hs.named ds, created_eq hr.isTemplate]⟩
    refine ⟨⟨hnew, ?_, hfilled.itemsIn hnew.rooted.toLinked⟩, hfilled⟩
    obtain ⟨v, he⟩ := Table.mem_names.1 hs.named
    refine Table.mem_names.2 ⟨v, ?_⟩
    have hentries := entries_rekey_created p st.table st.surface found hr.isTemplate ds
    unfold created at hentries
    rw [hentries]
    exact List.mem_flatMap.2 ⟨_, he, mem_rekeyed.2 ⟨template_not_itemOf list.element, .inl rfl⟩⟩

/-! ## Passes -/

/-- **A pass that names neither a list nor an item of it leaves the list as it stands.** -/
theorem run_spares (hp : p.effector = inlineStyles) (hid : p.instanceId = list.instanceId)
    (hs : s.HasList list template parent bound texts)
    (hother : ∀ e ∈ p.dependents.names, e ≠ list.element ∧ Element.isItemOf e list.element = false)
    (hbound : ∀ e ∈ p.dependents.entries, .value ∈ e.2 → Element.isTemplate e.1 ∨ Element.isItem e.1 ∨ bound e.1) :
    Surface.SparesList list template parent bound texts s (p.run s).surface := by
  refine (run_induction (I := fun t _ _ => Surface.SparesList list template parent bound texts s t) (.refl hs)
    fun e d left st st' hst hI hok => ?_).2
  refine hI.trans ((change_of_applyOne hok).spares hp hid hid hI.hasList ?_)
  rintro rfl -
  obtain ⟨hne, hitem⟩ := hother e.1 (List.mem_map_of_mem hst.mem)
  exact ⟨hne, hitem, hbound e hst.mem hst.mem_left⟩

/-- The dependencies of a template fill its list if the value is among them. -/
theorem applyEach_fills (hp : p.effector = inlineStyles) (hid : p.instanceId = list.instanceId)
    (hown : p.ownedByTemplate list.element = false) (ds : List Dependency) :
    ∀ (left : List Dependency) (st : State Surface),
      st.surface.Tracks list template parent bound texts st.table →
      (.value ∈ left ∨ st.surface.Filled list parent texts p.options.loopPlaceholder p.value st.table.names) →
      (p.applyEach list ds left st).surface.Tracks list template parent bound texts
          (p.applyEach list ds left st).table ∧
        (p.applyEach list ds left st).surface.Filled list parent texts p.options.loopPlaceholder p.value
          (p.applyEach list ds left st).table.names
  | [], st, hs, h => ⟨hs, h.resolve_left List.not_mem_nil⟩
  | d :: left, st, hs, h => by
    have hl : locate st.surface list = some template := by
      cases hl : locate st.surface list with
      | none => exact absurd hs.hasList.id (st.surface.find?_eq_none.1 hl template hs.hasList.live)
      | some n =>
        obtain ⟨hn, hnid⟩ := ListRegion.locate_live hl
        rw [hs.hasList.unique hn hnid]
    obtain ⟨st', hok⟩ := applyOne_of_attached ds d hl (by
      show ((st.surface.node template).parent).isSome
      rw [hs.hasList.under]
      rfl)
    have hch := change_of_applyOne hok
    rw [applyEach, hok]
    by_cases hd : d = .value
    · subst hd
      obtain ⟨h1, h2⟩ := hch.fills hid hs hown
      exact applyEach_fills hp hid hown ds left st' h1 (.inr h2)
    · have hspare := hch.spares hp hid rfl hs.hasList fun h => absurd h hd
      obtain ⟨htable, -⟩ := hch.table_eq fun h => absurd h hd
      refine applyEach_fills hp hid hown ds left st'
        ⟨hspare.hasList, by rw [htable]; exact hs.named, by rw [htable]; exact hspare.itemsIn hs.items⟩ ?_
      rcases h with h | h
      · exact .inl ((List.mem_cons.1 h).resolve_left (Ne.symm hd))
      · rw [htable]
        exact .inr (hspare.filled h)

/-- **A pass whose table names one template and all items of its list fills the list with the value.** -/
theorem run_fills (hp : p.effector = inlineStyles) (hid : p.instanceId = list.instanceId)
    (hs : s.HasList list template parent bound texts) (hitems : s.ItemsIn list p.dependents.names)
    (hmem : (list.element, ds) ∈ p.dependents.entries) (hvalue : .value ∈ ds)
    (honly : ∀ e ∈ p.dependents.names, Element.isTemplate e → e = list.element)
    (hbound : ∀ e ∈ p.dependents.entries, .value ∈ e.2 → Element.isTemplate e.1 ∨ Element.isItem e.1 ∨ bound e.1) :
    (p.run s).surface.Tracks list template parent bound texts (p.run s).table ∧
      (p.run s).surface.Filled list parent texts p.options.loopPlaceholder p.value (p.run s).table.names := by
  have hnamed : list.element ∈ p.dependents.names := List.mem_map_of_mem hmem
  have hown : p.ownedByTemplate list.element = false :=
    not_owned_of_not_item (Element.isItem_of_isTemplate hs.isTemplate)
  -- The other entries are no templates, and those of items are left to this one.
  have hrest : ∀ {e : String × List Dependency} {d : Dependency} {st st' : State Surface}, e ∈ p.dependents.entries →
      e.1 ≠ list.element → d ∈ e.2 → st.surface.HasList list template parent bound texts →
      p.applyOne (p.key e.1) e.2 d st = .ok st' →
      Surface.SparesList list template parent bound texts st.surface st'.surface ∧ st'.table = st.table ∧
        st'.destroyed = st.destroyed := by
    intro e d st st' he hne hd hst hok
    have hch := change_of_applyOne hok
    refine ⟨hch.spares hp hid hid hst fun hdv ho => ?_, hch.table_eq fun _ => ?_⟩
    · subst hdv
      refine ⟨hne, ?_, hbound e he hd⟩
      by_contra hi
      exact ne_true_of_eq_false ho (List.any_eq_true.2 ⟨_, hnamed, eq_true_of_ne_false hi⟩)
    · by_contra ht
      exact hne (honly e.1 (List.mem_map_of_mem he) (eq_true_of_ne_false ht))
  refine run_entry (I := fun t table destroyed => t.Tracks list template parent bound texts table ∧
      ∀ x ∈ destroyed, Element.isItem x)
    (J := fun t table _ => t.Tracks list template parent bound texts table ∧
      t.Filled list parent texts p.options.loopPlaceholder p.value table.names) hmem
    ⟨⟨hs, hnamed, hitems⟩, fun _ hx => absurd hx List.not_mem_nil⟩ (fun e d st st' he hne hd hI hok => ?_)
    (fun st hI => ⟨?_, ?_⟩) fun e d st st' he hne hd hJ hok => ?_
  · obtain ⟨hspare, htable, hdes⟩ := hrest he hne hd hI.1.hasList hok
    rw [htable, hdes]
    exact ⟨⟨hspare.hasList, hI.1.named, hspare.itemsIn hI.1.items⟩, hI.2⟩
  · by_contra hc
    exact Element.not_isItem_of_isTemplate hs.isTemplate (hI.2 list.element (by simpa using hc))
  · have hk : p.key list.element = list := by
      unfold Pass.key
      rw [hid]
    show (p.applyEach (p.key list.element) ds ds st).surface.Tracks _ _ _ _ _ _ ∧ _
    rw [hk]
    exact applyEach_fills hp hid hown ds ds st hI.1 (.inl hvalue)
  · obtain ⟨hspare, htable, -⟩ := hrest he hne hd hJ.1.hasList hok
    rw [htable]
    exact ⟨⟨hspare.hasList, hJ.1.named, hspare.itemsIn hJ.1.items⟩, hspare.filled hJ.2⟩

end Pass
end BoundPage
