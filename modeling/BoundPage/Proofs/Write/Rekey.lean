import BoundPage.Proofs.Keys
import BoundPage.Proofs.Surface.Regions
import BoundPage.Proofs.Tables
import BoundPage.Proofs.Write.Stages
/-!
# The table during a pass

A rebuilt list puts the names of its new items in the place of the old ones, right before its template, and leaves the
rest of the table as it is (`entries_rekey`).  So a pass changes nothing in a table but names of items
(`run_table`).
-/
namespace BoundPage.Pass

variable {S : Type} [RenderTarget S]

/-- What becomes of an entry when a list is rebuilt. -/
def rekeyed (template : String) (created : List String) (ds : List Dependency) (e : String × List Dependency) :
    List (String × List Dependency) :=
  if Element.isItemOf e.1 template then []
  else if e.1 = template then created.map (fun c => (c, ds)) ++ [e]
  else [e]

theorem mem_rekeyed {template : String} {created : List String} {ds : List Dependency}
    {e e' : String × List Dependency} : e' ∈ rekeyed template created ds e ↔ Element.isItemOf e.1 template = false ∧
      (e' = e ∨ e.1 = template ∧ ∃ c ∈ created, (c, ds) = e') := by
  unfold rekeyed
  by_cases hi : Element.isItemOf e.1 template
  · simp [hi]
  · by_cases ht : e.1 = template
    · rw [if_neg hi, if_pos ht, List.mem_append, List.mem_map, List.mem_singleton, or_comm,
        eq_false_of_ne_true hi]
      simp [ht]
    · simp [hi, ht]

theorem template_not_itemOf (template : String) : Element.isItemOf template template = false := by
  by_contra h
  have hi : Element.isItemOf template template := by simpa using h
  exact Element.not_isItem_of_isTemplate (Element.isTemplate_of_isItemOf hi) (Element.isItem_of_isItemOf hi)

/-- **The entries of a table whose list was rebuilt.** -/
theorem entries_rekey (table : DependencyTable) {template : String} {created : List String} (ds : List Dependency)
    (hc : ∀ c ∈ created, Element.isItemOf c template) (hn : created.Nodup) :
    (rekey table template created ds).entries = table.entries.flatMap (rekeyed template created ds) := by
  refine Table.entries_ofList ?_
  show ((table.entries.flatMap (rekeyed template created ds)).map Prod.fst).Nodup
  rw [List.map_flatMap, List.nodup_flatMap]
  constructor
  · intro e he
    unfold rekeyed
    split
    · exact List.nodup_nil
    · next hi =>
      split
      · next ht =>
        have hnot : e.1 ∉ created := fun h => hi (hc _ h)
        simp [List.nodup_append, hn, Function.comp_def]
        exact fun a ha hae => hnot (hae ▸ ha)
      · simp
  · have hnames := table.nodup
    rw [List.Nodup, List.pairwise_map] at hnames
    refine hnames.imp fun {a b} hab => ?_
    intro x hxa hxb
    obtain ⟨y, hy, rfl⟩ := List.mem_map.1 hxa
    obtain ⟨z, hz, hzy⟩ := List.mem_map.1 hxb
    obtain ⟨ha, hy⟩ := mem_rekeyed.1 hy
    obtain ⟨hb, hz⟩ := mem_rekeyed.1 hz
    rcases hy with rfl | ⟨hat, c, hcc, rfl⟩
    · rcases hz with rfl | ⟨-, c, hcc, rfl⟩
      · exact hab hzy.symm
      · rw [← hzy, hc c hcc] at ha
        cases ha
    · rcases hz with rfl | ⟨hbt, -⟩
      · rw [hzy, hc c hcc] at hb
        cases hb
      · exact hab (hat.trans hbt.symm)

/-! ## The names of new items -/

section

variable {p : Pass S} {k : NodeKey} {table : DependencyTable} {s : S} {template : Nat}

/-- The elements of the items that a rebuilt list makes. -/
def created (p : Pass S) (k : NodeKey) (table : DependencyTable) (s : S) (template : Nat) : List String :=
  (p.refilled k table s template (ListRegion.items p.value)).2.1.map (·.element)

theorem created_eq (hk : k.isTemplate) : (p.created k table s template).map some =
    (List.range (ListRegion.items p.value).length).map (Element.item? k.element) := by
  have h := ListRegion.keys_makeItems hk template p.options.loopPlaceholder (ListRegion.items p.value) 0
    (p.cleared k table s)
  have he := congrArg (List.map (Option.map NodeKey.element)) h
  rw [List.map_map, List.map_map, List.range'_eq_map_range, List.map_map] at he
  unfold created refilled
  rw [List.map_map]
  refine he.trans (List.map_congr_left fun i _ => ?_)
  simp only [Function.comp_apply, NodeKey.item?, Option.map_map, Nat.zero_add]
  exact congrFun Option.map_id _

theorem mem_created (hk : k.isTemplate) {i : Nat} (hi : i < (ListRegion.items p.value).length) {element : String}
    (h : Element.item? k.element i = some element) : element ∈ p.created k table s template := by
  have hm : some element ∈ (p.created k table s template).map some := by
    rw [created_eq hk]
    exact List.mem_map.2 ⟨i, List.mem_range.2 hi, h⟩
  obtain ⟨c, hc, he⟩ := List.mem_map.1 hm
  exact Option.some.inj he ▸ hc

theorem isItemOf_of_mem_created (hk : k.isTemplate) {c : String} (hc : c ∈ p.created k table s template) :
    Element.isItemOf c k.element := by
  have hm := List.mem_map_of_mem (f := some) hc
  rw [created_eq hk] at hm
  obtain ⟨i, -, hi⟩ := List.mem_map.1 hm
  exact Element.isItemOf_item? hi

theorem nodup_created (hk : k.isTemplate) : (p.created k table s template).Nodup := by
  refine List.Nodup.of_map some ?_
  rw [created_eq hk]
  refine List.Nodup.map_on (fun i _ j _ hij => ?_) List.nodup_range
  obtain ⟨e, he⟩ := Element.exists_item? hk i
  exact Element.item?_inj he (hij.symm.trans he)

theorem entries_rekey_created (p : Pass S) (table : DependencyTable) (s : S) (template : Nat) (hk : k.isTemplate)
    (ds : List Dependency) :
    (rekey table k.element (p.created k table s template) ds).entries =
      table.entries.flatMap (rekeyed k.element (p.created k table s template) ds) :=
  entries_rekey table ds (fun _ hc => isItemOf_of_mem_created hk hc) (nodup_created hk)

theorem names_rekeyed (hk : k.isTemplate) {ds : List Dependency} (e : String × List Dependency) :
    ((rekeyed k.element (p.created k table s template) ds e).map Prod.fst).filter
        (fun name => Element.isItemOf name k.element) =
      if e.1 = k.element then p.created k table s template else [] := by
  have hcreated : (p.created k table s template).filter (fun name => Element.isItemOf name k.element) =
      p.created k table s template := List.filter_eq_self.2 fun _ hc => isItemOf_of_mem_created hk hc
  unfold rekeyed
  by_cases ht : e.1 = k.element
  · have hi : Element.isItemOf e.1 k.element = false := by
      rw [ht]
      exact template_not_itemOf k.element
    rw [if_neg (by rw [hi]; decide), if_pos ht, if_pos ht, List.map_append, List.map_map, List.filter_append]
    simp [Function.comp_def, hcreated, hi]
  · by_cases hi : Element.isItemOf e.1 k.element
    · simp [hi, ht]
    · simp [hi, ht]

/-- **The items that the table of a rebuilt list names are those that were made.** -/
theorem items_rekey (hk : k.isTemplate) (hm : k.element ∈ table.names) (ds : List Dependency) :
    (rekey table k.element (p.created k table s template) ds).names.filter
      (fun name => Element.isItemOf name k.element) = p.created k table s template := by
  obtain ⟨v, he⟩ := Table.mem_names.1 hm
  obtain ⟨pre, post, hes, hpre, hpost⟩ := Table.exists_append he
  have hnone : ∀ es : List (String × List Dependency), (∀ e ∈ es, e.1 ≠ k.element) →
      es.flatMap (fun e => if e.1 = k.element then p.created k table s template else []) = [] := fun es h =>
    List.flatMap_eq_nil_iff.2 fun e he => if_neg (h e he)
  unfold Table.names
  rw [entries_rekey_created p table s template hk ds, List.map_flatMap, List.filter_flatMap]
  simp only [names_rekeyed hk]
  rw [hes, List.flatMap_append, List.flatMap_cons, if_pos rfl, hnone pre hpre, hnone post hpost, List.nil_append,
    List.append_nil]

end

/-- The table of a pass has changed in nothing but entries of items, whose templates it names. -/
structure Rekeys (p : Pass S) (table : DependencyTable) (destroyed : List String) : Prop where
  only : ∀ e ∈ table.entries, e ∈ p.dependents.entries ∨ ∃ t ∈ p.dependents.names, Element.isItemOf e.1 t
  kept : ∀ e ∈ p.dependents.entries, Element.isItem e.1 = false → e ∈ table.entries
  /-- What has left the table has been destroyed. -/
  gone : ∀ x ∈ p.dependents.names, x ∈ table.names ∨ x ∈ destroyed

theorem Change.rekeys {p : Pass S} {e : String × List Dependency} {d : Dependency} {st : State S} {s : S}
    {table : DependencyTable} {destroyed : List String} (h : p.Change (p.key e.1) e.2 st d s table destroyed)
    (he : e ∈ p.dependents.entries) (hI : p.Rekeys st.table st.destroyed) : p.Rekeys table destroyed := by
  cases h with
  | owned _ => exact hI
  | text _ _ _ => exact hI
  | visible _ => exact hI
  | style _ => exact hI
  | @list template hr =>
    have hentries := entries_rekey_created p st.table st.surface template hr.isTemplate e.2
    unfold created at hentries
    have hstays : ∀ e' ∈ st.table.entries, Element.isItemOf e'.1 e.1 = false →
        e' ∈ (rekey st.table (p.key e.1).element ((p.refilled (p.key e.1) st.table st.surface template
          (ListRegion.items p.value)).2.1.map (·.element)) e.2).entries := fun e' he' hnot => by
      rw [hentries]
      exact List.mem_flatMap.2 ⟨e', he', mem_rekeyed.2 ⟨hnot, .inl rfl⟩⟩
    refine ⟨fun e' he' => ?_, fun e' he' hnot => hstays e' (hI.kept e' he' hnot) ?_, fun x hx => ?_⟩
    · rw [hentries] at he'
      obtain ⟨a, ha, hm⟩ := List.mem_flatMap.1 he'
      rcases (mem_rekeyed.1 hm).2 with rfl | ⟨-, c, hc, rfl⟩
      · exact hI.only e' ha
      · exact .inr ⟨e.1, List.mem_map_of_mem he, isItemOf_of_mem_created hr.isTemplate hc⟩
    · exact Element.isItemOf_eq_false hnot e.1
    · rcases hI.gone x hx with hx | hx
      · cases hi : Element.isItemOf x e.1 with
        | true => exact .inr (List.mem_append_right _ (List.mem_filter.2 ⟨hx, hi⟩))
        | false =>
          obtain ⟨v, hv⟩ := Table.mem_names.1 hx
          exact .inl (Table.mem_names.2 ⟨v, hstays _ hv hi⟩)
      · exact .inr (List.mem_append_left _ hx)

theorem rekeys_run (p : Pass S) (s : S) :
    (∀ e left st, p.At s e left st → p.Rekeys st.table st.destroyed) ∧
      p.Rekeys (p.run s).table (p.run s).destroyed :=
  run_induction (I := fun _ table destroyed => p.Rekeys table destroyed)
    ⟨fun _ he => .inl he, fun _ he _ => he, fun _ hx => .inl hx⟩
    fun _ _ _ _ _ hst hI hok => (change_of_applyOne hok).rekeys hst.mem hI

/-- **A pass changes nothing in a table but entries of items**, whose templates it names. -/
theorem run_table (p : Pass S) (s : S) :
    (∀ e ∈ (p.run s).table.entries, e ∈ p.dependents.entries ∨ ∃ t ∈ p.dependents.names, Element.isItemOf e.1 t) ∧
    (∀ e ∈ p.dependents.entries, Element.isItem e.1 = false → e ∈ (p.run s).table.entries) :=
  ⟨(p.rekeys_run s).2.only, (p.rekeys_run s).2.kept⟩

end BoundPage.Pass
