import BoundPage.Proofs.Write.Rekey
/-!
# What a pass makes of a table

Every list that is rebuilt takes the entries of its old items out of the table and puts those of the new ones before its
template.  An item belongs to one template, so the lists do not interfere: what the whole pass makes of the table can be
said entry by entry, from the set of the templates whose lists were rebuilt (`relists_run`).
-/
namespace BoundPage

/-- The elements of the items that are made for a value. -/
def Element.itemsFor (value template : String) : List String :=
  (List.range (ListRegion.items value).length).filterMap (Element.item? template)

theorem Element.isItemOf_of_mem_itemsFor {value template c : String} (h : c ∈ itemsFor value template) :
    isItemOf c template := by
  obtain ⟨i, -, hi⟩ := List.mem_filterMap.1 h
  exact isItemOf_item? hi

namespace Pass
open RenderTarget

/-! ## Rebuilt lists in a table -/

/-- What becomes of an entry when the lists of some templates are rebuilt: an item of one of them is dropped, and the
new items stand before their template, with its dependencies. -/
def relisted (value : String) (rebuilt : List String) (e : String × List Dependency) :
    List (String × List Dependency) :=
  if rebuilt.any (Element.isItemOf e.1) then []
  else if e.1 ∈ rebuilt then (Element.itemsFor value e.1).map (fun c => (c, e.2)) ++ [e]
  else [e]

section

variable {value : String} {rebuilt rebuilt' : List String} {e : String × List Dependency}

theorem flatMap_relisted_nil (value : String) (es : List (String × List Dependency)) :
    es.flatMap (relisted value []) = es := List.flatMap_singleton' es

theorem any_itemOf_of_isTemplate {t : String} (ht : Element.isTemplate t) (rebuilt : List String) :
    rebuilt.any (Element.isItemOf t) = false :=
  List.any_eq_false.2 fun t _ => Bool.eq_false_iff.1 (Element.isItemOf_eq_false (Element.isItem_of_isTemplate ht) t)

/-- The new items of a list stay unless the list is rebuilt again. -/
theorem relisted_item {t c : String} (hc : c ∈ Element.itemsFor value t) (h : ∀ t ∈ rebuilt, Element.isTemplate t)
    (ds : List Dependency) : relisted value rebuilt (c, ds) = if t ∈ rebuilt then [] else [(c, ds)] := by
  have hitem := Element.isItemOf_of_mem_itemsFor hc
  have hany : rebuilt.any (Element.isItemOf c) ↔ t ∈ rebuilt := by
    rw [List.any_eq_true]
    refine ⟨fun ⟨t', ht', hitem'⟩ => ?_, fun ht => ⟨t, ht, hitem⟩⟩
    rwa [Element.template_unique hitem hitem']
  have hnot : c ∉ rebuilt := fun hm => Element.ne_of_isItemOf hitem (Element.isItem_of_isTemplate (h c hm)) rfl
  unfold relisted
  simp only [hany, hnot, if_false]

theorem flatMap_relisted_items {t : String} (h : ∀ t ∈ rebuilt, Element.isTemplate t) (ds : List Dependency) :
    ((Element.itemsFor value t).map fun c => (c, ds)).flatMap (relisted value rebuilt) =
      if t ∈ rebuilt then [] else (Element.itemsFor value t).map fun c => (c, ds) := by
  rw [List.flatMap_map, List.flatMap_congr fun c hc => relisted_item hc h ds]
  split
  · exact List.flatMap_eq_nil_iff.2 fun _ _ => rfl
  · exact List.flatMap_pure_eq_map _ _

/-- **Rebuilding lists one after the other is rebuilding them at once.** -/
theorem relisted_append (h : ∀ t ∈ rebuilt, Element.isTemplate t) (h' : ∀ t ∈ rebuilt', Element.isTemplate t)
    (e : String × List Dependency) :
    (relisted value rebuilt e).flatMap (relisted value rebuilt') = relisted value (rebuilt ++ rebuilt') e := by
  by_cases hitem : rebuilt.any (Element.isItemOf e.1)
  · unfold relisted
    rw [if_pos hitem, if_pos (by rw [List.any_append, hitem, Bool.true_or])]
    rfl
  · have hany : (rebuilt ++ rebuilt').any (Element.isItemOf e.1) = rebuilt'.any (Element.isItemOf e.1) := by
      rw [List.any_append, eq_false_of_ne_true hitem, Bool.false_or]
    by_cases hmem : e.1 ∈ rebuilt
    · -- The items that were made first are dropped if the list is rebuilt again.
      have hleft : relisted value rebuilt e = (Element.itemsFor value e.1).map (fun c => (c, e.2)) ++ [e] := by
        unfold relisted
        rw [if_neg hitem, if_pos hmem]
      have hnot := any_itemOf_of_isTemplate (h e.1 hmem) rebuilt'
      rw [hleft, List.flatMap_append, flatMap_relisted_items h', List.flatMap_singleton]
      unfold relisted
      rw [hany, hnot, if_pos (List.mem_append_left _ hmem)]
      simp only [Bool.false_eq_true, if_false]
      split
      · rfl
      · rfl
    · have hleft : relisted value rebuilt e = [e] := by
        unfold relisted
        rw [if_neg hitem, if_neg hmem]
      rw [hleft, List.flatMap_singleton]
      unfold relisted
      rw [hany]
      simp only [List.mem_append, hmem, false_or]

theorem flatMap_relisted_append (h : ∀ t ∈ rebuilt, Element.isTemplate t)
    (h' : ∀ t ∈ rebuilt', Element.isTemplate t) (es : List (String × List Dependency)) :
    (es.flatMap (relisted value rebuilt)).flatMap (relisted value rebuilt') =
      es.flatMap (relisted value (rebuilt ++ rebuilt')) := by
  rw [List.flatMap_assoc]
  exact List.flatMap_congr fun e _ => relisted_append h h' e

/-- The entry of a template stays, whichever lists are rebuilt. -/
theorem mem_flatMap_relisted {es : List (String × List Dependency)} {t : String} {ds : List Dependency}
    (ht : Element.isTemplate t) : (t, ds) ∈ es.flatMap (relisted value rebuilt) ↔ (t, ds) ∈ es := by
  constructor
  · intro h
    obtain ⟨e, he, hm⟩ := List.mem_flatMap.1 h
    unfold relisted at hm
    split at hm
    · cases hm
    · split at hm
      · rcases List.mem_append.1 hm with hm | hm
        · obtain ⟨c, hc, hce⟩ := List.mem_map.1 hm
          obtain ⟨rfl, -⟩ := Prod.mk.inj hce
          exact absurd rfl (Element.ne_of_isItemOf (Element.isItemOf_of_mem_itemsFor hc) (Element.isItem_of_isTemplate ht))
        · rw [List.mem_singleton.1 hm]
          exact he
      · rw [List.mem_singleton.1 hm]
        exact he
  · intro h
    refine List.mem_flatMap.2 ⟨(t, ds), h, ?_⟩
    unfold relisted
    simp only [any_itemOf_of_isTemplate ht rebuilt, Bool.false_eq_true, if_false]
    split
    · exact List.mem_append_right _ (List.mem_singleton_self _)
    · exact List.mem_singleton_self _

end

/-! ## Dependency by dependency -/

variable {S : Type} [RenderTarget S] {p : Pass S} {k : NodeKey} {ds : List Dependency} {d : Dependency}
  {st st' : State S} {s : S} {table : DependencyTable} {destroyed : List String}

theorem created_eq_itemsFor (hk : k.isTemplate) (template : Nat) :
    p.created k table s template = Element.itemsFor p.value k.element := by
  have hitems : (p.created k table s template).map some = _ := created_eq hk
  have h := congrArg (List.filterMap id) hitems
  rw [List.filterMap_map, List.filterMap_map] at h
  exact (List.filterMap_some).symm.trans h

/-- **A dependency rebuilds a list in the table, or leaves the table as it is.** -/
theorem Change.entries (h : p.Change k ds st d s table destroyed)
    (hds : k.isTemplate → ∀ x, (k.element, x) ∈ st.table.entries → x = ds) :
    ∃ rebuilt : List String, (∀ t, t ∈ rebuilt ↔ t = k.element ∧ d = .value ∧ ∃ n, p.Rebuilds k st.surface n) ∧
      table.entries = st.table.entries.flatMap (relisted p.value rebuilt) := by
  have hkept : (d = .value → ∀ n, ¬ p.Rebuilds k st.surface n) → table = st.table →
      ∃ rebuilt : List String, (∀ t, t ∈ rebuilt ↔ t = k.element ∧ d = .value ∧ ∃ n, p.Rebuilds k st.surface n) ∧
        table.entries = st.table.entries.flatMap (relisted p.value rebuilt) := by
    rintro hnot rfl
    refine ⟨[], fun t => iff_of_false List.not_mem_nil ?_, (flatMap_relisted_nil _ _).symm⟩
    rintro ⟨-, hd, n, hr⟩
    exact hnot hd n hr
  cases h with
  | owned ho => exact hkept (fun _ n hr => Bool.false_ne_true (hr.notOwned.symm.trans ho)) rfl
  | text _ hplain _ => exact hkept (fun _ n hr => Bool.false_ne_true (hplain.symm.trans hr.isTemplate)) rfl
  | visible _ => exact hkept (fun hd => by cases hd) rfl
  | style _ => exact hkept (fun hd => by cases hd) rfl
  | @list n hr =>
    refine ⟨[k.element], fun t => ?_, ?_⟩
    · rw [List.mem_singleton]
      exact ⟨fun ht => ⟨ht, rfl, n, hr⟩, And.left⟩
    · have hcreated : p.created k st.table st.surface n = _ := created_eq_itemsFor hr.isTemplate n
      have hentries := entries_rekey_created p st.table st.surface n hr.isTemplate ds
      rw [hcreated] at hentries
      unfold created at hcreated
      rw [hcreated, hentries]
      refine List.flatMap_congr fun e he => ?_
      unfold rekeyed relisted
      simp only [List.any_cons, List.any_nil, Bool.or_false, List.mem_singleton]
      split
      · rfl
      · split
        · next ht => rw [ht, hds hr.isTemplate e.2 (ht ▸ he)]
        · rfl

/-- One of some dependencies of a node rebuilds its list. -/
def RebuiltIn (p : Pass S) (k : NodeKey) (ds left : List Dependency) (st : State S) : Prop :=
  ∃ before d rest, left = before ++ d :: rest ∧ d = .value ∧ ∃ n, p.Rebuilds k (p.applyEach k ds before st).surface n

theorem RebuiltIn.isTemplate {left : List Dependency} (h : p.RebuiltIn k ds left st) : k.isTemplate := by
  obtain ⟨_, _, _, _, _, _, hr⟩ := h
  exact hr.isTemplate

theorem entries_applyEach : ∀ (left : List Dependency) (st : State S),
    (k.isTemplate → ∀ x, (k.element, x) ∈ st.table.entries → x = ds) →
    ∃ rebuilt : List String, (∀ t, t ∈ rebuilt ↔ t = k.element ∧ p.RebuiltIn k ds left st) ∧
      (p.applyEach k ds left st).table.entries = st.table.entries.flatMap (relisted p.value rebuilt)
  | [], st, _ => ⟨[], fun t => iff_of_false List.not_mem_nil fun ⟨_, _, _, _, h, _⟩ => by simp at h,
      (flatMap_relisted_nil _ _).symm⟩
  | d :: left, st, hds => by
    have hcons : p.RebuiltIn k ds (d :: left) st ↔ (d = .value ∧ ∃ n, p.Rebuilds k st.surface n) ∨
        ∃ before d' rest, left = before ++ d' :: rest ∧ d' = .value ∧
          ∃ n, p.Rebuilds k (p.applyEach k ds (d :: before) st).surface n := exists_split_cons
    rw [hcons]
    cases hone : p.applyOne k ds d st with
    | ok st' =>
      have hrest : ∀ before, p.applyEach k ds (d :: before) st = p.applyEach k ds before st' := fun before => by
        rw [applyEach, hone]
      simp only [hrest]
      obtain ⟨now, hnow, htable⟩ := (change_of_applyOne hone).entries hds
      obtain ⟨later, hlater, hend⟩ := entries_applyEach left st' fun hk x hx => by
        rw [htable, mem_flatMap_relisted hk] at hx
        exact hds hk x hx
      refine ⟨now ++ later, fun t => ?_, ?_⟩
      · rw [List.mem_append, hnow, hlater, ← and_or_left]
        rfl
      · rw [hend, htable]
        refine flatMap_relisted_append (fun t ht => ?_) (fun t ht => ?_) _
        · obtain ⟨rfl, -, n, hr⟩ := (hnow t).1 ht
          exact hr.isTemplate
        · obtain ⟨rfl, hr⟩ := (hlater t).1 ht
          exact hr.isTemplate
    | error err =>
      have hnot : ¬ (d = .value ∧ ∃ n, p.Rebuilds k st.surface n) := by
        rintro ⟨rfl, n, hr⟩
        obtain ⟨st', hok⟩ := applyOne_of_attached ds .value hr.located hr.attached
        rw [hok] at hone
        cases hone
      rw [or_iff_right hnot]
      cases err with
      | nodeNotFound missing =>
        have hrest : ∀ before, (p.applyEach k ds (d :: before) st).surface = st.surface ∧
            (p.applyEach k ds (d :: before) st).table = st.table := fun before => by
          rw [applyEach, hone]
          exact ⟨rfl, rfl⟩
        refine ⟨[], fun t => iff_of_false List.not_mem_nil ?_, ?_⟩
        · rintro ⟨-, before, -, -, -, -, n, hr⟩
          have hlocated := hr.located
          rw [(hrest before).1, locate_of_nodeNotFound hone] at hlocated
          cases hlocated
        · rw [(hrest left).2, flatMap_relisted_nil]
      | detached template =>
        have hrest : ∀ before, p.applyEach k ds (d :: before) st = p.applyEach k ds before
            ({ st with detached := st.detached ++ [template] }.say (.detachedTemplate template)) := fun before => by
          rw [applyEach, hone]
        simp only [hrest]
        exact entries_applyEach left _ hds

/-! ## Entry by entry -/

/-- The list of a template is rebuilt on a way through some entries. -/
def RebuiltOn (p : Pass S) (es : List (String × List Dependency)) (start : State S) (t : String) : Prop :=
  ∃ e left st n, e.1 = t ∧ p.Stage es start e (.value :: left) st ∧ p.Rebuilds (p.key t) st.surface n

variable {e : String × List Dependency} {es : List (String × List Dependency)} {start : State S} {t : String}

theorem RebuiltOn.isTemplate (h : p.RebuiltOn es start t) : Element.isTemplate t := by
  obtain ⟨_, _, _, _, _, _, hr⟩ := h
  exact hr.isTemplate

theorem rebuiltOn_cons : p.RebuiltOn (e :: es) start t ↔
    (t = e.1 ∧ start.destroyed.contains e.1 = false ∧ p.RebuiltIn (p.key e.1) e.2 e.2 start) ∨
      p.RebuiltOn es (p.entry start e) t := by
  constructor
  · rintro ⟨e', left, st, n, rfl, hst, hr⟩
    rcases stage_cons.1 hst with ⟨rfl, hd, before, hds, rfl⟩ | hst
    · exact .inl ⟨rfl, hd, before, .value, left, hds, rfl, n, hr⟩
    · exact .inr ⟨e', left, st, n, rfl, hst, hr⟩
  · rintro (⟨rfl, hd, before, _, left, hds, rfl, n, hr⟩ | ⟨e', left, st, n, rfl, hst, hr⟩)
    · exact ⟨e, left, _, n, rfl, stage_cons.2 (.inl ⟨rfl, hd, before, hds, rfl⟩), hr⟩
    · exact ⟨e', left, st, n, rfl, stage_cons.2 (.inr hst), hr⟩

theorem entries_entry (hds : Element.isTemplate e.1 → ∀ x, (e.1, x) ∈ start.table.entries → x = e.2) :
    ∃ rebuilt : List String, (∀ t, t ∈ rebuilt ↔
        t = e.1 ∧ start.destroyed.contains e.1 = false ∧ p.RebuiltIn (p.key e.1) e.2 e.2 start) ∧
      (p.entry start e).table.entries = start.table.entries.flatMap (relisted p.value rebuilt) := by
  rw [entry_eq]
  cases hd : start.destroyed.contains e.1 with
  | true => exact ⟨[], fun t => iff_of_false List.not_mem_nil fun h => Bool.noConfusion h.2.1,
      (flatMap_relisted_nil _ _).symm⟩
  | false =>
    obtain ⟨rebuilt, hrebuilt, htable⟩ := entries_applyEach (p := p) (k := p.key e.1) e.2 start hds
    exact ⟨rebuilt, fun t => (hrebuilt t).trans (and_congr_right fun _ => (and_iff_right rfl).symm), htable⟩

theorem entries_foldl : ∀ (es : List (String × List Dependency)) (start : State S),
    (∀ e ∈ es, Element.isTemplate e.1 → ∀ x, (e.1, x) ∈ start.table.entries → x = e.2) →
    ∃ rebuilt : List String, (∀ t, t ∈ rebuilt ↔ p.RebuiltOn es start t) ∧
      (es.foldl p.entry start).table.entries = start.table.entries.flatMap (relisted p.value rebuilt)
  | [], start, _ => by
    refine ⟨[], fun t => iff_of_false List.not_mem_nil ?_, (flatMap_relisted_nil _ _).symm⟩
    rintro ⟨e, left, st, n, -, hst, -⟩
    exact absurd hst.mem List.not_mem_nil
  | e :: es, start, hds => by
    obtain ⟨now, hnow, htable⟩ := entries_entry (p := p) (hds e List.mem_cons_self)
    obtain ⟨later, hlater, hend⟩ := entries_foldl es (p.entry start e) fun e' he' ht x hx => by
      rw [htable, mem_flatMap_relisted ht] at hx
      exact hds e' (List.mem_cons_of_mem e he') ht x hx
    refine ⟨now ++ later, fun t => ?_, ?_⟩
    · rw [List.mem_append, hnow, hlater, rebuiltOn_cons]
    · rw [List.foldl_cons, hend, htable]
      refine flatMap_relisted_append (fun t ht => ?_) (fun t ht => ((hlater t).1 ht).isTemplate) _
      obtain ⟨rfl, -, hr⟩ := (hnow t).1 ht
      exact hr.isTemplate

/-! ## The table after a pass -/

/-- The list of a template is rebuilt in a pass. -/
abbrev RebuildsList (p : Pass S) (s : S) (t : String) : Prop := p.RebuiltOn p.dependents.entries (p.begin s) t

/-- Whenever a pass comes to the value of a template, the template is missing or without a parent. -/
def FailsList (p : Pass S) (s : S) (t : String) : Prop :=
  ∀ e left st, e.1 = t → p.At s e (.value :: left) st → locate st.surface (p.key t) = none ∨
    ∃ n, locate st.surface (p.key t) = some n ∧ parent st.surface n = none

theorem FailsList.not_rebuilds (h : p.FailsList s t) : ¬ p.RebuildsList s t := by
  rintro ⟨e, left, st, n, rfl, hst, hr⟩
  rcases h e left st rfl hst with hl | ⟨m, hm, hdetached⟩
  · rw [hr.located] at hl
    cases hl
  · obtain rfl := Option.some.inj (hr.located.symm.trans hm)
    have hattached := hr.attached
    rw [hdetached] at hattached
    cases hattached

/-- **What a pass makes of its table**, where the lists of some templates are rebuilt. -/
structure Relists (p : Pass S) (s : S) (rebuilt : List String) (table : DependencyTable) : Prop where
  mem : ∀ t, t ∈ rebuilt ↔ p.RebuildsList s t
  entries : table.entries = p.dependents.entries.flatMap (relisted p.value rebuilt)
  nodup : table.names.Nodup
  /-- What is no old item stays, in its order. -/
  kept : (p.dependents.entries.filter fun e => !rebuilt.any (Element.isItemOf e.1)).Sublist table.entries
  /-- A template that is missing or detached keeps its entry, and those of its items. -/
  failed : ∀ t, Element.isTemplate t → p.FailsList s t →
    (table.entries.filter fun e => e.1 == t || Element.isItemOf e.1 t) =
      p.dependents.entries.filter fun e => e.1 == t || Element.isItemOf e.1 t

theorem filter_sublist_relisted (value : String) (rebuilt : List String) (es : List (String × List Dependency)) :
    (es.filter fun e => !rebuilt.any (Element.isItemOf e.1)).Sublist (es.flatMap (relisted value rebuilt)) := by
  induction es with
  | nil => exact .slnil
  | cons e es ih =>
    rw [List.filter_cons, List.flatMap_cons]
    cases hany : rebuilt.any (Element.isItemOf e.1) with
    | true => exact ih.trans (List.sublist_append_right _ _)
    | false =>
      have hstays : [e].Sublist (relisted value rebuilt e) := by
        unfold relisted
        simp only [hany, Bool.false_eq_true, if_false]
        split
        · exact List.sublist_append_right _ _
        · exact .refl _
      exact hstays.append ih

/-- A list that is not rebuilt is in the table as before. -/
theorem filter_relisted {value : String} {rebuilt : List String} (ht : Element.isTemplate t) (hnot : t ∉ rebuilt)
    (es : List (String × List Dependency)) :
    ((es.flatMap (relisted value rebuilt)).filter fun e => e.1 == t || Element.isItemOf e.1 t) =
      es.filter fun e => e.1 == t || Element.isItemOf e.1 t := by
  have hother : ∀ {c t'}, Element.isItemOf c t' → t' ∈ rebuilt → (c == t || Element.isItemOf c t) = false := by
    intro c t' hc ht'
    rw [Bool.or_eq_false_iff, beq_eq_false_iff_ne]
    exact ⟨Element.ne_of_isItemOf hc (Element.isItem_of_isTemplate ht),
      Bool.eq_false_iff.2 fun hitem => hnot (Element.template_unique hitem hc ▸ ht')⟩
  have hentry : ∀ e : String × List Dependency,
      ((relisted value rebuilt e).filter fun e => e.1 == t || Element.isItemOf e.1 t) =
        [e].filter fun e => e.1 == t || Element.isItemOf e.1 t := by
    intro e
    unfold relisted
    split
    · next hany =>
      obtain ⟨t', ht', hitem⟩ := List.any_eq_true.1 hany
      rw [List.filter_cons_of_neg (by rw [hother hitem ht']; decide)]
    · split
      · next hmem =>
        rw [List.filter_append, List.filter_eq_nil_iff.2 fun x hx => ?_, List.nil_append]
        obtain ⟨c, hc, rfl⟩ := List.mem_map.1 hx
        rw [hother (Element.isItemOf_of_mem_itemsFor hc) hmem]
        decide
      · rfl
  rw [List.filter_flatMap, List.flatMap_congr fun e _ => hentry e, ← List.filter_flatMap, List.flatMap_singleton']

theorem relisted_congr {value : String} {rebuilt rebuilt' : List String} (h : ∀ t, t ∈ rebuilt ↔ t ∈ rebuilt')
    (e : String × List Dependency) : relisted value rebuilt e = relisted value rebuilt' e := by
  have hany : rebuilt.any (Element.isItemOf e.1) = rebuilt'.any (Element.isItemOf e.1) := by
    rw [Bool.eq_iff_iff, List.any_eq_true, List.any_eq_true]
    exact exists_congr fun t => and_congr_left fun _ => h t
  unfold relisted
  simp only [hany, h]

/-- **The table after a pass is the old one with the rebuilt lists in it.** -/
theorem relists_run (p : Pass S) (s : S) : ∃ rebuilt, p.Relists s rebuilt (p.run s).table := by
  obtain ⟨rebuilt, hmem, hentries⟩ := entries_foldl (p := p) p.dependents.entries (p.begin s) fun e he _ x hx =>
    congrArg Prod.snd (List.inj_on_of_nodup_map p.dependents.nodup hx he rfl)
  rw [← run_eq] at hentries
  refine ⟨rebuilt, hmem, hentries, (p.run s).table.nodup, ?_, fun t ht hfails => ?_⟩
  · rw [hentries]
    exact filter_sublist_relisted _ _ _
  · rw [hentries]
    exact filter_relisted ht (fun h => hfails.not_rebuilds ((hmem t).1 h)) p.dependents.entries

/-- **Rebuilding the same lists for the same value leaves the table as it is.** -/
theorem Relists.again {rebuilt : List String} (h : p.Relists s rebuilt table) {p' : Pass S} {s' : S}
    (hvalue : p'.value = p.value) (htable : p'.dependents = table)
    (hmem : ∀ t, p'.RebuildsList s' t → t ∈ rebuilt) : (p'.run s').table = table := by
  obtain ⟨rebuilt', h'⟩ := relists_run p' s'
  refine Table.ext ?_
  rw [h'.entries, htable, hvalue, h.entries, flatMap_relisted_append (fun t ht => ((h.mem t).1 ht).isTemplate)
    fun t ht => ((h'.mem t).1 ht).isTemplate]
  refine List.flatMap_congr fun e _ => relisted_congr (fun t => ?_) e
  rw [List.mem_append]
  exact or_iff_left_of_imp fun ht => hmem t ((h'.mem t).1 ht)

end Pass
end BoundPage
