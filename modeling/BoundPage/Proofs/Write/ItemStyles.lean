import BoundPage.Proofs.Surface.RowItems
import BoundPage.Proofs.Write.PageActs
import BoundPage.Proofs.Write.Since
import BoundPage.Proofs.Write.Styling
/-!
# The styles of list items

A new item has the styles that its template has at that moment (`Clones`).  Until the end of the pass no dependency
styles it, since the items that the table named at the beginning have been destroyed by then; only showing or hiding a
node beside it may space it anew (`Makes.at_end`).  What a template has at that moment is what its style dependencies
before the value declare (`PlainStyles.looks_template`).
-/
namespace BoundPage
open RenderTarget

namespace Surface

variable {s t : Surface} {template : Slot} {k key : NodeKey} {property : String} {count : Nat}

theorem looks_of_own {m : Slot} (h : (t.node m).own = (s.node m).own) : t.looks m = s.looks m := by
  unfold looks
  rw [Node.styles_eq h]

theorem looks_makeItem (hs : s.Linked) (hl : (s.node template).live) (hproperty : property ≠ "display")
    (key : NodeKey) (placeholder item : String) :
    (ListRegion.makeItem s template key placeholder item).looks (s.copy template (s.node template).parent).1 property =
      s.looks template property := by
  have hc := copies_copy hs hl
  rw [makeItem_eq]
  generalize (s.copy template (s.node template).parent).1 = h at hc ⊢
  generalize (s.copy template (s.node template).parent).2 = u at hc ⊢
  have hshown : (u.shownAs h key.text).looks h property = (u.modify h fun n => { n with id := some key.text }).looks h
      property := (restyled_setStyle _ h "display" none false).entry h property fun hq => hproperty hq.2
  have hnamed : (u.modify h fun n => { n with id := some key.text }).looks h = u.looks h := by
    unfold looks
    rw [node_modify]
    split <;> rfl
  unfold looks at hshown hnamed ⊢
  rw [styles_dress, hshown, hnamed, Node.styles_eq hc.own_top]

/-- **Items of a template have been made**: what was there has stayed as it was, and the new children of its parent have
the data-ids of items and the styles of the template. -/
structure Clones (s : Surface) (template : Slot) (k : NodeKey) (count : Nat) (t : Surface) : Prop where
  linked : t.Linked
  kept : ∀ m, (s.node m).live →
    (t.node m).live ∧ (t.node m).own = (s.node m).own ∧ (t.node m).parent = (s.node m).parent
  /-- A template that has been removed has no items. -/
  source : ∀ m, (t.node m).live → (s.node m).live = false → (s.node template).live
  made : ∀ m, (t.node m).live → (s.node m).live = false → (t.node m).parent = (s.node template).parent →
    (∃ j < count, ∃ key, k.item? j = some key ∧ (t.node m).id = some key.text) ∧
      ∀ property, property ≠ "display" → t.looks m property = s.looks template property

theorem Clones.refl (hs : s.Linked) (template : Slot) (k : NodeKey) : s.Clones template k 0 s where
  linked := hs
  kept _ hm := ⟨hm, rfl, rfl⟩
  source _ hm hd := absurd (hm.symm.trans hd) (by decide)
  made _ hm hd := absurd (hm.symm.trans hd) (by decide)

theorem Clones.next_of_live (h : s.Clones template k count t) (hs : s.Linked) (hl : (s.node template).live)
    (hkey : k.item? count = some key) (placeholder item : String) :
    s.Clones template k (count + 1) (ListRegion.makeItem t template key placeholder item) := by
  obtain ⟨htl, htown, htparent⟩ := h.kept template hl
  have hm := makesItem key placeholder item h.linked htl
  refine ⟨hm.linked, fun m hml => ?_, fun _ _ _ => hl, fun m hml hms hmp => ?_⟩
  · obtain ⟨h1, h2, h3⟩ := h.kept m hml
    exact ⟨hm.live h1, (hm.own h1).trans h2, (hm.parent_eq h1).trans h3⟩
  · by_cases hmt : (t.node m).live
    · obtain ⟨⟨j, hj, key', hkey', hid⟩, hold⟩ := h.made m hmt hms ((hm.parent_eq hmt).symm.trans hmp)
      refine ⟨⟨j, Nat.lt_succ_of_lt hj, key', hkey', (Node.id_eq (hm.own hmt)).trans hid⟩, fun property hproperty => ?_⟩
      rw [looks_of_own (hm.own hmt), hold property hproperty]
    · -- Only the top of the new item has a parent that was there before.
      obtain rfl : m = (t.copy template (t.node template).parent).1 := by
        rcases (hm.below_of_new hml (by simpa using hmt)).cases_tail with he | ⟨b, hb, hbm⟩
        · exact he
        · have hparent := hmp.symm.trans (hm.linked.child hbm).2.2
          have hnew := hm.new_of_below hb
          rw [(h.kept b (hs.parent_live hparent)).1] at hnew
          cases hnew
      refine ⟨⟨count, Nat.lt_succ_self count, key, hkey, hm.id_top⟩, fun property hproperty => ?_⟩
      rw [looks_makeItem h.linked htl hproperty, looks_of_own htown]

theorem Clones.next_of_dead (h : s.Clones template k count t) (hd : (s.node template).live = false) (key : NodeKey)
    (placeholder item : String) :
    s.Clones template k (count + 1) (ListRegion.makeItem t template key placeholder item) := by
  have htd : (t.node template).live = false := by
    by_contra hl
    rw [h.source template (by simpa using hl) hd] at hd
    cases hd
  obtain ⟨r, ha⟩ := makeItem_of_dead key placeholder item h.linked htd
  refine ⟨ha.linked, fun m hm => ?_, fun m hm => h.source m ?_, fun m hm hms => ?_⟩
  · rw [ha.node (h.kept m hm).1]
    exact h.kept m hm
  · rwa [ha.live] at hm
  · rw [ha.live] at hm
    rw [h.source m hm hms] at hd
    cases hd

theorem clones_makeItems (hk : k.isTemplate) (hs : s.Linked) (template : Slot) (placeholder : String)
    (items : List String) :
    s.Clones template k items.length (ListRegion.makeItems s template k placeholder 0 items).1 := by
  have h := ListRegion.makeItems_induction (I := fun count t => s.Clones template k count t) hk template placeholder
    items 0 s (fun t j item key _ hkey ht => ?_) (.refl hs template k)
  · rw [Nat.zero_add] at h
    exact h
  · cases hl : (s.node template).live with
    | true => exact ht.next_of_live hs hl hkey placeholder item
    | false => exact ht.next_of_dead hl key placeholder item

end Surface

namespace Act

/-- The parameter stands for the property of its name and for nothing else. -/
def IsPlain (parameter : String) : Prop :=
  ∀ value important, ofParameter parameter value important = .plain ⟨parameter, value, important⟩

theorem IsPlain.mem_properties {parameter property : String} (h : IsPlain parameter) :
    property ∈ properties parameter ↔ property = parameter := by
  unfold properties
  rw [h]
  simp [edited]

end Act

/-- The entry that a value leaves of a property; an empty value clears it. -/
def StyleValue.entry? (v : StyleValue) : Option StyleEntry :=
  (v.text.filter fun text => !text.isEmpty).map fun text => ⟨text, v.important⟩

namespace Pass

variable {p : Pass Surface} {s t : Surface} {k : NodeKey} {ds : List Dependency} {st st' : State Surface}
  {d : Dependency} {n : Slot} {property : String}

/-! ## What a style dependency leaves -/

def Effect.entry? : Effect → Option StyleEntry
  | .give v => v.entry?
  | .zero => some ⟨zeroWidth, false⟩

theorem Call.looks_run (hp : p.effector = inlineStyles) {c : Call} (hplain : Act.IsPlain c.parameter)
    (hn : c.node < s.size) (n : Slot) (property : String) : (c.run p s).looks n property =
      if c.node = n ∧ c.parameter = property then c.effect.entry? else s.looks n property := by
  by_cases hc : c.node = n
  · subst hc
    rw [if_congr (and_iff_right rfl) rfl rfl]
    obtain ⟨n, parameter, effect⟩ := c
    cases effect with
    | zero => exact Surface.looks_setStyle hn ⟨parameter, some zeroWidth, false⟩
    | give v =>
      rw [Call.run_give hp, hplain]
      exact Surface.looks_setStyle hn ⟨parameter, v.text, v.important⟩
  · rw [if_neg fun h => hc h.1]
    exact (Call.restyled_run hp s c).entry n property fun h => hc h.1.symm

/-- **The last call for a property says what it is.** -/
theorem looks_foldl_calls (hp : p.effector = inlineStyles) (n : Slot) (property : String) :
    ∀ (calls : List Call) (s : Surface), (∀ c ∈ calls, Act.IsPlain c.parameter ∧ c.node < s.size) →
      (calls.foldl (Call.run p) s).looks n property =
        (lastEffect? calls n property).elim (s.looks n property) Effect.entry?
  | [], _, _ => rfl
  | c :: calls, s, h => by
    obtain ⟨hplain, hn⟩ := h c List.mem_cons_self
    have hone : lastEffect? [c] n property = if c.node = n ∧ c.parameter = property then some c.effect else none := by
      unfold lastEffect?
      by_cases hc : c.node = n ∧ c.parameter = property
      · rw [if_pos hc, List.filter_cons_of_pos (by simpa using hc)]
        rfl
      · rw [if_neg hc, List.filter_cons_of_neg (by simpa using hc)]
        rfl
    rw [List.foldl_cons, looks_foldl_calls hp n property calls (c.run p s) fun c' hc' => by
        rw [(Call.restyled_run hp s c).size]
        exact h c' (List.mem_cons_of_mem c hc'),
      ← List.singleton_append, lastEffect?_append, hone, Call.looks_run hp hplain hn]
    cases lastEffect? calls n property with
    | some effect => rfl
    | none => split <;> rfl

/-- The value that a style dependency declares for a parameter, for the written text. -/
def declared? (p : Pass Surface) (condition : Option String) (style : StyleParameter) : Option StyleEntry :=
  if condition = some p.value then style.value.entry? else style.fallback.bind StyleValue.entry?

/-- **A style dependency gives its node what it declares**, unless an earlier one has applied the parameter. -/
theorem looks_of_style (hp : p.effector = inlineStyles) {condition : Option String}
    {parameters : Table StyleParameter} {style : StyleParameter} (hl : locate st.surface k = some n)
    (hplain : ∀ parameter ∈ parameters.names, Act.IsPlain parameter) (hget : parameters.get? property = some style)
    (hfallback : style.fallback.isSome) (hedited : (k.element, property) ∉ st.edited)
    (h : p.applyOne k ds (.style condition parameters) st = .ok st') :
    st'.surface.looks n property = p.declared? condition style := by
  rw [surface_of_style h, looks_foldl_calls hp n property _ _ fun c hc => ?_, lastEffect?_callsOf hl,
    if_neg (by simpa using hedited), prevailing?, matching, styled_style, hget]
  · obtain ⟨v, hv⟩ := Option.isSome_iff_exists.1 hfallback
    unfold declared? resetEffect
    rw [hv]
    by_cases hc : condition = some p.value
    · simp [hc, Effect.entry?]
    · simp [hc, hv, Effect.entry?]
  · have hnode := node_of_mem_callsOf hc
    rw [callsOf_style hl] at hc
    obtain ⟨-, style', hstyle, -⟩ := mem_styleCalls.1 hc
    exact ⟨hplain _ (Table.mem_names_iff_isSome.2 (by rw [hstyle]; rfl)),
      Surface.lt_size_of_live _ (ListRegion.locate_live hnode).1⟩

/-! ## What a dependency leaves of a node -/

theorem own_cleared {table : DependencyTable} (hl : ((p.cleared k table s).node n).live) :
    ((p.cleared k table s).node n).own = (s.node n).own ∧
      ((p.cleared k table s).node n).parent = (s.node n).parent :=
  (ListRegion.own_destroyAll (p.staleKeys k table) hl).2

theorem clones_refilled (hs : st.surface.Linked) (hk : k.isTemplate) (template : Slot) :
    (p.cleared k st.table st.surface).Clones template k (ListRegion.items p.value).length
      (p.refilled k st.table st.surface template (ListRegion.items p.value)).1 :=
  Surface.clones_makeItems hk (ListRegion.linked_destroyAll hs _) template _ _

/-- The node does not go with the old items of a list that the dependency rebuilds. -/
def Spares (p : Pass Surface) (k : NodeKey) (st : State Surface) (n : Slot) (d : Dependency) : Prop :=
  d = .value → ∀ template, p.Rebuilds k st.surface template → ((p.cleared k st.table st.surface).node n).live

/-- **A dependency is about a property of a node**: it styles the node, or it shows or hides the node or one beside
it. -/
inductive Touches (p : Pass Surface) (k : NodeKey) (st : State Surface) (n : Slot) (property : String) :
    Dependency → Prop
  | style {condition : Option String} {parameters : Table StyleParameter} {parameter : String}
    (located : locate st.surface k = some n) (mem : parameter ∈ parameters.names)
    (about : property ∈ Act.properties parameter) : Touches p k st n property (.style condition parameters)
  | display {condition : Condition} (located : locate st.surface k = some n) (about : property = "display") :
    Touches p k st n property (.visible condition)
  | spacing {condition : Condition} {m parent : Slot} (located : locate st.surface k = some m)
    (beside : (st.surface.node m).parent = some parent ∧ (st.surface.node n).parent = some parent)
    (about : st.surface.spacingProperty? parent = some property) : Touches p k st n property (.visible condition)

/-- **A node that a dependency neither removes nor is about stays as it is.** -/
theorem Change.keeps_node (hp : p.effector = inlineStyles) (hs : st.surface.Linked) {table : DependencyTable}
    {destroyed : List String} (h : p.Change k ds st d t table destroyed) (hspared : p.Spares k st n d)
    (hl : (t.node n).live) :
    (t.node n).id = (st.surface.node n).id ∧ (t.node n).parent = (st.surface.node n).parent ∧
      ∀ property, ¬ p.Touches k st n property d → t.looks n property = st.surface.looks n property := by
  cases h with
  | owned _ => exact ⟨rfl, rfl, fun _ _ => rfl⟩
  | @text m _ _ _ =>
    have hnode := (Surface.node_setText hl).2
    change (setText st.surface m p.value).node n = _ at hnode
    exact ⟨by rw [hnode], by rw [hnode], fun property _ => congrFun (Surface.looks_setText hl) property⟩
  | @list template hr =>
    have hcleared := hspared rfl template hr
    obtain ⟨hown, hparent⟩ := own_cleared hcleared
    obtain ⟨-, hown', hparent'⟩ := (clones_refilled hs hr.isTemplate template).kept n hcleared
    have hall := hown'.trans hown
    exact ⟨Node.id_eq hall, hparent'.trans hparent, fun property _ => by rw [Surface.looks_of_own hall]⟩
  | @visible m condition hm =>
    have hr := restyled_visible st.surface m (p.displayOf st.surface m condition)
    refine ⟨by rw [hr.node n], by rw [hr.node n], fun property hnot => hr.entry n property ?_⟩
    rintro (⟨rfl, hdisplay⟩ | ⟨parent, hparent, hchild, hrule⟩)
    · exact hnot (.display hm hdisplay)
    · exact hnot (.spacing hm ⟨hparent, (hs.child hchild).2.2⟩ hrule)
  | @style m condition parameters hm =>
    have hr := restyled_parameters hp k.element m (condition == some p.value)
      (fun q => ∃ parameter ∈ parameters.names, q ∈ Act.properties parameter) parameters.entries st
      fun x hx q hq => ⟨x.1, List.mem_map_of_mem hx, hq⟩
    refine ⟨by rw [hr.node n], by rw [hr.node n], fun property hnot => hr.entry n property ?_⟩
    rintro ⟨rfl, parameter, hmem, habout⟩
    exact hnot (.style hm hmem habout)

/-! ## Items -/

variable {e : String × List Dependency} {left : List Dependency} {template parent item : Slot}

/-- **An item is made**: its list is rebuilt, and it is a new child of the parent of the template. -/
structure Makes (p : Pass Surface) (s : Surface) (e : String × List Dependency) (left : List Dependency)
    (st : State Surface) (template parent item : Slot) : Prop where
  reached : p.At s e (.value :: left) st
  rebuilds : p.Rebuilds (p.key e.1) st.surface template
  attached : (st.surface.node template).parent = some parent
  fresh : ((p.cleared (p.key e.1) st.table st.surface).node item).live = false
  live : ((p.refilled (p.key e.1) st.table st.surface template (ListRegion.items p.value)).1.node item).live
  under : ((p.refilled (p.key e.1) st.table st.surface template (ListRegion.items p.value)).1.node item).parent =
    some parent

/-- **A node stays on the page** until the end of the pass: nothing that is carried out behind a stage removes it. -/
def Lasts (p : Pass Surface) (s : Surface) (e : String × List Dependency) (left : List Dependency) (n : Slot) : Prop :=
  ∀ e' d left' st st', p.Since s e left e' (d :: left') st → p.applyOne (p.key e'.1) e'.2 d st = .ok st' →
    p.Spares (p.key e'.1) st n d ∧ (st'.surface.node n).live

/-- **The children of a parent are spaced anew** by the property, since one of them is shown or hidden. -/
def Respaces (p : Pass Surface) (s : Surface) (e : String × List Dependency) (left : List Dependency) (parent : Slot)
    (property : String) : Prop :=
  ∃ e' condition left' st m, p.Since s e left e' (.visible condition :: left') st ∧
    locate st.surface (p.key e'.1) = some m ∧ (st.surface.node m).parent = some parent ∧
      st.surface.spacingProperty? parent = some property

theorem Respaces.of_suffix {behind : List Dependency} (hleft : left <:+ behind) (hbehind : behind <:+ e.2)
    (h : p.Respaces s e left parent property) : p.Respaces s e behind parent property := by
  obtain ⟨e', condition, left', st, m, hst, h⟩ := h
  exact ⟨e', condition, left', st, m, hst.of_suffix hleft hbehind, h⟩

theorem linked_at (hp : p.effector = inlineStyles) (hs : s.Linked) {st : State Surface} (h : p.At s e left st) :
    st.surface.Linked :=
  (run_induction (I := fun t _ _ => t.Linked) hs fun _ _ _ _ _ _ hI hok =>
    (change_of_applyOne hok).linked hp hI).1 e left st h

/-- **An item has the data-id of one and the styles of its template** when it has been made. -/
theorem Makes.cloned (h : p.Makes s e left st template parent item) (hs : st.surface.Linked) :
    (∃ j < (ListRegion.items p.value).length, ∃ element, Element.item? e.1 j = some element ∧
      ((p.refilled (p.key e.1) st.table st.surface template (ListRegion.items p.value)).1.node item).id =
        some (p.key element).text) ∧
      ∀ property, property ≠ "display" →
        (p.refilled (p.key e.1) st.table st.surface template (ListRegion.items p.value)).1.looks item property =
          st.surface.looks template property := by
  have hclones := clones_refilled (p := p) hs h.rebuilds.isTemplate template
  obtain ⟨hown, hparent⟩ := own_cleared (hclones.source item h.live h.fresh)
  obtain ⟨⟨j, hj, key, hkey, hid⟩, hlooks⟩ := hclones.made item h.live h.fresh
    (h.under.trans (h.attached.symm.trans hparent.symm))
  obtain ⟨helement, hinstance⟩ := NodeKey.item?_eq_some hkey
  refine ⟨⟨j, hj, key.element, helement, hid.trans ?_⟩, fun property hproperty => ?_⟩
  · unfold Pass.key
    rw [← show key.instanceId = p.instanceId from hinstance]
  · rw [hlooks property hproperty, Surface.looks_of_own hown]

theorem Change.recreated {e' : String × List Dependency} {table : DependencyTable} {destroyed : List String}
    (h : p.Change (p.key e'.1) e'.2 st d t table destroyed) (he' : e' ∈ p.dependents.entries)
    (he : e ∈ p.dependents.entries) (hkept : e ∈ st.table.entries) {j : Nat}
    (hj : j < (ListRegion.items p.value).length) {element : String} (helement : Element.item? e.1 j = some element)
    (hmem : (element, e.2) ∈ st.table.entries) : (element, e.2) ∈ table.entries := by
  cases h with
  | owned _ => exact hmem
  | text _ _ _ => exact hmem
  | visible _ => exact hmem
  | style _ => exact hmem
  | @list found hr =>
    have hentries := entries_rekey_created p st.table st.surface found hr.isTemplate e'.2
    unfold created at hentries
    rw [hentries]
    cases hi : Element.isItemOf element e'.1 with
    | false => exact List.mem_flatMap.2 ⟨_, hmem, mem_rekeyed.2 ⟨hi, .inl rfl⟩⟩
    | true =>
      -- only the template of the item re-keys it, and then gives it its own dependencies once more
      obtain rfl : e' = e := List.inj_on_of_nodup_map p.dependents.nodup he' he
        (Element.template_unique hi (Element.isItemOf_item? helement))
      refine List.mem_flatMap.2 ⟨e', hkept, mem_rekeyed.2 ⟨template_not_itemOf e'.1, .inr ⟨rfl, element, ?_, rfl⟩⟩⟩
      exact mem_created hr.isTemplate hj helement

/-- **Behind the making of an item**: it stands where it was made, as the element that it was made for, with the styles
it was made with, and no entry is left that could be for it. -/
structure Stands (p : Pass Surface) (s : Surface) (e : String × List Dependency) (left : List Dependency)
    (parent item : Slot) (element : String) (styles : Looks) (t : Surface) (table : DependencyTable)
    (destroyed : List String) : Prop where
  linked : t.Linked
  id : (t.node item).id = some (p.key element).text
  under : (t.node item).parent = some parent
  looks : ∀ property, property ≠ "display" → ¬ p.Respaces s e left parent property →
    t.looks item property = styles property
  named : (element, e.2) ∈ table.entries
  rekeys : p.Rekeys table destroyed
  gone : ∀ x ∈ p.dependents.names, Element.isItemOf x e.1 → x ∈ destroyed

variable {element : String} {styles : Looks} {j : Nat}

theorem Stands.next (hp : p.effector = inlineStyles) (hlasts : p.Lasts s e left item) (he : e ∈ p.dependents.entries)
    (htemplate : Element.isTemplate e.1) (hj : j < (ListRegion.items p.value).length)
    (helement : Element.item? e.1 j = some element) {e' : String × List Dependency} {left' : List Dependency}
    (hst : p.Since s e left e' (d :: left') st)
    (h : p.Stands s e left parent item element styles st.surface st.table st.destroyed)
    (hok : p.applyOne (p.key e'.1) e'.2 d st = .ok st') :
    p.Stands s e left parent item element styles st'.surface st'.table st'.destroyed := by
  have hch := change_of_applyOne hok
  obtain ⟨hspared, hlive⟩ := hlasts e' d left' st st' hst hok
  obtain ⟨hid, hparent, hlooks⟩ := hch.keeps_node hp h.linked hspared hlive
  refine {
    linked := hch.linked hp h.linked
    id := hid.trans h.id
    under := hparent.trans h.under
    looks := fun property hproperty hspacing => (hlooks property fun htouch => ?_).trans
      (h.looks property hproperty hspacing)
    named := hch.recreated hst.reached.mem he (h.rekeys.kept e he (Element.isItem_of_isTemplate htemplate)) hj helement
      h.named
    rekeys := hch.rekeys hst.reached.mem h.rekeys
    gone := fun x hx hi => hch.mem_destroyed (h.gone x hx hi) }
  cases htouch with
  | display _ about => exact hproperty about
  | @spacing condition m parent' located beside about =>
    obtain rfl := Option.some.inj (beside.2.symm.trans h.under)
    exact hspacing ⟨e', condition, left', st, m, hst, located, beside.1, about⟩
  | style located _ _ =>
    -- the entry at hand would be the item's own one, which the pass passes over
    have hname : e'.1 = element := NodeKey.text_inj_of_instance
      (Option.some.inj ((ListRegion.locate_live located).2.symm.trans h.id))
    refine hst.reached.not_destroyed (h.gone e'.1 (List.mem_map_of_mem hst.reached.mem) ?_)
    rw [hname]
    exact Element.isItemOf_item? helement

/-- **An item that lasts has an entry with the dependencies of its template, and the styles that this had** when the
item was made, but for what it is spaced by. -/
theorem Makes.at_end (hp : p.effector = inlineStyles) (hs : s.Linked)
    (h : p.Makes s e left st template parent item) (hlasts : p.Lasts s e left item) :
    (∃ element, ((p.run s).surface.node item).id = some (p.key element).text ∧
      (element, e.2) ∈ (p.run s).table.entries) ∧
    ∀ property, property ≠ "display" → ¬ p.Respaces s e left parent property →
      (p.run s).surface.looks item property = st.surface.looks template property := by
  have hlinked := linked_at hp hs h.reached
  have hrekeys := (p.rekeys_run s).1 _ _ _ h.reached
  have hkept := hrekeys.kept e h.reached.mem (Element.isItem_of_isTemplate h.rebuilds.isTemplate)
  obtain ⟨⟨j, hj, element, helement, hid⟩, hlooks⟩ := h.cloned hlinked
  -- `Stands` holds behind the value that makes the item, and every further dependency keeps it
  obtain ⟨st', hok⟩ := applyOne_of_attached e.2 .value h.rebuilds.located h.rebuilds.attached
  have hnext : p.At s e left st' := h.reached.next (by rw [h.rebuilds.located]; rfl) hok
  have hch := change_of_applyOne hok
  obtain ⟨hsurface, htable, hdestroyed⟩ := hch.rebuilt h.rebuilds
  have hend := (since_induction (I := p.Stands s e left parent item element (st.surface.looks template)) hnext {
      linked := hch.linked hp hlinked
      id := by rw [hsurface]; exact hid
      under := by rw [hsurface]; exact h.under
      looks := fun property hproperty _ => by rw [hsurface]; exact hlooks property hproperty
      named := by
        have hentries := entries_rekey_created p st.table st.surface template h.rebuilds.isTemplate e.2
        unfold created at hentries
        rw [htable, hentries]
        exact List.mem_flatMap.2 ⟨e, hkept, mem_rekeyed.2 ⟨template_not_itemOf e.1,
          .inr ⟨rfl, element, mem_created h.rebuilds.isTemplate hj helement, rfl⟩⟩⟩
      rekeys := hch.rekeys h.reached.mem hrekeys
      gone := fun x hx hi => by
        rw [hdestroyed, List.mem_append]
        exact (hrekeys.gone x hx).symm.imp id fun hx => List.mem_filter.2 ⟨hx, hi⟩ }
    fun e' d left' st st' hst hI hok =>
      hI.next hp hlasts h.reached.mem h.rebuilds.isTemplate hj helement hst hok).2
  exact ⟨⟨element, hend.id, hend.named⟩, hend.looks⟩

/-! ## Templates -/

theorem Change.alike (hp : p.effector = inlineStyles) {table : DependencyTable} {destroyed : List String}
    (h : p.Change k ds st d t table destroyed) (hd : d ≠ .value) :
    Surface.Restyled (fun _ _ => True) st.surface t := by
  cases h with
  | owned _ => exact absurd rfl hd
  | text _ _ _ => exact absurd rfl hd
  | list _ => exact absurd rfl hd
  | visible _ => exact (restyled_visible _ _ _).mono fun _ _ _ => trivial
  | style _ => exact (restyled_styleParameters hp _ _ _ _ _).mono fun _ _ _ => trivial

theorem lasts_of_valueless (hp : p.effector = inlineStyles) (hat : p.At s e left st) (hl : (st.surface.node n).live)
    (hvalue : ∀ e' d left' st', p.Since s e left e' (d :: left') st' → d ≠ .value) : p.Lasts s e left n := by
  have hnext : ∀ e' d left' st st', p.Since s e left e' (d :: left') st → (st.surface.node n).live →
      p.applyOne (p.key e'.1) e'.2 d st = .ok st' → (st'.surface.node n).live := fun e' d left' st st' hst hI hok => by
    rw [((change_of_applyOne hok).alike hp (hvalue e' d left' st hst)).sameTree.live]
    exact hI
  have hall := (since_induction (I := fun t _ _ => (t.node n).live) hat hl hnext).1
  exact fun e' d left' st st' hst hok => ⟨fun hd => absurd hd (hvalue e' d left' st hst),
    hnext e' d left' st st' hst (hall e' _ st hst) hok⟩

/-- A template that is there after a dependency of its own has not gone with its items. -/
theorem Change.spares_template (hs : st.surface.Linked) {table : DependencyTable} {destroyed : List String}
    (h : p.Change k ds st d t table destroyed) (hl : locate st.surface k = some template)
    (hlive : (t.node template).live) : p.Spares k st template d := by
  rintro rfl found hr
  obtain rfl := Option.some.inj (hr.located.symm.trans hl)
  by_contra hdead
  rw [(h.rebuilt hr).1] at hlive
  exact hdead ((clones_refilled hs hr.isTemplate found).source found hlive (by simpa using hdead))

/-- **A template is the node of its entry all the time**, from some dependencies that are left on to others. -/
def Anchored (p : Pass Surface) (s : Surface) (e : String × List Dependency) (behind left : List Dependency)
    (template : Slot) : Prop :=
  ∀ rest st, rest <:+ behind → left <:+ rest → p.At s e rest st → locate st.surface (p.key e.1) = some template

theorem anchored_of_valueless (hp : p.effector = inlineStyles) : ∀ (mid : List Dependency) {st : State Surface},
    .value ∉ mid → p.At s e (mid ++ left) st → locate st.surface (p.key e.1) = some template →
      p.Anchored s e (mid ++ left) left template
  | [], st, _, hat, hl => fun rest st' hr hr' hat' => by
    obtain rfl := hr.eq_of_length_le hr'.length_le
    rw [hat'.unique hat]
    exact hl
  | d :: mid, st, hmid, hat, hl => fun rest st' hr hr' hat' => by
    rw [List.mem_cons, not_or] at hmid
    obtain ⟨hd, hmid⟩ := hmid
    rcases List.suffix_cons_iff.1 hr with rfl | hr
    · rw [hat'.unique hat]
      exact hl
    · obtain ⟨st₁, hat₁, hstep⟩ := hat.step
      refine anchored_of_valueless hp mid hmid hat₁ ?_ rest st' hr hr' hat'
      rcases hstep with hok | hsame
      · rw [((change_of_applyOne hok).alike hp (Ne.symm hd)).locate]
        exact hl
      · rw [hsame]
        exact hl

/-- **A template keeps what its dependencies are not about**, as long as it is the node of its entry. -/
theorem Anchored.kept (hp : p.effector = inlineStyles) (hs : s.Linked) :
    ∀ {mid : List Dependency} {st₀ : State Surface},
      p.Anchored s e (mid ++ left) left template → p.At s e (mid ++ left) st₀ →
      ∃ st, p.At s e left st ∧ (st.surface.node template).parent = (st₀.surface.node template).parent ∧
        ∀ property, (∀ d rest st, d :: rest <:+ mid → p.At s e (d :: (rest ++ left)) st →
            (st.surface.node template).parent = (st₀.surface.node template).parent →
            ¬ p.Touches (p.key e.1) st template property d) →
          st.surface.looks template property = st₀.surface.looks template property
  | [], st₀, _, hat => ⟨st₀, hat, rfl, fun _ _ => rfl⟩
  | d :: mid, st₀, h, hat => by
    have hl := h _ _ List.suffix_rfl (List.suffix_append ..) hat
    obtain ⟨st₁, hat₁, hstep⟩ := hat.step
    have hrest : p.Anchored s e (mid ++ left) left template := fun rest st hr =>
      h rest st (hr.trans (List.suffix_cons ..))
    have hlive := (ListRegion.locate_live (hrest _ _ List.suffix_rfl (List.suffix_append ..) hat₁)).1
    have hlinked := linked_at hp hs hat
    have hone : (st₁.surface.node template).parent = (st₀.surface.node template).parent ∧
        ∀ property, ¬ p.Touches (p.key e.1) st₀ template property d →
          st₁.surface.looks template property = st₀.surface.looks template property := by
      rcases hstep with hok | hsame
      · have hch := change_of_applyOne hok
        exact (hch.keeps_node hp hlinked (hch.spares_template hlinked hl hlive) hlive).2
      · rw [hsame]
        exact ⟨rfl, fun _ _ => rfl⟩
    obtain ⟨st, hat', hparent, hlooks⟩ := Anchored.kept hp hs hrest hat₁
    refine ⟨st, hat', hparent.trans hone.1, fun property hnot => ?_⟩
    rw [hlooks property fun d' rest st hr ht hpar => hnot d' rest st (hr.trans (List.suffix_cons ..)) ht
      (hpar.trans hone.1), hone.2 property (hnot d mid st₀ List.suffix_rfl hat rfl)]

/-- **Style dependencies that do not meet**: their parameters are plain, have a default, and are named once. -/
structure PlainStyles (ds : List Dependency) : Prop where
  plain : ∀ d ∈ ds, ∀ parameter ∈ d.parameters, Act.IsPlain parameter ∧ parameter ≠ "display"
  once : ds.Pairwise fun d d' => ∀ parameter ∈ d.parameters, parameter ∉ d'.parameters
  fallback : ∀ condition parameters, .style condition parameters ∈ ds →
    ∀ parameter style, parameters.get? parameter = some style → style.fallback.isSome

variable {before mid : List Dependency} {condition : Option String} {parameters : Table StyleParameter}
  {style : StyleParameter}

theorem mem_parameters_of_get? (h : parameters.get? property = some style) :
    property ∈ (Dependency.style condition parameters).parameters :=
  Table.mem_names_iff_isSome.2 (by rw [h]; rfl)

theorem PlainStyles.declares (h : PlainStyles e.2) (hp : p.effector = inlineStyles)
    (hds : e.2 = before ++ .style condition parameters :: left)
    (hat : p.At s e (.style condition parameters :: left) st) (hl : locate st.surface (p.key e.1) = some n)
    (hget : parameters.get? property = some style) :
    ∃ st', p.At s e left st' ∧ (st'.surface.node n).parent = (st.surface.node n).parent ∧
      st'.surface.looks n property = p.declared? condition style := by
  have hmem : .style condition parameters ∈ e.2 := hds ▸ List.mem_append_right _ List.mem_cons_self
  have hone : p.applyOne (p.key e.1) e.2 (.style condition parameters) st = .ok _ := applyOne_style hl
  have hedited : (e.1, property) ∉ st.edited := fun hin => by
    obtain ⟨parameters', style', hmem', hget'⟩ :=
      exists_of_mem_applied ((edited_at hat hds (by rw [hl]; rfl) property).1 hin)
    obtain ⟨-, -, hbefore⟩ := List.pairwise_append.1 (hds ▸ h.once)
    exact hbefore _ hmem' _ List.mem_cons_self property (mem_parameters_of_get? hget') (mem_parameters_of_get? hget)
  refine ⟨_, hat.next (by rw [hl]; rfl) hone, ?_, ?_⟩
  · exact (restyled_styleParameters hp e.1 n (condition == some p.value) parameters.entries st).sameTree.parent n
  · exact looks_of_style hp hl (fun x hx => (h.plain _ hmem x hx).1) hget (h.fallback _ _ hmem _ _ hget) hedited hone

/-- **A style dependency of a template is not undone by those behind it.** -/
theorem PlainStyles.looks_template (h : PlainStyles e.2) (hp : p.effector = inlineStyles) (hs : s.Linked)
    (hds : e.2 = before ++ .style condition parameters :: (mid ++ left)) (hat : p.At s e left st)
    (hattached : (st.surface.node template).parent = some parent)
    (hanchored : p.Anchored s e (.style condition parameters :: (mid ++ left)) left template)
    (hget : parameters.get? property = some style)
    (hspacing : ¬ p.Respaces s e (.style condition parameters :: (mid ++ left)) parent property) :
    st.surface.looks template property = p.declared? condition style := by
  -- the style dependency gives the template its value, and what stands between it and the items leaves that there
  obtain ⟨st₀, hat₀⟩ := hat.earlier hds
  have hl := hanchored _ _ List.suffix_rfl ⟨.style condition parameters :: mid, rfl⟩ hat₀
  obtain ⟨st₁, hat₁, -, hdeclared⟩ := h.declares hp hds hat₀ hl hget
  obtain ⟨st', hat', hparent, hlooks⟩ := Anchored.kept hp hs
    (fun rest st hr => hanchored rest st (hr.trans (List.suffix_cons ..))) hat₁
  obtain rfl := hat'.unique hat
  rw [hlooks property fun d rest st hr ht hpar htouch => ?_, hdeclared]
  have hmid : d ∈ mid ++ left := List.mem_append_left _ (hr.subset List.mem_cons_self)
  have hmem : d ∈ e.2 := hds ▸ List.mem_append_right _ (List.mem_cons_of_mem _ hmid)
  obtain ⟨-, hself, -⟩ := List.pairwise_append.1 (hds ▸ h.once)
  have hname : property ∈ (Dependency.style condition parameters).parameters := mem_parameters_of_get? hget
  cases htouch with
  | @style _ _ parameter _ hparameter about =>
    obtain rfl := (h.plain _ hmem parameter hparameter).1.mem_properties.1 about
    exact (List.pairwise_cons.1 hself).1 _ hmid property hname hparameter
  | display _ about =>
    exact (h.plain _ (hds ▸ List.mem_append_right _ List.mem_cons_self) property hname).2 about
  | @spacing condition' m parent' located beside about =>
    obtain rfl := Option.some.inj (beside.2.symm.trans (hpar.trans (hparent.symm.trans hattached)))
    obtain ⟨done, rfl⟩ := hr
    exact hspacing ⟨e, condition', rest ++ left, st, m, (Since.refl ht).of_suffix
      ⟨.style condition parameters :: done, by simp⟩ ⟨before, hds.symm⟩, located, beside.1, about⟩

end Pass
end BoundPage
