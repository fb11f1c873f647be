import BoundPage.Proofs.Surface.Regions
/-!
# One element of a page

What the text and the visibility of one element depend on.  As long as only one node has the element's data-id, no
data-id is inside a template, and no spacing rule is about `display` (`Settled`), what happens to other nodes leaves the
element's node alone, if it does not remove it (`Keeps`).
-/
namespace BoundPage
namespace Surface
open RenderTarget

/-- The node has the data-id of a template. -/
def TemplateAt (s : Surface) (t : Slot) : Prop := ∃ id, (s.node t).id = some id ∧ NodeKey.isTemplateText id

instance (s : Surface) (t : Slot) : Decidable (s.TemplateAt t) :=
  decidable_of_iff ((s.node t).id.any NodeKey.isTemplateText) (Option.any_eq_true _ _)

/-- The node belongs to one of some external children. -/
def LightAt (light : String → Prop) (s : Surface) (t : Slot) : Prop :=
  ∃ key, (s.node t).externalId = some key ∧ light key

/-- **An element is settled**: one live node at most has its data-id, neither templates nor the external children that
may go into them have data-ids inside, and spacing leaves `display` alone. -/
structure Settled (id : String) (light : String → Prop) (s : Surface) : Prop where
  linked : s.Linked
  unique : ∀ {h k}, (s.node h).live → (s.node k).live → (s.node h).id = some id → (s.node k).id = some id → h = k
  bare : ∀ {t c k}, s.TemplateAt t → s.Child t c → s.Below c k → (s.node k).id = none
  light_bare : ∀ {t k}, (s.node t).live → s.LightAt light t → s.Below t k → (s.node k).id = none
  spacing : ∀ {k}, (s.node k).live → s.spacingProperty? k ≠ some "display"

/-- **Nothing has happened to the node with a data-id**, but that it may have gone. -/
def Keeps (id : String) (s t : Surface) : Prop :=
  ∀ h, (t.node h).live → (t.node h).id = some id → (s.node h).live ∧ (s.node h).id = some id ∧
    (t.node h).text = (s.node h).text ∧ style t h "display" = style s h "display"

theorem spacingProperty?_congr {s t : Surface} {j k : Slot} (h : (t.node k).attributes = (s.node j).attributes) :
    t.spacingProperty? k = s.spacingProperty? j := by
  unfold spacingProperty? Layout.spacingRule?
  show Option.map _ (Option.bind ((t.node k).attributes.get? _) _) =
    Option.map _ (Option.bind ((s.node j).attributes.get? _) _)
  rw [h]

variable {id : String} {light : String → Prop} {s t u : Surface}

theorem Keeps.refl (id : String) (s : Surface) : Keeps id s s := fun _ hl hid => ⟨hl, hid, rfl, rfl⟩

theorem Keeps.trans (h : Keeps id s t) (h' : Keeps id t u) : Keeps id s u := fun k hl hid => by
  obtain ⟨hl1, hid1, ht1, hd1⟩ := h' k hl hid
  obtain ⟨hl2, hid2, ht2, hd2⟩ := h k hl1 hid1
  exact ⟨hl2, hid2, ht1.trans ht2, hd1.trans hd2⟩

theorem Keeps.of_own (h : ∀ {k}, (t.node k).live → (t.node k).id = some id →
    (s.node k).live ∧ (t.node k).own = (s.node k).own) : Keeps id s t := fun k hl hid => by
  obtain ⟨hl', ho⟩ := h hl hid
  refine ⟨hl', (Node.id_eq ho).symm.trans hid, Node.text_eq ho, ?_⟩
  unfold style
  rw [Node.styles_eq ho]

/-! ## Less or the same -/

/-- Fewer links and fewer nodes leave an element settled. -/
theorem Settled.shrink (hs : s.Settled id light) (ht : t.Linked) (hchild : ∀ {a b}, t.Child a b → s.Child a b)
    (hnode : ∀ {k}, (t.node k).live → (s.node k).live ∧ (t.node k).id = (s.node k).id ∧
      (t.node k).externalId = (s.node k).externalId ∧ (t.node k).attributes = (s.node k).attributes) :
    t.Settled id light where
  linked := ht
  unique hh hk hid hid' := by
    obtain ⟨hh', he, -, -⟩ := hnode hh
    obtain ⟨hk', he', -, -⟩ := hnode hk
    exact hs.unique hh' hk' (he.symm.trans hid) (he'.symm.trans hid')
  bare {t' c k} htemp hc hb := by
    obtain ⟨htl, hcl, -⟩ := ht.child hc
    obtain ⟨tid, htid, htt⟩ := htemp
    have hk := hnode (ht.live_of_below hb hcl)
    rw [hk.2.1]
    exact hs.bare ⟨tid, (hnode htl).2.1.symm.trans htid, htt⟩ (hchild hc) (hb.mono fun _ _ => hchild)
  light_bare {t' k} hl hlight hb := by
    obtain ⟨key, hkey, hlk⟩ := hlight
    obtain ⟨hl', -, hext, -⟩ := hnode hl
    have hk := hnode (ht.live_of_below hb hl)
    rw [hk.2.1]
    exact hs.light_bare hl' ⟨key, hext.symm.trans hkey, hlk⟩ (hb.mono fun _ _ => hchild)
  spacing {k} hk := by
    obtain ⟨hk', -, -, ha⟩ := hnode hk
    rw [spacingProperty?_congr ha]
    exact hs.spacing hk'

theorem Settled.restyled {changed : Slot → String → Prop} (hs : s.Settled id light) (h : Restyled changed s t) :
    t.Settled id light :=
  hs.shrink (h.sameTree.linked hs.linked) h.sameTree.child_iff.1 fun {k} hk => by
    rw [h.sameTree.live] at hk
    rw [h.node]
    exact ⟨hk, rfl, rfl, rfl⟩

theorem Keeps.restyled {changed : Slot → String → Prop} (h : Restyled changed s t)
    (hn : ∀ {k}, (s.node k).live → (s.node k).id = some id → ¬ changed k "display") : Keeps id s t := fun k hl hid => by
  rw [h.sameTree.live] at hl
  rw [h.node] at hid
  refine ⟨hl, hid, ?_, h.style k "display" (hn hl hid)⟩
  rw [h.node]

theorem Settled.setText (hs : s.Settled id light) (n : Slot) (text : String) : (s.setText n text).Settled id light :=
  hs.shrink (hs.linked.setText n text) (child_setText hs.linked) fun hk => by
    obtain ⟨hl, he⟩ := node_setText hk
    rw [he]
    exact ⟨hl, rfl, rfl, rfl⟩

theorem Keeps.setText {n : Slot} (hn : (s.node n).id ≠ some id) (text : String) : Keeps id s (s.setText n text) :=
  fun k hl hid => by
    obtain ⟨hl', he⟩ := node_setText hl
    rw [he] at hid
    have hkn : k ≠ n := by
      rintro rfl
      exact hn hid
    refine ⟨hl', hid, ?_, ?_⟩
    · rw [he]
      simp [hkn]
    · unfold style
      rw [he]

theorem Settled.remove (hs : s.Settled id light) {n : Slot} (hn : (s.node n).live) : (s.remove n).Settled id light :=
  hs.shrink (hs.linked.remove hn) (child_remove hs.linked hn) fun hk => by
    have ho := own_remove hk
    exact ⟨live_of_live_remove hk, Node.id_eq ho, Node.externalId_eq ho, Node.attributes_eq ho⟩

theorem Keeps.remove (n : Slot) : Keeps id s (s.remove n) :=
  Keeps.of_own fun hk _ => ⟨live_of_live_remove hk, own_remove hk⟩

/-! ## New items -/

section

variable {template : Slot} {key : NodeKey} {placeholder item : String}

theorem TemplateAt.id_ne {a : Slot} (h : s.TemplateAt a) : (s.node a).id ≠ none := by
  obtain ⟨tid, htid, -⟩ := h
  rw [htid]
  exact Option.some_ne_none tid

/-- A template is not below its own parent's place in itself. -/
theorem Settled.not_below_parent (hs : s.Settled id light) {a p : Slot} (ha : s.TemplateAt a)
    (hp : (s.node a).parent = some p) : ¬ s.Below a p := fun hb => by
  have hpa := (hs.linked.parent hp).2
  rcases hb.cases_head with rfl | ⟨c, hc, hcp⟩
  · exact ha.id_ne (hs.bare ha hpa (.refl a))
  · exact ha.id_ne (hs.bare ha hc (hcp.tail hpa))

/-- **A new item has no data-id inside.** -/
theorem Settled.id_makeItem (hs : s.Settled id light) (hl : (s.node template).live) (ht : s.TemplateAt template)
    {k : Slot} (hb : (ListRegion.makeItem s template key placeholder item).Below
      (s.copy template (s.node template).parent).1 k) (hk : k ≠ (s.copy template (s.node template).parent).1) :
    ((ListRegion.makeItem s template key placeholder item).node k).id = none := by
  obtain ⟨c, j, hc, hj, he⟩ :=
    Surface.id_makeItem key placeholder item hs.linked hl (fun _ hp => hs.not_below_parent ht hp) hb hk
  rw [he]
  exact hs.bare ht hc hj

theorem Settled.keeps_makeItem (hs : s.Settled id light) (ht : (s.node template).live → s.TemplateAt template)
    (hne : key.text ≠ id) : Keeps id s (ListRegion.makeItem s template key placeholder item) := by
  by_cases hl : (s.node template).live
  · have hm := makesItem key placeholder item hs.linked hl
    refine Keeps.of_own fun {k} hk hkid => ?_
    by_cases hold : (s.node k).live
    · exact ⟨hold, hm.own hold⟩
    · have hb := hm.below_of_new hk (by simpa using hold)
      by_cases htop : k = (s.copy template (s.node template).parent).1
      · rw [htop, hm.id_top] at hkid
        exact absurd (Option.some.inj hkid) hne
      · rw [hs.id_makeItem hl (ht hl) hb htop] at hkid
        cases hkid
  · obtain ⟨h, ha⟩ := makeItem_of_dead key placeholder item hs.linked (by simpa using hl)
    refine Keeps.of_own fun {k} hk _ => ?_
    rw [ha.live] at hk
    exact ⟨hk, by rw [ha.node hk]⟩

/-- A live template is copied next to itself, so nothing new gets into what has no data-ids inside. -/
theorem Settled.of_makesItem {h : Slot} (hs : s.Settled id light) (hl : (s.node template).live)
    (ht : s.TemplateAt template) (hkey : NodeKey.isTemplateText key.text = false)
    (hm : MakesItem s template key.text h t) (hinner : ∀ {k}, t.Below h k → k ≠ h → (t.node k).id = none)
    (hkeep : Keeps id s t) : t.Settled id light where
  linked := hm.linked
  unique {j k} hj hk hid hid' := by
    obtain ⟨h1, h2, -⟩ := hkeep j hj hid
    obtain ⟨h3, h4, -⟩ := hkeep k hk hid'
    exact hs.unique h1 h3 h2 h4
  bare {a c k} ha hc hb := by
    obtain ⟨tid, htid, htt⟩ := ha
    have hal := (hm.linked.child hc).1
    have hold : (s.node a).live := by
      by_contra hd
      by_cases hah : a = h
      · rw [hah, hm.id_top] at htid
        rw [← Option.some.inj htid, hkey] at htt
        cases htt
      · rw [hinner (hm.below_of_new hal (by simpa using hd)) hah] at htid
        cases htid
    have has : s.TemplateAt a := ⟨tid, (Node.id_eq (hm.own hold)).symm.trans htid, htt⟩
    have hout : ∀ {c j}, s.Child a c → s.Below c j → (s.node template).parent ≠ some j := fun hc hj hp =>
      ht.id_ne (hs.bare has hc (hj.tail (hs.linked.parent hp).2))
    have hac : (s.node template).parent ≠ some a := fun hp =>
      ht.id_ne (hs.bare has (hs.linked.parent hp).2 (.refl template))
    have hcs : s.Child a c := by
      unfold Child at hc ⊢
      rwa [hm.node_eq hold hac] at hc
    have hcl := (hs.linked.child hcs).2.1
    have hbs : s.Below c k :=
      (below_congr fun j hj => by rw [hm.node_eq (hs.linked.live_of_below hj hcl) (hout hcs hj)]).1 hb
    rw [Node.id_eq (hm.own (hs.linked.live_of_below hbs hcl))]
    exact hs.bare has hcs hbs
  light_bare {a k} hal ha hb := by
    obtain ⟨ext, hext, hlight⟩ := ha
    by_cases hold : (s.node a).live
    · have has : s.LightAt light a := ⟨ext, (Node.externalId_eq (hm.own hold)).symm.trans hext, hlight⟩
      have hout : ∀ {j}, s.Below a j → (s.node template).parent ≠ some j := fun hj hp =>
        ht.id_ne (hs.light_bare hold has (hj.tail (hs.linked.parent hp).2))
      have hbs : s.Below a k :=
        (below_congr fun j hj => by rw [hm.node_eq (hs.linked.live_of_below hj hold) (hout hj)]).1 hb
      rw [Node.id_eq (hm.own (hs.linked.live_of_below hbs hold))]
      exact hs.light_bare hold has hbs
    · have hha := hm.below_of_new hal (by simpa using hold)
      have hah : a ≠ h := by
        rintro rfl
        exact ht.id_ne (hs.light_bare hl ⟨ext, hm.external_top.symm.trans hext, hlight⟩ (.refl template))
      refine hinner (hha.trans hb) ?_
      rintro rfl
      exact hah (hm.eq_top hs.linked hha hb)
  spacing {k} hk := by
    obtain ⟨j, hj, ha, -⟩ := hm.own_old hk
    rw [spacingProperty?_congr ha]
    exact hs.spacing hj

theorem Settled.makeItem (hs : s.Settled id light) (ht : (s.node template).live → s.TemplateAt template)
    (hne : key.text ≠ id) (hkey : NodeKey.isTemplateText key.text = false) :
    (ListRegion.makeItem s template key placeholder item).Settled id light := by
  by_cases hl : (s.node template).live
  · exact hs.of_makesItem hl (ht hl) hkey (makesItem key placeholder item hs.linked hl)
      (fun hb hk => hs.id_makeItem hl (ht hl) hb hk) (hs.keeps_makeItem ht hne)
  · obtain ⟨h, ha⟩ := makeItem_of_dead key placeholder item hs.linked (by simpa using hl)
    refine hs.shrink ha.linked (fun {a b} hab => ?_) fun {k} hk => ?_
    · have hal := (ha.linked.child hab).1
      rw [ha.live] at hal
      unfold Child at hab ⊢
      rwa [ha.node hal] at hab
    · rw [ha.live] at hk
      rw [ha.node hk]
      exact ⟨hk, rfl, rfl, rfl⟩

end

/-! ## Moves -/

section

variable {slot n : Slot}

theorem Keeps.append (hp : (s.node slot).live) (hn : (s.node n).live) : Keeps id s (s.append slot n) :=
  Keeps.of_own fun {k} hk _ => ⟨by rwa [live_append hp hn] at hk, own_append hp hn k⟩

/-- **A move leaves an element settled** if the slot is an element, and what goes under a template has no data-ids. -/
theorem Settled.append (hs : s.Settled id light) (hp : (s.node slot).live) (hn : (s.node n).live)
    (hid : (s.node slot).id ≠ none) (hbare : s.TemplateAt slot → ∀ k, s.Below n k → (s.node k).id = none) :
    (s.append slot n).Settled id light := by
  have hown := own_append hp hn
  have hlink := hs.linked.append hp hn
  have hlive : ∀ {k}, ((s.append slot n).node k).live → (s.node k).live := fun hk => by rwa [live_append hp hn] at hk
  have hchild := fun {a b} => hs.linked.child_append hp hn (a := a) (b := b)
  -- A place without data-ids inside is not above the slot, so nothing gets into it.
  have hback : ∀ {a}, (∀ k, s.Below a k → (s.node k).id = none) → ∀ {k}, (s.append slot n).Below a k → s.Below a k := by
    intro a ha k hb
    induction hb with
    | refl => exact .refl a
    | tail _ hab ih =>
      rcases hchild.1 hab with ⟨-, hab⟩ | ⟨rfl, rfl⟩
      · exact ih.tail hab
      · exact absurd (ha _ ih) hid
  generalize s.append slot n = t at hown hlink hlive hchild hback
  exact {
    linked := hlink
    unique := fun hh hk hid hid' =>
      hs.unique (hlive hh) (hlive hk) ((Node.id_eq (hown _)).symm.trans hid) ((Node.id_eq (hown _)).symm.trans hid')
    bare := fun {a c k} ha hc hb => by
      have has : s.TemplateAt a := by
        obtain ⟨tid, htid, htt⟩ := ha
        exact ⟨tid, (Node.id_eq (hown a)).symm.trans htid, htt⟩
      rw [Node.id_eq (hown k)]
      rcases hchild.1 hc with ⟨-, hc⟩ | ⟨rfl, rfl⟩
      · exact hs.bare has hc (hback (fun j hj => hs.bare has hc hj) hb)
      · exact hbare has k (hback (hbare has) hb)
    light_bare := fun {a k} hal ha hb => by
      have has : s.LightAt light a := by
        obtain ⟨ext, hext, hlight⟩ := ha
        exact ⟨ext, (Node.externalId_eq (hown a)).symm.trans hext, hlight⟩
      rw [Node.id_eq (hown k)]
      exact hs.light_bare (hlive hal) has (hback (fun j hj => hs.light_bare (hlive hal) has hj) hb)
    spacing := fun {k} hk => by
      rw [spacingProperty?_congr (Node.attributes_eq (hown k))]
      exact hs.spacing (hlive hk) }

end

end Surface
end BoundPage
