import BoundPage.Proofs.Surface.Elements
import BoundPage.Proofs.Write.Changes
import BoundPage.Proofs.Write.Rekey
/-!
# What a pass shows

A pass that does not name an element leaves the element's node alone, and a pass that names it once shows the written
value there (`run_shows`), as the text of the node or by its visibility.
-/
namespace BoundPage
open RenderTarget

/-- **The nodes with a data-id show a value** the way a dependency says: as their text, or by being visible exactly when
it meets a condition. -/
def Surface.Shows (id : String) (d : Dependency) (value : String) (s : Surface) : Prop :=
  ∀ h, (s.node h).live → (s.node h).id = some id →
    (d = .value → (s.node h).text = value) ∧ ∀ c, d = .visible c → isVisible s h = c.holds value

theorem Surface.Shows.keeps {id value : String} {d : Dependency} {s t : Surface} (h : s.Shows id d value)
    (hk : Surface.Keeps id s t) : t.Shows id d value := fun k hl hid => by
  obtain ⟨hl', hid', ht, hd⟩ := hk k hl hid
  obtain ⟨h1, h2⟩ := h k hl' hid'
  refine ⟨fun he => ht.trans (h1 he), fun c he => ?_⟩
  rw [← h2 c he]
  unfold isVisible
  show (Surface.style t k "display" != _) = (Surface.style s k "display" != _)
  rw [hd]

/-- An element that is no list template and no list item, of an instance whose id is without a colon. -/
structure Plain (key : NodeKey) : Prop where
  colonFree : ':' ∉ key.instanceId.toList
  notTemplate : key.isTemplate = false
  notItem : Element.isItem key.element = false

/-- An item has neither the data-id of a plain element nor that of a template. -/
theorem Plain.item_text {key k item : NodeKey} {i : Nat} (hkey : Plain key) (hk : ':' ∉ k.instanceId.toList)
    (h : k.item? i = some item) : item.text ≠ key.text ∧ NodeKey.isTemplateText item.text = false := by
  obtain ⟨he, hi⟩ := NodeKey.item?_eq_some h
  have hcolon : ':' ∉ item.instanceId.toList := by rw [hi]; exact hk
  have hitem := Element.isItem_of_isItemOf (Element.isItemOf_item? he)
  constructor
  · intro ht
    rw [NodeKey.text_inj hcolon hkey.colonFree ht, hkey.notItem] at hitem
    cases hitem
  · rw [NodeKey.isTemplateText_text hcolon]
    by_contra ht
    exact Element.not_isItem_of_isTemplate (by simpa [NodeKey.isTemplate] using ht) hitem

/-- The spacing that follows leaves the display of an element alone. -/
theorem Surface.style_display {s : Surface} {n : Slot} {value : String} (hl : (s.node n).live)
    (hne : value.isEmpty = false)
    (hfree : ∀ parent, (s.node n).parent = some parent →
      Surface.spacingProperty? (RenderTarget.setStyle s n "display" (some value) false) parent ≠ some "display") :
    Surface.style (Layout.refreshSpacing (RenderTarget.setStyle s n "display" (some value) false) n) n "display" =
      some value := by
  rw [(restyled_refreshSpacing _ n).style n "display" ?_]
  · exact style_setStyle_self _ hl _ hne _
  · rintro ⟨parent, hpar, -, hrule⟩
    have hset : Restyled (fun k q => k = n ∧ q = "display") s
        (RenderTarget.setStyle s n "display" (some value) false) := restyled_setStyle s n "display" (some value) false
    rw [hset.node] at hpar
    exact hfree parent hpar hrule

namespace Pass

variable {p : Pass Surface} {key : NodeKey} {light : String → Prop}

/-! ## One dependency -/

/-- A rebuilt list leaves an element settled and its node alone. -/
theorem settled_refilled (hkey : Plain key) {k : NodeKey} {table : DependencyTable} {s : Surface} {template : Slot}
    (hk : ':' ∉ k.instanceId.toList) (hs : s.Settled key.text light) (hr : p.Rebuilds k s template)
    (items : List String) : (p.refilled k table s template items).1.Settled key.text light ∧
      Surface.Keeps key.text s (p.refilled k table s template items).1 := by
  have htext : NodeKey.isTemplateText k.text := by rw [NodeKey.isTemplateText_text hk]; exact hr.isTemplate
  have htemp : s.TemplateAt template := ⟨k.text, (ListRegion.locate_live hr.located).2, htext⟩
  have hclear : (p.cleared k table s).Settled key.text light ∧ Surface.Keeps key.text s (p.cleared k table s) :=
    ListRegion.destroyAll_induction (I := fun t : Surface => t.Settled key.text light ∧ Surface.Keeps key.text s t) _ s
      (fun t n _ _ ht hl => ⟨ht.1.remove (ListRegion.locate_live hl).1, ht.2.trans (Surface.Keeps.remove n)⟩)
      ⟨hs, .refl _ s⟩
  have hclearTemp : ((p.cleared k table s).node template).live → (p.cleared k table s).TemplateAt template := fun hl =>
    ⟨k.text, (Node.id_eq (ListRegion.own_destroyAll _ hl).2.1).trans (ListRegion.locate_live hr.located).2, htext⟩
  refine And.imp_right And.left (ListRegion.makeItems_induction (I := fun _ (t : Surface) =>
      t.Settled key.text light ∧ Surface.Keeps key.text s t ∧ ((t.node template).live → t.TemplateAt template))
    hr.isTemplate _ _ items 0 (p.cleared k table s) ?_ ⟨hclear.1, hclear.2, hclearTemp⟩)
  rintro t i item key' - hi ⟨ht, hkeep, htt⟩
  obtain ⟨hne, hnt⟩ := hkey.item_text hk hi
  refine ⟨ht.makeItem htt hne hnt, hkeep.trans (ht.keeps_makeItem htt hne), fun hl => ?_⟩
  by_cases hold : (t.node template).live
  · obtain ⟨tid, htid, htm⟩ := htt hold
    exact ⟨tid, (Node.id_eq ((ListRegion.own_makeItem ht.linked).1 hold).2).trans htid, htm⟩
  · obtain ⟨h, ha⟩ := Surface.makeItem_of_dead key' p.options.loopPlaceholder item ht.linked (by simpa using hold)
    rw [ha.live] at hl
    exact absurd hl hold

variable {k : NodeKey} {ds : List Dependency} {st : State Surface} {d : Dependency} {s : Surface}
  {table : DependencyTable} {destroyed : List String}

/-- **A dependency leaves every element settled**, and the nodes of other elements alone. -/
theorem Change.settled (hp : p.effector = inlineStyles) (hkey : Plain key) (hk : ':' ∉ k.instanceId.toList)
    (hs : st.surface.Settled key.text light) (h : p.Change k ds st d s table destroyed) :
    s.Settled key.text light ∧ (k.text ≠ key.text → Surface.Keeps key.text st.surface s) := by
  have hother : ∀ {n}, locate st.surface k = some n → k.text ≠ key.text → (st.surface.node n).id ≠ some key.text :=
    fun hl hne hid => hne (Option.some.inj ((ListRegion.locate_live hl).2.symm.trans hid))
  cases h with
  | owned _ => exact ⟨hs, fun _ => .refl _ _⟩
  | text _ _ hl => exact ⟨hs.setText _ _, fun hne => .setText (hother hl hne) _⟩
  | list hr =>
    obtain ⟨h1, h2⟩ := settled_refilled hkey hk hs hr (ListRegion.items p.value)
    exact ⟨h1, fun _ => h2⟩
  | visible hl =>
    refine ⟨hs.restyled (restyled_visible _ _ _), fun hne => .restyled (restyled_visible _ _ _) fun hj hid hc => ?_⟩
    rcases hc with ⟨rfl, -⟩ | ⟨parent, hpar, -, hrule⟩
    · exact hother hl hne hid
    · exact hs.spacing (hs.linked.parent_live hpar) hrule
  | style hl =>
    refine ⟨hs.restyled (restyled_styleParameters hp _ _ _ _ _),
      fun hne => .restyled (restyled_styleParameters hp _ _ _ _ _) fun hj hid hc => ?_⟩
    subst hc
    exact hother hl hne hid

theorem displayOf_ne_empty (p : Pass Surface) (s : Surface) (n : Slot) (c : Condition) :
    (p.displayOf s n c).isEmpty = false := by
  unfold displayOf
  split
  · cases Layout.detect s n <;> decide
  · decide

theorem displayOf_visible (p : Pass Surface) (s : Surface) (n : Slot) (c : Condition) :
    (some (p.displayOf s n c) != some "none") = c.holds p.value := by
  unfold displayOf
  split
  · next h =>
    rw [h]
    cases Layout.detect s n <;> decide
  · next h =>
    rw [eq_false_of_ne_true h]
    decide

/-- **The dependency of an element shows the value there.** -/
theorem Change.shows (hplain : k.isTemplate = false) (howned : p.ownedByTemplate k.element = false)
    (hs : st.surface.Settled k.text light) (h : p.Change k ds st d s table destroyed) : s.Shows k.text d p.value := by
  intro j hl hid
  have hone : ∀ {n}, locate st.surface k = some n → (st.surface.node j).live → (st.surface.node j).id = some k.text →
      j = n := fun hn hl hid =>
    hs.unique hl (ListRegion.locate_live hn).1 hid (ListRegion.locate_live hn).2
  cases h with
  | owned ho =>
    rw [howned] at ho
    cases ho
  | @text n _ _ hn =>
    refine ⟨fun _ => ?_, fun c hc => by cases hc⟩
    obtain ⟨hl', he⟩ := Surface.node_setText hl
    rw [show setText st.surface n p.value = st.surface.setText n p.value from rfl, he] at hid ⊢
    rw [hone hn hl' hid]
    simp
  | list hr =>
    rw [hr.isTemplate] at hplain
    cases hplain
  | @visible n condition hn =>
    refine ⟨fun hc => (by cases hc), fun c hc => ?_⟩
    obtain rfl := Dependency.visible.inj hc
    have hst := restyled_visible st.surface n (p.displayOf st.surface n condition)
    rw [hst.sameTree.live] at hl
    rw [hst.node] at hid
    obtain rfl := hone hn hl hid
    have hset : Surface.Restyled (fun k q => k = j ∧ q = "display") st.surface
        (setStyle st.surface j "display" (some (p.displayOf st.surface j condition)) false) :=
      Surface.restyled_setStyle _ _ _ _ _
    have hdisplay := Surface.style_display hl (displayOf_ne_empty p st.surface j condition) fun parent hpar => by
      refine (hs.restyled hset).spacing ?_
      rw [hset.sameTree.live]
      exact hs.linked.parent_live hpar
    show (Surface.style _ j "display" != _) = _
    rw [hdisplay]
    exact displayOf_visible p st.surface j condition
  | style _ => exact ⟨fun hc => (by cases hc), fun c hc => (by cases hc)⟩

/-! ## Passes -/

/-- **A pass leaves every element settled**, and the nodes of elements alone that it does not name. -/
theorem run_settled (hp : p.effector = inlineStyles) (hkey : Plain key) (hid : ':' ∉ p.instanceId.toList)
    {s : Surface} (hs : s.Settled key.text light) : (p.run s).surface.Settled key.text light ∧
      ((∀ e ∈ p.dependents.entries, (p.key e.1).text ≠ key.text) → Surface.Keeps key.text s (p.run s).surface) := by
  refine (run_induction (I := fun t _ _ => t.Settled key.text light ∧
      ((∀ e ∈ p.dependents.entries, (p.key e.1).text ≠ key.text) → Surface.Keeps key.text s t))
    ⟨hs, fun _ => .refl _ s⟩ fun e d left st st' hst hI hok => ?_).2
  obtain ⟨h1, h2⟩ := (change_of_applyOne hok).settled hp hkey hid hI.1
  exact ⟨h1, fun hne => (hI.2 hne).trans (h2 (hne e hst.mem))⟩

theorem shows_of_locate_eq_none {s : Surface} {value : String} (hl : locate s key = none) :
    s.Shows key.text d value :=
  fun h hlive hid => absurd hid (s.find?_eq_none.1 hl h hlive)

/-- **A pass that names an element once shows its value there.** -/
theorem run_shows (hp : p.effector = inlineStyles) (hkey : Plain key) (hid : p.instanceId = key.instanceId)
    (hmem : (key.element, [d]) ∈ p.dependents.entries)
    (honly : ∀ e ∈ p.dependents.entries, (p.key e.1).text = key.text → e.1 = key.element)
    {s : Surface} (hs : s.Settled key.text light) : (p.run s).surface.Shows key.text d p.value := by
  have hcolon : ':' ∉ p.instanceId.toList := by rw [hid]; exact hkey.colonFree
  have hk : p.key key.element = key := by
    unfold Pass.key
    rw [hid]
  have howned : p.ownedByTemplate key.element = false := not_owned_of_not_item hkey.notItem
  -- Up to the element, it is settled, and only items have been destroyed; after it, nothing comes to its node.
  refine (run_entry (I := fun t _ destroyed => t.Settled key.text light ∧ ∀ x ∈ destroyed, Element.isItem x)
    (J := fun t _ _ => t.Settled key.text light ∧ t.Shows key.text d p.value) hmem
    ⟨hs, fun _ hx => absurd hx List.not_mem_nil⟩ (fun e d' st st' _ _ _ hI hok => ?_) (fun st hI => ⟨?_, ?_⟩)
    fun e d' st st' he hne _ hJ hok => ?_).2
  · have hch := change_of_applyOne hok
    exact ⟨(hch.settled hp hkey hcolon hI.1).1,
      fun x hx => (hch.destroyed x hx).elim (hI.2 x) Element.isItem_of_isItemOf⟩
  · by_contra hc
    have := hI.2 key.element (by simpa using hc)
    rw [hkey.notItem] at this
    cases this
  · show (p.applyEach (p.key key.element) [d] [d] st).surface.Settled _ _ ∧
      (p.applyEach (p.key key.element) [d] [d] st).surface.Shows _ _ _
    rw [hk, applyEach]
    cases hone : p.applyOne key [d] d st with
    | ok st' =>
      have hch := change_of_applyOne hone
      exact ⟨(hch.settled hp hkey hkey.colonFree hI.1).1, hch.shows hkey.notTemplate howned hI.1⟩
    | error err =>
      rcases locate_of_error hone with hl | ⟨_, -, -, ht, -⟩
      · cases err with
        | nodeNotFound m => exact ⟨hI.1, shows_of_locate_eq_none hl⟩
        | detached template => exact ⟨hI.1, shows_of_locate_eq_none hl⟩
      · rw [hkey.notTemplate] at ht
        cases ht
  · obtain ⟨h1, h2⟩ := (change_of_applyOne hok).settled hp hkey hcolon hJ.1
    exact ⟨h1, hJ.2.keeps (h2 fun ht => hne (honly e he ht))⟩

end Pass
end BoundPage
