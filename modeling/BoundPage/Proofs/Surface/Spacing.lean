import Mathlib.Data.List.TakeWhile
import BoundPage.Proofs.Keys
import BoundPage.Proofs.Surface.Mounting
import BoundPage.Proofs.Surface.Styles
/-!
# Spacing the children of a node

The rule of a parent is made of the two sides of the first colon in one of its attributes (`HasRule`).  By this rule
every child behind the first visible one gets the property, the first visible one loses it, and nothing else changes
(`SpacesFrom`).  Whether a child is visible does not depend on the property, so a second time changes nothing at all
(`spaces_refreshSpacing`).
-/
namespace BoundPage
open RenderTarget

namespace Layout

theorem splitRule?_of_colon {left : String} (hleft : ':' ∉ left.toList) (right : String) :
    splitRule? (left ++ ":" ++ right) = some (Text.trim left, Text.trim right) := by
  have hlist : (left ++ ":" ++ right).toList = left.toList ++ ':' :: right.toList := by simp
  unfold splitRule?
  rw [hlist, Text.breakOn?_singleton right.toList hleft]
  rfl

theorem splitRule?_of_no_colon {rule : String} (h : ':' ∉ rule.toList) : splitRule? rule = none := by
  unfold splitRule?
  rw [Option.map_eq_none_iff, Option.eq_none_iff_forall_ne_some]
  rintro ⟨left, right⟩ hparts
  have hrule := Text.eq_append_of_breakOn? hparts
  exact h (by rw [hrule]; simp)

end Layout

namespace Surface

variable {s t : Surface} {parent n k first : Slot} {property value : String} {before later children : List Slot}

/-! ## Rules -/

/-- **A node has a spacing rule**: the property and the value stand on the two sides of the first colon of an
attribute, with or without blanks around them. -/
def HasRule (s : Surface) (parent : Slot) (property value : String) : Prop :=
  ∃ left right, (s.node parent).attributes.get? Layout.spacingAttribute = some (left ++ ":" ++ right) ∧
    ':' ∉ left.toList ∧ Text.trim left = property ∧ Text.trim right = value

/-- The node has no attribute for a rule, or one without a colon. -/
def Ruleless (s : Surface) (parent : Slot) : Prop :=
  ∀ rule, (s.node parent).attributes.get? Layout.spacingAttribute = some rule → ':' ∉ rule.toList

theorem HasRule.spacingRule? (h : s.HasRule parent property value) :
    Layout.spacingRule? s parent = some (property, value) := by
  obtain ⟨left, right, hrule, hleft, rfl, rfl⟩ := h
  have hattribute : attributeOf s parent Layout.spacingAttribute = some (left ++ ":" ++ right) := hrule
  unfold Layout.spacingRule?
  rw [hattribute]
  exact Layout.splitRule?_of_colon hleft right

theorem Ruleless.spacingRule? (h : s.Ruleless parent) : Layout.spacingRule? s parent = none := by
  unfold Layout.spacingRule?
  rw [Option.bind_eq_none_iff]
  exact fun rule hrule => Layout.splitRule?_of_no_colon (h rule hrule)

/-! ## Setting and clearing a property -/

/-- A change that leaves a node as it is changes nothing. -/
theorem modify_eq_self {f : Node → Node} (h : f (s.node k) = s.node k) : s.modify k f = s := by
  have hslots : s.slots.modify k f = s.slots := by
    refine Array.ext_getElem? fun i => ?_
    rw [Array.getElem?_modify]
    split
    · next hi =>
      subst hi
      unfold node at h
      cases hget : s.slots[k]? with
      | none => rfl
      | some n =>
        rw [hget] at h
        exact congrArg some h
    · rfl
  unfold modify
  rw [hslots]

theorem setStyle_none_eq_self (h : (s.node k).styles.get? property = none) (important : Bool) :
    s.setStyle k property none important = s := by
  refine modify_eq_self ?_
  dsimp only
  rw [Table.erase_of_get? h]

theorem setStyle_some_eq_self (h : (s.node k).styles.get? property = some ⟨value, false⟩) (hvalue : value ≠ "") :
    s.setStyle k property (some value) false = s := by
  refine modify_eq_self ?_
  dsimp only
  rw [if_neg (by simpa using hvalue), Table.insert_of_get? h]

theorem setAll_eq_self (hvalue : value ≠ "") : ∀ {cs : List Slot},
    (∀ c ∈ cs, (s.node c).styles.get? property = some ⟨value, false⟩) →
    cs.foldl (fun s c => s.setStyle c property (some value) false) s = s
  | [], _ => rfl
  | c :: cs, h => by
    rw [List.foldl_cons, setStyle_some_eq_self (h c List.mem_cons_self) hvalue]
    exact setAll_eq_self hvalue fun d hd => h d (List.mem_cons_of_mem c hd)

/-! ## Spacing -/

theorem spaceChildren_of_hidden (h : ∀ c ∈ children, isVisible s c = false) :
    Layout.spaceChildren s property value children = s := by
  have hnone : children.dropWhile (fun c => !isVisible s c) = [] :=
    List.dropWhile_eq_nil_iff.2 fun c hc => by rw [h c hc]; rfl
  unfold Layout.spaceChildren
  rw [hnone]

theorem spaceChildren_of_shown (hbefore : ∀ c ∈ before, isVisible s c = false) (hfirst : isVisible s first = true) :
    Layout.spaceChildren s property value (before ++ first :: later) =
      later.foldl (fun s c => s.setStyle c property (some value) false) (s.setStyle first property none false) := by
  have hshown : (before ++ first :: later).dropWhile (fun c => !isVisible s c) = first :: later := by
    rw [List.dropWhile_append_of_pos fun c hc => by rw [hbefore c hc]; rfl,
      List.dropWhile_cons_of_neg (by simp [hfirst])]
  unfold Layout.spaceChildren
  rw [hshown]
  rfl

/-- **The children of a node have been spaced** from the first visible one on. -/
structure SpacesFrom (s : Surface) (parent : Slot) (property value : String) (before : List Slot) (first : Slot)
    (later : List Slot) (t : Surface) : Prop where
  before : ∀ c ∈ before, t.node c = s.node c
  /-- The first visible child is without the property. -/
  first : t.node first = { s.node first with styles := (s.node first).styles.erase property }
  /-- The children behind it have the value, whether they are visible or not. -/
  later : ∀ c ∈ later, t.node c = { s.node c with styles := (s.node c).styles.insert property ⟨value, false⟩ }
  others : ∀ k, ¬ s.Child parent k → t.node k = s.node k
  size : t.size = s.size
  roots : t.roots = s.roots
  free : t.free = s.free

theorem spacesFrom_spaceChildren (hs : s.Linked) (hvalue : value ≠ "")
    (hchildren : (s.node parent).children = before ++ first :: later)
    (hbefore : ∀ c ∈ before, isVisible s c = false) (hfirst : isVisible s first = true) :
    s.SpacesFrom parent property value before first later
      (Layout.spaceChildren s property value (s.node parent).children) := by
  have hlive : ∀ c ∈ before ++ first :: later, (s.node c).live := fun c hc =>
    (hs.child (p := parent) (show c ∈ _ from hchildren ▸ hc)).2.1
  have hnodup := hchildren ▸ hs.nodup_children parent
  obtain ⟨-, hnodup, hapart⟩ := List.nodup_append.1 hnodup
  have hfl : first ∉ later := (List.nodup_cons.1 hnodup).1
  have hclear := node_clear (hlive first (by simp)) property false
  have hrest : ∀ c ∈ later, ((s.setStyle first property none false).node c).live := fun c hc =>
    ((restyled_setStyle s first property none false).sameTree.live c).trans (hlive c (by simp [hc]))
  have hnode : ∀ k, (Layout.spaceChildren s property value (s.node parent).children).node k =
      if k ∈ later then { s.node k with styles := (s.node k).styles.insert property ⟨value, false⟩ }
      else if k = first then { s.node k with styles := (s.node k).styles.erase property } else s.node k := fun k => by
    rw [hchildren, spaceChildren_of_shown hbefore hfirst, node_setAll hvalue later hrest, hclear]
    by_cases hk : k ∈ later
    · have hne : k ≠ first := fun h => hfl (h ▸ hk)
      rw [if_pos hk, if_pos hk, if_neg hne]
    · rw [if_neg hk, if_neg hk]
  have hr := restyled_spaceChildren s property value (s.node parent).children
  refine ⟨fun c hc => ?_, ?_, fun c hc => ?_, fun k hk => ?_, hr.size, hr.roots, hr.free⟩
  · rw [hnode, if_neg fun h => hapart c hc c (List.mem_cons_of_mem first h) rfl,
      if_neg fun h => hapart c hc first List.mem_cons_self h]
  · rw [hnode, if_neg hfl, if_pos rfl]
  · rw [hnode, if_pos hc]
  · unfold Child at hk
    rw [hchildren, List.mem_append, List.mem_cons, not_or, not_or] at hk
    rw [hnode, if_neg hk.2.2, if_neg hk.2.1]

/-- Nothing but styles changes, and of these only the property. -/
theorem alikeBut_spaceChildren (s : Surface) (property value : String) (children : List Slot) :
    AlikeBut (fun _ q => q = property) s (Layout.spaceChildren s property value children) :=
  (restyled_spaceChildren s property value children).toAlikeBut.mono fun _ _ h => h.2

/-- **Spacing by the same rule again changes nothing.** -/
theorem spaceChildren_again (hs : s.Linked) (hproperty : property ≠ "display") (hvalue : value ≠ "") :
    Layout.spaceChildren (Layout.spaceChildren s property value (s.node parent).children) property value
      (s.node parent).children = Layout.spaceChildren s property value (s.node parent).children := by
  have halike := alikeBut_spaceChildren s property value (s.node parent).children
  have hvisible : ∀ c, isVisible (Layout.spaceChildren s property value (s.node parent).children) c = isVisible s c :=
    fun c => congrArg (· != some "none") (halike.style c "display" (Ne.symm hproperty))
  have hsplit := List.takeWhile_append_dropWhile (p := fun c => !isVisible s c) (l := (s.node parent).children)
  cases hshown : (s.node parent).children.dropWhile fun c => !isVisible s c with
  | nil =>
    have hhidden : ∀ c ∈ (s.node parent).children, isVisible s c = false := fun c hc => by
      simpa using List.dropWhile_eq_nil_iff.1 hshown c hc
    rw [spaceChildren_of_hidden hhidden, spaceChildren_of_hidden hhidden]
  | cons first later =>
    rw [hshown] at hsplit
    have hbefore : ∀ c ∈ (s.node parent).children.takeWhile (fun c => !isVisible s c), isVisible s c = false :=
      fun c hc => by simpa using List.mem_takeWhile_imp hc
    have hfirst : isVisible s first = true := by
      have := List.head?_dropWhile_not (fun c => !isVisible s c) (s.node parent).children
      rw [hshown] at this
      simpa using this
    generalize (s.node parent).children.takeWhile (fun c => !isVisible s c) = before at hsplit hbefore
    have hspaced : s.SpacesFrom parent property value before first later _ :=
      spacesFrom_spaceChildren hs hvalue hsplit.symm hbefore hfirst
    generalize Layout.spaceChildren s property value (s.node parent).children = t at hvisible hspaced ⊢
    rw [← hsplit,
      spaceChildren_of_shown (fun c hc => (hvisible c).trans (hbefore c hc)) ((hvisible first).trans hfirst),
      setStyle_none_eq_self (by rw [hspaced.first, Table.get?_erase, if_pos rfl])]
    exact setAll_eq_self hvalue fun c hc => by rw [hspaced.later c hc, Table.get?_insert_self]

/-- **The children of a node are spaced by its rule.** -/
structure Spaces (s : Surface) (parent : Slot) (property value : String) (t : Surface) : Prop where
  hidden : (∀ c, s.Child parent c → isVisible s c = false) → t = s
  shown : ∀ before first later, (s.node parent).children = before ++ first :: later →
    (∀ c ∈ before, isVisible s c = false) → isVisible s first = true →
    s.SpacesFrom parent property value before first later t
  /-- No other style has changed, nor a value that is not about the property. -/
  entry : ∀ k q, q ≠ property → (t.node k).styles.get? q = (s.node k).styles.get? q
  /-- To space again, by any child, changes nothing. -/
  again : ∀ n, (t.node n).parent = some parent → Layout.refreshSpacing t n = t

/-- **Spacing gives the children of a parent what its rule says**, and nothing without a rule. -/
theorem spaces_refreshSpacing (hs : s.Forest) (n : Slot) :
    (∀ parent property value, (s.node n).parent = some parent → s.HasRule parent property value →
      property ≠ "display" → value ≠ "" → s.Spaces parent property value (Layout.refreshSpacing s n)) ∧
    ((s.node n).parent = none → Layout.refreshSpacing s n = s) ∧
    ∀ parent, (s.node n).parent = some parent → s.Ruleless parent → Layout.refreshSpacing s n = s := by
  refine ⟨fun parent property value hp hrule hproperty hvalue => ?_, refreshSpacing_of_no_parent,
    fun parent hp hno => ?_⟩
  · have hspace : Layout.refreshSpacing s n = Layout.spaceChildren s property value (s.node parent).children := by
      rw [refreshSpacing_of_parent hp, hrule.spacingRule?]
    have halike := alikeBut_spaceChildren s property value (s.node parent).children
    have hnode := halike.node parent
    rw [hspace]
    refine ⟨fun hhidden => spaceChildren_of_hidden hhidden, fun before first later hchildren hbefore hfirst => ?_,
      fun k q hq => halike.entry k q hq, fun m hm => ?_⟩
    · exact spacesFrom_spaceChildren hs.toLinked hvalue hchildren hbefore hfirst
    · have hrule' : (Layout.spaceChildren s property value (s.node parent).children).HasRule parent property value := by
        unfold HasRule
        rw [hnode]
        exact hrule
      rw [refreshSpacing_of_parent hm, hrule'.spacingRule?, halike.sameTree.children]
      exact spaceChildren_again hs.toLinked hproperty hvalue
  · rw [refreshSpacing_of_parent hp, hno.spacingRule?]

/-- Four tabs, of which the first and the third are hidden, below a rule with blanks and a second colon. -/
def tabs : Surface :=
  ofMarkup [{ tag := "nav", attributes := .ofList [("spacing", " margin-left : var(--a:b) ")]
              children := [{ styles := .ofList [("display", "none"), ("margin-left", "1px")] },
                           { styles := .ofList [("margin-left", "2px !important"), ("color", "red")] },
                           { styles := .ofList [("display", "none")] },
                           { styles := .ofList [("margin-left", "3px !important")] }] }]

theorem spaces_tabs : tabs.Forest ∧ (tabs.node 3).parent = some 0 ∧
    tabs.HasRule 0 "margin-left" "var(--a:b)" ∧ "margin-left" ≠ "display" ∧ "var(--a:b)" ≠ "" ∧
    tabs.SpacesFrom 0 "margin-left" "var(--a:b)" [1] 2 [3, 4] (Layout.refreshSpacing tabs 3) := by
  have hs : tabs.Forest := forest_ofMarkup _
  have hp : (tabs.node 3).parent = some 0 := by decide +kernel
  have hrule : tabs.HasRule 0 "margin-left" "var(--a:b)" :=
    ⟨" margin-left ", " var(--a:b) ", by decide +kernel, by decide +kernel, by decide +kernel, by decide +kernel⟩
  have hspaces := (spaces_refreshSpacing hs 3).1 0 _ _ hp hrule (by decide) (by decide)
  exact ⟨hs, hp, hrule, by decide, by decide, hspaces.shown [1] 2 [3, 4] (by decide +kernel) (by decide +kernel)
    (by decide +kernel)⟩

end Surface
end BoundPage
