import BoundPage.Proofs.Surface.Regions
/-!
# Rows of children

A parent with a spacing rule has its children in a row: the first visible one is without the property, and all that
come later have the value (`Row.Spaced`).  Which changes of a row leave it spaced depends on its first visible child,
so every change of a page has the exact condition for its groups here.
-/
namespace BoundPage
open RenderTarget

/-- What spacing is about: for each child whether it is visible, and the value of the property. -/
abbrev Row := List (Bool × Option String)

namespace Row

def Spaced (value : String) : Row → Prop
  | [] => True
  | (false, _) :: row => Spaced value row
  | (true, x) :: row => x = none ∧ ∀ y ∈ row, y.2 = some value

def decSpaced (value : String) : ∀ row : Row, Decidable (Spaced value row)
  | [] => isTrue trivial
  | (false, _) :: row => decSpaced value row
  | (true, x) :: row => inferInstanceAs (Decidable (x = none ∧ ∀ y ∈ row, y.2 = some value))

instance (value : String) : DecidablePred (Spaced value) := decSpaced value

/-- Some child is visible. -/
def shown (row : Row) : Bool := row.any (·.1)

variable {value : String} {x : Option String}

theorem spaced_nil (value : String) : Spaced value [] := trivial

/-- Where all children have the value, none may be visible. -/
theorem spaced_iff_hidden : ∀ {row : Row}, (∀ y ∈ row, y.2 = some value) → (Spaced value row ↔ row.shown = false)
  | [], _ => ⟨fun _ => rfl, fun _ => trivial⟩
  | (false, _) :: row, h => by
    have ih : Spaced value row ↔ shown row = false := spaced_iff_hidden fun y hy => h y (List.mem_cons_of_mem _ hy)
    exact ih
  | (true, z) :: row, h => by
    have hz : z = some value := h (true, z) List.mem_cons_self
    refine ⟨fun hs => ?_, fun hs => by cases hs⟩
    rw [hs.1] at hz
    cases hz

/-- **One more child at the end** has the value if another one is visible, and else is hidden or without the
property. -/
theorem spaced_concat {y : Bool × Option String} : ∀ {row : Row}, Spaced value (row ++ [y]) ↔
    Spaced value row ∧ (row.shown → y.2 = some value) ∧ (row.shown = false → y.1 → y.2 = none)
  | [] => by
    obtain ⟨visible, z⟩ := y
    cases visible <;> simp [Spaced, shown]
  | (false, _) :: row => by
    have ih : Spaced value (row ++ [y]) ↔ _ := spaced_concat
    exact ih
  | (true, z) :: row => by
    simp only [List.cons_append, Spaced, List.mem_append, List.mem_singleton, shown, List.any_cons, Bool.true_or,
      true_imp_iff, Bool.true_eq_false, false_imp_iff, and_true]
    constructor
    · rintro ⟨hz, hall⟩
      exact ⟨⟨hz, fun w hw => hall w (.inl hw)⟩, hall y (.inr rfl)⟩
    · rintro ⟨⟨hz, hall⟩, hy⟩
      refine ⟨hz, fun w hw => hw.elim (hall w) fun hw => by rw [hw]; exact hy⟩

theorem Spaced.of_append {row rest : Row} (h : Spaced value (row ++ rest)) : Spaced value row := by
  induction row with
  | nil => trivial
  | cons y row ih =>
    obtain ⟨visible, z⟩ := y
    cases visible with
    | false => exact ih h
    | true => exact ⟨h.1, fun w hw => h.2 w (List.mem_append_left _ hw)⟩

theorem Spaced.hide_last {row : Row} (h : Spaced value (row ++ [(true, x)])) (visible : Bool) :
    Spaced value (row ++ [(visible, x)]) := by
  obtain ⟨hrow, hbehind, halone⟩ := spaced_concat.1 h
  exact spaced_concat.2 ⟨hrow, hbehind, fun hshown _ => halone hshown rfl⟩

/-- **Equal visible children at the end** have the value and stand behind a visible one, or there is one of them, it is
the first and is without the property. -/
theorem spaced_append_replicate {row : Row} (h : Spaced value row) (x : Option String) (count : Nat) :
    Spaced value (row ++ List.replicate count (true, x)) ↔
      count = 0 ∨ row.shown ∧ x = some value ∨ row.shown = false ∧ x = none ∧ count = 1 := by
  have hshown : ∀ m, shown (row ++ List.replicate m (true, x)) = (row.shown || decide (0 < m)) := fun m => by
    unfold shown
    rw [List.any_append]
    cases m with
    | zero => rfl
    | succ m => simp
  induction count with
  | zero => simpa using h
  | succ m ih =>
    rw [List.replicate_succ', ← List.append_assoc, spaced_concat, hshown]
    refine (and_congr_left' ih).trans ?_
    cases m with
    | zero => cases hrow : row.shown <;> simp
    | succ m =>
      -- There is a visible one now, so one more has the value.
      cases hrow : row.shown with
      | true => simp
      | false =>
        constructor
        · rintro ⟨hx, hvalue, -⟩
          have hnone : x = none := (by simpa using hx : x = none ∧ m = 0).1
          rw [hnone] at hvalue
          exact absurd (hvalue (by simp)) (by simp)
        · simp

/-- **What is left of a row is spaced exactly if its first visible child is left, or no visible one.** -/
theorem spaced_filter {α : Type} {f : α → Bool × Option String} {keep : α → Bool} : ∀ {cs : List α},
    Spaced value (cs.map f) → (Spaced value ((cs.filter keep).map f) ↔
      (∀ first, cs.find? (fun c => (f c).1) = some first → keep first) ∨ ∀ c ∈ cs, keep c → (f c).1 = false)
  | [], _ => by simp [Spaced]
  | c :: cs, h => by
    cases hvisible : (f c).1 with
    | false =>
      have hrow : ∀ {row : Row}, Spaced value (f c :: row) ↔ Spaced value row := fun {row} => by
        rw [show f c = (false, (f c).2) from Prod.ext hvisible rfl]
        rfl
      have hfilter : Spaced value (((c :: cs).filter keep).map f) ↔ Spaced value ((cs.filter keep).map f) := by
        rw [List.filter_cons]
        split
        · exact hrow
        · exact Iff.rfl
      rw [hfilter, spaced_filter (hrow.1 h), List.find?_cons_of_neg (by simp [hvisible])]
      simp [hvisible]
    | true =>
      have hc : f c = (true, (f c).2) := Prod.ext hvisible rfl
      obtain ⟨hfirst, hlater⟩ : (f c).2 = none ∧ ∀ y ∈ cs.map f, y.2 = some value := by
        rw [List.map_cons, hc] at h
        exact h
      have hleft : ∀ y ∈ (cs.filter keep).map f, y.2 = some value := fun y hy => by
        obtain ⟨b, hb, rfl⟩ := List.mem_map.1 hy
        exact hlater _ (List.mem_map_of_mem (List.mem_filter.1 hb).1)
      rw [List.find?_cons_of_pos (by simp [hvisible])]
      cases hkeep : keep c with
      | true =>
        rw [List.filter_cons_of_pos hkeep, List.map_cons, hc]
        refine iff_of_true ⟨hfirst, hleft⟩ (.inl fun first hf => ?_)
        rw [← Option.some.inj hf]
        exact hkeep
      | false =>
        rw [List.filter_cons_of_neg (by simp [hkeep]), spaced_iff_hidden hleft]
        simp [shown, hkeep]

/-- Behind the hidden children at the front, the first one is without the property, and all others have the value. -/
theorem spaced_iff_dropWhile : ∀ {row : Row}, Spaced value row ↔
    ∀ first later, row.dropWhile (fun y => !y.1) = first :: later → first.2 = none ∧ ∀ y ∈ later, y.2 = some value
  | [] => by simp [Spaced]
  | (false, _) :: row => by
    have ih : Spaced value row ↔ _ := spaced_iff_dropWhile
    exact ih
  | (true, z) :: row => by
    constructor
    · rintro ⟨hz, hrow⟩ first later heq
      obtain ⟨rfl, rfl⟩ := List.cons.inj heq
      exact ⟨hz, hrow⟩
    · exact fun h => h (true, z) row rfl

example : Spaced "4px" [(false, some "9px"), (true, none), (false, some "4px"), (true, some "4px")] := by decide

-- A row of a page would be evaluated whenever its being spaced is unfolded.
attribute [irreducible] Spaced

end Row

namespace Surface

/-- What the spacing of its parent is about in a node. -/
def look (s : Surface) (property : String) (c : Slot) : Bool × Option String :=
  (isVisible s c, RenderTarget.style s c property)

/-- The row of a node's children. -/
def row (s : Surface) (property : String) (k : Slot) : Row := (s.node k).children.map (s.look property)

/-- The spacing rule of a node gives the property a value. -/
def SpacedBy (s : Surface) (property : String) (k : Slot) (value : String) : Prop :=
  Layout.spacingRule? s k = some (property, value) ∧ value ≠ ""

/-- **Every node with a rule about the property has spaced children.** -/
def WellSpaced (s : Surface) (property : String) : Prop :=
  ∀ k value, (s.node k).live → s.SpacedBy property k value → Row.Spaced value (s.row property k)

variable {s t : Surface} {property value : String} {k n c d : Slot}

theorem wellSpaced_iff_liveSlots : s.WellSpaced property ↔ ∀ k ∈ s.liveSlots, ∀ rule ∈ Layout.spacingRule? s k,
    rule.1 = property → rule.2 ≠ "" → Row.Spaced rule.2 (s.row property k) := by
  constructor
  · rintro h k hk ⟨_, value⟩ hrule rfl hvalue
    exact h k value ((mem_liveSlots s).1 hk) ⟨hrule, hvalue⟩
  · intro h k value hk hrule
    exact h k ((mem_liveSlots s).2 hk) (property, value) hrule.1 rfl hrule.2

instance (s : Surface) (property : String) : Decidable (s.WellSpaced property) :=
  decidable_of_iff _ wellSpaced_iff_liveSlots.symm

theorem look_of_styles (h : (t.node c).styles = (s.node d).styles) (property : String) :
    t.look property c = s.look property d := by
  have hstyle : ∀ q, RenderTarget.style t c q = RenderTarget.style s d q := fun q => by
    show ((t.node c).styles.get? q).map _ = ((s.node d).styles.get? q).map _
    rw [h]
  unfold look isVisible
  rw [hstyle, hstyle]

theorem spacedBy_of_attributes (h : (t.node c).attributes = (s.node d).attributes) :
    t.SpacedBy property c value ↔ s.SpacedBy property d value := by
  have hattribute : ∀ name, attributeOf t c name = attributeOf s d name := fun name => by
    show (t.node c).attributes.get? name = (s.node d).attributes.get? name
    rw [h]
  unfold SpacedBy Layout.spacingRule?
  rw [hattribute]

theorem row_congr (hchildren : (t.node k).children = (s.node k).children)
    (hlook : ∀ c, s.Child k c → t.look property c = s.look property c) : t.row property k = s.row property k := by
  unfold row
  rw [hchildren]
  exact List.map_congr_left hlook

/-! ## Texts and styles -/

/-- A text takes a whole row away. -/
theorem WellSpaced.setText (h : s.WellSpaced property) (hs : s.Linked) (n : Slot) (text : String) :
    (s.setText n text).WellSpaced property := by
  intro k value hk hrule
  obtain ⟨hlive, hnode⟩ := node_setText hk
  have hrule' : s.SpacedBy property k value := (spacedBy_of_attributes (by rw [hnode])).1 hrule
  have hchildren : ((s.setText n text).node k).children = if k = n then [] else (s.node k).children := by rw [hnode]
  by_cases hkn : k = n
  · unfold row
    rw [hchildren, if_pos hkn]
    exact Row.spaced_nil value
  · rw [if_neg hkn] at hchildren
    rw [row_congr hchildren fun c hc => ?_]
    · exact h k value hlive hrule'
    · have hc' : (s.setText n text).Child k c := by
        unfold Child
        rw [hchildren]
        exact hc
      exact look_of_styles (by rw [(node_setText ((hs.setText n text).child hc').2.1).2]) property

/-- Styles may change, but not those that the row of a spaced node is about. -/
theorem WellSpaced.restyled (h : s.WellSpaced property) {changed : Slot → String → Prop} (hr : AlikeBut changed s t)
    (hlook : ∀ k value c, s.SpacedBy property k value → s.Child k c → t.look property c = s.look property c) :
    t.WellSpaced property := by
  intro k value hk hrule
  rw [hr.sameTree.live] at hk
  have hrule' : s.SpacedBy property k value := (spacedBy_of_attributes (by rw [hr.node])).1 hrule
  rw [row_congr (hr.sameTree.children k) fun c => hlook k value c hrule']
  exact h k value hk hrule'

theorem AlikeBut.look {changed : Slot → String → Prop} (hr : AlikeBut changed s t) (hdisplay : ¬ changed c "display")
    (hproperty : ¬ changed c property) : t.look property c = s.look property c := by
  have hstyle : ∀ q, ¬ changed c q → RenderTarget.style t c q = RenderTarget.style s c q := hr.style c
  unfold Surface.look isVisible
  rw [hstyle "display" hdisplay, hstyle property hproperty]

theorem style_clear (hn : (s.node n).live) (property : String) (important : Bool) :
    RenderTarget.style (s.setStyle n property none important) n property = none := by
  show (((s.setStyle n property none important).node n).styles.get? property).map _ = none
  rw [node_clear hn, if_pos rfl, Table.get?_erase, if_pos rfl]
  rfl

theorem style_setAll (hvalue : value ≠ "") (cs : List Slot) (hlive : ∀ c ∈ cs, (s.node c).live) (k : Slot) :
    RenderTarget.style (cs.foldl (fun s c => s.setStyle c property (some value) false) s) k property =
      if k ∈ cs then some value else RenderTarget.style s k property := by
  show (((cs.foldl (fun s c => s.setStyle c property (some value) false) s).node k).styles.get? property).map _ = _
  rw [node_setAll hvalue cs hlive]
  split
  · rw [Table.get?_insert_self]
    rfl
  · rfl

/-- **Spacing children spaces them.** -/
theorem spaced_spaceChildren {children : List Slot} (hlive : ∀ c ∈ children, (s.node c).live) (hnodup : children.Nodup)
    (hproperty : property ≠ "display") (hvalue : value ≠ "") :
    Row.Spaced value (children.map ((Layout.spaceChildren s property value children).look property)) := by
  have hr := restyled_spaceChildren s property value children
  have hvisible : ∀ c, isVisible (Layout.spaceChildren s property value children) c = isVisible s c := fun c => by
    have hstyle : RenderTarget.style (Layout.spaceChildren s property value children) c "display" =
        RenderTarget.style s c "display" := hr.style c "display" fun h => hproperty h.2.symm
    unfold isVisible
    rw [hstyle]
  have hdrop : children.dropWhile ((fun y : Bool × Option String => !y.1) ∘
      (Layout.spaceChildren s property value children).look property) = children.dropWhile fun c => !isVisible s c := by
    congr 1
    funext c
    show (!isVisible _ c) = _
    rw [hvisible]
  rw [Row.spaced_iff_dropWhile, List.dropWhile_map, hdrop]
  intro y row hrow
  cases hshown : children.dropWhile fun c => !isVisible s c with
  | nil =>
    rw [hshown] at hrow
    cases hrow
  | cons first later =>
    rw [hshown] at hrow
    obtain ⟨rfl, rfl⟩ := List.cons.inj hrow
    have hsub : List.Sublist (first :: later) children := hshown ▸ List.dropWhile_sublist _
    have hmem : ∀ c ∈ first :: later, (s.node c).live := fun c hc => hlive c (hsub.subset hc)
    have hfirst : first ∉ later := (List.nodup_cons.1 (hnodup.sublist hsub)).1
    have hclear := restyled_setStyle s first property none false
    have hstyle : ∀ k, RenderTarget.style (Layout.spaceChildren s property value children) k property =
        if k ∈ later then some value else
          RenderTarget.style (s.setStyle first property none false) k property := by
      intro k
      unfold Layout.spaceChildren
      rw [hshown]
      exact style_setAll hvalue later (fun c hc =>
        (hclear.sameTree.live c).trans (hmem c (List.mem_cons_of_mem first hc))) k
    refine ⟨?_, fun z hz => ?_⟩
    · show RenderTarget.style _ first property = none
      rw [hstyle, if_neg hfirst]
      exact style_clear (hmem first List.mem_cons_self) property false
    · obtain ⟨c, hc, rfl⟩ := List.mem_map.1 hz
      show RenderTarget.style _ c property = some value
      rw [hstyle, if_pos hc]

/-- **Showing or hiding a node keeps all rows spaced**: its own row is spaced anew. -/
theorem WellSpaced.refreshSpacing (h : s.WellSpaced property) (hs : s.Linked) (hproperty : property ≠ "display")
    (display : String) (n : Slot) :
    (Layout.refreshSpacing (s.setStyle n "display" (some display) false) n).WellSpaced property := by
  have hd := restyled_setStyle s n "display" (some display) false
  have hu := hd.sameTree.linked hs
  generalize s.setStyle n "display" (some display) false = u at hd hu ⊢
  have hr := restyled_refreshSpacing u n
  intro k value hk hrule
  rw [hr.sameTree.live] at hk
  replace hrule : u.SpacedBy property k value := (spacedBy_of_attributes (by rw [hr.node])).1 hrule
  by_cases hparent : (u.node n).parent = some k
  · -- The row of the node.
    have hspace : Layout.refreshSpacing u n = Layout.spaceChildren u property value (u.node k).children := by
      rw [refreshSpacing_of_parent hparent, hrule.1]
    unfold row
    rw [hr.sameTree.children, hspace]
    exact spaced_spaceChildren (fun c hc => (hu.child (p := k) hc).2.1) (hu.nodup_children k) hproperty hrule.2
  · -- Another row has none of the nodes in it that change.
    have hrule' : s.SpacedBy property k value := (spacedBy_of_attributes (by rw [hd.node])).1 hrule
    have hbeside : ∀ c, u.Child k c → ∀ q, ¬ ∃ p, (u.node n).parent = some p ∧ u.Child p c ∧
        u.spacingProperty? p = some q := fun c hc q ⟨p, hp, hpc, _⟩ => hparent (by rw [hp, hu.unique_parent hpc hc])
    have hself : ∀ c, s.Child k c → c ≠ n := by
      rintro c hc rfl
      rw [hd.sameTree.parent] at hparent
      exact hparent (hs.child hc).2.2
    rw [row_congr (hr.sameTree.children k) fun c hc => hr.look (hbeside c hc _) (hbeside c hc _),
      row_congr (hd.sameTree.children k) fun c hc => hd.look (fun h => hself c hc h.1) fun h => hself c hc h.1]
    exact h k value (by rw [← hd.sameTree.live]; exact hk) hrule'

/-! ## Children that go -/

def firstVisible? (s : Surface) (k : Slot) : Option Slot := (s.node k).children.find? (isVisible s)

/-- A row that has lost some children. -/
theorem spaced_row_filter {keep : Slot → Bool} (h : Row.Spaced value (s.row property k))
    (hchildren : (t.node k).children = (s.node k).children.filter keep)
    (hlook : ∀ c, s.Child k c → keep c → t.look property c = s.look property c) :
    Row.Spaced value (t.row property k) ↔ (∀ first, s.firstVisible? k = some first → keep first) ∨
      ∀ c, s.Child k c → keep c → isVisible s c = false := by
  have hrow : t.row property k = ((s.node k).children.filter keep).map (s.look property) := by
    unfold row
    rw [hchildren]
    exact List.map_congr_left fun c hc => hlook c (List.mem_filter.1 hc).1 (List.mem_filter.1 hc).2
  rw [hrow]
  exact Row.spaced_filter h

/-- **No row has lost its first visible child while another visible one is left.** -/
def KeepsFirst (s t : Surface) (property : String) : Prop :=
  ∀ k value, (t.node k).live → s.SpacedBy property k value →
    (∀ first, s.firstVisible? k = some first → (t.node first).live) ∨
      ∀ c, s.Child k c → (t.node c).live → isVisible s c = false

/-- A removal takes the children that do not live. -/
theorem children_remove (hs : s.Linked) (hn : (s.node n).live) (hk : ((s.remove n).node k).live) :
    ((s.remove n).node k).children = (s.node k).children.filter fun c => ((s.remove n).node c).live := by
  rw [node_remove hk]
  have hkept : ∀ c, s.Child k c → ((s.remove n).node c).live = (c != n) := fun c hc => by
    by_cases hcn : c = n
    · rw [hcn, remove_self_dead]
      simp
    · have hlive : ((s.remove n).node c).live := by
        refine (live_remove_iff hs hn c).2 ⟨(hs.child hc).2.1, fun hb => ?_⟩
        exact ((live_remove_iff hs hn k).1 hk).2 (hs.below_parent hb hcn (hs.child hc).2.2)
      rw [hlive]
      simp [hcn]
  rw [List.filter_congr (q := (· != n)) hkept]
  split
  · rfl
  · next hparent =>
    refine (List.filter_eq_self.2 fun c hc => ?_).symm
    rw [bne_iff_ne]
    rintro rfl
    exact hparent (hs.child (p := k) hc).2.2

theorem node_destroyAll (hs : s.Linked) (keys : List NodeKey) :
    ∀ k, ((ListRegion.destroyAll s keys).1.node k).live → (ListRegion.destroyAll s keys).1.node k =
      { s.node k with
        children := (s.node k).children.filter fun c => ((ListRegion.destroyAll s keys).1.node c).live } := by
  refine (ListRegion.destroyAll_induction (I := fun t : Surface => t.Linked ∧
    ∀ k, (t.node k).live → t.node k =
      { s.node k with children := (s.node k).children.filter fun c => (t.node c).live }) keys s
    (fun t n key _ ⟨ht, hnode⟩ hl => ?_) ⟨hs, fun k hk => ?_⟩).2
  · have hn := (ListRegion.locate_live hl).1
    refine ⟨ht.remove hn, fun k hk => ?_⟩
    change ((t.remove n).node k).live at hk
    have hchildren := children_remove ht hn hk
    have hnode' := hnode k (live_of_live_remove hk)
    rw [show ((t.node k).children) = _ from congrArg Node.children hnode', List.filter_filter] at hchildren
    show (t.remove n).node k = _
    rw [show (t.remove n).node k = { t.node k with children := ((t.remove n).node k).children } by
      conv_lhs => rw [node_remove hk]
      rw [node_remove hk], hchildren, hnode']
    simp only
    congr 1
    refine List.filter_congr fun c _ => ?_
    show (((t.remove n).node c).live && (t.node c).live) = ((t.remove n).node c).live
    cases hc : ((t.remove n).node c).live with
    | true => rw [live_of_live_remove hc]; rfl
    | false => rfl
  · rw [List.filter_eq_self.2 fun c hc => (hs.child (p := k) hc).2.1]

theorem wellSpaced_destroyAll_iff (h : s.WellSpaced property) (hs : s.Linked) (keys : List NodeKey) :
    (ListRegion.destroyAll s keys).1.WellSpaced property ↔ KeepsFirst s (ListRegion.destroyAll s keys).1 property := by
  have hnode := node_destroyAll hs keys
  generalize (ListRegion.destroyAll s keys).1 = t at hnode ⊢
  have hrow : ∀ k value, (t.node k).live → s.SpacedBy property k value → (Row.Spaced value (t.row property k) ↔ _) :=
    fun k value hk hrule => by
      have hlive : (s.node k).live := by
        have := hk
        rw [hnode k hk] at this
        exact this
      exact spaced_row_filter (h k value hlive hrule) (by rw [hnode k hk]) fun c _ hc =>
        look_of_styles (by rw [hnode c hc]) property
  have hrule : ∀ k value, (t.node k).live → (t.SpacedBy property k value ↔ s.SpacedBy property k value) :=
    fun k value hk => spacedBy_of_attributes (by rw [hnode k hk])
  constructor
  · exact fun ht k value hk hr => (hrow k value hk hr).1 (ht k value hk ((hrule k value hk).2 hr))
  · exact fun hf k value hk hr => (hrow k value hk ((hrule k value hk).1 hr)).2 (hf k value hk ((hrule k value hk).1 hr))

/-! ## Children that move -/

theorem shown_row : (s.row property k).shown ↔ ∃ c, s.Child k c ∧ isVisible s c := by
  unfold Row.shown row
  rw [List.any_map, List.any_eq_true]
  rfl

theorem shown_row_eq_false : (s.row property k).shown = false ↔ ∀ c, s.Child k c → isVisible s c = false := by
  unfold Row.shown row
  rw [List.any_map, List.any_eq_false]
  simp only [Function.comp_apply, Bool.not_eq_true]
  rfl

section

variable {slot : Slot}

theorem look_append (hslot : (s.node slot).live) (hn : (s.node n).live) (c : Slot) :
    (s.append slot n).look property c = s.look property c := look_of_styles (Node.styles_eq (own_append hslot hn c)) property

/-- The row that a node is moved to has it at the end. -/
theorem spaced_append_slot (hslot : (s.node slot).live) (hn : (s.node n).live) (hmoves : (s.node n).parent ≠ some slot) :
    Row.Spaced value ((s.append slot n).row property slot) ↔ Row.Spaced value (s.row property slot) ∧
      (∀ c, s.Child slot c → isVisible s c → RenderTarget.style s n property = some value) ∧
      ((∀ c, s.Child slot c → isVisible s c = false) → isVisible s n → RenderTarget.style s n property = none) := by
  have hrow : (s.append slot n).row property slot = s.row property slot ++ [s.look property n] := by
    unfold row
    rw [Linked.node_append hslot hn, if_neg hmoves, if_pos rfl, List.map_append,
      List.map_congr_left fun c _ => look_append hslot hn c]
    exact congrArg _ (congrArg (· :: []) (look_append hslot hn n))
  rw [hrow, Row.spaced_concat, shown_row, shown_row_eq_false]
  exact and_congr_right' (and_congr_left' ⟨fun h c hc hv => h ⟨c, hc, hv⟩, fun h ⟨c, hc, hv⟩ => h c hc hv⟩)

theorem spaced_append_from (hslot : (s.node slot).live) (hn : (s.node n).live) (hk : k ≠ slot)
    (hp : (s.node n).parent = some k) (h : Row.Spaced value (s.row property k)) :
    Row.Spaced value ((s.append slot n).row property k) ↔
      s.firstVisible? k ≠ some n ∨ ∀ c, s.Child k c → c ≠ n → isVisible s c = false := by
  have hchildren : ((s.append slot n).node k).children = (s.node k).children.filter (· != n) := by
    rw [Linked.node_append hslot hn, if_pos hp, if_neg hk]
    simp
  rw [spaced_row_filter h hchildren fun c _ _ => look_append hslot hn c]
  simp only [bne_iff_ne]
  exact or_congr ⟨fun hf he => hf n he rfl, fun hf first hfirst he => hf (he ▸ hfirst)⟩ Iff.rfl

theorem row_append_other (hslot : (s.node slot).live) (hn : (s.node n).live) (hk : k ≠ slot)
    (hp : (s.node n).parent ≠ some k) : (s.append slot n).row property k = s.row property k :=
  row_congr (by rw [Linked.node_append hslot hn, if_neg hp, if_neg hk]; simp) fun c _ => look_append hslot hn c

end

/-- **A node may be moved without breaking a row**: it is not the first of several visible children where it was, and
at the end of its new row it has the value, or no other child is visible and it is hidden or without the property. -/
structure MoveFits (s : Surface) (property : String) (slot n : Slot) : Prop where
  leaves : ∀ k value, (s.node n).parent = some k → s.SpacedBy property k value →
    s.firstVisible? k ≠ some n ∨ ∀ c, s.Child k c → c ≠ n → isVisible s c = false
  behind : ∀ value c, s.SpacedBy property slot value → s.Child slot c → isVisible s c →
    RenderTarget.style s n property = some value
  alone : ∀ value, s.SpacedBy property slot value → (∀ c, s.Child slot c → isVisible s c = false) → isVisible s n →
    RenderTarget.style s n property = none

theorem wellSpaced_append_iff (h : s.WellSpaced property) (hs : s.Linked) {slot : Slot} (hslot : (s.node slot).live)
    (hn : (s.node n).live) (hmoves : (s.node n).parent ≠ some slot) :
    (s.append slot n).WellSpaced property ↔ s.MoveFits property slot n := by
  have hrule : ∀ k value, (s.append slot n).SpacedBy property k value ↔ s.SpacedBy property k value := fun k value =>
    spacedBy_of_attributes (Node.attributes_eq (own_append hslot hn k))
  have hlive := live_append hslot hn
  constructor
  · intro ht
    have hspaced : ∀ k value, (s.node k).live → s.SpacedBy property k value →
        Row.Spaced value ((s.append slot n).row property k) := fun k value hk hr =>
      ht k value ((hlive k).trans hk) ((hrule k value).2 hr)
    refine ⟨fun k value hp hr => ?_, fun value c hr => ?_, fun value hr => ?_⟩
    · have hk := hs.parent_live hp
      exact (spaced_append_from hslot hn (fun he => hmoves (he ▸ hp)) hp (h k value hk hr)).1 (hspaced k value hk hr)
    · exact ((spaced_append_slot hslot hn hmoves).1 (hspaced slot value hslot hr)).2.1 c
    · exact ((spaced_append_slot hslot hn hmoves).1 (hspaced slot value hslot hr)).2.2
  · intro hf k value hk hr
    rw [hlive] at hk
    rw [hrule] at hr
    by_cases hslotk : k = slot
    · rw [hslotk] at hr ⊢
      exact (spaced_append_slot hslot hn hmoves).2
        ⟨h slot value hslot hr, fun c => hf.behind value c hr, hf.alone value hr⟩
    · by_cases hp : (s.node n).parent = some k
      · exact (spaced_append_from hslot hn hslotk hp (h k value hk hr)).2 (hf.leaves k value hp hr)
      · rw [row_append_other hslot hn hslotk hp]
        exact h k value hk hr

end Surface
end BoundPage
