import BoundPage.Proofs.Write.Acts
import BoundPage.Proofs.Write.Footprint
/-!
# Acts on a page

An act is carried out on a node of a page (`Act.run`).  What a list of acts leaves of the styles of its node is
`Looks.after`, except for what the node is spaced by (`Act.looks_foldl_run`).
-/
namespace BoundPage
open RenderTarget

namespace Surface

variable {s : Surface} {n : Slot} {property : String}

def looks (s : Surface) (n : Slot) : Looks := (s.node n).styles.get?

theorem looks_setText {k : Slot} {text : String} (hk : ((s.setText n text).node k).live) :
    (s.setText n text).looks k = s.looks k := by
  unfold looks
  rw [(node_setText hk).2]

theorem looks_setStyle (hn : n < s.size) (e : StyleEdit) :
    (setStyle s n e.property e.value e.important).looks n property =
      if e.property = property then e.stored? else s.looks n property := by
  unfold looks setStyle
  rw [node_modify_self s _ hn]
  unfold StyleEdit.stored?
  cases e.value with
  | none => simp [Table.get?_erase, eq_comm]
  | some v => by_cases hv : v.isEmpty <;> simp [hv, Table.get?_erase, Table.get?_insert, eq_comm, Option.filter]

theorem looks_applyAll : ∀ (es : List StyleEdit) {s : Surface}, n < s.size →
    (StyleEdit.applyAll s n es).looks n property = (StyleEdit.outcome? property es).getD (s.looks n property)
  | [], _, _ => rfl
  | e :: es, s, hn => by
    have hsize : (setStyle s n e.property e.value e.important : Surface).size = s.size :=
      (restyled_setStyle s n e.property e.value e.important).size
    show (StyleEdit.applyAll (setStyle s n e.property e.value e.important : Surface) n es).looks n property = _
    rw [looks_applyAll es (hsize ▸ hn), looks_setStyle hn, StyleEdit.outcome?]
    cases StyleEdit.outcome? property es with
    | some o => rfl
    | none => split <;> rfl

theorem restyled_applyAll (s : Surface) (n : Slot) (es : List StyleEdit) :
    Restyled (fun k q => k = n ∧ ∃ e ∈ es, e.property = q) s (StyleEdit.applyAll s n es) :=
  Restyled.foldl es s fun t e he => (restyled_setStyle t n e.property e.value e.important).mono
    fun _ _ h => ⟨h.1, e, he, h.2.symm⟩

end Surface

namespace Act

/-- Carries out an act on a node. -/
def run {S : Type} [RenderTarget S] (value : String) (n : Nat) (s : S) (a : Act) : S :=
  let t := StyleEdit.applyAll s n (a.edits (style s n))
  match a with
  | text => setText t n value
  | visible _ => Layout.refreshSpacing t n
  | _ => t

variable {value : String} {n : Slot} {s : Surface}

/-- What an act restyles: some properties of its node and, if it shows or hides the node, the property that this and the
nodes beside it are spaced by. -/
theorem restyled_run {a : Act} (ha : a ≠ text) :
    Surface.Restyled (fun k q => k = n ∧ q ∈ a.edited ∨ (∃ shown, a = visible shown) ∧
      ∃ parent, (s.node n).parent = some parent ∧ s.Child parent k ∧ s.spacingProperty? parent = some q) s
      (a.run value n s) := by
  have hstyle : Surface.Restyled (fun k q => k = n ∧ q ∈ a.edited) s
      (StyleEdit.applyAll s n (a.edits (style s n))) :=
    (Surface.restyled_applyAll s n _).mono fun k q ⟨hk, e, he, hq⟩ => ⟨hk, hq ▸ property_mem_edited he⟩
  cases a with
  | text => exact absurd rfl ha
  | visible shown =>
    cases shown
    all_goals
      refine (Pass.restyled_visible s n _).mono fun k q h => ?_
      rcases h with ⟨hk, hq⟩ | h
      · exact .inl ⟨hk, List.mem_singleton.2 hq⟩
      · exact .inr ⟨⟨_, rfl⟩, h⟩
  | _ => exact hstyle.mono fun _ _ h => .inl h

/-- The act only edits styles, and not to show or hide its node. -/
def IsStyle (a : Act) : Prop := a ≠ text ∧ ∀ shown, a ≠ visible shown

theorem isStyle_ofParameter (parameter : String) (v : Option String) (important : Bool) :
    (ofParameter parameter v important).IsStyle := by
  unfold ofParameter
  split
  · exact ⟨Act.noConfusion, fun _ => Act.noConfusion⟩
  · split <;> exact ⟨Act.noConfusion, fun _ => Act.noConfusion⟩

theorem looks_run_of_isStyle {a : Act} {t : Surface} (ha : a.IsStyle) (hn : n < t.size) :
    (a.run value n t).looks n = (t.looks n).act a := by
  have hstyle : (StyleEdit.applyAll t n (a.edits (style t n))).looks n = (t.looks n).act a :=
    funext fun _ => Surface.looks_applyAll _ hn
  cases a with
  | text => exact absurd rfl ha.1
  | visible shown => exact absurd rfl (ha.2 shown)
  | _ => exact hstyle

/-- **What acts that only style leave of the styles of their node.** -/
theorem looks_foldl_of_isStyle : ∀ (acts : List Act) {t : Surface}, (∀ a ∈ acts, a.IsStyle) → n < t.size →
    (acts.foldl (run value n) t).looks n = (t.looks n).after acts
  | [], _, _, _ => rfl
  | a :: acts, t, h, hn => by
    have ha := h a List.mem_cons_self
    have hsize : (a.run value n t).size = t.size := (restyled_run ha.1).size
    refine (looks_foldl_of_isStyle acts (fun b hb => h b (List.mem_cons_of_mem a hb)) (hsize ▸ hn)).trans ?_
    rw [looks_run_of_isStyle ha hn]
    rfl

/-- The node holds the text and nothing else. -/
def HoldsText (s : Surface) (n : Slot) (text : String) : Prop := (s.node n).text = text ∧ (s.node n).children = []

variable {id : String} {table : DependencyTable} {t : Surface} {a : Act} {property : String}

theorem linked_run (ht : t.Linked) (a : Act) : (a.run value n t).Linked := by
  by_cases ha : a = text
  · subst ha
    exact ht.setText n value
  · exact (restyled_run ha).sameTree.linked ht

theorem kept_run (hkept : Surface.Kept s t) (a : Act) : Surface.Kept s (a.run value n t) := by
  by_cases ha : a = text
  · subst ha
    exact hkept.setText n value
  · exact hkept.restyled (restyled_run ha)

theorem kept_foldl_run : ∀ (acts : List Act) {t : Surface}, Surface.Kept s t →
    Surface.Kept s (acts.foldl (run value n) t)
  | [], _, hkept => hkept
  | a :: acts, _, hkept => kept_foldl_run acts (kept_run hkept a)

theorem looks_run (ht : t.Linked) (hkept : Surface.Kept s t)
    (hvisible : ∀ shown, a = visible shown → s.Names id table .visible n) (hl : (t.node n).live)
    (hl' : ((a.run value n t).node n).live) (hq : ¬ s.Spaced id table n property) :
    (a.run value n t).looks n property = (t.looks n).act a property := by
  have hstyle : (StyleEdit.applyAll t n (a.edits (style t n))).looks n property = (t.looks n).act a property :=
    Surface.looks_applyAll _ (Surface.lt_size_of_live t hl)
  cases a with
  | text =>
    exact congrFun (Surface.looks_setText hl') property
  | visible shown =>
    have hr := Surface.restyled_applyAll t n ((visible shown).edits (style t n))
    rw [← hstyle]
    refine (Surface.restyled_refreshSpacing _ n).entry n property fun hc => hq ?_
    exact Pass.spaced_of_child (hr.sameTree.linked ht) (hkept.restyled hr) (hvisible shown rfl)
      (by rw [hr.sameTree.live]; exact hl) hc
  | _ => exact hstyle

/-- **What a list of acts leaves of the styles of its node**, if acts read nothing that nodes are spaced by. -/
theorem looks_foldl_run (hread : ∀ r ∈ read, ¬ s.Spaced id table n r) (hq : ¬ s.Spaced id table n property) :
    ∀ (acts : List Act) {t : Surface}, t.Linked → Surface.Kept s t →
      (∀ shown, visible shown ∈ acts → s.Names id table .visible n) → ((acts.foldl (run value n) t).node n).live →
      (acts.foldl (run value n) t).looks n property = (t.looks n).after acts property
  | [], _, _, _, _, _ => rfl
  | a :: acts, t, ht, hkept, hvisible, hend => by
    have hl' : ((a.run value n t).node n).live := (kept_foldl_run acts (.refl (a.run value n t))).live n hend
    have hl : (t.node n).live := (kept_run (.refl t) a).live n hl'
    have hone : ∀ {q}, ¬ s.Spaced id table n q → (a.run value n t).looks n q = (t.looks n).act a q :=
      looks_run ht hkept (fun shown ha => hvisible shown (ha ▸ List.mem_cons_self)) hl hl'
    refine (looks_foldl_run hread hq acts (linked_run ht a) (kept_run hkept a)
      (fun shown hm => hvisible shown (List.mem_cons_of_mem a hm)) hend).trans ?_
    exact Looks.after_congr acts (fun r hr => hone (hread r hr)) (hone hq)

theorem holdsText_foldl_run : ∀ (acts : List Act) {t : Surface}, HoldsText t n value ∨ text ∈ acts →
    ((acts.foldl (run value n) t).node n).live → HoldsText (acts.foldl (run value n) t) n value
  | [], _, h, _ => h.resolve_right List.not_mem_nil
  | a :: acts, t, h, hend => by
    refine holdsText_foldl_run acts ?_ hend
    have hl' : ((a.run value n t).node n).live := (kept_foldl_run acts (.refl (a.run value n t))).live n hend
    by_cases ha : a = text
    · subst ha
      left
      have hnode : (run value n t text).node n = { t.node n with children := [], text := value } := by
        have := (Surface.node_setText hl').2
        rw [if_pos rfl, if_pos rfl] at this
        exact this
      unfold HoldsText
      rw [hnode]
      exact ⟨rfl, rfl⟩
    · refine h.imp (fun h => ?_) fun h => (List.mem_cons.1 h).resolve_left (Ne.symm ha)
      unfold HoldsText
      rw [(restyled_run ha).node n]
      exact h

end Act

end BoundPage
