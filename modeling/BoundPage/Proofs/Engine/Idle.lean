import BoundPage.Proofs.Engine.Forests
/-!
# Nothing is left to be placed

A placement passes over the registrations that do not have their turn (`ExternalChildren.Waits`), and leaves no others
(`ExternalChildren.idle_placePending`): placing an object only moves nodes, which shows or hides none and lets none be
missed.
-/
namespace BoundPage
open RenderTarget

namespace Surface

/-- **The pages show the same**: the same nodes are there, with the same data-ids, and the same are visible. -/
structure SameSight (s t : Surface) : Prop where
  size : t.size = s.size
  live : ∀ k, (t.node k).live = (s.node k).live
  dataId : ∀ k, (t.node k).id = (s.node k).id
  visible : ∀ k, isVisible t k = isVisible s k

namespace SameSight

variable {s t : Surface}

theorem of_own (hsize : t.size = s.size) (h : ∀ k, (t.node k).own = (s.node k).own) : SameSight s t where
  size := hsize
  live k := Node.live_eq (h k)
  dataId k := Node.id_eq (h k)
  visible k := by
    show (Surface.style t k "display" != _) = (Surface.style s k "display" != _)
    unfold Surface.style
    rw [Node.styles_eq (h k)]

theorem locate (h : SameSight s t) (key : NodeKey) : RenderTarget.locate t key = RenderTarget.locate s key :=
  find?_congr h.size h.live h.dataId key.text

theorem conditionHolds (h : SameSight s t) (id : String) (condition : List String) :
    ExternalChildren.conditionHolds t id condition = ExternalChildren.conditionHolds s id condition := by
  have hshown : ExternalChildren.isShown t id = ExternalChildren.isShown s id := by
    funext element
    unfold ExternalChildren.isShown
    rw [h.locate]
    congr 1
    exact funext h.visible
  unfold ExternalChildren.conditionHolds
  rw [hshown]

end SameSight

theorem AlikeBut.sameSight {changed : Slot → String → Prop} {s t : Surface} (h : AlikeBut changed s t)
    (hvisible : ∀ k, isVisible t k = isVisible s k) : SameSight s t where
  size := h.size
  live := h.sameTree.live
  dataId k := by rw [h.node]
  visible := hvisible

end Surface

namespace ExternalChildren

section

variable {S : Type} [RenderTarget S] {c : ExternalChildren} {s : S} {id : String} {r : Registration}

/-- **A registration does not have its turn**: its object has been placed, its condition does not hold, or its slot is
missing. -/
def Waits (c : ExternalChildren) (s : S) (id : String) (r : Registration) : Prop :=
  c.isPlaced r.object ∨ conditionHolds s id r.condition = false ∨ locate s ⟨r.slot, id⟩ = none

def Idle (c : ExternalChildren) (s : S) (id : String) : Prop := ∀ r ∈ c.registrations, c.Waits s id r

theorem idle_of_pending (h : c.pending = []) (s : S) (id : String) : c.Idle s id := fun r hr => by
  have hplaced := List.filter_eq_nil_iff.1 h r hr
  exact .inl (by simpa using hplaced)

/-- A registration that does not have its turn is passed over. -/
theorem Progress.next_of_waits {p : Progress S} (h : p.children.Waits p.surface id r) :
    (p.next id r).surface = p.surface ∧ (p.next id r).children = p.children ∧ (p.next id r).placed = p.placed := by
  unfold next
  split
  · exact ⟨rfl, rfl, rfl⟩
  · next hp =>
    simp only
    split
    · exact ⟨rfl, rfl, rfl⟩
    · next hc =>
      rcases h with h | h | h
      · exact absurd h hp
      · rw [h] at hc
        exact absurd rfl hc
      · rw [h]
        exact ⟨rfl, rfl, rfl⟩

/-- One that has its turn is placed. -/
theorem Progress.next_of_not_waits {p : Progress S} (h : ¬ p.children.Waits p.surface id r) :
    ∃ slot, locate p.surface ⟨r.slot, id⟩ = some slot ∧
      (p.next id r).surface = (locateExternal p.surface ⟨r.object, id⟩).foldl (moveUnder slot) p.surface ∧
      (p.next id r).children = { p.children with placed := p.children.placed ++ [r.object] } ∧
      (p.next id r).placed = p.placed ++ [r.object] := by
  unfold Waits at h
  rw [not_or, not_or, Bool.not_eq_false] at h
  obtain ⟨hp, hc, hs⟩ := h
  obtain ⟨slot, hslot⟩ := Option.ne_none_iff_exists'.1 hs
  unfold next
  rw [if_neg hp]
  simp only [hc, hslot]
  exact ⟨slot, rfl, rfl, rfl, rfl⟩

theorem Idle.progress (h : c.Idle s id) {pre : List Registration} (hsub : pre ⊆ c.registrations) :
    (c.progress s id pre).surface = s ∧ (c.progress s id pre).children = c ∧ (c.progress s id pre).placed = [] := by
  induction pre using List.reverseRecOn with
  | nil => exact ⟨rfl, rfl, rfl⟩
  | append_singleton pre r ih =>
    obtain ⟨hsurface, hchildren, hplaced⟩ := ih fun r hr => hsub (List.mem_append_left _ hr)
    have hwaits : (c.progress s id pre).children.Waits (c.progress s id pre).surface id r := by
      rw [hsurface, hchildren]
      exact h r (hsub (List.mem_append_right _ List.mem_cons_self))
    obtain ⟨hsurface', hchildren', hplaced'⟩ := Progress.next_of_waits hwaits
    rw [progress_append]
    exact ⟨hsurface'.trans hsurface, hchildren'.trans hchildren, hplaced'.trans hplaced⟩

/-- Where no registration has its turn, nothing is placed. -/
theorem Idle.placePending (h : c.Idle s id) :
    (c.placePending s id).surface = s ∧ (c.placePending s id).children = c :=
  (h.progress (List.Subset.refl _)).imp_right And.left

theorem Idle.placed (h : c.Idle s id) : (c.placePending s id).placed = [] := (h.progress (List.Subset.refl _)).2.2

theorem Idle.not_moves (h : c.Idle s id) {slot n : Nat} {t : S} : ¬ c.Moves s id r slot n t := by
  rintro ⟨pre, post, -, -, hr, hplaced, hcondition, hslot, -, -⟩
  obtain ⟨hsurface, hchildren, -⟩ := h.progress (hr ▸ List.subset_append_left pre (r :: post))
  rw [hsurface] at hcondition hslot
  rw [hchildren] at hplaced
  rcases h r (by rw [hr]; simp) with hw | hw | hw
  · rw [hplaced] at hw
    cases hw
  · rw [hcondition] at hw
    cases hw
  · rw [hslot] at hw
    cases hw

end

variable {c : ExternalChildren} {s t : Surface} {id : String} {r : Registration}

theorem Waits.mono {c' : ExternalChildren} (h : c.Waits s id r)
    (hplaced : ∀ object, c.isPlaced object → c'.isPlaced object) : c'.Waits s id r := h.imp_left (hplaced r.object)

theorem Waits.sameSight (h : c.Waits s id r) (hst : Surface.SameSight s t) : c.Waits t id r := by
  unfold Waits
  rw [hst.conditionHolds, hst.locate]
  exact h

theorem Idle.sameSight (h : c.Idle s id) (hst : Surface.SameSight s t) : c.Idle t id :=
  fun r hr => (h r hr).sameSight hst

theorem size_moveUnder (slot n : Slot) (s : Surface) : (moveUnder slot s n).size = s.size := by
  unfold moveUnder
  split
  · rfl
  · show (s.append slot n).size = _
    unfold Surface.append
    rw [Surface.size_attach, Surface.size_detach]

theorem own_placePending (c : ExternalChildren) (s : Surface) (id : String) :
    (c.placePending s id).surface.size = s.size ∧
      ∀ k, ((c.placePending s id).surface.node k).own = (s.node k).own :=
  (moves_induction (I := fun t : Surface => t.size = s.size ∧ ∀ k, (t.node k).own = (s.node k).own)
    ⟨rfl, fun _ => rfl⟩ fun _ _ _ _ hm h =>
      ⟨(size_moveUnder _ _ _).trans h.1, fun k => (own_moveUnder hm.live.1 hm.live.2 k).trans (h.2 k)⟩).2

theorem linked_placePending (hs : s.Linked) (c : ExternalChildren) (id : String) :
    (c.placePending s id).surface.Linked :=
  (moves_induction (I := Surface.Linked) hs fun _ _ _ _ hm h => linked_moveUnder h hm.live.1 hm.live.2).2

theorem size_foldl_moveUnder (slot : Slot) : ∀ (ns : List Slot) (s : Surface),
    (ns.foldl (moveUnder slot) s).size = s.size
  | [], _ => rfl
  | n :: ns, s => (size_foldl_moveUnder slot ns _).trans (size_moveUnder slot n s)

theorem sameSight_foldl_moveUnder {slot : Slot} {ns : List Slot} (hs : (s.node slot).live)
    (hns : ∀ n ∈ ns, (s.node n).live) : Surface.SameSight s (ns.foldl (moveUnder slot) s) :=
  .of_own (size_foldl_moveUnder slot ns s) (own_foldl_moveUnder ns s hs hns)

/-- **After a placement no registration has its turn.** -/
theorem idle_placePending (c : ExternalChildren) (s : Surface) (id : String) :
    (c.placePending s id).children.Idle (c.placePending s id).surface id := by
  have hprogress : ∀ pre : List Registration, ∀ r ∈ pre,
      (c.progress s id pre).children.Waits (c.progress s id pre).surface id r := by
    intro pre
    induction pre using List.reverseRecOn with
    | nil => exact fun _ h => by cases h
    | append_singleton pre r ih =>
      rw [progress_append]
      intro r' hr'
      -- Those before keep waiting: if the registration has its turn, this only moves nodes.
      by_cases hr : (c.progress s id pre).children.Waits (c.progress s id pre).surface id r
      · obtain ⟨hsurface, hchildren, -⟩ := Progress.next_of_waits hr
        rw [hsurface, hchildren]
        rcases List.mem_append.1 hr' with hr' | hr'
        · exact ih r' hr'
        · exact List.mem_singleton.1 hr' ▸ hr
      · obtain ⟨slot, hslot, hsurface, hchildren, -⟩ := Progress.next_of_not_waits hr
        rw [hsurface, hchildren]
        rcases List.mem_append.1 hr' with hr' | hr'
        · refine ((ih r' hr').mono fun object ho => (isPlaced_append rfl).2 (.inl ho)).sameSight ?_
          exact sameSight_foldl_moveUnder (ListRegion.locate_live hslot).1 fun _ hn => locateExternal_live hn
        · exact .inl ((isPlaced_append rfl).2 (.inr (List.mem_singleton.1 hr' ▸ List.mem_singleton_self r.object)))
  intro r hr
  rw [Engine.registrations_placePending] at hr
  exact hprogress c.registrations r hr

end ExternalChildren

/-- What is placed after a pass is moved, and otherwise left as it is. -/
theorem Engine.own_perform {H W : Type} {g : Engine Surface H W} {op : Operation} {p : Pass Surface}
    (hop : g.passOf? op = some p) :
    (g.perform op).surface.size = (p.run g.surface).surface.size ∧
      ∀ k, ((g.perform op).surface.node k).own = ((p.run g.surface).surface.node k).own := by
  rw [surface_perform]
  cases hc : g.placementOf? op with
  | none =>
    rw [passOf?_of_placementOf? hc] at hop
    cases hop
  | some c =>
    have hpage : c.page = (p.run g.surface).surface := by
      rw [(placementOf?_eq_some hc).1, hop]
      rfl
    dsimp only
    rw [hpage]
    exact c.children.own_placePending (p.run g.surface).surface c.instanceId

end BoundPage
