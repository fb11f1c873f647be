import Mathlib.Data.List.Sort
import BoundPage.Proofs.Engine.FirstSlots
import BoundPage.Proofs.Surface.DocumentOrder
/-!
# The order of placed nodes

The nodes of an object go to their slot in the order of their slot numbers, and stay there in that order.  This is the
order in which they stand in the document if it numbers them in ascending order, as it does when it has been mounted.
A list that is rebuilt may use the slots of its old items in another order, and nodes may have been moved by an earlier
placement; nodes to which neither has happened are still in document order (`placed_by_number`).
-/
namespace BoundPage
open RenderTarget

namespace ExternalChildren

variable {c : ExternalChildren} {s t : Surface} {id : String} {r : Registration} {slot n : Slot} {T : List Slot}

/-! ## Moving nodes one after the other -/

/-- **What every move keeps is kept by all of them.** -/
theorem foldl_moveUnder_induction {I : Surface → Prop} {ns : List Slot} (hs : (t.node slot).live)
    (hns : ∀ n ∈ ns, (t.node n).live)
    (hstep : ∀ before n after, ns = before ++ n :: after → ((before.foldl (moveUnder slot) t).node slot).live →
      ((before.foldl (moveUnder slot) t).node n).live → I (before.foldl (moveUnder slot) t) →
      I (moveUnder slot (before.foldl (moveUnder slot) t) n))
    (h0 : I t) : I (ns.foldl (moveUnder slot) t) := by
  refine split_induction (motive := fun before _ => I (before.foldl (moveUnder slot) t)) h0
    (fun before n after hsplit hI => ?_) ns [] (List.append_nil ns).symm
  have hown := own_foldl_moveUnder before t hs fun m hm => hns m (hsplit ▸ List.mem_append_left _ hm)
  rw [List.foldl_append, List.foldl_cons, List.foldl_nil]
  exact hstep before n after hsplit ((Node.live_eq (hown slot)).trans hs)
    ((Node.live_eq (hown n)).trans (hns n (by rw [hsplit]; simp))) hI

theorem children_moveUnder (hs : (t.node slot).live) (hn : (t.node n).live) :
    ((moveUnder slot t n).node slot).children =
      (t.node slot).children ++ if (t.node n).parent = some slot then [] else [n] := by
  by_cases hp : (t.node n).parent = some slot
  · rw [show moveUnder slot t n = t from if_pos hp, if_pos hp, List.append_nil]
  · rw [show moveUnder slot t n = t.append slot n from if_neg hp, Surface.Linked.node_append hs hn]
    dsimp only
    rw [if_neg hp, if_neg hp, if_pos rfl]

/-- **Nodes that are moved under a slot are behind its other children**, in the order in which they are moved. -/
theorem children_foldl_moveUnder : ∀ (ns : List Slot) (t : Surface), (t.node slot).live → (∀ n ∈ ns, (t.node n).live) →
    ns.Nodup → ((ns.foldl (moveUnder slot) t).node slot).children =
      (t.node slot).children ++ ns.filter fun n => (t.node n).parent ≠ some slot
  | [], t, _, _, _ => (List.append_nil _).symm
  | n :: ns, t, hs, hns, hnodup => by
    obtain ⟨hnew, hnodup⟩ := List.nodup_cons.1 hnodup
    have hn := hns n List.mem_cons_self
    have hown := own_moveUnder hs hn
    have hparent : ∀ m ∈ ns, ((moveUnder slot t n).node m).parent = (t.node m).parent := fun m hm =>
      (parent_moveUnder hs hn m).trans (if_neg fun (he : m = n) => hnew (he ▸ hm))
    have hfilter := List.filter_congr fun m hm => congrArg (fun p => decide (p ≠ some slot)) (hparent m hm)
    rw [List.foldl_cons, children_foldl_moveUnder ns _ ((Node.live_eq (hown slot)).trans hs)
      (fun m hm => (Node.live_eq (hown m)).trans (hns m (List.mem_cons_of_mem n hm))) hnodup, hfilter,
      children_moveUnder hs hn, List.append_assoc]
    by_cases hp : (t.node n).parent = some slot
    · rw [if_pos hp, List.filter_cons_of_neg (by simpa using hp), List.nil_append]
    · rw [if_neg hp, List.filter_cons_of_pos (by simpa using hp), List.singleton_append]

/-- A move does not change the order of other nodes anywhere. -/
theorem filter_children_moveUnder (hs : (t.node slot).live) (hn : (t.node n).live) (hT : n ∉ T) (k : Slot) :
    ((moveUnder slot t n).node k).children.filter (· ∈ T) = (t.node k).children.filter (· ∈ T) := by
  unfold moveUnder
  split
  · rfl
  · show ((t.append slot n).node k).children.filter (· ∈ T) = _
    have hother : ∀ m ∈ T, m ≠ n := fun m hm he => hT (he ▸ hm)
    have hadded : (if k = slot then [n] else []).filter (· ∈ T) = [] := by
      refine List.filter_eq_nil_iff.2 fun m hm hmT => ?_
      split at hm
      · exact hT (List.mem_singleton.1 hm ▸ of_decide_eq_true hmT)
      · cases hm
    rw [Surface.Linked.node_append hs hn, List.filter_append, hadded, List.append_nil]
    split
    · rw [List.filter_filter]
      exact List.filter_congr fun m _ => by
        by_cases hm : m ∈ T
        · simp [hm, hother m hm]
        · simp [hm]
    · rfl

theorem standsStill_moveUnder (ht : t.Linked) (hs : (t.node slot).live) (hn : (t.node n).live)
    (hnot : (t.node n).parent ≠ some slot → ∀ m ∈ T, (t.node m).live → ¬ t.Below n m) :
    Surface.StandsStill T t (moveUnder slot t n) := by
  unfold moveUnder
  split
  · exact (Surface.Prunes.of_sameTree (.refl t)).standsStill T
  · next hp => exact Surface.standsStill_append ht hs hn (hnot hp)

/-! ## Placing objects one after the other -/

/-- **An object is about to be placed** in the slot of a registration that has its turn; `t` is the page before that. -/
def Places (c : ExternalChildren) (s : Surface) (id : String) (r : Registration) (slot : Slot) (t : Surface) : Prop :=
  ∃ pre post, c.registrations = pre ++ r :: post ∧
    ¬ (c.progress s id pre).children.Waits (c.progress s id pre).surface id r ∧
    locate (c.progress s id pre).surface ⟨r.slot, id⟩ = some slot ∧ t = (c.progress s id pre).surface

/-- **What every placing keeps holds when some more registrations have been looked at.** -/
theorem progress_induction {I : Surface → Prop} (done : List Registration)
    (h0 : I (c.progress s id done).surface) {rs : List Registration}
    (hstep : ∀ pre r post slot, rs = pre ++ r :: post →
      ¬ (c.progress s id (done ++ pre)).children.Waits (c.progress s id (done ++ pre)).surface id r →
      locate (c.progress s id (done ++ pre)).surface ⟨r.slot, id⟩ = some slot →
      I (c.progress s id (done ++ pre)).surface →
      I ((locateExternal (c.progress s id (done ++ pre)).surface ⟨r.object, id⟩).foldl (moveUnder slot)
        (c.progress s id (done ++ pre)).surface)) : I (c.progress s id (done ++ rs)).surface := by
  refine split_induction (motive := fun pre _ => I (c.progress s id (done ++ pre)).surface) (by rwa [List.append_nil])
    (fun pre r post hsplit hpre => ?_) rs [] (List.append_nil rs).symm
  rw [← List.append_assoc, progress_append]
  by_cases hw : (c.progress s id (done ++ pre)).children.Waits (c.progress s id (done ++ pre)).surface id r
  · rw [(Progress.next_of_waits hw).1]
    exact hpre
  · obtain ⟨slot, hslot, hsurface, -⟩ := Progress.next_of_not_waits hw
    rw [hsurface]
    exact hstep pre r post slot hsplit hw hslot hpre

/-- Every placed object had its turn. -/
theorem exists_places {object : String} (h : object ∈ (c.placePending s id).placed) :
    ∃ r slot t, r.object = object ∧ c.Places s id r slot t := by
  refine split_induction
    (motive := fun pre _ => object ∈ (c.progress s id pre).placed → ∃ r slot t, r.object = object ∧ c.Places s id r slot t)
    (fun h => absurd h List.not_mem_nil) (fun pre r post hsplit ih hmem => ?_) c.registrations []
    (List.append_nil _).symm h
  rw [progress_append] at hmem
  by_cases hw : (c.progress s id pre).children.Waits (c.progress s id pre).surface id r
  · rw [(Progress.next_of_waits hw).2.2] at hmem
    exact ih hmem
  · obtain ⟨slot, hslot, -, -, hplaced⟩ := Progress.next_of_not_waits hw
    rw [hplaced, List.mem_append, List.mem_singleton] at hmem
    rcases hmem with hmem | rfl
    · exact ih hmem
    · exact ⟨r, slot, _, rfl, pre, post, hsplit, hw, hslot, rfl⟩

/-- Two registrations that have their turn are of different objects. -/
theorem object_ne_of_not_waits {pre mid : List Registration} {r r' : Registration}
    (h : ¬ (c.progress s id pre).children.Waits (c.progress s id pre).surface id r)
    (h' : ¬ (c.progress s id (pre ++ r :: mid)).children.Waits (c.progress s id (pre ++ r :: mid)).surface id r') :
    r'.object ≠ r.object := by
  rw [(placesFirst_progress c s id _).waits_iff, not_or, not_not] at h h'
  intro he
  refine h'.1 (he ▸ ?_)
  unfold firstObjects ready
  exact List.mem_eraseDups.2 (List.mem_map_of_mem (List.mem_filter.2 ⟨by simp, by simpa using h.2⟩))

/-- The nodes of an object are in the order of their slots. -/
theorem pairwise_locateExternal (s : Surface) (key : NodeKey) : (locateExternal s key).Pairwise (· < ·) :=
  (List.pairwise_lt_range.filter _).filter _

theorem live_of_locate {pre : List Registration}
    (hslot : locate (c.progress s id pre).surface ⟨r.slot, id⟩ = some slot) :
    ((c.progress s id pre).surface.node slot).live := (ListRegion.locate_live hslot).1

theorem linked_progress (hs : s.Linked) (pre : List Registration) : (c.progress s id pre).surface.Linked :=
  progress_induction (I := Surface.Linked) [] hs fun _ _ _ _ _ _ hslot ht =>
    foldl_moveUnder_induction (live_of_locate hslot) (fun _ => locateExternal_live)
      (fun _ _ _ _ hs hn ht => linked_moveUnder ht hs hn) ht

/-- **The nodes of an object stand in its slot in the order of their slot numbers when a placement is over**, if none of
them was there before. -/
theorem Places.filter_children (h : c.Places s id r slot t) (hs : s.Linked)
    (hnew : ∀ n ∈ locateExternal t ⟨r.object, id⟩, (t.node n).parent ≠ some slot) :
    ((c.placePending s id).surface.node slot).children.filter (· ∈ locateExternal t ⟨r.object, id⟩) =
      locateExternal t ⟨r.object, id⟩ := by
  obtain ⟨pre, post, hr, hw, hslot, rfl⟩ := h
  have hlinked : (c.progress s id pre).surface.Linked := linked_progress hs pre
  have hplaced : (c.progress s id (pre ++ [r])).surface =
      (locateExternal (c.progress s id pre).surface ⟨r.object, id⟩).foldl (moveUnder slot)
        (c.progress s id pre).surface := by
    obtain ⟨slot', hslot', hsurface, -⟩ := Progress.next_of_not_waits hw
    obtain rfl := Option.some.inj (hslot.symm.trans hslot')
    rw [progress_append, hsurface]
  generalize hnodes : locateExternal (c.progress s id pre).surface ⟨r.object, id⟩ = nodes at hnew hplaced ⊢
  have hall : c.registrations = pre ++ [r] ++ post := by rw [hr, List.append_assoc]; rfl
  show ((c.progress s id c.registrations).surface.node slot).children.filter (· ∈ nodes) = nodes
  rw [hall]
  refine progress_induction (I := fun u : Surface => (u.node slot).children.filter (· ∈ nodes) = nodes) (pre ++ [r])
    ?_ fun pre' r' post' slot' hsplit hw' hslot' hu => ?_
  · have hnone : (((c.progress s id pre).surface.node slot).children.filter (· ∈ nodes)) = [] :=
      List.filter_eq_nil_iff.2 fun n hn hmem =>
        hnew n (of_decide_eq_true hmem) (hlinked.child (p := slot) hn).2.2
    have hself : nodes.filter (· ∈ nodes) = nodes := List.filter_eq_self.2 fun n hn => decide_eq_true hn
    have hmoved : nodes.filter (fun n => ((c.progress s id pre).surface.node n).parent ≠ some slot) = nodes :=
      List.filter_eq_self.2 fun n hn => decide_eq_true (hnew n hn)
    rw [hplaced, children_foldl_moveUnder nodes _ (live_of_locate hslot)
      (fun n hn => locateExternal_live (hnodes ▸ hn))
      (hnodes ▸ (pairwise_locateExternal _ _).imp fun h => Nat.ne_of_lt h), hmoved, List.filter_append, hnone,
      List.nil_append, hself]
  · -- The nodes of another object are others.
    have hne : r'.object ≠ r.object := by
      rw [List.append_assoc] at hw'
      exact object_ne_of_not_waits hw hw'
    refine foldl_moveUnder_induction (I := fun u : Surface => (u.node slot).children.filter (· ∈ nodes) = nodes)
      (live_of_locate hslot') (fun _ => locateExternal_live) (fun before n after hn hs hl hu => ?_) hu
    have hn' : n ∈ locateExternal s ⟨r'.object, id⟩ := by
      rw [← (placesFirst_progress c s id _).locateExternal_eq, hn]
      simp
    refine (filter_children_moveUnder hs hl (fun hmem => hne ?_) slot).trans hu
    rw [← hnodes, (placesFirst_progress c s id _).locateExternal_eq] at hmem
    exact object_of_mem_locateExternal hn' hmem

/-- **A placement moves none of some nodes**, by itself or with a node above it, as far as it places some
registrations. -/
def Spares (c : ExternalChildren) (s : Surface) (id : String) (T : List Slot) (which : Registration → Prop) : Prop :=
  ∀ r slot n t, which r → c.Moves s id r slot n t → (t.node n).parent ≠ some slot →
    ∀ m ∈ T, (t.node m).live → ¬ t.Below n m

/-- Nodes that are not moved with other objects are numbered as before when their own object is placed. -/
theorem Places.ascending (h : c.Places s id r slot t) (hs : s.Linked) (ha : Surface.Ascending T s)
    (hspares : c.Spares s id T (·.object ≠ r.object)) : Surface.Ascending T t := by
  obtain ⟨pre, post, hr, hw, -, rfl⟩ := h
  refine (progress_induction (I := fun u : Surface => u.Linked ∧ Surface.Ascending T u) [] ⟨hs, ha⟩
    fun pre' r' mid slot' hsplit hw' hslot' hu => ?_).2
  subst hsplit
  have hne : r'.object ≠ r.object := fun he => object_ne_of_not_waits hw' hw he.symm
  obtain ⟨hplaced, hcondition, -⟩ := not_or.1 hw' |>.imp_right not_or.1
  refine foldl_moveUnder_induction (I := fun u : Surface => u.Linked ∧ Surface.Ascending T u) (live_of_locate hslot')
    (fun _ => locateExternal_live) (fun before n after hn hs hl hu => ?_) hu
  have hmoves : c.Moves s id r' slot' n (before.foldl (moveUnder slot') (c.progress s id pre').surface) :=
    ⟨pre', mid ++ r :: post, before, after, by rw [hr, List.append_assoc]; rfl, by simpa using hplaced,
      by simpa using hcondition, hslot', hn, rfl⟩
  exact ⟨linked_moveUnder hu.1 hs hl,
    (standsStill_moveUnder hu.1 hs hl (hspares r' slot' n _ hne hmoves)).ascending hu.1 hu.2⟩

end ExternalChildren

namespace Engine

variable {H W : Type} {g : Engine Surface H W} {op : Operation} {T : List Slot}

/-! ## Runs -/

/-- **No list that an operation rebuilds makes some nodes**: those that are there afterwards are there already when the
old items are gone. -/
def MakesNone (g : Engine Surface H W) (op : Operation) (T : List Slot) : Prop :=
  ∀ p, g.passOf? op = some p → ∀ e left st template, p.At g.surface e (.value :: left) st →
    p.Rebuilds (p.key e.1) st.surface template → ∀ n ∈ T,
      ((p.refilled (p.key e.1) st.table st.surface template (ListRegion.items p.value)).1.node n).live →
      ((p.cleared (p.key e.1) st.table st.surface).node n).live

/-- Only a value makes items. -/
theorem makesNone_of_not_value (h : ∀ p, g.passOf? op = some p → ∀ e ∈ p.dependents.entries, .value ∉ e.2)
    (T : List Slot) : g.MakesNone op T := fun p hp e _ _ _ hst _ => absurd hst.mem_left (h p hp e hst.mem)

theorem linked_page (he : g.effector = inlineStyles) (hs : g.surface.Linked) {c : Placement Surface}
    (hc : g.placementOf? op = some c) : c.page.Linked := by
  rw [(placementOf?_eq_some hc).1]
  cases hp : g.passOf? op with
  | none => exact hs
  | some p => exact (Pass.run_induction (I := fun s _ _ => s.Linked) hs fun _ _ _ _ _ _ hI hok =>
      (Pass.change_of_applyOne hok).linked ((effector_passOf? hp).trans he) hI).2

/-- **A pass leaves nodes in their order that it does not make.** -/
theorem ascending_pass (he : g.effector = inlineStyles) (hs : g.surface.Linked) (ha : Surface.Ascending T g.surface)
    (hmakes : g.MakesNone op T) {p : Pass Surface} (hp : g.passOf? op = some p) :
    (p.run g.surface).surface.Linked ∧ Surface.Ascending T (p.run g.surface).surface := by
  refine (Pass.run_induction (I := fun s _ _ => s.Linked ∧ Surface.Ascending T s) ⟨hs, ha⟩
    fun e d left st st' hst hI hok => ?_).2
  have hchange := Pass.change_of_applyOne hok
  have heffector := (effector_passOf? hp).trans he
  refine ⟨hchange.linked heffector hI.1, ?_⟩
  refine (hchange.keeps (I := fun s => s.Linked ∧ Surface.Ascending T s) heffector hI (fun {t u} htu ht => ?_)
    (fun {t} n text ht => ?_) fun template hd hr => ?_).2
  · exact ⟨htu.linked ht.1, ((Surface.Prunes.of_sameTree htu).standsStill T).ascending ht.1 ht.2⟩
  · exact ⟨ht.1.setText n text, ((Surface.Prunes.setText t n text).standsStill T).ascending ht.1 ht.2⟩
  · subst hd
    have hcleared := ListRegion.linked_destroyAll hI.1 (p.staleKeys (p.key e.1) st.table)
    refine ⟨ListRegion.linked_makeItems hr.isTemplate hcleared _ _, ?_⟩
    exact Surface.ascending_makeItems hr.isTemplate hcleared _ _ _ (hmakes p hp e left st template hst hr)
      (((Surface.Prunes.destroyAll _ _).standsStill T).ascending hI.1 hI.2)

/-- **A run has neither made nor moved some nodes**, nor has the operation after it before it places a registration. -/
structure Stayed (g : Engine Surface H W) (ops : List Operation) (op : Operation) (r : Registration) (T : List Slot) :
    Prop where
  made : ∀ pre op' post, ops ++ [op] = pre ++ op' :: post → (g.after pre).MakesNone op' T
  moved : ∀ pre op' post, ops = pre ++ op' :: post → ∀ c, (g.after pre).placementOf? op' = some c →
    c.children.Spares c.page c.instanceId T fun _ => True
  /-- What is placed in the same operation before is of other objects. -/
  others : ∀ c, (g.after ops).placementOf? op = some c →
    c.children.Spares c.page c.instanceId T (·.object ≠ r.object)

theorem ascending_after (he : g.effector = inlineStyles) (hs : g.surface.Linked) (ha : Surface.Ascending T g.surface)
    {ops : List Operation} (hmakes : ∀ pre op post, ops = pre ++ op :: post → (g.after pre).MakesNone op T)
    (hmoves : ∀ pre op post, ops = pre ++ op :: post → ∀ c, (g.after pre).placementOf? op = some c →
      c.children.Spares c.page c.instanceId T fun _ => True) :
    Surface.Ascending T (g.after ops).surface := by
  induction ops generalizing g with
  | nil => exact ha
  | cons op ops ih =>
    have hpass := fun p => ascending_pass (p := p) he hs ha (hmakes [] op ops rfl)
    obtain ⟨hlinked, hasc⟩ : (g.perform op).surface.Linked ∧ Surface.Ascending T (g.perform op).surface :=
      perform_induction (I := fun s => s.Linked ∧ Surface.Ascending T s) (fun _ => ⟨hs, ha⟩) hpass
        fun c hc r slot n t hm ht => ⟨ExternalChildren.linked_moveUnder ht.1 hm.live.1 hm.live.2,
          (ExternalChildren.standsStill_moveUnder ht.1 hm.live.1 hm.live.2
            (hmoves [] op ops rfl c hc r slot n t trivial hm)).ascending ht.1 ht.2⟩
    exact ih ((effector_perform g op).trans he) hlinked hasc
      (fun pre op' post hops => hmakes (op :: pre) op' post (by rw [hops]; rfl))
      fun pre op' post hops => hmoves (op :: pre) op' post (by rw [hops]; rfl)

/-- **Nodes that have stayed where they were are still numbered in ascending order** when their object is placed. -/
theorem Stayed.ascending {ops : List Operation} {r : Registration} {slot : Slot} {t : Surface} {c : Placement Surface}
    (h : g.Stayed ops op r T) (he : g.effector = inlineStyles) (hs : g.surface.Linked)
    (ha : Surface.Ascending T g.surface) (hc : (g.after ops).placementOf? op = some c)
    (hplaces : c.children.Places c.page c.instanceId r slot t) : Surface.Ascending T t := by
  have hmade : ∀ pre op' post, ops = pre ++ op' :: post → (g.after pre).MakesNone op' T := fun pre op' post hops =>
    h.made pre op' (post ++ [op]) (by rw [hops, List.append_assoc]; rfl)
  have he' := (effector_after ops g).trans he
  have hlinked := linked_after he hs ops
  have hasc := ascending_after he hs ha hmade h.moved
  have hpage : Surface.Ascending T c.page := by
    rw [(placementOf?_eq_some hc).1]
    cases hp : (g.after ops).passOf? op with
    | none => exact hasc
    | some p => exact (ascending_pass he' hlinked hasc (h.made ops op [] rfl) hp).2
  exact hplaces.ascending (linked_page he' hlinked hc) hpage (h.others c hc)

/-- Some nodes of an ascending list stand in it in their own order exactly if this is ascending, too. -/
theorem filter_mem_eq_iff_pairwise {nodes chosen : List Slot} (hnodes : nodes.Pairwise (· < ·))
    (hsub : chosen ⊆ nodes) : nodes.filter (· ∈ chosen) = chosen ↔ chosen.Pairwise (· < ·) := by
  have hfilter : (nodes.filter (· ∈ chosen)).Pairwise (· < ·) := hnodes.filter _
  refine ⟨fun h => h ▸ hfilter, fun h => hfilter.eq_of_mem_iff h fun n => ?_⟩
  rw [List.mem_filter, decide_eq_true_eq]
  exact ⟨And.right, fun hn => ⟨hsub hn, hn⟩⟩

theorem standing_subset (s : Surface) (T : List Slot) : s.standing T ⊆ T := fun _ hn =>
  (of_decide_eq_true (List.mem_filter.1 hn).2).1

/-- On an orderly page all nodes of an object stand in the document. -/
theorem standing_perm {s : Surface} (hs : s.Orderly) (key : NodeKey) :
    (s.standing (locateExternal s key)).Perm (locateExternal s key) := by
  have hnodup : (locateExternal s key).Nodup := s.nodup_liveSlots.filter _
  have hreached : s.reached.Nodup := hs.reached_once.nodup_iff.2 s.nodup_liveSlots
  refine (List.perm_ext_iff_of_nodup (hreached.filter _) hnodup).2 fun n => ⟨fun hn => standing_subset _ _ hn, ?_⟩
  intro hn
  have hlive := ExternalChildren.locateExternal_live hn
  exact List.mem_filter.2 ⟨hs.reached_once.mem_iff.2 (s.mem_liveSlots.2 hlive), decide_eq_true ⟨hn, hlive⟩⟩

/-- **The nodes of an object go to their slot in the order of their slot numbers.**  For every object that a run places:
if none of its nodes is in the slot before, they are there afterwards in ascending order, which is the order in which
they stood in the document exactly if this numbered them in ascending order.  It did so if the run has neither made nor
moved them since the page was mounted. -/
theorem placed_by_number {H W : Type} (page : List Markup) (options : Options) (handlers : Handlers H) (host : W)
    (ops : List Operation) (op : Operation) (c : Placement Surface)
    (hc : ((mounted page options handlers host).after ops).placementOf? op = some c) :
    (∀ object ∈ (c.children.placePending c.page c.instanceId).placed,
      ∃ r slot t, r.object = object ∧ c.children.Places c.page c.instanceId r slot t) ∧
    ∀ r slot t, c.children.Places c.page c.instanceId r slot t →
      let nodes := locateExternal t ⟨r.object, c.instanceId⟩
      let children := ((((mounted page options handlers host).after ops).perform op).surface.node slot).children
      nodes.Pairwise (· < ·) ∧ (t.Orderly → (t.standing nodes).Perm nodes) ∧
      ((∀ n ∈ nodes, (t.node n).parent ≠ some slot) → children.filter (· ∈ nodes) = nodes ∧
        (children.filter (· ∈ t.standing nodes) = t.standing nodes ↔ Surface.Ascending nodes t)) ∧
      ((mounted page options handlers host).Stayed ops op r nodes → Surface.Ascending nodes t) := by
  refine ⟨fun object ho => ExternalChildren.exists_places ho, fun r slot t hplaces => ?_⟩
  have he : (mounted page options handlers host).effector = inlineStyles := rfl
  have hs : (mounted page options handlers host).surface.Forest := Surface.forest_ofMarkup page
  have hpage : c.page.Linked := linked_page ((effector_after ops _).trans he) (linked_after he hs.toLinked ops) hc
  intro nodes children
  have hnodes : nodes.Pairwise (· < ·) := ExternalChildren.pairwise_locateExternal _ _
  refine ⟨hnodes, fun ht => standing_perm ht _, fun hnew => ?_, fun hstayed => ?_⟩
  · have hchildren : children.filter (· ∈ nodes) = nodes := by
      have hafter : (((mounted page options handlers host).after ops).perform op).surface =
          (c.children.placePending c.page c.instanceId).surface := by rw [surface_perform, hc]
      exact (congrArg (fun u : Surface => (u.node slot).children.filter (· ∈ nodes)) hafter).trans
        (hplaces.filter_children hpage hnew)
    have hsub : t.standing nodes ⊆ nodes := standing_subset t nodes
    have hfilter : children.filter (· ∈ t.standing nodes) = nodes.filter (· ∈ t.standing nodes) := by
      rw [← hchildren, List.filter_filter, hchildren]
      refine List.filter_congr fun n _ => ?_
      by_cases hn : n ∈ t.standing nodes
      · simp [hn, hsub hn]
      · simp [hn]
    exact ⟨hchildren, hfilter ▸ filter_mem_eq_iff_pairwise hnodes hsub⟩
  · exact hstayed.ascending he hs.toLinked ((Surface.ascending_ofMarkup page).filter _) hc hplaces

/-- Two cards, and a menu between them that they go to when it is shown. -/
def cardsPage : List Markup :=
  [{ tag := "div", id := "root:main"
     children := [{ tag := "p", externalId := "card:main" }, { tag := "div", id := "menu:main" },
       { tag := "p", externalId := "card:main" }] }]

def cards : Instance where
  store := .ofList [("open", { dependents := .ofList [("menu", [.visible .isNotNull])] })]
  externals := { registrations := [⟨"card", "menu", ["menu"]⟩] }

def cardsRegistration : Registration := ⟨"card", "menu", ["menu"]⟩

def showMenu : Operation := .write "main" "open" (.text "1")

theorem stayed_cards :
    (mounted cardsPage {} (∅ : Handlers Empty) ()).Stayed [.start "main" cards] showMenu cardsRegistration [1, 3] where
  made pre op' post hops := by
    refine makesNone_of_not_value (fun p hp e he => ?_) _
    rcases pre with _ | ⟨o, _ | ⟨o', pre⟩⟩
    · obtain ⟨rfl, -⟩ := List.cons.inj hops
      cases hp
    · obtain ⟨rfl, hrest⟩ := List.cons.inj hops
      obtain ⟨rfl, -⟩ := List.cons.inj hrest
      obtain rfl := Option.some.inj hp
      obtain rfl := List.mem_singleton.1 he
      simp
    · simp at hops
  moved pre op' post hops c hc := by
    rcases pre with _ | ⟨o, pre⟩
    · obtain ⟨rfl, -⟩ := List.cons.inj hops
      cases hc
    · simp at hops
  others c hc r slot n t hne hm := by
    obtain rfl := Option.some.inj hc
    exact absurd (congrArg Registration.object (List.mem_singleton.1 hm.nodes.1)) hne

/-- Both cards have stayed where they were, and stand in the menu as they stood in the document. -/
theorem placed_by_number_cards :
    let g := mounted cardsPage {} (∅ : Handlers Empty) ()
    ∃ c, (g.after [.start "main" cards]).placementOf? showMenu = some c ∧
      c.children.Places c.page c.instanceId cardsRegistration 2 c.page ∧
      g.Stayed [.start "main" cards] showMenu cardsRegistration [1, 3] ∧
      (((g.after [.start "main" cards]).perform showMenu).surface.node 2).children.filter
        (· ∈ c.page.standing [1, 3]) = c.page.standing [1, 3] := by
  intro g
  obtain ⟨c, hc, hid, hregistrations, hturn, hslot, hnodes, hnew⟩ :
      ∃ c ∈ (g.after [.start "main" cards]).placementOf? showMenu, c.instanceId = "main" ∧
        c.children.registrations = [cardsRegistration] ∧
        (c.children.isPlaced "card" = false ∧ ExternalChildren.conditionHolds c.page "main" ["menu"]) ∧
        locate c.page ⟨"menu", "main"⟩ = some 2 ∧ locateExternal c.page ⟨"card", "main"⟩ = [1, 3] ∧
        ∀ n ∈ [1, 3], (c.page.node n).parent ≠ some 2 := by decide +kernel
  obtain ⟨children, instanceId, page⟩ := c
  obtain rfl : instanceId = "main" := hid
  have hplaces : children.Places page "main" cardsRegistration 2 page := by
    refine ⟨[], [], hregistrations, fun hw => ?_, hslot, rfl⟩
    rcases hw with hw | hw | hw
    · exact absurd (hturn.1.symm.trans hw) Bool.false_ne_true
    · exact absurd (hw.symm.trans hturn.2) Bool.false_ne_true
    · cases hslot.symm.trans hw
  obtain ⟨-, -, horder, hstayed⟩ := (placed_by_number cardsPage {} (∅ : Handlers Empty) () [.start "main" cards]
    showMenu ⟨children, "main", page⟩ hc).2 cardsRegistration 2 page hplaces
  dsimp only at hnodes hnew
  rw [show locateExternal page ⟨cardsRegistration.object, "main"⟩ = [1, 3] from hnodes] at horder hstayed
  exact ⟨_, hc, hplaces, stayed_cards, (horder hnew).2.2 (hstayed stayed_cards)⟩

/-- A list with a card for every item, and a menu that is hidden at first. -/
def cardListPage : List Markup :=
  [{ tag := "div", id := "root:main"
     children := [{ tag := "p", id := "list:dummy:main", externalId := "card:main", text := "$loop$" },
       { tag := "div", id := "menu:main", styles := .ofList [("display", "none")] }] }]

def cardList : Instance where
  store := .ofList [("items", { dependents := .ofList [("list:dummy", [.value])] }),
    ("open", { dependents := .ofList [("menu", [.visible .isNotNull])] })]
  externals := { registrations := [cardsRegistration] }

/-- The list is written twice, so its second items use the slots of its first ones, the last one first. -/
def cardListRun : List Operation :=
  [.start "main" cardList, .write "main" "items" (.text "[\"a\",\"b\"]"), .write "main" "items" (.text "[\"a\",\"b\"]")]

/-- **A card that was behind another one may be before it in the menu**, though none of them was in the menu or inside
another. -/
theorem not_in_document_order :
    let g := (mounted cardListPage {} (∅ : Handlers Empty) ()).after cardListRun
    ∃ c ∈ g.placementOf? showMenu, ∃ slot ∈ locate c.page ⟨"menu", "main"⟩,
      (c.children.placePending c.page c.instanceId).placed = ["card"] ∧
      let nodes := locateExternal c.page ⟨"card", "main"⟩
      (∀ n ∈ nodes, (c.page.node n).parent ≠ some slot) ∧ (∀ n ∈ nodes, ∀ m ∈ nodes, n ≠ m → m ∉ c.page.subtree n) ∧
      ((g.perform showMenu).surface.node slot).children.filter (· ∈ nodes) ≠ c.page.standing nodes := by
  decide +kernel

end Engine
end BoundPage
