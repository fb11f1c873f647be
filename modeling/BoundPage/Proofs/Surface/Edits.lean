import Mathlib.Data.List.Infix
import Mathlib.Order.Bounds.Defs
import BoundPage.Proofs.Surface.Accounts
/-!
# Edits of a surface

What a program can do to a surface itself: mount, copy, replace, remove and move nodes.  As long as this is done to live
nodes, and nothing is moved below itself, the slots are accounted for (`accounted_of_allowed`): the free ones are those
of removed nodes, there are as many as there have been live nodes at a time, and a number stands for the same node from
the edit that makes the node to the one that removes it.
-/
namespace BoundPage

/-- What a node is, whatever its text and its place in the tree. -/
def Node.identity (n : Node) : Node := { n with text := "", children := [], parent := none }

theorem Node.identity_of_own {n m : Node} (h : n.own = m.own) : n.identity = m.identity :=
  congrArg (fun n : Node => { n with text := "" }) h

namespace Surface

inductive Edit where
  | mount (parent : Option Slot) (m : Markup)
  | clone (template : Slot) (id : String)
  | setText (h : Slot) (text : String)
  | remove (h : Slot)
  | append (parent child : Slot)

namespace Edit

def run (s : Surface) : Edit → Surface
  | mount parent m => (s.mount parent m).2
  | clone template id => (s.clone template id).2
  | setText h text => s.setText h text
  | remove h => s.remove h
  | append parent child => s.append parent child

def made? (s : Surface) : Edit → Option Slot
  | mount parent m => some (s.mount parent m).1
  | clone template id => some (s.clone template id).1
  | _ => none

/-- **The nodes are live**, and no node goes below itself. -/
def Allowed (s : Surface) : Edit → Prop
  | mount parent _ => ∀ p, parent = some p → (s.node p).live
  | clone template _ => (s.node template).live
  | setText h _ => (s.node h).live
  | remove h => (s.node h).live
  | append parent child => (s.node parent).live ∧ (s.node child).live ∧ ¬ s.Below child parent

/-- **The edit removes the node**: it is below a node that gets a text, or it is a removed node or below it. -/
def Removes (s : Surface) (k : Slot) : Edit → Prop
  | setText h _ => ∃ c, s.Child h c ∧ s.Below c k
  | remove h => s.Below h k
  | _ => False

variable {s : Surface} {e : Edit}

/-! ## One edit -/

theorem clone_eq (s : Surface) (template : Slot) (id : String) :
    s.clone template id = ((s.copy template (s.node template).parent).1,
      (s.copy template (s.node template).parent).2.modify (s.copy template (s.node template).parent).1
        fun n => { n with id := some id }) := rfl

theorem sameTree_named (s : Surface) (h : Slot) (id : String) :
    SameTree s (s.modify h fun n => { n with id := some id }) :=
  sameTree_modify s h fun _ => ⟨rfl, rfl, rfl⟩

theorem forest (hs : s.Forest) (h : e.Allowed s) : (e.run s).Forest := by
  cases e with
  | mount parent m => exact (hs.mounts_mount h m).forest
  | clone template id =>
    have hcopied := (copies_copy hs.toLinked h).forest hs h fun _ hp => hs.toLinked.parent_live hp
    exact (sameTree_named _ _ id).forest hcopied
  | setText n text => exact hs.setText n text
  | remove n => exact hs.remove h
  | append parent child => exact (forest_append_iff hs h.1 h.2.1).2 h.2.2

theorem sameSlots_append (s : Surface) (parent child : Slot) :
    (s.append parent child).size = s.size ∧ (s.append parent child).free = s.free := by
  show ((s.detach child).attach (some parent) child).size = _ ∧ ((s.detach child).attach (some parent) child).free = _
  rw [size_attach, size_detach, free_attach, free_detach]
  exact ⟨rfl, rfl⟩

theorem balanced (hb : s.Balanced) (hs : s.Forest) (h : e.Allowed s) : (e.run s).Balanced := by
  have hafter := (forest hs h).toFreeSlots
  cases e with
  | mount parent m => exact (hb.mount hs h m).1
  | clone template id =>
    exact (hb.copy hs.toLinked h).1.sameTree (sameTree_named _ _ id)
  | setText n text =>
    refine Balanced.sameTree ?_ (sameTree_text _ n text)
    exact (hb.childless n).of_frees (frees_setText s n)
      (Linked.of_frees (hs.loosened_childless n) (frees_setText s n)).toFreeSlots
  | remove n => exact (hb.detach n).of_frees (frees_remove s n) hafter
  | append parent child =>
    obtain ⟨hsize, hfree⟩ := sameSlots_append s parent child
    exact {
      toFreeSlots := hafter
      full := fun {k} hk hd => by
        change ((s.append parent child).node k).live = false at hd
        change k ∈ (s.append parent child).free
        rw [live_append h.1 h.2.1] at hd
        rw [hfree]
        exact hb.full (hsize ▸ hk) hd }

/-- **A node stays exactly if the edit does not remove it.** -/
theorem live_iff (hs : s.Forest) (h : e.Allowed s) {k : Slot} (hk : (s.node k).live) :
    ((e.run s).node k).live ↔ ¬ e.Removes s k := by
  cases e with
  | mount parent m => exact ⟨fun _ h => h, fun _ => (hs.mounts_mount h m).live hk⟩
  | clone template id =>
    refine ⟨fun _ h => h, fun _ => ?_⟩
    change (((s.clone template id).2).node k).live
    rw [clone_eq, (sameTree_named _ _ id).live]
    exact (copies_copy hs.toLinked h).live hk
  | setText n text => exact live_setText_iff hs.toRooted hk text
  | remove n => exact (live_remove_iff hs.toLinked h k).trans ⟨And.right, And.intro hk⟩
  | append parent child =>
    change ((s.append parent child).node k).live ↔ _
    rw [live_append h.1 h.2.1]
    exact ⟨fun _ h => h, fun _ => hk⟩

theorem identity_eq (hs : s.Forest) (h : e.Allowed s) {k : Slot} (hk : (s.node k).live)
    (hl : ((e.run s).node k).live) : ((e.run s).node k).identity = (s.node k).identity ∧
      ((∀ text, e ≠ .setText k text) → ((e.run s).node k).text = (s.node k).text) := by
  have hown : ((e.run s).node k).own = (s.node k).own → _ := fun ho =>
    And.intro (Node.identity_of_own ho) fun (_ : ∀ text, e ≠ .setText k text) => Node.text_eq ho
  cases e with
  | mount parent m => exact hown ((hs.mounts_mount h m).own hk)
  | clone template id =>
    refine hown ?_
    have hc := copies_copy hs.toLinked h
    have hne : k ≠ (s.copy template (s.node template).parent).1 := fun he => by
      rw [he, hc.fresh] at hk
      cases hk
    change (((s.clone template id).2).node k).own = _
    rw [clone_eq, node_modify_of_ne _ _ hne]
    exact hc.own hk
  | setText n text =>
    obtain ⟨-, he⟩ := node_setText hl
    change ((s.setText n text).node k).identity = _ ∧ (_ → ((s.setText n text).node k).text = _)
    rw [he]
    refine ⟨rfl, fun hne => ?_⟩
    have hkn : k ≠ n := fun hc => hne text (by rw [hc])
    simp [hkn]
  | remove n => exact hown (own_remove hl)
  | append parent child =>
    refine hown ?_
    change ((s.append parent child).node k).own = _
    rw [Linked.node_append h.1 h.2.1]
    rfl

/-- **What is made takes a slot that nobody was in.** -/
theorem made_fresh (hs : s.Forest) (h : e.Allowed s) {k : Slot} (hk : e.made? s = some k) :
    (s.node k).live = false ∧ ((e.run s).node k).live := by
  cases e with
  | mount parent m =>
    obtain rfl := Option.some.inj hk
    have hm := hs.mounts_mount h m
    exact ⟨hm.dead List.mem_cons_self, (hm.top _ List.mem_cons_self).1⟩
  | clone template id =>
    obtain rfl := Option.some.inj hk
    have hc := copies_copy hs.toLinked h
    refine ⟨hc.fresh, ?_⟩
    change (((s.clone template id).2).node _).live
    rw [clone_eq, (sameTree_named _ _ id).live]
    exact hc.live_top h
  | _ => cases hk

/-- **An edit adds slots only if more nodes are live than ever.** -/
theorem size_run (hb : s.Balanced) (hs : s.Forest) (h : e.Allowed s) :
    (e.run s).size = max s.size (e.run s).liveCount := by
  -- What makes no nodes leaves the number of slots as it is, and there are never more live nodes than slots.
  have hsame : (e.run s).size = s.size → _ := fun hz => by
    have := (e.run s).liveCount_le_size
    show (e.run s).size = max s.size (e.run s).liveCount
    omega
  cases e with
  | mount parent m => exact (hb.mount hs h m).2.size
  | clone template id =>
    exact ((hb.copy hs.toLinked h).2.trans (sameTree_named _ _ id).fills).size
  | setText n text =>
    refine hsame ?_
    change (s.setText n text).size = _
    rw [setText_eq, size_modify, (frees_setText s n).size, size_childless]
  | remove n =>
    refine hsame ?_
    change (s.remove n).size = _
    rw [(frees_remove s n).size, size_detach]
  | append parent child => exact hsame (sameSlots_append s parent child).1

end Edit

/-! ## Runs of edits -/

def edited (s : Surface) (es : List Edit) : Surface := es.foldl Edit.run s

/-- Every edit is allowed when its turn comes. -/
def AllowedAll : Surface → List Edit → Prop
  | _, [] => True
  | s, e :: es => e.Allowed s ∧ AllowedAll (e.run s) es

theorem edited_append (s : Surface) (es es' : List Edit) : s.edited (es ++ es') = (s.edited es).edited es' :=
  List.foldl_append

theorem allowedAll_append : ∀ {es es' : List Edit} {s : Surface},
    s.AllowedAll (es ++ es') ↔ s.AllowedAll es ∧ (s.edited es).AllowedAll es'
  | [], _, _ => ⟨fun h => ⟨trivial, h⟩, And.right⟩
  | e :: es, es', s => by
    show e.Allowed s ∧ (e.run s).AllowedAll (es ++ es') ↔ (e.Allowed s ∧ (e.run s).AllowedAll es) ∧ _
    rw [allowedAll_append, and_assoc]
    rfl

theorem AllowedAll.kept : ∀ {es : List Edit} {s : Surface}, s.Balanced → s.Forest → s.AllowedAll es →
    (s.edited es).Balanced ∧ (s.edited es).Forest
  | [], _, hb, hs, _ => ⟨hb, hs⟩
  | e :: es, s, hb, hs, h => by
    show ((e.run s).edited es).Balanced ∧ ((e.run s).edited es).Forest
    exact kept (Edit.balanced hb hs h.1) (Edit.forest hs h.1) h.2

/-- **There are as many slots as there have been live nodes at a time.** -/
theorem AllowedAll.isGreatest {es : List Edit} (h : AllowedAll ∅ es) :
    IsGreatest {n | ∃ pre, pre <+: es ∧ n = ((∅ : Surface).edited pre).liveCount} ((∅ : Surface).edited es).size := by
  induction es using List.reverseRecOn with
  | nil => exact ⟨⟨[], List.prefix_refl _, rfl⟩, fun n ⟨pre, hpre, hn⟩ => by rw [hn, List.prefix_nil.1 hpre]; rfl⟩
  | append_singleton es e ih =>
    obtain ⟨hes, he, -⟩ := allowedAll_append.1 h
    obtain ⟨⟨top, htop, hsize⟩, hle⟩ := ih hes
    obtain ⟨hb, hs⟩ := hes.kept balanced_empty forest_empty
    have hrun : (∅ : Surface).edited (es ++ [e]) = e.run ((∅ : Surface).edited es) := edited_append _ _ _
    have hmax := Edit.size_run hb hs he
    rw [hrun]
    refine ⟨?_, fun n ⟨pre, hpre, hn⟩ => ?_⟩
    · rcases Nat.le_total ((∅ : Surface).edited es).size (e.run ((∅ : Surface).edited es)).liveCount with hc | hc
      · exact ⟨es ++ [e], List.prefix_refl _, by rw [hmax, hrun]; omega⟩
      · exact ⟨top, htop.trans (List.prefix_append es [e]), by rw [hmax, ← hsize]; omega⟩
    · rcases List.prefix_concat_iff.1 hpre with rfl | hpre
      · rw [hn, hrun, hmax]
        exact Nat.le_max_right _ _
      · rw [hmax]
        exact Nat.le_trans (hle ⟨pre, hpre, hn⟩) (Nat.le_max_left _ _)

/-- **A number stands for one node as long as no edit removes the node.** -/
theorem AllowedAll.identity_eq {k : Slot} : ∀ {es : List Edit} {s : Surface}, s.Balanced → s.Forest → s.AllowedAll es →
    (s.node k).live → (∀ pre e post, es = pre ++ e :: post → ¬ e.Removes (s.edited pre) k) →
    ((s.edited es).node k).live ∧ ((s.edited es).node k).identity = (s.node k).identity ∧
      ((∀ text, .setText k text ∉ es) → ((s.edited es).node k).text = (s.node k).text)
  | [], _, _, _, _, hk, _ => ⟨hk, rfl, fun _ => rfl⟩
  | e :: es, s, hb, hs, h, hk, hno => by
    have hl := (Edit.live_iff hs h.1 hk).2 (hno [] e es rfl)
    obtain ⟨hid, htext⟩ := Edit.identity_eq hs h.1 hk hl
    obtain ⟨h1, h2, h3⟩ := identity_eq (Edit.balanced hb hs h.1) (Edit.forest hs h.1) h.2 hl
      fun pre e' post hes => hno (e :: pre) e' post (by rw [hes]; rfl)
    refine ⟨h1, h2.trans hid, fun hset => ?_⟩
    exact (h3 fun text hm => hset text (List.mem_cons_of_mem e hm)).trans
      (htext fun text he => hset text (he ▸ List.mem_cons_self))

/-- **The slots are accounted for** after some edits of the empty surface. -/
structure Accounted (es : List Edit) : Prop where
  /-- The free slots are those of removed nodes, each once. -/
  free : ((∅ : Surface).edited es).free.Nodup ∧ ∀ k, k ∈ ((∅ : Surface).edited es).free ↔
    k < ((∅ : Surface).edited es).size ∧ (((∅ : Surface).edited es).node k).live = false
  /-- The next node that is made takes a slot that nobody is in. -/
  made : ∀ e : Edit, e.Allowed ((∅ : Surface).edited es) → ∀ k, e.made? ((∅ : Surface).edited es) = some k →
    (((∅ : Surface).edited es).node k).live = false ∧ ((e.run ((∅ : Surface).edited es)).node k).live
  /-- The next edit leaves every live node that it does not remove, whatever it makes. -/
  kept : ∀ e : Edit, e.Allowed ((∅ : Surface).edited es) → ∀ k, (((∅ : Surface).edited es).node k).live →
    (((e.run ((∅ : Surface).edited es)).node k).live ↔ ¬ e.Removes ((∅ : Surface).edited es) k)
  /-- A number stands for the same node until an edit removes the node. -/
  stands : ∀ pre post k, es = pre ++ post → (((∅ : Surface).edited pre).node k).live →
    (∀ mid e rest, post = mid ++ e :: rest → ¬ e.Removes ((∅ : Surface).edited (pre ++ mid)) k) →
    (((∅ : Surface).edited es).node k).live ∧
    (((∅ : Surface).edited es).node k).identity = (((∅ : Surface).edited pre).node k).identity ∧
    ((∀ text, Edit.setText k text ∉ post) →
      (((∅ : Surface).edited es).node k).text = (((∅ : Surface).edited pre).node k).text)
  count : ((∅ : Surface).edited es).liveCount + ((∅ : Surface).edited es).free.length = ((∅ : Surface).edited es).size
  /-- There are as many slots as there have been live nodes at a time. -/
  most : IsGreatest {n | ∃ pre, pre <+: es ∧ n = ((∅ : Surface).edited pre).liveCount} ((∅ : Surface).edited es).size

/-- **Edits of live nodes that move nothing below itself keep the accounts.** -/
theorem accounted_of_allowed (es : List Edit) (h : AllowedAll ∅ es) : Accounted es := by
  obtain ⟨hb, hs⟩ := h.kept balanced_empty forest_empty
  refine {
    free := ⟨hb.nodup_free, fun k => hb.mem_free⟩
    made := fun e he k hk => Edit.made_fresh hs he hk
    kept := fun e he k hk => Edit.live_iff hs he hk
    stands := fun pre post k hes hk hno => ?_
    count := hb.count
    most := h.isGreatest }
  subst hes
  obtain ⟨hpre, hpost⟩ := allowedAll_append.1 h
  obtain ⟨hb', hs'⟩ := hpre.kept balanced_empty forest_empty
  rw [edited_append]
  exact hpost.identity_eq hb' hs' hk fun mid e rest hm => by
    rw [← edited_append]
    exact hno mid e rest hm

/-- Two list items, of which the second is copied and removed before its slots are used again. -/
def turnoverStart : List Edit :=
  [.mount none
      { tag := "ul"
        children := [{ tag := "li", id := "a" }, { tag := "li", id := "b", children := [{ tag := "i" }] }] },
    .clone 2 "c", .remove 2, .mount (some 1) { tag := "p", children := [{ tag := "em" }] }]

/-- The first item goes below the copy, and a text takes the place of both. -/
def turnover : List Edit := turnoverStart ++ [.append 4 1, .setText 4 "x", .clone 4 "d"]

theorem allowed_turnoverStart : AllowedAll ∅ turnoverStart := by
  unfold turnoverStart
  refine ⟨fun p hp => (by cases hp), ?_, ?_, fun p hp => ?_, trivial⟩
  · show Node.live _ = true
    decide +kernel
  · show Node.live _ = true
    decide +kernel
  · obtain rfl := Option.some.inj hp
    decide +kernel

/-- Six slots do for a turnover of nine nodes. -/
theorem accounted_turnover : AllowedAll ∅ turnover ∧ Accounted turnover ∧ ((∅ : Surface).edited turnover).size = 6 := by
  have hf := (allowed_turnoverStart.kept balanced_empty forest_empty).2
  have hl : (((∅ : Surface).edited turnoverStart).node 1).live := by decide +kernel
  have hnot : 4 ∉ ((∅ : Surface).edited turnoverStart).subtree 1 := by decide +kernel
  rw [hf.mem_subtree hl] at hnot
  have h : AllowedAll ∅ turnover := by
    refine allowedAll_append.2 ⟨allowed_turnoverStart, ⟨?_, hl, hnot⟩, ?_, ?_, trivial⟩
    · decide +kernel
    · show Node.live _ = true
      decide +kernel
    · show Node.live _ = true
      decide +kernel
  exact ⟨h, accounted_of_allowed turnover h, by decide +kernel⟩

end Surface
end BoundPage
