import BoundPage.Proofs.Engine.Idle
import BoundPage.Proofs.Engine.Placements
/-!
# Objects are placed in their first slots

A placement looks at one registration at a time, on a page that has been rearranged by those before.  But moving a node
neither hides it nor lets it be missed, so which registrations are satisfied can be read off the page as it was before
the placement (`ExternalChildren.placesFirst`).
-/
namespace BoundPage
open RenderTarget

namespace ExternalChildren

/-! ## The registrations that are satisfied -/

section

variable {S : Type} [RenderTarget S] {c : ExternalChildren} {s : S} {id : String} {r : Registration}

/-- **A registration is satisfied**, and its object has not been placed. -/
structure Ready (c : ExternalChildren) (s : S) (id : String) (r : Registration) : Prop where
  unplaced : r.object ∉ c.placed
  shown : ∀ element ∈ r.condition, ∃ n, locate s ⟨element, id⟩ = some n ∧ isVisible s n
  slot : ∃ slot, locate s ⟨r.slot, id⟩ = some slot

theorem conditionHolds_iff {condition : List String} : conditionHolds s id condition ↔
    ∀ element ∈ condition, ∃ n, locate s ⟨element, id⟩ = some n ∧ isVisible s n := by
  unfold conditionHolds isShown
  simp only [List.all_eq_true, Option.any_eq_true]

theorem ready_iff : c.Ready s id r ↔ ¬ c.Waits s id r := by
  unfold Waits isPlaced
  rw [not_or, not_or, Bool.not_eq_false, conditionHolds_iff, ← ne_eq (locate s _), Option.ne_none_iff_exists',
    List.contains_eq_mem, decide_eq_true_eq]
  exact ⟨fun h => ⟨h.unplaced, h.shown, h.slot⟩, fun h => ⟨h.1, h.2.1, h.2.2⟩⟩

instance : DecidablePred (c.Ready s id) := fun r =>
  decidable_of_iff (¬ (c.isPlaced r.object ∨ conditionHolds s id r.condition = false ∨
    (locate s ⟨r.slot, id⟩).isNone)) (by rw [ready_iff, Option.isNone_iff_eq_none]; rfl)

/-- The satisfied ones among some registrations. -/
def ready (c : ExternalChildren) (s : S) (id : String) (rs : List Registration) : List Registration :=
  rs.filter fun r => c.Ready s id r

/-- Their objects, in the order of the first satisfied registration of each. -/
def firstObjects (c : ExternalChildren) (s : S) (id : String) (rs : List Registration) : List String :=
  ((c.ready s id rs).map (·.object)).eraseDups

/-- The first satisfied registration of an object. -/
def firstOf? (c : ExternalChildren) (s : S) (id : String) (rs : List Registration) (object : String) :
    Option Registration :=
  (c.ready s id rs).find? fun r => r.object == object

variable {rs : List Registration} {object : String}

theorem mem_firstObjects_iff : object ∈ c.firstObjects s id rs ↔ (c.firstOf? s id rs object).isSome := by
  unfold firstObjects firstOf?
  simp only [List.mem_eraseDups, List.mem_map, List.find?_isSome, beq_iff_eq]

theorem ready_append : c.ready s id (rs ++ [r]) = c.ready s id rs ++ if c.Ready s id r then [r] else [] := by
  unfold ready
  rw [List.filter_append]
  simp only [List.filter_cons, List.filter_nil, decide_eq_true_eq]

theorem eraseDups_append_singleton (objects : List String) (object : String) : (objects ++ [object]).eraseDups =
    if object ∈ objects then objects.eraseDups else objects.eraseDups ++ [object] := by
  rw [List.eraseDups_append]
  unfold List.removeAll
  split
  · next h =>
    rw [List.filter_cons_of_neg (by simpa using h)]
    exact List.append_nil _
  · next h =>
    rw [List.filter_cons_of_pos (by simpa using h)]
    rfl

/-- A registration after the first satisfied one of its object makes no difference, and neither does one that is not
satisfied. -/
theorem firstObjects_append_of_not (h : r.object ∈ c.firstObjects s id rs ∨ ¬ c.Ready s id r) :
    c.firstObjects s id (rs ++ [r]) = c.firstObjects s id rs := by
  unfold firstObjects at h ⊢
  rw [ready_append]
  split
  · next hr => rw [List.map_append, List.map_cons, List.map_nil, eraseDups_append_singleton,
      if_pos (List.mem_eraseDups.1 (h.resolve_right (not_not.2 hr)))]
  · rw [List.append_nil]

theorem firstObjects_append (hr : c.Ready s id r) (hnew : r.object ∉ c.firstObjects s id rs) :
    c.firstObjects s id (rs ++ [r]) = c.firstObjects s id rs ++ [r.object] := by
  unfold firstObjects at hnew ⊢
  rw [List.mem_eraseDups] at hnew
  rw [ready_append, if_pos hr, List.map_append, List.map_cons, List.map_nil, eraseDups_append_singleton, if_neg hnew]

theorem firstOf?_append_of_mem (h : object ∈ c.firstObjects s id rs) :
    c.firstOf? s id (rs ++ [r]) object = c.firstOf? s id rs object := by
  obtain ⟨first, hfirst⟩ := Option.isSome_iff_exists.1 (mem_firstObjects_iff.1 h)
  unfold firstOf? at hfirst ⊢
  rw [ready_append, List.find?_append, hfirst]
  rfl

theorem firstOf?_append (hr : c.Ready s id r) (hnew : r.object ∉ c.firstObjects s id rs) :
    c.firstOf? s id (rs ++ [r]) r.object = some r := by
  rw [mem_firstObjects_iff, Option.not_isSome_iff_eq_none] at hnew
  unfold firstOf? at hnew ⊢
  rw [ready_append, if_pos hr, List.find?_append, hnew]
  simp

end

/-! ## Moves -/

variable {c : ExternalChildren} {s : Surface} {id : String}

theorem parent_foldl_moveUnder {slot : Slot} (k : Slot) : ∀ (ns : List Slot) (t : Surface), (t.node slot).live →
    (∀ n ∈ ns, (t.node n).live) →
    ((ns.foldl (moveUnder slot) t).node k).parent = if k ∈ ns then some slot else (t.node k).parent
  | [], _, _, _ => (if_neg List.not_mem_nil).symm
  | n :: ns, t, hs, hns => by
    have hn := hns n List.mem_cons_self
    have hown := own_moveUnder hs hn
    rw [List.foldl_cons, parent_foldl_moveUnder k ns _ ((Node.live_eq (hown slot)).trans hs)
      (fun m hm => (Node.live_eq (hown m)).trans (hns m (List.mem_cons_of_mem n hm))), parent_moveUnder hs hn]
    by_cases hk : k = n
    · simp [hk]
    · simp [hk]

/-! ## One placement -/

theorem locateExternal_congr {t : Surface} (hsize : t.size = s.size) (h : ∀ k, (t.node k).own = (s.node k).own)
    (key : NodeKey) : locateExternal t key = locateExternal s key := by
  show t.externals key.text = s.externals key.text
  unfold Surface.externals Surface.liveSlots
  rw [hsize]
  have hlive : (fun k => (t.node k).live) = fun k => (s.node k).live := funext fun k => Node.live_eq (h k)
  have hext : (fun k => (t.node k).externalId == some key.text) = fun k => (s.node k).externalId == some key.text :=
    funext fun k => by rw [Node.externalId_eq (h k)]
  rw [hlive, hext]

theorem object_of_mem_locateExternal {a b : String} {n : Slot} (ha : n ∈ locateExternal s ⟨a, id⟩)
    (hb : n ∈ locateExternal s ⟨b, id⟩) : a = b := by
  have ha' : (s.node n).externalId = some (NodeKey.mk a id).text := by simpa using (List.mem_filter.1 ha).2
  have hb' : (s.node n).externalId = some (NodeKey.mk b id).text := by simpa using (List.mem_filter.1 hb).2
  exact NodeKey.text_inj_of_instance (Option.some.inj (ha'.symm.trans hb'))

/-- A placement that has looked at some registrations **has put the objects in the slots of their first satisfied
ones**, as the page `s` before it tells them. -/
structure PlacesFirst (c : ExternalChildren) (s : Surface) (id : String) (rs : List Registration)
    (p : Progress Surface) : Prop where
  placed : p.placed = c.firstObjects s id rs
  children : p.children = { c with placed := c.placed ++ p.placed }
  /-- The nodes of an object are under the slot of its first satisfied registration. -/
  slots : ∀ object ∈ p.placed, ∃ r slot, c.firstOf? s id rs object = some r ∧ locate s ⟨r.slot, id⟩ = some slot ∧
    ∀ n ∈ locateExternal p.surface ⟨object, id⟩, parent p.surface n = some slot
  /-- What belongs to none of the objects stays where it is. -/
  rests : ∀ n, (∀ object ∈ p.placed, n ∉ locateExternal s ⟨object, id⟩) → parent p.surface n = parent s n
  size : p.surface.size = s.size
  own : ∀ n, (p.surface.node n).own = (s.node n).own

namespace PlacesFirst

variable {rs : List Registration} {r : Registration} {p : Progress Surface}

theorem sameSight (h : PlacesFirst c s id rs p) : Surface.SameSight s p.surface := .of_own h.size h.own

theorem locateExternal_eq (h : PlacesFirst c s id rs p) (key : NodeKey) :
    locateExternal p.surface key = locateExternal s key := locateExternal_congr h.size h.own key

theorem waits_iff (h : PlacesFirst c s id rs p) :
    p.children.Waits p.surface id r ↔ r.object ∈ c.firstObjects s id rs ∨ ¬ c.Ready s id r := by
  rw [ready_iff, not_not, ← h.placed]
  unfold Waits
  rw [h.children, isPlaced_append rfl, h.sameSight.conditionHolds, h.sameSight.locate, or_assoc, or_left_comm]

theorem next_of_waits (h : PlacesFirst c s id rs p) (hw : p.children.Waits p.surface id r) :
    PlacesFirst c s id (rs ++ [r]) (p.next id r) := by
  obtain ⟨hsurface, hchildren, hplaced⟩ := Progress.next_of_waits hw
  rw [h.waits_iff] at hw
  constructor
  case placed => rw [hplaced, h.placed, firstObjects_append_of_not hw]
  case children => rw [hchildren, hplaced, h.children]
  case slots =>
    rw [hplaced, hsurface]
    intro object ho
    rw [firstOf?_append_of_mem (h.placed ▸ ho)]
    exact h.slots object ho
  case rests =>
    rw [hplaced, hsurface]
    exact h.rests
  case size => rw [hsurface, h.size]
  case own =>
    rw [hsurface]
    exact h.own

theorem next_of_not_waits (h : PlacesFirst c s id rs p) (hw : ¬ p.children.Waits p.surface id r) :
    PlacesFirst c s id (rs ++ [r]) (p.next id r) := by
  obtain ⟨slot, hslot, hsurface, hchildren, hplaced⟩ := Progress.next_of_not_waits hw
  rw [h.waits_iff, not_or, not_not] at hw
  obtain ⟨hnew, hr⟩ := hw
  have hlive : (p.surface.node slot).live := (ListRegion.locate_live hslot).1
  have hnodes : ∀ n ∈ locateExternal p.surface ⟨r.object, id⟩, (p.surface.node n).live := fun n hn =>
    locateExternal_live hn
  rw [h.locateExternal_eq] at hsurface hnodes
  rw [h.sameSight.locate] at hslot
  -- The nodes of the object go to the slot, and no other node moves.
  have hparent := fun k => parent_foldl_moveUnder k _ p.surface hlive hnodes
  have hown := own_foldl_moveUnder _ p.surface hlive hnodes
  have hsize := size_foldl_moveUnder slot (locateExternal s ⟨r.object, id⟩) p.surface
  rw [← hsurface] at hparent hown hsize
  have hexternal := locateExternal_congr (hsize.trans h.size) fun k => (hown k).trans (h.own k)
  constructor
  case placed => rw [hplaced, h.placed, firstObjects_append hr hnew]
  case children => rw [hchildren, hplaced, h.children, List.append_assoc]
  case slots =>
    intro object ho
    rw [hplaced, List.mem_append, List.mem_singleton] at ho
    rw [hexternal]
    by_cases hobject : object = r.object
    · subst hobject
      exact ⟨r, slot, firstOf?_append hr hnew, hslot, fun n hn => (hparent n).trans (if_pos hn)⟩
    · have hold : object ∈ p.placed := ho.resolve_right hobject
      obtain ⟨first, slot', hfirst, hslot', hput⟩ := h.slots object hold
      refine ⟨first, slot', (firstOf?_append_of_mem (h.placed ▸ hold)).trans hfirst, hslot', fun n hn => ?_⟩
      have hother : n ∉ locateExternal s ⟨r.object, id⟩ := fun hn' => hobject (object_of_mem_locateExternal hn hn')
      rw [← h.locateExternal_eq] at hn
      exact ((hparent n).trans (if_neg hother)).trans (hput n hn)
  case rests =>
    intro n hn
    rw [hplaced] at hn
    have hother := hn r.object (List.mem_append_right _ (List.mem_singleton_self _))
    exact ((hparent n).trans (if_neg hother)).trans (h.rests n fun object ho => hn object (List.mem_append_left _ ho))
  case size => exact hsize.trans h.size
  case own => exact fun n => (hown n).trans (h.own n)

/-- **One registration**: it is passed over if it is not satisfied or is not the first satisfied one of its object. -/
theorem next (h : PlacesFirst c s id rs p) (r : Registration) : PlacesFirst c s id (rs ++ [r]) (p.next id r) := by
  by_cases hw : p.children.Waits p.surface id r
  · exact h.next_of_waits hw
  · exact h.next_of_not_waits hw

end PlacesFirst

theorem placesFirst_progress (c : ExternalChildren) (s : Surface) (id : String) (rs : List Registration) :
    PlacesFirst c s id rs (c.progress s id rs) := by
  induction rs using List.reverseRecOn with
  | nil => exact ⟨rfl, by simp [progress], nofun, fun _ _ => rfl, rfl, fun _ => rfl⟩
  | append_singleton rs r ih =>
    rw [progress_append]
    exact ih.next r

/-- **The objects that have a satisfied registration are placed, each in the slot of the first one**, as the page before
the placement tells them; a second placement finds nothing to do. -/
theorem placesFirst (c : ExternalChildren) (s : Surface) (id : String) :
    PlacesFirst c s id c.registrations (c.placePending s id) ∧
      ((c.placePending s id).children.placePending (c.placePending s id).surface id).placed = [] ∧
      ((c.placePending s id).children.placePending (c.placePending s id).surface id).surface =
        (c.placePending s id).surface ∧
      ((c.placePending s id).children.placePending (c.placePending s id).surface id).children =
        (c.placePending s id).children :=
  have hidle := idle_placePending c s id
  ⟨placesFirst_progress c s id c.registrations, hidle.placed, hidle.placePending⟩

/-- The tip goes into the popup, which is moved before it; the box that both may go to is hidden. -/
example :
    let page := Surface.ofMarkup [{ tag := "div", children :=
      [{ tag := "div", id := "hidden:main", styles := .ofList [("display", "none")] },
       { tag := "div", id := "box:main" },
       { tag := "p", id := "popup:main", externalId := "popup:main" },
       { tag := "i", id := "tip:main", externalId := "tip:main" }] }]
    let c : ExternalChildren := { registrations := [⟨"popup", "hidden", ["hidden"]⟩, ⟨"popup", "box", ["box"]⟩,
      ⟨"tip", "popup", []⟩, ⟨"popup", "tip", []⟩] }
    let p := c.placePending page "main"
    p.placed = ["popup", "tip"] ∧ p.surface.parentId? "popup:main" = some "box:main" ∧
      p.surface.parentId? "tip:main" = some "popup:main" := by decide +kernel

end ExternalChildren
end BoundPage
