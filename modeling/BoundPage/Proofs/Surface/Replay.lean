import BoundPage.Proofs.Surface.Descriptions
import BoundPage.Proofs.Surface.DocumentOrder
import BoundPage.Proofs.Surface.Everywhere
import BoundPage.Proofs.Surface.Removal
/-!
# Replayed pages

A page that is mounted from the description of another one has the same nodes in the same order, with every style read
back from its text (`replayed_nodes`).  A style is read back as it was exactly if it is legible: mounting leaves legible
styles only, while a style that is set is kept as it is given.
-/
namespace BoundPage

/-! ## Styles that are read back -/

namespace StyleEntry

/-- What is read from the text of a style. -/
def reread (e : StyleEntry) : StyleEntry := ofText e.text

/-- **The text of a style says all of it**: there are no blanks around its value, and the value does not end in the mark
if the style is not important. -/
structure Legible (e : StyleEntry) : Prop where
  trimmed : Text.trim e.value = e.value
  unmarked : e.important = false → Text.beforeSuffix? importantMark e.value = none

instance (e : StyleEntry) : Decidable e.Legible :=
  decidable_of_iff (Text.trim e.value = e.value ∧
    (e.important = false → Text.beforeSuffix? importantMark e.value = none))
    ⟨fun h => ⟨h.1, h.2⟩, fun h => ⟨h.trimmed, h.unmarked⟩⟩

theorem ofText_of_mark {text value : String} (h : Text.beforeSuffix? importantMark (Text.trim text) = some value) :
    ofText text = ⟨Text.trim value, true⟩ := by
  unfold ofText
  simp only [h]

theorem ofText_of_no_mark {text : String} (h : Text.beforeSuffix? importantMark (Text.trim text) = none) :
    ofText text = ⟨Text.trim text, false⟩ := by
  unfold ofText
  simp only [h]

/-- What is read from a text is legible. -/
theorem legible_ofText (text : String) : (ofText text).Legible := by
  cases hmark : Text.beforeSuffix? importantMark (Text.trim text) with
  | some value =>
    rw [ofText_of_mark hmark]
    exact ⟨Text.trim_trim value, nofun⟩
  | none =>
    rw [ofText_of_no_mark hmark]
    exact ⟨Text.trim_trim text, fun _ => hmark⟩

/-- An important style is read back as important, without the blanks around its value. -/
theorem reread_important (value : String) : reread ⟨value, true⟩ = ⟨Text.trim value, true⟩ := by
  obtain ⟨left, htrim, hleft⟩ := Markup.trim_marked value
  have htext : text ⟨value, true⟩ = value ++ " !important" := by
    show value ++ " " ++ "!important" = _
    rw [String.append_assoc]
    rfl
  rw [reread, htext, ofText_of_mark (Text.beforeSuffix?_eq_some.2 htrim), hleft]

/-- **A style is read back as it was exactly if it is legible.** -/
theorem reread_eq_self_iff {e : StyleEntry} : e.reread = e ↔ e.Legible := by
  constructor
  · intro h
    rw [← h]
    exact legible_ofText e.text
  · intro h
    obtain ⟨value, important⟩ := e
    cases important with
    | true => rw [reread_important, h.trimmed]
    | false =>
      have hmark : Text.beforeSuffix? importantMark (Text.trim value) = none := by
        rw [h.trimmed]
        exact h.unmarked rfl
      show ofText value = _
      rw [ofText_of_no_mark hmark, h.trimmed]

/-- Reading back once more changes nothing. -/
theorem ofText_normalStyle (text : String) : ofText (Markup.normalStyle text) = ofText text := by
  rw [← text_ofText]
  exact reread_eq_self_iff.2 (legible_ofText text)

end StyleEntry

namespace Node

/-- All styles of the node are legible. -/
def Legible (n : Node) : Prop := ∀ property e, n.styles.get? property = some e → e.Legible

/-- The node with its styles read back. -/
def reread (n : Node) : Node := { n with styles := n.styles.map StyleEntry.reread }

theorem ofMarkup_described {n : Node} (h : n.live) : ofMarkup n.described = n.own.reread := by
  unfold ofMarkup described reread own
  rw [Table.map_map, h]
  rfl

theorem legible_ofMarkup (m : Markup) : (ofMarkup m).Legible := by
  intro property e he
  have hget : (m.styles.map StyleEntry.ofText).get? property = some e := he
  rw [Table.get?_map, Option.map_eq_some_iff] at hget
  obtain ⟨text, -, rfl⟩ := hget
  exact StyleEntry.legible_ofText text

/-- Legible styles are read back as they were. -/
theorem Legible.reread_eq {n : Node} (h : n.Legible) : n.reread = n := by
  have hstyles : n.styles.map StyleEntry.reread = n.styles := by
    refine Table.ext ((List.map_congr_left fun e he => ?_).trans (List.map_id _))
    rw [StyleEntry.reread_eq_self_iff.2 (h e.1 e.2 (Table.get?_eq_some.2 he))]
    rfl
  unfold reread
  rw [hstyles]

end Node

namespace Surface

variable {s t : Surface}

/-! ## Legible pages -/

/-- All styles on the page are legible. -/
def Legible (s : Surface) : Prop := s.Everywhere Node.Legible

/-- **Mounting leaves legible styles only.** -/
theorem legible_ofMarkup (ms : List Markup) : (ofMarkup ms).Legible :=
  Everywhere.empty.mountAll Node.legible_ofMarkup none ms

/-- A style is set to something legible, or something else is done. -/
def Alteration.SetsLegible : Alteration → Prop
  | setStyle _ _ (some value) important => value ≠ "" → (⟨value, important⟩ : StyleEntry).Legible
  | _ => True

theorem Legible.setStyle (h : s.Legible) {value : Option String} {important : Bool}
    (hset : ∀ v, value = some v → v ≠ "" → (⟨v, important⟩ : StyleEntry).Legible) (k : Slot) (property : String) :
    (s.setStyle k property value important).Legible := by
  refine Everywhere.modify h k fun n => ?_
  have herase : Node.Legible n.own → Node.Legible { n with styles := n.styles.erase property } := by
    intro hn q e he
    rw [Table.get?_erase] at he
    split at he
    · cases he
    · exact hn q e he
  cases value with
  | none => exact ⟨rfl, herase⟩
  | some v =>
    dsimp only
    split
    · exact ⟨rfl, herase⟩
    · next hv =>
      refine ⟨rfl, fun hn q e he => ?_⟩
      have hget : (n.styles.insert property ⟨v, important⟩).get? q = some e := he
      rw [Table.get?_insert] at hget
      split at hget
      · obtain rfl := Option.some.inj hget
        exact hset v rfl fun hempty => hv (by rw [hempty]; rfl)
      · exact hn q e hget

/-- **A change keeps a page legible unless it sets a style that is not legible.** -/
theorem Alteration.legible (h : s.Legible) {c : Alteration} (hc : c.SetsLegible) : (c.run s).Legible := by
  cases c with
  | edit e =>
    cases e with
    | mount parent m => exact Everywhere.mount h Node.legible_ofMarkup parent m
    | clone template id => exact (Everywhere.copyWithin s.size h template _).modify _ fun _ => ⟨rfl, fun hn => hn⟩
    | setText k text => exact Everywhere.setText h (fun _ _ hn => hn) k text
    | remove k => exact Everywhere.remove h k
    | append parent child => exact Everywhere.append h parent child
  | setStyle k property value important =>
    refine h.setStyle (fun v hv => ?_) k property
    subst hv
    exact hc
  | substitute k placeholder replacement =>
    show (s.substitute k placeholder replacement).Legible
    rcases substitute_eq s k placeholder replacement with he | ⟨j, text, -, -, he⟩
    · rw [he]
      exact h
    · rw [he]
      exact Everywhere.modify h j fun _ => ⟨rfl, fun hn => hn⟩

/-- **A page stays legible as long as legible styles are set**, whatever else is done to it. -/
theorem legible_altered : ∀ {cs : List Alteration} {s : Surface}, s.Legible → (∀ c ∈ cs, c.SetsLegible) →
    (s.altered cs).Legible
  | [], _, h, _ => h
  | c :: cs, s, h, hcs => by
    obtain ⟨hc, hcs⟩ := List.forall_mem_cons.1 hcs
    have hrest := legible_altered (Alteration.legible h hc) hcs
    exact hrest

/-! ## The same nodes -/

theorem Forest.live_of_mem_reached (hs : s.Forest) {k : Slot} (hk : k ∈ s.reached) : (s.node k).live :=
  (hs.mem_reached fun _ => hs.root_live).1 hk

/-- What the nodes of a forest say about themselves, in document order, can be read off its description, but for the
styles that are not read back. -/
theorem Forest.own_reached (hs : s.Forest) :
    s.reached.map (fun k => (s.node k).own.reread) = (s.markup.flatMap Markup.nodes).map Node.ofMarkup := by
  rw [hs.orderly.described, List.map_map]
  exact List.map_congr_left fun k hk => (Node.ofMarkup_described (hs.live_of_mem_reached hk)).symm

/-- **A mounted page has the nodes of its description, in document order.** -/
theorem own_reached_ofMarkup (ms : List Markup) :
    (ofMarkup ms).reached.map (fun k => ((ofMarkup ms).node k).own) = (ms.flatMap Markup.nodes).map Node.ofMarkup := by
  have hread : (ofMarkup ms).reached.map (fun k => ((ofMarkup ms).node k).own) =
      (ofMarkup ms).reached.map fun k => ((ofMarkup ms).node k).own.reread :=
    (List.map_congr_left fun k hk =>
      (legible_ofMarkup ms k ((forest_ofMarkup ms).live_of_mem_reached hk)).reread_eq).symm
  rw [hread, (forest_ofMarkup ms).own_reached, markup_ofMarkup, List.flatMap_map]
  simp only [Markup.nodes_normal]
  rw [← List.map_flatMap, List.map_map]
  refine List.map_congr_left fun n _ => ?_
  show Node.ofMarkup { n with styles := n.styles.map Markup.normalStyle } = Node.ofMarkup n
  unfold Node.ofMarkup
  simp only [Table.map_map, StyleEntry.ofText_normalStyle]

/-- **A replayed page has the same nodes in the same order**, with their styles read back. -/
theorem Forest.replayed_nodes (hs : s.Forest) :
    (ofMarkup s.markup).reached.map (fun k => ((ofMarkup s.markup).node k).own) =
      s.reached.map fun k => (s.node k).own.reread := by
  rw [own_reached_ofMarkup, hs.own_reached]

/-! ## Queries -/

/-- A mounted page is searched in document order. -/
theorem liveSlots_ofMarkup (ms : List Markup) : (ofMarkup ms).liveSlots = (ofMarkup ms).reached := by
  have hlive : (ofMarkup ms).liveSlots.Pairwise (· < ·) := List.pairwise_lt_range.filter _
  exact List.Perm.eq_of_pairwise (fun _ _ _ _ hab hba => absurd hba (Nat.lt_asymm hab)) hlive (ascending_ofMarkup ms)
    (forest_ofMarkup ms).orderly.reached_once.symm

/-- The entry of a style property on the first of some nodes with a data-id. -/
def styleAmong (nodes : List Node) (id property : String) : Option StyleEntry :=
  (nodes.find? fun n => n.id == some id).bind fun n => n.styles.get? property

theorem styleAmong_map (ks : List Slot) (node : Slot → Node) (id property : String) :
    styleAmong (ks.map node) id property =
      (ks.find? fun k => (node k).id == some id).bind fun k => (node k).styles.get? property := by
  unfold styleAmong
  rw [List.find?_map, Option.bind_map]
  rfl

/-- The entry of a style property on the first node with a data-id in document order. -/
def firstStyle? (s : Surface) (id property : String) : Option StyleEntry :=
  styleAmong (s.reached.map fun k => (s.node k).own) id property

theorem styleAmong_reread (nodes : List Node) (id property : String) :
    styleAmong (nodes.map Node.reread) id property = (styleAmong nodes id property).map StyleEntry.reread := by
  unfold styleAmong
  rw [List.find?_map, Option.bind_map]
  show (nodes.find? fun n => n.id == some id).bind _ = _
  cases nodes.find? fun n => n.id == some id with
  | none => rfl
  | some n => exact Table.get?_map StyleEntry.reread n.styles property

/-- **A query to a replayed page reads the first node with the data-id**, in document order, and its style back. -/
theorem Forest.styleAt?_replayed (hs : s.Forest) (id property : String) :
    (ofMarkup s.markup).styleAt? id property = (s.firstStyle? id property).map StyleEntry.reread := by
  have hfirst : (ofMarkup s.markup).styleAt? id property = (ofMarkup s.markup).firstStyle? id property := by
    unfold firstStyle?
    rw [styleAmong_map]
    unfold styleAt? find?
    rw [liveSlots_ofMarkup]
    rfl
  rw [hfirst]
  unfold firstStyle?
  rw [hs.replayed_nodes, ← styleAmong_reread, List.map_map]
  rfl

/-- A data-id that only one live node has is found where it is first in document order. -/
theorem Forest.firstStyle?_of_unique (hs : s.Forest) {id : String}
    (hid : ∀ j k, (s.node j).live → (s.node k).live → (s.node j).id = some id → (s.node k).id = some id → j = k)
    (property : String) : s.firstStyle? id property = s.styleAt? id property := by
  have hsame : (s.reached.find? fun k => (s.node k).id == some id) = s.find? id := by
    cases hfind : s.find? id with
    | none =>
      rw [List.find?_eq_none]
      intro k hk
      simpa using (find?_eq_none s).1 hfind k (hs.live_of_mem_reached hk)
    | some k =>
      obtain ⟨hl, hk⟩ := find?_eq_some s hfind
      have hmem : k ∈ s.reached := (hs.mem_reached fun _ => hs.root_live).2 hl
      cases hreach : s.reached.find? fun k => (s.node k).id == some id with
      | none => exact absurd hk (by simpa using List.find?_eq_none.1 hreach k hmem)
      | some j =>
        have hj : (s.node j).id = some id := by simpa using List.find?_some hreach
        rw [hid j k (hs.live_of_mem_reached (List.mem_of_find?_eq_some hreach)) hl hj hk]
  unfold firstStyle?
  rw [styleAmong_map]
  show ((s.reached.find? fun k => (s.node k).id == some id).bind _) = _
  rw [hsame]
  rfl

/-- **A page replays another one**: it has the same nodes in the same order with their styles read back, and answers
for the first node with a data-id. -/
structure Replays (s t : Surface) : Prop where
  nodes : t.reached.map (fun k => (t.node k).own) = s.reached.map fun k => (s.node k).own.reread
  /-- A legible page is replayed as it is. -/
  nodes_legible : s.Legible → t.reached.map (fun k => (t.node k).own) = s.reached.map fun k => (s.node k).own
  style : ∀ id property, t.styleAt? id property = (s.firstStyle? id property).map StyleEntry.reread
  /-- Where one node has the data-id, the answers are alike exactly if the style is legible, or there is none. -/
  alike_iff : ∀ id property,
    (∀ j k, (s.node j).live → (s.node k).live → (s.node j).id = some id → (s.node k).id = some id → j = k) →
      (t.styleAt? id property = s.styleAt? id property ↔ ∀ e, s.styleAt? id property = some e → e.Legible)

/-- **A page that is mounted from the description of a forest replays it.** -/
theorem Forest.replays (hs : s.Forest) : s.Replays (ofMarkup s.markup) where
  nodes := hs.replayed_nodes
  nodes_legible hl := by
    rw [hs.replayed_nodes]
    exact List.map_congr_left fun k hk => (hl k (hs.live_of_mem_reached hk)).reread_eq
  style := hs.styleAt?_replayed
  alike_iff id property hid := by
    rw [hs.styleAt?_replayed, hs.firstStyle?_of_unique hid]
    cases s.styleAt? id property with
    | none => exact iff_of_true rfl nofun
    | some e =>
      rw [Option.map_some, Option.some_inj, StyleEntry.reread_eq_self_iff]
      exact ⟨fun h e' he => Option.some.inj he ▸ h, fun h => h e rfl⟩

end Surface
end BoundPage
