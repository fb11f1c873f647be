import BoundPage.Proofs.Surface.Forest
/-!
# Mounting

Trees that are mounted are added at the end, and each is described as it was, with its styles in normal form
(`Mounts`).  The nodes that are new are those of the trees, so what has been mounted stays as it is while its siblings
are mounted, whatever slots they take.
-/
namespace BoundPage
namespace Surface

variable {s t u : Surface} {parent : Option Slot} {h : Slot} {m : Markup} {ms : List Markup} {new : List Slot}

/-- **Trees have been added at the end of the children of a node, or of the roots**, and are described as expected. -/
structure Mounts (parent : Option Slot) (ms : List Markup) (new : List Slot) (s t : Surface) : Prop where
  forest : t.Forest
  size_le : s.size ≤ t.size
  node : ∀ k, (s.node k).live → t.node k =
    { s.node k with children := (s.node k).children ++ if parent = some k then new else [] }
  roots : t.roots = s.roots ++ if parent = none then new else []
  free : t.free <:+ s.free
  top : ∀ c ∈ new, (t.node c).live ∧ (t.node c).parent = parent
  /-- What is new is what is in the trees. -/
  new_iff : ∀ k, (t.node k).live ∧ (s.node k).live = false ↔ ∃ c ∈ new, t.Below c k
  markup : new.map t.markupOf = ms

namespace Mounts

theorem nil (hs : s.Forest) (parent : Option Slot) : Mounts parent [] [] s s where
  forest := hs
  size_le := Nat.le_refl _
  node k _ := by split <;> rw [List.append_nil]
  roots := by split <;> rw [List.append_nil]
  free := List.suffix_refl _
  top := nofun
  new_iff k := by simp
  markup := rfl

theorem dead (hm : Mounts parent ms new s t) {c : Slot} (hc : c ∈ new) : (s.node c).live = false :=
  ((hm.new_iff c).2 ⟨c, hc, .refl c⟩).2

theorem own (hm : Mounts parent ms new s t) {k : Slot} (hk : (s.node k).live) : (t.node k).own = (s.node k).own := by
  rw [hm.node k hk]
  rfl

theorem live (hm : Mounts parent ms new s t) {k : Slot} (hk : (s.node k).live) : (t.node k).live := by
  rw [hm.node k hk]
  exact hk

/-- One tree after the other. -/
theorem cons (hp : ∀ p, parent = some p → (s.node p).live) (h₁ : Mounts parent [m] [h] s t)
    (h₂ : Mounts parent ms new t u) : Mounts parent (m :: ms) (h :: new) s u := by
  have htop := h₁.top h List.mem_cons_self
  have hnew₁ : ∀ k, (t.node k).live ∧ (s.node k).live = false ↔ t.Below h k := fun k => by simpa using h₁.new_iff k
  -- The parent is not in the first tree, so the others leave the tree as it is.
  have hsame : ∀ k, t.Below h k → u.node k = t.node k := fun k hk => by
    obtain ⟨hlive, hdead⟩ := (hnew₁ k).2 hk
    have hne : parent ≠ some k := fun hpar => by
      rw [hp k hpar] at hdead
      cases hdead
    rw [h₂.node k hlive, if_neg hne, List.append_nil]
  have hbelow : ∀ {k}, u.Below h k ↔ t.Below h k := below_congr fun k hk => by rw [hsame k hk]
  refine ⟨h₂.forest, Nat.le_trans h₁.size_le h₂.size_le, fun k hk => ?_, ?_, h₂.free.trans h₁.free, fun c hc => ?_,
    fun k => ?_, ?_⟩
  · rw [h₂.node k (h₁.live hk), h₁.node k hk]
    split <;> simp
  · rw [h₂.roots, h₁.roots]
    split <;> simp
  · rcases List.mem_cons.1 hc with rfl | hc
    · rw [hsame c (.refl c)]
      exact htop
    · exact h₂.top c hc
  · rw [List.exists_mem_cons_iff, hbelow, ← hnew₁, ← h₂.new_iff]
    constructor
    · rintro ⟨hlive, hdead⟩
      cases hold : (t.node k).live with
      | true => exact .inl ⟨rfl, hdead⟩
      | false => exact .inr ⟨hlive, rfl⟩
    · rintro (⟨hlive, hdead⟩ | ⟨hlive, hdead⟩)
      · exact ⟨h₂.live hlive, hdead⟩
      · refine ⟨hlive, ?_⟩
        by_contra hold
        rw [h₁.live (by simpa using hold)] at hdead
        cases hdead
  · rw [List.map_cons, h₂.markup, h₁.forest.markupOf_congr h₂.forest.toRooted htop.1 hsame]
    exact congrArg (· :: ms) (List.cons.inj h₁.markup).1

/-- A node has been added, and trees below it. -/
theorem of_sprout {n : Node} (hs : s.Forest) (hp : ∀ p, parent = some p → (s.node p).live) (hn : n.children = [])
    (hl : n.live) (hm : Mounts (some (s.sprout n parent).1) ms new (s.sprout n parent).2 u) :
    Mounts parent [{ n.described with children := ms }] [(s.sprout n parent).1] s u := by
  have hsp := sprouts_sprout (n := n) hs.toFreeSlots hp
  have hself := node_sprout (n := n) hs.toFreeSlots hp (s.sprout n parent).1
  have hlive := live_sprout (n := n) hs.toFreeSlots hp
  rw [if_pos rfl] at hself
  generalize (s.sprout n parent).1 = h at hm hsp hself hlive ⊢
  generalize (s.sprout n parent).2 = t at hm hsp hself hlive
  have htop : (t.node h).live := by rw [hself]; exact hl
  have hnode : u.node h = { n with parent, children := new } := by
    rw [hm.node h htop, hself, if_pos rfl]
    dsimp only
    rw [hn, List.nil_append]
  have hchild : ∀ {c}, u.Child h c ↔ c ∈ new := fun {c} => by
    unfold Child
    rw [hnode]
  refine ⟨hm.forest, Nat.le_trans hsp.size_le hm.size_le, fun k hk => ?_, ?_, hm.free.trans hsp.free, fun c hc => ?_,
    fun k => ?_, ?_⟩
  · have hne : some h ≠ some k := fun he => by
      rw [← Option.some.inj he, hsp.fresh] at hk
      cases hk
    rw [hm.node k (hsp.live hk), if_neg hne, List.append_nil, hsp.node k hk]
    dsimp only
    split <;> simp
  · rw [hm.roots, if_neg (by simp), List.append_nil, hsp.roots]
    split <;> simp
  · rw [List.mem_singleton.1 hc, hnode]
    exact ⟨hl, rfl⟩
  · have hbelow : u.Below h k ↔ h = k ∨ ∃ c ∈ new, u.Below c k := by
      simp only [← hchild]
      exact Relation.ReflTransGen.cases_head_iff
    have hnew := hm.new_iff k
    rw [hlive] at hnew
    simp only [List.mem_singleton, exists_eq_left]
    rw [hbelow]
    by_cases hk : k = h
    · subst hk
      exact iff_of_true ⟨by rw [hnode]; exact hl, hsp.fresh⟩ (.inl rfl)
    · rw [if_neg hk] at hnew
      rw [hnew, or_iff_right (Ne.symm hk)]
  · rw [List.map_singleton, hm.forest.markupOf_eq (by rw [hnode]; exact hl), hnode]
    dsimp only
    rw [hm.markup]
    rfl

end Mounts

mutual

/-- **A tree is mounted as it is described**, with its styles in normal form. -/
theorem Forest.mounts_mount {s : Surface} (hs : s.Forest) {parent : Option Slot}
    (hp : ∀ p, parent = some p → (s.node p).live) : ∀ m : Markup,
      Mounts parent [m.normal] [(s.mount parent m).1] s (s.mount parent m).2
  | ⟨tag, id, externalId, text, attributes, styles, children⟩ => by
    let n : Node := .ofMarkup { tag, id, externalId, text, attributes, styles }
    have htop : ((s.sprout n parent).2.node (s.sprout n parent).1).live := live_sprout_self hs.toFreeSlots hp
    obtain ⟨new, hnew⟩ := (hs.sprout (n := n) hp rfl rfl).mounts_mountAll
      (fun p (h : some (s.sprout n parent).1 = some p) => Option.some.inj h ▸ htop) children
    have hmounts := Mounts.of_sprout (n := n) hs hp rfl rfl hnew
    have hdescribed : { n.described with children := Markup.normalAll children } =
        Markup.normal ⟨tag, id, externalId, text, attributes, styles, children⟩ := by
      have hstyles : (styles.map StyleEntry.ofText).map StyleEntry.text = styles.map Markup.normalStyle := by
        simp only [Table.map_map, StyleEntry.text_ofText]
      rw [Markup.normal, ← hstyles]
      rfl
    rw [hdescribed] at hmounts
    exact hmounts

theorem Forest.mounts_mountAll {s : Surface} (hs : s.Forest) {parent : Option Slot}
    (hp : ∀ p, parent = some p → (s.node p).live) : ∀ ms : List Markup,
      ∃ new, Mounts parent (Markup.normalAll ms) new s (s.mountAll parent ms)
  | [] => ⟨[], .nil hs parent⟩
  | m :: ms => by
    have h₁ := hs.mounts_mount hp m
    obtain ⟨new, h₂⟩ := h₁.forest.mounts_mountAll (fun p hpar => h₁.live (hp p hpar)) ms
    exact ⟨_, h₁.cons hp h₂⟩

end

/-- **Every page is a forest when it has been mounted.** -/
theorem forest_ofMarkup (ms : List Markup) : (ofMarkup ms).Forest := by
  obtain ⟨new, hnew⟩ := forest_empty.mounts_mountAll (fun p (h : none = some p) => by cases h) ms
  exact hnew.forest

end Surface
end BoundPage
