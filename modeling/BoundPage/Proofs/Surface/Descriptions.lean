import BoundPage.Proofs.Surface.Edits
/-!
# Descriptions of what has been added

The description of a node depends on what is below it only.  So what is added at the end of a node's children, or of the
roots, changes no description but those of the nodes above it (`AddsLast`).  A copy is described like the node that it
was made from (`addsLast_clone`), and a mounted tree as it was, with its styles in normal form (`mounts_normally`).
-/
namespace BoundPage
namespace Surface

variable {s t : Surface} {parent : Option Slot} {h k template : Slot} {m : Markup}

/-! ## One more child at the end -/

/-- **A node has been added at the end of the children of a node, or of the roots**, with all that is below it; nothing
else is described differently. -/
structure AddsLast (s : Surface) (parent : Option Slot) (m : Markup) (h : Slot) (t : Surface) : Prop
    extends Sprouts parent h s t where
  forest : t.Forest
  markup : t.markupOf h = m
  /-- What is new is the node and what is below it. -/
  new_iff : ∀ k, (t.node k).live ∧ (s.node k).live = false ↔ t.Below h k
  /-- A node that is not above the place is described as before. -/
  elsewhere : ∀ k, (s.node k).live → (∀ p, parent = some p → ¬ s.Below k p) → t.markupOf k = s.markupOf k
  /-- A node has the children that it had, and the parent has the new one behind them. -/
  markup_old : ∀ k, (s.node k).live → t.markupOf k =
    { s.markupOf k with
      children := (s.node k).children.map t.markupOf ++ if parent = some k then [m] else [] }
  /-- The children that the parent had are described as before. -/
  markup_parent : ∀ p, parent = some p → t.markupOf p = { s.markupOf p with children := (s.markupOf p).children ++ [m] }
  markup_roots : t.markup = if parent = none then s.markup ++ [m] else s.roots.map t.markupOf

theorem Sprouts.markupOf_elsewhere (hs : s.Rooted) (ht : t.Rooted) (h' : Sprouts parent h s t) (hl : (s.node k).live)
    (hnot : ∀ p, parent = some p → ¬ s.Below k p) : t.markupOf k = s.markupOf k :=
  hs.markupOf_congr ht hl fun j hj => h'.node_eq (hs.live_of_below hj hl) fun hp => hnot j hp hj

/-- A new node whose description is known has been added with the rest left as it is described. -/
theorem Sprouts.addsLast (hs : s.Forest) (ht : t.Forest) (hp : ∀ p, parent = some p → (s.node p).live)
    (h' : Sprouts parent h s t) (hm : t.markupOf h = m)
    (hnew : ∀ k, (t.node k).live ∧ (s.node k).live = false ↔ t.Below h k) : s.AddsLast parent m h t := by
  have hold : ∀ k, (s.node k).live → t.markupOf k = { s.markupOf k with
      children := (s.node k).children.map t.markupOf ++ if parent = some k then [m] else [] } := fun k hk => by
    rw [ht.markupOf_eq (h'.live hk), hs.markupOf_eq hk, h'.node k hk, ← hm]
    dsimp only
    split
    · rw [List.map_append]; rfl
    · rw [List.append_nil]
  have hfar : ∀ k, (s.node k).live → (∀ p, parent = some p → ¬ s.Below k p) → t.markupOf k = s.markupOf k :=
    fun k => h'.markupOf_elsewhere hs.toRooted ht.toRooted
  refine { h' with
    forest := ht
    markup := hm
    new_iff := hnew
    elsewhere := hfar
    markup_old := hold
    markup_parent := fun p hpar => ?_
    markup_roots := ?_ }
  · -- No child of the parent is above the parent.
    have hsame : (s.node p).children.map t.markupOf = (s.node p).children.map s.markupOf :=
      List.map_congr_left fun c hc => by
        obtain ⟨-, hlive, hcp⟩ := hs.child (p := p) hc
        exact hfar c hlive fun q hq => by
          obtain rfl := Option.some.inj (hpar.symm.trans hq)
          exact hs.not_below_parent hcp
    rw [hold p (hp p hpar), if_pos hpar, hsame, hs.markupOf_eq (hp p hpar)]
  · unfold Surface.markup
    rw [h'.roots]
    split
    · next hnone =>
      rw [List.map_append, List.map_singleton, hm]
      congr 1
      exact List.map_congr_left fun r hr => hfar r (hs.root_live hr) fun p hpar => by
        rw [hnone] at hpar
        cases hpar
    · rfl

/-! ## Copies -/

theorem addsLast_copy (hs : s.Forest) (hl : (s.node template).live) :
    s.AddsLast (s.node template).parent (s.markupOf template) (s.copy template (s.node template).parent).1
      (s.copy template (s.node template).parent).2 := by
  have hp : ∀ p, (s.node template).parent = some p → (s.node p).live := fun _ hp => hs.toLinked.parent_live hp
  have hc := copies_copy hs.toLinked hl
  have hf : Faithful s template s.size _ _ :=
    faithful_copyWithin s.size s template _ hs.toLinked hl hp fun _ hp => hs.not_below_parent hp
  have ht := hc.forest hs hl hp
  refine hc.addsLast hs ht hp (hc.markupOf_eq hs.toRooted hl hf) fun k => ?_
  exact ⟨fun h => hc.below_of_new h.1 h.2, fun h => ⟨ht.live_of_below h (hc.live_top hl), hc.new_of_below h⟩⟩

/-- A node that gets a data-id is described with it, and otherwise as before. -/
theorem Rooted.markupOf_named (hs : s.Rooted) (hl : (s.node h).live) (id : String) :
    (s.modify h fun n => { n with id := some id }).markupOf h = { s.markupOf h with id := some id } := by
  have hsame := Edit.sameTree_named s h id
  have ht := hs.sameTree hsame
  have htl : ((s.modify h fun n => { n with id := some id }).node h).live := (hsame.live h).trans hl
  obtain ⟨l, hlevel⟩ := hs.level hl
  have hchildren : (s.node h).children.map (s.modify h fun n => { n with id := some id }).markupOf =
      (s.node h).children.map s.markupOf := List.map_congr_left fun c hc => by
    refine hs.markupOf_congr ht (hs.child (p := h) hc).2.1 fun k hk => node_modify_of_ne s _ ?_
    rintro rfl
    exact hlevel.not_below_of_child hs.toLinked hc hk
  rw [ht.markupOf_eq htl, hsame.children, hchildren, node_modify_self s _ (lt_size_of_live s hl), hs.markupOf_eq hl]
  rfl

/-- **A copy is described like its template, with a data-id of its own**, and stands behind the last child of the same
parent; everything else stays as it is. -/
theorem addsLast_clone (hs : s.Forest) (hl : (s.node template).live) (id : String) :
    s.AddsLast (s.node template).parent { s.markupOf template with id := some id } (s.clone template id).1
      (s.clone template id).2 := by
  rw [Edit.clone_eq]
  have hu := addsLast_copy hs hl
  generalize (s.copy template (s.node template).parent).1 = h at hu ⊢
  generalize (s.copy template (s.node template).parent).2 = u at hu ⊢
  have hsame := Edit.sameTree_named u h id
  have hold : ∀ k, (s.node k).live → (u.modify h fun n => { n with id := some id }).node k = u.node k := fun k hk => by
    refine node_modify_of_ne u _ ?_
    rintro rfl
    rw [hu.fresh] at hk
    cases hk
  have hsprouts : Sprouts (s.node template).parent h s (u.modify h fun n => { n with id := some id }) := {
    size_le := hsame.size ▸ hu.size_le
    fresh := hu.fresh
    node := fun k hk => (hold k hk).trans (hu.node k hk)
    roots := hu.roots
    free := hu.free
    top := (hsame.parent h).trans hu.top }
  have htop : (u.node h).live := ((hu.new_iff h).2 (.refl h)).1
  refine hsprouts.addsLast hs (hsame.forest hu.forest) (fun _ hp => hs.toLinked.parent_live hp) ?_ fun k => ?_
  · rw [hu.forest.markupOf_named htop, hu.markup]
  · rw [hsame.live, hsame.below_iff]
    exact hu.new_iff k

/-- A surface of which the two slots that were used last are free. -/
def vacated : Surface := ((∅ : Surface).edited turnoverStart).remove 4

theorem forest_vacated : vacated.Forest := by
  have hs := (allowed_turnoverStart.kept balanced_empty forest_empty).2
  exact hs.remove (by decide +kernel)

/-- A copy of three nodes takes the two free slots and a new one. -/
theorem addsLast_vacated : vacated.Forest ∧ (vacated.node 1).live ∧
    vacated.AddsLast (some 0) { vacated.markupOf 1 with id := some "c" } 5 (vacated.clone 1 "c").2 ∧
    (vacated.clone 1 "c").2.subtree 5 = [5, 4, 6] := by
  have hl : (vacated.node 1).live := by decide +kernel
  have hparent : (vacated.node 1).parent = some 0 := by decide +kernel
  have htop : (vacated.clone 1 "c").1 = 5 := by decide +kernel
  have hadds := addsLast_clone forest_vacated hl "c"
  rw [hparent, htop] at hadds
  exact ⟨forest_vacated, hl, hadds, by decide +kernel⟩

/-! ## Mounted trees -/

/-- A tree that is mounted changes the descriptions like any other node that is added. -/
theorem Mounts.addsLast (hs : s.Forest) (hp : ∀ p, parent = some p → (s.node p).live) (hm : Mounts parent [m] [h] s t) :
    s.AddsLast parent m h t := by
  have hnew : ∀ k, (t.node k).live ∧ (s.node k).live = false ↔ t.Below h k := fun k => by simpa using hm.new_iff k
  have hsprouts : Sprouts parent h s t := {
    size_le := hm.size_le
    fresh := hm.dead List.mem_cons_self
    node := fun k hk => by
      rw [hm.node k hk]
      split <;> simp
    roots := by
      rw [hm.roots]
      split <;> simp
    free := hm.free
    top := (hm.top h List.mem_cons_self).2 }
  exact hsprouts.addsLast hs hm.forest hp (List.cons.inj hm.markup).1 hnew

/-- The trees that are mounted as roots are exported behind those that are there. -/
theorem Forest.markup_mountAll : ∀ {s : Surface} (_ : s.Forest) (ms : List Markup),
    (s.mountAll none ms).markup = s.markup ++ ms.map Markup.normal
  | s, _, [] => (List.append_nil _).symm
  | s, hs, m :: ms => by
    have hno : ∀ p, (none : Option Slot) = some p → (s.node p).live := nofun
    have hm := (hs.mounts_mount hno m).addsLast hs hno
    show ((s.mount none m).2.mountAll none ms).markup = _
    rw [markup_mountAll hm.forest ms, hm.markup_roots, if_pos rfl, List.append_assoc]
    rfl

theorem markup_ofMarkup (ms : List Markup) : (ofMarkup ms).markup = ms.map Markup.normal :=
  forest_empty.markup_mountAll ms

/-- **What is mounted is exported with its styles in normal form**, as the last child of its parent or the last root,
and all else as before; a page that is mounted from an export has the same export. -/
theorem mounts_normally :
    (∀ (s : Surface) (parent : Option Slot) (m : Markup), s.Forest → (∀ p, parent = some p → (s.node p).live) →
      s.AddsLast parent m.normal (s.mount parent m).1 (s.mount parent m).2) ∧
    ∀ ms : List Markup, (ofMarkup ms).markup = ms.map Markup.normal ∧
      (ofMarkup (ofMarkup ms).markup).markup = (ofMarkup ms).markup := by
  refine ⟨fun s parent m hs hp => (hs.mounts_mount hp m).addsLast hs hp, fun ms => ⟨markup_ofMarkup ms, ?_⟩⟩
  rw [markup_ofMarkup, markup_ofMarkup, List.map_map]
  exact List.map_congr_left fun m _ => m.normal_normal

/-- A notice with blanks around its styles, with a mark and no value, and below it with two marks. -/
def notice : Markup where
  tag := "p"
  styles := .ofList [("color", " red!important "), ("margin", "!important")]
  children := [{ tag := "b", styles := .ofList [("top", "1px!important !important")] }, { tag := "i" }]

/-- The notice takes the two free slots and a new one. -/
theorem mounts_notice : vacated.Forest ∧ (vacated.node 1).live ∧
    vacated.AddsLast (some 1) notice.normal 5 (vacated.mount (some 1) notice).2 ∧
    (vacated.mount (some 1) notice).2.subtree 5 = [5, 4, 6] ∧
    notice.normal.styles.entries = [("color", "red !important"), ("margin", " !important")] := by
  have hl : (vacated.node 1).live := by decide +kernel
  have htop : (vacated.mount (some 1) notice).1 = 5 := by decide +kernel
  have hadds := mounts_normally.1 vacated (some 1) notice forest_vacated fun p hp => Option.some.inj hp ▸ hl
  rw [htop] at hadds
  exact ⟨forest_vacated, hl, hadds, by decide +kernel, by decide +kernel⟩

end Surface
end BoundPage
