import BoundPage.Proofs.Write.Nodewise
import BoundPage.Proofs.Write.Steady
/-!
# A pass that is repeated

A pass over a page that an equal pass has left does little (`Pass.again`).  It finds every text in its place, so nothing
goes, and the acts on a node leave its styles as they are unless they are unsteady.  Spacing needs a look at the whole
row: it stays where it is as the rule says and every act on the row leaves the visibility that there is
(`Pass.AtRest`).
-/
namespace BoundPage
open RenderTarget

namespace Surface

variable {s : Surface} {n k : Slot} {property value : String}

theorem alikeBut_setText {text : String} (h : Act.HoldsText s n text) :
    AlikeBut (fun _ _ => False) s (s.setText n text) := by
  have hnode : ∀ k, (s.setText n text).node k = s.node k := fun k => by
    rw [setText_eq, h.2, List.foldl_nil, node_modify, node_childless]
    split
    · next hk =>
      rw [hk.1, if_pos rfl, ← h.1, ← h.2]
    · split
      · next hk => rw [hk, ← h.2]
      · rfl
  refine ⟨size_setText s n text, roots_setText s n text, ?_, fun k => by rw [hnode], fun k _ _ => by rw [hnode]⟩
  rw [setText_eq, h.2]
  rfl

theorem looks_setStyle_idle {e : StyleEdit} (hn : n < s.size) (h : s.looks n e.property = e.stored?) (k : Slot)
    (q : String) : (setStyle s n e.property e.value e.important : Surface).looks k q = s.looks k q := by
  by_cases hk : k = n ∧ q = e.property
  · rw [hk.1, hk.2, looks_setStyle hn, if_pos rfl, h]
  · exact (restyled_setStyle s n e.property e.value e.important).entry k q hk

/-- The children of a node are spaced as the rule says: the first visible one is without the property, and those after
it have the value. -/
def IsSpaced (s : Surface) (property value : String) (children : List Slot) : Prop :=
  ∀ first later, children.dropWhile (fun c => !isVisible s c) = first :: later →
    s.looks first property = none ∧ ∀ c ∈ later, s.looks c property = (StyleEdit.set property value).stored?

theorem IsSpaced.congr {t : Surface} {children : List Slot} (h : s.IsSpaced property value children)
    (hvis : ∀ c ∈ children, (t.looks c).visible = (s.looks c).visible)
    (hlooks : ∀ c ∈ children, t.looks c property = s.looks c property) : t.IsSpaced property value children := by
  have hdrop : ∀ cs : List Slot, (∀ c ∈ cs, (t.looks c).visible = (s.looks c).visible) →
      cs.dropWhile (fun c => !isVisible t c) = cs.dropWhile fun c => !isVisible s c := by
    intro cs
    induction cs with
    | nil => exact fun _ => rfl
    | cons c cs ih =>
      intro hcs
      have hc : isVisible t c = isVisible s c := hcs c List.mem_cons_self
      rw [List.dropWhile_cons, List.dropWhile_cons, hc, ih fun d hd => hcs d (List.mem_cons_of_mem c hd)]
  intro first later hfirst
  rw [hdrop children hvis] at hfirst
  have hmem : ∀ c ∈ first :: later, c ∈ children := fun c hc => (List.dropWhile_sublist _).subset (hfirst ▸ hc)
  obtain ⟨h1, h2⟩ := h first later hfirst
  refine ⟨(hlooks first (hmem first List.mem_cons_self)).trans h1, fun c hc => ?_⟩
  exact (hlooks c (hmem c (List.mem_cons_of_mem first hc))).trans (h2 c hc)

theorem looks_spaceChildren {children : List Slot} (hchildren : ∀ c ∈ children, c < s.size)
    (h : s.IsSpaced property value children) (k : Slot) (q : String) :
    (Layout.spaceChildren s property value children).looks k q = s.looks k q := by
  have hlater : ∀ (later : List Slot) (t : Surface), (∀ c ∈ later, c < t.size) →
      (∀ c ∈ later, t.looks c property = (StyleEdit.set property value).stored?) →
      (later.foldl (fun t c => setStyle t c property (some value) false) t).looks k q = t.looks k q := by
    intro later
    induction later with
    | nil => exact fun _ _ _ => rfl
    | cons c later ih =>
      intro t hsize hlooks
      have hidle := looks_setStyle_idle (e := .set property value) (hsize c List.mem_cons_self)
        (hlooks c List.mem_cons_self)
      have hsize' : (setStyle t c property (some value) false : Surface).size = t.size :=
        (restyled_setStyle t c property (some value) false).size
      rw [List.foldl_cons]
      refine (ih _ (fun d hd => ?_) fun d hd => ?_).trans (hidle k q)
      · exact lt_of_lt_of_eq (hsize d (List.mem_cons_of_mem c hd)) hsize'.symm
      · exact (hidle d property).trans (hlooks d (List.mem_cons_of_mem c hd))
  unfold Layout.spaceChildren
  split
  · rfl
  · next first later hshown =>
    obtain ⟨hfirst, hrest⟩ := h first later hshown
    have hmem : ∀ c ∈ first :: later, c < s.size := fun c hc =>
      hchildren c ((List.dropWhile_sublist _).subset (hshown ▸ hc))
    have hidle := looks_setStyle_idle (e := .clear property) (hmem first List.mem_cons_self) hfirst
    have hsize' : (setStyle s first property none false : Surface).size = s.size :=
      (restyled_setStyle s first property none false).size
    refine (hlater later _ (fun c hc => ?_) fun c hc => ?_).trans (hidle k q)
    · exact lt_of_lt_of_eq (hmem c (List.mem_cons_of_mem first hc)) hsize'.symm
    · exact (hidle c property).trans (hrest c hc)

end Surface

namespace Pass

variable {p : Pass Surface} {w t : Surface} {e : String × List Dependency} {n k : Slot} {property : String}

/-! ## What stays -/

/-- **A row of children is at rest**: it is spaced as the rule of the parent says, every act that shows or hides one of
them leaves it as it is, and no act on them edits what they are spaced by. -/
structure AtRest (p : Pass Surface) (w : Surface) (parent : Slot) (property value : String) : Prop where
  rule : Layout.spacingRule? w parent = some (property, value)
  spaced : w.IsSpaced property value (w.node parent).children
  visible : ∀ e ∈ p.dependents.entries, ∀ n, p.About w e n → (w.node n).parent = some parent →
    ∀ shown, .visible shown ∈ p.acts [] e.2 → (w.looks n).visible = shown
  unedited : ∀ e ∈ p.dependents.entries, ∀ n, p.About w e n → (w.node n).parent = some parent →
    ∀ a ∈ p.acts [] e.2, property ∉ a.edited

/-- A property of a node that a pass does not come to, or that only the spacing of a row at rest is about. -/
inductive Still (p : Pass Surface) (w : Surface) (k : Slot) (property : String) : Prop
  | atRest {parent : Slot} {value : String} (parent_eq : (w.node k).parent = some parent)
    (h : p.AtRest w parent property value)
  | notNamed (notAbout : ∀ e ∈ p.dependents.entries, ¬ p.About w e k)
    (notSpaced : ¬ w.Spaced p.instanceId p.dependents k property)

/-- What has become of a page in a pass that is repeated. -/
structure Stays (p : Pass Surface) (w t : Surface) : Prop where
  alike : Surface.AlikeBut (fun _ _ => True) w t
  still : ∀ k property, p.Still w k property → t.looks k property = w.looks k property

theorem Stays.kept (h : p.Stays w t) : Surface.Kept w t where
  size := h.alike.size
  roots := h.alike.roots
  live k hk := by rw [← h.alike.sameTree.live]; exact hk
  node k _ := by
    rw [h.alike.node k]

theorem Stays.holdsText (h : p.Stays w t) {text : String} (hn : Act.HoldsText w n text) : Act.HoldsText t n text := by
  unfold Act.HoldsText
  rw [h.alike.node n]
  exact hn

theorem Fits.not_spaced_display (hw : p.Fits w) (k : Slot) : ¬ w.Spaced p.instanceId p.dependents k "display" :=
  hw.unread "display" (by decide) k

theorem AtRest.looks_refreshSpacing {parent : Slot} {value : String} (hrest : p.AtRest w parent property value)
    (hlinked : w.Linked) {u : Surface} (hu : Surface.AlikeBut (fun _ _ => True) w u)
    (hn : (w.node n).parent = some parent)
    (hvis : ∀ c, (w.node c).parent = some parent → (u.looks c).visible = (w.looks c).visible)
    (hlooks : ∀ c, (w.node c).parent = some parent → u.looks c property = w.looks c property) (k : Slot) (q : String) :
    (Layout.refreshSpacing u n).looks k q = u.looks k q := by
  have hparent : RenderTarget.parent u n = some parent := by
    show (u.node n).parent = _
    rw [hu.node]
    exact hn
  have hrule : Layout.spacingRule? u parent = some (property, value) := by
    rw [← hrest.rule]
    show Option.bind ((u.node parent).attributes.get? _) _ = Option.bind ((w.node parent).attributes.get? _) _
    rw [hu.node]
  have hchildren : (u.node parent).children = (w.node parent).children := by rw [hu.node]
  have hchild : ∀ c ∈ (w.node parent).children, (w.node c).live ∧ (w.node c).parent = some parent := fun c hc =>
    (hlinked.child hc).2
  unfold Layout.refreshSpacing
  rw [hparent]
  simp only [hrule]
  refine Surface.looks_spaceChildren (fun c hc => ?_) ?_ k q
  · refine Surface.lt_size_of_live u ?_
    rw [hu.sameTree.live]
    exact (hchild c (hchildren ▸ hc)).1
  · show u.IsSpaced property value (u.node parent).children
    rw [hchildren]
    exact hrest.spaced.congr (fun c hc => hvis c (hchild c hc).2) fun c hc => hlooks c (hchild c hc).2

/-- Showing or hiding a node of a row at rest leaves the spacing of the row. -/
theorem Stays.looks_visible (h : p.Stays w t) (hw : p.Fits w) (he : e ∈ p.dependents.entries) (hn : p.About w e n)
    {shown : Bool} (ha : .visible shown ∈ p.acts [] e.2)
    (hvis : ∀ m, m ≠ n → (t.looks m).visible = (w.looks m).visible) {parent : Slot} {value : String}
    (hn' : (w.node n).parent = some parent) (hk : (w.node k).parent = some parent)
    (hrest : p.AtRest w parent property value) :
    (Act.run p.value n t (.visible shown)).looks k property = w.looks k property := by
  have hl : (t.node n).live := by rw [h.alike.sameTree.live]; exact hn.1
  have hr := Surface.restyled_applyAll t n ((Act.visible shown).edits (style t n))
  have hself : (StyleEdit.applyAll t n ((Act.visible shown).edits (style t n))).looks n =
      (t.looks n).act (.visible shown) := funext fun _ => Surface.looks_applyAll _ (Surface.lt_size_of_live t hl)
  show (Layout.refreshSpacing (StyleEdit.applyAll t n ((Act.visible shown).edits (style t n))) n).looks k property = _
  generalize StyleEdit.applyAll t n ((Act.visible shown).edits (style t n)) = u at hr hself ⊢
  have hother : ∀ c, c ≠ n → u.looks c = t.looks c := fun c hc => funext fun q => hr.entry c q fun h => hc h.1
  have hproperty : ∀ c, (w.node c).parent = some parent → u.looks c property = w.looks c property := fun c hc => by
    rw [← h.still c property (.atRest hc hrest)]
    by_cases hcn : c = n
    · rw [hcn, hself]
      exact Looks.act_of_not_edited (hrest.unedited e he n hn hn' _ ha) _
    · rw [hother c hcn]
  refine (hrest.looks_refreshSpacing hw.linked (h.alike.trans (hr.toAlikeBut.mono fun _ _ _ => trivial)) hn'
    (fun c _ => ?_) hproperty k property).trans (hproperty k hk)
  by_cases hcn : c = n
  · rw [hcn, hself, Looks.visible_act]
    exact (hrest.visible e he n hn hn' shown ha).symm
  · rw [hother c hcn]
    exact hvis c hcn

/-- **An act of an entry keeps what stays**, and shows or hides its own node only. -/
theorem Stays.run (h : p.Stays w t) (hw : p.Fits w) (he : e ∈ p.dependents.entries) (hn : p.About w e n) {a : Act}
    (ha : a ∈ p.acts [] e.2) (htext : a = .text → Act.HoldsText w n p.value)
    (hvis : ∀ m, m ≠ n → (t.looks m).visible = (w.looks m).visible) :
    p.Stays w (a.run p.value n t) ∧ ∀ m, m ≠ n → ((a.run p.value n t).looks m).visible = (w.looks m).visible := by
  by_cases hat : a = .text
  · subst hat
    have hidle : Surface.AlikeBut (fun _ _ => False) t (Act.run p.value n t .text) :=
      Surface.alikeBut_setText (h.holdsText (htext rfl))
    have hlooks : ∀ k q, (Act.run p.value n t .text).looks k q = t.looks k q := fun k q => hidle.entry k q id
    refine ⟨⟨h.alike.trans (hidle.mono fun _ _ h => h.elim), fun k q hk => (hlooks k q).trans (h.still k q hk)⟩,
      fun m hm => ?_⟩
    rw [show (Act.run p.value n t .text).looks m = t.looks m from funext (hlooks m)]
    exact hvis m hm
  · have ht : t.Linked := h.alike.sameTree.linked hw.linked
    have hl : (t.node n).live := by rw [h.alike.sameTree.live]; exact hn.1
    have hr : Surface.Restyled _ t (a.run p.value n t) := Act.restyled_run hat
    have hbeside : ∀ {k q}, ((∃ shown, a = .visible shown) ∧ ∃ parent, (t.node n).parent = some parent ∧
        t.Child parent k ∧ t.spacingProperty? parent = some q) → w.Spaced p.instanceId p.dependents k q :=
      fun ⟨⟨shown, has⟩, hc⟩ => spaced_of_child ht h.kept (names_of_visible_mem he hn (has ▸ ha)) hl hc
    refine ⟨⟨h.alike.trans (hr.toAlikeBut.mono fun _ _ _ => trivial), fun k q hk => ?_⟩, fun m hm => ?_⟩
    · by_cases hc : k = n ∧ q ∈ a.edited ∨ (∃ shown, a = .visible shown) ∧
        ∃ parent, (t.node n).parent = some parent ∧ t.Child parent k ∧ t.spacingProperty? parent = some q
      · cases hk with
        | notNamed hnot hspaced =>
          exact hc.elim (fun hc => absurd (hc.1 ▸ hn) (hnot e he)) fun hc => absurd (hbeside hc) hspaced
        | @atRest parent value hparent hrest =>
          rcases hc with ⟨rfl, hq⟩ | ⟨⟨shown, rfl⟩, parent', hn', hchild, hrule⟩
          · exact absurd hq (hrest.unedited e he k hn hparent a ha)
          · have hk := (ht.child hchild).2.2
            rw [h.alike.sameTree.parent, hparent] at hk
            obtain rfl : parent = parent' := Option.some.inj hk
            exact h.looks_visible hw he hn ha hvis (by rw [← h.alike.sameTree.parent]; exact hn') hparent hrest
      · exact (hr.entry k q hc).trans (h.still k q hk)
    · have hdisplay : (a.run p.value n t).looks m "display" = t.looks m "display" :=
        hr.entry m "display" fun hc => hc.elim (fun h => hm h.1) fun hc => hw.not_spaced_display m (hbeside hc)
      rw [← hvis m hm]
      unfold Looks.visible Looks.value
      rw [hdisplay]

theorem Stays.foldl_run (hw : p.Fits w) (he : e ∈ p.dependents.entries) (hn : p.About w e n)
    (htext : .text ∈ p.acts [] e.2 → Act.HoldsText w n p.value) :
    ∀ (acts : List Act) {t : Surface}, (∀ a ∈ acts, a ∈ p.acts [] e.2) → p.Stays w t →
      (∀ m, m ≠ n → (t.looks m).visible = (w.looks m).visible) →
      p.Stays w (acts.foldl (Act.run p.value n) t) ∧
        ∀ m, m ≠ n → ((acts.foldl (Act.run p.value n) t).looks m).visible = (w.looks m).visible
  | [], _, _, h, hvis => ⟨h, hvis⟩
  | a :: acts, _, hacts, h, hvis => by
    have ha := hacts a List.mem_cons_self
    obtain ⟨h', hvis'⟩ := h.run hw he hn ha (fun h => htext (h ▸ ha)) hvis
    exact foldl_run hw he hn htext acts (fun b hb => hacts b (List.mem_cons_of_mem a hb)) h' hvis'

/-! ## A pass over what it has left -/

variable {s : Surface}

/-- **A page on which a pass finds its texts in place**, and where acts done again would leave the visibility of their
nodes. -/
structure Ready (p : Pass Surface) (w : Surface) : Prop extends p.Fits w where
  holdsText : ∀ n, w.Names p.instanceId p.dependents .value n → Act.HoldsText w n p.value
  visible : ∀ e ∈ p.dependents.entries, ∀ n, p.About w e n →
    ((w.looks n).after (p.acts [] e.2)).visible = (w.looks n).visible

theorem Ready.live (hw : p.Ready w) (h : Surface.Confined p.instanceId p.dependents w t) {k : Slot}
    (hk : (w.node k).live) : (t.node k).live := by
  by_contra hd
  obtain ⟨n, c, hn, hc, -⟩ := h.gone k hk (by simpa using hd)
  unfold Surface.Child at hc
  rw [(hw.holdsText n hn).2] at hc
  cases hc

theorem stays_entries (hp : p.effector = inlineStyles) (hlistless : p.Listless) (hw : p.Ready w)
    {pre post : List (String × List Dependency)} : p.dependents.entries = pre ++ post →
      p.Stays w (pre.foldl p.entry (p.begin w)).surface ∧
        ∀ m, ((pre.foldl p.entry (p.begin w)).surface.looks m).visible = (w.looks m).visible := by
  induction pre using List.reverseRecOn generalizing post with
  | nil => exact fun _ => ⟨⟨.refl _ w, fun _ _ _ => rfl⟩, fun _ => rfl⟩
  | append_singleton pre e ih =>
    intro hes
    have hes' : p.dependents.entries = pre ++ e :: post := by rw [hes, List.append_assoc]; rfl
    have he : e ∈ p.dependents.entries := hes' ▸ List.mem_append_right _ List.mem_cons_self
    obtain ⟨hlinked, hconf, hdestroyed⟩ := confined_entries hp hlistless hw.linked hes'
    have hconf' := (confined_entries hp hlistless hw.linked hes).2.1
    have hedited := fun parameter => iff_of_false (not_edited_before (s := w) hes' parameter)
      (List.not_mem_nil (a := parameter))
    have hdone : ∀ n, p.About w e n → p.Done w ((pre ++ [e]).foldl p.entry (p.begin w)).surface e n := fun n hn =>
      (node_entries hp hlistless hw.toFits he hn hes (hw.live hconf' hn.1)).1
        (List.mem_append_right _ List.mem_cons_self)
    obtain ⟨h, hvis⟩ := ih hes'
    -- The node of the entry is hidden or shown by its acts as it was (`Ready.visible`); the acts leave the others.
    rw [List.foldl_append, List.foldl_cons, List.foldl_nil, entry_eq, hdestroyed] at hconf' hdone ⊢
    generalize pre.foldl p.entry (p.begin w) = st at *
    change Surface.Confined _ _ w (p.applyEach (p.key e.1) e.2 e.2 st).surface at hconf'
    change ∀ n, p.About w e n → p.Done w (p.applyEach (p.key e.1) e.2 e.2 st).surface e n at hdone
    show p.Stays w (p.applyEach (p.key e.1) e.2 e.2 st).surface ∧
      ∀ m, ((p.applyEach (p.key e.1) e.2 e.2 st).surface.looks m).visible = _
    cases hloc : locate st.surface (p.key e.1) with
    | none =>
      rw [applyEach_missing hlistless hloc e.2]
      exact ⟨h, hvis⟩
    | some n =>
      have hn : p.About w e n := (about_of_locate hloc).of_kept hconf.toKept
      have hacts := surface_applyEach hp hlistless hw.toFits he hn e.2 st [] (fun _ h => h) hlinked hconf hedited
        (hw.live hconf' hn.1)
      obtain ⟨h', hvis'⟩ := Stays.foldl_run hw.toFits he hn
        (fun ht => hw.holdsText n ⟨hn.1, e, he, hn.2, _, value_mem_of_text_mem ht, rfl⟩) (p.acts [] e.2)
        (fun _ h => h) h fun m _ => hvis m
      rw [← hacts] at h' hvis'
      refine ⟨h', fun m => ?_⟩
      by_cases hm : m = n
      · have hdisplay := (hdone n hn).looks "display" (hw.toFits.not_spaced_display n)
        rw [hm, ← hw.visible e he n hn]
        unfold Looks.visible Looks.value
        rw [hdisplay]
      · exact hvis' m hm

/-- **What a pass may still change when it is repeated**, on the page `w` that the pass over `s` has left. -/
inductive MayChange (p : Pass Surface) (s w : Surface) (k : Slot) (property : String) : Prop
  /-- The acts on the node do not leave the property steady. -/
  | unsteady {e : String × List Dependency} (entry : e ∈ p.dependents.entries) (about : p.About w e k)
    (h : (s.looks k).Unsteady (p.acts [] e.2) property)
  /-- The acts on the node edit what it is spaced by. -/
  | edited {e : String × List Dependency} (entry : e ∈ p.dependents.entries) (about : p.About w e k)
    (spaced : s.Spaced p.instanceId p.dependents k property) {a : Act} (act : a ∈ p.acts [] e.2)
    (h : property ∈ a.edited)
  /-- The node is spaced in a row that is not at rest. -/
  | spaced {parent : Slot} {value : String} (spaced : w.Spaced p.instanceId p.dependents k property)
    (parent_eq : (w.node k).parent = some parent) (rule : Layout.spacingRule? w parent = some (property, value))
    (h : ¬ p.AtRest w parent property value)

/-- **A pass over a page that an equal pass has left**, apart from where nodes are, changes only what it may. -/
theorem again (hp : p.effector = inlineStyles) (hlistless : p.Listless) (hs : p.Fits s) (hw : p.Fits w)
    (hown : ∀ k, (w.node k).own = ((p.run s).surface.node k).own)
    (hchildren : ∀ n, w.Names p.instanceId p.dependents .value n → (w.node n).children = []) :
    Surface.AlikeBut (p.MayChange s w) w (p.run w).surface ∧
      ∀ k, isVisible (p.run w).surface k = isVisible w k := by
  have hconf := (confined_entries hp hlistless hs.linked (List.append_nil _).symm).2.1
  have hlooks : ∀ k, w.looks k = (p.run s).surface.looks k := fun k => congrArg Table.get? (Node.styles_eq (hown k))
  have hdone : ∀ e ∈ p.dependents.entries, ∀ n, p.About w e n → p.Done s (p.run s).surface e n := fun e he n hn => by
    have hn' : p.About (p.run s).surface e n := hn.of_own hown
    exact done_run hp hlistless hs he (hn'.of_kept hconf.toKept) hn'.1
  have hready : p.Ready w :=
    { hw with
      holdsText := fun n hn => by
        obtain ⟨hl, e, he, hid, d, hd, hkind⟩ := hn
        have hvalue : .value ∈ e.2 := by
          cases d with
          | value => exact hd
          | _ => cases hkind
        exact ⟨(Node.text_eq (hown n)).trans ((hdone e he n ⟨hl, hid⟩).text hvalue).1,
          hchildren n ⟨hl, e, he, hid, d, hd, hkind⟩⟩
      visible := fun e he n hn => by
        refine (Looks.blind_visible (p.acts [] e.2)).again (s := s.looks n) ?_
        have hdisplay := (hdone e he n hn).looks "display" (hs.not_spaced_display n)
        rw [← hlooks] at hdisplay
        unfold Looks.visible Looks.value
        rw [hdisplay] }
  obtain ⟨hstays, hvis⟩ := stays_entries hp hlistless hready (List.append_nil _).symm
  have hconf' := (confined_entries hp hlistless hw.linked (List.append_nil _).symm).2.1
  refine ⟨{ hstays.alike with entry := fun k q hq => ?_ }, hvis⟩
  show (p.run w).surface.looks k q = w.looks k q
  -- A spaced property is up to the row; another one is up to the acts of the node's entry, if it has one.
  by_cases hspaced : w.Spaced p.instanceId p.dependents k q
  · obtain ⟨n, parent, hn, hnp, hkp, hrule⟩ := hspaced
    obtain ⟨⟨q, value⟩, hrule', rfl⟩ := Option.map_eq_some_iff.1 hrule
    by_cases hrest : p.AtRest w parent q value
    · exact hstays.still k q (.atRest hkp hrest)
    · exact absurd (.spaced ⟨n, parent, hn, hnp, hkp, hrule⟩ hkp hrule' hrest) hq
  · by_cases habout : ∃ e ∈ p.dependents.entries, p.About w e k
    · obtain ⟨e, he, hk⟩ := habout
      rw [(done_run hp hlistless hw he hk (hready.live hconf' hk.1)).looks q hspaced]
      by_cases hbefore : s.Spaced p.instanceId p.dependents k q
      · exact Looks.after_of_not_edited _ (fun a ha hedited => hq (.edited he hk hbefore ha hedited)) _
      · have hone : ∀ r, ¬ s.Spaced p.instanceId p.dependents k r →
            w.looks k r = (s.looks k).after (p.acts [] e.2) r := fun r hr => by
          rw [hlooks]
          exact (hdone e he k hk).looks r hr
        calc (w.looks k).after (p.acts [] e.2) q
            = ((s.looks k).after (p.acts [] e.2)).after (p.acts [] e.2) q :=
              Looks.after_congr _ (fun r hr => hone r (hs.unread r hr k)) (hone q hbefore)
          _ = (s.looks k).after (p.acts [] e.2) q := Looks.after_after fun h => hq (.unsteady he hk h)
          _ = w.looks k q := (hone q hbefore).symm
    · exact hstays.still k q (.notNamed (fun e he hk => habout ⟨e, he, hk⟩) hspaced)

end Pass
end BoundPage
