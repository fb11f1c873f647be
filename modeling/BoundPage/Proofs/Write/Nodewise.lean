import BoundPage.Proofs.Write.Applied
import BoundPage.Proofs.Write.PageActs
/-!
# A pass, node by node

Where every data-id of the table is that of one node, an entry of a pass is a list of acts on its node, for as long as
the node is there (`Pass.surface_applyEach`).  Other entries do not touch the node, but for the one property that it may
be spaced by.  So what a pass leaves of a node is what the acts of its entry leave (`Pass.Done`).
-/
namespace BoundPage
open RenderTarget

/-! ## The acts of an entry -/

namespace Pass

section

variable {S : Type} (p : Pass S)

def resetAct (parameter : String) (style : StyleParameter) : Act :=
  match style.fallback with
  | some v => .ofParameter parameter v.text v.important
  | none =>
    if p.options.resetsToZero parameter then .plain (.set parameter zeroWidth)
    else .ofParameter parameter none false

/-- **The acts that dependencies of a node come to**, when some parameters have been applied before. -/
def acts : List String → List Dependency → List Act
  | _, [] => []
  | applied, .value :: ds => .text :: acts applied ds
  | applied, .visible condition :: ds => .visible (condition.holds p.value) :: acts applied ds
  | applied, .style condition parameters :: ds =>
    if condition == some p.value then
      (parameters.entries.map fun e => .ofParameter e.1 e.2.value.text e.2.value.important) ++
        acts (parameters.names ++ applied) ds
    else
      ((parameters.entries.filter fun e => !applied.contains e.1).map fun e => p.resetAct e.1 e.2) ++ acts applied ds

theorem isStyle_resetAct (parameter : String) (style : StyleParameter) : (p.resetAct parameter style).IsStyle := by
  unfold resetAct
  split
  · exact Act.isStyle_ofParameter ..
  · split
    · exact ⟨Act.noConfusion, fun _ => Act.noConfusion⟩
    · exact Act.isStyle_ofParameter ..

end

variable {p : Pass Surface} {k : NodeKey} {n : Slot}

theorem run_ofParameter (value : String) (n : Slot) (s : Surface) (parameter : String) (v : Option String)
    (important : Bool) :
    Act.run value n s (.ofParameter parameter v important) = inlineStyles s n parameter v important := by
  unfold inlineStyles
  rw [← Act.edits_ofParameter]
  unfold Act.ofParameter
  split
  · rfl
  · split <;> rfl

theorem run_resetAct (hp : p.effector = inlineStyles) (n : Slot) (s : Surface) (parameter : String)
    (style : StyleParameter) :
    Act.run p.value n s (p.resetAct parameter style) = p.resetParameter s n parameter style := by
  unfold resetAct resetParameter
  rw [hp]
  cases style.fallback with
  | some v => exact run_ofParameter ..
  | none =>
    dsimp only
    split
    · rfl
    · exact run_ofParameter ..

/-- A matching style dependency applies all its parameters. -/
theorem styleParameters_matched (hp : p.effector = inlineStyles) (element : String) (n : Slot) :
    ∀ (entries : List (String × StyleParameter)) (st : State Surface),
      (entries.foldl (p.styleParameter element n true) st).surface =
        (entries.map fun e => .ofParameter e.1 e.2.value.text e.2.value.important).foldl (Act.run p.value n) st.surface
  | [], _ => rfl
  | e :: entries, st => by
    rw [List.foldl_cons, List.map_cons, List.foldl_cons, run_ofParameter, ← hp]
    exact styleParameters_matched hp element n entries (p.styleParameter element n true st e)

/-- Another one resets those that have not been applied. -/
theorem styleParameters_unmatched (hp : p.effector = inlineStyles) (element : String) (n : Slot) :
    ∀ (entries : List (String × StyleParameter)) (st : State Surface),
      (entries.foldl (p.styleParameter element n false) st).surface =
        ((entries.filter fun e => !st.edited.contains (element, e.1)).map fun e => p.resetAct e.1 e.2).foldl
          (Act.run p.value n) st.surface
  | [], _ => rfl
  | e :: entries, st => by
    rw [List.foldl_cons, styleParameters_unmatched hp element n entries (p.styleParameter element n false st e)]
    by_cases he : st.edited.contains (element, e.1)
    · have hst : p.styleParameter element n false st e = st := by
        unfold styleParameter
        simp only [he, if_true]
        rfl
      rw [hst, List.filter_cons_of_neg (by simpa using he)]
    · have hst : p.styleParameter element n false st e =
          { st with surface := p.resetParameter st.surface n e.1 e.2 } := by
        unfold styleParameter
        simp only [he]
        rfl
      rw [hst, List.filter_cons_of_pos (by simpa using he), List.map_cons, List.foldl_cons, run_resetAct hp]

/-! ## Nodes of entries -/

variable {s t : Surface} {st : State Surface} {e : String × List Dependency}

/-- The node has the data-id of the entry. -/
def About (p : Pass Surface) (s : Surface) (e : String × List Dependency) (n : Slot) : Prop :=
  (s.node n).live ∧ (s.node n).id = some (p.key e.1).text

/-- **The page gives every entry at most one node**, and no node is spaced by what acts read. -/
structure Fits (p : Pass Surface) (s : Surface) : Prop where
  linked : s.Linked
  distinct : ∀ e ∈ p.dependents.entries, ∀ n m, p.About s e n → p.About s e m → n = m
  unread : ∀ r ∈ Act.read, ∀ k, ¬ s.Spaced p.instanceId p.dependents k r

theorem About.of_kept (h : Surface.Kept s t) (hn : p.About t e n) : p.About s e n :=
  ⟨h.live n hn.1, by rw [← h.dataId hn.1]; exact hn.2⟩

theorem About.kept (h : Surface.Kept s t) (hn : p.About s e n) (hl : (t.node n).live) : p.About t e n :=
  ⟨hl, by rw [h.dataId hl]; exact hn.2⟩

theorem About.of_own (h : ∀ k, (t.node k).own = (s.node k).own) (hn : p.About t e n) : p.About s e n :=
  ⟨by rw [← Node.live_eq (h n)]; exact hn.1, by rw [← Node.id_eq (h n)]; exact hn.2⟩

theorem about_of_locate (h : locate s (p.key e.1) = some n) : p.About s e n := ListRegion.locate_live h

theorem Fits.locate (hs : p.Fits s) (he : e ∈ p.dependents.entries) (hkept : Surface.Kept s t) (hn : p.About s e n)
    (hl : (t.node n).live) : locate t (p.key e.1) = some n := by
  cases hloc : RenderTarget.locate t (p.key e.1) with
  | none => exact absurd (hn.kept hkept hl).2 ((Surface.find?_eq_none t).1 hloc n hl)
  | some m => rw [hs.distinct e he n m hn ((about_of_locate hloc).of_kept hkept)]

/-- **A dependency touches the other nodes' spacing only**, and what is below its own node. -/
theorem Change.leaves (hp : p.effector = inlineStyles) (hlinked : st.surface.Linked) (hkept : Surface.Kept s st.surface)
    (he : e ∈ p.dependents.entries) (hlistless : Element.isTemplate e.1 = false) {d : Dependency} (hd : d ∈ e.2)
    {table : DependencyTable} {destroyed : List String} (h : p.Change (p.key e.1) e.2 st d t table destroyed)
    {k : Slot} (hk : ¬ p.About s e k) (hl : (t.node k).live) :
    t.node k = { st.surface.node k with styles := (t.node k).styles } ∧
      ∀ q, ¬ s.Spaced p.instanceId p.dependents k q → t.looks k q = st.surface.looks k q := by
  have hne : ∀ {m}, locate st.surface (p.key e.1) = some m → k ≠ m := fun hm hkm =>
    hk (hkm ▸ (about_of_locate hm).of_kept hkept)
  cases h with
  | owned _ => exact ⟨rfl, fun _ _ => rfl⟩
  | @text m _ _ hloc =>
    have hnode : (setText st.surface m p.value).node k = st.surface.node k := by
      have := (Surface.node_setText hl).2
      rw [if_neg (hne hloc), if_neg (hne hloc)] at this
      exact this
    exact ⟨by rw [hnode], fun q _ => by unfold Surface.looks; rw [hnode]⟩
  | list hr =>
    have htemplate : Element.isTemplate e.1 := hr.isTemplate
    rw [hlistless] at htemplate
    cases htemplate
  | @visible m condition hloc =>
    have hr := restyled_visible st.surface m (p.displayOf st.surface m condition)
    refine ⟨hr.node k, fun q hq => hr.entry k q fun hc => ?_⟩
    have hn := hkept.names (names_of_locate he hd hloc)
    exact hq (spaced_of_child hlinked hkept hn (about_of_locate hloc).1 (hc.resolve_left fun h => hne hloc h.1))
  | @style m condition parameters hloc =>
    have hr := restyled_styleParameters hp e.1 m (condition == some p.value) parameters.entries st
    exact ⟨hr.node k, fun q hq => hr.entry k q fun hc => hne hloc hc⟩

/-! ## Entries as acts -/

def Listless (p : Pass Surface) : Prop := ∀ element ∈ p.dependents.names, Element.isTemplate element = false

theorem Listless.not_owned (hlistless : p.Listless) (element : String) : p.ownedByTemplate element = false := by
  unfold ownedByTemplate
  rw [List.any_eq_false]
  intro template ht hitem
  have := Element.isTemplate_of_isItemOf hitem
  rw [hlistless template ht] at this
  cases this

theorem Listless.entry (hlistless : p.Listless) (he : e ∈ p.dependents.entries) : Element.isTemplate e.1 = false :=
  hlistless e.1 (List.mem_map_of_mem he)

theorem confined_applyEach (hp : p.effector = inlineStyles) (hlistless : p.Listless) (hs : s.Linked)
    (he : e ∈ p.dependents.entries) (left : List Dependency) (st : State Surface) (hleft : ∀ d ∈ left, d ∈ e.2)
    (hlinked : st.surface.Linked) (hst : Surface.Confined p.instanceId p.dependents s st.surface) :
    (p.applyEach (p.key e.1) e.2 left st).surface.Linked ∧
      Surface.Confined p.instanceId p.dependents s (p.applyEach (p.key e.1) e.2 left st).surface :=
  applyEach_keeps (J := fun t _ => t.Linked ∧ Surface.Confined p.instanceId p.dependents s t) left st
    (fun d hd _ _ ⟨hlinked, hst⟩ hone =>
      have hch := change_of_applyOne hone
      ⟨hch.linked hp hlinked, (hch.confined hp hs he (hlistless.entry he) (hleft d hd) hlinked hst).1⟩)
    ⟨hlinked, hst⟩

theorem applyOne_value (hlistless : p.Listless) (he : e ∈ p.dependents.entries) {ds : List Dependency}
    (hl : locate st.surface (p.key e.1) = some n) : p.applyOne (p.key e.1) ds .value st =
      .ok ({ st with surface := setText st.surface n p.value }.say (.replacedText (p.key e.1))) := by
  have htemplate : (p.key e.1).isTemplate = false := hlistless.entry he
  unfold applyOne showText
  simp only [hlistless.not_owned, htemplate]
  rw [require_eq, hl]
  rfl

theorem applyOne_visible {ds : List Dependency} {condition : Condition} (hl : locate st.surface k = some n) :
    p.applyOne k ds (.visible condition) st =
      .ok ({ st with surface := Act.run p.value n st.surface (.visible (condition.holds p.value)) }.say
        (.appliedVisibility k (p.displayOf st.surface n condition))) := by
  unfold applyOne setVisible
  simp only
  rw [require_eq, hl]
  unfold displayOf
  rw [Layout.detect_eq]
  cases condition.holds p.value <;> rfl

theorem applyEach_missing (hlistless : p.Listless) {ds : List Dependency}
    (hl : locate st.surface (p.key e.1) = none) (left : List Dependency) :
    (p.applyEach (p.key e.1) ds left st).surface = st.surface := by
  cases left with
  | nil => rfl
  | cons d left =>
    rw [applyEach, applyOne_of_missing (k := p.key e.1) (fun _ => hlistless.not_owned e.1) hl ds]
    rfl

/-- **An entry is a list of acts on its node**, if the node is still there at its end. -/
theorem surface_applyEach (hp : p.effector = inlineStyles) (hlistless : p.Listless) (hs : p.Fits s)
    (he : e ∈ p.dependents.entries) (hn : p.About s e n) :
    ∀ (left : List Dependency) (st : State Surface) (applied : List String), (∀ d ∈ left, d ∈ e.2) →
      st.surface.Linked → Surface.Confined p.instanceId p.dependents s st.surface →
      (∀ parameter, (e.1, parameter) ∈ st.edited ↔ parameter ∈ applied) →
      ((p.applyEach (p.key e.1) e.2 left st).surface.node n).live →
      (p.applyEach (p.key e.1) e.2 left st).surface = (p.acts applied left).foldl (Act.run p.value n) st.surface
  | [], _, _, _, _, _, _, _ => rfl
  | d :: left, st, applied, hleft, hlinked, hst, happlied, hend => by
    have hrest : ∀ d ∈ left, d ∈ e.2 := fun d hd => hleft d (List.mem_cons_of_mem _ hd)
    have hl : (st.surface.node n).live :=
      (confined_applyEach hp hlistless hlinked he (d :: left) st hleft hlinked (.refl _ _ _)).2.live n hend
    have hloc := hs.locate he hst.toKept hn hl
    -- What the dependency has done is given; the induction goes on from the parameters that have been applied then.
    have hnext : ∀ {st'}, p.applyOne (p.key e.1) e.2 d st = .ok st' → ∀ applied',
        (∀ parameter, (e.1, parameter) ∈ st'.edited ↔ parameter ∈ applied') →
        (p.applyEach (p.key e.1) e.2 (d :: left) st).surface =
          (p.acts applied' left).foldl (Act.run p.value n) st'.surface := by
      intro st' hone applied' hedited
      have hch := change_of_applyOne hone
      rw [applyEach, hone] at hend ⊢
      exact surface_applyEach hp hlistless hs he hn left st' applied' hrest (hch.linked hp hlinked)
        (hch.confined hp hs.linked he (hlistless.entry he) (hleft d List.mem_cons_self) hlinked hst).1 hedited hend
    cases d with
    | value => exact hnext (applyOne_value hlistless he hloc) applied happlied
    | visible condition => exact hnext (applyOne_visible hloc) applied happlied
    | style condition parameters =>
      rw [acts]
      have hone : p.applyOne (p.key e.1) e.2 (.style condition parameters) st = _ := applyOne_style hloc
      by_cases hc : condition == some p.value
      · rw [hc] at hone
        rw [if_pos hc, List.foldl_append, ← styleParameters_matched hp e.1]
        refine hnext hone _ fun parameter =>
          (edited_styleParameters e.1 n true (e.1, parameter) parameters.entries st).trans ?_
        rw [happlied, and_iff_right rfl, and_iff_right rfl, List.mem_append, or_comm]
        rfl
      · rw [Bool.not_eq_true] at hc
        rw [hc] at hone
        have hfilter : parameters.entries.filter (fun e' => !applied.contains e'.1) =
            parameters.entries.filter fun e' => !st.edited.contains (e.1, e'.1) :=
          List.filter_congr fun e' _ => by simp [happlied]
        rw [if_neg (by rw [hc]; decide), List.foldl_append, hfilter, ← styleParameters_unmatched hp e.1]
        refine hnext hone _ fun parameter =>
          (edited_styleParameters e.1 n false (e.1, parameter) parameters.entries st).trans ?_
        rw [or_iff_left fun h => Bool.false_ne_true h.1]
        exact happlied parameter

/-! ## What a pass leaves of a node -/

theorem mem_acts {a : Act} {ds : List Dependency} {applied : List String} (h : a ∈ p.acts applied ds) :
    a = .text ∧ .value ∈ ds ∨ (∃ condition, .visible condition ∈ ds ∧ a = .visible (condition.holds p.value)) ∨
      a.IsStyle := by
  induction ds generalizing applied with
  | nil => cases h
  | cons d ds ih =>
    have hrest : ∀ applied', a ∈ p.acts applied' ds → a = .text ∧ .value ∈ d :: ds ∨
        (∃ condition, .visible condition ∈ d :: ds ∧ a = .visible (condition.holds p.value)) ∨ a.IsStyle :=
      fun _ h => (ih h).imp (fun ⟨ha, hv⟩ => ⟨ha, List.mem_cons_of_mem d hv⟩)
        (Or.imp_left fun ⟨c, hc, ha⟩ => ⟨c, List.mem_cons_of_mem d hc, ha⟩)
    cases d with
    | value =>
      rcases List.mem_cons.1 h with rfl | h
      · exact .inl ⟨rfl, List.mem_cons_self⟩
      · exact hrest _ h
    | visible condition =>
      rcases List.mem_cons.1 h with rfl | h
      · exact .inr (.inl ⟨condition, List.mem_cons_self, rfl⟩)
      · exact hrest _ h
    | style condition parameters =>
      rw [acts] at h
      split at h
      · rcases List.mem_append.1 h with h | h
        · obtain ⟨e, -, rfl⟩ := List.mem_map.1 h
          exact .inr (.inr (Act.isStyle_ofParameter ..))
        · exact hrest _ h
      · rcases List.mem_append.1 h with h | h
        · obtain ⟨e, -, rfl⟩ := List.mem_map.1 h
          exact .inr (.inr (isStyle_resetAct p e.1 e.2))
        · exact hrest _ h

theorem value_mem_of_text_mem {ds : List Dependency} {applied : List String} (h : .text ∈ p.acts applied ds) :
    .value ∈ ds := by
  rcases mem_acts h with ⟨-, hv⟩ | ⟨_, -, ha⟩ | ha
  · exact hv
  · cases ha
  · exact absurd rfl ha.1

theorem text_mem_acts : ∀ {ds : List Dependency} {applied : List String}, .value ∈ ds → .text ∈ p.acts applied ds
  | .value :: _, _, _ => List.mem_cons_self
  | .visible _ :: ds, _, h =>
    List.mem_cons_of_mem _ (text_mem_acts ((List.mem_cons.1 h).resolve_left Dependency.noConfusion))
  | .style condition parameters :: ds, applied, h => by
    have hrest : ∀ applied', .text ∈ p.acts applied' ds := fun _ =>
      text_mem_acts ((List.mem_cons.1 h).resolve_left Dependency.noConfusion)
    rw [acts]
    split <;> exact List.mem_append_right _ (hrest _)

theorem names_of_visible_mem (he : e ∈ p.dependents.entries) (hn : p.About s e n) {shown : Bool}
    {applied : List String} (h : .visible shown ∈ p.acts applied e.2) :
    s.Names p.instanceId p.dependents .visible n := by
  rcases mem_acts h with ⟨ha, -⟩ | ⟨condition, hc, -⟩ | ha
  · cases ha
  · exact ⟨hn.1, e, he, hn.2, _, hc, rfl⟩
  · exact absurd rfl (ha.2 shown)

/-- **What a pass has made of a node when it is done with its entry.** -/
structure Done (p : Pass Surface) (s t : Surface) (e : String × List Dependency) (n : Slot) : Prop where
  looks : ∀ q, ¬ s.Spaced p.instanceId p.dependents n q → t.looks n q = (s.looks n).after (p.acts [] e.2) q
  text : .value ∈ e.2 → Act.HoldsText t n p.value

theorem confined_entries (hp : p.effector = inlineStyles) (hlistless : p.Listless) (hs : s.Linked)
    {pre post : List (String × List Dependency)} (hes : p.dependents.entries = pre ++ post) :
    (pre.foldl p.entry (p.begin s)).surface.Linked ∧
      Surface.Confined p.instanceId p.dependents s (pre.foldl p.entry (p.begin s)).surface ∧
      (pre.foldl p.entry (p.begin s)).destroyed = [] := by
  have hmem : ∀ {e}, e ∈ pre → e ∈ p.dependents.entries := fun he => hes ▸ List.mem_append_left _ he
  refine (stage_induction (p := p) (I := fun t _ destroyed => t.Linked ∧
    Surface.Confined p.instanceId p.dependents s t ∧ destroyed = []) ?_ ?_).2
  · exact ⟨hs, .refl _ _ s, rfl⟩
  · intro e d left st st' (hst : p.Stage pre _ _ _ _) ⟨hlinked, hconf, hdestroyed⟩ hok
    have he := hmem hst.mem
    have hch := change_of_applyOne hok
    refine ⟨hch.linked hp hlinked, (hch.confined hp hs he (hlistless.entry he) hst.mem_left hlinked hconf).1, ?_⟩
    rw [List.eq_nil_iff_forall_not_mem]
    intro x hx
    rcases hch.destroyed x hx with hx | hx
    · rw [hdestroyed] at hx
      cases hx
    · have htemplate : Element.isTemplate e.1 := Element.isTemplate_of_isItemOf hx
      rw [hlistless.entry he] at htemplate
      cases htemplate

/-- An entry touches the nodes of other entries only by their spacing and by what is below its own node. -/
theorem leaves_applyEach (hp : p.effector = inlineStyles) (hlistless : p.Listless) (hs : s.Linked)
    (he : e ∈ p.dependents.entries) {k : Slot} (hk : ¬ p.About s e k) (left : List Dependency) (st : State Surface)
    (hleft : ∀ d ∈ left, d ∈ e.2) (hlinked : st.surface.Linked)
    (hst : Surface.Confined p.instanceId p.dependents s st.surface)
    (hend : ((p.applyEach (p.key e.1) e.2 left st).surface.node k).live) :
    (p.applyEach (p.key e.1) e.2 left st).surface.node k =
        { st.surface.node k with styles := ((p.applyEach (p.key e.1) e.2 left st).surface.node k).styles } ∧
      ∀ q, ¬ s.Spaced p.instanceId p.dependents k q →
        (p.applyEach (p.key e.1) e.2 left st).surface.looks k q = st.surface.looks k q := by
  refine (applyEach_keeps (J := fun t _ => t.Linked ∧ Surface.Confined p.instanceId p.dependents s t ∧
    ((t.node k).live → t.node k = { st.surface.node k with styles := (t.node k).styles } ∧
      ∀ q, ¬ s.Spaced p.instanceId p.dependents k q → t.looks k q = st.surface.looks k q)) left st
    (fun d hd u u' ⟨hlinked, hu, hleaves⟩ hone => ?_) ⟨hlinked, hst, fun _ => ⟨rfl, fun _ _ => rfl⟩⟩).2.2 hend
  have hch := change_of_applyOne hone
  have hconf := fun {r : Surface} (hr : r.Linked) (h : Surface.Confined p.instanceId p.dependents r u.surface) =>
    (hch.confined hp hr he (hlistless.entry he) (hleft d hd) hlinked h).1
  refine ⟨hch.linked hp hlinked, hconf hs hu, fun hl => ?_⟩
  obtain ⟨hnode, hlooks⟩ := hleaves ((hconf hlinked (.refl _ _ _)).live k hl)
  obtain ⟨hnode', hlooks'⟩ := hch.leaves hp hlinked hu.toKept he (hlistless.entry he) (hleft d hd) hk hl
  refine ⟨?_, fun q hq => (hlooks' q hq).trans (hlooks q hq)⟩
  rw [hnode', hnode]

/-- **After some of the entries**, a node that is left is done with its entry, or the pass has not come to it. -/
theorem node_entries (hp : p.effector = inlineStyles) (hlistless : p.Listless) (hs : p.Fits s)
    (he : e ∈ p.dependents.entries) (hn : p.About s e n) {pre post : List (String × List Dependency)} :
    p.dependents.entries = pre ++ post → ((pre.foldl p.entry (p.begin s)).surface.node n).live →
      (e ∈ pre → p.Done s (pre.foldl p.entry (p.begin s)).surface e n) ∧
      (e ∉ pre → ∀ q, ¬ s.Spaced p.instanceId p.dependents n q →
        (pre.foldl p.entry (p.begin s)).surface.looks n q = s.looks n q) := by
  induction pre using List.reverseRecOn generalizing post with
  | nil => exact fun _ _ => ⟨fun h => absurd h List.not_mem_nil, fun _ _ _ => rfl⟩
  | append_singleton pre e' ih =>
    intro hes hl
    have hes' : p.dependents.entries = pre ++ e' :: post := by rw [hes, List.append_assoc]; rfl
    have he' : e' ∈ p.dependents.entries := hes' ▸ List.mem_append_right _ List.mem_cons_self
    obtain ⟨hlinked, hconf, hdestroyed⟩ := confined_entries hp hlistless hs.linked hes'
    have hedited := fun parameter => iff_of_false (not_edited_before (s := s) hes' parameter)
      (List.not_mem_nil (a := parameter))
    rw [List.foldl_append, List.foldl_cons, List.foldl_nil, entry_eq, hdestroyed] at hl ⊢
    generalize pre.foldl p.entry (p.begin s) = st at *
    change ((p.applyEach (p.key e'.1) e'.2 e'.2 st).surface.node n).live at hl
    have hl' : (st.surface.node n).live :=
      (confined_applyEach hp hlistless hlinked he' e'.2 st (fun _ h => h) hlinked (.refl _ _ _)).2.live n hl
    obtain ⟨hdone, hbefore⟩ := ih hes' hl'
    -- The entry is the node's own, which comes once, or it leaves the node alone.
    by_cases hee : e'.1 = e.1
    · obtain rfl : e' = e := List.inj_on_of_nodup_map p.dependents.nodup he' he hee
      have hepre : e' ∉ pre := fun h => name_ne_of_append hes' e' h rfl
      refine ⟨fun _ => ?_, fun h => absurd (List.mem_append_right _ List.mem_cons_self) h⟩
      have hacts := surface_applyEach hp hlistless hs he hn e'.2 st [] (fun _ h => h) hlinked hconf hedited hl
      rw [hacts] at hl
      refine ⟨fun q hq => ?_, fun hv => ?_⟩
      · show (p.applyEach (p.key e'.1) e'.2 e'.2 st).surface.looks n q = _
        rw [hacts, Act.looks_foldl_run (hs.unread · · n) hq _ hlinked hconf.toKept
          (fun shown => names_of_visible_mem he hn) hl]
        exact Looks.after_congr _ (fun r hr => hbefore hepre r (hs.unread r hr n)) (hbefore hepre q hq)
      · show Act.HoldsText (p.applyEach (p.key e'.1) e'.2 e'.2 st).surface n p.value
        rw [hacts]
        exact Act.holdsText_foldl_run _ (.inr (text_mem_acts hv)) hl
    · have hk : ¬ p.About s e' n := fun h => hee (NodeKey.text_inj_of_instance
        (Option.some.inj (h.2.symm.trans hn.2)))
      obtain ⟨hnode, hlooks⟩ := leaves_applyEach hp hlistless hs.linked he' hk e'.2 st (fun _ h => h) hlinked hconf hl
      have hpre : e ∈ pre ++ [e'] ↔ e ∈ pre := by
        rw [List.mem_append, List.mem_singleton]
        exact or_iff_left fun h => hee (congrArg Prod.fst h.symm)
      rw [hpre]
      refine ⟨fun h => ⟨fun q hq => (hlooks q hq).trans ((hdone h).looks q hq), fun hv => ?_⟩, fun h q hq =>
        (hlooks q hq).trans (hbefore h q hq)⟩
      show Act.HoldsText (p.applyEach (p.key e'.1) e'.2 e'.2 st).surface n p.value
      unfold Act.HoldsText
      rw [hnode]
      exact (hdone h).text hv

/-- **What a pass leaves of a node** is what the acts of its entry leave, and the text if the entry has a value. -/
theorem done_run (hp : p.effector = inlineStyles) (hlistless : p.Listless) (hs : p.Fits s)
    (he : e ∈ p.dependents.entries) (hn : p.About s e n) (hl : ((p.run s).surface.node n).live) :
    p.Done s (p.run s).surface e n :=
  (node_entries hp hlistless hs he hn (List.append_nil _).symm hl).1 he

end Pass
end BoundPage
