import BoundPage.Proofs.Surface.Accounts
import BoundPage.Proofs.Write.Nodewise
/-!
# Missing nodes

A pass reports the key of an entry as missing exactly if one of its dependencies does not find the node
(`mem_missing_run`).  No dependency brings a node with such a key, but the ones that show the value take nodes away: a
text replaces what is below its node, and a rebuilt list destroys its old items.  So a key is missing exactly if it was
so at the beginning, or all its nodes are taken away before the last of its dependencies (`missing_iff`).
-/
namespace BoundPage
open RenderTarget

namespace Pass

/-! ## What is reported -/

section

variable {S : Type} [RenderTarget S] {p : Pass S} {k m : NodeKey} {ds left : List Dependency} {d : Dependency}
  {st st' start : State S} {e : String × List Dependency} {es : List (String × List Dependency)}

theorem missing_styleParameters (element : String) (n : Nat) (matched : Bool) (entries : List (String × StyleParameter))
    (st : State S) : (entries.foldl (p.styleParameter element n matched) st).missing = st.missing := by
  induction entries generalizing st with
  | nil => rfl
  | cons e entries ih =>
    rw [List.foldl_cons, ih]
    unfold styleParameter
    split
    · rfl
    · split <;> rfl

theorem missing_applyOne (h : p.applyOne k ds d st = .ok st') : st'.missing = st.missing := by
  cases d with
  | value => exact (recorded_value h).2
  | visible condition =>
    unfold applyOne setVisible at h
    dsimp only at h
    cases hr : require st.surface k with
    | error err => rw [hr] at h; cases h
    | ok n =>
      rw [hr] at h
      cases h
      rfl
  | style condition parameters =>
    unfold applyOne applyStyle at h
    dsimp only at h
    cases hr : require st.surface k with
    | error err => rw [hr] at h; cases h
    | ok n =>
      rw [hr] at h
      cases h
      exact missing_styleParameters ..

theorem mem_missing_applyEach : ∀ (left : List Dependency) (st : State S),
    m ∈ (p.applyEach k ds left st).missing ↔ m ∈ st.missing ∨ ∃ before d rest, left = before ++ d :: rest ∧
      p.applyOne k ds d (p.applyEach k ds before st) = .error (.nodeNotFound m)
  | [], st => by simp [applyEach]
  | d :: left, st => by
    rw [exists_split_cons]
    show _ ↔ _ ∨ p.applyOne k ds d st = _ ∨ _
    cases hone : p.applyOne k ds d st with
    | ok st' =>
      have hrest : ∀ before, p.applyEach k ds (d :: before) st = p.applyEach k ds before st' := fun before => by
        rw [applyEach, hone]
      simp only [hrest, reduceCtorEq, false_or]
      rw [mem_missing_applyEach left st', missing_applyOne hone]
    | error err =>
      cases err with
      | nodeNotFound m' =>
        -- The node is missing for the dependencies behind this one, too; they name the same key.
        obtain rfl := key_of_nodeNotFound hone
        have hstop : (p.applyEach m' ds (d :: left) st).missing = st.missing ++ [m'] := by
          rw [applyEach, hone]
          rfl
        rw [hstop, List.mem_append, List.mem_singleton, Except.error.injEq, SurfaceError.nodeNotFound.injEq]
        refine or_congr_right ⟨fun h => .inl h.symm, ?_⟩
        rintro (h | ⟨before, c, rest, -, h⟩)
        · exact h.symm
        · exact key_of_nodeNotFound h
      | detached template =>
        have hrest : ∀ before, p.applyEach k ds (d :: before) st = p.applyEach k ds before
            ({ st with detached := st.detached ++ [template] }.say (.detachedTemplate template)) := fun before => by
          rw [applyEach, hone]
        simp only [hrest, reduceCtorEq, false_or, Except.error.injEq]
        exact mem_missing_applyEach left _

theorem mem_missing_entry : m ∈ (p.entry start e).missing ↔ m ∈ start.missing ∨
    start.destroyed.contains e.1 = false ∧ ∃ before d left, e.2 = before ++ d :: left ∧
      p.applyOne (p.key e.1) e.2 d (p.applyEach (p.key e.1) e.2 before start) = .error (.nodeNotFound m) := by
  rw [entry_eq]
  cases hd : start.destroyed.contains e.1 with
  | true => exact (or_iff_left fun h => Bool.noConfusion h.1).symm
  | false => exact (mem_missing_applyEach e.2 start).trans (or_congr_right (and_iff_right rfl).symm)

/-- **What is missing is what some dependency has not found.** -/
theorem mem_missing_entries : ∀ (es : List (String × List Dependency)) (start : State S),
    m ∈ (es.foldl p.entry start).missing ↔ m ∈ start.missing ∨ ∃ e d left st, p.Stage es start e (d :: left) st ∧
      p.applyOne (p.key e.1) e.2 d st = .error (.nodeNotFound m)
  | [], start => by simp [Stage]
  | e :: es, start => by
    rw [List.foldl_cons, mem_missing_entries es, mem_missing_entry, or_assoc]
    refine or_congr_right ?_
    constructor
    · rintro (⟨hd, before, d, left, hds, herr⟩ | ⟨e', d, left, st, hst, herr⟩)
      · exact ⟨e, d, left, _, stage_cons.2 (.inl ⟨rfl, hd, before, hds, rfl⟩), herr⟩
      · exact ⟨e', d, left, st, stage_cons.2 (.inr hst), herr⟩
    · rintro ⟨e', d, left, st, hst, herr⟩
      rcases stage_cons.1 hst with ⟨rfl, hd, before, hds, rfl⟩ | hst
      · exact .inl ⟨hd, before, d, left, hds, herr⟩
      · exact .inr ⟨e', d, left, st, hst, herr⟩

/-- **The key of an entry is missing exactly if the node is not there at one of the entry's dependencies.** -/
theorem mem_missing_run {s : S} (hitem : Element.isItem e.1 = false) (he : e ∈ p.dependents.entries) :
    p.key e.1 ∈ (p.run s).missing ↔
      ∃ d left st, p.At s e (d :: left) st ∧ locate st.surface (p.key e.1) = none := by
  have hbegin : p.key e.1 ∉ (p.begin s).missing := List.not_mem_nil
  rw [run_eq, mem_missing_entries, or_iff_right hbegin]
  constructor
  · rintro ⟨e', d, left, st, hst, herr⟩
    have hkey : e'.1 = e.1 := (NodeKey.mk.inj (key_of_nodeNotFound herr)).1.symm
    obtain rfl : e' = e := List.inj_on_of_nodup_map p.dependents.nodup hst.mem he hkey
    exact ⟨d, left, st, hst, locate_of_nodeNotFound herr⟩
  · rintro ⟨d, left, st, hst, hl⟩
    have ho : p.ownedByTemplate (p.key e.1).element = false := not_owned_of_not_item hitem
    exact ⟨e, d, left, st, hst, applyOne_of_missing (k := p.key e.1) (fun _ => ho) hl e.2⟩

theorem exists_of_mem_missing {s : S} (h : m ∈ (p.run s).missing) :
    ∃ e ∈ p.dependents.entries, e.2 ≠ [] ∧ m = p.key e.1 := by
  rw [run_eq, mem_missing_entries] at h
  obtain h | ⟨e, d, left, st, hst, herr⟩ := h
  · exact absurd h List.not_mem_nil
  · exact ⟨e, hst.mem, List.ne_nil_of_mem hst.mem_left, key_of_nodeNotFound herr⟩

end

/-! ## What takes nodes away -/

variable {p : Pass Surface} {s t : Surface} {st st' : State Surface} {d : Dependency} {k : NodeKey}
  {ds left : List Dependency} {table : DependencyTable} {destroyed : List String} {element : String} {m : Slot}
  {e : String × List Dependency}

/-- **Showing the value takes a node away**: the node is below the one whose text is replaced, or goes with the old
items of the list that is rebuilt. -/
inductive Takes (p : Pass Surface) (k : NodeKey) (st : State Surface) (m : Slot) : Prop
  | text {n c : Slot} (notOwned : p.ownedByTemplate k.element = false) (plain : k.isTemplate = false)
    (located : locate st.surface k = some n) (child : st.surface.Child n c) (below : st.surface.Below c m)
  | list {template : Slot} (rebuilds : p.Rebuilds k st.surface template)
    (doomed : ListRegion.Doomed st.surface (p.staleKeys k st.table) m)

theorem Change.rooted (hp : p.effector = inlineStyles) (hs : st.surface.Rooted)
    (h : p.Change k ds st d t table destroyed) : t.Rooted :=
  h.keeps hp hs (fun hst ht => ht.sameTree hst) (fun n text ht => ht.setText n text) fun _ _ hr =>
    ListRegion.rooted_makeItems hr.isTemplate (ListRegion.rooted_destroyAll hs _) _ _

theorem locate_eq_none_iff : locate s (p.key e.1) = none ↔ ∀ m, ¬ p.About s e m := by
  refine s.find?_eq_none.trans (forall_congr' fun m => ?_)
  unfold About
  exact not_and.symm

/-- A node that is made for a list has no data-id of an entry that is no item. -/
theorem about_refilled_iff (hs : st.surface.Linked) (hid : k.instanceId = p.instanceId)
    (hitem : Element.isItem e.1 = false) {template : Slot} (hr : p.Rebuilds k st.surface template) :
    (∃ m, p.About (p.refilled k st.table st.surface template (ListRegion.items p.value)).1 e m) ↔
      ∃ m, p.About (p.cleared k st.table st.surface) e m := by
  obtain ⟨hold, hnew⟩ := ListRegion.own_makeItems hr.isTemplate (ListRegion.linked_destroyAll hs _) template
    p.options.loopPlaceholder (ListRegion.items p.value)
  constructor
  · rintro ⟨m, hl, hm⟩
    rcases hnew m hl with ⟨i, -, key, hkey, hmkey⟩ | ⟨j, hj, hmj⟩
    · obtain ⟨helement, hinstance⟩ := NodeKey.item?_eq_some hkey
      exact absurd (Option.some.inj (hmkey.symm.trans hm)) (NodeKey.text_ne_of_item
        (Element.isItem_of_isItemOf (Element.isItemOf_item? helement)) (hinstance.trans hid) hitem)
    · exact ⟨j, hj, hmj.symm.trans hm⟩
  · rintro ⟨m, hl, hm⟩
    obtain ⟨hl', hown⟩ := hold m hl
    exact ⟨m, hl', (Node.id_eq hown).trans hm⟩

theorem about_restyled_iff {changed : Slot → String → Prop} (h : Surface.Restyled changed s t) :
    p.About t e m ↔ p.About s e m := by
  unfold About
  rw [h.node m]

/-- **The nodes of an entry are gone exactly if all of them are taken away.** -/
theorem Change.locate_eq_none_iff (hp : p.effector = inlineStyles) (hs : st.surface.Rooted)
    (hid : k.instanceId = p.instanceId) (hitem : Element.isItem e.1 = false)
    (h : p.Change k ds st d t table destroyed) :
    locate t (p.key e.1) = none ↔ ∀ m, p.About st.surface e m → d = .value ∧ p.Takes k st m := by
  rw [Pass.locate_eq_none_iff]
  cases h with
  | owned ho =>
    refine forall_congr' fun m => imp_congr_right fun _ => iff_of_false id ?_
    rintro ⟨-, ⟨hnot, -⟩ | ⟨hr, -⟩⟩
    · exact Bool.false_ne_true (hnot.symm.trans ho)
    · exact Bool.false_ne_true (hr.notOwned.symm.trans ho)
  | @text n hnot hplain hloc =>
    refine forall_congr' fun m => ?_
    have htakes : p.Takes k st m ↔ ∃ c, st.surface.Child n c ∧ st.surface.Below c m := by
      refine ⟨?_, fun ⟨c, hc, hb⟩ => .text hnot hplain hloc hc hb⟩
      rintro (⟨-, -, hloc', hc, hb⟩ | ⟨hr, -⟩)
      · obtain rfl := Option.some.inj (hloc.symm.trans hloc')
        exact ⟨_, hc, hb⟩
      · cases hplain.symm.trans hr.isTemplate
    rw [and_iff_right rfl, htakes]
    constructor
    · intro hgone hm
      by_contra hnone
      have hl := (Surface.live_setText_iff hs hm.1 p.value).2 hnone
      refine hgone ⟨hl, ?_⟩
      rw [show ((setText st.surface n p.value).node m) = _ from (Surface.node_setText hl).2]
      exact hm.2
    · intro hgone hm
      obtain ⟨hl, hnode⟩ := Surface.node_setText hm.1
      have hid := hm.2
      rw [show ((setText st.surface n p.value).node m) = _ from hnode] at hid
      exact (Surface.live_setText_iff hs hl p.value).1 hm.1 (hgone ⟨hl, hid⟩)
  | @list template hr =>
    have htakes : ∀ m, p.Takes k st m ↔ ListRegion.Doomed st.surface (p.staleKeys k st.table) m := fun m => by
      refine ⟨?_, .list hr⟩
      rintro (⟨-, hplain, -⟩ | ⟨-, hdoomed⟩)
      · cases hplain.symm.trans hr.isTemplate
      · exact hdoomed
    have hcleared : ∀ m, p.About (p.cleared k st.table st.surface) e m ↔ p.About st.surface e m ∧ ¬ p.Takes k st m :=
      fun m => by
        rw [htakes]
        unfold About cleared
        rw [ListRegion.live_destroyAll_iff _ hs.toLinked, and_right_comm]
        refine and_congr_left fun hd => and_congr_right fun hl => ?_
        rw [Node.id_eq (ListRegion.own_destroyAll _ ((ListRegion.live_destroyAll_iff _ hs.toLinked m).2 ⟨hl, hd⟩)).2.1]
    rw [← not_exists, about_refilled_iff hs.toLinked hid hitem hr, not_exists]
    refine forall_congr' fun m => ?_
    rw [hcleared, and_iff_right rfl, not_and, not_not]
  | visible hloc =>
    refine forall_congr' fun m => (not_congr (about_restyled_iff (restyled_visible _ _ _))).trans ?_
    exact imp_congr_right fun _ => iff_of_false id fun h => Dependency.noConfusion h.1
  | style hloc =>
    refine forall_congr' fun m => (not_congr (about_restyled_iff (restyled_styleParameters hp _ _ _ _ _))).trans ?_
    exact imp_congr_right fun _ => iff_of_false id fun h => Dependency.noConfusion h.1

/-! ## When all nodes are taken away -/

/-- A pass has come to a dependency that is carried out before the last one of the entry `e`. -/
def Ahead (p : Pass Surface) (s : Surface) (e e' : String × List Dependency) (left : List Dependency)
    (st : State Surface) : Prop :=
  (∃ pre post, p.dependents.entries = pre ++ e :: post ∧ p.Stage pre (p.begin s) e' left st) ∨
    e' = e ∧ 1 < left.length ∧ p.At s e left st

/-- **An entry loses its nodes**: before its last dependency, the value is shown somewhere, and that takes away all
nodes that the entry has then. -/
def Loses (p : Pass Surface) (s : Surface) (e : String × List Dependency) : Prop :=
  ∃ e' left st, p.Ahead s e e' (.value :: left) st ∧ (∃ m, p.About st.surface e m) ∧
    ∀ m, p.About st.surface e m → p.Takes (p.key e'.1) st m

theorem Takes.located (h : p.Takes k st m) : ∃ n, locate st.surface k = some n := by
  cases h with
  | text _ _ hloc => exact ⟨_, hloc⟩
  | list hr => exact ⟨_, hr.located⟩

theorem Takes.applyOne (h : p.Takes k st m) (ds : List Dependency) : ∃ st', p.applyOne k ds .value st = .ok st' := by
  cases hone : p.applyOne k ds .value st with
  | ok st' => exact ⟨st', rfl⟩
  | error err =>
    obtain ⟨n, hn⟩ := h.located
    rcases locate_of_error hone with hl | ⟨n', hl, hparent, htemplate, -⟩
    · cases hn.symm.trans hl
    · cases h with
      | text _ hplain _ => cases hplain.symm.trans htemplate
      | list hr =>
        obtain rfl := Option.some.inj (hr.located.symm.trans hl)
        exact absurd hr.attached (by rw [hparent]; exact Bool.false_ne_true)

section

variable {es : List (String × List Dependency)} {start : State Surface}

theorem Stage.rooted (hp : p.effector = inlineStyles) (hs : start.surface.Rooted) (h : p.Stage es start e left st) :
    st.surface.Rooted :=
  (stage_induction (I := fun t _ _ => t.Rooted) hs fun _ _ _ _ _ _ ht hok =>
    (change_of_applyOne hok).rooted hp ht).1 e left st h

/-- What is destroyed are items. -/
theorem not_destroyed (hstart : start.destroyed = []) (hitem : Element.isItem e.1 = false) :
    (es.foldl p.entry start).destroyed.contains e.1 = false := by
  have hitems := (@stage_induction _ _ (fun _ _ destroyed => ∀ x ∈ destroyed, Element.isItem x) p es start
    (by simp [hstart]) fun _ _ _ _ _ _ hI hok x hx =>
      ((change_of_applyOne hok).destroyed x hx).elim (hI x) Element.isItem_of_isItemOf).2
  by_contra hd
  rw [Bool.not_eq_false, List.contains_iff_mem] at hd
  cases hitem.symm.trans (hitems e.1 hd)

/-- What every carried out dependency keeps holds at the end of a way if it holds at one of its stages. -/
theorem Stage.keeps {I : Surface → Prop} (h : p.Stage es start e left st) (h0 : I st.surface)
    (hstep : ∀ k ds d u u', k.instanceId = p.instanceId → I u.surface → p.applyOne k ds d u = .ok u' → I u'.surface) :
    I (es.foldl p.entry start).surface := by
  obtain ⟨pre, post, before, rfl, hd, hds, rfl⟩ := h
  rw [List.foldl_append, List.foldl_cons, entry_eq, hd]
  refine (stage_induction (I := fun t _ _ => I t) ?_ fun e _ _ _ _ _ => hstep (p.key e.1) e.2 _ _ _ rfl).2
  -- The dependencies that are left go on from the stage, or nothing changes any more.
  have hrest : ∀ left, I (p.applyEach (p.key e.1) e.2 (before ++ left) (pre.foldl p.entry start)).surface := by
    intro left
    induction left using List.reverseRecOn with
    | nil => rwa [List.append_nil]
    | append_singleton left d ih =>
      rw [← List.append_assoc]
      rcases applyEach_concat p (p.key e.1) e.2 d (before ++ left) (pre.foldl p.entry start) with hok | ⟨hsame, -⟩
      · exact hstep _ _ _ _ _ rfl ih hok
      · rwa [hsame]
  have := hrest left
  rwa [← hds] at this

end

/-- A page of the pass on which the node is not missing without a reason. -/
def Excused (p : Pass Surface) (s : Surface) (e : String × List Dependency) (t : Surface) : Prop :=
  t.Rooted ∧ (locate t (p.key e.1) = none → locate s (p.key e.1) = none ∨ p.Loses s e)

/-- The entry loses its nodes at the dependency with which the last one goes. -/
theorem Excused.applyOne {e' : String × List Dependency} (hp : p.effector = inlineStyles)
    (hitem : Element.isItem e.1 = false) (h : p.Excused s e st.surface) (hahead : p.Ahead s e e' (d :: left) st)
    (hok : p.applyOne (p.key e'.1) e'.2 d st = .ok st') : p.Excused s e st'.surface := by
  have hch := change_of_applyOne hok
  refine ⟨hch.rooted hp h.1, fun hgone => ?_⟩
  have htaken := (hch.locate_eq_none_iff hp h.1 rfl hitem).1 hgone
  cases hl : locate st.surface (p.key e.1) with
  | none => exact h.2 hl
  | some m =>
    have hm := about_of_locate hl
    obtain ⟨rfl, -⟩ := htaken m hm
    exact .inr ⟨e', left, st, hahead, ⟨m, hm⟩, fun m hm => (htaken m hm).2⟩

/-- **An entry whose node is not there at some point had none at the beginning, or loses it.** -/
theorem gone_or_loses (hp : p.effector = inlineStyles) (hs : s.Rooted) (hitem : Element.isItem e.1 = false)
    (hst : p.At s e (d :: left) st) (hgone : locate st.surface (p.key e.1) = none) :
    locate s (p.key e.1) = none ∨ p.Loses s e := by
  obtain ⟨pre, post, before, hes, hd, hway, rfl⟩ := hst
  have hpre : p.Excused s e (pre.foldl p.entry (p.begin s)).surface :=
    (@stage_induction _ _ (fun t _ _ => p.Excused s e t) p pre (p.begin s) ⟨hs, .inl⟩
      fun e' d' left' u u' hst hI => hI.applyOne hp hitem (.inl ⟨pre, post, hes, hst⟩)).2
  have hbefore : p.Excused s e (p.applyEach (p.key e.1) e.2 before (pre.foldl p.entry (p.begin s))).surface := by
    refine @applyEach_induction _ _ (fun t _ _ => p.Excused s e t) p (p.key e.1) e.2 before _ hpre
      (fun before' d' left' u' hway' hI => ?_) before [] (List.append_nil _).symm
    have hds : e.2 = before' ++ d' :: (left' ++ d :: left) := by rw [hway, hway', List.append_assoc]; rfl
    refine hI.applyOne hp hitem (.inr ⟨rfl, ?_, pre, post, before', hes, hd, hds, rfl⟩)
    rw [List.length_cons, List.length_append, List.length_cons]
    omega
  exact hbefore.2 hgone

theorem gone_applyOne (hp : p.effector = inlineStyles) (hitem : Element.isItem e.1 = false)
    (hid : k.instanceId = p.instanceId) (h : st.surface.Rooted ∧ locate st.surface (p.key e.1) = none)
    (hok : p.applyOne k ds d st = .ok st') : st'.surface.Rooted ∧ locate st'.surface (p.key e.1) = none :=
  ⟨(change_of_applyOne hok).rooted hp h.1, ((change_of_applyOne hok).locate_eq_none_iff hp h.1 hid hitem).2
    fun m hm => absurd hm (locate_eq_none_iff.1 h.2 m)⟩

/-- **An entry that had no node at the beginning, or loses it, comes to a dependency without one.** -/
theorem exists_gone (hp : p.effector = inlineStyles) (hs : s.Rooted) (hitem : Element.isItem e.1 = false)
    (he : e ∈ p.dependents.entries) (hds : e.2 ≠ []) (h : locate s (p.key e.1) = none ∨ p.Loses s e) :
    ∃ d left st, p.At s e (d :: left) st ∧ locate st.surface (p.key e.1) = none := by
  obtain ⟨d, left, hdl⟩ := List.exists_cons_of_ne_nil hds
  have hfirst : ∀ {pre post}, p.dependents.entries = pre ++ e :: post →
      locate (pre.foldl p.entry (p.begin s)).surface (p.key e.1) = none →
      ∃ d left st, p.At s e (d :: left) st ∧ locate st.surface (p.key e.1) = none := fun hes hgone =>
    ⟨d, left, _, ⟨_, _, [], hes, not_destroyed rfl hitem, hdl, rfl⟩, hgone⟩
  rcases h with hgone | ⟨e', left', st, hahead, ⟨m, hm⟩, htakes⟩
  · obtain ⟨pre, post, hes⟩ := List.append_of_mem he
    exact hfirst hes (@stage_induction _ _ (fun t _ _ => t.Rooted ∧ locate t (p.key e.1) = none) p pre (p.begin s)
      ⟨hs, hgone⟩ fun _ _ _ _ _ _ => gone_applyOne hp hitem rfl).2.2
  · obtain ⟨st', hok⟩ := (htakes m hm).applyOne e'.2
    have hlocated : (locate st.surface (p.key e'.1)).isSome := Option.isSome_iff_exists.2 (htakes m hm).located
    have hafter : st.surface.Rooted → st'.surface.Rooted ∧ locate st'.surface (p.key e.1) = none := fun hr =>
      ⟨(change_of_applyOne hok).rooted hp hr, ((change_of_applyOne hok).locate_eq_none_iff hp hr rfl hitem).2
        fun m hm => ⟨rfl, htakes m hm⟩⟩
    rcases hahead with ⟨pre, post, hes, hst⟩ | ⟨rfl, hlong, hst⟩
    · exact hfirst hes ((hst.next hlocated hok).keeps (I := fun t => t.Rooted ∧ locate t (p.key e.1) = none)
        (hafter (hst.rooted hp hs)) fun _ _ _ _ _ hid => gone_applyOne hp hitem hid).2
    · obtain ⟨d', left'', rfl⟩ := List.exists_cons_of_length_pos (Nat.lt_of_succ_lt_succ hlong)
      exact ⟨d', left'', st', hst.next hlocated hok, (hafter (hst.rooted hp hs)).2⟩

/-- **The key of an entry is missing exactly if its node is missing from the beginning, or the entry loses it.** -/
theorem missing_iff (hp : p.effector = inlineStyles) (hs : s.Rooted) (hitem : Element.isItem e.1 = false)
    (he : e ∈ p.dependents.entries) (hds : e.2 ≠ []) :
    p.key e.1 ∈ (p.run s).missing ↔ locate s (p.key e.1) = none ∨ p.Loses s e := by
  rw [mem_missing_run hitem he]
  exact ⟨fun ⟨_, _, _, hst, hgone⟩ => gone_or_loses hp hs hitem hst hgone, exists_gone hp hs hitem he hds⟩

end Pass
end BoundPage
