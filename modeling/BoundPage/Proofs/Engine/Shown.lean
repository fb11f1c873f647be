import Mathlib.Data.List.Pairwise
import BoundPage.Proofs.Engine.Forests
import BoundPage.Proofs.Write.Shown
/-!
# What a run shows

The page does not drift from the store.  Once a variable has been written, an element that depends on it alone shows
its value in every later state (`shows_stored_of_written`): its node is found by every write of the variable, and
nothing else that a run does comes to the node, as long as data-ids are not copied with the template of a list.
-/
namespace BoundPage
open RenderTarget

/-- **A page whose elements can be told apart**: data-ids are distinct, and no template has data-ids inside.  No spacing
rule is about `display`. -/
structure Surface.Clean (s : Surface) : Prop where
  distinct : (s.liveSlots.filterMap fun h => (s.node h).id).Nodup
  bare : ∀ t ∈ s.liveSlots, s.TemplateAt t → ∀ c ∈ (s.node t).children, ∀ k ∈ s.subtree c, (s.node k).id = none
  spacing : ∀ k ∈ s.liveSlots, s.spacingProperty? k ≠ some "display"

/-- The nodes of an external child have no data-ids. -/
def Surface.BareExternal (s : Surface) (key : String) : Prop :=
  ∀ t ∈ s.liveSlots, (s.node t).externalId = some key → ∀ k ∈ s.subtree t, (s.node k).id = none

theorem Surface.Clean.unique {s : Surface} (hs : s.Clean) {id : String} {h k : Slot}
    (hh : (s.node h).live) (hk : (s.node k).live) (hid : (s.node h).id = some id) (hid' : (s.node k).id = some id) :
    h = k := by
  have : Std.Symm fun a b => ∀ i, (s.node a).id = some i → ∀ j, (s.node b).id = some j → i ≠ j :=
    ⟨fun _ _ hab i hi j hj he => hab j hj i hi he.symm⟩
  by_contra hne
  exact (List.pairwise_filterMap.1 hs.distinct).forall (s.mem_liveSlots.2 hh) (s.mem_liveSlots.2 hk) hne id hid id hid'
    rfl

theorem Surface.Clean.settled {s : Surface} (hs : s.Clean) (hf : s.Forest) (id : String) :
    s.Settled id s.BareExternal where
  linked := hf.toLinked
  unique := hs.unique
  bare ht hc hb := by
    obtain ⟨htl, hcl, -⟩ := hf.toLinked.child hc
    exact hs.bare _ (s.mem_liveSlots.2 htl) ht _ hc _ ((hf.mem_subtree hcl).2 hb)
  light_bare hl ha hb := by
    obtain ⟨key, hkey, hlight⟩ := ha
    exact hlight _ (s.mem_liveSlots.2 hl) hkey _ ((hf.mem_subtree hl).2 hb)
  spacing hk := hs.spacing _ (s.mem_liveSlots.2 hk)

namespace ExternalChildren

variable {s t : Surface} {slot n : Slot} {id : String} {light : String → Prop}

/-- **A move leaves an element settled**, and its node alone. -/
theorem Moves.settled {c : ExternalChildren} {r : Registration} {element : String} (h : c.Moves s id r slot n t)
    (hlight : ∀ r ∈ c.registrations, NodeKey.isTemplateText (NodeKey.text ⟨r.slot, id⟩) →
      light (NodeKey.text ⟨r.object, id⟩)) (ht : t.Settled element light) :
    (moveUnder slot t n).Settled element light ∧ Surface.Keeps element t (moveUnder slot t n) := by
  obtain ⟨hs, hn⟩ := h.live
  obtain ⟨hr, hslot, hext⟩ := h.ids
  unfold moveUnder
  split
  · exact ⟨ht, .refl _ t⟩
  · refine ⟨ht.append hs hn (by rw [hslot]; exact Option.some_ne_none _) fun htemp k hb => ?_, .append hs hn⟩
    obtain ⟨tid, htid, htt⟩ := htemp
    rw [hslot] at htid
    rw [← Option.some.inj htid] at htt
    exact ht.light_bare hn ⟨_, hext, hlight r hr htt⟩ hb

end ExternalChildren

/-- **An instance names an element in one entry at most**, that of one variable. -/
structure Instance.Names (key : NodeKey) (x : String) (d : Dependency) (id : String) (i : Instance) : Prop where
  colonFree : ':' ∉ id.toList
  only : ∀ {name v e}, i.store.get? name = some v → e ∈ v.dependents.entries → NodeKey.text ⟨e.1, id⟩ = key.text →
    id = key.instanceId ∧ name = x ∧ e = (key.element, [d])

/-- The external children that an instance may put into a template are of a kind. -/
def Instance.Puts (light : String → Prop) (id : String) (i : Instance) : Prop :=
  ∀ r ∈ i.externals.registrations, NodeKey.isTemplateText (NodeKey.text ⟨r.slot, id⟩) →
    light (NodeKey.text ⟨r.object, id⟩)

/-- A write changes a table in entries of items only, so an instance names what it named. -/
theorem Instance.Names.written {key : NodeKey} {x : String} {d : Dependency} {id name : String} {i old : Instance}
    {v v' : Variable} (hkey : Plain key) (h : old.Names key x d id) (hv : old.store.get? name = some v)
    (htable : ∀ e ∈ v'.dependents.entries, e ∈ v.dependents.entries ∨ Element.isItem e.1)
    (hstore : i.store = old.store.insert name v') : i.Names key x d id where
  colonFree := h.colonFree
  only {m u e} hu he ht := by
    rw [hstore, Table.get?_insert] at hu
    by_cases hm : m = name
    · subst hm
      rw [if_pos rfl] at hu
      obtain rfl := Option.some.inj hu
      rcases htable e he with he | hitem
      · exact h.only hv he ht
      · rw [show e.1 = key.element from congrArg NodeKey.element (NodeKey.text_inj h.colonFree hkey.colonFree ht),
          hkey.notItem] at hitem
        cases hitem
    · rw [if_neg hm] at hu
      exact h.only hu he ht

/-- The variable has the element in its table. -/
def Instance.Has (key : NodeKey) (x : String) (d : Dependency) (i : Instance) : Prop :=
  ∃ v, i.store.get? x = some v ∧ (key.element, [d]) ∈ v.dependents.entries

namespace Engine

variable {H W : Type} {key : NodeKey} {x : String} {d : Dependency} {light : String → Prop} {g : Engine Surface H W}
  {op : Operation}

/-! ## One operation -/

/-- The element is settled on the page, and no running instance names it elsewhere. -/
structure Follows (key : NodeKey) (x : String) (d : Dependency) (light : String → Prop) (g : Engine Surface H W) :
    Prop where
  effector : g.effector = inlineStyles
  settled : g.surface.Settled key.text light
  names : ∀ id i, g.instance? id = some i → i.Names key x d id
  puts : ∀ id i, g.instance? id = some i → i.Puts light id

/-- The variable's instance, if it is running, has the element in its table. -/
def Has (key : NodeKey) (x : String) (d : Dependency) (g : Engine Surface H W) : Prop :=
  ∀ i, g.instance? key.instanceId = some i → i.Has key x d

/-- **The element shows the stored value of the variable.** -/
def ShowsStored (key : NodeKey) (x : String) (d : Dependency) (g : Engine Surface H W) : Prop :=
  ∀ i v, g.instance? key.instanceId = some i → i.store.get? x = some v → g.surface.Shows key.text d v.value

theorem Follows.colonFree (hg : g.Follows key x d light) {p : Pass Surface} (h : g.passOf? op = some p) :
    ':' ∉ p.instanceId.toList := by
  obtain ⟨_, _, i, _, -, hi, -, -⟩ := passOf?_eq_some h
  exact (hg.names _ i hi).colonFree

theorem Follows.moves (hg : g.Follows key x d light) {c : Placement Surface} (hc : g.placementOf? op = some c)
    {r : Registration} {slot n : Slot} {t : Surface} (hm : c.children.Moves c.page c.instanceId r slot n t)
    (ht : t.Settled key.text light) : (ExternalChildren.moveUnder slot t n).Settled key.text light ∧
      Surface.Keeps key.text t (ExternalChildren.moveUnder slot t n) := by
  obtain ⟨i, hi, hci⟩ := (placementOf?_eq_some hc).2
  exact hm.settled (by rw [hci]; exact hg.puts _ i hi) ht

/-- **An operation leaves the element settled**, and its node alone unless a pass names it. -/
theorem Follows.settled_perform (hkey : Plain key) (hg : g.Follows key x d light) :
    (g.perform op).surface.Settled key.text light ∧
      ((∀ p, g.passOf? op = some p → ∀ e ∈ p.dependents.entries, (p.key e.1).text ≠ key.text) →
        Surface.Keeps key.text g.surface (g.perform op).surface) := by
  refine perform_induction (I := fun t => t.Settled key.text light ∧
    ((∀ p, g.passOf? op = some p → ∀ e ∈ p.dependents.entries, (p.key e.1).text ≠ key.text) →
      Surface.Keeps key.text g.surface t)) (fun _ => ⟨hg.settled, fun _ => .refl _ _⟩) (fun p hp => ?_)
    fun c hc r slot n t hm ht => ?_
  · obtain ⟨h1, h2⟩ := Pass.run_settled ((effector_passOf? hp).trans hg.effector) hkey (hg.colonFree hp) hg.settled
    exact ⟨h1, fun h => h2 (h p hp)⟩
  · obtain ⟨h1, h2⟩ := hg.moves hc hm ht.1
    exact ⟨h1, fun h => (ht.2 h).trans h2⟩

/-- **A write of the variable shows the value.** -/
theorem Follows.shows_perform (hkey : Plain key) (hg : g.Follows key x d light) {p : Pass Surface}
    (hp : g.passOf? op = some p) (hid : p.instanceId = key.instanceId)
    (hmem : (key.element, [d]) ∈ p.dependents.entries)
    (honly : ∀ e ∈ p.dependents.entries, (p.key e.1).text = key.text → e.1 = key.element) :
    (g.perform op).surface.Shows key.text d p.value := by
  refine (perform_induction (I := fun t : Surface => t.Settled key.text light ∧ t.Shows key.text d p.value)
    (fun hnone => by rw [hp] at hnone; cases hnone) (fun p' hp' => ?_) fun c hc r slot n t hm ht => ?_).2
  · obtain rfl := Option.some.inj (hp.symm.trans hp')
    have he := (effector_passOf? hp).trans hg.effector
    exact ⟨(Pass.run_settled he hkey (hg.colonFree hp) hg.settled).1,
      Pass.run_shows he hkey hid hmem honly hg.settled⟩
  · obtain ⟨h1, h2⟩ := hg.moves hc hm ht.1
    exact ⟨h1, ht.2.keeps h2⟩

/-- Every operation that starts instances of this kind leaves the element to its variable. -/
theorem Follows.perform (hkey : Plain key) (hg : g.Follows key x d light)
    (hstart : ∀ id i, op = .start id i → i.Names key x d id ∧ i.Puts light id) :
    (g.perform op).Follows key x d light where
  effector := (effector_perform g op).trans hg.effector
  settled := (hg.settled_perform hkey).1
  names id i hi := by
    cases becomes_of_instance? hi with
    | started h => exact (hstart id i h).1
    | kept h hstore _ _ =>
      have hold := hg.names id _ h
      exact ⟨hold.colonFree, by rw [hstore]; exact hold.only⟩
    | @written old name value v p h _ hv _ _ hdep hstore _ =>
      refine (hg.names id old h).written hkey hv (fun e he => ?_) hstore
      rw [← hdep]
      exact ((p.run_table g.surface).1 e he).imp_right fun ⟨_, _, hi⟩ => Element.isItem_of_isItemOf hi
  puts id i hi := by
    cases becomes_of_instance? hi with
    | started h => exact (hstart id i h).2
    | kept h _ hreg _ =>
      unfold Instance.Puts
      rw [hreg]
      exact hg.puts id _ h
    | written h _ _ _ _ _ _ hreg =>
      unfold Instance.Puts
      rw [hreg]
      exact hg.puts id _ h

theorem Has.perform (hkey : Plain key) (hhas : g.Has key x d) (hop : ∀ i, op ≠ .start key.instanceId i) :
    (g.perform op).Has key x d := fun i hi => by
  cases becomes_of_instance? hi with
  | started h => exact absurd h (hop i)
  | kept h hstore _ _ =>
    obtain ⟨v, hv, hmem⟩ := hhas _ h
    exact ⟨v, by rw [hstore]; exact hv, hmem⟩
  | @written old name value v p h _ hv _ _ hdep hstore _ =>
    obtain ⟨u, hu, hmem⟩ := hhas old h
    by_cases hx : x = name
    · subst hx
      obtain rfl := Option.some.inj (hu.symm.trans hv)
      rw [← hdep] at hmem
      have hkept := (p.run_table g.surface).2 _ hmem hkey.notItem
      exact ⟨_, by rw [hstore]; exact Table.get?_insert_self _ _ _, hkept⟩
    · exact ⟨u, by rw [hstore, Table.get?_insert_of_ne _ _ hx]; exact hu, hmem⟩

/-- **What the element shows is the stored value after a write of its variable, and stays so.** -/
theorem ShowsStored.perform (hkey : Plain key) (hg : g.Follows key x d light) (hhas : g.Has key x d)
    (hop : ∀ i, op ≠ .start key.instanceId i)
    (h : g.ShowsStored key x d ∨ ∃ value, op = .write key.instanceId x value) :
    (g.perform op).ShowsStored key x d := fun i v hi hv => by
  have hothers : ∀ {p : Pass Surface} {id name : String} {old : Instance} {u : Variable},
      g.instance? id = some old → old.store.get? name = some u → p.dependents = u.dependents → p.instanceId = id →
      ∀ e ∈ p.dependents.entries, (p.key e.1).text = key.text →
        id = key.instanceId ∧ name = x ∧ e = (key.element, [d]) := by
    rintro p id name old u hold hu hdep rfl e he ht
    rw [hdep] at he
    exact (hg.names _ old hold).only hu he ht
  cases becomes_of_instance? hi with
  | started h => exact absurd h (hop i)
  | @kept old hold hstore _ hno =>
    rw [hstore] at hv
    rcases h with h | ⟨value, rfl⟩
    · refine (h old v hold hv).keeps ((hg.settled_perform hkey).2 fun p hp e he ht => hno p hp ?_)
      obtain ⟨_, _, i', u, -, hi', hu, hp'⟩ := passOf?_eq_some hp
      exact (hothers hi' hu (by rw [hp']) rfl e he ht).1
    · obtain ⟨u, hu, -⟩ := hhas old hold
      exact absurd rfl (hno _ (by rw [passOf?_write, hold, Option.bind_some, hu]; rfl))
  | @written old name value u p hold hwrite hu hp hid hdep hstore _ =>
    rw [hstore] at hv
    by_cases hx : x = name
    · subst hx
      rw [Table.get?_insert_self] at hv
      obtain ⟨w, hw, hmem⟩ := hhas old hold
      obtain rfl := Option.some.inj (hw.symm.trans hu)
      rw [← Option.some.inj hv]
      refine hg.shows_perform hkey hp hid (by rw [hdep]; exact hmem) fun e he ht => ?_
      rw [(hothers hold hu hdep hid e he ht).2.2]
    · rw [Table.get?_insert_of_ne _ _ hx] at hv
      rcases h with h | ⟨value, rfl⟩
      · refine (h old v hold hv).keeps ((hg.settled_perform hkey).2 fun p' hp' e he ht => hx ?_)
        obtain rfl := Option.some.inj (hp.symm.trans hp')
        exact (hothers hold hu hdep hid e he ht).2.1.symm
      · exact absurd (Operation.write.inj hwrite).2.1 hx

/-! ## Runs -/

theorem Follows.after (hkey : Plain key) : ∀ (ops : List Operation) {g : Engine Surface H W},
    g.Follows key x d light → (∀ id i, .start id i ∈ ops → i.Names key x d id ∧ i.Puts light id) →
    (g.after ops).Follows key x d light
  | [], _, hg, _ => hg
  | op :: ops, _, hg, hs =>
    Follows.after hkey ops
      (hg.perform hkey fun id i h => hs id i (h ▸ List.mem_cons_self))
      fun id i h => hs id i (List.mem_cons_of_mem op h)

/-- **After a write of the variable, as long as its instance is not started again, the element shows the stored
value.** -/
theorem ShowsStored.after (hkey : Plain key) : ∀ (ops : List Operation) {g : Engine Surface H W},
    g.Follows key x d light → g.Has key x d → (∀ id i, .start id i ∈ ops → i.Names key x d id ∧ i.Puts light id) →
    (∀ i, .start key.instanceId i ∉ ops) →
    (g.ShowsStored key x d ∨ ∃ value, .write key.instanceId x value ∈ ops) → (g.after ops).ShowsStored key x d
  | [], _, _, _, _, _, h => by
    rcases h with h | ⟨value, h⟩
    · exact h
    · simp at h
  | op :: ops, g, hg, hhas, hs, hno, h => by
    have hop : ∀ i, op ≠ .start key.instanceId i := fun i he => hno i (he ▸ List.mem_cons_self)
    have hg' : (g.perform op).Follows key x d light := hg.perform hkey fun id i he => hs id i (he ▸ List.mem_cons_self)
    refine ShowsStored.after hkey ops hg' (hhas.perform hkey hop) (fun id i h => hs id i (List.mem_cons_of_mem op h))
      (fun i h => hno i (List.mem_cons_of_mem op h)) ?_
    rcases h with h | ⟨value, h⟩
    · exact .inl (ShowsStored.perform hkey hg hhas hop (.inl h))
    · rcases List.mem_cons.1 h with h | h
      · exact .inl (ShowsStored.perform hkey hg hhas hop (.inr ⟨value, h.symm⟩))
      · exact .inr ⟨value, h⟩

/-- **A variable is written after the last start of its instance**, whose table has the element; all instances that are
started leave the element to the variable. -/
structure Writes (key : NodeKey) (x : String) (d : Dependency) (light : String → Prop) (ops : List Operation) : Prop
    where
  names : ∀ id i, .start id i ∈ ops → i.Names key x d id ∧ i.Puts light id
  written : ∃ before inst since, ops = before ++ .start key.instanceId inst :: since ∧ inst.Has key x d ∧
    (∀ i, .start key.instanceId i ∉ since) ∧ ∃ value, .write key.instanceId x value ∈ since

theorem Writes.shows (hkey : Plain key) (hg : g.Follows key x d light) {ops : List Operation}
    (h : Writes key x d light ops) : (g.after ops).ShowsStored key x d := by
  obtain ⟨before, inst, since, rfl, hhas, hno, hwritten⟩ := h.written
  have hbefore := hg.after hkey before fun id i hi => h.names id i (List.mem_append_left _ hi)
  have hstarted : ((g.after before).perform (.start key.instanceId inst)).Follows key x d light :=
    hbefore.perform hkey fun id i hi => h.names id i (List.mem_append_right _ (hi ▸ List.mem_cons_self))
  rw [after_append]
  refine ShowsStored.after hkey since hstarted (fun i hi => ?_)
    (fun id i hi => h.names id i (List.mem_append_right _ (List.mem_cons_of_mem _ hi))) hno (.inr hwritten)
  change (Table.insert _ key.instanceId inst).get? key.instanceId = some i at hi
  rw [Table.get?_insert_self] at hi
  rw [← Option.some.inj hi]
  exact hhas

theorem ShowsStored.samePage {g' : Engine Surface H W} (h : g.ShowsStored key x d) (hpage : SamePage g g') :
    g'.ShowsStored key x d := by
  intro i v hi hv
  rw [← hpage.surface]
  refine h i v ?_ hv
  rw [← hi]
  unfold instance?
  rw [hpage.instances]

end Engine

/-- **An answer reports a write of the variable after the last start of its instance**, whose table has the element; all
instances that the session and its handlers start leave the element to the variable. -/
structure Session.Writes (key : NodeKey) (x : String) (d : Dependency) (light : String → Prop) (g : SessionEngine)
    (calls : List (String × Call)) : Prop where
  names : ∀ id i, Starts g.handlers calls id i → i.Names key x d id ∧ i.Puts light id
  written : ∃ before c inst since, calls = before ++ c :: since ∧ c.2.Starts c.1 key.instanceId inst ∧
    inst.Has key x d ∧ (∀ i, ¬ Starts g.handlers since key.instanceId i) ∧
    ReportsWrite (afterCalls g (before ++ [c])) since key.instanceId x

/-- **A write that is reported is made.** -/
theorem Session.Writes.operations {key : NodeKey} {x : String} {d : Dependency} {light : String → Prop}
    {g : SessionEngine} {calls : List (String × Call)} (h : Session.Writes key x d light g calls) :
    Engine.Writes key x d light (operations g calls) where
  names id i hi := h.names id i ((tells_operations g calls).started id i hi)
  written := by
    obtain ⟨before, c, inst, since, rfl, hc, hhas, hno, hreports⟩ := h.written
    have hstart : callOperations (afterCalls g before) c.1 c.2 = [.start key.instanceId inst] := by
      unfold callOperations
      rw [requestOperations_of_started hc.2, ← hc.1]
    have hops : Session.operations g (before ++ c :: since) = Session.operations g before ++
        .start key.instanceId inst :: Session.operations (afterCalls g (before ++ [c])) since := by
      rw [operations_append, Session.operations, hstart, afterCalls_append]
      rfl
    refine ⟨_, inst, _, hops, hhas, fun i hi => hno i ?_, hreports.exists_write⟩
    rw [← handlers_afterCalls g (before ++ [c])]
    exact (tells_operations _ since).started _ i hi

namespace Engine

/-- **The page does not drift from the store**: after a run in which a variable has been written since its instance was
last started, an element that depends on it alone shows the stored value.  A session is made up of operations, among
which are all writes that the answers to its calls report, those of interactions and of writes to all instances
included; so the element shows the stored value after every session in which a handler has written the variable or an
answer reports that it was written. -/
theorem shows_stored_of_written (page : List Markup) (options : Options) {key : NodeKey} {x : String} {d : Dependency}
    (hkey : Plain key) (hpage : (Surface.ofMarkup page).Clean) :
    (∀ {H W : Type} (handlers : Handlers H) (host : W) (ops : List Operation),
      Writes key x d (Surface.ofMarkup page).BareExternal ops →
        ((mounted page options handlers host).after ops).ShowsStored key x d) ∧
    ∀ (handlers : Handlers Session.ScriptedHandler) (calls : List (String × Session.Call)),
      Session.MadeUp (Session.opened page options handlers) calls
          (Session.operations (Session.opened page options handlers) calls) ∧
        (Writes key x d (Surface.ofMarkup page).BareExternal
            (Session.operations (Session.opened page options handlers) calls) →
          (Session.afterCalls (Session.opened page options handlers) calls).ShowsStored key x d) ∧
        (Session.Writes key x d (Surface.ofMarkup page).BareExternal (Session.opened page options handlers) calls →
          (Session.afterCalls (Session.opened page options handlers) calls).ShowsStored key x d) := by
  have hruns : ∀ {H W : Type} (handlers : Handlers H) (host : W) (ops : List Operation),
      Writes key x d (Surface.ofMarkup page).BareExternal ops →
        ((mounted page options handlers host).after ops).ShowsStored key x d := by
    intro H W handlers host ops h
    have hfollows : (mounted page options handlers host).Follows key x d (Surface.ofMarkup page).BareExternal :=
      ⟨rfl, hpage.settled (Surface.forest_ofMarkup page) key.text, fun id i hi => (by cases hi),
        fun id i hi => by cases hi⟩
    exact h.shows hkey hfollows
  refine ⟨hruns, fun handlers calls => ?_⟩
  have hmade := Session.madeUp_operations (Session.opened page options handlers) calls
  have hshows : Writes key x d (Surface.ofMarkup page).BareExternal
      (Session.operations (Session.opened page options handlers) calls) →
        (Session.afterCalls (Session.opened page options handlers) calls).ShowsStored key x d := fun h =>
    (hruns handlers [] _ h).samePage hmade.page
  exact ⟨hmade, hshows, fun h => hshows h.operations⟩

/-- A label, a list, and a box whose slots can be used again. -/
def pinnedPage : List Markup :=
  [{ tag := "ul", id := "root:main"
     children :=
      [{ tag := "div", id := "box:main", children := [{ tag := "i" }, { tag := "i" }] },
       { tag := "p", id := "label:main", externalId := "o:main" },
       { tag := "li", id := "a:dummy:main" }] }]

/-- Variables for the three, and places for the label. -/
def pinned (registrations : List Registration) : Instance where
  store := .ofList [("x", { value := "1", dependents := .ofList [("label", [.value])] }),
    ("y", { dependents := .ofList [("a:dummy", [.value])] }), ("z", { dependents := .ofList [("box", [.value])] })]
  externals := { registrations }

def pinnedWrites : List Operation :=
  [.write "main" "z" (.text "0"), .write "main" "x" (.text "1"), .write "main" "y" (.text "p"),
    .write "main" "x" (.text "2"), .write "main" "y" (.text "q")]

theorem clean_pinnedPage : (Surface.ofMarkup pinnedPage).Clean :=
  ⟨by decide +kernel, by decide +kernel, by decide +kernel⟩

theorem plain_label : Plain ⟨"label", "main"⟩ := ⟨by decide, by decide, by decide⟩

theorem names_pinned (registrations : List Registration) :
    (pinned registrations).Names ⟨"label", "main"⟩ "x" .value "main" where
  colonFree := by decide
  only {name v e} hv he ht := by
    have hmem : (name, v) ∈ [("x", _), ("y", _), ("z", _)] := Table.get?_eq_some.1 hv
    obtain he1 : e.1 = "label" := NodeKey.text_inj_of_instance ht
    simp only [List.mem_cons, Prod.mk.injEq, List.not_mem_nil, or_false] at hmem
    rcases hmem with ⟨rfl, rfl⟩ | ⟨rfl, rfl⟩ | ⟨rfl, rfl⟩
    · obtain rfl := List.mem_singleton.1 he
      exact ⟨rfl, rfl, rfl⟩
    · obtain rfl := List.mem_singleton.1 he
      exact absurd he1 (by decide)
    · obtain rfl := List.mem_singleton.1 he
      exact absurd he1 (by decide)

theorem has_pinned (registrations : List Registration) : (pinned registrations).Has ⟨"label", "main"⟩ "x" .value :=
  ⟨_, rfl, List.mem_singleton.2 rfl⟩

/-- Every message writes the label. -/
def pinnedHandlers : Handlers Session.ScriptedHandler :=
  { fallback := some (.host { calls := [⟨none, .write "x" (.text "2")⟩] }) }

/-- An interaction sets the variable to the text that it has, and a message and a write to all instances follow. -/
def pinnedCalls : List (String × Session.Call) :=
  [("main", ⟨none, .start (pinned []) []⟩),
    ("main", ⟨none, .dispatch
      [{ action := "set-value", target := some "x"
         parameters := .ofList [("value", [{ value := .str "1" }])] }] none⟩),
    ("main", ⟨none, .message "show" none none⟩), ("main", ⟨none, .setForAll "y" (.text "p")⟩)]

theorem writes_pinned {writes : List Operation} (hwrites : ∀ id i, .start id i ∉ writes)
    (hx : ∃ value, .write "main" "x" value ∈ writes) :
    Writes ⟨"label", "main"⟩ "x" .value (Surface.ofMarkup pinnedPage).BareExternal (.start "main" (pinned []) :: writes)
    where
  names id i h := by
    rcases List.mem_cons.1 h with h | h
    · obtain ⟨rfl, rfl⟩ := Operation.start.inj h
      exact ⟨names_pinned [], fun r hr => absurd hr List.not_mem_nil⟩
    · exact absurd h (hwrites id i)
  written := ⟨[], pinned [], writes, rfl, has_pinned [], fun i => hwrites "main" i, hx⟩

/-- The handlers start no instance. -/
theorem starts_pinned {calls : List (String × Session.Call)} {id : String} {i : Instance}
    (h : Session.Starts pinnedHandlers calls id i) : ∃ c ∈ calls, c.2.Starts c.1 id i := by
  rcases h with h | ⟨name, handler, hh, c, hc, current, hs⟩
  · exact h
  · cases hh
    obtain rfl := List.mem_singleton.1 hc
    cases hs.2

/-- The interaction is answered with a write of the variable. -/
theorem writes_pinnedCalls : Session.Writes ⟨"label", "main"⟩ "x" .value (Surface.ofMarkup pinnedPage).BareExternal
    (Session.opened pinnedPage {} pinnedHandlers) (pinnedCalls.take 2) where
  names id i h := by
    obtain ⟨c, hc, hid, hi⟩ := starts_pinned h
    simp only [pinnedCalls, List.take, List.mem_cons, List.not_mem_nil, or_false] at hc
    rcases hc with rfl | rfl
    · obtain rfl := Option.some.inj hi
      rw [hid]
      exact ⟨names_pinned [], fun r hr => absurd hr List.not_mem_nil⟩
    · cases hi
  written := by
    refine ⟨[], _, pinned [], _, rfl, ⟨rfl, rfl⟩, has_pinned [], fun i h => ?_, [], _, [], _, _, rfl,
      List.mem_singleton.2 rfl, rfl, rfl⟩
    obtain ⟨c, hc, -, hi⟩ := starts_pinned h
    obtain rfl := List.mem_singleton.1 hc
    cases hi

/-- The label shows what was written last, also where an interaction left the text of the variable as it was. -/
theorem shows_stored_pinned :
    ((mounted pinnedPage {} (∅ : Handlers Empty) ()).after (.start "main" (pinned []) :: pinnedWrites)).ShowsStored
        ⟨"label", "main"⟩ "x" .value ∧
      (Session.afterCalls (Session.opened pinnedPage {} pinnedHandlers) (pinnedCalls.take 2)).ShowsStored
        ⟨"label", "main"⟩ "x" .value ∧
      (Session.afterCalls (Session.opened pinnedPage {} pinnedHandlers) pinnedCalls).ShowsStored
        ⟨"label", "main"⟩ "x" .value := by
  obtain ⟨hruns, hsessions⟩ :=
    shows_stored_of_written pinnedPage {} plain_label clean_pinnedPage (x := "x") (d := .value)
  refine ⟨hruns ∅ () _ (writes_pinned ?_ ?_), (hsessions pinnedHandlers _).2.2 writes_pinnedCalls,
    (hsessions pinnedHandlers _).2.1 ?_⟩
  · simp [pinnedWrites]
  · exact ⟨.text "2", by simp [pinnedWrites]⟩
  · have hall : Session.operations (Session.opened pinnedPage {} pinnedHandlers) pinnedCalls =
        [.start "main" (pinned []), .write "main" "x" (.text "1"), .write "main" "x" (.text "2"),
          .write "main" "y" (.text "p")] := rfl
    rw [hall]
    exact writes_pinned (by simp) ⟨.text "1", by simp⟩

/-- **A label that is placed in a template is copied with it.**  A write finds the copy, and the label keeps the value
before. -/
theorem not_shows_stored_external :
    Plain ⟨"label", "main"⟩ ∧ (Surface.ofMarkup pinnedPage).Clean ∧
    (pinned [⟨"o", "a:dummy", []⟩]).Names ⟨"label", "main"⟩ "x" .value "main" ∧
    (pinned [⟨"o", "a:dummy", []⟩]).Has ⟨"label", "main"⟩ "x" .value ∧
    ¬ ((mounted pinnedPage {} (∅ : Handlers Empty) ()).after
      (.start "main" (pinned [⟨"o", "a:dummy", []⟩]) :: pinnedWrites)).ShowsStored ⟨"label", "main"⟩ "x" .value := by
  refine ⟨plain_label, clean_pinnedPage, names_pinned _, has_pinned _, fun h => ?_⟩
  have hstored : ((((mounted pinnedPage {} (∅ : Handlers Empty) ()).after (.start "main"
      (pinned [⟨"o", "a:dummy", []⟩]) :: pinnedWrites)).instance? "main").bind fun i =>
        i.store.value? "x") = some "2" := by
    decide +kernel
  obtain ⟨i, hi, hvalue⟩ := Option.bind_eq_some_iff.1 hstored
  obtain ⟨v, hv, hval⟩ := Option.map_eq_some_iff.1 hvalue
  have htext := (h i v hi hv 4 (by decide +kernel) (by decide +kernel)).1 rfl
  rw [hval] at htext
  exact absurd htext (by decide +kernel)

end Engine
end BoundPage
