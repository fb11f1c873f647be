import BoundPage.Proofs.Engine.Sessions
import BoundPage.Proofs.Engine.Stages
import BoundPage.Proofs.Surface.Orderly
import BoundPage.Proofs.Write.Changes
/-!
# When a page stays a forest

Operations keep a page a forest with two exceptions: a list is rebuilt whose template lies inside one of its old items,
and an external child is placed under a slot inside itself.  A run without them (`Tidy`) goes through orderly pages
only, and one with them through a page that is not orderly (`orderly_iff_tidy`).
-/
namespace BoundPage
open RenderTarget

namespace ExternalChildren

variable {s t : Surface} {slot n : Slot}

theorem own_moveUnder (hs : (t.node slot).live) (hn : (t.node n).live) (k : Slot) :
    ((moveUnder slot t n).node k).own = (t.node k).own := by
  unfold moveUnder
  split
  · rfl
  · exact Surface.own_append hs hn k

theorem parent_moveUnder (hs : (t.node slot).live) (hn : (t.node n).live) (k : Slot) :
    ((moveUnder slot t n).node k).parent = if k = n then some slot else (t.node k).parent := by
  unfold moveUnder
  split
  · next hp =>
    split
    · next hk =>
      rw [hk]
      exact hp
    · rfl
  · exact Surface.parent_append hs hn k

theorem linked_moveUnder (ht : t.Linked) (hs : (t.node slot).live) (hn : (t.node n).live) :
    (moveUnder slot t n).Linked := by
  unfold moveUnder
  split
  · exact ht
  · exact ht.append hs hn

/-- **A move leaves a forest exactly if the slot is not inside what is moved.** -/
theorem forest_moveUnder_iff (ht : t.Forest) (hs : (t.node slot).live) (hn : (t.node n).live) :
    (moveUnder slot t n).Forest ↔ slot ∉ t.subtree n := by
  rw [ht.mem_subtree hn]
  unfold moveUnder
  split
  · next hp => exact ⟨fun _ => ht.toRooted.not_below_parent hp, fun _ => ht⟩
  · exact Surface.forest_append_iff ht hs hn

theorem own_foldl_moveUnder : ∀ (ns : List Slot) (t : Surface), (t.node slot).live → (∀ n ∈ ns, (t.node n).live) →
    ∀ k, ((ns.foldl (moveUnder slot) t).node k).own = (t.node k).own
  | [], _, _, _, _ => rfl
  | n :: ns, t, hs, hns, k => by
    have hown := own_moveUnder hs (hns n List.mem_cons_self)
    rw [List.foldl_cons, own_foldl_moveUnder ns _ (by rw [Node.live_eq (hown slot)]; exact hs)
      (fun m hm => by rw [Node.live_eq (hown m)]; exact hns m (List.mem_cons_of_mem n hm)), hown]

theorem locateExternal_live {key : NodeKey} (h : n ∈ locateExternal s key) : (s.node n).live :=
  (Surface.mem_liveSlots s).1 (List.mem_filter.1 h).1

/-- **A node of the object is moved to the slot of a registration**; both nodes are there. -/
theorem Moves.nodes {c : ExternalChildren} {id : String} {r : Registration} (h : c.Moves s id r slot n t) :
    r ∈ c.registrations ∧
      ((t.node slot).live ∧ (t.node slot).id = some (NodeKey.text ⟨r.slot, id⟩)) ∧
      (t.node n).live ∧ (t.node n).externalId = some (NodeKey.text ⟨r.object, id⟩) := by
  obtain ⟨pre, post, before, after, hr, -, -, hs, hn, rfl⟩ := h
  obtain ⟨hslot, hslotId⟩ := ListRegion.locate_live hs
  have hnodes : ∀ m ∈ before ++ n :: after, m ∈ locateExternal (c.progress s id pre).surface ⟨r.object, id⟩ :=
    fun m hm => by
      rw [hn]
      exact hm
  have hmem := hnodes n (List.mem_append_right _ List.mem_cons_self)
  have hext : ((c.progress s id pre).surface.node n).externalId = some (NodeKey.text ⟨r.object, id⟩) := by
    simpa using (List.mem_filter.1 hmem).2
  have hown := own_foldl_moveUnder before _ hslot fun m hm => locateExternal_live (hnodes m (List.mem_append_left _ hm))
  refine ⟨by rw [hr]; simp, ⟨?_, ?_⟩, ?_, ?_⟩
  · rw [Node.live_eq (hown slot), hslot]
  · rw [Node.id_eq (hown slot), hslotId]
  · rw [Node.live_eq (hown n), locateExternal_live hmem]
  · rw [Node.externalId_eq (hown n), hext]

theorem Moves.live {c : ExternalChildren} {id : String} {r : Registration} (h : c.Moves s id r slot n t) :
    (t.node slot).live ∧ (t.node n).live := ⟨h.nodes.2.1.1, h.nodes.2.2.1⟩

theorem Moves.ids {c : ExternalChildren} {id : String} {r : Registration} (h : c.Moves s id r slot n t) :
    r ∈ c.registrations ∧ (t.node slot).id = some (NodeKey.text ⟨r.slot, id⟩) ∧
      (t.node n).externalId = some (NodeKey.text ⟨r.object, id⟩) := ⟨h.nodes.1, h.nodes.2.1.2, h.nodes.2.2.2⟩

end ExternalChildren

namespace Engine

variable {H W : Type} {g : Engine Surface H W} {op : Operation}

/-! ## One operation -/

/-- **The pages that an operation goes through**: before it and after it, at every stage of its pass, and before and
after every move of its placement. -/
inductive GoesThrough (g : Engine Surface H W) (op : Operation) : Surface → Prop
  | first : GoesThrough g op g.surface
  | last : GoesThrough g op (g.perform op).surface
  | stage {p e left st} : g.passOf? op = some p → p.At g.surface e left st → GoesThrough g op st.surface
  | before {c r slot n t} : g.placementOf? op = some c → c.children.Moves c.page c.instanceId r slot n t →
    GoesThrough g op t
  | moved {c r slot n t} : g.placementOf? op = some c → c.children.Moves c.page c.instanceId r slot n t →
    GoesThrough g op (ExternalChildren.moveUnder slot t n)

/-- **No rebuilt list loses its template with its old items, and nothing is placed inside itself.** -/
structure Tidy (g : Engine Surface H W) (op : Operation) : Prop where
  lists : ∀ p, g.passOf? op = some p → ∀ e left st template, p.At g.surface e (.value :: left) st →
    p.Rebuilds (p.key e.1) st.surface template → p.KeepsTemplate (p.key e.1) st.table st.surface template
  places : ∀ c, g.placementOf? op = some c → ∀ r slot n t, c.children.Moves c.page c.instanceId r slot n t →
    slot ∉ t.subtree n

/-- Whatever holds at the beginning and is kept by every dependency and every move holds on all pages that an operation
goes through. -/
theorem goesThrough_induction {I : Surface → Prop} (h0 : I g.surface)
    (hpass : ∀ p, g.passOf? op = some p → ∀ e d left st st', p.At g.surface e (d :: left) st → I st.surface →
      p.applyOne (p.key e.1) e.2 d st = .ok st' → I st'.surface)
    (hmove : ∀ c, g.placementOf? op = some c → ∀ r slot n t, c.children.Moves c.page c.instanceId r slot n t → I t →
      I (ExternalChildren.moveUnder slot t n)) {s : Surface} (h : g.GoesThrough op s) : I s := by
  have hrun : ∀ p, g.passOf? op = some p → (∀ e left st, p.At g.surface e left st → I st.surface) ∧
      I (p.run g.surface).surface := fun p hp =>
    Pass.run_induction (I := fun s _ _ => I s) h0 (hpass p hp)
  have hplace : ∀ c, g.placementOf? op = some c →
      ∀ r slot n t, c.children.Moves c.page c.instanceId r slot n t → I t := fun c hc => by
    refine (ExternalChildren.moves_induction ?_ (hmove c hc)).1
    rw [(placementOf?_eq_some hc).1]
    cases hp : g.passOf? op with
    | none => exact h0
    | some p => exact (hrun p hp).2
  cases h with
  | first => exact h0
  | last => exact perform_induction (fun _ => h0) (fun p hp => (hrun p hp).2) hmove
  | stage hp hst => exact (hrun _ hp).1 _ _ _ hst
  | before hc hm => exact hplace _ hc _ _ _ _ hm
  | moved hc hm => exact hmove _ hc _ _ _ _ hm (hplace _ hc _ _ _ _ hm)

theorem linked_goesThrough (he : g.effector = inlineStyles) (hs : g.surface.Linked) {s : Surface}
    (h : g.GoesThrough op s) : s.Linked :=
  goesThrough_induction (I := Surface.Linked) hs
    (fun _ hp _ _ _ _ _ _ hI hok => (Pass.change_of_applyOne hok).linked ((effector_passOf? hp).trans he) hI)
    (fun _ _ _ _ _ _ hm hI => ExternalChildren.linked_moveUnder hI hm.live.1 hm.live.2) h

/-- **An operation goes through forests exactly if it is tidy.** -/
theorem forest_iff_tidy (he : g.effector = inlineStyles) (hs : g.surface.Forest) :
    (∀ s, g.GoesThrough op s → s.Forest) ↔ g.Tidy op := by
  constructor
  · intro h
    refine ⟨fun p hp e left st template hst hr => ?_, fun c hc r slot n t hm => ?_⟩
    · obtain ⟨st', hst', hst's⟩ := hst.rebuilt hr
      have hf := h _ (.stage hp hst')
      rw [hst's] at hf
      exact (Pass.forest_refilled_iff (h _ (.stage hp hst)) hr).1 hf
    · exact (ExternalChildren.forest_moveUnder_iff (h _ (.before hc hm)) hm.live.1 hm.live.2).1 (h _ (.moved hc hm))
  · intro h s hgo
    refine goesThrough_induction (I := Surface.Forest) hs (fun p hp e d left st st' hst hI hok => ?_)
      (fun c hc r slot n t hm hI => ?_) hgo
    · refine (Pass.change_of_applyOne hok).forest ((effector_passOf? hp).trans he) hI fun template hd hr => ?_
      subst hd
      exact h.lists p hp e left st template hst hr
    · exact (ExternalChildren.forest_moveUnder_iff hI hm.live.1 hm.live.2).2 (h.places c hc r slot n t hm)

/-! ## Runs -/

theorem effector_perform (g : Engine Surface H W) (op : Operation) : (g.perform op).effector = g.effector := by
  cases op with
  | start id inst => rfl
  | teardown id =>
    show (g.teardown id).state.effector = _
    unfold teardown
    split <;> rfl
  | write id name value =>
    show (g.write id name value).state.effector = _
    unfold write
    split <;> rfl
  | refresh id =>
    show (g.refresh id).state.effector = _
    unfold refresh
    split <;> rfl

theorem effector_after : ∀ (ops : List Operation) (g : Engine Surface H W), (g.after ops).effector = g.effector
  | [], _ => rfl
  | op :: ops, g => (effector_after ops (g.perform op)).trans (effector_perform g op)

theorem linked_after (he : g.effector = inlineStyles) (hs : g.surface.Linked) (ops : List Operation) :
    (g.after ops).surface.Linked := by
  induction ops generalizing g with
  | nil => exact hs
  | cons op ops ih => exact ih ((effector_perform g op).trans he) (linked_goesThrough he hs .last)

/-- The pages that a run goes through. -/
def RunsThrough (g : Engine Surface H W) (ops : List Operation) (s : Surface) : Prop :=
  s = g.surface ∨ ∃ pre op post, ops = pre ++ op :: post ∧ (g.after pre).GoesThrough op s

/-- Every operation of a run is tidy. -/
def TidyRun (g : Engine Surface H W) (ops : List Operation) : Prop :=
  ∀ pre op post, ops = pre ++ op :: post → (g.after pre).Tidy op

theorem runsThrough_cons {ops : List Operation} {s : Surface} :
    g.RunsThrough (op :: ops) s ↔ g.GoesThrough op s ∨ (g.perform op).RunsThrough ops s := by
  constructor
  · rintro (rfl | ⟨pre, op', post, hops, hgo⟩)
    · exact .inl .first
    · cases pre with
      | nil =>
        obtain ⟨rfl, rfl⟩ := List.cons.inj hops
        exact .inl hgo
      | cons o pre =>
        obtain ⟨rfl, rfl⟩ := List.cons.inj hops
        exact .inr (.inr ⟨pre, op', post, rfl, hgo⟩)
  · rintro (h | rfl | ⟨pre, op', post, rfl, hgo⟩)
    · exact .inr ⟨[], op, ops, rfl, h⟩
    · exact .inr ⟨[], op, ops, rfl, .last⟩
    · exact .inr ⟨op :: pre, op', post, rfl, hgo⟩

theorem tidyRun_cons {ops : List Operation} : g.TidyRun (op :: ops) ↔ g.Tidy op ∧ (g.perform op).TidyRun ops := by
  constructor
  · exact fun h => ⟨h [] op ops rfl, fun pre op' post hops => h (op :: pre) op' post (by rw [hops]; rfl)⟩
  · rintro ⟨h, hrest⟩ pre op' post hops
    cases pre with
    | nil =>
      obtain ⟨rfl, rfl⟩ := List.cons.inj hops
      exact h
    | cons o pre =>
      obtain ⟨rfl, rfl⟩ := List.cons.inj hops
      exact hrest pre op' post rfl

theorem linked_runsThrough : ∀ {ops : List Operation} {g : Engine Surface H W} {s : Surface},
    g.effector = inlineStyles → g.surface.Linked → g.RunsThrough ops s → s.Linked
  | [], _, _, _, hs, h => by
    rcases h with rfl | ⟨pre, op, post, hops, -⟩
    · exact hs
    · simp at hops
  | op :: ops, g, s, he, hs, h => by
    rcases runsThrough_cons.1 h with h | h
    · exact linked_goesThrough he hs h
    · exact linked_runsThrough ((effector_perform g op).trans he) (linked_goesThrough he hs .last) h

theorem forest_iff_tidyRun : ∀ {ops : List Operation} {g : Engine Surface H W}, g.effector = inlineStyles →
    g.surface.Forest → ((∀ s, g.RunsThrough ops s → s.Forest) ↔ g.TidyRun ops)
  | [], _, _, hs => by
    refine ⟨fun _ pre op post hops => by simp at hops, fun _ s h => ?_⟩
    rcases h with rfl | ⟨pre, op, post, hops, -⟩
    · exact hs
    · simp at hops
  | op :: ops, g, he, hs => by
    have he' := (effector_perform g op).trans he
    rw [tidyRun_cons, ← forest_iff_tidy he hs]
    constructor
    · intro h
      have hop : ∀ s, g.GoesThrough op s → s.Forest := fun s hgo => h s (runsThrough_cons.2 (.inl hgo))
      exact ⟨hop, (forest_iff_tidyRun he' (hop _ .last)).1 fun s hgo => h s (runsThrough_cons.2 (.inr hgo))⟩
    · rintro ⟨hop, hrest⟩ s hgo
      rcases runsThrough_cons.1 hgo with hgo | hgo
      · exact hop s hgo
      · exact (forest_iff_tidyRun he' (hop _ .last)).2 hrest s hgo

/-- The engine of a page that has just been mounted. -/
def mounted (page : List Markup) (options : Options) (handlers : Handlers H) (host : W) : Engine Surface H W :=
  { (Engine.new (.ofMarkup page) host : Engine Surface H W) with options, handlers }

end Engine

namespace Session

/-- The engine of a session with a page that has just been mounted. -/
abbrev opened (page : List Markup) (options : Options) (handlers : Handlers ScriptedHandler) : SessionEngine :=
  Engine.mounted page options handlers []

/-- The pages that a session goes through, those within its calls and its handlers' calls included. -/
def GoesThrough (g : SessionEngine) (calls : List (String × Call)) (s : Surface) : Prop :=
  g.RunsThrough (operations g calls) s

/-- Every operation of a session is tidy. -/
def Tidy (g : SessionEngine) (calls : List (String × Call)) : Prop := g.TidyRun (operations g calls)

end Session

namespace Engine

variable {H W : Type}

/-- **The page stays orderly exactly as long as the run is tidy**, in a run of operations and in a session, which is
made up of operations. -/
theorem orderly_iff_tidy (page : List Markup) (options : Options) :
    (∀ {H W : Type} (handlers : Handlers H) (host : W) (ops : List Operation),
      (∀ s, (mounted page options handlers host).RunsThrough ops s → s.Orderly) ↔
        (mounted page options handlers host).TidyRun ops) ∧
    ∀ (handlers : Handlers Session.ScriptedHandler) (calls : List (String × Session.Call)),
      Session.MadeUp (Session.opened page options handlers) calls
          (Session.operations (Session.opened page options handlers) calls) ∧
        ((∀ s, Session.GoesThrough (Session.opened page options handlers) calls s → s.Orderly) ↔
          Session.Tidy (Session.opened page options handlers) calls) := by
  have hruns : ∀ {H W : Type} (handlers : Handlers H) (host : W) (ops : List Operation),
      (∀ s, (mounted page options handlers host).RunsThrough ops s → s.Orderly) ↔
        (mounted page options handlers host).TidyRun ops := by
    intro H W handlers host ops
    have hs : (mounted page options handlers host).surface.Forest := Surface.forest_ofMarkup page
    have he : (mounted page options handlers host).effector = inlineStyles := rfl
    rw [← forest_iff_tidyRun he hs]
    refine forall_congr' fun s => ?_
    constructor
    · exact fun h hgo => (Surface.orderly_iff_forest (linked_runsThrough he hs.toLinked hgo)).1 (h hgo)
    · exact fun h hgo => (h hgo).orderly
  exact ⟨hruns, fun handlers calls => ⟨Session.madeUp_operations _ calls, hruns handlers [] _⟩⟩

/-- A popup with its own slot inside. -/
def boxedPage : List Markup :=
  [{ tag := "div", id := "root:main"
     children := [{ tag := "div", id := "box:main", externalId := "popup:main"
                    children := [{ tag := "p", id := "slot:main" }] }] }]

def boxedPopup : Instance := { externals := { registrations := [{ object := "popup", slot := "slot" }] } }

/-- A list with its template inside an old item. -/
def swallowingPage : List Markup :=
  [{ tag := "ul", id := "root:main"
     children := [{ tag := "li", id := "list,0:new:main"
                    children := [{ tag := "li", id := "list:dummy:main", text := "$loop$" }] }] }]

def swallowingList : Instance :=
  { store := .ofList [("x", { dependents := .ofList [("list,0:new", []), ("list:dummy", [.value])] })] }

/-- **Both exceptions occur.**  The popup is not reached from the root any more when it has been placed, and the list
leaves a removed node among the roots. -/
theorem not_orderly_untidy :
    ¬ ((mounted boxedPage {} (∅ : Handlers Empty) ()).after
        [.start "main" boxedPopup, .refresh "main"]).surface.Orderly ∧
    ¬ ((mounted swallowingPage {} (∅ : Handlers Empty) ()).after
        [.start "main" swallowingList, .write "main" "x" (.text "a")]).surface.Orderly := by
  constructor
  · intro h
    have hlen := h.reached_once.length_eq
    exact absurd hlen (by decide +kernel)
  · intro h
    have hroot := (h.root_iff 2).1 (by decide +kernel)
    exact absurd hroot.1 (by decide +kernel)

end Engine
end BoundPage
