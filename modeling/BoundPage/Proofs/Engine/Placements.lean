import BoundPage.Proofs.Engine.Forests
/-!
# External children are placed once

What has been placed is only added to, and an object that is in it is not looked at again (`ExternalChildren.Grows`).
So between the start of an instance and its end every object is reported at most once, by whichever operation places
it, and its nodes rest where they were put as far as placements go (`placed_once`).
-/
namespace BoundPage
open RenderTarget

namespace ExternalChildren

/-- **Some objects have been placed beside those that were**, each once. -/
structure Grows (c c' : ExternalChildren) (placed : List String) : Prop where
  registrations : c'.registrations = c.registrations
  placed_eq : c'.placed = c.placed ++ placed
  nodup : placed.Nodup
  fresh : ∀ object ∈ placed, object ∉ c.placed

namespace Grows

variable {c c' c'' : ExternalChildren} {placed placed' : List String}

theorem refl (c : ExternalChildren) : Grows c c [] := ⟨rfl, (List.append_nil _).symm, List.nodup_nil, nofun⟩

theorem trans (h : Grows c c' placed) (h' : Grows c' c'' placed') : Grows c c'' (placed ++ placed') where
  registrations := h'.registrations.trans h.registrations
  placed_eq := by rw [h'.placed_eq, h.placed_eq, List.append_assoc]
  nodup := by
    rw [List.nodup_append]
    refine ⟨h.nodup, h'.nodup, fun a ha b hb hab => h'.fresh b hb ?_⟩
    rw [h.placed_eq]
    exact List.mem_append_right _ (hab ▸ ha)
  fresh object ho hc := by
    rcases List.mem_append.1 ho with ho | ho
    · exact h.fresh object ho hc
    · refine h'.fresh object ho ?_
      rw [h.placed_eq]
      exact List.mem_append_left _ hc

theorem isPlaced (h : Grows c c' placed) {object : String} (ho : c.isPlaced object) : c'.isPlaced object :=
  (isPlaced_append h.placed_eq).2 (.inl ho)

end Grows

/-! ## One placement -/

variable {S : Type} [RenderTarget S]

/-- A registration adds its object, or nothing. -/
theorem Progress.grows_next {c : ExternalChildren} {p : Progress S} (id : String) (r : Registration)
    (h : Grows c p.children p.placed) : Grows c (p.next id r).children (p.next id r).placed := by
  unfold next
  split
  · exact h
  · next hnew =>
    simp only
    split
    · exact h
    · split
      · exact h
      · refine h.trans ⟨rfl, rfl, List.nodup_singleton _, fun object ho hp => hnew ?_⟩
        rw [List.mem_singleton.1 ho] at hp
        simpa [ExternalChildren.isPlaced] using hp

theorem grows_progress (c : ExternalChildren) (s : S) (id : String) (before : List Registration) :
    Grows c (c.progress s id before).children (c.progress s id before).placed := by
  induction before using List.reverseRecOn with
  | nil => exact .refl c
  | append_singleton before r ih =>
    rw [progress_append]
    exact Progress.grows_next id r ih

theorem grows_placePending (c : ExternalChildren) (s : S) (id : String) :
    Grows c (c.placePending s id).children (c.placePending s id).placed := grows_progress c s id c.registrations

/-- **What is moved has not been placed.** -/
theorem Moves.not_placed {c : ExternalChildren} {s t : S} {id : String} {r : Registration} {slot n : Nat}
    (h : c.Moves s id r slot n t) : c.isPlaced r.object = false := by
  obtain ⟨pre, -, -, -, -, hp, -⟩ := h
  by_contra hc
  rw [(grows_progress c s id pre).isPlaced (by simpa using hc)] at hp
  cases hp

end ExternalChildren

theorem Instance.grows_write {S : Type} [RenderTarget S] (effector : StyleEffector S) (options : Options) (id : String)
    (s : S) (i : Instance) (name : String) (value : Scalar) :
    i.externals.Grows (i.write effector options id s name value).inst.externals
      (i.write effector options id s name value).outcome.placed := by
  unfold write
  split
  · exact .refl _
  · exact ExternalChildren.grows_placePending i.externals _ id

/-- The operation neither starts nor ends the instance. -/
def Operation.Leaves (id : String) : Operation → Prop
  | .start other _ => other ≠ id
  | .teardown other => other ≠ id
  | _ => True

namespace Engine
open ExternalChildren (Grows)

variable {H W : Type} {id : String} {i : Instance} {op : Operation} {ops : List Operation}

/-! ## One operation -/

/-- **An operation adds what it reports to what has been placed.** -/
theorem grows_perform {S : Type} [RenderTarget S] {g : Engine S H W} (hi : g.instance? id = some i)
    (hop : op.Leaves id) : ∃ i', (g.perform op).instance? id = some i' ∧
      Grows i.externals i'.externals (g.placedBy op id) := by
  cases op with
  | start other inst =>
    refine ⟨i, ?_, .refl _⟩
    exact (Table.get?_insert_of_ne _ _ (Ne.symm hop)).trans hi
  | teardown other =>
    refine ⟨i, ?_, .refl _⟩
    show (g.teardown other).state.instances.get? id = some i
    unfold teardown
    split
    · rw [Table.get?_erase, if_neg (Ne.symm hop)]
      exact hi
    · exact hi
  | write other name value =>
    show ∃ i', (g.write other name value).state.instance? id = some i' ∧
      Grows i.externals i'.externals (placedFor other (g.write other name value).answer.placed id)
    by_cases ho : id = other
    · subst ho
      unfold write placedFor
      simp only [hi, if_true]
      exact ⟨_, Table.get?_insert_self _ _ _, i.grows_write ..⟩
    · refine ⟨i, ?_, ?_⟩
      · unfold write
        split
        · exact hi
        · exact (Table.get?_insert_of_ne _ _ ho).trans hi
      · unfold placedFor
        rw [if_neg ho]
        exact .refl _
  | refresh other =>
    show ∃ i', (g.refresh other).state.instance? id = some i' ∧
      Grows i.externals i'.externals (placedFor other (g.refresh other).answer id)
    by_cases ho : id = other
    · subst ho
      unfold refresh placedFor
      simp only [hi, if_true]
      exact ⟨_, Table.get?_insert_self _ _ _, ExternalChildren.grows_placePending i.externals _ id⟩
    · refine ⟨i, ?_, ?_⟩
      · unfold refresh
        split
        · exact hi
        · exact (Table.get?_insert_of_ne _ _ ho).trans hi
      · unfold placedFor
        rw [if_neg ho]
        exact .refl _

/-- **A placement moves no node of an object that had been placed.**  A placement of another instance could only do so
if the ids of the two were written with colons. -/
theorem moves_unplaced {g : Engine Surface H W} (hi : g.instance? id = some i) {object : String}
    (ho : i.externals.isPlaced object) {c : Placement Surface} (hc : g.placementOf? op = some c)
    (hid : c.instanceId = id ∨ ':' ∉ c.instanceId.toList ∧ ':' ∉ id.toList) {r : Registration} {slot n : Slot}
    {t : Surface} (hm : c.children.Moves c.page c.instanceId r slot n t) :
    (t.node n).externalId ≠ some (NodeKey.mk object id).text := by
  intro hext
  rw [hm.ids.2.2, Option.some_inj] at hext
  have hkey : c.instanceId = id ∧ r.object = object := by
    rcases hid with hid | ⟨hcolon, hcolon'⟩
    · rw [hid] at hext
      exact ⟨hid, NodeKey.text_inj_of_instance hext⟩
    · have hkeys : NodeKey.mk r.object c.instanceId = ⟨object, id⟩ := NodeKey.text_inj hcolon hcolon' hext
      exact ⟨congrArg NodeKey.instanceId hkeys, congrArg NodeKey.element hkeys⟩
  obtain ⟨-, i', hi', hchildren⟩ := placementOf?_eq_some hc
  rw [hkey.1, hi, Option.some_inj] at hi'
  have hnot := hm.not_placed
  rw [hchildren, ← hi', hkey.2, ho] at hnot
  cases hnot

theorem parent_placePending {c : ExternalChildren} {page : Surface} {id : String} {k : Slot}
    (h : ∀ r slot n t, c.Moves page id r slot n t → n ≠ k) :
    ((c.placePending page id).surface.node k).parent = (page.node k).parent := by
  refine (ExternalChildren.moves_induction (I := fun t : Surface => (t.node k).parent = (page.node k).parent) rfl
    fun r slot n t hm ht => ?_).2
  rw [ExternalChildren.parent_moveUnder hm.live.1 hm.live.2, if_neg (Ne.symm (h r slot n t hm))]
  exact ht

theorem externalId_of_moves {c : ExternalChildren} {page t : Surface} {id : String} {r : Registration} {slot n : Slot}
    (h : c.Moves page id r slot n t) (k : Slot) : (t.node k).externalId = (page.node k).externalId :=
  (ExternalChildren.moves_induction (I := fun t : Surface => (t.node k).externalId = (page.node k).externalId) rfl
    fun _ _ _ _ hm ht => (Node.externalId_eq (ExternalChildren.own_moveUnder hm.live.1 hm.live.2 k)).trans ht).1
    r slot n t h

/-! ## Runs -/

theorem grows_after {S : Type} [RenderTarget S] : ∀ (ops : List Operation) {g : Engine S H W} {i : Instance},
    g.instance? id = some i → (∀ op ∈ ops, op.Leaves id) → ∃ i', (g.after ops).instance? id = some i' ∧
      Grows i.externals i'.externals (g.reported ops id)
  | [], _, i, hi, _ => ⟨i, hi, .refl _⟩
  | op :: ops, g, i, hi, h => by
    obtain ⟨i₁, hi₁, h₁⟩ := grows_perform hi (h op List.mem_cons_self)
    obtain ⟨i₂, hi₂, h₂⟩ := grows_after ops hi₁ fun op' hop => h op' (List.mem_cons_of_mem op hop)
    exact ⟨i₂, hi₂, h₁.trans h₂⟩

/-- The places that the objects of an instance may go to. -/
def registrations? {S : Type} (g : Engine S H W) (id : String) : Option (List Registration) :=
  (g.instance? id).map fun i => i.externals.registrations

/-- Whether an object of an instance has been placed, as a host may ask. -/
def isPlaced? {S : Type} (g : Engine S H W) (id object : String) : Option Bool :=
  (g.instance? id).map fun i => i.externals.isPlaced object

/-- **A placement leaves the nodes of an object where they are.** -/
def Placement.Spares (c : Placement Surface) (key : NodeKey) : Prop :=
  ∀ k, (c.page.node k).externalId = some key.text →
    (∀ r slot t, ¬ c.children.Moves c.page c.instanceId r slot k t) ∧
      ((c.children.placePending c.page c.instanceId).surface.node k).parent = (c.page.node k).parent

/-- **No placement for one instance moves the nodes of an object that has been placed for another.** -/
def Rests (g : Engine Surface H W) (id : String) (ops : List Operation) (placer : String) : Prop :=
  ∀ pre op post object c, ops = pre ++ op :: post → (g.after pre).isPlaced? id object = some true →
    (g.after pre).placementOf? op = some c → c.instanceId = placer → c.Spares ⟨object, id⟩

/-- **The external children of an instance are placed once** in a run of operations. -/
structure PlacesOnce (g : Engine Surface H W) (id : String) (ops : List Operation) : Prop where
  /-- No object is reported a second time. -/
  once : (g.reported ops id).Nodup
  registrations : ∀ pre post, ops = pre ++ post → (g.after pre).registrations? id = g.registrations? id
  /-- What has been placed stays placed. -/
  isPlaced : ∀ pre mid post object, ops = pre ++ mid ++ post → (g.after pre).isPlaced? id object = some true →
    (g.after (pre ++ mid)).isPlaced? id object = some true
  /-- The instance does not move what it has placed. -/
  rests : g.Rests id ops id
  /-- Nor does another instance, unless ids are written with colons. -/
  restsAmong : ∀ other, ':' ∉ other.toList → ':' ∉ id.toList → g.Rests id ops other

theorem isPlaced?_eq_some {S : Type} {g : Engine S H W} {object : String} (h : g.isPlaced? id object = some true) :
    ∃ i, g.instance? id = some i ∧ i.externals.isPlaced object := Option.map_eq_some_iff.1 h

theorem rests_of_ids {g : Engine Surface H W} {placer : String}
    (hplacer : placer = id ∨ ':' ∉ placer.toList ∧ ':' ∉ id.toList) : g.Rests id ops placer := by
  intro pre op post object c hops ho hc hid k hk
  obtain ⟨i₁, hi₁, hplaced⟩ := isPlaced?_eq_some ho
  have hnot : ∀ r slot n t, c.children.Moves c.page c.instanceId r slot n t → n ≠ k := fun r slot n t hm hn => by
    refine moves_unplaced hi₁ hplaced hc (by rwa [hid]) hm ?_
    rw [hn, externalId_of_moves hm k]
    exact hk
  exact ⟨fun r slot t hm => hnot r slot k t hm rfl, parent_placePending hnot⟩

theorem placesOnce_of_leaves {g : Engine Surface H W} (hi : g.instance? id = some i) (h : ∀ op ∈ ops, op.Leaves id) :
    g.PlacesOnce id ops where
  once := (grows_after ops hi h).elim fun _ h => h.2.nodup
  registrations pre post hops := by
    obtain ⟨i', hi', hgrows⟩ := grows_after pre hi fun op hop => h op (hops ▸ List.mem_append_left _ hop)
    unfold registrations?
    rw [hi, hi']
    exact congrArg some hgrows.registrations
  isPlaced pre mid post object hops ho := by
    obtain ⟨i₁, hi₁, hplaced⟩ := isPlaced?_eq_some ho
    obtain ⟨i₂, hi₂, hgrows⟩ := grows_after mid hi₁ fun op hop =>
      h op (hops ▸ List.mem_append_left _ (List.mem_append_right _ hop))
    unfold isPlaced?
    rw [after_append, hi₂]
    exact congrArg some (hgrows.isPlaced hplaced)
  rests := rests_of_ids (.inl rfl)
  restsAmong other hother hid := rests_of_ids (.inr ⟨hother, hid⟩)

end Engine

/-! ## Sessions -/

namespace Session
open Engine

/-- The calls of a session and of its handlers neither start nor end the instance. -/
structure Leaves (id : String) (handlers : Handlers ScriptedHandler) (calls : List (String × Call)) : Prop where
  calls : ∀ c ∈ calls, (∀ i, ¬ c.2.Starts c.1 id i) ∧ ¬ c.2.Ends c.1 id
  handlers : ∀ name h, handlers.find? name = some (.host h) → ∀ c ∈ h.calls, ∀ current,
    (∀ i, ¬ c.Starts current id i) ∧ ¬ c.Ends current id

theorem Call.leaves {c : Call} (hs : c.request.started? = none) (he : c.request.isTeardown = false)
    (current id : String) : (∀ i, ¬ c.Starts current id i) ∧ ¬ c.Ends current id := by
  refine ⟨fun i h => ?_, fun h => ?_⟩
  · have := h.2
    rw [hs] at this
    cases this
  · have := h.2
    rw [he] at this
    cases this

/-- **The external children of an instance are placed once** in a session: in the operations that make it up, those of
its handlers included, and by the answers of all kinds to its calls, which are made of the reports of operations. -/
structure PlacesOnce (g : SessionEngine) (id : String) (calls : List (String × Call)) : Prop
    extends Engine.PlacesOnce g id (operations g calls) where
  madeUp : MadeUp g calls (operations g calls)
  told : (toldBy g calls id).Sublist (g.reported (operations g calls) id)
  toldOnce : (toldBy g calls id).Nodup
  registrationsAfter : ∀ pre post, calls = pre ++ post →
    (afterCalls g pre).registrations? id = g.registrations? id
  isPlacedAfter : ∀ pre mid post object, calls = pre ++ mid ++ post →
    (afterCalls g pre).isPlaced? id object = some true → (afterCalls g (pre ++ mid)).isPlaced? id object = some true

variable {id : String} {g : SessionEngine} {calls : List (String × Call)} {i : Instance}

theorem Leaves.tells (h : Leaves id g.handlers calls) :
    Tells (fun other _ => other ≠ id) (· ≠ id) g (operations g calls) (afterCalls g calls) (toldBy g calls) :=
  tells_afterCalls calls g
    (fun name hd hh c hc current =>
      ⟨fun _ i hi ho => (h.handlers name hd hh c hc current).1 i (ho ▸ hi),
        fun _ hi ho => (h.handlers name hd hh c hc current).2 (ho ▸ hi)⟩)
    fun c hc => ⟨fun _ i hi ho => (h.calls c hc).1 i (ho ▸ hi), fun _ hi ho => (h.calls c hc).2 (ho ▸ hi)⟩

/-- A session that leaves an instance is made up of operations that leave it. -/
theorem Leaves.operations (h : Leaves id g.handlers calls) : ∀ op ∈ operations g calls, op.Leaves id := by
  intro op hop
  cases op with
  | start other i => exact h.tells.started other i hop
  | teardown other => exact h.tells.ended other hop
  | _ => trivial

theorem Leaves.grows (h : Leaves id g.handlers calls) (hi : g.instance? id = some i) : ∃ i',
    (afterCalls g calls).instance? id = some i' ∧
      i.externals.Grows i'.externals (g.reported (Session.operations g calls) id) := by
  obtain ⟨i', hi', hgrows⟩ := grows_after (Session.operations g calls) hi h.operations
  refine ⟨i', ?_, hgrows⟩
  rw [← hi']
  unfold instance?
  rw [h.tells.page.instances]

theorem placesOnce_of_leaves (h : Leaves id g.handlers calls) (hi : g.instance? id = some i) :
    PlacesOnce g id calls := by
  have hpart : ∀ {pre mid post}, calls = pre ++ mid ++ post → Leaves id g.handlers mid := fun hcalls =>
    ⟨fun c hc => h.calls c (hcalls ▸ List.mem_append_left _ (List.mem_append_right _ hc)), h.handlers⟩
  have honce := Engine.placesOnce_of_leaves hi h.operations
  refine ⟨honce, madeUp_operations g calls, h.tells.reported id, honce.once.sublist (h.tells.reported id),
    fun pre post hcalls => ?_, fun pre mid post object hcalls ho => ?_⟩
  · obtain ⟨i', hi', hgrows⟩ := (hpart (show calls = [] ++ pre ++ post from hcalls)).grows hi
    unfold registrations?
    rw [hi, hi']
    exact congrArg some hgrows.registrations
  · obtain ⟨i₁, hi₁, hplaced⟩ := isPlaced?_eq_some ho
    have hmid := hpart hcalls
    rw [← handlers_afterCalls g pre] at hmid
    obtain ⟨i₂, hi₂, hgrows⟩ := hmid.grows hi₁
    unfold isPlaced?
    rw [afterCalls_append, hi₂]
    exact congrArg some (hgrows.isPlaced hplaced)

end Session

namespace Engine

/-- **From the start of an instance on its external children are placed once**, as long as the instance is neither ended
nor started anew: in every run of operations, and in every session. -/
theorem placed_once (id : String) (i : Instance) :
    (∀ {H W : Type} (g : Engine Surface H W) (ops : List Operation), (∀ op ∈ ops, op.Leaves id) →
      (g.perform (.start id i)).PlacesOnce id ops) ∧
    ∀ (g : Session.SessionEngine) (calls : List (String × Session.Call)), Session.Leaves id g.handlers calls →
      Session.PlacesOnce (g.perform (.start id i)) id calls :=
  ⟨fun g _ h => placesOnce_of_leaves (g := g.perform (.start id i)) (Table.get?_insert_self _ _ _) h,
    fun g _ h => Session.placesOnce_of_leaves (g := g.perform (.start id i)) h (Table.get?_insert_self _ _ _)⟩

/-- Two boxes of which one is shown at a time, a popup and a tip. -/
def boxesPage : List Markup :=
  [{ tag := "div", id := "root:main"
     children :=
      [{ tag := "div", id := "left:main" }, { tag := "div", id := "right:main" },
       { tag := "p", externalId := "popup:main" }, { tag := "p", externalId := "tip:main" }] }]

/-- The popup goes to the box that is shown first, and the tip to the right one. -/
def boxes : Instance where
  store := .ofList [("x", { dependents := .ofList [("left", [.visible .isNull]), ("right", [.visible .isNotNull])] })]
  externals :=
    { registrations := [⟨"popup", "left", ["left"]⟩, ⟨"popup", "right", ["right"]⟩, ⟨"tip", "right", ["right"]⟩] }

def boxesWrites : List Operation :=
  [.write "main" "x" (.text ""), .write "main" "x" (.text "1"), .refresh "main", .write "main" "x" (.text "")]

def boxesCalls : List (String × Session.Call) :=
  [("main", ⟨none, .write "x" (.text "")⟩), ("main", ⟨none, .message "show" none none⟩), ("main", ⟨none, .refresh⟩),
    ("main", ⟨none, .toggle "x"⟩)]

/-- Every message shows the right box. -/
def boxesHandlers : Handlers Session.ScriptedHandler :=
  { fallback := some (.host { calls := [⟨none, .write "x" (.text "1")⟩] }) }

theorem leaves_boxes : Session.Leaves "main" boxesHandlers boxesCalls where
  calls c hc := by
    simp only [boxesCalls, List.mem_cons, List.not_mem_nil, or_false] at hc
    rcases hc with rfl | rfl | rfl | rfl <;> exact Session.Call.leaves rfl rfl _ _
  handlers name h hh c hc current := by
    cases hh
    obtain rfl := List.mem_singleton.1 hc
    exact Session.Call.leaves rfl rfl _ _

/-- The popup stays in the left box when the right one is shown. -/
theorem placed_once_boxes :
    (((mounted boxesPage {} (∅ : Handlers Empty) ()).perform (.start "main" boxes)).PlacesOnce "main" boxesWrites ∧
      ((mounted boxesPage {} (∅ : Handlers Empty) ()).perform (.start "main" boxes)).reported boxesWrites "main" =
        ["popup", "tip"]) ∧
    Session.PlacesOnce ((mounted boxesPage {} boxesHandlers []).perform (.start "main" boxes)) "main" boxesCalls ∧
      Session.toldBy ((mounted boxesPage {} boxesHandlers []).perform (.start "main" boxes)) boxesCalls "main" =
        ["popup"] := by
  refine ⟨⟨(placed_once "main" boxes).1 _ _ fun op hop => ?_, by decide +kernel⟩,
    (placed_once "main" boxes).2 _ _ leaves_boxes, by decide +kernel⟩
  simp only [boxesWrites, List.mem_cons, List.not_mem_nil, or_false] at hop
  rcases hop with rfl | rfl | rfl | rfl <;> trivial

end Engine
end BoundPage
