import BoundPage.Engine.Dispatch
import BoundPage.Proofs.Tables
/-!
# Operations

The page and the instances change by four operations only: an instance is started or ended, a variable is written, or
external children are placed.  What else an engine is asked for is made of these, and its answer says of which: an
outcome that reports a write stands for that write, and one that is skipped for nothing (`TellsOutcome`).  The answers
are made of the reports of the operations; what they say about external children is kept track of.
-/
namespace BoundPage

/-! ## Reports of placements -/

/-- The objects that a write placed. -/
def WriteOutcome.placed (o : WriteOutcome) : List String := o.report?.elim [] (·.placed)

def ActionOutcome.placed : ActionOutcome → List String
  | write o => o.placed
  | _ => []

/-- The objects that the writes of an interaction placed. -/
def InteractionReport.placed (r : InteractionReport) : List String := r.writes.flatMap (·.placed)

theorem InteractionReport.placed_eq (r : InteractionReport) : r.placed = r.outcomes.flatMap (·.placed) := by
  unfold placed writes
  induction r.outcomes with
  | nil => rfl
  | cons o os ih => cases o <;> simp [ActionOutcome.placed, ih]

/-- What is placed for one instance is not placed for another. -/
def placedFor (id : String) (placed : List String) (other : String) : List String := if other = id then placed else []

theorem placedFor_nil (id : String) : placedFor id [] = fun _ => [] := by
  funext other
  unfold placedFor
  split <;> rfl

theorem placedFor_flatMap {α : Type} (id : String) (placed : α → List String) (answers : List α) (other : String) :
    placedFor id (answers.flatMap placed) other = answers.flatMap fun a => placedFor id (placed a) other := by
  unfold placedFor
  split <;> simp

/-! ## Operations -/

inductive Operation where
  | start (id : String) (inst : Instance)
  | teardown (id : String)
  | write (id name : String) (value : Scalar)
  | refresh (id : String)

/-- **The write that an outcome reports**: if it was applied, the variable was set to the text that it has now. -/
def WriteOutcome.operations (o : WriteOutcome) (id : String) : List Operation :=
  o.report?.toList.map fun r => .write id r.target (.text r.value)

theorem WriteOutcome.mem_operations {o : WriteOutcome} {r : WriteReport} (h : o.report? = some r) (id : String) :
    .write id r.target (.text r.value) ∈ o.operations id := by
  unfold operations
  rw [h]
  exact List.mem_singleton.2 rfl

namespace Engine

variable {S H W : Type}

/-- The engines have the same page, instances and handlers; what the host keeps may differ. -/
structure SamePage (g g' : Engine S H W) : Prop where
  surface : g.surface = g'.surface
  effector : g.effector = g'.effector
  options : g.options = g'.options
  instances : g.instances = g'.instances
  handlers : g.handlers = g'.handlers

theorem SamePage.refl (g : Engine S H W) : SamePage g g := ⟨rfl, rfl, rfl, rfl, rfl⟩

theorem SamePage.trans {g g' g'' : Engine S H W} (h : SamePage g g') (h' : SamePage g' g'') : SamePage g g'' :=
  ⟨h.1.trans h'.1, h.2.trans h'.2, h.3.trans h'.3, h.4.trans h'.4, h.5.trans h'.5⟩

/-! ### One thing after the other -/

/-- The operations of one thing after the other. -/
def operationsEach {ι α : Type} (f : Engine S H W → ι → Ran (Engine S H W) α)
    (ops : Engine S H W → ι → List Operation) : Engine S H W → List ι → List Operation
  | _, [] => []
  | g, i :: is => ops g i ++ operationsEach f ops (f g i).state is

/-- The operations of one thing after the other can be read off the answers if those of each can. -/
theorem operationsEach_zip {ι α : Type} (f : Engine S H W → ι → Ran (Engine S H W) α) (o : ι → α → List Operation) :
    ∀ (is : List ι) (g : Engine S H W), operationsEach f (fun g i => o i (f g i).answer) g is =
      (is.zip (Ran.each f g is).answer).flatMap fun a => o a.1 a.2
  | [], _ => rfl
  | i :: is, g => congrArg (o i (f g i).answer ++ ·) (operationsEach_zip f o is (f g i).state)

theorem operationsEach_answers {ι α : Type} (f : Engine S H W → ι → Ran (Engine S H W) α) (o : α → List Operation) :
    ∀ (is : List ι) (g : Engine S H W), operationsEach f (fun g i => o (f g i).answer) g is =
      (Ran.each f g is).answer.flatMap o
  | [], _ => rfl
  | i :: is, g => congrArg (o (f g i).answer ++ ·) (operationsEach_answers f o is (f g i).state)

/-- Every answer is given by one thing, whose operations are among those of all. -/
theorem exists_of_mem_each {ι α : Type} {f : Engine S H W → ι → Ran (Engine S H W) α}
    (ops : Engine S H W → ι → List Operation) : ∀ {is : List ι} {g : Engine S H W} {a : α},
    a ∈ (Ran.each f g is).answer → ∃ g' i, i ∈ is ∧ (f g' i).answer = a ∧ ops g' i ⊆ operationsEach f ops g is
  | i :: is, g, a, h => by
    rcases List.mem_cons.1 h with rfl | h
    · exact ⟨g, i, List.mem_cons_self, rfl, List.subset_append_left _ _⟩
    · obtain ⟨g', j, hj, ha, hsub⟩ := exists_of_mem_each ops h
      exact ⟨g', j, List.mem_cons_of_mem i hj, ha, fun op hop => List.mem_append_right _ (hsub hop)⟩

/-! ### Performing them -/

variable [RenderTarget S]

def perform (g : Engine S H W) : Operation → Engine S H W
  | .start id inst => (g.start id inst).state
  | .teardown id => (g.teardown id).state
  | .write id name value => (g.write id name value).state
  | .refresh id => (g.refresh id).state

/-- The engine after operations in a row. -/
def after (g : Engine S H W) (ops : List Operation) : Engine S H W := ops.foldl perform g

theorem after_append (g : Engine S H W) (ops ops' : List Operation) :
    g.after (ops ++ ops') = (g.after ops).after ops' := List.foldl_append

/-- **Something holds at every operation of a run**, of the engine just before it. -/
def Throughout (P : Engine S H W → Operation → Prop) (g : Engine S H W) (ops : List Operation) : Prop :=
  ∀ pre op post, ops = pre ++ op :: post → P (g.after pre) op

/-- **What an operation reports as placed**, for every instance. -/
def placedBy (g : Engine S H W) : Operation → String → List String
  | .write id name value => placedFor id (g.write id name value).answer.placed
  | .refresh id => placedFor id (g.refresh id).answer
  | .start _ _ | .teardown _ => fun _ => []

/-- All that operations in a row report. -/
def reported (g : Engine S H W) : List Operation → String → List String
  | [], _ => []
  | op :: ops, id => g.placedBy op id ++ (g.perform op).reported ops id

theorem reported_append (g : Engine S H W) : ∀ (ops ops' : List Operation) (id : String),
    g.reported (ops ++ ops') id = g.reported ops id ++ (g.after ops).reported ops' id
  | [], _, _ => rfl
  | op :: ops, ops', id => by
    show g.placedBy op id ++ (g.perform op).reported (ops ++ ops') id = _
    rw [reported_append (g.perform op) ops ops' id, ← List.append_assoc]
    rfl

/-- **Some operations lead from one engine to the page of another**, and all instances that they start are of a
kind. -/
def Runs (starts : String → Instance → Prop) (g g' : Engine S H W) : Prop :=
  ∃ ops, (∀ id i, .start id i ∈ ops → starts id i) ∧ SamePage (g.after ops) g'

/-- **The operations lead from one engine to the page of another.**  All instances that they start or end are of a kind,
and what is told for an instance is among what they report. -/
structure Tells (starts : String → Instance → Prop) (ends : String → Prop) (g : Engine S H W) (ops : List Operation)
    (g' : Engine S H W) (told : String → List String) : Prop where
  started : ∀ id i, .start id i ∈ ops → starts id i
  ended : ∀ id, .teardown id ∈ ops → ends id
  page : SamePage (g.after ops) g'
  reported : ∀ id, (told id).Sublist (g.reported ops id)

theorem SamePage.perform {g g' : Engine S H W} (h : SamePage g g') (op : Operation) :
    SamePage (g.perform op) (g'.perform op) := by
  obtain ⟨h1, h2, h3, h4, h5⟩ := h
  cases op with
  | start id inst => exact ⟨h1, h2, h3, by simp only [Engine.perform, start, h4], h5⟩
  | teardown id =>
    simp only [Engine.perform, teardown, h4]
    split
    · exact ⟨h1, h2, h3, rfl, h5⟩
    · exact ⟨h1, h2, h3, h4, h5⟩
  | write id name value =>
    simp only [Engine.perform, write, instance?, h4]
    split
    · exact ⟨h1, h2, h3, h4, h5⟩
    · simp only [h1, h2, h3]
      exact ⟨rfl, rfl, rfl, rfl, h5⟩
  | refresh id =>
    simp only [Engine.perform, refresh, instance?, h4]
    split
    · exact ⟨h1, h2, h3, h4, h5⟩
    · simp only [h1]
      exact ⟨rfl, h2, h3, rfl, h5⟩

theorem SamePage.placedBy {g g' : Engine S H W} (h : SamePage g g') (op : Operation) :
    g.placedBy op = g'.placedBy op := by
  obtain ⟨h1, h2, h3, h4, -⟩ := h
  cases op with
  | write id name value =>
    simp only [Engine.placedBy, write, instance?, h4]
    split
    · rfl
    · simp only [h1, h2, h3]
  | refresh id =>
    simp only [Engine.placedBy, refresh, instance?, h4]
    split
    · rfl
    · simp only [h1]
  | _ => rfl

theorem SamePage.after {g g' : Engine S H W} (h : SamePage g g') : ∀ ops : List Operation,
    SamePage (g.after ops) (g'.after ops) := by
  intro ops
  induction ops generalizing g g' with
  | nil => exact h
  | cons op ops ih => exact ih (h.perform op)

theorem SamePage.reported {g g' : Engine S H W} (h : SamePage g g') (ops : List Operation) (id : String) :
    g.reported ops id = g'.reported ops id := by
  induction ops generalizing g g' with
  | nil => rfl
  | cons op ops ih =>
    show g.placedBy op id ++ (g.perform op).reported ops id = g'.placedBy op id ++ (g'.perform op).reported ops id
    rw [h.placedBy op, ih (h.perform op)]

theorem handlers_perform (g : Engine S H W) (op : Operation) : (g.perform op).handlers = g.handlers := by
  cases op with
  | start id inst => rfl
  | teardown id =>
    show (g.teardown id).state.handlers = _
    unfold teardown
    split <;> rfl
  | write id name value =>
    show (g.write id name value).state.handlers = _
    unfold write
    split <;> rfl
  | refresh id =>
    show (g.refresh id).state.handlers = _
    unfold refresh
    split <;> rfl

theorem handlers_after : ∀ (ops : List Operation) (g : Engine S H W), (g.after ops).handlers = g.handlers
  | [], _ => rfl
  | op :: ops, g => (handlers_after ops (g.perform op)).trans (handlers_perform g op)

variable {starts : String → Instance → Prop} {ends : String → Prop}

namespace Tells

variable {g g' g'' : Engine S H W} {ops ops' : List Operation} {told told' : String → List String}

/-- What is told may leave something out. -/
theorem of_sublist (h : Tells starts ends g ops g' told) (hsub : ∀ id, (told' id).Sublist (told id)) :
    Tells starts ends g ops g' told' :=
  ⟨h.started, h.ended, h.page, fun id => (hsub id).trans (h.reported id)⟩

theorem of_samePage (h : SamePage g g') : Tells starts ends g [] g' fun _ => [] :=
  ⟨fun _ _ h => absurd h List.not_mem_nil, fun _ h => absurd h List.not_mem_nil, h, fun _ => List.Sublist.refl _⟩

theorem refl (g : Engine S H W) : Tells starts ends g [] g fun _ => [] := of_samePage (.refl g)

theorem nothing (h : Tells starts ends g ops g' told) : Tells starts ends g ops g' fun _ => [] :=
  h.of_sublist fun _ => List.nil_sublist _

theorem runs (h : Tells starts ends g ops g' told) : Runs starts g g' := ⟨ops, h.started, h.page⟩

theorem handlers (h : Tells starts ends g ops g' told) : g'.handlers = g.handlers := by
  rw [← h.page.handlers, handlers_after]

theorem trans (h : Tells starts ends g ops g' told) (h' : Tells starts ends g' ops' g'' told') :
    Tells starts ends g (ops ++ ops') g'' fun id => told id ++ told' id where
  started id i hi := (List.mem_append.1 hi).elim (h.started id i) (h'.started id i)
  ended id hi := (List.mem_append.1 hi).elim (h.ended id) (h'.ended id)
  page := by
    rw [after_append]
    exact (h.page.after ops').trans h'.page
  reported id := by
    rw [reported_append, h.page.reported]
    exact (h.reported id).append (h'.reported id)

theorem perform (g : Engine S H W) (op : Operation) (hs : ∀ id i, op = .start id i → starts id i)
    (he : ∀ id, op = .teardown id → ends id) : Tells starts ends g [op] (g.perform op) (g.placedBy op) where
  started id i hi := hs id i (List.mem_singleton.1 hi).symm
  ended id hi := he id (List.mem_singleton.1 hi).symm
  page := .refl _
  reported id := by
    show (g.placedBy op id).Sublist (g.placedBy op id ++ [])
    exact List.sublist_append_left _ _

theorem each {ι α : Type} {f : Engine S H W → ι → Ran (Engine S H W) α} {ops : Engine S H W → ι → List Operation}
    {t : ι → α → String → List String} (is : List ι) (g : Engine S H W)
    (hf : ∀ g' i, g'.handlers = g.handlers → i ∈ is →
      Tells starts ends g' (ops g' i) (f g' i).state (t i (f g' i).answer)) :
    Tells starts ends g (operationsEach f ops g is) (Ran.each f g is).state fun id =>
      (is.zip (Ran.each f g is).answer).flatMap fun a => t a.1 a.2 id := by
  induction is generalizing g with
  | nil => exact .refl g
  | cons i is ih =>
    have hi := hf g i rfl List.mem_cons_self
    exact hi.trans (ih (f g i).state fun g' j hg hj => hf g' j (hg.trans hi.handlers) (List.mem_cons_of_mem i hj))

end Tells

theorem length_each {σ ι α : Type} (f : σ → ι → Ran σ α) : ∀ (is : List ι) (state : σ),
    (Ran.each f state is).answer.length = is.length
  | [], _ => rfl
  | i :: is, state => congrArg (· + 1) (length_each f is (f state i).state)

/-- Where it does not matter what the answers are answers to. -/
theorem Tells.eachFor {ι α : Type} {f : Engine S H W → ι → Ran (Engine S H W) α}
    {ops : Engine S H W → ι → List Operation} {id : String} {placed : α → List String} (is : List ι) (g : Engine S H W)
    (hf : ∀ g' i, g'.handlers = g.handlers → i ∈ is →
      Tells starts ends g' (ops g' i) (f g' i).state (placedFor id (placed (f g' i).answer))) :
    Tells starts ends g (operationsEach f ops g is) (Ran.each f g is).state
      (placedFor id ((Ran.each f g is).answer.flatMap placed)) := by
  refine (Tells.each (t := fun _ a => placedFor id (placed a)) is g hf).of_sublist fun other => ?_
  have hlen := length_each f is g
  generalize (Ran.each f g is).answer = answers at hlen
  have htold : placedFor id (answers.flatMap placed) other =
      (is.zip answers).flatMap fun a => placedFor id (placed a.2) other := calc
    placedFor id (answers.flatMap placed) other
      = answers.flatMap fun a => placedFor id (placed a) other := placedFor_flatMap id placed answers other
    _ = ((is.zip answers).map Prod.snd).flatMap fun a => placedFor id (placed a) other := by
      rw [List.map_snd_zip (Nat.le_of_eq hlen)]
    _ = (is.zip answers).flatMap fun a => placedFor id (placed a.2) other := List.flatMap_map ..
  exact htold ▸ List.Sublist.refl _

/-! ## Writes of all kinds -/

variable (g : Engine S H W)

/-- **The outcome of a write to an instance tells all that has happened**: the operation that it reports, and what was
placed after it. -/
abbrev TellsOutcome (starts : String → Instance → Prop) (ends : String → Prop) (g : Engine S H W) (id : String)
    (r : Ran (Engine S H W) WriteOutcome) : Prop :=
  Tells starts ends g (r.answer.operations id) r.state (placedFor id r.answer.placed)

/-- A write that is skipped tells nothing. -/
theorem tells_skip (id : String) (reason : SkipReason) (events : List Event) :
    TellsOutcome starts ends g id (g.skip reason events) := by
  show Tells starts ends g [] g (placedFor id [])
  rw [placedFor_nil]
  exact .refl g

/-- Only the text of a value is written. -/
theorem write_text (id name : String) (value : Scalar) : g.write id name (.text value.render) = g.write id name value :=
  rfl

theorem tells_write (id name : String) (value : Scalar) : TellsOutcome starts ends g id (g.write id name value) := by
  cases hi : g.instance? id with
  | none =>
    unfold write
    simp only [hi]
    exact g.tells_skip id _ _
  | some i =>
    cases hv : i.store.get? name with
    | none =>
      have hwrite : g.write id name value = g.skip (.unknownVariable name) [.writeUnknownVariable] := by
        unfold write Instance.write
        simp only [hi, hv, Table.insert_of_get? hi]
        rfl
      rw [hwrite]
      exact g.tells_skip id _ _
    | some old =>
      have hreported : (g.write id name value).answer.operations id = [.write id name (.text value.render)] := by
        unfold write Instance.write
        simp only [hi, hv]
        rfl
      unfold TellsOutcome
      rw [hreported, ← write_text]
      exact .perform g (.write id name (.text value.render)) (fun _ _ h => by cases h) fun _ h => by cases h

theorem tells_withCurrent {id name : String} {f : String → Ran (Engine S H W) WriteOutcome}
    (hf : ∀ value, TellsOutcome starts ends g id (f value)) :
    TellsOutcome starts ends g id (g.withCurrent id name f) := by
  unfold withCurrent
  split
  · exact hf _
  · exact g.tells_skip id _ _

theorem tells_increment (id name : String) (amount : Int) (min? max? : Option Int) :
    TellsOutcome starts ends g id (g.increment id name amount min? max?) :=
  g.tells_withCurrent fun value => by
    split
    · exact g.tells_write id name _
    · exact g.tells_skip id _ _

theorem tells_toggle (id name : String) : TellsOutcome starts ends g id (g.toggle id name) :=
  g.tells_withCurrent fun _ => g.tells_write id name _

theorem tells_insert (id name : String) (value : Option String) (place : Place) :
    TellsOutcome starts ends g id (g.insert id name value place) :=
  g.tells_withCurrent fun current => by
    split
    · split
      · exact g.tells_write id name _
      · exact g.tells_skip id _ _
    · exact g.tells_skip id _ _

theorem tells_clear (id name : String) : TellsOutcome starts ends g id (g.clear id name) :=
  g.tells_withCurrent fun _ => g.tells_write id name _

theorem tells_count (id : String) (c : Count) (direction : Int) (event : Option String) :
    TellsOutcome starts ends g id (g.count id c direction event) := by
  unfold count
  simp only
  split
  · exact g.tells_increment id c.target _ _ _
  · split
    · exact g.tells_increment id c.target _ _ _
    · exact g.tells_skip id _ _

theorem tells_setValue (id target : String) (p : ActionParameter) (type : ValueType) (event : Option String) :
    TellsOutcome starts ends g id (g.setValue id target p type event) := by
  unfold setValue
  simp only
  split
  · exact g.tells_write id target _
  · exact g.tells_skip id _ _

theorem tells_setManyBooleans (id : String) (values : List (String × Bool)) :
    Tells starts ends g ((g.setManyBooleans id values).answer.flatMap (·.operations id))
      (g.setManyBooleans id values).state
      (placedFor id ((g.setManyBooleans id values).answer.flatMap (·.placed))) := by
  unfold setManyBooleans
  rw [← operationsEach_answers]
  exact Tells.eachFor values g fun g' v _ _ => g'.tells_write id v.1 _

theorem tells_setForAll (name : String) (value : Scalar) :
    Tells starts ends g
      ((g.instanceIds.zip (g.setForAll name value).answer).flatMap fun o => o.2.operations o.1)
      (g.setForAll name value).state
      fun id => (g.instanceIds.zip (g.setForAll name value).answer).flatMap fun o => placedFor o.1 o.2.placed id := by
  unfold setForAll
  rw [← operationsEach_zip _ fun id (o : WriteOutcome) => o.operations id]
  exact Tells.each (t := fun i (o : WriteOutcome) => placedFor i o.placed) g.instanceIds g
    fun g' i _ _ => g'.tells_write i name value

/-- The instance that texts of variables and of external children describe. -/
def readInstance? (store : String) (externals : Option String) : Option Instance := do
  let store ← Variables.ofText? store
  let externals ← externals.elim (some ∅) ExternalChildren.ofText?
  return { store, externals }

theorem tells_start (id : String) (i : Instance) (h : starts id i) :
    Tells starts ends g [.start id i] (g.start id i).state fun _ => [] :=
  .perform g (.start id i) (fun id' i' he => by
    obtain ⟨rfl, rfl⟩ := Operation.start.inj he
    exact h) fun _ he => by cases he

theorem tells_startText (id store : String) (externals : Option String)
    (h : ∀ i, readInstance? store externals = some i → starts id i) :
    Tells starts ends g ((readInstance? store externals).toList.map (.start id))
      (g.startText id store externals).state fun _ => [] := by
  unfold startText
  simp only
  split
  · next i hi =>
    rw [show readInstance? store externals = some i from hi]
    exact g.tells_start id i (h i hi)
  · next hi =>
    rw [show readInstance? store externals = none from hi]
    exact .refl g

end Engine
end BoundPage
