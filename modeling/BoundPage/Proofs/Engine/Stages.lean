import BoundPage.Proofs.Engine.Operations
import BoundPage.Proofs.Tables
import BoundPage.Proofs.Write.Stages
/-!
# Stages of an operation

An operation that does something is a pass, or a placement, or a pass with a placement after it.  A placement moves one
node at a time: `Moves` is the point at which a node is about to be looked at.
-/
namespace BoundPage
open RenderTarget

namespace ExternalChildren

theorem isPlaced_append {c c' : ExternalChildren} {placed : List String} (h : c'.placed = c.placed ++ placed)
    {object : String} : c'.isPlaced object ↔ c.isPlaced object ∨ object ∈ placed := by
  unfold isPlaced
  rw [h]
  simp only [List.contains_eq_mem, List.mem_append, decide_eq_true_eq]

variable {S : Type} [RenderTarget S]

/-- The placement of external children has got to a registration. -/
def progress (c : ExternalChildren) (s : S) (id : String) (before : List Registration) : Progress S :=
  before.foldl (Progress.next id) { surface := s, children := c }

theorem progress_append (c : ExternalChildren) (s : S) (id : String) (pre : List Registration) (r : Registration) :
    c.progress s id (pre ++ [r]) = (c.progress s id pre).next id r := by
  unfold progress
  rw [List.foldl_append]
  rfl

/-- **A node is about to be moved under the slot of a registration**, unless it is there; `t` is the page before
that. -/
def Moves (c : ExternalChildren) (s : S) (id : String) (r : Registration) (slot n : Nat) (t : S) : Prop :=
  ∃ pre post before after, c.registrations = pre ++ r :: post ∧
    (c.progress s id pre).children.isPlaced r.object = false ∧
    conditionHolds (c.progress s id pre).surface id r.condition ∧
    locate (c.progress s id pre).surface ⟨r.slot, id⟩ = some slot ∧
    locateExternal (c.progress s id pre).surface ⟨r.object, id⟩ = before ++ n :: after ∧
    t = before.foldl (moveUnder slot) (c.progress s id pre).surface

/-- **What every move keeps holds at every move and at the end of the placement.**  The slot is found on the page before
the moves of its registration, and so are the nodes. -/
theorem moves_induction {I : S → Prop} {c : ExternalChildren} {s : S} {id : String} (h0 : I s)
    (hstep : ∀ r slot n t, c.Moves s id r slot n t → I t → I (moveUnder slot t n)) :
    (∀ r slot n t, c.Moves s id r slot n t → I t) ∧ I (c.placePending s id).surface := by
  have hnodes : ∀ {r slot} pre post before after, c.registrations = pre ++ r :: post →
      (c.progress s id pre).children.isPlaced r.object = false →
      conditionHolds (c.progress s id pre).surface id r.condition →
      locate (c.progress s id pre).surface ⟨r.slot, id⟩ = some slot →
      locateExternal (c.progress s id pre).surface ⟨r.object, id⟩ = before ++ after →
      I (c.progress s id pre).surface → I (before.foldl (moveUnder slot) (c.progress s id pre).surface) := by
    intro r slot pre post before after hr hp hc hs hn h
    refine split_induction h (fun before n after hn hI => ?_) before after hn
    rw [List.foldl_append, List.foldl_cons, List.foldl_nil]
    exact hstep r slot n _ ⟨pre, post, before, after, hr, hp, hc, hs, hn, rfl⟩ hI
  have hall : ∀ pre post, c.registrations = pre ++ post → I (c.progress s id pre).surface := by
    refine split_induction h0 fun pre r post hr hpre => ?_
    rw [progress_append]
    unfold Progress.next
    split
    · exact hpre
    · next hp =>
      simp only
      split
      · exact hpre
      · next hc =>
        split
        · exact hpre
        · next slot hs =>
          exact hnodes pre post _ [] hr (by simpa using hp) (by simpa using hc) hs (List.append_nil _).symm hpre
  refine ⟨fun r slot n t h => ?_, hall c.registrations [] (List.append_nil _).symm⟩
  obtain ⟨pre, post, before, after, hr, hp, hc, hs, hn, rfl⟩ := h
  exact hnodes pre post before (n :: after) hr hp hc hs hn (hall pre (r :: post) hr)

end ExternalChildren

namespace Engine

variable {S H W : Type}

/-- The pass of an operation. -/
def passOf? (g : Engine S H W) : Operation → Option (Pass S)
  | .write id name value =>
    (g.instance? id).bind fun i => (i.store.get? name).map fun old =>
      { effector := g.effector, options := g.options, instanceId := id, value := value.render,
        dependents := old.dependents }
  | _ => none

theorem passOf?_write (g : Engine S H W) (id name : String) (value : Scalar) :
    g.passOf? (.write id name value) = (g.instance? id).bind fun i => (i.store.get? name).map fun old =>
      { effector := g.effector, options := g.options, instanceId := id, value := value.render,
        dependents := old.dependents } := rfl

/-- **A pass is a write to a variable of a running instance.** -/
theorem passOf?_eq_some {g : Engine S H W} {op : Operation} {p : Pass S} (h : g.passOf? op = some p) :
    ∃ name value i old, op = .write p.instanceId name value ∧ g.instance? p.instanceId = some i ∧
      i.store.get? name = some old ∧ p =
        { effector := g.effector, options := g.options, instanceId := p.instanceId, value := value.render,
          dependents := old.dependents } := by
  cases op with
  | write id name value =>
    rw [passOf?_write] at h
    obtain ⟨i, hi, h⟩ := Option.bind_eq_some_iff.1 h
    obtain ⟨old, ho, rfl⟩ := Option.map_eq_some_iff.1 h
    exact ⟨name, value, i, old, rfl, hi, ho, rfl⟩
  | _ => cases h

theorem effector_passOf? {g : Engine S H W} {op : Operation} {p : Pass S} (h : g.passOf? op = some p) :
    p.effector = g.effector := by
  obtain ⟨_, _, _, _, -, -, -, hp⟩ := passOf?_eq_some h
  rw [hp]

/-- A placement: what is to be placed, for which instance, and on which page. -/
structure Placement (S : Type) where
  children : ExternalChildren
  instanceId : String
  page : S

variable [RenderTarget S]

/-- The placement of an operation. -/
def placementOf? (g : Engine S H W) : Operation → Option (Placement S)
  | .write id name value =>
    (g.instance? id).bind fun i => (g.passOf? (.write id name value)).map fun p =>
      ⟨i.externals, id, (p.run g.surface).surface⟩
  | .refresh id => (g.instance? id).map fun i => ⟨i.externals, id, g.surface⟩
  | _ => none

theorem placementOf?_write (g : Engine S H W) (id name : String) (value : Scalar) :
    g.placementOf? (.write id name value) = (g.instance? id).bind fun i =>
      (g.passOf? (.write id name value)).map fun p => ⟨i.externals, id, (p.run g.surface).surface⟩ := rfl

theorem placementOf?_refresh (g : Engine S H W) (id : String) :
    g.placementOf? (.refresh id) = (g.instance? id).map fun i => ⟨i.externals, id, g.surface⟩ := rfl

/-- **The page after an operation** is the one after its placement. -/
theorem surface_perform (g : Engine S H W) (op : Operation) : (g.perform op).surface =
    match g.placementOf? op with
    | some c => (c.children.placePending c.page c.instanceId).surface
    | none => g.surface := by
  cases op with
  | start id inst => rfl
  | teardown id =>
    show (g.teardown id).state.surface = _
    unfold teardown
    split <;> rfl
  | write id name value =>
    show (g.write id name value).state.surface = _
    rw [placementOf?_write, passOf?_write]
    unfold write Instance.write
    cases hi : g.instance? id with
    | none => rfl
    | some i =>
      simp only [Option.bind_some]
      cases ho : i.store.get? name <;> rfl
  | refresh id =>
    show (g.refresh id).state.surface = _
    rw [placementOf?_refresh]
    unfold refresh
    cases hi : g.instance? id <;> rfl

/-- What is placed by an operation with a pass is placed on the page after the pass; without one, on the page as it
is.  It belongs to an instance that is running. -/
theorem placementOf?_eq_some {g : Engine S H W} {op : Operation} {c : Placement S} (h : g.placementOf? op = some c) :
    c.page = ((g.passOf? op).elim g.surface fun p => (p.run g.surface).surface) ∧
      ∃ i, g.instance? c.instanceId = some i ∧ c.children = i.externals := by
  cases op with
  | start id inst => cases h
  | teardown id => cases h
  | write id name value =>
    rw [placementOf?_write] at h
    obtain ⟨i, hi, h⟩ := Option.bind_eq_some_iff.1 h
    obtain ⟨p, hp, rfl⟩ := Option.map_eq_some_iff.1 h
    rw [hp]
    exact ⟨rfl, i, hi, rfl⟩
  | refresh id =>
    rw [placementOf?_refresh] at h
    obtain ⟨i, hi, rfl⟩ := Option.map_eq_some_iff.1 h
    exact ⟨rfl, i, hi, rfl⟩

theorem passOf?_of_placementOf? {g : Engine S H W} {op : Operation} (h : g.placementOf? op = none) :
    g.passOf? op = none := by
  cases op with
  | write id name value =>
    rw [placementOf?_write] at h
    rw [passOf?_write] at h ⊢
    cases hi : g.instance? id with
    | none => rfl
    | some i =>
      rw [hi, Option.bind_some] at h
      exact Option.map_eq_none_iff.1 h
  | _ => rfl

/-- **What holds after the pass of an operation, or before it if it has none, and is kept by every move holds after the
operation.** -/
theorem perform_induction {I : S → Prop} {g : Engine S H W} {op : Operation} (h0 : g.passOf? op = none → I g.surface)
    (hpass : ∀ p, g.passOf? op = some p → I (p.run g.surface).surface)
    (hmove : ∀ c, g.placementOf? op = some c → ∀ r slot n t, c.children.Moves c.page c.instanceId r slot n t → I t →
      I (ExternalChildren.moveUnder slot t n)) : I (g.perform op).surface := by
  rw [surface_perform]
  cases hc : g.placementOf? op with
  | none => exact h0 (passOf?_of_placementOf? hc)
  | some c =>
    refine (ExternalChildren.moves_induction ?_ (hmove c hc)).2
    rw [(placementOf?_eq_some hc).1]
    cases hp : g.passOf? op with
    | none => exact h0 hp
    | some p => exact hpass p hp

/-! ## Instances -/

/-- **What becomes of an instance in an operation**: it is started, or it is left as it is but for the objects that were
placed, or one of its variables is written. -/
inductive Becomes (g : Engine S H W) (op : Operation) (id : String) (i : Instance) : Prop
  | started (h : op = .start id i)
  | kept {old : Instance} (h : g.instance? id = some old) (store : i.store = old.store)
    (registrations : i.externals.registrations = old.externals.registrations)
    (notWritten : ∀ p, g.passOf? op = some p → p.instanceId ≠ id)
  | written {old : Instance} {name : String} {value : Scalar} {v : Variable} {p : Pass S}
    (h : g.instance? id = some old) (operation : op = .write id name value) (found : old.store.get? name = some v)
    (pass : g.passOf? op = some p) (instanceId : p.instanceId = id) (dependents : p.dependents = v.dependents)
    (store : i.store = old.store.insert name { value := p.value, dependents := (p.run g.surface).table })
    (registrations : i.externals.registrations = old.externals.registrations)

theorem registrations_placePending (c : ExternalChildren) (s : S) (id : String) :
    (c.placePending s id).children.registrations = c.registrations := by
  have hnext : ∀ (rs : List Registration) (pr : ExternalChildren.Progress S),
      (rs.foldl (ExternalChildren.Progress.next id) pr).children.registrations = pr.children.registrations := by
    intro rs
    induction rs with
    | nil => exact fun _ => rfl
    | cons r rs ih =>
      intro pr
      rw [List.foldl_cons, ih]
      unfold ExternalChildren.Progress.next
      split
      · rfl
      · simp only
        split
        · rfl
        · split <;> rfl
  exact hnext _ _

theorem becomes_of_refresh {g : Engine S H W} {id id' : String} {i : Instance}
    (h : (g.perform (.refresh id')).instance? id = some i) : g.Becomes (.refresh id') id i := by
  change (g.refresh id').state.instances.get? id = some i at h
  unfold refresh at h
  cases hi : g.instance? id' with
  | none =>
    rw [hi] at h
    exact .kept h rfl rfl fun p hp => by cases hp
  | some old =>
    rw [hi] at h
    change (g.instances.insert id' _).get? id = some i at h
    rw [Table.get?_insert] at h
    by_cases hid : id = id'
    · rw [if_pos hid] at h
      rw [← Option.some.inj h, hid]
      exact .kept hi rfl (registrations_placePending _ _ _) fun p hp => by cases hp
    · rw [if_neg hid] at h
      exact .kept h rfl rfl fun p hp => by cases hp

/-- The instance that is written to has a new value, unless it has no such variable. -/
theorem becomes_written {g : Engine S H W} {id : String} {old : Instance} (hi : g.instance? id = some old)
    (name : String) (value : Scalar) :
    g.Becomes (.write id name value) id (old.write g.effector g.options id g.surface name value).inst := by
  unfold Instance.write
  cases hv : old.store.get? name with
  | none =>
    refine .kept hi rfl rfl fun p hp => ?_
    rw [passOf?_write, hi, Option.bind_some, hv] at hp
    cases hp
  | some v =>
    have hp : g.passOf? (.write id name value) = some
        { effector := g.effector, options := g.options, instanceId := id, value := value.render,
          dependents := v.dependents } := by
      rw [passOf?_write, hi, Option.bind_some, hv]
      rfl
    exact .written hi rfl hv hp rfl rfl rfl (registrations_placePending _ _ _)

theorem becomes_of_write {g : Engine S H W} {id id' name : String} {value : Scalar} {i : Instance}
    (h : (g.perform (.write id' name value)).instance? id = some i) : g.Becomes (.write id' name value) id i := by
  change (g.write id' name value).state.instances.get? id = some i at h
  unfold write at h
  cases hi : g.instance? id' with
  | none =>
    rw [hi] at h
    refine .kept h rfl rfl fun p hp => ?_
    rw [passOf?_write, hi] at hp
    cases hp
  | some old =>
    rw [hi] at h
    change (g.instances.insert id' _).get? id = some i at h
    rw [Table.get?_insert] at h
    by_cases hid : id = id'
    · rw [if_pos hid] at h
      rw [← Option.some.inj h, hid]
      exact becomes_written hi name value
    · rw [if_neg hid] at h
      refine .kept h rfl rfl fun p hp hpid => ?_
      obtain ⟨_, _, _, _, hop, -⟩ := passOf?_eq_some hp
      obtain ⟨rfl, -⟩ := Operation.write.inj hop
      exact hid hpid.symm

theorem becomes_of_instance? {g : Engine S H W} {op : Operation} {id : String} {i : Instance}
    (h : (g.perform op).instance? id = some i) : g.Becomes op id i := by
  cases op with
  | start id' inst =>
    change (g.instances.insert id' inst).get? id = some i at h
    rw [Table.get?_insert] at h
    by_cases hid : id = id'
    · rw [if_pos hid] at h
      rw [hid, Option.some.inj h]
      exact .started rfl
    · rw [if_neg hid] at h
      exact .kept h rfl rfl fun p hp => by cases hp
  | teardown id' =>
    change (g.teardown id').state.instances.get? id = some i at h
    unfold teardown at h
    split at h
    · rw [Table.get?_erase] at h
      by_cases hid : id = id'
      · rw [if_pos hid] at h
        cases h
      · rw [if_neg hid] at h
        exact .kept h rfl rfl fun p hp => by cases hp
    · exact .kept h rfl rfl fun p hp => by cases hp
  | refresh id' => exact becomes_of_refresh h
  | write id' name value => exact becomes_of_write h

end Engine
end BoundPage
