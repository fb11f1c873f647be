import Mathlib.Data.List.Forall2
import BoundPage.Proofs.Engine.Forests
import BoundPage.Proofs.Tables
import BoundPage.Recording.Script
/-!
# Calls of a host

A host changes variables by calls of its own (`HostCall`), and a page by descriptors of actions.  A descriptor whose
operands are literal texts asks for one call (`ActionDescriptor.hostCall?`), and carrying out the descriptors is making
the calls (`Engine.dispatch_literals`): the texts are resolved, checked and read again on the way to the same writes.
-/
namespace BoundPage

inductive HostCall where
  | write (name : String) (value : Scalar)
  | setBoolean (name : String) (value : Bool)
  | setString (name value : String)
  | toggle (name : String)
  | increment (name : String) (amount : Int) (min? max? : Option Int)
  | insert (name : String) (value mark : Option String)
  | clear (name : String)

namespace Engine

variable {S H W : Type} [RenderTarget S]

def call (g : Engine S H W) (id : String) : HostCall → Ran (Engine S H W) WriteOutcome
  | .write name value => g.write id name value
  | .setBoolean name value => g.setBoolean id name value
  | .setString name value => g.setString id name value
  | .toggle name => g.toggle id name
  | .increment name amount min? max? => g.increment id name amount min? max?
  | .insert name value mark => g.insert id name value (.ofMark? mark)
  | .clear name => g.clear id name

/-- Makes calls, one after the other. -/
def calls (g : Engine S H W) (id : String) (cs : List HostCall) : Ran (Engine S H W) (List WriteOutcome) :=
  Ran.each (fun g c => g.call id c) g cs

end Engine

/-! ## Literal operands -/

/-- The parameter that is a text and refers to nothing. -/
def ActionParameter.ofText (text : String) : ActionParameter := { value := .str text }

def ActionParameter.literal? : ActionParameter → Option String
  | ⟨.str text, .null⟩ => some text
  | _ => none

theorem ActionParameter.literal?_eq_some {p : ActionParameter} {text : String} (h : p.literal? = some text) :
    p = .ofText text := by
  unfold literal? at h
  split at h
  · rw [Option.some.inj h]
    rfl
  · cases h

namespace ActionDescriptor

def isLiteral (d : ActionDescriptor) : Bool := d.parameters.entries.all fun e => e.2.all fun p => p.literal?.isSome

/-- The literal texts of a name. -/
def texts (d : ActionDescriptor) (name : String) : List String := (d.listed name).filterMap ActionParameter.literal?

theorem filterMap_literal? : ∀ {ps : List ActionParameter}, (∀ p ∈ ps, p.literal?.isSome) →
    ps = (ps.filterMap ActionParameter.literal?).map ActionParameter.ofText
  | [], _ => rfl
  | p :: ps, h => by
    obtain ⟨text, htext⟩ := Option.isSome_iff_exists.1 (h p List.mem_cons_self)
    rw [List.filterMap_cons_some htext, List.map_cons, ← ActionParameter.literal?_eq_some htext,
      ← filterMap_literal? fun q hq => h q (List.mem_cons_of_mem p hq)]

theorem listed_of_isLiteral {d : ActionDescriptor} (h : d.isLiteral) (name : String) :
    d.listed name = (d.texts name).map ActionParameter.ofText := by
  refine filterMap_literal? fun p hp => ?_
  unfold listed at hp
  cases hps : d.parameters.get? name with
  | none =>
    rw [hps] at hp
    cases hp
  | some ps =>
    rw [hps] at hp
    have hes := List.all_eq_true.1 h (name, ps) (Table.get?_eq_some.1 hps)
    exact List.all_eq_true.1 hes p hp

theorem parameter?_of_isLiteral {d : ActionDescriptor} (h : d.isLiteral) (name : String) (index : Nat) :
    d.parameter? name index = ((d.texts name)[index]?).map ActionParameter.ofText := by
  unfold parameter?
  rw [listed_of_isLiteral h, List.getElem?_map]

/-! ## The call that a descriptor asks for -/

/-- How far to count: by 1, unless there is a text. -/
def step? (d : ActionDescriptor) : Option Int :=
  match (d.texts "by")[0]? with
  | none => some 1
  | some text => Integer.leading? text

/-- The minimum and the maximum.  A text that is no integer is no bound. -/
def limits (d : ActionDescriptor) : Option Int × Option Int :=
  match d.texts "clamp" with
  | [highest] => (none, Integer.leading? highest)
  | [lowest, highest] => (Integer.leading? lowest, Integer.leading? highest)
  | _ => (none, none)

/-- The type that the value is to be brought to is named. -/
def declaresType (d : ActionDescriptor) : Bool :=
  ((d.texts "value")[1]?).any fun type => type ∈ ["integer", "decimal", "boolean"]

/-- **The call that a descriptor asks for**, if its operands are literal texts and it is about a variable. -/
def hostCall? (d : ActionDescriptor) : Option HostCall :=
  if !d.isLiteral then none
  else
    d.target.bind fun target =>
      match d.action with
      | "toggle" => some (.toggle target)
      | "clear" => some (.clear target)
      | "insert" => some (.insert target (d.texts "value")[0]? (d.texts "at")[0]?)
      | "set-value" => if d.declaresType then none else ((d.texts "value")[0]?).map (.setString target)
      | "increment" => d.step?.map fun n => .increment target n d.limits.1 d.limits.2
      | "decrement" => d.step?.map fun n => .increment target (-n) d.limits.1 d.limits.2
      | _ => none

theorem declaredBy_ofText {text : Option String}
    (h : text.any (fun type => type ∈ ["integer", "decimal", "boolean"]) = false) :
    ValueType.declaredBy (text.map ActionParameter.ofText) = .text := by
  cases text with
  | none => rfl
  | some type =>
    simp only [Option.any_some, List.mem_cons, List.not_mem_nil, or_false, decide_eq_false_iff_not, not_or] at h
    obtain ⟨hinteger, hdecimal, hboolean⟩ := h
    unfold ValueType.declaredBy
    simp [ActionParameter.ofText, Json.asString?, ValueType.name, hinteger, hdecimal, hboolean]

end ActionDescriptor

/-! ## Carrying out -/

/-- Where each step on one side is a step on the other, so are all of them in a row. -/
theorem Ran.each_forall₂ {σ ι ι' α β : Type} {f : σ → ι → Ran σ α} {k : σ → ι' → Ran σ β} {r : ι → ι' → Prop}
    {t : β → α} (h : ∀ state i i', r i i' → (f state i).state = (k state i').state ∧
      (f state i).answer = t (k state i').answer) {is : List ι} {is' : List ι'} (hr : List.Forall₂ r is is') :
    ∀ state : σ, (each f state is).state = (each k state is').state ∧
      (each f state is).answer = (each k state is').answer.map t := by
  induction hr with
  | nil => exact fun _ => ⟨rfl, rfl⟩
  | @cons i i' is is' hi _ ih =>
    intro state
    obtain ⟨hstate, hanswer⟩ := h state i i' hi
    obtain ⟨ihstate, ihanswer⟩ := ih (f state i).state
    show (each f (f state i).state is).state = (each k (k state i').state is').state ∧
      (f state i).answer :: (each f (f state i).state is).answer =
        t (k state i').answer :: (each k (k state i').state is').answer.map t
    rw [ihstate, ihanswer, hanswer, hstate]
    exact ⟨rfl, rfl⟩

namespace Engine
open ActionDescriptor

variable {S H W : Type} {d : ActionDescriptor}

/-- A literal stands for itself. -/
theorem resolveText_ofText (g : Engine S H W) (id text : String) : g.resolveText id none (.ofText text) = text := by
  unfold resolveText resolve
  split <;> rfl

theorem boundsOf_literals (g : Engine S H W) (id : String) (h : d.isLiteral) :
    boundsOf ((d.listed "clamp").map fun p => Integer.leading? (g.resolveText id none p)) = d.limits := by
  have htexts : (d.listed "clamp").map (fun p => Integer.leading? (g.resolveText id none p)) =
      (d.texts "clamp").map Integer.leading? := by
    rw [listed_of_isLiteral h, List.map_map]
    refine List.map_congr_left fun text _ => ?_
    rw [Function.comp_apply, resolveText_ofText]
  rw [htexts]
  unfold limits
  -- The texts are one, two, or another number of them.
  match d.texts "clamp" with
  | [] => rfl
  | [_] => rfl
  | [_, _] => rfl
  | _ :: _ :: _ :: _ => rfl

variable [RenderTarget S]

/-- **Counting by literals** is the call with the amount that the text says, onwards or backwards. -/
theorem count_literals (g : Engine S H W) (id : String) {target : String} {direction n : Int} (h : d.isLiteral)
    (hn : d.step? = some n) :
    g.count id { target, amount := d.parameter? "by" 0, bounds := d.listed "clamp" } direction none =
      g.increment id target (direction * n) d.limits.1 d.limits.2 := by
  unfold count
  simp only
  rw [boundsOf_literals g id h, parameter?_of_isLiteral h]
  unfold step? at hn
  cases ht : (d.texts "by")[0]? with
  | none =>
    rw [ht] at hn
    obtain rfl := Option.some.inj hn
    rw [Int.mul_one]
    rfl
  | some text =>
    simp only [ht] at hn
    simp only [Option.map_some]
    rw [resolveText_ofText, hn]

/-- **A descriptor does what its call does.** -/
theorem actOn_of_hostCall? (run : Runner S H W) (g : Engine S H W) (id : String) {c : HostCall}
    (h : d.hostCall? = some c) :
    actOn run id none g d = ((g.call id c).map .write).after [.runningAction d.action] := by
  unfold hostCall? at h
  split at h
  · cases h
  next hliteral =>
  replace hliteral : d.isLiteral := by simpa using hliteral
  obtain ⟨target, htarget, h⟩ := Option.bind_eq_some_iff.1 h
  have hrequired : Action.requireTarget d = .ok target := by
    unfold Action.requireTarget
    rw [htarget]
  have hcount : Action.countOf d =
      .ok { target, amount := d.parameter? "by" 0, bounds := d.listed "clamp" } := by
    unfold Action.countOf
    rw [hrequired]
    rfl
  have htext : ∀ name, ((d.parameter? name 0).map (g.resolveText id none)) = (d.texts name)[0]? := fun name => by
    rw [parameter?_of_isLiteral hliteral, Option.map_map]
    cases (d.texts name)[0]? with
    | none => rfl
    | some text => exact congrArg some (resolveText_ofText g id text)
  unfold actOn Action.ofDescriptor
  split at h
  case h_1 haction =>
    obtain rfl := Option.some.inj h
    simp only [haction, hrequired]
    rfl
  case h_2 haction =>
    obtain rfl := Option.some.inj h
    simp only [haction, hrequired]
    rfl
  case h_3 haction =>
    obtain rfl := Option.some.inj h
    simp only [haction, hrequired, Except.map]
    show ((g.insert id target _ _).map ActionOutcome.write).after _ = _
    rw [htext, htext]
    rfl
  case h_4 haction =>
    split at h
    · cases h
    next htype =>
    obtain ⟨value, hvalue, rfl⟩ := Option.map_eq_some_iff.1 h
    have hparameter : d.parameter? "value" 0 = some (.ofText value) := by
      rw [parameter?_of_isLiteral hliteral, hvalue]
      rfl
    have hdeclared : ValueType.declaredBy (d.parameter? "value" 1) = .text := by
      rw [parameter?_of_isLiteral hliteral]
      exact declaredBy_ofText (by simpa [declaresType] using htype)
    simp only [haction, hrequired, hparameter, hdeclared]
    show ((g.setValue id target (.ofText value) .text none).map ActionOutcome.write).after _ = _
    unfold setValue
    rw [resolveText_ofText]
    rfl
  case h_5 haction =>
    obtain ⟨n, hn, rfl⟩ := Option.map_eq_some_iff.1 h
    simp only [haction, hcount, Except.map]
    show ((g.count id _ 1 none).map ActionOutcome.write).after _ = _
    rw [count_literals g id hliteral hn, Int.one_mul]
    rfl
  case h_6 haction =>
    obtain ⟨n, hn, rfl⟩ := Option.map_eq_some_iff.1 h
    simp only [haction, hcount, Except.map]
    show ((g.count id _ (-1) none).map ActionOutcome.write).after _ = _
    rw [count_literals g id hliteral hn, Int.neg_one_mul]
    rfl
  case h_7 => cases h

/-- A descriptor that asks for a call says nothing about the event. -/
theorem isFlag_of_hostCall? {c : HostCall} (h : d.hostCall? = some c) :
    isFlag "stop-propagation" d = false ∧ isFlag "prevent-default" d = false := by
  unfold hostCall? at h
  split at h
  · cases h
  obtain ⟨target, -, h⟩ := Option.bind_eq_some_iff.1 h
  unfold isFlag
  split at h
  case h_7 => cases h
  all_goals
    rename_i haction
    rw [haction]
    decide

/-- The descriptors ask for the calls, one for one. -/
def Asks (ds : List ActionDescriptor) (cs : List HostCall) : Prop :=
  List.Forall₂ (fun d c => d.hostCall? = some c) ds cs

theorem Asks.no_flags {ds : List ActionDescriptor} {cs : List HostCall} (h : Asks ds cs) :
    ds.any (isFlag "stop-propagation") = false ∧ ds.any (isFlag "prevent-default") = false := by
  induction h with
  | nil => exact ⟨rfl, rfl⟩
  | cons hd _ ih =>
    obtain ⟨hstop, hprevent⟩ := isFlag_of_hostCall? hd
    rw [List.any_cons, List.any_cons, hstop, hprevent]
    exact ih

/-- **Descriptors with literal operands are calls**, made one after the other: they leave the same state, and their
outcomes are the outcomes of the calls. -/
theorem dispatch_literals (run : Runner S H W) (g : Engine S H W) (id : String) {ds : List ActionDescriptor}
    {cs : List HostCall} (h : Asks ds cs) :
    (g.dispatch run id ds none).state = (g.calls id cs).state ∧
      (g.dispatch run id ds none).answer = { outcomes := (g.calls id cs).answer.map .write } ∧
      (g.dispatch run id ds none).answer.writes = (g.calls id cs).answer := by
  obtain ⟨hstate, hanswer⟩ := Ran.each_forall₂ (t := ActionOutcome.write) (f := actOn run id none)
    (k := fun g c => g.call id c) (fun g d c hc => by
      rw [actOn_of_hostCall? run g id hc]
      exact ⟨rfl, rfl⟩) h g
  obtain ⟨hstop, hprevent⟩ := h.no_flags
  have hreport : (g.dispatch run id ds none).answer = { outcomes := (g.calls id cs).answer.map .write } := by
    unfold dispatch
    simp only [Ran.map, hstop, hprevent, hanswer]
    rfl
  refine ⟨hstate, hreport, ?_⟩
  rw [hreport]
  unfold InteractionReport.writes
  rw [List.filterMap_map]
  exact List.filterMap_some

/-- A page with a counter, a list and two texts. -/
def tally : Engine Surface Empty Unit :=
  (mounted [{ tag := "p", id := "n:main" }] {} ∅ ()).perform
    (.start "main"
      { store := .ofList [("n", { value := "4", dependents := .ofList [("n", [.value])] }), ("list", { value := "[]" }),
          ("on", { value := "true" }), ("name", {})] })

def literal (action target : String) (parameters : List (String × List String)) : ActionDescriptor :=
  { action
    target := some target
    parameters := .ofList (parameters.map fun p => (p.1, p.2.map ActionParameter.ofText)) }

def tallyActions : List ActionDescriptor :=
  [literal "increment" "n" [("by", ["3"]), ("clamp", ["1", "6"])], literal "decrement" "n" [("clamp", ["?", "6"])],
    literal "insert" "list" [("value", ["a"]), ("at", ["start"])], literal "set-value" "name" [("value", ["7", "any"])],
    literal "toggle" "on" [], literal "clear" "missing" []]

def tallyCalls : List HostCall :=
  [.increment "n" 3 (some 1) (some 6), .increment "n" (-1) none (some 6), .insert "list" (some "a") (some "start"),
    .setString "name" "7", .toggle "on", .clear "missing"]

/-- What goes past the maximum goes on at the minimum, and a bound that is no integer is none. -/
theorem dispatch_literals_tally :
    (tally.dispatch Recording.Step.noHost "main" tallyActions none).answer.writes =
        (tally.calls "main" tallyCalls).answer ∧
      (tally.calls "main" tallyCalls).state.surface.textAt? "n:main" = some "0" := by
  have hasks : Asks tallyActions tallyCalls :=
    .cons rfl (.cons rfl (.cons rfl (.cons rfl (.cons rfl (.cons rfl .nil)))))
  exact ⟨(dispatch_literals Recording.Step.noHost tally "main" hasks).2.2, by decide +kernel⟩

end Engine
end BoundPage
