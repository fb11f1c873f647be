import BoundPage.Proofs.Engine.HostCalls
/-!
# What is skipped changes nothing

A call that is skipped leaves the engine as it is (`Engine.state_call_of_skipped`).  So do the actions of an interaction
that are invalid, unknown or skipped, and the messages that reach no handler (`Engine.Idle`).  They can be left out of
the interaction: the rest does the same, from the same states (`Ran.steps_filter`).
-/
namespace BoundPage

def WriteOutcome.isSkipped (o : WriteOutcome) : Bool := o.skipReason?.isSome

namespace Ran

variable {σ ι α : Type} {f : σ → ι → Ran σ α}

/-- One of several steps: the state before it, what it is for, and its answer. -/
structure Step (σ ι α : Type) where
  before : σ
  item : ι
  answer : α

/-- The steps of `Ran.each`, in order. -/
def steps (f : σ → ι → Ran σ α) (state : σ) : List ι → List (Step σ ι α)
  | [] => []
  | i :: is => ⟨state, i, (f state i).answer⟩ :: steps f (f state i).state is

theorem answer_each (f : σ → ι → Ran σ α) : ∀ (is : List ι) (state : σ),
    (each f state is).answer = (steps f state is).map Step.answer
  | [], _ => rfl
  | i :: is, state => congrArg ((f state i).answer :: ·) (answer_each f is (f state i).state)

theorem item_steps (f : σ → ι → Ran σ α) : ∀ (is : List ι) (state : σ), (steps f state is).map Step.item = is
  | [], _ => rfl
  | i :: is, state => congrArg (i :: ·) (item_steps f is (f state i).state)

/-- A step is made of its item from the state before it. -/
theorem answer_of_mem_steps : ∀ {is : List ι} {state : σ} {s : Step σ ι α}, s ∈ steps f state is →
    s.answer = (f s.before s.item).answer
  | i :: is, state, s, h => by
    rcases List.mem_cons.1 h with rfl | h
    · rfl
    · exact answer_of_mem_steps h

/-- **Steps that leave the state can be left out**: the others are made from the same states, with the same answers, and
the last state is the same. -/
theorem steps_filter (keep : Step σ ι α → Bool)
    (hidle : ∀ state i, keep ⟨state, i, (f state i).answer⟩ = false → (f state i).state = state) :
    ∀ (is : List ι) (state : σ),
      (each f state (((steps f state is).filter keep).map Step.item)).state = (each f state is).state ∧
        steps f state (((steps f state is).filter keep).map Step.item) = (steps f state is).filter keep
  | [], _ => ⟨rfl, rfl⟩
  | i :: is, state => by
    obtain ⟨ihstate, ihsteps⟩ := steps_filter keep hidle is (f state i).state
    rw [show steps f state (i :: is) = ⟨state, i, (f state i).answer⟩ :: steps f (f state i).state is from rfl,
      show (each f state (i :: is)).state = (each f (f state i).state is).state from rfl]
    cases hkeep : keep ⟨state, i, (f state i).answer⟩ with
    | true =>
      rw [List.filter_cons_of_pos hkeep, List.map_cons]
      exact ⟨ihstate, congrArg (_ :: ·) ihsteps⟩
    | false =>
      rw [List.filter_cons_of_neg (by rw [hkeep]; exact Bool.false_ne_true)]
      rw [hidle state i hkeep] at ihstate ihsteps ⊢
      exact ⟨ihstate, ihsteps⟩

end Ran

namespace Engine

variable {S H W : Type} {g : Engine S H W} {id name : String}

/-! ## Calls -/

/-- What is done with the text of a variable is skipped without one. -/
theorem state_withCurrent_of_skipped {f : String → Ran (Engine S H W) WriteOutcome}
    (hf : ∀ value, (f value).answer.isSkipped → (f value).state = g) (h : (g.withCurrent id name f).answer.isSkipped) :
    (g.withCurrent id name f).state = g := by
  unfold withCurrent at h ⊢
  split
  · next value hvalue =>
    rw [hvalue] at h
    exact hf value h
  · rfl

variable [RenderTarget S]

theorem Instance.write_of_skipped {effector : StyleEffector S} {options : Options} {s : S} {i : Instance}
    {value : Scalar} (h : (i.write effector options id s name value).outcome.isSkipped) :
    (i.write effector options id s name value).surface = s ∧ (i.write effector options id s name value).inst = i := by
  unfold Instance.write at h ⊢
  split
  · exact ⟨rfl, rfl⟩
  · next v hv =>
    rw [hv] at h
    cases h

theorem state_write_of_skipped {value : Scalar} (h : (g.write id name value).answer.isSkipped) :
    (g.write id name value).state = g := by
  unfold write at h ⊢
  cases hi : g.instance? id with
  | none => rfl
  | some i =>
    rw [hi] at h
    obtain ⟨hsurface, hinst⟩ := Instance.write_of_skipped h
    -- The instance is put back as it was.
    show { g with surface := _, instances := g.instances.insert id _ } = g
    rw [hsurface, hinst, Table.insert_of_get? hi]

theorem state_increment_of_skipped {amount : Int} {min? max? : Option Int}
    (h : (g.increment id name amount min? max?).answer.isSkipped) :
    (g.increment id name amount min? max?).state = g := by
  refine state_withCurrent_of_skipped (fun value hvalue => ?_) h
  split at hvalue
  · exact state_write_of_skipped hvalue
  · rfl

theorem state_insert_of_skipped {value : Option String} {place : Place}
    (h : (g.insert id name value place).answer.isSkipped) : (g.insert id name value place).state = g := by
  refine state_withCurrent_of_skipped (fun current hcurrent => ?_) h
  split at hcurrent
  · split at hcurrent
    · exact state_write_of_skipped hcurrent
    · rfl
  · rfl

/-- **A call that is skipped leaves the engine as it is.** -/
theorem state_call_of_skipped {c : HostCall} (h : (g.call id c).answer.isSkipped) : (g.call id c).state = g := by
  cases c with
  | write name value => exact state_write_of_skipped h
  | setBoolean name value => exact state_write_of_skipped h
  | setString name value => exact state_write_of_skipped h
  | toggle name => exact state_withCurrent_of_skipped (fun _ => state_write_of_skipped) h
  | increment name amount min? max? => exact state_increment_of_skipped h
  | insert name value mark => exact state_insert_of_skipped h
  | clear name => exact state_withCurrent_of_skipped (fun _ => state_write_of_skipped) h

/-! ## Actions -/

theorem state_setValue_of_skipped {target : String} {p : ActionParameter} {type : ValueType} {event : Option String}
    (h : (g.setValue id target p type event).answer.isSkipped) : (g.setValue id target p type event).state = g := by
  unfold setValue at h ⊢
  simp only at h ⊢
  split at h
  · exact state_write_of_skipped h
  · rfl

theorem state_count_of_skipped {c : Count} {direction : Int} {event : Option String}
    (h : (g.count id c direction event).answer.isSkipped) : (g.count id c direction event).state = g := by
  unfold count at h ⊢
  simp only at h ⊢
  split at h
  · exact state_increment_of_skipped h
  · split at h
    · exact state_increment_of_skipped h
    · rfl

/-- The message of an action reaches no handler: it has no function field, or there is no handler of that name. -/
def isLost (g : Engine S H W) (id : String) (event : Option String) : Action → Bool
  | .callHandler name => (g.handlers.find? (normalizeName name)).isNone
  | .sendData _ data =>
    (functionOf? (g.resolve id event data.decoded)).all fun name => (g.handlers.find? (normalizeName name)).isNone
  | _ => false

/-- **Nothing was done for an action**: it was invalid, unknown or skipped, or its message was lost. -/
def isIdle (id : String) (event : Option String) (s : Ran.Step (Engine S H W) ActionDescriptor ActionOutcome) : Bool :=
  match s.answer with
  | .invalid _ | .unknown _ => true
  | .write o => o.isSkipped
  | .message _ _ => (Action.ofDescriptor s.item).toOption.any (s.before.isLost id event)
  | .flag => false

variable {run : Runner S H W} {event : Option String}

omit [RenderTarget S] in
theorem sendMessage_of_no_handler (run : Runner S H W) (id : String) {handler : String}
    (payload reference : Option Json) (h : g.handlers.find? handler = none) :
    (g.sendMessage run id handler payload reference).state = g ∧
      (g.sendMessage run id handler payload reference).answer =
        .message handler (.error (.notRegistered (normalizeName handler))) := by
  unfold sendMessage messageHost
  rw [h]
  exact ⟨rfl, rfl⟩

/-- A lost message leaves the engine as it is, and its outcome says so. -/
theorem act_of_isLost {a : Action} (h : g.isLost id event a) :
    (g.act run id event a).state = g ∧ ∃ handler e, (g.act run id event a).answer = .message handler (.error e) ∧
      (e = .missingFunction ∨ e = .notRegistered (normalizeName handler)) := by
  cases a with
  | callHandler name =>
    obtain ⟨hstate, hanswer⟩ := sendMessage_of_no_handler run id none none (Option.isNone_iff_eq_none.1 h)
    exact ⟨hstate, _, _, hanswer, .inr rfl⟩
  | sendData target data =>
    unfold act
    simp only
    cases hf : functionOf? (g.resolve id event data.decoded) with
    | none => exact ⟨rfl, _, _, rfl, .inl rfl⟩
    | some name =>
      simp only [isLost, hf, Option.all_some] at h
      obtain ⟨hstate, hanswer⟩ := sendMessage_of_no_handler run id (some (g.resolve id event data.decoded))
        (some data.decoded.reference) (Option.isNone_iff_eq_none.1 h)
      exact ⟨hstate, _, _, hanswer, .inr rfl⟩
  | _ => cases h

theorem state_act_of_isIdle {d : ActionDescriptor} {a : Action} (ha : Action.ofDescriptor d = .ok a)
    (h : isIdle id event ⟨g, d, (g.act run id event a).answer⟩) : (g.act run id event a).state = g := by
  have hlost : ∀ handler result, (g.act run id event a).answer = .message handler result → g.isLost id event a := by
    intro handler result hmessage
    unfold isIdle at h
    simp only [hmessage, ha] at h
    exact h
  cases a with
  | stopPropagation => rfl
  | preventDefault => rfl
  | unknown name => rfl
  | toggle target => exact state_call_of_skipped (c := .toggle target) h
  | clear target => exact state_call_of_skipped (c := .clear target) h
  | insert target value place => exact state_insert_of_skipped h
  | increment c => exact state_count_of_skipped h
  | decrement c => exact state_count_of_skipped h
  | setValue target p type => exact state_setValue_of_skipped h
  | callHandler name => exact (act_of_isLost (hlost _ _ rfl)).1
  | sendData target data =>
    refine (act_of_isLost ?_).1
    unfold act at hlost
    simp only at hlost
    split at hlost
    · exact hlost _ _ rfl
    · exact hlost _ _ rfl

/-- **An idle action leaves the engine as it is.** -/
theorem state_actOn_of_isIdle {d : ActionDescriptor} (h : isIdle id event ⟨g, d, (actOn run id event g d).answer⟩) :
    (actOn run id event g d).state = g := by
  unfold actOn at h ⊢
  cases ha : Action.ofDescriptor d with
  | ok a =>
    rw [ha] at h
    exact state_act_of_isIdle ha h
  | error e => rfl

/-- A flag for the event is not idle. -/
theorem isIdle_of_isFlag {d : ActionDescriptor} {name : String}
    (hname : name = "stop-propagation" ∨ name = "prevent-default") (h : isFlag name d) :
    isIdle id event ⟨g, d, (actOn run id event g d).answer⟩ = false := by
  unfold isFlag at h
  rw [beq_iff_eq] at h
  unfold actOn Action.ofDescriptor
  rcases hname with rfl | rfl
  · rw [h]
    rfl
  · rw [h]
    rfl

/-! ## Leaving out -/

/-- The actions of an interaction that are not idle. -/
def working (run : Runner S H W) (g : Engine S H W) (id : String) (event : Option String) (ds : List ActionDescriptor) :
    List (Ran.Step (Engine S H W) ActionDescriptor ActionOutcome) :=
  (Ran.steps (actOn run id event) g ds).filter fun s => !isIdle id event s

/-- The flags of an interaction are among its working actions. -/
theorem any_isFlag_working {name : String} (hname : name = "stop-propagation" ∨ name = "prevent-default")
    (ds : List ActionDescriptor) :
    ((working run g id event ds).map Ran.Step.item).any (isFlag name) = ds.any (isFlag name) := by
  rw [Bool.eq_iff_iff, List.any_eq_true, List.any_eq_true]
  constructor
  · rintro ⟨d, hd, hflag⟩
    obtain ⟨s, hs, rfl⟩ := List.mem_map.1 hd
    refine ⟨s.item, ?_, hflag⟩
    rw [← Ran.item_steps (actOn run id event) ds g]
    exact List.mem_map_of_mem (List.mem_filter.1 hs).1
  · rintro ⟨d, hd, hflag⟩
    rw [← Ran.item_steps (actOn run id event) ds g] at hd
    obtain ⟨s, hs, rfl⟩ := List.mem_map.1 hd
    have hworks : isIdle id event s = false := by
      rw [show s = ⟨s.before, s.item, (actOn run id event s.before s.item).answer⟩ by
        rw [← Ran.answer_of_mem_steps hs]]
      exact isIdle_of_isFlag hname hflag
    exact ⟨s.item, List.mem_map_of_mem (List.mem_filter.2 ⟨hs, by rw [hworks]; rfl⟩), hflag⟩

/-- The elements of several writes that are applied. -/
def appliedOf (g : Engine S H W) (id : String) (values : List (String × Bool)) :
    List (Ran.Step (Engine S H W) (String × Bool) WriteOutcome) :=
  (Ran.steps (fun g v => g.setBoolean id v.1 v.2) g values).filter fun s => !s.answer.isSkipped

/-- **What is skipped changes nothing**: neither a call nor an action that is skipped, and what is skipped among several
writes, or idle in an interaction, can be left out. -/
theorem skips_change_nothing (run : Runner S H W) (g : Engine S H W) (id : String) :
    (∀ c, (g.call id c).answer.isSkipped → (g.call id c).state = g) ∧
    (∀ target p type event, (g.setValue id target p type event).answer.isSkipped →
      (g.setValue id target p type event).state = g) ∧
    (∀ c direction event, (g.count id c direction event).answer.isSkipped → (g.count id c direction event).state = g) ∧
    (∀ values,
      (g.setManyBooleans id ((g.appliedOf id values).map (·.item))).state = (g.setManyBooleans id values).state ∧
      (g.setManyBooleans id ((g.appliedOf id values).map (·.item))).answer =
        (g.setManyBooleans id values).answer.filter fun o => !o.isSkipped) ∧
    ∀ event ds,
      (g.dispatch run id ds event).answer.outcomes = (Ran.steps (actOn run id event) g ds).map (·.answer) ∧
      (g.dispatch run id ((working run g id event ds).map (·.item)) event).state = (g.dispatch run id ds event).state ∧
      (g.dispatch run id ((working run g id event ds).map (·.item)) event).answer =
        { (g.dispatch run id ds event).answer with outcomes := (working run g id event ds).map (·.answer) } := by
  refine ⟨fun c => state_call_of_skipped, fun _ _ _ _ => state_setValue_of_skipped,
    fun _ _ _ => state_count_of_skipped, fun values => ?_, fun event ds => ⟨Ran.answer_each _ ds g, ?_⟩⟩
  · obtain ⟨hstate, hsteps⟩ := Ran.steps_filter (f := fun g v => g.setBoolean id v.1 v.2)
      (fun s => !s.answer.isSkipped) (fun g v hkeep => by
        have hskipped : (g.setBoolean id v.1 v.2).answer.isSkipped := by simpa only [Bool.not_eq_false'] using hkeep
        exact state_write_of_skipped hskipped) values g
    refine ⟨hstate, ?_⟩
    unfold setManyBooleans appliedOf
    rw [Ran.answer_each, hsteps, Ran.answer_each, List.filter_map]
    rfl
  · obtain ⟨hstate, hsteps⟩ := Ran.steps_filter (f := actOn run id event) (fun s => !isIdle id event s)
      (fun g d hidle => state_actOn_of_isIdle (by simpa using hidle)) ds g
    refine ⟨hstate, ?_⟩
    have houtcomes : (Ran.each (actOn run id event) g ((working run g id event ds).map (·.item))).answer =
        (working run g id event ds).map (·.answer) := by
      rw [Ran.answer_each]
      exact congrArg (List.map (·.answer)) hsteps
    unfold dispatch
    simp only [Ran.map, houtcomes, any_isFlag_working (.inl rfl), any_isFlag_working (.inr rfl)]

/-- Two actions that do something, and what is not done for the others. -/
def idleActions : List ActionDescriptor :=
  [literal "increment" "name" [], literal "set-value" "name" [("value", ["8"])], { action := "toggle" },
    literal "message-host" "nobody" [], literal "message-host" "nobody" [("data", ["hello"])],
    literal "increment" "name" [], literal "polish" "name" [], literal "insert" "list" [("value", [" "])]]

/-- Counting is skipped as long as there is no number, and counts when there is one. -/
theorem skips_change_nothing_tally :
    ((working Recording.Step.noHost tally "main" none idleActions).map (·.item.action) = ["set-value", "increment"]) ∧
      (tally.dispatch Recording.Step.noHost "main"
        ((working Recording.Step.noHost tally "main" none idleActions).map (·.item)) none).state =
          (tally.dispatch Recording.Step.noHost "main" idleActions none).state :=
  ⟨by decide +kernel, ((skips_change_nothing Recording.Step.noHost tally "main").2.2.2.2 none idleActions).2.1⟩

end Engine
end BoundPage
