import BoundPage.Proofs.Engine.Operations
import BoundPage.Session.Script
/-!
# The operations of a session

Whatever a host asks for, and whatever its handlers ask for in turn, comes down to operations in a row.  They are read
off what was answered: an interaction runs all of its actions, and every action stands for the write that its outcome
reports, or for what the handler does that it sends a message to (`dispatchOperations`).  Performing them leads to the
page of the session (`Session.tells_afterCalls`), so that what holds after every list of operations holds in every
session, and every write that an answer reports is one of them (`Session.mem_callOperations`).
-/
namespace BoundPage

/-- The write that an action reports. -/
def ActionOutcome.operations (id : String) : ActionOutcome → List Operation
  | write o => o.operations id
  | _ => []

namespace Engine

variable {S H W : Type}

/-! ## Interactions -/

/-- What a message makes a handler do; `does` says what the host's handlers do. -/
def messageOperations (does : H → HandlerCall → Engine S H W → List Operation) (g : Engine S H W) (id name : String)
    (payload reference : Option Json) : List Operation :=
  match g.handlers.find? name with
  | some (.host h) => does h { name := normalizeName name, instanceId := id, payload, reference } g
  | _ => []

variable [RenderTarget S]

/-- The operations of an action: the write that it reports, or those of the handler that gets its message. -/
def actOperations (run : Runner S H W) (does : H → HandlerCall → Engine S H W → List Operation) (g : Engine S H W)
    (id : String) (event : Option String) : Action → List Operation
  | .callHandler name => g.messageOperations does id (normalizeName name) none none
  | .sendData _ data =>
    let payload := g.resolve id event data.decoded
    match functionOf? payload with
    | some name => g.messageOperations does id (normalizeName name) (some payload) (some data.decoded.reference)
    | none => []
  | a => (g.act run id event a).answer.operations id

def actOnOperations (run : Runner S H W) (does : H → HandlerCall → Engine S H W → List Operation) (id : String)
    (event : Option String) (g : Engine S H W) (d : ActionDescriptor) : List Operation :=
  match Action.ofDescriptor d with
  | .ok a => g.actOperations run does id event a
  | .error _ => []

/-- **The operations of an interaction** are those of its actions, one after the other. -/
def dispatchOperations (run : Runner S H W) (does : H → HandlerCall → Engine S H W → List Operation)
    (g : Engine S H W) (id : String) (ds : List ActionDescriptor) (event : Option String) : List Operation :=
  operationsEach (actOn run id event) (actOnOperations run does id event) g ds

/-- What a host's handlers do is made of operations; what these report is not told. -/
def Operates (starts : String → Instance → Prop) (ends : String → Prop) (handlers : Handlers H) (run : Runner S H W)
    (does : H → HandlerCall → Engine S H W → List Operation) : Prop :=
  ∀ name h, handlers.find? name = some (.host h) → ∀ call g, g.handlers = handlers →
    Tells starts ends g (does h call g) (run h call g).state fun _ => []

variable {starts : String → Instance → Prop} {ends : String → Prop} {run : Runner S H W}
  {does : H → HandlerCall → Engine S H W → List Operation} (g : Engine S H W)

theorem tells_messageHost (hrun : Operates starts ends g.handlers run does) (id name : String)
    (payload reference : Option Json) : Tells starts ends g (g.messageOperations does id name payload reference)
      (g.messageHost run id name payload reference).state fun _ => [] := by
  unfold messageOperations messageHost
  cases hfind : g.handlers.find? name with
  | none => exact .refl g
  | some h =>
    cases h with
    | consolePrint => exact .refl g
    | host h => exact hrun name h hfind _ g rfl

theorem tells_sendMessage (hrun : Operates starts ends g.handlers run does) (id handler : String)
    (payload reference : Option Json) : Tells starts ends g (g.messageOperations does id handler payload reference)
      (g.sendMessage run id handler payload reference).state
      (placedFor id (g.sendMessage run id handler payload reference).answer.placed) := by
  rw [show (g.sendMessage run id handler payload reference).answer.placed = [] from rfl, placedFor_nil]
  exact g.tells_messageHost hrun id handler payload reference

/-- What was not done tells nothing. -/
theorem tells_nothing (id : String) : Tells starts ends g [] g (placedFor id []) := by
  rw [placedFor_nil]
  exact .refl g

/-- **An action does what its outcome reports**, or what the handler does that it sends a message to. -/
theorem tells_act (hrun : Operates starts ends g.handlers run does) (id : String) (event : Option String) (a : Action) :
    Tells starts ends g (g.actOperations run does id event a) (g.act run id event a).state
      (placedFor id (g.act run id event a).answer.placed) := by
  cases a with
  | stopPropagation => exact g.tells_nothing id
  | preventDefault => exact g.tells_nothing id
  | toggle target => exact g.tells_toggle id target
  | callHandler name => exact g.tells_sendMessage hrun id _ none none
  | sendData target data =>
    unfold act actOperations
    simp only
    cases functionOf? (g.resolve id event data.decoded) with
    | none => exact g.tells_nothing id
    | some name => exact g.tells_sendMessage hrun id _ _ _
  | increment c => exact g.tells_count id c 1 event
  | decrement c => exact g.tells_count id c (-1) event
  | setValue target p type => exact g.tells_setValue id target p type event
  | insert target value place => exact g.tells_insert id target _ _
  | clear target => exact g.tells_clear id target
  | unknown name => exact g.tells_nothing id

theorem tells_actOn (hrun : Operates starts ends g.handlers run does) (id : String) (event : Option String)
    (d : ActionDescriptor) : Tells starts ends g (actOnOperations run does id event g d) (actOn run id event g d).state
      (placedFor id (actOn run id event g d).answer.placed) := by
  unfold actOn actOnOperations
  cases Action.ofDescriptor d with
  | ok a => exact g.tells_act hrun id event a
  | error e => exact g.tells_nothing id

theorem tells_dispatch (hrun : Operates starts ends g.handlers run does) (id : String) (ds : List ActionDescriptor)
    (event : Option String) : Tells starts ends g (g.dispatchOperations run does id ds event)
      (g.dispatch run id ds event).state (placedFor id (g.dispatch run id ds event).answer.placed) := by
  rw [InteractionReport.placed_eq]
  exact Tells.eachFor ds g fun g' d hg _ => g'.tells_actOn (by rw [hg]; exact hrun) id event d

/-- **A write that an interaction reports is one of its operations.** -/
theorem mem_dispatchOperations {id : String} {ds : List ActionDescriptor} {event : Option String} {o : WriteOutcome}
    (h : o ∈ (g.dispatch run id ds event).answer.writes) :
    o.operations id ⊆ g.dispatchOperations run does id ds event := by
  obtain ⟨outcome, hmem, ho⟩ := List.mem_filterMap.1 h
  have houtcome : outcome = .write o := by
    cases outcome with
    | write o' => exact congrArg ActionOutcome.write (Option.some.inj ho)
    | _ => cases ho
  obtain ⟨g', d, -, hanswer, hsub⟩ := exists_of_mem_each (actOnOperations run does id event) hmem
  refine List.Subset.trans ?_ hsub
  rw [houtcome] at hanswer
  unfold actOn at hanswer
  unfold actOnOperations
  cases hd : Action.ofDescriptor d with
  | error e =>
    rw [hd] at hanswer
    cases hanswer
  | ok a =>
    rw [hd] at hanswer
    change (g'.act run id event a).answer = .write o at hanswer
    -- An action that sends a message is not answered with a write.
    have hwrite : g'.actOperations run does id event a = (g'.act run id event a).answer.operations id := by
      cases a with
      | callHandler name => cases hanswer
      | sendData target data =>
        unfold act at hanswer
        simp only at hanswer
        split at hanswer <;> cases hanswer
      | _ => rfl
    dsimp only
    rw [hwrite, hanswer]
    exact List.Subset.refl _

end Engine

/-! ## Requests -/

namespace Session
open Engine

variable {H W : Type} {run : Runner Surface H W} {does : H → HandlerCall → Engine Surface H W → List Operation}
  {starts : String → Instance → Prop} {ends : String → Prop}

/-- The instance that a request starts. -/
def Request.started? : Request → Option Instance
  | .startText store externals => readInstance? store externals
  | .start i _ => some i
  | _ => none

def Request.isTeardown : Request → Bool
  | .teardown => true
  | _ => false

/-- The objects that an answer says were placed. -/
def Answer.placed : Answer → List String
  | .interaction report | .interactionWithWrites report => report.placed
  | .write o => o.placed
  | .writes os => os.flatMap (·.placed)
  | .objects placed => placed
  | _ => []

/-- **What the answer to a request says was placed**, for every instance.  A write to all instances is answered for one
after the other. -/
def told (g : Engine Surface H W) (id : String) : Request → Answer → String → List String
  | .setForAll _ _, .writes os => fun other => (g.instanceIds.zip os).flatMap fun o => placedFor o.1 o.2.placed other
  | _, a => placedFor id a.placed

/-- The outcomes of writes that an answer gives. -/
def Answer.outcomes : Answer → List WriteOutcome
  | .interaction report | .interactionWithWrites report => report.writes
  | .write o => [o]
  | .writes os => os
  | _ => []

/-- **The writes that the answer to a request reports**, each with the instance that it was made to. -/
def reports (g : Engine Surface H W) (id : String) : Request → Answer → List (String × WriteOutcome)
  | .setForAll _ _, .writes os => g.instanceIds.zip os
  | _, a => a.outcomes.map (id, ·)

/-- **The operations of a request.**  A request that starts or ends an instance or places external children is an
operation itself, and one that writes stands for the writes that it reports. -/
def requestOperations (run : Runner Surface H W) (does : H → HandlerCall → Engine Surface H W → List Operation)
    (g : Engine Surface H W) (id : String) (r : Request) : List Operation :=
  match r with
  | .startText _ _ | .start _ _ => r.started?.toList.map (.start id)
  | .teardown => [.teardown id]
  | .refresh => [.refresh id]
  | .interact actions event =>
    if g.instances.contains id then
      (ActionDescriptor.listOfText? actions).elim [] fun ds => g.dispatchOperations run does id ds event
    else []
  | .dispatchText actions event =>
    (ActionDescriptor.listOfText? actions).elim [] fun ds => g.dispatchOperations run does id ds event
  | .dispatch ds event => g.dispatchOperations run does id ds event
  | .message name payload reference =>
    match readOptional? payload, readOptional? reference with
    | some payload, some reference => g.messageOperations does id name payload reference
    | _, _ => []
  | r => (reports g id r (carryOut run g id r).answer).flatMap fun w => w.2.operations w.1

theorem requestOperations_of_started {r : Request} {i : Instance} (h : r.started? = some i) (g : Engine Surface H W)
    (id : String) : requestOperations run does g id r = [.start id i] := by
  cases r with
  | startText store externals =>
    show (readInstance? store externals).toList.map (Operation.start id) = _
    rw [show readInstance? store externals = some i from h]
    rfl
  | start i' queries =>
    obtain rfl : i' = i := Option.some.inj h
    rfl
  | _ => cases h

/-- The answer to a request that gives one outcome stands for its write. -/
theorem tells_outcome {g : Engine Surface H W} {id : String} {r : Ran (Engine Surface H W) WriteOutcome}
    (h : TellsOutcome starts ends g id r) :
    Tells starts ends g (([r.answer].map (id, ·)).flatMap fun w => w.2.operations w.1) r.state
      (placedFor id r.answer.placed) := by
  rw [List.map_singleton, List.flatMap_singleton]
  exact h

theorem tells_interact (g : Engine Surface H W) (hrun : Operates starts ends g.handlers run does) (id actions : String)
    (event : Option String) :
    Tells starts ends g (requestOperations run does g id (.interact actions event))
      (carryOut run g id (.interact actions event)).state
      (placedFor id (carryOut run g id (.interact actions event)).answer.placed) := by
  unfold requestOperations carryOut interact
  dsimp only
  cases g.instances.contains id with
  | false => exact g.tells_nothing id
  | true =>
    cases ActionDescriptor.listOfText? actions with
    | none => exact g.tells_nothing id
    | some ds => exact g.tells_dispatch hrun id ds event

/-- **Whatever a request asks for is made of its operations.** -/
theorem tells_carryOut (g : Engine Surface H W) (hrun : Operates starts ends g.handlers run does) (id : String)
    (r : Request) (hr : ∀ i, r.started? = some i → starts id i) (he : r.isTeardown → ends id) :
    Tells starts ends g (requestOperations run does g id r) (carryOut run g id r).state
      (told g id r (carryOut run g id r).answer) := by
  have hnone : Tells starts ends g [] g (placedFor id []) := g.tells_nothing id
  cases r with
  | startText store externals =>
    have hanswer : (carryOut run g id (.startText store externals)).answer.placed = [] := by
      show Answer.placed (if _ then _ else _) = []
      split <;> rfl
    show Tells starts ends g _ _ (placedFor id (Answer.placed _))
    rw [hanswer, placedFor_nil]
    exact g.tells_startText id store externals hr
  | start i queries =>
    show Tells starts ends g _ _ (placedFor id [])
    rw [placedFor_nil]
    exact g.tells_start id i (hr i rfl)
  | teardown =>
    show Tells starts ends g _ _ (placedFor id [])
    rw [placedFor_nil]
    refine Tells.perform g (.teardown id) (fun _ _ h => by cases h) fun id' h => ?_
    obtain rfl := Operation.teardown.inj h
    exact he rfl
  | interact actions event => exact tells_interact g hrun id actions event
  | dispatchText actions event =>
    unfold requestOperations carryOut
    simp only
    cases ActionDescriptor.listOfText? actions with
    | none => exact hnone
    | some ds => exact g.tells_dispatch hrun id ds event
  | dispatch ds event => exact g.tells_dispatch hrun id ds event
  | write name value => exact tells_outcome (g.tells_write id name value)
  | toggle name => exact tells_outcome (g.tells_toggle id name)
  | increment name amount min? max? => exact tells_outcome (g.tells_increment id name amount min? max?)
  | insert name value place => exact tells_outcome (g.tells_insert id name value _)
  | clear name => exact tells_outcome (g.tells_clear id name)
  | setMany values =>
    show Tells starts ends g
      (((g.setManyBooleans id values).answer.map (id, ·)).flatMap fun w => w.2.operations w.1) _ _
    rw [List.flatMap_map]
    exact g.tells_setManyBooleans id values
  | setForAll name value => exact g.tells_setForAll name value
  | get name =>
    show Tells starts ends g [] (g.get id name).state (placedFor id [])
    unfold Engine.get
    split <;> exact hnone
  | refresh => exact Tells.perform g (.refresh id) (fun _ _ h => by cases h) fun _ h => by cases h
  | isPlaced object => exact hnone
  | message name payload reference =>
    unfold requestOperations carryOut
    simp only
    cases readOptional? payload with
    | none => exact hnone
    | some payload =>
      cases readOptional? reference with
      | none => exact hnone
      | some reference =>
        show Tells starts ends g _ (g.messageHost run id name _ _).state (placedFor id [])
        rw [placedFor_nil]
        exact g.tells_messageHost hrun id name _ _
  | handlers queries => exact hnone
  | table name => exact hnone
  | node data => exact hnone
  | malformed field => exact hnone

/-- **A write that the answer to a request reports is one of its operations.** -/
theorem mem_requestOperations (g : Engine Surface H W) (id : String) (r : Request) {w : String × WriteOutcome}
    (hw : w ∈ reports g id r (carryOut run g id r).answer) :
    w.2.operations w.1 ⊆ requestOperations run does g id r := by
  have hreported : ∀ {ops : List Operation} {os : List WriteOutcome}, (∀ o ∈ os, o.operations id ⊆ ops) →
      w ∈ os.map (id, ·) → w.2.operations w.1 ⊆ ops := by
    intro ops os hsub hw
    obtain ⟨o, ho, rfl⟩ := List.mem_map.1 hw
    exact hsub o ho
  have hsilent : ∀ {ops : List Operation}, w ∈ ([] : List WriteOutcome).map (id, ·) → w.2.operations w.1 ⊆ ops :=
    fun hw => absurd hw List.not_mem_nil
  have hread : ∀ {ops : List (String × WriteOutcome)}, w ∈ ops →
      w.2.operations w.1 ⊆ ops.flatMap fun w => w.2.operations w.1 := fun hw op hop =>
    List.mem_flatMap.2 ⟨w, hw, hop⟩
  cases r with
  | interact actions event =>
    revert hw
    unfold requestOperations carryOut interact
    dsimp only
    cases g.instances.contains id with
    | false => exact hsilent
    | true =>
      cases ActionDescriptor.listOfText? actions with
      | none => exact hsilent
      | some ds => exact hreported fun o ho => g.mem_dispatchOperations ho
  | dispatchText actions event =>
    revert hw
    unfold requestOperations carryOut
    simp only
    cases ActionDescriptor.listOfText? actions with
    | none => exact hsilent
    | some ds => exact hreported fun o ho => g.mem_dispatchOperations ho
  | dispatch ds event => exact hreported (fun o ho => g.mem_dispatchOperations ho) hw
  | startText store externals =>
    have hanswer : (carryOut run g id (.startText store externals)).answer.outcomes = [] := by
      show Answer.outcomes (if _ then _ else _) = []
      split <;> rfl
    exact hsilent (hanswer ▸ hw)
  | message name payload reference =>
    have hanswer : (carryOut run g id (.message name payload reference)).answer.outcomes = [] := by
      unfold carryOut
      simp only
      split <;> rfl
    exact hsilent (hanswer ▸ hw)
  | start i queries => exact hsilent hw
  | teardown => exact hsilent hw
  | refresh => exact hsilent hw
  | _ => exact hread hw

/-! ## Handlers -/

/-- A call made for an instance starts an instance. -/
def Call.Starts (c : Call) (current id : String) (i : Instance) : Prop :=
  id = c.instanceId.getD current ∧ c.request.started? = some i

/-- A call made for an instance ends one. -/
def Call.Ends (c : Call) (current id : String) : Prop := id = c.instanceId.getD current ∧ c.request.isTeardown

/-- The calls of scripted handlers start and end no other instances. -/
def HandlersAsk (starts : String → Instance → Prop) (ends : String → Prop) (handlers : Handlers ScriptedHandler) :
    Prop :=
  ∀ name h, handlers.find? name = some (.host h) → ∀ c ∈ h.calls, ∀ current,
    (∀ id i, c.Starts current id i → starts id i) ∧ ∀ id, c.Ends current id → ends id

theorem samePage_record (g : SessionEngine) (r : HandlerRecord) : SamePage g (record g r) := ⟨rfl, rfl, rfl, rfl, rfl⟩

/-- A handler makes one of its calls. -/
def handlerStep (room : Nat) (call : HandlerCall) (g : SessionEngine) (c : Call) : Ran SessionEngine Answer :=
  let r := perform (runHandler room) g call.instanceId c
  { r with state := record r.state (.answered call.name r.answer) }

/-- **The operations of a scripted handler** are those of its calls, one after the other; a handler that fails at once
has none. -/
def handlerOperations : Nat → ScriptedHandler → HandlerCall → SessionEngine → List Operation
  | 0, _, _, _ => []
  | room + 1, h, call, g =>
    operationsEach (handlerStep room call)
      (fun g c => requestOperations (runHandler room) (handlerOperations room) g (c.instanceId.getD call.instanceId)
        c.request)
      (record g (.called call)) h.calls

theorem operates_runHandler {handlers : Handlers ScriptedHandler} (hs : HandlersAsk starts ends handlers) (room : Nat) :
    Operates starts ends handlers (runHandler room) (handlerOperations room) := by
  induction room with
  | zero => exact fun _ h _ call g _ => .of_samePage (samePage_record g _)
  | succ room ih =>
    intro name h hh call g hg
    have hstart : Tells starts ends g [] (record g (.called call)) fun _ => [] := .of_samePage (samePage_record g _)
    refine (hstart.trans (Tells.each (f := handlerStep room call) (t := fun _ _ _ => []) h.calls _
      fun g' c hg' hc => ?_)).nothing
    have hrun : Operates starts ends g'.handlers (runHandler room) (handlerOperations room) := by
      rw [hg', ← (samePage_record g _).handlers, hg]
      exact ih
    obtain ⟨hst, hen⟩ := hs name h hh c hc call.instanceId
    have hcall := (tells_carryOut g' hrun (c.instanceId.getD call.instanceId) c.request (fun i hi => hst _ i ⟨rfl, hi⟩)
      fun ht => hen _ ⟨rfl, ht⟩).nothing
    rw [← List.append_nil (requestOperations _ _ _ _ _)]
    exact hcall.trans (.of_samePage (samePage_record _ _))

/-! ## Sessions -/

/-- The operations of a call from outside. -/
def callOperations (g : SessionEngine) (current : String) (c : Call) : List Operation :=
  requestOperations (runHandler depthLimit) (handlerOperations depthLimit) { g with host := [] }
    (c.instanceId.getD current) c.request

/-- The writes that the answer to a call from outside reports. -/
def callReports (g : SessionEngine) (current : String) (c : Call) : List (String × WriteOutcome) :=
  reports g (c.instanceId.getD current) c.request (step g current c).answer

/-- **A call of a session is made of its operations**, those of its scripted handlers included. -/
theorem tells_step (g : SessionEngine) (hs : HandlersAsk starts ends g.handlers) (current : String) (c : Call)
    (hst : ∀ id i, c.Starts current id i → starts id i) (hen : ∀ id, c.Ends current id → ends id) :
    Tells starts ends g (callOperations g current c) (step g current c).state
      (told g (c.instanceId.getD current) c.request (step g current c).answer) := by
  have hstart : Tells starts ends g [] { g with host := [] } fun _ => [] := .of_samePage ⟨rfl, rfl, rfl, rfl, rfl⟩
  exact hstart.trans (tells_carryOut { g with host := [] } (operates_runHandler hs depthLimit) _ c.request
    (fun i hi => hst _ i ⟨rfl, hi⟩) fun ht => hen _ ⟨rfl, ht⟩)

/-- **A write that the answer to a call reports is one of its operations.** -/
theorem mem_callOperations (g : SessionEngine) (current : String) (c : Call) {w : String × WriteOutcome}
    (hw : w ∈ callReports g current c) : w.2.operations w.1 ⊆ callOperations g current c :=
  mem_requestOperations { g with host := [] } _ c.request hw

/-- The engine after calls in a row. -/
def afterCalls (g : SessionEngine) (calls : List (String × Call)) : SessionEngine :=
  calls.foldl (fun g c => (step g c.1 c.2).state) g

/-- **The operations of a session**: those of its calls, one after the other. -/
def operations (g : SessionEngine) : List (String × Call) → List Operation
  | [] => []
  | c :: calls => callOperations g c.1 c.2 ++ operations (step g c.1 c.2).state calls

theorem afterCalls_append (g : SessionEngine) (pre post : List (String × Call)) :
    afterCalls g (pre ++ post) = afterCalls (afterCalls g pre) post := List.foldl_append

theorem operations_append (g : SessionEngine) : ∀ pre post : List (String × Call),
    operations g (pre ++ post) = operations g pre ++ operations (afterCalls g pre) post
  | [], _ => rfl
  | c :: pre, post => by
    rw [List.cons_append, operations, operations, operations_append (step g c.1 c.2).state pre post, List.append_assoc]
    rfl

/-- All that the answers to calls in a row say was placed. -/
def toldBy (g : SessionEngine) : List (String × Call) → String → List String
  | [], _ => []
  | c :: calls, id =>
    told g (c.2.instanceId.getD c.1) c.2.request (step g c.1 c.2).answer id ++ toldBy (step g c.1 c.2).state calls id

/-- **A session is a run of its operations.** -/
theorem tells_afterCalls : ∀ (calls : List (String × Call)) (g : SessionEngine), HandlersAsk starts ends g.handlers →
    (∀ c ∈ calls, (∀ id i, c.2.Starts c.1 id i → starts id i) ∧ ∀ id, c.2.Ends c.1 id → ends id) →
    Tells starts ends g (operations g calls) (afterCalls g calls) (toldBy g calls)
  | [], g, _, _ => .refl g
  | c :: calls, g, hs, hc => by
    obtain ⟨hst, hen⟩ := hc c List.mem_cons_self
    have hone := tells_step g hs c.1 c.2 hst hen
    exact hone.trans (tells_afterCalls calls _ (by rw [hone.handlers]; exact hs) fun c' hc' =>
      hc c' (List.mem_cons_of_mem c hc'))

/-- **A call of a session or of one of its handlers starts an instance.** -/
def Starts (handlers : Handlers ScriptedHandler) (calls : List (String × Call)) (id : String) (i : Instance) : Prop :=
  (∃ c ∈ calls, c.2.Starts c.1 id i) ∨
    ∃ name h, handlers.find? name = some (.host h) ∧ ∃ c ∈ h.calls, ∃ current, c.Starts current id i

/-- **Operations make a session up**: they lead to its page, by way of the pages between its calls; they start the
instances that it and its handlers ask for; and the writes that its answers report are among them. -/
structure MadeUp (g : SessionEngine) (calls : List (String × Call)) (ops : List Operation) : Prop where
  page : SamePage (g.after ops) (afterCalls g calls)
  between : ∀ pre post, calls = pre ++ post → ∃ before, before <+: ops ∧ SamePage (g.after before) (afterCalls g pre)
  started : ∀ id i, .start id i ∈ ops → Starts g.handlers calls id i
  written : ∀ pre c post, calls = pre ++ c :: post → ∀ w ∈ callReports (afterCalls g pre) c.1 c.2,
    ∀ r, w.2.report? = some r → .write w.1 r.target (.text r.value) ∈ ops

theorem tells_operations (g : SessionEngine) (calls : List (String × Call)) :
    Tells (Starts g.handlers calls) (fun _ => True) g (operations g calls) (afterCalls g calls) (toldBy g calls) :=
  tells_afterCalls calls g (fun name h hh c hc current =>
    ⟨fun _ _ hi => .inr ⟨name, h, hh, c, hc, current, hi⟩, fun _ _ => trivial⟩)
    fun c hc => ⟨fun _ _ hi => .inl ⟨c, hc, hi⟩, fun _ _ => trivial⟩

theorem madeUp_operations (g : SessionEngine) (calls : List (String × Call)) :
    MadeUp g calls (operations g calls) where
  page := (tells_operations g calls).page
  between pre post hcalls := by
    refine ⟨operations g pre, ?_, (tells_operations g pre).page⟩
    rw [hcalls, operations_append]
    exact List.prefix_append _ _
  started := (tells_operations g calls).started
  written pre c post hcalls w hw r hr := by
    have hcall := mem_callOperations (afterCalls g pre) c.1 c.2 hw (WriteOutcome.mem_operations hr w.1)
    rw [hcalls, operations_append]
    exact List.mem_append_right _ (List.mem_append_left _ hcall)

/-- **An answer reports that the variable was written**, to one of the calls of a session. -/
def ReportsWrite (g : SessionEngine) (calls : List (String × Call)) (id name : String) : Prop :=
  ∃ pre c post o r, calls = pre ++ c :: post ∧ (id, o) ∈ callReports (afterCalls g pre) c.1 c.2 ∧
    o.report? = some r ∧ r.target = name

/-- What is reported was done. -/
theorem ReportsWrite.exists_write {g : SessionEngine} {calls : List (String × Call)} {id name : String}
    (h : ReportsWrite g calls id name) : ∃ value, .write id name value ∈ operations g calls := by
  obtain ⟨pre, c, post, o, r, hcalls, ho, hr, rfl⟩ := h
  exact ⟨_, (madeUp_operations g calls).written pre c post hcalls _ ho r hr⟩

/-- What holds after all runs that start instances of a kind holds after a session whose instances are of this kind. -/
theorem runs_afterCalls (g : SessionEngine) (calls : List (String × Call)) :
    Runs (Starts g.handlers calls) g (afterCalls g calls) := (tells_operations g calls).runs

theorem handlers_afterCalls (g : SessionEngine) (calls : List (String × Call)) :
    (afterCalls g calls).handlers = g.handlers := (tells_operations g calls).handlers

end Session
end BoundPage
