import BoundPage.Proofs.Surface.Regions
import BoundPage.Proofs.Write.Applied
/-!
# The effects of a pass

What a pass does for style parameters, call by call in its order (`calls`), and which of the calls for a parameter of a
node is the last one (`lastEffect?_calls`): that of the last matching style dependency that names the parameter, or else
the reset of the last one that names it.
-/
namespace BoundPage.Pass
open RenderTarget

/-- What is done for a parameter: it is given a value, or none, or it is set to no width. -/
inductive Effect where
  | give (v : StyleValue)
  | zero
deriving DecidableEq

structure Call where
  node : Nat
  parameter : String
  effect : Effect
deriving DecidableEq

variable {S : Type}

def resetEffect (p : Pass S) (parameter : String) (style : StyleParameter) : Effect :=
  match style.fallback with
  | some v => .give v
  | none => if p.options.resetsToZero parameter then .zero else .give {}

/-- The calls of a style dependency of a node; what has been applied is not reset. -/
def styleCalls (p : Pass S) (element : String) (n : Nat) (matched : Bool) (edited : List (String × String))
    (entries : List (String × StyleParameter)) : List Call :=
  if matched then entries.map fun e => ⟨n, e.1, .give e.2.value⟩
  else (entries.filter fun e => !edited.contains (element, e.1)).map fun e => ⟨n, e.1, p.resetEffect e.1 e.2⟩

/-! ## What dependencies say about a parameter -/

/-- What style dependencies say about a parameter that they name, with their conditions. -/
def styled (ds : List Dependency) (parameter : String) : List (Option String × StyleParameter) :=
  ds.filterMap fun
    | .style condition parameters => (parameters.get? parameter).map fun style => (condition, style)
    | _ => none

/-- The values that the matching ones of them give it. -/
def matching (p : Pass S) (ds : List Dependency) (parameter : String) : List StyleValue :=
  ((styled ds parameter).filter fun x => x.1 == some p.value).map fun x => x.2.value

/-- The last value of a matching style dependency, or else the last reset. -/
def prevailing? (p : Pass S) (ds : List Dependency) (parameter : String) : Option Effect :=
  ((p.matching ds parameter).getLast?.map .give).or
    ((styled ds parameter).getLast?.map fun x => p.resetEffect parameter x.2)

theorem styled_append (ds ds' : List Dependency) (parameter : String) :
    styled (ds ++ ds') parameter = styled ds parameter ++ styled ds' parameter := List.filterMap_append

theorem styled_style (condition : Option String) (parameters : Table StyleParameter) (parameter : String) :
    styled [.style condition parameters] parameter =
      ((parameters.get? parameter).map fun style => (condition, style)).toList := by
  cases h : parameters.get? parameter <;> simp [styled, h]

variable {p : Pass S} {d : Dependency} {ds : List Dependency} {parameter : String}

theorem matching_append (ds ds' : List Dependency) :
    p.matching (ds ++ ds') parameter = p.matching ds parameter ++ p.matching ds' parameter := by
  unfold matching
  rw [styled_append, List.filter_append, List.map_append]

/-- A value that has been given is only replaced by another one. -/
theorem prevailing?_append (ds ds' : List Dependency) : p.prevailing? (ds ++ ds') parameter =
    (if p.matching ds parameter = [] then p.prevailing? ds' parameter
      else (p.matching ds' parameter).getLast?.map .give).or (p.prevailing? ds parameter) := by
  unfold prevailing?
  rw [matching_append, styled_append, List.getLast?_append, List.getLast?_append, Option.map_or, Option.map_or]
  split
  · next h => simp [h, Option.or_assoc]
  · next h =>
    rw [List.getLast?_eq_some_getLast h]
    simp [← Option.or_assoc]

/-- **A parameter has been applied if a matching style dependency gives it a value.** -/
theorem mem_applied : parameter ∈ p.applied ds ↔ p.matching ds parameter ≠ [] := by
  induction ds with
  | nil => simp [applied, matching, styled]
  | cons d ds ih =>
    have hone : parameter ∈ p.applied [d] ↔ p.matching [d] parameter ≠ [] := by
      cases d with
      | style condition parameters =>
        unfold applied matching
        rw [styled_style, List.flatMap_singleton]
        dsimp only
        cases hc : condition == some p.value with
        | false => cases parameters.get? parameter <;> simp [hc]
        | true =>
          rw [if_pos rfl, Table.mem_names_iff_isSome]
          cases parameters.get? parameter <;> simp [hc]
      | _ => simp [applied, matching, styled]
    rw [applied_cons, List.mem_append, ih, hone, ← List.singleton_append (l := ds), matching_append, ← not_and_or,
      ← List.append_eq_nil_iff]

theorem exists_of_mem_applied (h : parameter ∈ p.applied ds) :
    ∃ parameters style, .style (some p.value) parameters ∈ ds ∧ parameters.get? parameter = some style := by
  obtain ⟨d, hd, h⟩ := List.mem_flatMap.1 h
  cases d with
  | style condition parameters =>
    dsimp only at h
    split at h
    · next hc =>
      obtain ⟨style, hstyle⟩ := Option.isSome_iff_exists.1 (Table.mem_names_iff_isSome.1 h)
      exact ⟨parameters, style, beq_iff_eq.1 hc ▸ hd, hstyle⟩
    · cases h
  | _ => cases h

/-- **The calls of a style dependency**: one for each parameter that it applies or resets. -/
theorem mem_styleCalls {c : Call} {element : String} {n : Nat} {matched : Bool} {edited : List (String × String)}
    {parameters : Table StyleParameter} : c ∈ p.styleCalls element n matched edited parameters.entries ↔
      c.node = n ∧ ∃ style, parameters.get? c.parameter = some style ∧
        if matched then c.effect = .give style.value
        else (element, c.parameter) ∉ edited ∧ c.effect = p.resetEffect c.parameter style := by
  unfold styleCalls
  simp only [Table.get?_eq_some]
  cases matched with
  | true =>
    rw [if_pos rfl, List.mem_map]
    constructor
    · rintro ⟨e, he, rfl⟩
      exact ⟨rfl, e.2, he, rfl⟩
    · rintro ⟨rfl, style, hs, he⟩
      exact ⟨_, hs, by rw [← (show c.effect = _ from he)]⟩
  | false =>
    rw [if_neg Bool.false_ne_true, List.mem_map]
    constructor
    · rintro ⟨e, he, rfl⟩
      obtain ⟨he, hedited⟩ := List.mem_filter.1 he
      exact ⟨rfl, e.2, he, by simpa using hedited, rfl⟩
    · rintro ⟨rfl, style, hs, hedited, he⟩
      exact ⟨_, List.mem_filter.2 ⟨hs, by simpa using hedited⟩, by rw [← he]⟩

variable [RenderTarget S]

def Call.run (p : Pass S) (s : S) (c : Call) : S :=
  match c.effect with
  | .give v => p.effector s c.node c.parameter v.text v.important
  | .zero => setStyle s c.node c.parameter (some zeroWidth) false

def callsOf (p : Pass S) (k : NodeKey) (d : Dependency) (st : State S) : List Call :=
  match d, locate st.surface k with
  | .style condition parameters, some n =>
    p.styleCalls k.element n (condition == some p.value) st.edited parameters.entries
  | _, _ => []

/-- The calls of dependencies behind some that have been carried out from a state on. -/
def callsBehind (p : Pass S) (k : NodeKey) (ds : List Dependency) (st : State S) :
    List Dependency → List Dependency → List Call
  | _, [] => []
  | before, d :: left =>
    p.callsOf k d (p.applyEach k ds before st) ++ p.callsBehind k ds st (before ++ [d]) left

def entryCalls (p : Pass S) (st : State S) (e : String × List Dependency) : List Call :=
  if st.destroyed.contains e.1 then [] else p.callsBehind (p.key e.1) e.2 st [] e.2

def callsFrom (p : Pass S) : State S → List (String × List Dependency) → List Call
  | _, [] => []
  | st, e :: es => p.entryCalls st e ++ p.callsFrom (p.entry st e) es

/-- **The calls of a pass**, in their order. -/
def calls (p : Pass S) (s : S) : List Call := p.callsFrom (p.begin s) p.dependents.entries

def lastEffect? (calls : List Call) (n : Nat) (parameter : String) : Option Effect :=
  ((calls.filter fun c => c.node == n && c.parameter == parameter).getLast?).map Call.effect

theorem lastEffect?_append (cs cs' : List Call) (n : Nat) (parameter : String) :
    lastEffect? (cs ++ cs') n parameter = (lastEffect? cs' n parameter).or (lastEffect? cs n parameter) := by
  unfold lastEffect?
  rw [List.filter_append, List.getLast?_append, Option.map_or]

theorem lastEffect?_of_node_ne {cs : List Call} {n : Nat} (h : ∀ c ∈ cs, c.node ≠ n) (parameter : String) :
    lastEffect? cs n parameter = none := by
  unfold lastEffect?
  rw [List.filter_eq_nil_iff.2 fun c hc => by simp [h c hc]]
  rfl

/-! ## Calls are what a pass does -/

variable {k : NodeKey} {st st' : State S}

theorem run_resetEffect (s : S) (n : Nat) (parameter : String) (style : StyleParameter) :
    Call.run p s ⟨n, parameter, p.resetEffect parameter style⟩ = p.resetParameter s n parameter style := by
  unfold Call.run resetEffect resetParameter
  cases style.fallback with
  | some v => rfl
  | none => cases p.options.resetsToZero parameter <;> rfl

theorem foldl_matched (element : String) (n : Nat) : ∀ (entries : List (String × StyleParameter)) (st : State S),
    (entries.foldl (p.styleParameter element n true) st).surface =
      (p.styleCalls element n true st.edited entries).foldl (Call.run p) st.surface
  | [], _ => rfl
  | e :: entries, st => foldl_matched element n entries (p.styleParameter element n true st e)

theorem foldl_unmatched (element : String) (n : Nat) : ∀ (entries : List (String × StyleParameter)) (st : State S),
    (entries.foldl (p.styleParameter element n false) st).surface =
      (p.styleCalls element n false st.edited entries).foldl (Call.run p) st.surface
  | [], _ => rfl
  | e :: entries, st => by
    have ih := foldl_unmatched element n entries (p.styleParameter element n false st e)
    have hnext : p.styleParameter element n false st e =
        if st.edited.contains (element, e.1) then st
        else { st with surface := p.resetParameter st.surface n e.1 e.2 } := rfl
    rw [List.foldl_cons, ih, hnext]
    unfold styleCalls
    cases hc : st.edited.contains (element, e.1) with
    | true => rw [List.filter_cons_of_neg (by simpa using hc)]; rfl
    | false =>
      rw [List.filter_cons_of_pos (by simpa using hc)]
      simp only [Bool.false_eq_true, if_false, List.map_cons, List.foldl_cons, run_resetEffect]

theorem callsOf_style {n : Nat} (hl : locate st.surface k = some n) (condition : Option String)
    (parameters : Table StyleParameter) : p.callsOf k (.style condition parameters) st =
      p.styleCalls k.element n (condition == some p.value) st.edited parameters.entries := by
  unfold callsOf
  rw [hl]

theorem callsOf_missing (hl : locate st.surface k = none) (d : Dependency) : p.callsOf k d st = [] := by
  unfold callsOf
  rw [hl]
  cases d <;> rfl

/-- **A style dependency that is carried out makes its calls**, and that is all it does to the page. -/
theorem surface_of_style {ds : List Dependency} {condition : Option String} {parameters : Table StyleParameter}
    (h : p.applyOne k ds (.style condition parameters) st = .ok st') :
    st'.surface = (p.callsOf k (.style condition parameters) st).foldl (Call.run p) st.surface := by
  have hch := change_of_applyOne h
  generalize st'.surface = t, st'.table = table, st'.destroyed = destroyed at hch ⊢
  cases hch with
  | style hl =>
    rw [callsOf_style hl]
    cases condition == some p.value with
    | true => exact foldl_matched k.element _ parameters.entries st
    | false => exact foldl_unmatched k.element _ parameters.entries st

theorem surface_concat_style (k : NodeKey) (ds before : List Dependency) (condition : Option String)
    (parameters : Table StyleParameter) (st : State S) :
    (p.applyEach k ds (before ++ [.style condition parameters]) st).surface =
      (p.callsOf k (.style condition parameters) (p.applyEach k ds before st)).foldl (Call.run p)
        (p.applyEach k ds before st).surface := by
  cases hl : locate (p.applyEach k ds before st).surface k with
  | none =>
    rw [callsOf_missing hl]
    rcases applyEach_concat p k ds (.style condition parameters) before st with h | ⟨h, -⟩
    · rw [applyOne_of_missing (by rintro ⟨⟩) hl] at h
      cases h
    · exact h
  | some n =>
    have hone : p.applyOne k ds (.style condition parameters) (p.applyEach k ds before st) = .ok _ := applyOne_style hl
    rw [applyEach_append _ before st (by rw [hl]; rfl), applyEach, hone]
    exact surface_of_style hone

def StylesOnly (p : Pass S) : Prop :=
  ∀ e ∈ p.dependents.entries, ∀ d ∈ e.2, ∃ condition parameters, d = .style condition parameters

theorem surface_callsBehind (k : NodeKey) (ds : List Dependency) (st : State S) : ∀ left before : List Dependency,
    (∀ d ∈ left, ∃ condition parameters, d = Dependency.style condition parameters) →
      (p.applyEach k ds (before ++ left) st).surface =
        (p.callsBehind k ds st before left).foldl (Call.run p) (p.applyEach k ds before st).surface
  | [], before, _ => by
    rw [List.append_nil]
    rfl
  | d :: left, before, h => by
    obtain ⟨condition, parameters, rfl⟩ := h d List.mem_cons_self
    have ih := surface_callsBehind k ds st left (before ++ [.style condition parameters]) fun d' hd' =>
      h d' (List.mem_cons_of_mem _ hd')
    rw [List.append_assoc, List.singleton_append] at ih
    rw [ih, surface_concat_style, callsBehind, List.foldl_append]

theorem surface_callsFrom : ∀ (es : List (String × List Dependency)) (st : State S),
    (∀ e ∈ es, ∀ d ∈ e.2, ∃ condition parameters, d = Dependency.style condition parameters) →
      (es.foldl p.entry st).surface = (p.callsFrom st es).foldl (Call.run p) st.surface
  | [], _, _ => rfl
  | e :: es, st, h => by
    have hentry : (p.entry st e).surface = (p.entryCalls st e).foldl (Call.run p) st.surface := by
      rw [entry_eq]
      unfold entryCalls
      split
      · rfl
      · exact surface_callsBehind (p.key e.1) e.2 st e.2 [] (h e List.mem_cons_self)
    rw [List.foldl_cons, surface_callsFrom es _ fun e' he' => h e' (List.mem_cons_of_mem e he'), hentry, callsFrom,
      List.foldl_append]

/-- **Where there are style dependencies only, the calls are all that a pass does to the page.** -/
theorem StylesOnly.surface_run (h : p.StylesOnly) (s : S) :
    (p.run s).surface = (p.calls s).foldl (Call.run p) s :=
  surface_callsFrom p.dependents.entries (p.begin s) h

/-! ## The calls for one node -/

theorem node_of_mem_callsOf {c : Call} (h : c ∈ p.callsOf k d st) : locate st.surface k = some c.node := by
  unfold callsOf at h
  split at h
  · next hl =>
    rw [hl]
    unfold styleCalls at h
    split at h
    · obtain ⟨e, -, rfl⟩ := List.mem_map.1 h
      rfl
    · obtain ⟨e, -, rfl⟩ := List.mem_map.1 h
      rfl
  · cases h

theorem mem_callsBehind {c : Call} {ds : List Dependency} : ∀ {left before : List Dependency},
    c ∈ p.callsBehind k ds st before left → ∃ mid d rest, left = mid ++ d :: rest ∧
      c ∈ p.callsOf k d (p.applyEach k ds (before ++ mid) st)
  | [], _, h => by cases h
  | d :: left, before, h => by
    rcases List.mem_append.1 h with h | h
    · exact ⟨[], d, left, rfl, by rwa [List.append_nil]⟩
    · obtain ⟨mid, d', rest, rfl, hc⟩ := mem_callsBehind h
      exact ⟨d :: mid, d', rest, rfl, by rwa [List.append_assoc] at hc⟩

theorem mem_callsFrom {c : Call} {start : State S} : ∀ {es : List (String × List Dependency)}
    (pre : List (String × List Dependency)), c ∈ p.callsFrom (pre.foldl p.entry start) es → ∃ e ∈ es, ∃ d left st,
      p.Stage (pre ++ es) start e (d :: left) st ∧ c ∈ p.callsOf (p.key e.1) d st
  | [], _, h => by cases h
  | e :: es, pre, h => by
    rcases List.mem_append.1 h with h | h
    · unfold entryCalls at h
      split at h
      · cases h
      · next hd =>
        obtain ⟨mid, d, rest, hds, hc⟩ := mem_callsBehind h
        exact ⟨e, List.mem_cons_self, d, rest, _, ⟨pre, es, mid, rfl, by simpa using hd, hds, rfl⟩, hc⟩
    · have hpre : p.entry (pre.foldl p.entry start) e = (pre ++ [e]).foldl p.entry start := by
        rw [List.foldl_append]
        rfl
      rw [hpre] at h
      obtain ⟨e', he', d, left, st, hst, hc⟩ := mem_callsFrom _ h
      exact ⟨e', List.mem_cons_of_mem e he', d, left, st, by rwa [List.append_assoc] at hst, hc⟩

/-! ## The last call for a parameter -/

theorem lastEffect?_callsOf {n : Nat} (hl : locate st.surface k = some n) (parameter : String) :
    lastEffect? (p.callsOf k d st) n parameter =
      if st.edited.contains (k.element, parameter) then (p.matching [d] parameter).getLast?.map .give
      else p.prevailing? [d] parameter := by
  cases d with
  | style condition parameters =>
    have hentries := parameters.filter_entries parameter
    have hnode : ∀ (f : String × StyleParameter → Effect) (es : List (String × StyleParameter)),
        lastEffect? (es.map fun e => ⟨n, e.1, f e⟩) n parameter =
          ((es.filter fun e => e.1 == parameter).map f).getLast? := fun f es => by
      unfold lastEffect?
      rw [List.filter_map, List.getLast?_map, List.getLast?_map, Option.map_map]
      simp [Function.comp_def]
    rw [callsOf_style hl, prevailing?, matching, styled_style]
    unfold styleCalls
    cases hc : condition == some p.value with
    | true =>
      rw [if_pos rfl, hnode, hentries]
      cases parameters.get? parameter <;> simp [hc]
    | false =>
      rw [if_neg Bool.false_ne_true, hnode, List.filter_filter,
        List.filter_congr (q := fun e => !st.edited.contains (k.element, parameter) && e.1 == parameter)
          fun e _ => by
            by_cases he : e.1 = parameter
            · simp [he]
            · simp [beq_eq_false_iff_ne.2 he],
        ← List.filter_filter, hentries]
      cases st.edited.contains (k.element, parameter) <;> cases parameters.get? parameter <;> simp [hc]
  | value => cases st.edited.contains (k.element, parameter) <;> rfl
  | visible condition => cases st.edited.contains (k.element, parameter) <;> rfl

theorem callsBehind_concat (k : NodeKey) (ds : List Dependency) (st : State S) (d : Dependency) :
    ∀ left before : List Dependency, p.callsBehind k ds st before (left ++ [d]) =
      p.callsBehind k ds st before left ++ p.callsOf k d (p.applyEach k ds (before ++ left) st)
  | [], before => by
    rw [List.append_nil]
    exact List.append_nil _
  | c :: left, before => by
    rw [List.cons_append, callsBehind, callsBehind_concat k ds st d left, callsBehind, List.append_assoc,
      List.append_assoc]
    rfl

theorem callsFrom_append : ∀ (es es' : List (String × List Dependency)) (st : State S),
    p.callsFrom st (es ++ es') = p.callsFrom st es ++ p.callsFrom (es.foldl p.entry st) es'
  | [], _, _ => rfl
  | e :: es, es', st => by
    rw [List.cons_append, callsFrom, callsFrom_append es, callsFrom, List.append_assoc]
    rfl

theorem mem_callsBehind_of_split {c : Call} {ds : List Dependency} (mid rest before : List Dependency)
    (hc : c ∈ p.callsOf k d (p.applyEach k ds (before ++ mid) st)) :
    c ∈ p.callsBehind k ds st before (mid ++ d :: rest) := by
  induction mid generalizing before with
  | nil =>
    rw [List.append_nil] at hc
    exact List.mem_append_left _ hc
  | cons d' mid ih => exact List.mem_append_right _ (ih (before ++ [d']) (by rwa [List.append_assoc]))

/-- **Every call of a pass belongs to a dependency that it comes to**, and all calls of such dependencies are made. -/
theorem mem_calls {c : Call} {s : S} :
    c ∈ p.calls s ↔ ∃ e d left st, p.At s e (d :: left) st ∧ c ∈ p.callsOf (p.key e.1) d st := by
  constructor
  · intro h
    obtain ⟨e, -, d, left, st, hst, hc⟩ := mem_callsFrom [] h
    exact ⟨e, d, left, st, hst, hc⟩
  · rintro ⟨e, d, left, _, ⟨pre, post, before, hes, hd, hds, rfl⟩, hc⟩
    unfold calls
    rw [hes, callsFrom_append, callsFrom, entryCalls, hd]
    refine List.mem_append_right _ (List.mem_append_left _ ?_)
    have hmem := mem_callsBehind_of_split before left [] hc
    rwa [← hds] at hmem

/-- **The node of an entry stays on the page**: the pass comes to the entry, and finds the node all the time. -/
structure Remains (p : Pass S) (s : S) (e : String × List Dependency) (n : Nat) : Prop where
  reached : ∃ st, p.At s e e.2 st
  located : ∀ e' left st, p.At s e' left st → locate st.surface (p.key e.1) = some n

theorem Remains.at {s : S} {e : String × List Dependency} {n : Nat} (h : p.Remains s e n)
    {before left : List Dependency} (hds : e.2 = before ++ left) :
    ∃ st, p.At s e left st ∧ locate st.surface (p.key e.1) = some n := by
  obtain ⟨_, pre, post, _, hes, hd, -, -⟩ := h.reached
  have hat : p.At s e left (p.applyEach (p.key e.1) e.2 before (pre.foldl p.entry (p.begin s))) :=
    ⟨pre, post, before, hes, hd, hds, rfl⟩
  exact ⟨_, hat, h.located e left _ hat⟩

/-- **The calls of an entry end with what prevails**, dependency by dependency. -/
theorem Remains.lastEffect?_entry {s : S} {e : String × List Dependency} {n : Nat} (h : p.Remains s e n)
    {pre post : List (String × List Dependency)} (hes : p.dependents.entries = pre ++ e :: post)
    (hd : (pre.foldl p.entry (p.begin s)).destroyed.contains e.1 = false) (parameter : String) :
    lastEffect? (p.entryCalls (pre.foldl p.entry (p.begin s)) e) n parameter = p.prevailing? e.2 parameter := by
  have hprefix : ∀ before left, e.2 = before ++ left →
      lastEffect? (p.callsBehind (p.key e.1) e.2 (pre.foldl p.entry (p.begin s)) [] before) n parameter =
        p.prevailing? before parameter := by
    refine split_induction rfl fun before d left hds ih => ?_
    have hat : p.At s e (d :: left) (p.applyEach (p.key e.1) e.2 before (pre.foldl p.entry (p.begin s))) :=
      ⟨pre, post, before, hes, hd, hds, rfl⟩
    have hl := h.located _ _ _ hat
    have hedited := (List.contains_iff_mem (a := ((p.key e.1).element, parameter))).trans
      ((edited_at hat hds (by rw [hl]; rfl) parameter).trans mem_applied)
    rw [callsBehind_concat, lastEffect?_append, List.nil_append, lastEffect?_callsOf hl, ih, prevailing?_append]
    by_cases hm : p.matching before parameter = []
    · rw [if_pos hm, if_neg fun hc => hedited.1 hc hm]
    · rw [if_neg hm, if_pos (hedited.2 hm)]
  unfold entryCalls
  rw [hd]
  exact hprefix e.2 [] (List.append_nil _).symm

/-- Where the node of an entry is, no other entry has its own. -/
theorem Remains.element_eq {p : Pass Surface} {s : Surface} {e e' : String × List Dependency} {n : Slot}
    (h : p.Remains s e n) {left : List Dependency} {st : State Surface} (hat : p.At s e' left st)
    (hl : locate st.surface (p.key e'.1) = some n) : e'.1 = e.1 := by
  have hid := (ListRegion.locate_live (h.located e' left st hat)).2
  rw [(ListRegion.locate_live hl).2] at hid
  exact NodeKey.text_inj_of_instance (Option.some.inj hid)

/-- **The last effect on a parameter of a node is what prevails** among the style dependencies of its entry. -/
theorem Remains.lastEffect?_calls {p : Pass Surface} {s : Surface} {e : String × List Dependency} {n : Slot}
    (h : p.Remains s e n) (parameter : String) :
    lastEffect? (p.calls s) n parameter = p.prevailing? e.2 parameter := by
  obtain ⟨st, pre, post, before, hes, hd, -, -⟩ := h.reached
  have hentry : p.callsFrom (p.entry (pre.foldl p.entry (p.begin s)) e) post =
      p.callsFrom ((pre ++ [e]).foldl p.entry (p.begin s)) post := by rw [List.foldl_append]; rfl
  have hpre : ∀ c ∈ p.callsFrom (p.begin s) pre, c.node ≠ n := fun c hc hn => by
    obtain ⟨e', he', d, left, st, ⟨pre', post', before, hpre, hrest⟩, hc⟩ := mem_callsFrom [] hc
    have hat : p.At s e' (d :: left) st :=
      ⟨pre', post' ++ e :: post, before, by rw [hes, ← List.nil_append pre, hpre]; simp, hrest⟩
    exact name_ne_of_append hes e' he' (h.element_eq hat (hn ▸ node_of_mem_callsOf hc))
  have hpost : ∀ c ∈ p.callsFrom ((pre ++ [e]).foldl p.entry (p.begin s)) post, c.node ≠ n := fun c hc hn => by
    obtain ⟨e', he', d, left, st, hst, hc⟩ := mem_callsFrom _ hc
    rw [List.append_assoc, List.singleton_append, ← hes] at hst
    have hnames := p.dependents.nodup
    rw [hes, List.map_append, List.map_cons, List.nodup_append, List.nodup_cons] at hnames
    exact hnames.2.1.1 (h.element_eq hst (hn ▸ node_of_mem_callsOf hc) ▸ List.mem_map_of_mem he')
  unfold calls
  rw [hes, callsFrom_append, callsFrom, hentry, lastEffect?_append, lastEffect?_append,
    lastEffect?_of_node_ne hpost, lastEffect?_of_node_ne hpre, h.lastEffect?_entry hes hd, Option.none_or,
    Option.or_none]

end BoundPage.Pass
