import Mathlib.Data.List.Induction
import BoundPage.Proofs.Keys
import BoundPage.Proofs.Tables
import BoundPage.Write.Pass
/-!
# Stages of a pass

A pass goes through its entries in order, and through the dependencies of each.  `Pass.Stage` is a point on this way:
the entry at hand, the dependencies of it that are left, and the state.  What every carried out dependency keeps holds
at every stage and at the end (`stage_induction`), and what it takes to come to one entry and go on from there is said
once (`run_entry`).
-/
namespace BoundPage
open RenderTarget

/-- The first point of a list is its head, and the others are points of its tail. -/
theorem exists_split_cons {α : Type} {a : α} {l : List α} {Q : List α → α → List α → Prop} :
    (∃ pre b post, a :: l = pre ++ b :: post ∧ Q pre b post) ↔
      Q [] a l ∨ ∃ pre b post, l = pre ++ b :: post ∧ Q (a :: pre) b post := by
  constructor
  · rintro ⟨pre, b, post, h, hq⟩
    rcases List.cons_eq_append_iff.1 h with ⟨rfl, hb⟩ | ⟨pre, rfl, hl⟩
    · obtain ⟨rfl, rfl⟩ := List.cons.inj hb
      exact .inl hq
    · exact .inr ⟨pre, b, post, hl, hq⟩
  · rintro (hq | ⟨pre, b, post, rfl, hq⟩)
    · exact ⟨[], a, l, rfl, hq⟩
    · exact ⟨a :: pre, b, post, rfl, hq⟩

/-- **Along a list**: what holds at its start, and behind every element if it holds before it, holds at every point. -/
@[elab_as_elim]
theorem split_induction {α : Type} {l : List α} {motive : List α → List α → Prop} (start : motive [] l)
    (step : ∀ pre a post, l = pre ++ a :: post → motive pre (a :: post) → motive (pre ++ [a]) post)
    (pre post : List α) (h : l = pre ++ post) : motive pre post := by
  induction pre using List.reverseRecOn generalizing post with
  | nil => exact (show l = post from h) ▸ start
  | append_singleton pre a ih =>
    have hsplit : l = pre ++ a :: post := by rw [h, List.append_assoc]; rfl
    exact step pre a post hsplit (ih (a :: post) hsplit)

namespace Pass

variable {S : Type}

/-- The text of what is no item is left to no template. -/
theorem not_owned_of_not_item {p : Pass S} {element : String} (h : Element.isItem element = false) :
    p.ownedByTemplate element = false :=
  List.any_eq_false.2 fun t _ => Bool.eq_false_iff.1 (Element.isItemOf_eq_false h t)

variable [RenderTarget S]

def begin (p : Pass S) (s : S) : State S where
  surface := s
  table := p.dependents
  events := [.propagating p.value p.dependents.size]

theorem run_eq (p : Pass S) (s : S) : p.run s = p.dependents.entries.foldl p.entry (p.begin s) := rfl

theorem entry_eq (p : Pass S) (st : State S) (e : String × List Dependency) :
    p.entry st e = if st.destroyed.contains e.1 then st else p.applyEach (p.key e.1) e.2 e.2 st := rfl

/-- **A way through some entries has come to one of them**, with some of its dependencies left.  An entry that has been
destroyed is passed over. -/
def Stage (p : Pass S) (es : List (String × List Dependency)) (start : State S) (e : String × List Dependency)
    (left : List Dependency) (st : State S) : Prop :=
  ∃ pre post before, es = pre ++ e :: post ∧ (pre.foldl p.entry start).destroyed.contains e.1 = false ∧
    e.2 = before ++ left ∧ st = p.applyEach (p.key e.1) e.2 before (pre.foldl p.entry start)

abbrev At (p : Pass S) (s : S) : String × List Dependency → List Dependency → State S → Prop :=
  p.Stage p.dependents.entries (p.begin s)

theorem Stage.mem {p : Pass S} {es : List (String × List Dependency)} {start st : State S}
    {e : String × List Dependency} {left : List Dependency} (h : p.Stage es start e left st) : e ∈ es := by
  obtain ⟨pre, post, before, rfl, -⟩ := h
  simp

theorem Stage.mem_left {p : Pass S} {es : List (String × List Dependency)} {start st : State S}
    {e : String × List Dependency} {d : Dependency} {left : List Dependency} (h : p.Stage es start e (d :: left) st) :
    d ∈ e.2 := by
  obtain ⟨pre, post, before, -, -, he, -⟩ := h
  rw [he]
  simp

/-- A way begins with its first entry, unless this has been destroyed, and goes on behind it. -/
theorem stage_cons {p : Pass S} {e e' : String × List Dependency} {es : List (String × List Dependency)}
    {start st : State S} {left : List Dependency} : p.Stage (e :: es) start e' left st ↔
    (e' = e ∧ start.destroyed.contains e.1 = false ∧
      ∃ before, e.2 = before ++ left ∧ st = p.applyEach (p.key e.1) e.2 before start) ∨
    p.Stage es (p.entry start e) e' left st := by
  constructor
  · rintro ⟨pre, post, before, hes, hd, hds, rfl⟩
    rcases List.cons_eq_append_iff.1 hes with ⟨rfl, hpost⟩ | ⟨pre, rfl, hpre⟩
    · obtain ⟨rfl, -⟩ := List.cons.inj hpost
      exact .inl ⟨rfl, hd, before, hds, rfl⟩
    · exact .inr ⟨pre, post, before, hpre, hd, hds, rfl⟩
  · rintro (⟨rfl, hd, before, hds, rfl⟩ | ⟨pre, post, before, rfl, hd, hds, rfl⟩)
    · exact ⟨[], es, before, rfl, hd, hds, rfl⟩
    · exact ⟨e :: pre, post, before, rfl, hd, hds, rfl⟩

/-- A pass with one dependency carries it out on the page as it is. -/
theorem begin_of_at {p : Pass S} {s : S} {element : String} {d d' : Dependency}
    {e : String × List Dependency} {left : List Dependency} {st : State S}
    (hdeps : p.dependents.entries = [(element, [d])]) (h : p.At s e (d' :: left) st) :
    e = (element, [d]) ∧ st = p.begin s := by
  obtain ⟨pre, post, before, hes, -, he, rfl⟩ := h
  rw [hdeps] at hes
  obtain ⟨rfl, rfl⟩ : pre = [] ∧ e = (element, [d]) := by
    cases pre with
    | nil => exact ⟨rfl, (List.cons.inj hes).1.symm⟩
    | cons x pre => simp at hes
  cases before with
  | nil => exact ⟨rfl, rfl⟩
  | cons x before => simp at he

/-! ## Dependency by dependency -/

/-- One more dependency is carried out, or nothing changes because the node is missing or the template detached. -/
theorem applyEach_concat (p : Pass S) (k : NodeKey) (ds : List Dependency) (d : Dependency) :
    ∀ (before : List Dependency) (st : State S),
      p.applyOne k ds d (p.applyEach k ds before st) = .ok (p.applyEach k ds (before ++ [d]) st) ∨
      (p.applyEach k ds (before ++ [d]) st).surface = (p.applyEach k ds before st).surface ∧
      (p.applyEach k ds (before ++ [d]) st).table = (p.applyEach k ds before st).table ∧
      (p.applyEach k ds (before ++ [d]) st).destroyed = (p.applyEach k ds before st).destroyed
  | [], st => by
    rw [List.nil_append, applyEach, applyEach]
    cases p.applyOne k ds d st with
    | ok st' => exact .inl rfl
    | error err =>
      cases err with
      | nodeNotFound missing => exact .inr ⟨rfl, rfl, rfl⟩
      | detached template => exact .inr ⟨rfl, rfl, rfl⟩
  | c :: before, st => by
    rw [List.cons_append, applyEach, applyEach]
    cases p.applyOne k ds c st with
    | ok st' => exact applyEach_concat p k ds d before st'
    | error err =>
      cases err with
      | nodeNotFound missing => exact .inr ⟨rfl, rfl, rfl⟩
      | detached template => exact applyEach_concat p k ds d before _

/-- What every carried out dependency keeps of the page and of the parameters that have been applied is kept by some of
them in a row. -/
theorem applyEach_keeps {J : S → List (String × String) → Prop} {p : Pass S} {k : NodeKey} {ds : List Dependency} :
    ∀ (left : List Dependency) (st : State S),
      (∀ d ∈ left, ∀ u u', J u.surface u.edited → p.applyOne k ds d u = .ok u' → J u'.surface u'.edited) →
      J st.surface st.edited → J (p.applyEach k ds left st).surface (p.applyEach k ds left st).edited
  | [], _, _, h0 => h0
  | d :: left, st, hstep, h0 => by
    have hrest := fun u => applyEach_keeps left u fun c hc => hstep c (List.mem_cons_of_mem d hc)
    rw [applyEach]
    cases hone : p.applyOne k ds d st with
    | ok st' => exact hrest st' (hstep d List.mem_cons_self st st' h0 hone)
    | error err =>
      cases err with
      | nodeNotFound m => exact h0
      | detached m => exact hrest _ h0

variable {I : S → DependencyTable → List String → Prop}

/-- What holds when some dependencies have been carried out, and is kept by every further one, goes on to hold. -/
theorem applyEach_induction_from {p : Pass S} {k : NodeKey} {ds way : List Dependency} {start : State S}
    (done : List Dependency)
    (h0 : I (p.applyEach k ds done start).surface (p.applyEach k ds done start).table
      (p.applyEach k ds done start).destroyed)
    (hstep : ∀ before d left st', way = before ++ d :: left →
      I (p.applyEach k ds (done ++ before) start).surface (p.applyEach k ds (done ++ before) start).table
        (p.applyEach k ds (done ++ before) start).destroyed →
      p.applyOne k ds d (p.applyEach k ds (done ++ before) start) = .ok st' → I st'.surface st'.table st'.destroyed)
    (before left : List Dependency) (hway : way = before ++ left) :
    I (p.applyEach k ds (done ++ before) start).surface (p.applyEach k ds (done ++ before) start).table
      (p.applyEach k ds (done ++ before) start).destroyed := by
  refine split_induction (by rwa [List.append_nil]) (fun before d left hway hb => ?_) before left hway
  rw [← List.append_assoc]
  rcases applyEach_concat p k ds d (done ++ before) start with h | ⟨h1, h2, h3⟩
  · exact hstep before d left _ hway hb h
  · rw [h1, h2, h3]
    exact hb

theorem applyEach_induction {p : Pass S} {k : NodeKey} {ds way : List Dependency} {start : State S}
    (h0 : I start.surface start.table start.destroyed)
    (hstep : ∀ before d left st', way = before ++ d :: left →
      I (p.applyEach k ds before start).surface (p.applyEach k ds before start).table
        (p.applyEach k ds before start).destroyed →
      p.applyOne k ds d (p.applyEach k ds before start) = .ok st' → I st'.surface st'.table st'.destroyed)
    (before left : List Dependency) (hway : way = before ++ left) :
    I (p.applyEach k ds before start).surface (p.applyEach k ds before start).table
      (p.applyEach k ds before start).destroyed :=
  applyEach_induction_from [] h0 hstep before left hway

/-! ## Entry by entry -/

/-- **What every carried out dependency keeps holds at every stage and at the end.** -/
theorem stage_induction {p : Pass S} {es : List (String × List Dependency)} {start : State S}
    (h0 : I start.surface start.table start.destroyed)
    (hstep : ∀ e d left st st', p.Stage es start e (d :: left) st → I st.surface st.table st.destroyed →
      p.applyOne (p.key e.1) e.2 d st = .ok st' → I st'.surface st'.table st'.destroyed) :
    (∀ e left st, p.Stage es start e left st → I st.surface st.table st.destroyed) ∧
      I (es.foldl p.entry start).surface (es.foldl p.entry start).table (es.foldl p.entry start).destroyed := by
  have hall : ∀ pre post, es = pre ++ post → I (pre.foldl p.entry start).surface (pre.foldl p.entry start).table
      (pre.foldl p.entry start).destroyed := by
    refine split_induction h0 fun pre e post hes hpre => ?_
    rw [List.foldl_append, List.foldl_cons, List.foldl_nil, entry_eq]
    split
    · exact hpre
    · next hd =>
      refine applyEach_induction hpre (fun before d left st' hds hI h => ?_) e.2 [] (List.append_nil _).symm
      exact hstep e d left _ st' ⟨pre, post, before, hes, by simpa using hd, hds, rfl⟩ hI h
  refine ⟨fun e left st hst => ?_, hall es [] (List.append_nil _).symm⟩
  obtain ⟨pre, post, before, hes, hd, hds, rfl⟩ := hst
  refine applyEach_induction (hall pre (e :: post) hes) (fun b d l st' hb hI h => ?_) before left hds
  exact hstep e d l _ st' ⟨pre, post, b, hes, hd, hb, rfl⟩ hI h

theorem run_induction {p : Pass S} {s : S} (h0 : I s p.dependents [])
    (hstep : ∀ e d left st st', p.At s e (d :: left) st → I st.surface st.table st.destroyed →
      p.applyOne (p.key e.1) e.2 d st = .ok st' → I st'.surface st'.table st'.destroyed) :
    (∀ e left st, p.At s e left st → I st.surface st.table st.destroyed) ∧
      I (p.run s).surface (p.run s).table (p.run s).destroyed :=
  stage_induction h0 hstep

/-! ## What a dependency changes -/

def staleKeys (p : Pass S) (k : NodeKey) (table : DependencyTable) : List NodeKey :=
  (table.names.filter fun element => Element.isItemOf element k.element).map p.key

/-- The page without the old items of a template. -/
def cleared (p : Pass S) (k : NodeKey) (table : DependencyTable) (s : S) : S :=
  (ListRegion.destroyAll s (p.staleKeys k table)).1

/-- The page with items in the place of the old ones, and their keys. -/
def refilled (p : Pass S) (k : NodeKey) (table : DependencyTable) (s : S) (template : Nat) (items : List String) :
    S × List NodeKey × List Event :=
  ListRegion.makeItems (p.cleared k table s) template k p.options.loopPlaceholder 0 items

/-- **A list is rebuilt when the value of a variable comes to its template**, which has to be there with a parent. -/
structure Rebuilds (p : Pass S) (k : NodeKey) (s : S) (template : Nat) : Prop where
  notOwned : p.ownedByTemplate k.element = false
  isTemplate : k.isTemplate
  located : locate s k = some template
  attached : (parent s template).isSome

/-- The display of a node that a dependency shows or hides. -/
def displayOf (p : Pass S) (s : S) (n : Nat) (condition : Condition) : String :=
  if condition.holds p.value then (Layout.detect s n).display else "none"

/-- **What a dependency of a node changes**: the page, the table and what has been destroyed. -/
inductive Change (p : Pass S) (k : NodeKey) (ds : List Dependency) (st : State S) :
    Dependency → S → DependencyTable → List String → Prop
  /-- The text of an item is left to its template. -/
  | owned (h : p.ownedByTemplate k.element) : Change p k ds st .value st.surface st.table st.destroyed
  | text {n : Nat} (notOwned : p.ownedByTemplate k.element = false) (plain : k.isTemplate = false)
    (located : locate st.surface k = some n) :
    Change p k ds st .value (setText st.surface n p.value) st.table st.destroyed
  | list {template : Nat} (h : p.Rebuilds k st.surface template) :
    Change p k ds st .value (p.refilled k st.table st.surface template (ListRegion.items p.value)).1
      (rekey st.table k.element
        ((p.refilled k st.table st.surface template (ListRegion.items p.value)).2.1.map (·.element)) ds)
      (st.destroyed ++ st.table.names.filter fun element => Element.isItemOf element k.element)
  | visible {n : Nat} {condition : Condition} (located : locate st.surface k = some n) :
    Change p k ds st (.visible condition)
      (Layout.refreshSpacing (setStyle st.surface n "display" (some (p.displayOf st.surface n condition)) false) n)
      st.table st.destroyed
  | style {n : Nat} {condition : Option String} {parameters : Table StyleParameter}
    (located : locate st.surface k = some n) :
    Change p k ds st (.style condition parameters)
      (parameters.entries.foldl (p.styleParameter k.element n (condition == some p.value)) st).surface
      st.table st.destroyed

/-- What a dependency destroys are items of its own template. -/
theorem Change.destroyed {p : Pass S} {k : NodeKey} {ds : List Dependency} {st : State S} {d : Dependency} {s : S}
    {table : DependencyTable} {destroyed : List String} (h : p.Change k ds st d s table destroyed) :
    ∀ x ∈ destroyed, x ∈ st.destroyed ∨ Element.isItemOf x k.element := by
  cases h with
  | list _ =>
    intro x hx
    rcases List.mem_append.1 hx with h | h
    · exact .inl h
    · exact .inr (List.mem_filter.1 h).2
  | owned _ => exact fun x hx => .inl hx
  | text _ _ _ => exact fun x hx => .inl hx
  | visible _ => exact fun x hx => .inl hx
  | style _ => exact fun x hx => .inl hx

theorem Change.mem_destroyed {p : Pass S} {k : NodeKey} {ds : List Dependency} {st : State S} {d : Dependency} {s : S}
    {table : DependencyTable} {destroyed : List String} (h : p.Change k ds st d s table destroyed) {x : String}
    (hx : x ∈ st.destroyed) : x ∈ destroyed := by
  cases h with
  | list _ => exact List.mem_append_left _ hx
  | owned _ => exact hx
  | text _ _ _ => exact hx
  | visible _ => exact hx
  | style _ => exact hx

theorem Change.rebuilt {p : Pass S} {k : NodeKey} {ds : List Dependency} {st : State S} {s : S}
    {table : DependencyTable} {destroyed : List String} {template : Nat} (h : p.Change k ds st .value s table destroyed)
    (hr : p.Rebuilds k st.surface template) :
    s = (p.refilled k st.table st.surface template (ListRegion.items p.value)).1 ∧
      table = rekey st.table k.element
        ((p.refilled k st.table st.surface template (ListRegion.items p.value)).2.1.map (·.element)) ds ∧
      destroyed = st.destroyed ++ st.table.names.filter fun element => Element.isItemOf element k.element := by
  cases h with
  | owned ho =>
    rw [hr.notOwned] at ho
    cases ho
  | text _ hplain _ =>
    rw [hr.isTemplate] at hplain
    cases hplain
  | list hr' =>
    obtain rfl := Option.some.inj (hr.located.symm.trans hr'.located)
    exact ⟨rfl, rfl, rfl⟩

theorem require_eq (s : S) (k : NodeKey) :
    require s k = match locate s k with
      | some n => .ok n
      | none => .error (.nodeNotFound k) := rfl

/-- **A list that can be rebuilt is rebuilt.** -/
theorem rebuildList_eq_ok {p : Pass S} {k : NodeKey} {st : State S} {template : Nat}
    (hl : locate st.surface k = some template) (hattached : (parent st.surface template).isSome)
    (ds : List Dependency) : ∃ events, p.rebuildList k ds st = .ok { st with
      surface := (p.refilled k st.table st.surface template (ListRegion.items p.value)).1
      table := rekey st.table k.element
        ((p.refilled k st.table st.surface template (ListRegion.items p.value)).2.1.map (·.element)) ds
      destroyed := st.destroyed ++ st.table.names.filter fun element => Element.isItemOf element k.element
      materialized := st.materialized ++ (p.refilled k st.table st.surface template (ListRegion.items p.value)).2.1
      events } := by
  have hnone : (parent st.surface template).isNone = false := by
    rw [← Option.not_isSome, hattached]
    rfl
  unfold rebuildList
  rw [require_eq, hl]
  simp only [bind, Except.bind, hnone, pure, Except.pure]
  exact ⟨_, rfl⟩

theorem applyOne_style {p : Pass S} {k : NodeKey} {ds : List Dependency} {condition : Option String}
    {parameters : Table StyleParameter} {st : State S} {n : Nat} (hl : locate st.surface k = some n) :
    p.applyOne k ds (.style condition parameters) st =
      .ok ((parameters.entries.foldl (p.styleParameter k.element n (condition == some p.value)) st).say
        (.appliedStyle k (condition == some p.value) parameters.size)) := by
  unfold applyOne applyStyle
  simp only
  rw [require_eq, hl]
  rfl

theorem table_styleParameter (p : Pass S) (element : String) (n : Nat) (matched : Bool) :
    ∀ (entries : List (String × StyleParameter)) (st : State S),
      (entries.foldl (p.styleParameter element n matched) st).table = st.table ∧
        (entries.foldl (p.styleParameter element n matched) st).destroyed = st.destroyed
  | [], _ => ⟨rfl, rfl⟩
  | e :: entries, st => by
    have h : (p.styleParameter element n matched st e).table = st.table ∧
        (p.styleParameter element n matched st e).destroyed = st.destroyed := by
      unfold styleParameter
      split
      · exact ⟨rfl, rfl⟩
      · split <;> exact ⟨rfl, rfl⟩
    rw [List.foldl_cons, (table_styleParameter p element n matched entries _).1,
      (table_styleParameter p element n matched entries _).2]
    exact h

/-- **A dependency that is carried out changes what it says.** -/
theorem change_of_applyOne {p : Pass S} {k : NodeKey} {ds : List Dependency} {d : Dependency} {st st' : State S}
    (h : p.applyOne k ds d st = .ok st') : p.Change k ds st d st'.surface st'.table st'.destroyed := by
  cases d with
  | value =>
    unfold applyOne at h
    by_cases ho : p.ownedByTemplate k.element
    · simp only [ho, if_true] at h
      cases h
      exact .owned ho
    · by_cases ht : k.isTemplate
      · simp only [ho, ht, if_true] at h
        unfold rebuildList at h
        rw [require_eq] at h
        cases hl : locate st.surface k with
        | none => rw [hl] at h; cases h
        | some n =>
          rw [hl] at h
          by_cases hp : (parent st.surface n).isNone
          · simp only [hp, bind, Except.bind, if_true] at h
            cases h
          · have hr : p.Rebuilds k st.surface n :=
              ⟨by simpa using ho, ht, hl, by simpa [Option.isSome_iff_ne_none] using hp⟩
            simp only [hp, bind, Except.bind, pure, Except.pure] at h
            cases h
            exact .list hr
      · simp only [ho, ht] at h
        unfold showText at h
        rw [require_eq] at h
        cases hl : locate st.surface k with
        | none => rw [hl] at h; cases h
        | some n =>
          rw [hl] at h
          cases h
          exact .text (by simpa using ho) (by simpa using ht) hl
  | visible condition =>
    unfold applyOne setVisible at h
    simp only at h
    rw [require_eq] at h
    cases hl : locate st.surface k with
    | none => rw [hl] at h; cases h
    | some n =>
      rw [hl] at h
      cases h
      exact .visible hl
  | style condition parameters =>
    unfold applyOne applyStyle at h
    simp only at h
    rw [require_eq] at h
    cases hl : locate st.surface k with
    | none => rw [hl] at h; cases h
    | some n =>
      rw [hl] at h
      cases h
      obtain ⟨ht, hd⟩ := table_styleParameter p k.element n (condition == some p.value) parameters.entries st
      have hch : p.Change k ds st (.style condition parameters) _ st.table st.destroyed := .style hl
      rw [← ht, ← hd] at hch
      exact hch

/-! ## The next stage -/

/-- **A dependency fails because its node is missing, or because it is a template without a parent.** -/
theorem locate_of_error {p : Pass S} {k : NodeKey} {ds : List Dependency} {d : Dependency} {st : State S}
    {err : SurfaceError} (h : p.applyOne k ds d st = .error err) : locate st.surface k = none ∨
      ∃ n, locate st.surface k = some n ∧ parent st.surface n = none ∧ k.isTemplate ∧ err = .detached k := by
  cases hl : locate st.surface k with
  | none => exact .inl rfl
  | some n =>
    cases d with
    | value =>
      unfold applyOne at h
      by_cases ho : p.ownedByTemplate k.element
      · simp only [ho, if_true] at h
        cases h
      · by_cases ht : k.isTemplate
        · simp only [ho, ht, if_true] at h
          unfold rebuildList at h
          rw [require_eq, hl] at h
          by_cases hp : (parent st.surface n).isNone
          · simp only [hp, bind, Except.bind, if_true] at h
            cases h
            exact .inr ⟨n, rfl, Option.isNone_iff_eq_none.1 hp, ht, rfl⟩
          · simp only [hp, bind, Except.bind, pure, Except.pure] at h
            cases h
        · simp only [ho, ht] at h
          unfold showText at h
          rw [require_eq, hl] at h
          cases h
    | visible condition =>
      unfold applyOne setVisible at h
      simp only at h
      rw [require_eq, hl] at h
      cases h
    | style condition parameters =>
      unfold applyOne applyStyle at h
      simp only at h
      rw [require_eq, hl] at h
      cases h

theorem locate_of_nodeNotFound {p : Pass S} {k m : NodeKey} {ds : List Dependency} {d : Dependency} {st : State S}
    (h : p.applyOne k ds d st = .error (.nodeNotFound m)) : locate st.surface k = none := by
  rcases locate_of_error h with hl | ⟨_, -, -, -, he⟩
  · exact hl
  · cases he

/-- Where there is no node, every dependency fails, unless it leaves the text to a template. -/
theorem applyOne_of_missing {p : Pass S} {k : NodeKey} {d : Dependency} {st : State S}
    (ho : d = .value → p.ownedByTemplate k.element = false) (hl : locate st.surface k = none) (ds : List Dependency) :
    p.applyOne k ds d st = .error (.nodeNotFound k) := by
  have hrequire : require st.surface k = .error (.nodeNotFound k) := by rw [require_eq, hl]
  cases d with
  | value =>
    unfold applyOne showText rebuildList
    simp only [ho rfl, hrequire]
    cases k.isTemplate <;> rfl
  | visible condition =>
    unfold applyOne setVisible
    simp only [hrequire]
    rfl
  | style condition parameters =>
    unfold applyOne applyStyle
    simp only [hrequire]
    rfl

theorem key_of_nodeNotFound {p : Pass S} {k m : NodeKey} {ds : List Dependency} {d : Dependency} {st : State S}
    (h : p.applyOne k ds d st = .error (.nodeNotFound m)) : m = k := by
  have hl := locate_of_nodeNotFound h
  by_cases ho : d = .value → p.ownedByTemplate k.element = false
  · rw [applyOne_of_missing ho hl] at h
    cases h
    rfl
  · rw [Classical.not_imp] at ho
    obtain ⟨rfl, ho⟩ := ho
    unfold applyOne at h
    simp only [ho] at h
    cases h

/-- Where there is a node under a parent, every dependency is carried out. -/
theorem applyOne_of_attached {p : Pass S} {k : NodeKey} {n : Nat} (ds : List Dependency) (d : Dependency)
    {st : State S} (hl : locate st.surface k = some n) (hp : (parent st.surface n).isSome) :
    ∃ st', p.applyOne k ds d st = .ok st' := by
  cases h : p.applyOne k ds d st with
  | ok st' => exact ⟨st', rfl⟩
  | error err =>
    rcases locate_of_error h with hnone | ⟨m, hm, hmp, -, -⟩
    · rw [hl] at hnone
      cases hnone
    · obtain rfl := Option.some.inj (hl.symm.trans hm)
      rw [hmp] at hp
      cases hp

/-- As long as the node is there, the dependencies go on from where they are. -/
theorem applyEach_append {p : Pass S} {k : NodeKey} {ds : List Dependency} (left : List Dependency) :
    ∀ (before : List Dependency) (st : State S), (locate (p.applyEach k ds before st).surface k).isSome →
      p.applyEach k ds (before ++ left) st = p.applyEach k ds left (p.applyEach k ds before st)
  | [], _, _ => rfl
  | d :: before, st, h => by
    rw [List.cons_append, applyEach]
    rw [applyEach] at h ⊢
    cases hd : p.applyOne k ds d st with
    | ok st' =>
      rw [hd] at h
      exact applyEach_append left before st' h
    | error err =>
      rw [hd] at h
      cases err with
      | nodeNotFound m =>
        change (locate st.surface k).isSome = true at h
        rw [locate_of_nodeNotFound hd] at h
        cases h
      | detached template => exact applyEach_append left before _ h

theorem Stage.next {p : Pass S} {es : List (String × List Dependency)} {start st st' : State S}
    {e : String × List Dependency} {d : Dependency} {left : List Dependency} (h : p.Stage es start e (d :: left) st)
    (hl : (locate st.surface (p.key e.1)).isSome) (hok : p.applyOne (p.key e.1) e.2 d st = .ok st') :
    p.Stage es start e left st' := by
  obtain ⟨pre, post, before, hes, hd, hds, rfl⟩ := h
  refine ⟨pre, post, before ++ [d], hes, hd, by rw [hds, List.append_assoc]; rfl, ?_⟩
  rw [applyEach_append [d] before _ hl, applyEach, hok]
  rfl

/-- Behind every stage comes the next one: the dependency is carried out there, or it changes nothing. -/
theorem Stage.step {p : Pass S} {es : List (String × List Dependency)} {start st : State S}
    {e : String × List Dependency} {d : Dependency} {left : List Dependency} (h : p.Stage es start e (d :: left) st) :
    ∃ st', p.Stage es start e left st' ∧ (p.applyOne (p.key e.1) e.2 d st = .ok st' ∨ st'.surface = st.surface) := by
  obtain ⟨pre, post, before, hes, hd, hds, rfl⟩ := h
  refine ⟨_, ⟨pre, post, before ++ [d], hes, hd, by rw [hds, List.append_assoc]; rfl, rfl⟩, ?_⟩
  exact (applyEach_concat p (p.key e.1) e.2 d before _).imp id And.left

theorem Stage.earlier {p : Pass S} {es : List (String × List Dependency)} {start st : State S}
    {e : String × List Dependency} {before left left' : List Dependency} (h : p.Stage es start e left st)
    (hds : e.2 = before ++ left') : ∃ st', p.Stage es start e left' st' := by
  obtain ⟨pre, post, -, hes, hd, -, -⟩ := h
  exact ⟨_, pre, post, before, hes, hd, hds, rfl⟩

/-- A pass comes only once to what is left of an entry. -/
theorem At.unique {p : Pass S} {s : S} {e : String × List Dependency} {left : List Dependency} {st st' : State S}
    (h : p.At s e left st) (h' : p.At s e left st') : st = st' := by
  obtain ⟨pre, post, before, hes, -, hds, rfl⟩ := h
  obtain ⟨pre', post', before', hes', -, hds', rfl⟩ := h'
  obtain rfl : before = before' := List.append_cancel_right (hds.symm.trans hds')
  obtain ⟨rfl, -⟩ := Table.append_inj hes hes'
  rfl

/-- **A list that can be rebuilt is rebuilt**, and the pass goes on. -/
theorem Stage.rebuilt {p : Pass S} {es : List (String × List Dependency)} {start st : State S}
    {e : String × List Dependency} {left : List Dependency} {template : Nat}
    (h : p.Stage es start e (.value :: left) st) (hr : p.Rebuilds (p.key e.1) st.surface template) :
    ∃ st', p.Stage es start e left st' ∧
      st'.surface = (p.refilled (p.key e.1) st.table st.surface template (ListRegion.items p.value)).1 := by
  obtain ⟨st', hok⟩ := applyOne_of_attached e.2 .value hr.located hr.attached
  exact ⟨st', h.next (by rw [hr.located]; rfl) hok, ((change_of_applyOne hok).rebuilt hr).1⟩

/-! ## One entry of a pass -/

/-- **A pass comes to every entry that has not been destroyed.**  What holds at the beginning and is kept by the other
entries holds when it comes there; what then holds and is kept by the other entries holds at the end. -/
theorem run_entry {p : Pass S} {s : S} {e : String × List Dependency} {J : S → DependencyTable → List String → Prop}
    (he : e ∈ p.dependents.entries) (h0 : I s p.dependents [])
    (hbefore : ∀ e' d st st', e' ∈ p.dependents.entries → e'.1 ≠ e.1 → d ∈ e'.2 →
      I st.surface st.table st.destroyed → p.applyOne (p.key e'.1) e'.2 d st = .ok st' →
      I st'.surface st'.table st'.destroyed)
    (hat : ∀ st : State S, I st.surface st.table st.destroyed → st.destroyed.contains e.1 = false ∧
      J (p.applyEach (p.key e.1) e.2 e.2 st).surface (p.applyEach (p.key e.1) e.2 e.2 st).table
        (p.applyEach (p.key e.1) e.2 e.2 st).destroyed)
    (hafter : ∀ e' d st st', e' ∈ p.dependents.entries → e'.1 ≠ e.1 → d ∈ e'.2 →
      J st.surface st.table st.destroyed → p.applyOne (p.key e'.1) e'.2 d st = .ok st' →
      J st'.surface st'.table st'.destroyed) :
    J (p.run s).surface (p.run s).table (p.run s).destroyed := by
  obtain ⟨pre, post, hes, hpre, hpost⟩ := Table.exists_append he
  have hmem : ∀ {e'}, e' ∈ pre ∨ e' ∈ post → e' ∈ p.dependents.entries := fun h => by
    rw [hes]
    exact h.elim (fun h => List.mem_append_left _ h) fun h => List.mem_append_right _ (List.mem_cons_of_mem _ h)
  rw [run_eq, hes, List.foldl_append, List.foldl_cons]
  have hbegin : I (p.begin s).surface (p.begin s).table (p.begin s).destroyed := h0
  obtain ⟨hnot, hJ⟩ := hat _ (stage_induction hbegin fun e' d left st st' (hst : p.Stage pre _ _ _ _) hI hok =>
    hbefore e' d st st' (hmem (.inl hst.mem)) (hpre e' hst.mem) hst.mem_left hI hok).2
  rw [entry_eq, hnot]
  exact (stage_induction hJ fun e' d left st st' (hst : p.Stage post _ _ _ _) hI hok =>
    hafter e' d st st' (hmem (.inr hst.mem)) (hpost e' hst.mem) hst.mem_left hI hok).2

end Pass
end BoundPage
