import BoundPage.Proofs.Write.Stages
/-!
# What has been applied

A pass remembers which parameters matching style dependencies have applied to an element, so as not to reset them.  They
are those that the dependencies carried out so far say (`edited_at`): only the element's own entry adds to them.
-/
namespace BoundPage.Pass
open RenderTarget

variable {S : Type}

/-- **The parameters that matching style dependencies apply.** -/
def applied (p : Pass S) (ds : List Dependency) : List String :=
  ds.flatMap fun
    | .style condition parameters => if condition == some p.value then parameters.names else []
    | _ => []

variable {p : Pass S} {k : NodeKey} {ds : List Dependency} {d : Dependency}

theorem applied_cons (d : Dependency) (ds : List Dependency) : p.applied (d :: ds) = p.applied [d] ++ p.applied ds := by
  unfold applied
  rw [← List.flatMap_append]
  rfl

variable [RenderTarget S] {st st' : State S}

theorem edited_styleParameters (element : String) (n : Nat) (matched : Bool) (x : String × String) :
    ∀ (entries : List (String × StyleParameter)) (st : State S),
      x ∈ (entries.foldl (p.styleParameter element n matched) st).edited ↔
        x ∈ st.edited ∨ matched ∧ x.1 = element ∧ x.2 ∈ entries.map Prod.fst
  | [], _ => by simp
  | e :: entries, st => by
    rw [List.foldl_cons, edited_styleParameters element n matched x entries]
    unfold styleParameter
    cases matched with
    | true =>
      simp only [if_true, List.mem_cons, List.map_cons, Prod.ext_iff, true_and]
      tauto
    | false =>
      simp only [Bool.false_eq_true, if_false, false_and, or_false]
      split <;> rfl

/-- Showing the value leaves what has been applied, and what is missing. -/
theorem recorded_value (h : p.applyOne k ds .value st = .ok st') :
    st'.edited = st.edited ∧ st'.missing = st.missing := by
  unfold applyOne at h
  dsimp only at h
  split at h
  · cases h
    exact ⟨rfl, rfl⟩
  · split at h
    · unfold rebuildList at h
      cases hr : require st.surface k with
      | error err => rw [hr] at h; cases h
      | ok n =>
        rw [hr] at h
        by_cases hp : (parent st.surface n).isNone
        · simp only [hp, bind, Except.bind, if_true] at h
          cases h
        · simp only [hp, bind, Except.bind, pure, Except.pure] at h
          cases h
          exact ⟨rfl, rfl⟩
    · unfold showText at h
      cases hr : require st.surface k with
      | error err => rw [hr] at h; cases h
      | ok n =>
        rw [hr] at h
        cases h
        exact ⟨rfl, rfl⟩

/-- **A dependency that is carried out adds what it applies.** -/
theorem edited_applyOne (h : p.applyOne k ds d st = .ok st') (x : String × String) :
    x ∈ st'.edited ↔ x ∈ st.edited ∨ x.1 = k.element ∧ x.2 ∈ p.applied [d] := by
  cases d with
  | value =>
    rw [(recorded_value h).1]
    exact (or_iff_left fun hx => List.not_mem_nil hx.2).symm
  | visible condition =>
    unfold applyOne setVisible at h
    dsimp only at h
    cases hr : require st.surface k with
    | error err => rw [hr] at h; cases h
    | ok n =>
      rw [hr] at h
      cases h
      exact (or_iff_left fun hx => List.not_mem_nil hx.2).symm
  | style condition parameters =>
    unfold applyOne applyStyle at h
    dsimp only at h
    cases hr : require st.surface k with
    | error err => rw [hr] at h; cases h
    | ok n =>
      rw [hr] at h
      cases h
      refine (edited_styleParameters k.element n _ x parameters.entries st).trans (or_congr_right ?_)
      unfold applied
      rw [List.flatMap_singleton]
      dsimp only
      cases condition == some p.value with
      | true => exact and_iff_right rfl
      | false => exact iff_of_false (fun h => Bool.false_ne_true h.1) fun h => List.not_mem_nil h.2

theorem value_of_detached {m : NodeKey} (h : p.applyOne k ds d st = .error (.detached m)) : d = .value := by
  cases d with
  | value => rfl
  | visible condition =>
    unfold applyOne setVisible at h
    dsimp only at h
    rw [require_eq] at h
    split at h <;> cases h
  | style condition parameters =>
    unfold applyOne applyStyle at h
    dsimp only at h
    rw [require_eq] at h
    split at h <;> cases h

theorem edited_applyEach_subset {x : String × String} : ∀ (left : List Dependency) (st : State S),
    x ∈ (p.applyEach k ds left st).edited → x ∈ st.edited ∨ x.1 = k.element ∧ x.2 ∈ p.applied left
  | [], _, h => .inl h
  | d :: left, st, h => by
    rw [applyEach] at h
    rw [applied_cons, List.mem_append]
    cases hone : p.applyOne k ds d st with
    | ok st' =>
      rw [hone] at h
      have hrest := edited_applyEach_subset left st' h
      rw [edited_applyOne hone] at hrest
      tauto
    | error err =>
      rw [hone] at h
      cases err with
      | nodeNotFound m => exact .inl h
      | detached m =>
        have hrest := edited_applyEach_subset left _ h
        exact hrest.imp_right fun hx => ⟨hx.1, .inr hx.2⟩

/-- **Dependencies add what they apply**, if the node is still there behind them. -/
theorem edited_applyEach {x : String × String} : ∀ (left : List Dependency) (st : State S),
    (locate (p.applyEach k ds left st).surface k).isSome →
      (x ∈ (p.applyEach k ds left st).edited ↔ x ∈ st.edited ∨ x.1 = k.element ∧ x.2 ∈ p.applied left)
  | [], _, _ => (or_iff_left fun hx => List.not_mem_nil hx.2).symm
  | d :: left, st, h => by
    rw [applyEach] at h ⊢
    rw [applied_cons, List.mem_append]
    cases hone : p.applyOne k ds d st with
    | ok st' =>
      rw [hone] at h
      rw [edited_applyEach left st' h, edited_applyOne hone]
      tauto
    | error err =>
      rw [hone] at h
      cases err with
      | nodeNotFound m =>
        change (locate st.surface k).isSome = true at h
        rw [locate_of_nodeNotFound hone] at h
        cases h
      | detached m =>
        obtain rfl := value_of_detached hone
        exact (edited_applyEach left _ h).trans (or_congr_right (and_congr_right fun _ =>
          (or_iff_right List.not_mem_nil).symm))

/-- Entries add to what has been applied to their own elements. -/
theorem edited_entries {x : String × String} : ∀ (es : List (String × List Dependency)) (st : State S),
    x ∈ (es.foldl p.entry st).edited → x ∈ st.edited ∨ ∃ e ∈ es, e.1 = x.1
  | [], _, h => .inl h
  | e :: es, st, h => by
    rw [List.foldl_cons] at h
    have hentry : x ∈ (p.entry st e).edited → x ∈ st.edited ∨ e.1 = x.1 := fun hx => by
      rw [entry_eq] at hx
      split at hx
      · exact .inl hx
      · exact (edited_applyEach_subset e.2 st hx).imp_right fun hx => hx.1.symm
    rcases edited_entries es _ h with hx | ⟨e', he', hx⟩
    · exact (hentry hx).imp_right fun hx => ⟨e, List.mem_cons_self, hx⟩
    · exact .inr ⟨e', List.mem_cons_of_mem e he', hx⟩

omit [RenderTarget S] in
theorem name_ne_of_append {e : String × List Dependency} {pre post : List (String × List Dependency)}
    (hes : p.dependents.entries = pre ++ e :: post) : ∀ e' ∈ pre, e'.1 ≠ e.1 := fun e' he' h => by
  have hnames := p.dependents.nodup
  rw [hes, List.map_append, List.map_cons, List.nodup_append] at hnames
  exact hnames.2.2 _ (List.mem_map_of_mem he') _ List.mem_cons_self h

/-- Nothing has been applied to an element before its entry. -/
theorem not_edited_before {s : S} {e : String × List Dependency} {pre post : List (String × List Dependency)}
    (hes : p.dependents.entries = pre ++ e :: post) (parameter : String) :
    (e.1, parameter) ∉ (pre.foldl p.entry (p.begin s)).edited := fun h => by
  rcases edited_entries pre _ h with h | ⟨e', he', h⟩
  · cases h
  · exact name_ne_of_append hes e' he' h

/-- **What has been applied to an element whose node is there is what its dependencies so far say.** -/
theorem edited_at {s : S} {e : String × List Dependency} {before left : List Dependency} (h : p.At s e left st)
    (hds : e.2 = before ++ left) (hl : (locate st.surface (p.key e.1)).isSome) (parameter : String) :
    (e.1, parameter) ∈ st.edited ↔ parameter ∈ p.applied before := by
  obtain ⟨pre, post, before', hes, -, hds', rfl⟩ := h
  obtain rfl : before' = before := List.append_cancel_right (hds'.symm.trans hds)
  rw [edited_applyEach _ _ hl, or_iff_right (not_edited_before hes parameter)]
  exact and_iff_right rfl

end BoundPage.Pass
