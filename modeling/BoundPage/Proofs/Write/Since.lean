import BoundPage.Proofs.Write.Rekey
/-!
# What comes behind a stage

`Pass.Since` are the stages that a pass comes to from one of its stages on.  What holds at that stage and is kept by
every dependency behind it holds at all of them and at the end (`since_induction`).
-/
namespace BoundPage.Pass
open RenderTarget

variable {S : Type} [RenderTarget S] {p : Pass S} {s : S} {e e' : String × List Dependency}
  {left left' : List Dependency} {st st' : State S}

/-- **A pass comes from one stage to another one**: to what is left of the entry, or to an entry behind it. -/
def Since (p : Pass S) (s : S) (e : String × List Dependency) (left : List Dependency) (e' : String × List Dependency)
    (left' : List Dependency) (st' : State S) : Prop :=
  ∃ pre post before, p.dependents.entries = pre ++ e :: post ∧
    (pre.foldl p.entry (p.begin s)).destroyed.contains e.1 = false ∧ e.2 = before ++ left ∧
    ((e' = e ∧ ∃ mid, left = mid ++ left' ∧
        st' = p.applyEach (p.key e.1) e.2 (before ++ mid) (pre.foldl p.entry (p.begin s))) ∨
      p.Stage post ((pre ++ [e]).foldl p.entry (p.begin s)) e' left' st')

theorem Since.reached (h : p.Since s e left e' left' st') : p.At s e' left' st' := by
  obtain ⟨pre, post, before, hes, hd, hds, ⟨rfl, mid, rfl, rfl⟩ | h⟩ := h
  · exact ⟨pre, post, before ++ mid, hes, hd, by rw [hds, List.append_assoc], rfl⟩
  · obtain ⟨pre', post', before', rfl, hd', hds', rfl⟩ := h
    rw [← List.foldl_append] at hd' ⊢
    exact ⟨pre ++ [e] ++ pre', post', before', by rw [hes]; simp, hd', hds', rfl⟩

theorem Since.refl (h : p.At s e left st) : p.Since s e left e left st := by
  obtain ⟨pre, post, before, hes, hd, hds, rfl⟩ := h
  exact ⟨pre, post, before, hes, hd, hds, .inl ⟨rfl, [], rfl, by rw [List.append_nil]⟩⟩

theorem Since.of_suffix {behind : List Dependency} (hleft : left <:+ behind) (hbehind : behind <:+ e.2)
    (h : p.Since s e left e' left' st') : p.Since s e behind e' left' st' := by
  obtain ⟨mid, rfl⟩ := hleft
  obtain ⟨done, hds⟩ := hbehind
  obtain ⟨pre, post, before, hes, hd, heq, h⟩ := h
  obtain rfl : before = done ++ mid := List.append_cancel_right (heq.symm.trans (by rw [← hds, List.append_assoc]))
  refine ⟨pre, post, done, hes, hd, hds.symm, h.imp (fun h => ?_) id⟩
  obtain ⟨rfl, mid', rfl, rfl⟩ := h
  exact ⟨rfl, mid ++ mid', (List.append_assoc ..).symm, by rw [List.append_assoc]⟩

theorem Since.next {d : Dependency} (h : p.Since s e left e' (d :: left') st)
    (hl : (locate st.surface (p.key e'.1)).isSome) (hok : p.applyOne (p.key e'.1) e'.2 d st = .ok st') :
    p.Since s e left e' left' st' := by
  obtain ⟨pre, post, before, hes, hd, hds, ⟨rfl, mid, rfl, rfl⟩ | h⟩ := h
  · refine ⟨pre, post, before, hes, hd, hds, .inl ⟨rfl, mid ++ [d], by rw [List.append_assoc]; rfl, ?_⟩⟩
    rw [← List.append_assoc, applyEach_append [d] (before ++ mid) _ hl, applyEach, hok]
    rfl
  · exact ⟨pre, post, before, hes, hd, hds, .inr (h.next hl hok)⟩

/-- What comes behind a stage is one of the dependencies that are left, or belongs to another entry. -/
theorem Since.mem_left {d : Dependency} (h : p.Since s e left e' (d :: left') st') : d ∈ left ∨ e' ≠ e := by
  obtain ⟨pre, post, before, hes, hd, hds, ⟨rfl, mid, rfl, rfl⟩ | h⟩ := h
  · exact .inl (List.mem_append_right _ List.mem_cons_self)
  · refine .inr fun he => ?_
    have hnodup := List.Nodup.of_map _ p.dependents.nodup
    rw [hes] at hnodup
    exact (List.nodup_cons.1 hnodup.of_append_right).1 (he ▸ h.mem)

/-- **What holds at a stage and is kept behind it holds at all stages from there on, and at the end.** -/
theorem since_induction {I : S → DependencyTable → List String → Prop} (hat : p.At s e left st)
    (h0 : I st.surface st.table st.destroyed)
    (hstep : ∀ e' d left' st st', p.Since s e left e' (d :: left') st → I st.surface st.table st.destroyed →
      p.applyOne (p.key e'.1) e'.2 d st = .ok st' → I st'.surface st'.table st'.destroyed) :
    (∀ e' left' st, p.Since s e left e' left' st → I st.surface st.table st.destroyed) ∧
      I (p.run s).surface (p.run s).table (p.run s).destroyed := by
  obtain ⟨pre, post, before, hes, hd, hds, rfl⟩ := hat
  have hentry := applyEach_induction_from before h0 fun mid d left' st' (hleft : left = mid ++ d :: left') hI hok =>
    hstep e d left' _ st' ⟨pre, post, before, hes, hd, hds, .inl ⟨rfl, mid, hleft, rfl⟩⟩ hI hok
  have hstart : p.applyEach (p.key e.1) e.2 (before ++ left) (pre.foldl p.entry (p.begin s)) =
      (pre ++ [e]).foldl p.entry (p.begin s) := by
    rw [List.foldl_append, List.foldl_cons, List.foldl_nil, entry_eq, hd, ← hds]
    rfl
  have hbehind := hentry left [] (List.append_nil left).symm
  rw [hstart] at hbehind
  have hrest := stage_induction hbehind fun e' d left' st st' hst hI hok =>
    hstep e' d left' st st' ⟨pre, post, before, hes, hd, hds, .inr hst⟩ hI hok
  refine ⟨fun e' left' st hst => ?_, ?_⟩
  · obtain ⟨pre', post', before', hes', -, hds', h⟩ := hst
    obtain ⟨rfl, hpost⟩ := Table.append_inj hes hes'
    obtain rfl : before = before' := List.append_cancel_right (hds.symm.trans hds')
    obtain ⟨rfl, mid, hleft, rfl⟩ | h := h
    · exact hentry mid left' hleft
    · exact hrest.1 e' left' st (hpost ▸ h)
  · rw [run_eq, hes, List.append_cons, List.foldl_append]
    exact hrest.2

theorem Stage.not_destroyed {es : List (String × List Dependency)} {start : State S}
    (h : p.Stage es start e left st) : e.1 ∉ st.destroyed := by
  obtain ⟨pre, post, before, -, hd, hds, rfl⟩ := h
  refine applyEach_induction (I := fun _ _ destroyed => e.1 ∉ destroyed) (by simpa using hd)
    (fun mid d rest st' (_ : e.2 = mid ++ d :: rest) hnot hok hmem => ?_) before left hds
  rcases (change_of_applyOne hok).destroyed _ hmem with h | h
  · exact hnot h
  · rw [show Element.isItemOf e.1 (p.key e.1).element = false from template_not_itemOf e.1] at h
    cases h

end BoundPage.Pass
