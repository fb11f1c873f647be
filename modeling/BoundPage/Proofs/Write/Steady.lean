import Mathlib.Data.List.Induction
import BoundPage.Proofs.Write.Acts
/-!
# Steady acts

Acts that are done again on what they left leave the same (`Looks.after_after`), but for two reasons.  An act may edit a
property otherwise for the styles that there are in the end than it did at its turn (`Looks.Rereads`).  And a shadow is
kept as one text, from which its parts are not always read back as they were put in (`Looks.Misreads`).
-/
namespace BoundPage

/-! ## Observations -/

/-- **A change leaves an observation as it is, or sets it, whatever it was.** -/
def Blind {σ β : Type} (observe : σ → β) (change : σ → σ) : Prop :=
  ∃ o : Option β, ∀ s, observe (change s) = o.getD (observe s)

namespace Blind

variable {σ α β : Type} {observe : σ → β} {change : σ → σ} {step : σ → α → σ}

/-- What looks like after the change looks the same after it is done again. -/
theorem again (h : Blind observe change) {s t : σ} (ht : observe t = observe (change s)) :
    observe (change t) = observe t := by
  obtain ⟨o, ho⟩ := h
  rw [ho, ht, ho]
  cases o <;> rfl

/-- Afterwards the observation is what it was, or what it is after the change of something else. -/
theorem mixed (h : Blind observe change) (s t : σ) :
    observe (change t) = observe (change s) ∨ observe (change t) = observe t := by
  obtain ⟨o, ho⟩ := h
  rw [ho, ho]
  cases o with
  | none => exact .inr rfl
  | some b => exact .inl rfl

theorem foldl : ∀ (as : List α), (∀ a ∈ as, Blind observe (step · a)) → Blind observe (as.foldl step ·)
  | [], _ => ⟨none, fun _ => rfl⟩
  | a :: as, h => by
    obtain ⟨o, ho⟩ := h a List.mem_cons_self
    obtain ⟨o', ho'⟩ := foldl as fun b hb => h b (List.mem_cons_of_mem a hb)
    refine ⟨o'.or o, fun s => ?_⟩
    show observe (as.foldl step (step s a)) = _
    rw [ho', ho]
    cases o' <;> rfl

end Blind

/-! ## Shadows -/

namespace Shadow

def stored? (s : Shadow) : Option StyleEntry := StyleEdit.stored? { property := "box-shadow", value := s.css? }

/-- The shadow is read from its text as it is. -/
def ReadsBack (s : Shadow) : Prop := parse (s.css?.getD "") = s

def setAll (s : Shadow) (parts : List (ShadowPart × Option String)) : Shadow := parts.foldl (fun s p => s.set p.1 p.2) s

theorem value_stored? (s : Shadow) : (s.stored?.map (·.value)).getD "" = s.css?.getD "" := by
  unfold stored? StyleEdit.stored?
  cases s.css? with
  | none => rfl
  | some css =>
    by_cases he : css.isEmpty
    · rw [String.isEmpty_iff.1 he]
      rfl
    · simp [Option.filter, he]

theorem ext {s t : Shadow} (color : s.color = t.color) (offsetX : s.offsetX = t.offsetX)
    (offsetY : s.offsetY = t.offsetY) (blur : s.blur = t.blur) (size : s.size = t.size) : s = t := by
  cases s
  cases t
  congr

theorem setAll_setAll (s : Shadow) (parts : List (ShadowPart × Option String)) :
    (s.setAll parts).setAll parts = s.setAll parts := by
  have hblind : ∀ {β : Type} {part : Shadow → β}, (∀ p : ShadowPart × Option String, Blind part (·.set p.1 p.2)) →
      part ((s.setAll parts).setAll parts) = part (s.setAll parts) :=
    fun h => (Blind.foldl parts fun p _ => h p).again rfl
  refine ext (hblind fun p => ?_) (hblind fun p => ?_) (hblind fun p => ?_) (hblind fun p => ?_) (hblind fun p => ?_)
  all_goals
    rcases p with ⟨_ | _ | _ | _ | _, value⟩
    all_goals first | exact ⟨none, fun _ => rfl⟩ | exact ⟨some _, fun _ => rfl⟩

end Shadow

def Act.part? : Act → Option (ShadowPart × Option String)
  | shadow part value => some (part, value)
  | _ => none

namespace Looks

def shadow (l : Looks) : Shadow := Shadow.parse ((l.value "box-shadow").getD "")

variable {l l' : Looks} {acts : List Act} {property : String}

theorem blind_tested (acts : List Act) (hr : property ∈ Act.tested) :
    Blind (fun l : Looks => l property) (after · acts) :=
  Blind.foldl acts fun a _ => ⟨StyleEdit.outcome? property (a.edits fun _ => none), fun l =>
    congrArg (Option.getD · (l property)) (Act.outcome?_tested hr a)⟩

theorem visible_act (l : Looks) (shown : Bool) : (l.act (.visible shown)).visible = shown := by
  cases shown with
  | false => rfl
  | true =>
    have hdisplay : l.act (.visible true) "display" = some ⟨(Layout.of l.value).display, false⟩ := by
      rw [← Layout.stored?_display]
      rfl
    unfold visible value
    rw [hdisplay]
    simpa using Layout.display_ne_none _

theorem blind_visible (acts : List Act) : Blind visible (after · acts) := by
  refine Blind.foldl acts fun a _ => ?_
  by_cases ha : a = .visible true
  · exact ⟨some true, fun l => ha ▸ visible_act l true⟩
  · refine ⟨(StyleEdit.outcome? "display" (a.edits fun _ => none)).map fun e => e.map (·.value) != some "none",
      fun l => ?_⟩
    have hout : StyleEdit.outcome? "display" (a.edits l.value) = StyleEdit.outcome? "display" (a.edits fun _ => none) :=
      Act.outcome?_blind List.mem_cons_self fun h => absurd h ha
    show (((StyleEdit.outcome? "display" (a.edits l.value)).getD (l "display")).map (·.value) != some "none") = _
    rw [hout]
    cases StyleEdit.outcome? "display" (a.edits fun _ => none) <;> rfl

/-! ## The same acts again -/

/-! ### Properties that are not put together -/

/-- **An act would edit the property otherwise for the styles that there are in the end** than it does at its turn, and
no later one sets the property. -/
def Rereads (l : Looks) (acts : List Act) (property : String) : Prop :=
  ∃ pre a post, acts = pre ++ a :: post ∧
    StyleEdit.outcome? property (a.edits (l.after pre).value) ≠
      StyleEdit.outcome? property (a.edits (l.after acts).value) ∧
    ∀ b ∈ post, ¬ b.Sets property

theorem after_after_of_not_rereads (hp : property ≠ "box-shadow") (h : ¬ l.Rereads acts property) :
    (l.after acts).after acts property = l.after acts property := by
  generalize hu : l.after acts = u
  -- At every turn the property is as it was then, or as it is in the end, or will be set.
  have hturn : ∀ pre post, acts = pre ++ post → u.after pre property = l.after pre property ∨
      u.after pre property = u property ∨ ∃ b ∈ post, b.Sets property := by
    intro pre
    induction pre using List.reverseRecOn with
    | nil => exact fun _ _ => .inr (.inl rfl)
    | append_singleton pre a ih =>
      intro post hacts
      have hacts' : acts = pre ++ a :: post := by rw [hacts, List.append_assoc]; rfl
      by_cases hlater : ∃ b ∈ post, b.Sets property
      · exact .inr (.inr hlater)
      · have hsame : StyleEdit.outcome? property (a.edits (l.after pre).value) =
            StyleEdit.outcome? property (a.edits u.value) := by
          by_contra hne
          exact h ⟨pre, a, post, hacts', hu ▸ hne, fun b hb hs => hlater ⟨b, hb, hs⟩⟩
        have hmix : ∀ r ∈ Act.tested, (u.after pre).value r = (l.after pre).value r ∨
            (u.after pre).value r = u.value r := fun r hr =>
          ((blind_tested pre hr).mixed l u).imp (congrArg (Option.map _)) (congrArg (Option.map _))
        have hout := Act.outcome?_mixed hmix hp hsame
        rw [after_concat, after_concat]
        unfold act
        rw [hout]
        rcases ih (a :: post) hacts' with hx | hx | ⟨b, hb, hs⟩
        · exact .inl (by rw [hx])
        · cases StyleEdit.outcome? property (a.edits (l.after pre).value) with
          | none => exact .inr (.inl hx)
          | some c => exact .inl rfl
        · rcases List.mem_cons.1 hb with rfl | hb
          · obtain ⟨c, hc⟩ := Option.isSome_iff_exists.1 (hs (l.after pre).value)
            rw [hc]
            exact .inl rfl
          · exact absurd ⟨b, hb, hs⟩ hlater
  rcases hturn acts [] (List.append_nil _).symm with hx | hx | ⟨b, hb, -⟩
  · rw [hx, hu]
  · exact hx
  · cases hb

/-! ### Shadows -/

theorem act_shadow (l : Looks) (part : ShadowPart) (value : Option String) :
    l.act (.shadow part value) "box-shadow" = (l.shadow.set part value).stored? := rfl

/-- The shadows that the acts put together are read back as they are. -/
def ReadsBack (l : Looks) (acts : List Act) : Prop :=
  ∀ pre part value post, acts = pre ++ .shadow part value :: post → ((l.after pre).shadow.set part value).ReadsBack

/-- **The parts of the shadow are not read back** as the acts put them together, now or when they do so again.  An act
that sets the shadow as a whole makes up for it. -/
def Misreads (l : Looks) (acts : List Act) : Prop :=
  (∀ e, .plain e ∈ acts → e.property ≠ "box-shadow") ∧ ¬ (l.ReadsBack acts ∧ (l.after acts).ReadsBack acts)

theorem ReadsBack.tail {a : Act} (h : l.ReadsBack (a :: acts)) : (l.act a).ReadsBack acts :=
  fun pre part value post he => h (a :: pre) part value post (congrArg (a :: ·) he)

theorem act_boxShadow {a : Act} (ha : a.part? = none) (hplain : ∀ e, a = .plain e → e.property ≠ "box-shadow")
    (l : Looks) : l.act a "box-shadow" = l "box-shadow" := by
  refine act_of_not_edited ?_ l
  cases a with
  | shadow part value => cases ha
  | plain e => simpa [Act.edited] using Ne.symm (hplain e rfl)
  | text => decide
  | visible shown => exact (by decide : "box-shadow" ∉ (Act.visible true).edited)
  | align value => exact (by decide : "box-shadow" ∉ (Act.align none).edited)
  | lineClamp value => exact (by decide : "box-shadow" ∉ (Act.lineClamp none).edited)
  | image value => exact (by decide : "box-shadow" ∉ (Act.image none).edited)
  | tiling value => exact (by decide : "box-shadow" ∉ (Act.tiling none).edited)

theorem shadow_congr (h : l "box-shadow" = l' "box-shadow") : l.shadow = l'.shadow := by
  unfold shadow value
  rw [h]

theorem ReadsBack.head {part : ShadowPart} {value : Option String} (h : l.ReadsBack (.shadow part value :: acts)) :
    (l.act (.shadow part value)).shadow = l.shadow.set part value := by
  have hread := h [] part value acts rfl
  unfold Shadow.ReadsBack at hread
  rw [← Shadow.value_stored?] at hread
  exact hread

/-- **Acts whose shadows are read back set the parts one after the other.** -/
theorem shadow_after : ∀ (acts : List Act) {l : Looks}, (∀ e, .plain e ∈ acts → e.property ≠ "box-shadow") →
    l.ReadsBack acts → (l.after acts).shadow = l.shadow.setAll (acts.filterMap Act.part?)
  | [], _, _, _ => rfl
  | a :: acts, l, hplain, h => by
    have ih := shadow_after acts (fun e he => hplain e (List.mem_cons_of_mem a he)) h.tail
    show ((l.act a).after acts).shadow = _
    rw [ih]
    cases hpart : a.part? with
    | none =>
      have hleft := act_boxShadow hpart (fun e he => hplain e (he ▸ List.mem_cons_self)) l
      rw [shadow_congr hleft, List.filterMap_cons_none hpart]
    | some p =>
      cases a with
      | shadow part value =>
        rw [h.head]
        rfl
      | _ => cases hpart

theorem boxShadow_after : ∀ (acts : List Act) {l : Looks}, (∀ e, .plain e ∈ acts → e.property ≠ "box-shadow") →
    l.ReadsBack acts → l "box-shadow" = l.shadow.stored? ∨ acts.filterMap Act.part? ≠ [] →
    l.after acts "box-shadow" = (l.after acts).shadow.stored?
  | [], _, _, _, hor => hor.resolve_right fun h => h rfl
  | a :: acts, l, hplain, h, hor => by
    refine boxShadow_after acts (fun e he => hplain e (List.mem_cons_of_mem a he)) h.tail ?_
    cases hpart : a.part? with
    | none =>
      have hleft := act_boxShadow hpart (fun e he => hplain e (he ▸ List.mem_cons_self)) l
      rw [shadow_congr hleft, hleft]
      rwa [List.filterMap_cons_none hpart] at hor
    | some p =>
      cases a with
      | shadow part value =>
        rw [h.head]
        exact .inl rfl
      | _ => cases hpart

theorem boxShadow_after_of_no_part : ∀ (acts : List Act) (l : Looks),
    (∀ e, .plain e ∈ acts → e.property ≠ "box-shadow") → acts.filterMap Act.part? = [] →
    l.after acts "box-shadow" = l "box-shadow"
  | [], _, _, _ => rfl
  | a :: acts, l, hplain, h => by
    cases hpart : a.part? with
    | none =>
      rw [List.filterMap_cons_none hpart] at h
      exact (boxShadow_after_of_no_part acts (l.act a) (fun e he => hplain e (List.mem_cons_of_mem a he)) h).trans
        (act_boxShadow hpart (fun e he => hplain e (he ▸ List.mem_cons_self)) l)
    | some p =>
      rw [List.filterMap_cons_some hpart] at h
      cases h

theorem boxShadow_after_congr : ∀ (acts : List Act) {l l' : Looks}, l "box-shadow" = l' "box-shadow" →
    l.after acts "box-shadow" = l'.after acts "box-shadow"
  | [], _, _, h => h
  | a :: acts, l, l', h => boxShadow_after_congr acts <| by
    cases a with
    | shadow part value => rw [act_shadow, act_shadow, shadow_congr h]
    | plain e => exact congrArg (Option.getD (StyleEdit.outcome? "box-shadow" [e])) h
    | _ =>
      exact ((act_boxShadow rfl (fun e he => by cases he) l).trans h).trans
        (act_boxShadow rfl (fun e he => by cases he) l').symm

theorem boxShadow_after_after (h : ¬ l.Misreads acts) :
    (l.after acts).after acts "box-shadow" = l.after acts "box-shadow" := by
  by_cases hwhole : ∃ e, .plain e ∈ acts ∧ e.property = "box-shadow"
  · obtain ⟨e, he, hp⟩ := hwhole
    obtain ⟨pre, post, rfl⟩ := List.append_of_mem he
    have hset : ∀ l : Looks, l.act (.plain e) "box-shadow" = e.stored? := fun l => by
      show (StyleEdit.outcome? "box-shadow" [e]).getD _ = _
      rw [StyleEdit.outcome?_single, if_pos hp]
      rfl
    have hall : ∀ l l' : Looks, l.after (pre ++ .plain e :: post) "box-shadow" =
        l'.after (pre ++ .plain e :: post) "box-shadow" := fun l l' => by
      rw [after_append, after_append]
      exact boxShadow_after_congr post ((hset _).trans (hset _).symm)
    exact hall _ _
  · have hplain : ∀ e, .plain e ∈ acts → e.property ≠ "box-shadow" := fun e he hp => hwhole ⟨e, he, hp⟩
    obtain ⟨hfirst, hagain⟩ : l.ReadsBack acts ∧ (l.after acts).ReadsBack acts := by
      by_contra hn
      exact h ⟨hplain, hn⟩
    by_cases hparts : acts.filterMap Act.part? = []
    · exact boxShadow_after_of_no_part acts _ hplain hparts
    · rw [boxShadow_after acts hplain hagain (.inr hparts), boxShadow_after acts hplain hfirst (.inr hparts),
        shadow_after acts hplain hagain, shadow_after acts hplain hfirst, Shadow.setAll_setAll]

/-! ### All properties -/

/-- **The acts done again may change the property.** -/
def Unsteady (l : Looks) (acts : List Act) (property : String) : Prop :=
  property ≠ "box-shadow" ∧ l.Rereads acts property ∨ property = "box-shadow" ∧ l.Misreads acts

/-- **Acts done again on what they left leave the same.** -/
theorem after_after (h : ¬ l.Unsteady acts property) : (l.after acts).after acts property = l.after acts property := by
  by_cases hp : property = "box-shadow"
  · subst hp
    exact boxShadow_after_after fun hm => h (.inr ⟨rfl, hm⟩)
  · exact after_after_of_not_rereads hp fun hr => h (.inl ⟨hp, hr⟩)

end Looks
end BoundPage
