import BoundPage.Proofs.Shadow
import BoundPage.Proofs.Write.Nodewise
/-!
# Shadows that are put together part by part

Every style parameter of a shadow reads the whole property, sets one part and writes the property again.  As long as the
shadows on the way are legible, each part keeps the value it was given last (`Surface.boxShadow_of_edits`).  A shadow
without colour and lengths is no property, so of what was given up to then not even the spelling of a zero is left
(`ShadowEdit.recent`).
-/
namespace BoundPage
open RenderTarget

/-- The style parameter of a part. -/
def ShadowPart.parameter : ShadowPart → String
  | offsetX => "shadow-offset-x"
  | offsetY => "shadow-offset-y"
  | blur => "shadow-blur"
  | size => "shadow-size"
  | color => "shadow-color"

theorem Act.ofParameter_parameter (part : ShadowPart) (value : Option String) (important : Bool) :
    ofParameter part.parameter value important = shadow part value := by
  cases part <;> rfl

/-- A value for a part of a shadow; without one the part is cleared. -/
structure ShadowEdit where
  part : ShadowPart
  value : Option String
  important : Bool := false

namespace Shadow

variable {s : Shadow} {css : String}

theorem isEmpty_of_css? (hcss : s.css? = some css) : css.isEmpty = false := by
  -- There is a blank between the lengths.
  have hblank : ' ' ∈ css.toList := by
    rw [toList_of_css? hcss, List.map_append]
    cases s.color with
    | none => exact List.mem_append_right _ List.mem_cons_self
    | some c => exact List.mem_append_right _ List.mem_cons_self
  cases hempty : css.isEmpty with
  | false => rfl
  | true =>
    rw [String.isEmpty_iff.1 hempty] at hblank
    cases hblank

/-- A shadow is stored as it is written. -/
theorem stored?_value (s : Shadow) : s.stored?.map (·.value) = s.css? := by
  unfold stored? StyleEdit.stored?
  cases hcss : s.css? with
  | none => rfl
  | some css => simp [Option.filter, isEmpty_of_css? hcss]

theorem set_set (s : Shadow) (part : ShadowPart) (value : Option String) :
    (s.set part value).set part value = s.set part value := by
  cases part <;> rfl

/-! ## Zero -/

/-- A length with zero spelled in one way. -/
def normalLength (length : String) : String := if isZero length then zeroLength else length

def normal (s : Shadow) : Shadow where
  color := s.color
  offsetX := normalLength s.offsetX
  offsetY := normalLength s.offsetY
  blur := normalLength s.blur
  size := normalLength s.size

theorem eq_of_isZero {length : String} (h : isZero length) : length = "0" ∨ length = zeroLength := by
  simpa [isZero] using h

theorem isZero_normalLength (length : String) : isZero (normalLength length) = isZero length := by
  unfold normalLength
  split
  · next h =>
    rw [h]
    rfl
  · rfl

theorem normalLength_normalLength (length : String) : normalLength (normalLength length) = normalLength length := by
  unfold normalLength
  split <;> simp [*]

/-- How a length begins, and whether it ends in a parenthesis, does not depend on how zero is spelled. -/
theorem ends_normalLength (length : String) : isLength (normalLength length).toList = isLength length.toList ∧
    ((normalLength length).toList.getLast? = some ')' ↔ length.toList.getLast? = some ')') := by
  unfold normalLength
  split
  · next h =>
    obtain rfl | rfl := eq_of_isZero h
    · decide
    · exact ⟨rfl, Iff.rfl⟩
  · exact ⟨rfl, Iff.rfl⟩

theorem lengths_normal (s : Shadow) : s.normal.lengths = s.lengths.map normalLength := rfl

theorem css?_normal_eq_none_iff : s.normal.css? = none ↔ s.css? = none := by
  rw [css?_eq_none_iff, css?_eq_none_iff, lengths_normal, List.forall_mem_map]
  simp only [isZero_normalLength]
  rfl

theorem normal_set (s : Shadow) (part : ShadowPart) (value : Option String) :
    (s.set part value).normal = (s.normal.set part value).normal := by
  cases part <;> simp [set, normal, normalLength_normalLength]

theorem normal_of_css?_eq_none (h : s.css? = none) : s.normal = {} := by
  obtain ⟨hcolor, hzero⟩ := css?_eq_none_iff.1 h
  have hlength : ∀ l ∈ s.lengths, normalLength l = zeroLength := fun l hl => if_pos (hzero l hl)
  simp only [lengths, List.forall_mem_cons] at hlength
  obtain ⟨hx, hy, hblur, hsize, -⟩ := hlength
  exact ext hcolor hx hy hblur hsize

theorem legible_normal : s.normal.Legible ↔ s.Legible := by
  have hcloses : (∀ l ∈ s.normal.lengths.dropLast, l.toList.getLast? ≠ some ')') ↔
      ∀ l ∈ s.lengths.dropLast, l.toList.getLast? ≠ some ')' := by
    rw [lengths_normal, ← List.map_dropLast, List.forall_mem_map]
    simp only [ne_eq, (ends_normalLength _).2]
  have hstarts : (s.normal.color = none → isLength s.normal.offsetX.toList) ↔
      (s.color = none → isLength s.offsetX.toList) := by
    show (s.color = none → isLength (normalLength s.offsetX).toList) ↔ _
    rw [(ends_normalLength s.offsetX).1]
  exact ⟨fun h => ⟨hcloses.1 h.closes, hstarts.1 h.starts⟩, fun h => ⟨hcloses.2 h.closes, hstarts.2 h.starts⟩⟩

end Shadow

namespace ShadowEdit

variable {part : ShadowPart} {es ds : List ShadowEdit} {e : ShadowEdit} {v : String}

/-- A length is a word, and a colour is a word that does not look like a length, or a function. -/
def Proper (e : ShadowEdit) : Prop :=
  ∀ v ∈ e.value, if e.part = .color then Shadow.IsColor v.toList else Text.IsWord v.toList
deriving Decidable

/-- The value that a part was given last, if it has not been cleared since. -/
def last (part : ShadowPart) (es : List ShadowEdit) : Option String :=
  ((es.filter (·.part = part)).getLast?).bind (·.value)

theorem last_concat (part : ShadowPart) (es : List ShadowEdit) (e : ShadowEdit) :
    last part (es ++ [e]) = if e.part = part then e.value else last part es := by
  unfold last
  by_cases h : e.part = part <;> simp [List.filter_append, h]

theorem last_mem (h : last part es = some v) : ∃ e ∈ es, e.part = part ∧ e.value = some v := by
  obtain ⟨e, he, hv⟩ := Option.bind_eq_some_iff.1 h
  obtain ⟨hmem, hpart⟩ := List.mem_filter.1 (List.mem_of_mem_getLast? he)
  exact ⟨e, hmem, by simpa using hpart, hv⟩

/-- The shadow in which every part is what it was given last. -/
def composed (es : List ShadowEdit) : Shadow where
  color := last .color es
  offsetX := (last .offsetX es).getD zeroLength
  offsetY := (last .offsetY es).getD zeroLength
  blur := (last .blur es).getD zeroLength
  size := (last .size es).getD zeroLength

theorem composed_concat (es : List ShadowEdit) (e : ShadowEdit) :
    composed (es ++ [e]) = (composed es).set e.part e.value := by
  unfold composed
  simp only [last_concat]
  rcases e with ⟨part, value, important⟩
  cases part <;> rfl

theorem proper_composed (h : ∀ e ∈ es, e.Proper) : (composed es).Proper := by
  have hlength : ∀ part, part ≠ .color → Text.IsWord ((last part es).getD zeroLength).toList := fun part hpart => by
    cases hv : last part es with
    | none => exact (by decide : Text.IsWord zeroLength.toList)
    | some v =>
      obtain ⟨e, he, rfl, hev⟩ := last_mem hv
      have hproper := h e he v hev
      rwa [if_neg hpart] at hproper
  constructor
  · intro c hc
    obtain ⟨e, he, hpart, hev⟩ := last_mem hc
    have hproper := h e he c hev
    rwa [if_pos hpart] at hproper
  · simp only [composed, Shadow.lengths, List.forall_mem_cons]
    refine ⟨hlength _ ?_, hlength _ ?_, hlength _ ?_, hlength _ ?_, fun _ h => absurd h List.not_mem_nil⟩
    all_goals decide

/-! ## Since the shadow was no property -/

/-- The edits since the shadow was last without colour and lengths. -/
def recent (es : List ShadowEdit) : List ShadowEdit :=
  es.foldl (fun kept e => if (composed (kept ++ [e])).css?.isNone then [] else kept ++ [e]) []

theorem recent_concat (es : List ShadowEdit) (e : ShadowEdit) :
    recent (es ++ [e]) = if (composed (recent es ++ [e])).css?.isNone then [] else recent es ++ [e] := by
  unfold recent
  rw [List.foldl_append]
  rfl

/-- Forgetting what was no property does not change the property. -/
theorem css?_recent_concat (es : List ShadowEdit) (e : ShadowEdit) :
    (composed (recent (es ++ [e]))).css? = ((composed (recent es)).set e.part e.value).css? := by
  rw [recent_concat, ← composed_concat]
  split
  · next hnone =>
    rw [Option.isNone_iff_eq_none.1 hnone]
    rfl
  · rfl

theorem recent_subset (es : List ShadowEdit) : recent es ⊆ es := by
  induction es using List.reverseRecOn with
  | nil => exact List.Subset.refl _
  | append_singleton es e ih =>
    rw [recent_concat]
    split
    · exact List.nil_subset _
    · exact List.append_subset.2 ⟨List.Subset.trans ih (List.subset_append_left es [e]), List.subset_append_right es [e]⟩

/-- An edit that is done again finds its part as it leaves it. -/
theorem css?_set_recent_concat (es : List ShadowEdit) (e : ShadowEdit) :
    ((composed (recent (es ++ [e]))).set e.part e.value).css? = (composed (recent (es ++ [e]))).css? := by
  rw [recent_concat]
  split
  · next hnone =>
    -- Nothing is left, and the edit makes nothing of nothing.
    have hnormal := Shadow.normal_of_css?_eq_none (Option.isNone_iff_eq_none.1 hnone)
    rw [composed_concat] at hnormal
    have hset : ((composed []).set e.part e.value).normal = {} := by
      rw [Shadow.normal_set, show (composed []).normal = {} from rfl, ← hnormal, ← Shadow.normal_set, Shadow.set_set]
    exact Shadow.css?_normal_eq_none_iff.1 (congrArg Shadow.css? hset)
  · rw [composed_concat, Shadow.set_set]

/-- **What is forgotten is only how zero was spelled.** -/
theorem normal_composed_recent (es : List ShadowEdit) : (composed (recent es)).normal = (composed es).normal := by
  induction es using List.reverseRecOn with
  | nil => rfl
  | append_singleton es e ih =>
    have hstep : (composed (recent es ++ [e])).normal = (composed (es ++ [e])).normal := by
      rw [composed_concat, composed_concat, Shadow.normal_set, ih, ← Shadow.normal_set]
    rw [recent_concat]
    split
    · next hnone =>
      rw [← hstep, Shadow.normal_of_css?_eq_none (Option.isNone_iff_eq_none.1 hnone)]
      rfl
    · exact hstep

theorem legible_composed_recent : (composed (recent es)).Legible ↔ (composed es).Legible := by
  rw [← Shadow.legible_normal, normal_composed_recent, Shadow.legible_normal]

theorem recent_of_css?_eq_none (h : (composed (recent es)).css? = none) : recent es = [] := by
  cases es using List.reverseRecOn with
  | nil => rfl
  | append_singleton es e =>
    rw [recent_concat] at h ⊢
    split
    · rfl
    · next hsome =>
      rw [if_neg hsome] at h
      rw [h] at hsome
      exact absurd rfl hsome

theorem readsBack_composed_recent (hes : ∀ e ∈ es, e.Proper) (hlegible : (composed es).Legible) :
    (composed (recent es)).ReadsBack := by
  cases hcss : (composed (recent es)).css? with
  | none =>
    rw [recent_of_css?_eq_none hcss]
    exact (by decide : Shadow.parse (({} : Shadow).css?.getD "") = {})
  | some css =>
    exact (legible_composed_recent.2 hlegible).readsBack (proper_composed fun e he => hes e (recent_subset es he)) hcss

end ShadowEdit

/-! ## On a page -/

/-- The parts of a node's shadow edited one after the other. -/
def shade {S : Type} [RenderTarget S] (s : S) (n : Nat) (es : List ShadowEdit) : S :=
  es.foldl (fun s e => inlineStyles s n e.part.parameter e.value e.important) s

namespace Surface
open ShadowEdit

variable {s : Surface} {n : Slot} {es : List ShadowEdit}

theorem size_shade : ∀ (es : List ShadowEdit) (s : Surface), (shade s n es).size = s.size
  | [], _ => rfl
  | _ :: es, s => (size_shade es _).trans (restyled_applyAll s n _).size

theorem shade_concat (s : Surface) (n : Slot) (es : List ShadowEdit) (e : ShadowEdit) :
    shade s n (es ++ [e]) = inlineStyles (shade s n es) n e.part.parameter e.value e.important := by
  unfold shade
  rw [List.foldl_append]
  rfl

theorem style_inlineStyles_shadow (hn : n < s.size) (part : ShadowPart) (value : Option String) (important : Bool) :
    style (inlineStyles s n part.parameter value important) n "box-shadow" =
      ((Shadow.parse ((style s n "box-shadow").getD "")).set part value).css? := by
  rw [← Pass.run_ofParameter "" n s, Act.ofParameter_parameter]
  show ((Act.run "" n s (.shadow part value)).looks n "box-shadow").map (·.value) = _
  rw [Act.looks_run_of_isStyle ⟨Act.noConfusion, fun _ => Act.noConfusion⟩ hn, Looks.act_shadow, Shadow.stored?_value]
  rfl

/-- **Every edit reads what the edits before it have composed**, so the last one adds its own part to that. -/
theorem style_shade (hn : n < s.size) (hunset : style s n "box-shadow" = none) (es : List ShadowEdit) :
    (∀ e ∈ es, e.Proper) → (∀ sofar, sofar <+: es → sofar ≠ es → (composed sofar).Legible) →
      style (shade s n es) n "box-shadow" = (composed (recent es)).css? := by
  induction es using List.reverseRecOn with
  | nil => exact fun _ _ => hunset
  | append_singleton es e ih =>
    intro hes hlegible
    have hproper : ∀ d ∈ es, d.Proper := fun d hd => hes d (List.mem_append_left [e] hd)
    have hbefore : ∀ sofar, sofar <+: es → (composed sofar).Legible := fun sofar hsofar =>
      hlegible sofar (hsofar.trans (List.prefix_append es [e])) fun heq => by
        have := hsofar.length_le
        rw [heq, List.length_append, List.length_singleton] at this
        omega
    have hread : Shadow.parse ((composed (recent es)).css?.getD "") = composed (recent es) :=
      readsBack_composed_recent hproper (hbefore es List.prefix_rfl)
    rw [shade_concat, style_inlineStyles_shadow ((size_shade es s).symm ▸ hn),
      ih hproper fun sofar hsofar _ => hbefore sofar hsofar, hread, css?_recent_concat]

/-- **The parts of a shadow are independent.**  What edits leave of a shadow that was not set is the colour given last and
the four lengths given last, nothing if there is no colour and all lengths are zero; of a zero from before it was last
nothing only the spelling is lost.  So an edit changes its own part only, and done twice it changes nothing more. -/
theorem boxShadow_of_edits (hn : n < s.size) (hunset : style s n "box-shadow" = none) (hes : ∀ e ∈ es, e.Proper)
    (hlegible : ∀ sofar, sofar <+: es → sofar ≠ es → (composed sofar).Legible) :
    (style (shade s n es) n "box-shadow" = none ↔
        last .color es = none ∧ ∀ l ∈ (composed es).lengths, Shadow.isZero l) ∧
      (∀ css, style (shade s n es) n "box-shadow" = some css →
        css = " ".intercalate ((last .color es).toList ++ (composed (recent es)).lengths)) ∧
      (composed (recent es)).normal = (composed es).normal ∧
      (∀ ds e, es = ds ++ [e] →
        style (shade s n ds) n "box-shadow" = (composed (recent ds)).css? ∧
        style (shade s n es) n "box-shadow" = ((composed (recent ds)).set e.part e.value).css?) ∧
      ∀ ds e e', es = ds ++ [e, e'] → e'.part = e.part → e'.value = e.value →
        style (shade s n es) n "box-shadow" = style (shade s n (ds ++ [e])) n "box-shadow" := by
  have hstyle : ∀ ds, ds <+: es → style (shade s n ds) n "box-shadow" = (composed (recent ds)).css? := fun ds hds =>
    style_shade hn hunset ds (fun e he => hes e (hds.subset he)) fun sofar hsofar hne =>
      hlegible sofar (hsofar.trans hds) fun heq => hne (hsofar.eq_of_length_le (heq ▸ hds.length_le))
  have hnormal := normal_composed_recent es
  refine ⟨?_, fun css hcss => ?_, hnormal, ?_, ?_⟩
  · rw [hstyle es List.prefix_rfl, ← Shadow.css?_normal_eq_none_iff, hnormal, Shadow.css?_normal_eq_none_iff,
      Shadow.css?_eq_none_iff]
    rfl
  · have hcolor : last .color (recent es) = last .color es := congrArg Shadow.color hnormal
    rw [hstyle es List.prefix_rfl] at hcss
    unfold Shadow.css? at hcss
    split at hcss
    · cases hcss
    · rw [← Option.some.inj hcss, ← hcolor]
      rfl
  · rintro ds e rfl
    rw [hstyle ds (List.prefix_append ds [e]), hstyle _ List.prefix_rfl, css?_recent_concat]
    exact ⟨rfl, rfl⟩
  · rintro ds e e' rfl hpart hvalue
    have hsplit : ds ++ [e, e'] = ds ++ [e] ++ [e'] := (List.append_assoc ds [e] [e']).symm
    rw [hsplit, hstyle _ (hsplit ▸ List.prefix_rfl), hstyle _ (hsplit ▸ List.prefix_append _ [e']),
      css?_recent_concat, hpart, hvalue, css?_set_recent_concat]

/-- A page with one node. -/
def card : Surface := .ofMarkup [{ tag := "p" }]

/-- A colour that is cleared again, and lengths of which only the last one ends in a parenthesis. -/
def spread : List ShadowEdit :=
  [⟨.color, some "rgba(0, 0, 0, 0.5)", false⟩, ⟨.offsetX, some "0", false⟩, ⟨.blur, some "4px", false⟩,
    ⟨.size, some "calc(1px+2px)", true⟩, ⟨.color, none, false⟩, ⟨.color, none, false⟩]

theorem boxShadow_of_edits_spread : 0 < card.size ∧ style card 0 "box-shadow" = none ∧ (∀ e ∈ spread, e.Proper) ∧
    (∀ sofar, sofar <+: spread → sofar ≠ spread → (composed sofar).Legible) ∧
    style (shade card 0 spread) 0 "box-shadow" = some "0 0px 4px calc(1px+2px)" := by
  have hn : 0 < card.size := by decide
  have hunset : style card 0 "box-shadow" = none := rfl
  have hes : ∀ e ∈ spread, e.Proper := by decide +kernel
  have hlegible : ∀ sofar, sofar <+: spread → sofar ≠ spread → (composed sofar).Legible := by
    have hinits : ∀ sofar ∈ spread.inits, (composed sofar).Legible := by decide +kernel
    exact fun sofar hsofar _ => hinits sofar ((List.mem_inits ..).2 hsofar)
  obtain ⟨hnone, hsome, -⟩ := boxShadow_of_edits hn hunset hes hlegible
  refine ⟨hn, hunset, hes, hlegible, ?_⟩
  cases hcss : style (shade card 0 spread) 0 "box-shadow" with
  | none => exact absurd (hnone.1 hcss).2 (by decide +kernel)
  | some css =>
    rw [hsome css hcss]
    decide +kernel

/-- A length that is zero, and then a colour. -/
def zeroFirst : List ShadowEdit := [⟨.offsetX, some "0", false⟩, ⟨.color, some "red", false⟩]

/-- A length that looks like no length, and then another one. -/
def variableFirst : List ShadowEdit := [⟨.offsetX, some "var(--x)", false⟩, ⟨.blur, some "4px", false⟩]

/-- A zero is not kept as it was spelled while there is nothing else, and a first length that looks like none is taken for
a colour. -/
theorem not_boxShadow_of_edits : style card 0 "box-shadow" = none ∧
    ((∀ e ∈ zeroFirst, e.Proper) ∧ (composed zeroFirst).css? = some "red 0 0px 0px 0px" ∧
      style (shade card 0 zeroFirst) 0 "box-shadow" = some "red 0px 0px 0px 0px") ∧
    ((∀ e ∈ variableFirst, e.Proper) ∧ (composed variableFirst).css? = some "var(--x) 0px 4px 0px" ∧
      style (shade card 0 variableFirst) 0 "box-shadow" = some "var(--x) 0px 0px 4px 0px") := by
  decide +kernel

end Surface
end BoundPage
