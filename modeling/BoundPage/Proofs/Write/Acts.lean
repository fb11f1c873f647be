import BoundPage.Layout
import BoundPage.Style.Effect
import BoundPage.Surface.Basic
/-!
# Acts

What a pass does to one node is a list of acts.  Most of an act are edits of styles, and these may depend on the styles
that the node has at that moment (`Act.edits`); what acts leave of the styles is `Looks.after`.
-/
namespace BoundPage

/-! ## Edits -/

namespace StyleEdit

/-- The entry that an edit leaves; an empty value clears the property. -/
def stored? (e : StyleEdit) : Option StyleEntry := (e.value.filter fun v => !v.isEmpty).map fun v => ⟨v, e.important⟩

/-- What edits leave of a property, if one of them is about it. -/
def outcome? (property : String) : List StyleEdit → Option (Option StyleEntry)
  | [] => none
  | e :: es => (outcome? property es).or (if e.property = property then some e.stored? else none)

theorem outcome?_eq_none {property : String} : ∀ {es : List StyleEdit}, (∀ e ∈ es, e.property ≠ property) →
    outcome? property es = none
  | [], _ => rfl
  | e :: es, h => by
    rw [outcome?, outcome?_eq_none fun e' he => h e' (List.mem_cons_of_mem e he), if_neg (h e List.mem_cons_self)]
    rfl

theorem outcome?_single (property : String) (e : StyleEdit) :
    outcome? property [e] = if e.property = property then some e.stored? else none := rfl

theorem property_align {look : String → Option String} {value : Option String} {e : StyleEdit}
    (h : e ∈ align look value) : e.property ∈ Placement.positionedProperties ++ Placement.flowProperties := by
  have hpositioned : ∀ place, ∀ x ∈ Placement.positioned place, x.1 ∈ Placement.positionedProperties := by
    intro place
    unfold Placement.positioned
    split <;> decide
  have hflow : ∀ place, ∀ x ∈ Placement.flow place, x.1 ∈ Placement.flowProperties := by
    intro place
    unfold Placement.flow
    split <;> decide
  unfold align at h
  rw [List.mem_append]
  split at h
  all_goals
    rcases List.mem_append.1 h with h | h
    all_goals obtain ⟨x, hx, rfl⟩ := List.mem_map.1 h
  · exact .inl hx
  · exact .inl (hpositioned _ x hx)
  · exact .inr hx
  · exact .inr (hflow _ x hx)

end StyleEdit

namespace Layout

def isSet (look : String → Option String) (property : String) : Bool := (look property).any fun v => !v.isEmpty

/-- The layout that styles are for. -/
def of (look : String → Option String) : Layout :=
  if isSet look "flex-direction" then flex
  else if isSet look "-webkit-line-clamp" then lineClamp
  else if isSet look "grid-template-areas" then grid
  else block

theorem detect_eq {S : Type} [RenderTarget S] (s : S) (n : Nat) : detect s n = of (RenderTarget.style s n) := rfl

/-- The properties that a layout follows from. -/
def flags : List String := ["flex-direction", "-webkit-line-clamp", "grid-template-areas"]

variable {look look' : String → Option String}

theorem of_congr (h : ∀ r ∈ flags, look r = look' r) : of look = of look' := by
  unfold of isSet
  rw [h "flex-direction" (by decide), h "-webkit-line-clamp" (by decide), h "grid-template-areas" (by decide)]

/-- A mixture of styles for one layout is for this layout, too. -/
theorem of_mixed {x y u : String → Option String} (hmix : ∀ r ∈ flags, y r = x r ∨ y r = u r) (h : of x = of u) :
    of y = of x := by
  have hset : ∀ r ∈ flags, isSet y r = isSet x r ∨ isSet y r = isSet u r := fun r hr => by
    unfold isSet
    rcases hmix r hr with h | h <;> simp [h]
  have h1 := hset "flex-direction" (by decide)
  have h2 := hset "-webkit-line-clamp" (by decide)
  have h3 := hset "grid-template-areas" (by decide)
  unfold of at h ⊢
  grind

theorem display_inj {l l' : Layout} (h : l.display = l'.display) : l = l' := by
  revert h
  cases l <;> cases l' <;> decide

theorem display_ne_none (l : Layout) : l.display ≠ "none" := by cases l <;> decide

theorem stored?_display (l : Layout) : (StyleEdit.set "display" l.display).stored? = some ⟨l.display, false⟩ := by
  cases l <;> decide

end Layout

/-! ## Acts -/

/-- Something that a pass does to a node. -/
inductive Act where
  /-- The value replaces the text. -/
  | text
  | visible (shown : Bool)
  | shadow (part : ShadowPart) (value : Option String)
  | align (value : Option String)
  | lineClamp (value : Option String)
  | image (value : Option String)
  | tiling (value : Option String)
  /-- An edit of one property that reads nothing. -/
  | plain (edit : StyleEdit)

namespace Act

def ofParameter (parameter : String) (value : Option String) (important : Bool) : Act :=
  match ShadowPart.ofParameter? parameter with
  | some part => shadow part value
  | none =>
    match parameter with
    | "align" | "position" => align value
    | "line-clamp" => lineClamp value
    | "background-image" => image value
    | "background-repeat" => tiling value
    | _ => plain { property := parameter, value, important }

/-- The edits of an act on a node with the given styles. -/
def edits (look : String → Option String) : Act → List StyleEdit
  | text => []
  | visible true => [StyleEdit.set "display" (Layout.of look).display]
  | visible false => [StyleEdit.set "display" "none"]
  | shadow part value =>
    [{ property := "box-shadow", value := ((Shadow.parse ((look "box-shadow").getD "")).set part value).css? }]
  | align value => StyleEdit.align look value
  | lineClamp value => StyleEdit.lineClamp value
  | image value => StyleEdit.backgroundImage look value
  | tiling value => StyleEdit.backgroundRepeat value
  | plain e => [e]

theorem edits_ofParameter (look : String → Option String) (parameter : String) (value : Option String)
    (important : Bool) :
    (ofParameter parameter value important).edits look = StyleEdit.forParameter look parameter value important := by
  unfold ofParameter StyleEdit.forParameter
  cases ShadowPart.ofParameter? parameter with
  | some part => rfl
  | none => simp only; split <;> simp [edits]

/-- The properties whose values decide between edits. -/
def tested : List String :=
  ["flex-direction", "-webkit-line-clamp", "grid-template-areas", "position", "background-repeat"]

/-- **What acts read of the styles**, and the visibility that spacing reads. -/
def read : List String := "display" :: "box-shadow" :: tested

/-- The act is about the property, whatever the styles are. -/
def Sets (a : Act) (property : String) : Prop := ∀ look, (StyleEdit.outcome? property (a.edits look)).isSome

variable {look look' : String → Option String} {property : String}

/-- The properties that an act may edit. -/
def edited : Act → List String
  | text => []
  | visible _ => ["display"]
  | shadow _ _ => ["box-shadow"]
  | align _ => Placement.positionedProperties ++ Placement.flowProperties
  | lineClamp _ => ["display", "overflow", "-webkit-line-clamp", "-webkit-box-orient"]
  | image _ => ["background-image", "background-size", "background-position"]
  | tiling _ => ["background-repeat", "background-size", "background-position"]
  | plain e => [e.property]

theorem property_mem_edited {a : Act} {e : StyleEdit} (h : e ∈ a.edits look) : e.property ∈ a.edited := by
  have hall : (a.edits look).map StyleEdit.property = a.edited → e.property ∈ a.edited := fun he =>
    he ▸ List.mem_map_of_mem h
  cases a with
  | text => cases h
  | visible shown => cases shown <;> exact hall rfl
  | shadow part value => exact hall rfl
  | align value => exact StyleEdit.property_align h
  | lineClamp value => cases value <;> exact hall rfl
  | image value =>
    cases value with
    | none => exact hall rfl
    | some url =>
      change e ∈ StyleEdit.backgroundImage look (some url) at h
      unfold StyleEdit.backgroundImage at h
      dsimp only at h
      split at h
      · exact List.mem_singleton.1 h ▸ List.mem_cons_self
      · exact List.mem_map_of_mem (f := StyleEdit.property) h
  | tiling value => cases value <;> exact hall rfl
  | plain e => exact hall rfl

/-- The properties that a style parameter is about: the one of its name, and those it stands for. -/
def properties (parameter : String) : List String := parameter :: (ofParameter parameter none false).edited

theorem edited_ofParameter (parameter : String) (value : Option String) (important : Bool) :
    (ofParameter parameter value important).edited = (ofParameter parameter none false).edited := by
  unfold ofParameter
  cases ShadowPart.ofParameter? parameter with
  | some part => rfl
  | none => simp only; split <;> rfl

theorem outcome?_eq_none {a : Act} (h : property ∉ a.edited) : StyleEdit.outcome? property (a.edits look) = none :=
  StyleEdit.outcome?_eq_none fun _ he heq => h (heq ▸ property_mem_edited he)

theorem edits_visible_congr (h : Layout.of look = Layout.of look') (shown : Bool) :
    (visible shown).edits look = (visible shown).edits look' := by
  cases shown with
  | false => rfl
  | true => exact congrArg (fun l : Layout => [StyleEdit.set "display" l.display]) h

theorem edits_align_congr (h : look "position" = look' "position") (value : Option String) :
    (align value).edits look = (align value).edits look' := by
  show StyleEdit.align look value = StyleEdit.align look' value
  unfold StyleEdit.align
  rw [h]

theorem edits_image_congr (h : look "background-repeat" = look' "background-repeat") (value : Option String) :
    (image value).edits look = (image value).edits look' := by
  show StyleEdit.backgroundImage look value = StyleEdit.backgroundImage look' value
  unfold StyleEdit.backgroundImage
  rw [h]

theorem edits_congr (h : ∀ r ∈ read, look r = look' r) (a : Act) : a.edits look = a.edits look' := by
  cases a with
  | visible shown =>
    exact edits_visible_congr (Layout.of_congr fun r hr => h r ((by decide : ∀ r ∈ Layout.flags, r ∈ read) r hr)) shown
  | shadow part value =>
    show [_] = [_]
    rw [h "box-shadow" (by decide)]
  | align value => exact edits_align_congr (h "position" (by decide)) value
  | image value => exact edits_image_congr (h "background-repeat" (by decide)) value
  | text => rfl
  | lineClamp value => rfl
  | tiling value => rfl
  | plain e => rfl

/-- **The properties that decide between edits are themselves edited blindly**, and so is the `display`, except that a
shown node is displayed in its layout. -/
theorem outcome?_blind {a : Act} (hr : property ∈ "display" :: tested) (ha : a = visible true → property ≠ "display") :
    StyleEdit.outcome? property (a.edits look) = StyleEdit.outcome? property (a.edits look') := by
  have hnone : (∀ r ∈ "display" :: tested, r ∉ a.edited) →
      StyleEdit.outcome? property (a.edits look) = StyleEdit.outcome? property (a.edits look') := fun h => by
    rw [outcome?_eq_none (h property hr), outcome?_eq_none (h property hr)]
  cases a with
  | visible shown =>
    cases shown with
    | false => rfl
    | true =>
      have hd : property ∉ (visible true).edited := by simpa [edited] using ha rfl
      rw [outcome?_eq_none hd, outcome?_eq_none hd]
  | shadow part value => exact hnone (by decide : ∀ r ∈ "display" :: tested, r ∉ ["box-shadow"])
  | align value => exact hnone (by decide : ∀ r ∈ "display" :: tested, r ∉ (align none).edited)
  | image value => exact hnone (by decide : ∀ r ∈ "display" :: tested, r ∉ (image none).edited)
  | text => rfl
  | lineClamp value => rfl
  | tiling value => rfl
  | plain e => rfl

theorem outcome?_tested (hr : property ∈ tested) (a : Act) :
    StyleEdit.outcome? property (a.edits look) = StyleEdit.outcome? property (a.edits look') :=
  outcome?_blind (List.mem_cons_of_mem _ hr) fun _ h => (by decide : "display" ∉ tested) (h ▸ hr)

/-- **An act that edits a property the same for two sets of styles edits it the same for a mixture of them.** -/
theorem outcome?_mixed {x y u : String → Option String} (hmix : ∀ r ∈ tested, y r = x r ∨ y r = u r)
    (hp : property ≠ "box-shadow") {a : Act}
    (h : StyleEdit.outcome? property (a.edits x) = StyleEdit.outcome? property (a.edits u)) :
    StyleEdit.outcome? property (a.edits y) = StyleEdit.outcome? property (a.edits x) := by
  have hedits : a.edits y = a.edits x ∨ a.edits y = a.edits u →
      StyleEdit.outcome? property (a.edits y) = StyleEdit.outcome? property (a.edits x) := by
    rintro (he | he)
    · rw [he]
    · rw [he, h]
  cases a with
  | visible shown =>
    cases shown with
    | false => rfl
    | true =>
      have houtcome : ∀ look, StyleEdit.outcome? property ((visible true).edits look) =
          if "display" = property then some (some ⟨(Layout.of look).display, false⟩) else none := fun look => by
        rw [← Layout.stored?_display]
        rfl
      rw [houtcome, houtcome] at h ⊢
      by_cases hd : "display" = property
      · rw [if_pos hd, if_pos hd, Option.some_inj, Option.some_inj, StyleEntry.mk.injEq] at h
        rw [Layout.of_mixed (fun r hr => hmix r ((by decide : ∀ r ∈ Layout.flags, r ∈ tested) r hr))
          (Layout.display_inj h.1)]
      · rw [if_neg hd, if_neg hd]
  | shadow part value =>
    have hnone : ∀ look, StyleEdit.outcome? property ((shadow part value).edits look) = none := fun look =>
      StyleEdit.outcome?_eq_none fun e he heq => hp (by rw [← heq, List.mem_singleton.1 he])
    rw [hnone y, hnone x]
  | align value =>
    exact hedits ((hmix "position" (by decide)).imp (edits_align_congr · value) (edits_align_congr · value))
  | image value =>
    exact hedits ((hmix "background-repeat" (by decide)).imp (edits_image_congr · value) (edits_image_congr · value))
  | text => rfl
  | lineClamp value => rfl
  | tiling value => rfl
  | plain e => rfl

end Act

/-! ## Styles after acts -/

abbrev Looks := String → Option StyleEntry

namespace Looks

def value (l : Looks) (property : String) : Option String := (l property).map (·.value)

def act (l : Looks) (a : Act) : Looks := fun property =>
  (StyleEdit.outcome? property (a.edits l.value)).getD (l property)

/-- **The styles after a list of acts.** -/
def after (l : Looks) (acts : List Act) : Looks := acts.foldl act l

def visible (l : Looks) : Bool := l.value "display" != some "none"

variable {l l' : Looks} {acts : List Act} {property : String}

theorem after_append (l : Looks) (pre post : List Act) : l.after (pre ++ post) = (l.after pre).after post :=
  List.foldl_append

theorem after_concat (l : Looks) (acts : List Act) (a : Act) : l.after (acts ++ [a]) = (l.after acts).act a :=
  List.foldl_append

theorem act_of_not_edited {a : Act} (h : property ∉ a.edited) (l : Looks) : l.act a property = l property := by
  unfold act
  rw [Act.outcome?_eq_none h]
  rfl

theorem after_of_not_edited : ∀ (acts : List Act), (∀ a ∈ acts, property ∉ a.edited) → ∀ l : Looks,
    l.after acts property = l property
  | [], _, _ => rfl
  | a :: acts, h, l => (after_of_not_edited acts (fun b hb => h b (List.mem_cons_of_mem a hb)) (l.act a)).trans
    (act_of_not_edited (h a List.mem_cons_self) l)

theorem act_congr (h : ∀ r ∈ Act.read, l r = l' r) (hp : l property = l' property) (a : Act) :
    l.act a property = l'.act a property := by
  unfold act
  have hv : ∀ r ∈ Act.read, l.value r = l'.value r := fun r hr => congrArg (Option.map _) (h r hr)
  rw [hp, Act.edits_congr hv]

/-- **What acts leave of a property depends on what was there and on what they read.** -/
theorem after_congr : ∀ (acts : List Act) {l l' : Looks}, (∀ r ∈ Act.read, l r = l' r) → l property = l' property →
    l.after acts property = l'.after acts property
  | [], _, _, _, hp => hp
  | a :: acts, _, _, h, hp => after_congr acts (fun r hr => act_congr h (h r hr) a) (act_congr h hp a)

end Looks
end BoundPage
