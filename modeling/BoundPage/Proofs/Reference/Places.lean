import BoundPage.Reference
/-!
# Places

A place in a value is the way to it, step by step.  The part of a reference for a place is found on the same way, and
what stands at the place after resolution is what stood there, resolved with that part (`at_resolvePart`).  A literal
in a list or an object resolves like one that stands on its own, with one exception (`resolves_alike_iff`).
-/
namespace BoundPage

namespace Json

/-- A list or an object. -/
def isStructure : Json → Bool
  | .arr _ | .obj _ => true
  | _ => false

inductive Step where
  | field (name : String)
  | item (index : Nat)
deriving DecidableEq, Repr

/-- What is one step inside a value. -/
def step? : Step → Json → Option Json
  | .field name, .obj fields => field? name fields
  | .item index, .arr items => items[index]?
  | _, _ => none

/-- What stands at a place. -/
def at? : List Step → Json → Option Json
  | [], v => some v
  | step :: place, v => (v.step? step).bind (at? place)

/-- What is directly in a list or an object. -/
def parts : Json → List Json
  | .arr items => items
  | .obj fields => fields.map Prod.snd
  | _ => []

mutual

/-- The strings in a value, at any depth.  The names of fields are none of them. -/
def strings : Json → List String
  | .str s => [s]
  | .arr items => stringsOfItems items
  | .obj fields => stringsOfFields fields
  | _ => []

def stringsOfItems : List Json → List String
  | [] => []
  | v :: items => v.strings ++ stringsOfItems items

def stringsOfFields : List (String × Json) → List String
  | [] => []
  | (_, v) :: fields => v.strings ++ stringsOfFields fields

end

theorem isStructure_of_step? {step : Step} {v x : Json} (h : v.step? step = some x) : v.isStructure := by
  cases v with
  | arr items => rfl
  | obj fields => rfl
  | _ => cases step <;> cases h

/-- What has something inside is a list or an object. -/
theorem isStructure_of_at? {place : List Step} {v s : Json} (h : v.at? place = some s)
    (hs : place = [] → s.isStructure) : v.isStructure := by
  cases place with
  | nil => exact Option.some.inj h ▸ hs rfl
  | cons step place =>
    obtain ⟨x, hx, -⟩ := Option.bind_eq_some_iff.1 h
    exact isStructure_of_step? hx

/-! ## Fields -/

theorem field?_cons (name : String) (f : String × Json) (fs : List (String × Json)) :
    field? name (f :: fs) = if f.1 = name then some f.2 else field? name fs := by
  unfold field?
  by_cases h : f.1 = name
  · rw [List.find?_cons_of_pos (by simpa using h), if_pos h]
    rfl
  · rw [List.find?_cons_of_neg (by simpa using h), if_neg h]

theorem field?_eq_none_iff {name : String} {fields : List (String × Json)} :
    field? name fields = none ↔ name ∉ fields.map Prod.fst := by
  unfold field?
  rw [Option.map_eq_none_iff, List.find?_eq_none, List.mem_map]
  simp only [beq_iff_eq, not_exists, not_and]

theorem isSome_field?_iff {name : String} {fields : List (String × Json)} :
    (field? name fields).isSome ↔ name ∈ fields.map Prod.fst := by
  rw [Option.isSome_iff_ne_none, ne_eq, field?_eq_none_iff, Classical.not_not]

theorem field?_insertField (name other : String) (v : Json) : ∀ fields : List (String × Json),
    field? name (insertField other v fields) = if other = name then some v else field? name fields
  | [] => by rw [insertField, field?_cons]
  | f :: fs => by
    rw [insertField]
    split
    · rw [field?_cons]
    · split
      · next he =>
        rw [field?_cons, field?_cons, ← he]
        by_cases h : other = name
        · rw [if_pos h, if_pos h]
        · rw [if_neg h, if_neg h, if_neg h]
      · next hne =>
        rw [field?_cons, field?_cons, field?_insertField name other v fs]
        by_cases h : f.1 = name
        · rw [if_pos h, if_pos h, if_neg fun he => hne (he.trans h.symm)]
        · rw [if_neg h, if_neg h]

end Json

namespace Reference
open Json (Step field? insertField)

variable {vs : Variables} {event : Option String}

/-- The part of a reference for what is one step inside the literal. -/
def forStep? (reference : Json) : Step → Option Json
  | .field name => forField? reference name
  | .item index => forItem? reference index

/-- The part of a reference for a place in the literal. -/
def partAt? : List Step → Json → Option Json
  | [], reference => some reference
  | step :: place, reference => (forStep? reference step).bind (partAt? place)

/-! ## Fields that only the reference has -/

/-- Sets a field of the reference among the others, if it is none of the literal's and names a known variable. -/
def addField (vs : Variables) (literal : List (String × Json)) (sofar : List (String × Json)) (f : String × Json) :
    List (String × Json) :=
  if (field? f.1 literal).isSome then sofar
  else match named? vs f.2 with
    | some v => insertField f.1 v sofar
    | none => sofar

theorem addNamed_obj (literal fields sofar : List (String × Json)) :
    addNamed vs literal (.obj fields) sofar = fields.foldl (addField vs literal) sofar := rfl

theorem field?_addField {literal : List (String × Json)} (name : String) (sofar : List (String × Json))
    (f : String × Json) : field? name (addField vs literal sofar f) =
      if f.1 = name ∧ name ∉ literal.map Prod.fst ∧ (named? vs f.2).isSome then named? vs f.2
      else field? name sofar := by
  unfold addField
  by_cases hf : (field? f.1 literal).isSome
  · rw [if_pos hf, if_neg]
    rintro ⟨rfl, hnot, -⟩
    exact hnot (Json.isSome_field?_iff.1 hf)
  · rw [if_neg hf]
    rw [Json.isSome_field?_iff] at hf
    cases hv : named? vs f.2 with
    | none => rw [if_neg fun h => by cases h.2.2]
    | some v =>
      rw [Json.field?_insertField]
      by_cases hn : f.1 = name
      · rw [if_pos hn, if_pos ⟨hn, hn ▸ hf, rfl⟩]
      · rw [if_neg hn, if_neg fun h => hn h.1]

/-- A field of the literal is left as it is. -/
theorem field?_addNamed {name : String} {literal : List (String × Json)} (h : name ∈ literal.map Prod.fst)
    (reference : Json) (sofar : List (String × Json)) :
    field? name (addNamed vs literal reference sofar) = field? name sofar := by
  cases reference with
  | obj fields =>
    rw [addNamed_obj]
    induction fields generalizing sofar with
    | nil => rfl
    | cons f fields ih => rw [List.foldl_cons, ih, field?_addField, if_neg fun hf => hf.2.1 h]
  | _ => rfl

/-! ## What stands at a place after resolution -/

theorem field?_resolveFields (reference : Json) (name : String) : ∀ fields : List (String × Json),
    field? name (resolveFields vs event reference fields) =
      (field? name fields).map (resolvePart vs event (forField? reference name))
  | [] => by rw [resolveFields]; rfl
  | f :: fs => by
    rw [resolveFields, Json.field?_cons, Json.field?_cons, field?_resolveFields reference name fs]
    by_cases h : f.1 = name
    · rw [if_pos h, if_pos h, ← h]
      rfl
    · rw [if_neg h, if_neg h]

theorem getElem?_resolveItems (reference : Json) : ∀ (items : List Json) (start index : Nat),
    (resolveItems vs event reference start items)[index]? =
      items[index]?.map (resolvePart vs event (forItem? reference (start + index)))
  | [], _, _ => by rw [resolveItems]; rfl
  | v :: items, start, 0 => by rw [resolveItems]; rfl
  | v :: items, start, index + 1 => by
    rw [resolveItems, List.getElem?_cons_succ, getElem?_resolveItems reference items, List.getElem?_cons_succ,
      Nat.add_assoc, Nat.add_comm 1]

theorem step?_resolvePart {step : Step} {v x : Json} (reference : Json) (h : v.step? step = some x) :
    (resolvePart vs event (some reference) v).step? step =
      some (resolvePart vs event (forStep? reference step) x) := by
  cases v with
  | obj fields =>
    cases step with
    | item index => cases h
    | field name =>
      have hmem : name ∈ fields.map Prod.fst := Json.isSome_field?_iff.1 (Option.isSome_of_eq_some h)
      rw [resolvePart]
      show field? name (addNamed vs fields reference _) = _
      rw [field?_addNamed hmem, field?_resolveFields, show field? name fields = some x from h]
      rfl
  | arr items =>
    cases step with
    | field name => cases h
    | item index =>
      rw [resolvePart]
      show (resolveItems vs event reference 0 items)[index]? = _
      rw [getElem?_resolveItems, show items[index]? = some x from h, Nat.zero_add]
      rfl
  | _ => cases step <;> cases h

/-- A list or an object without a part of the reference is left as it is. -/
theorem resolvePart_none {v : Json} (h : v.isStructure) : resolvePart vs event none v = v := by
  cases v with
  | obj fields => rw [resolvePart]
  | arr items => rw [resolvePart]
  | _ => cases h

/-- **What stands at a place is resolved with the part of the reference for that place.** -/
theorem at_resolvePart {s part : Json} : ∀ (place : List Step) {v reference : Json}, v.at? place = some s →
    partAt? place reference = some part →
    (resolvePart vs event (some reference) v).at? place = some (resolvePart vs event (some part) s)
  | [], _, _, hv, hr => by
    obtain rfl := Option.some.inj hv
    obtain rfl := Option.some.inj hr
    rfl
  | step :: place, v, reference, hv, hr => by
    obtain ⟨x, hx, hv⟩ := Option.bind_eq_some_iff.1 hv
    obtain ⟨r, hstep, hr⟩ := Option.bind_eq_some_iff.1 hr
    show (Json.step? step _).bind (Json.at? place) = _
    rw [step?_resolvePart reference hx, hstep]
    exact at_resolvePart place hv hr

/-- The same of a list or an object, which is left as it is when the reference has no part for its place. -/
theorem at_resolvePart_of_isStructure {s : Json} (hs : s.isStructure) : ∀ (place : List Step) {v : Json}
    (part : Option Json), v.at? place = some s →
    (resolvePart vs event part v).at? place = some (resolvePart vs event (part.bind (partAt? place)) s)
  | [], _, part, hv => by
    obtain rfl := Option.some.inj hv
    cases part <;> rfl
  | step :: place, v, none, hv => by
    obtain ⟨x, hx, -⟩ := Option.bind_eq_some_iff.1 hv
    rw [resolvePart_none (Json.isStructure_of_step? hx), hv]
    exact congrArg some (resolvePart_none hs).symm
  | step :: place, v, some reference, hv => by
    obtain ⟨x, hx, hv⟩ := Option.bind_eq_some_iff.1 hv
    show (Json.step? step _).bind (Json.at? place) = _
    rw [step?_resolvePart reference hx]
    exact at_resolvePart_of_isStructure hs place _ hv

theorem resolve_of_isStructure {v : Json} (h : v.isStructure) (reference : Json) :
    resolve vs event reference v = resolvePart vs event (some reference) v := by
  cases v with
  | obj fields => rfl
  | arr items => rfl
  | _ => cases h

theorem resolve_literal {s : Json} (h : s.isStructure = false) (reference : Json) :
    resolve vs event reference s = (named? vs reference).getD (plain event s) := by
  cases s with
  | obj fields => cases h
  | arr items => cases h
  | _ => rfl

/-! ## Literals in lists and objects -/

/-- **A `$VALUE` is overlooked** when its reference names an unknown variable while the event has a value. -/
structure Overlooked (vs : Variables) (event : Option String) (part s : Json) : Prop where
  mark : s = .str eventMark
  unknown : ∃ name, part = .str name ∧ vs.value? name = none
  event : ∃ e, event = some e ∧ e ≠ eventMark

theorem plain_eq_self {s : Json} (h : ∀ e, event = some e → s = .str eventMark → e = eventMark) :
    plain event s = s := by
  unfold plain
  split
  · next t e =>
    split
    · next ht => rw [h e rfl (congrArg _ ht), ht]
    · rfl
  · rfl

theorem plain_mark (e : String) : plain (some e) (.str eventMark) = .str e := by
  unfold plain
  exact if_pos rfl

/-- A literal whose part names a variable is the value of the variable, or is left as it is. -/
theorem resolvePart_name {s : Json} (h : s.isStructure = false) (name : String) :
    resolvePart vs event (some (.str name)) s = (lookup? vs name).getD s := by
  cases s with
  | obj fields => cases h
  | arr items => cases h
  | _ => simp only [resolvePart]

theorem resolvePart_plain {s : Json} (h : s.isStructure = false) {part : Option Json}
    (hpart : ∀ name, part ≠ some (.str name)) : resolvePart vs event part s = plain event s := by
  cases s with
  | obj fields => cases h
  | arr items => cases h
  | _ =>
    unfold resolvePart
    split
    · next name => exact absurd rfl (hpart name)
    · rfl

theorem plain_of_isStructure {v : Json} (h : v.isStructure) : plain event v = v := by
  cases v with
  | arr items => rfl
  | obj fields => rfl
  | _ => cases h

theorem resolvePart_none_eq (v : Json) : resolvePart vs event none v = plain event v := by
  cases h : v.isStructure with
  | true => rw [resolvePart_none h, plain_of_isStructure h]
  | false => exact resolvePart_plain h fun _ hpart => by cases hpart

theorem resolvePart_of_overlooked {part s : Json} (h : Overlooked vs event part s) :
    resolvePart vs event (some part) s = s ∧ resolve vs event part s ≠ s := by
  obtain ⟨rfl, ⟨name, rfl, hname⟩, e, rfl, he⟩ := h
  have hlookup : lookup? vs name = none := Option.map_eq_none_iff.2 hname
  constructor
  · rw [resolvePart_name rfl, hlookup]
    rfl
  · rw [resolve_literal rfl]
    show (lookup? vs name).getD (plain (some e) (.str eventMark)) ≠ _
    rw [hlookup, plain_mark]
    exact fun h => he (Json.str.inj h)

theorem resolvePart_eq_resolve {part s : Json} (hs : s.isStructure = false) (h : ¬ Overlooked vs event part s) :
    resolvePart vs event (some part) s = resolve vs event part s := by
  rw [resolve_literal hs]
  cases part with
  | str name =>
    rw [resolvePart_name hs]
    show _ = (lookup? vs name).getD (plain event s)
    cases hv : lookup? vs name with
    | some v => rfl
    | none =>
      refine (plain_eq_self fun e hevent hmark => Decidable.byContradiction fun he => ?_).symm
      exact h ⟨hmark, ⟨name, rfl, Option.map_eq_none_iff.1 hv⟩, e, hevent, he⟩
  | _ => exact resolvePart_plain hs nofun

/-- **A literal in a list or an object resolves like one that stands on its own, unless it is an overlooked `$VALUE`**,
which is left as it is. -/
theorem resolves_alike_iff {v reference s part : Json} {place : List Step} (hplace : place ≠ [])
    (hs : s.isStructure = false) (hv : v.at? place = some s) (hr : partAt? place reference = some part) :
    ((resolve vs event reference v).at? place = some (resolve vs event part s) ↔ ¬ Overlooked vs event part s) ∧
      (Overlooked vs event part s → (resolve vs event reference v).at? place = some s) := by
  have hstructure : v.isStructure := Json.isStructure_of_at? hv fun h => absurd h hplace
  rw [resolve_of_isStructure hstructure, at_resolvePart place hv hr]
  refine ⟨⟨fun h ho => ?_, fun h => congrArg some (resolvePart_eq_resolve hs h)⟩,
    fun ho => congrArg some (resolvePart_of_overlooked ho).1⟩
  obtain ⟨hkeeps, hresolves⟩ := resolvePart_of_overlooked ho
  exact hresolves ((Option.some.inj h).symm.trans hkeeps)

/-- A name in a list of rows that is taken from a variable; the list's part of the reference is an object. -/
theorem resolves_alike_rows :
    let vs : Variables := .ofList [("name", { value := "Ada" })]
    let rows : Json := .obj [("rows", .arr [.str "$VALUE", .obj [("name", .str "$VALUE")]])]
    let names : Json := .obj [("rows", .obj [("1", .obj [("name", .str "name")])])]
    let place : List Step := [.field "rows", .item 1, .field "name"]
    rows.at? place = some (.str "$VALUE") ∧ partAt? place names = some (.str "name") ∧
      (resolve vs (some "typed") names rows).at? place =
        some (resolve vs (some "typed") (.str "name") (.str "$VALUE")) := by
  intro vs rows names place
  have hv : rows.at? place = some (.str "$VALUE") := by rfl
  have hr : partAt? place names = some (.str "name") := by rfl
  refine ⟨hv, hr, (resolves_alike_iff (List.cons_ne_nil _ _) rfl hv hr).1.2 fun h => ?_⟩
  obtain ⟨name, hname, hnone⟩ := h.unknown
  obtain rfl := Json.str.inj hname
  cases hnone

/-- The value of an event reaches a literal with an unknown name on its own, but not in an object. -/
theorem not_alike_unknown :
    (resolve ∅ (some "typed") (.obj [("input", .str "nope")]) (.obj [("input", .str "$VALUE")])).at?
        [.field "input"] ≠
      some (resolve ∅ (some "typed") (.str "nope") (.str "$VALUE")) := by
  have hinside : (resolve ∅ (some "typed") (.obj [("input", .str "nope")]) (.obj [("input", .str "$VALUE")])).at?
      [.field "input"] = some (.str "$VALUE") := by rfl
  have halone : resolve ∅ (some "typed") (.str "nope") (.str "$VALUE") = .str "typed" := by rfl
  rw [hinside, halone]
  intro h
  exact absurd (Json.str.inj (Option.some.inj h)) (by decide)

end Reference
end BoundPage
