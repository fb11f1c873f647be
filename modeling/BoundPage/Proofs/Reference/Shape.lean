import BoundPage.Proofs.Reference.Places
/-!
# What resolution reads and keeps

Of the variables, resolution reads only those that the reference names (`resolvePart_congr`).  A list keeps its length,
an object keeps its fields and gets those that only the reference has (`Extended`), and the value of a variable is
taken as it is (`resolve_reads_and_keeps`).
-/
namespace BoundPage

namespace Json

theorem mem_stringsOfFields {t name : String} {v : Json} {fields : List (String × Json)} (hv : (name, v) ∈ fields)
    (ht : t ∈ v.strings) : t ∈ stringsOfFields fields := by
  induction fields with
  | nil => cases hv
  | cons f fields ih =>
    rw [stringsOfFields, List.mem_append]
    cases hv with
    | head => exact .inl ht
    | tail _ hv => exact .inr (ih hv)

theorem mem_stringsOfItems {t : String} {v : Json} {items : List Json} (hv : v ∈ items) (ht : t ∈ v.strings) :
    t ∈ stringsOfItems items := by
  induction items with
  | nil => cases hv
  | cons w items ih =>
    rw [stringsOfItems, List.mem_append]
    cases hv with
    | head => exact .inl ht
    | tail _ hv => exact .inr (ih hv)

theorem mem_of_field? {name : String} {v : Json} {fields : List (String × Json)} (h : field? name fields = some v) :
    (name, v) ∈ fields := by
  obtain ⟨⟨n, w⟩, hfind, rfl⟩ := Option.map_eq_some_iff.1 h
  have hname : n = name := by simpa using List.find?_some hfind
  exact hname ▸ List.mem_of_find?_eq_some hfind

theorem mem_names_insertField {name other : String} {v : Json} {fields : List (String × Json)} :
    name ∈ (insertField other v fields).map Prod.fst ↔ name = other ∨ name ∈ fields.map Prod.fst := by
  rw [← isSome_field?_iff, ← isSome_field?_iff, field?_insertField]
  by_cases h : other = name
  · rw [if_pos h]
    exact iff_of_true rfl (.inl h.symm)
  · rw [if_neg h, or_iff_right (Ne.symm h)]

theorem sorted_insertField {name : String} {v : Json} {fields : List (String × Json)}
    (h : (fields.map Prod.fst).Pairwise (· < ·)) : ((insertField name v fields).map Prod.fst).Pairwise (· < ·) := by
  induction fields with
  | nil => exact List.pairwise_singleton _ _
  | cons f fields ih =>
    obtain ⟨hfirst, hrest⟩ := List.pairwise_cons.1 h
    unfold insertField
    split
    · next hlt =>
      refine List.pairwise_cons.2 ⟨fun other hother => ?_, h⟩
      obtain rfl | hother := List.mem_cons.1 hother
      · exact hlt
      · exact String.lt_trans hlt (hfirst other hother)
    · next hnot =>
      split
      · next he => exact List.pairwise_cons.2 ⟨fun other hother => he ▸ hfirst other hother, hrest⟩
      · next hne =>
        have hlt : f.1 < name :=
          Decidable.byContradiction fun hge => hne (String.le_antisymm (String.not_lt.1 hge) (String.not_lt.1 hnot))
        refine List.pairwise_cons.2 ⟨fun other hother => ?_, ih hrest⟩
        obtain rfl | hother := mem_names_insertField.1 hother
        · exact hlt
        · exact hfirst other hother

end Json

namespace Reference
open Json (Step field? insertField)

variable {vs vs' : Variables} {event : Option String}

/-! ## What is read -/

/-- Two tables of variables agree on every name in a reference. -/
def Agree (vs vs' : Variables) (reference : Json) : Prop :=
  ∀ name ∈ reference.strings, vs.value? name = vs'.value? name

theorem Agree.forField {name : String} {reference part : Json} (h : Agree vs vs' reference)
    (hpart : forField? reference name = some part) : Agree vs vs' part := by
  cases reference with
  | obj fields =>
    intro t ht
    exact h t (by rw [Json.strings]; exact Json.mem_stringsOfFields (Json.mem_of_field? hpart) ht)
  | _ => cases hpart

theorem Agree.forItem {index : Nat} {reference part : Json} (h : Agree vs vs' reference)
    (hpart : forItem? reference index = some part) : Agree vs vs' part := by
  intro t ht
  refine h t ?_
  cases reference with
  | obj fields =>
    rw [Json.strings]
    exact Json.mem_stringsOfFields (Json.mem_of_field? hpart) ht
  | arr items =>
    rw [Json.strings]
    exact Json.mem_stringsOfItems (List.mem_of_getElem? hpart) ht
  | _ => cases hpart

theorem lookup?_congr {name : String} (h : Agree vs vs' (.str name)) : lookup? vs name = lookup? vs' name := by
  unfold lookup?
  rw [h name (by rw [Json.strings]; exact List.mem_singleton_self name)]

theorem named?_congr {reference : Json} (h : Agree vs vs' reference) : named? vs reference = named? vs' reference := by
  cases reference with
  | str name => exact lookup?_congr h
  | _ => rfl

theorem addNamed_congr {reference : Json} (h : Agree vs vs' reference) (literal sofar : List (String × Json)) :
    addNamed vs literal reference sofar = addNamed vs' literal reference sofar := by
  cases reference with
  | obj fields =>
    rw [addNamed_obj, addNamed_obj]
    have hfields : ∀ f ∈ fields, named? vs f.2 = named? vs' f.2 := fun f hf =>
      named?_congr fun t ht => h t (by rw [Json.strings]; exact Json.mem_stringsOfFields hf ht)
    clear h
    induction fields generalizing sofar with
    | nil => rfl
    | cons f fields ih =>
      have hadd : addField vs literal sofar f = addField vs' literal sofar f := by
        unfold addField
        rw [hfields f List.mem_cons_self]
      rw [List.foldl_cons, List.foldl_cons, hadd]
      exact ih _ fun g hg => hfields g (List.mem_cons_of_mem f hg)
  | _ => rfl

theorem resolvePart_literal_congr {reference s : Json} (hs : s.isStructure = false) (h : Agree vs vs' reference) :
    resolvePart vs event (some reference) s = resolvePart vs' event (some reference) s := by
  by_cases hname : ∃ name, reference = .str name
  · obtain ⟨name, rfl⟩ := hname
    rw [resolvePart_name hs, resolvePart_name hs, lookup?_congr h]
  · have hpart : ∀ name, some reference ≠ some (.str name) := fun name he => hname ⟨name, Option.some.inj he⟩
    rw [resolvePart_plain hs hpart, resolvePart_plain hs hpart]

mutual

/-- **Only the variables that the reference names are read.** -/
theorem resolvePart_congr : ∀ {part : Option Json} (v : Json), (∀ r, part = some r → Agree vs vs' r) →
    resolvePart vs event part v = resolvePart vs' event part v
  | none, v, _ => by rw [resolvePart_none_eq, resolvePart_none_eq]
  | some r, .obj fields, h => by
    rw [resolvePart, resolvePart, resolveFields_congr fields (h r rfl), addNamed_congr (h r rfl)]
  | some r, .arr items, h => by
    rw [resolvePart, resolvePart, resolveItems_congr items 0 (h r rfl)]
  | some r, .null, h | some r, .bool _, h | some r, .num _, h | some r, .str _, h =>
    resolvePart_literal_congr rfl (h r rfl)

theorem resolveFields_congr {reference : Json} : ∀ fields : List (String × Json), Agree vs vs' reference →
    resolveFields vs event reference fields = resolveFields vs' event reference fields
  | [], _ => by rw [resolveFields, resolveFields]
  | (name, v) :: fields, h => by
    rw [resolveFields, resolveFields, resolveFields_congr fields h, resolvePart_congr v fun r hr => h.forField hr]

theorem resolveItems_congr {reference : Json} : ∀ (items : List Json) (index : Nat), Agree vs vs' reference →
    resolveItems vs event reference index items = resolveItems vs' event reference index items
  | [], _, _ => by rw [resolveItems, resolveItems]
  | v :: items, index, h => by
    rw [resolveItems, resolveItems, resolveItems_congr items (index + 1) h,
      resolvePart_congr v fun r hr => h.forItem hr]

end

theorem resolve_congr {reference : Json} (h : Agree vs vs' reference) (v : Json) :
    resolve vs event reference v = resolve vs' event reference v := by
  cases hv : v.isStructure with
  | true =>
    rw [resolve_of_isStructure hv, resolve_of_isStructure hv]
    exact resolvePart_congr v fun r hr => Option.some.inj hr ▸ h
  | false => rw [resolve_literal hv, resolve_literal hv, named?_congr h]

/-! ## What is kept -/

theorem named?_eq_some_iff {reference v : Json} :
    named? vs reference = some v ↔ ∃ x t, reference = .str x ∧ vs.value? x = some t ∧ v = .str t := by
  cases reference with
  | str x =>
    unfold named? lookup?
    rw [Option.map_eq_some_iff]
    constructor
    · rintro ⟨t, ht, rfl⟩
      exact ⟨x, t, rfl, ht, rfl⟩
    · rintro ⟨y, t, hy, ht, rfl⟩
      exact ⟨t, Json.str.inj hy ▸ ht, rfl⟩
  | _ =>
    refine iff_of_false nofun ?_
    rintro ⟨x, t, hx, -⟩
    cases hx

/-- A part of a reference has a field of this name, which names this variable. -/
def NamesAt (part : Option Json) (name x : String) : Prop :=
  ∃ fields, part = some (.obj fields) ∧ (name, .str x) ∈ fields

/-- **The fields of a resolved object**: those of the literal, and beside them exactly those of the reference that name a
known variable, with its value. -/
structure Extended (vs : Variables) (part : Option Json) (literal fields : List (String × Json)) : Prop where
  names : ∀ name, name ∈ fields.map Prod.fst ↔
    name ∈ literal.map Prod.fst ∨ ∃ x, NamesAt part name x ∧ (vs.value? x).isSome
  added : ∀ name v, name ∉ literal.map Prod.fst → field? name fields = some v →
    ∃ x t, NamesAt part name x ∧ vs.value? x = some t ∧ v = .str t
  sorted : (literal.map Prod.fst).Pairwise (· < ·) → (fields.map Prod.fst).Pairwise (· < ·)

theorem names_resolveFields (vs : Variables) (event : Option String) (reference : Json)
    (fields : List (String × Json)) : (resolveFields vs event reference fields).map Prod.fst = fields.map Prod.fst := by
  induction fields with
  | nil => rw [resolveFields]
  | cons f fields ih => rw [resolveFields, List.map_cons, List.map_cons, ih]

theorem length_resolveItems (reference : Json) (items : List Json) (index : Nat) :
    (resolveItems vs event reference index items).length = items.length := by
  induction items generalizing index with
  | nil => rw [resolveItems]
  | cons v items ih => rw [resolveItems, List.length_cons, List.length_cons, ih]

section Added

variable {literal : List (String × Json)} {name : String}

theorem sorted_addField {sofar : List (String × Json)} (h : (sofar.map Prod.fst).Pairwise (· < ·))
    (f : String × Json) : ((addField vs literal sofar f).map Prod.fst).Pairwise (· < ·) := by
  unfold addField
  split
  · exact h
  · split
    · exact Json.sorted_insertField h
    · exact h

theorem sorted_foldl_addField (refs : List (String × Json)) {sofar : List (String × Json)}
    (h : (sofar.map Prod.fst).Pairwise (· < ·)) :
    ((refs.foldl (addField vs literal) sofar).map Prod.fst).Pairwise (· < ·) := by
  induction refs generalizing sofar with
  | nil => exact h
  | cons f refs ih => exact ih (sorted_addField h f)

/-- What a field of the reference gives to a name. -/
def given? (vs : Variables) (name : String) (f : String × Json) : Option Json :=
  if f.1 = name then named? vs f.2 else none

theorem given?_eq_some_iff {f : String × Json} {v : Json} :
    given? vs name f = some v ↔ ∃ x t, f = (name, .str x) ∧ vs.value? x = some t ∧ v = .str t := by
  unfold given?
  constructor
  · intro h
    split at h
    · next hname =>
      obtain ⟨x, t, hx, ht, rfl⟩ := named?_eq_some_iff.1 h
      exact ⟨x, t, Prod.ext hname hx, ht, rfl⟩
    · cases h
  · rintro ⟨x, t, rfl, ht, rfl⟩
    rw [if_pos rfl]
    exact named?_eq_some_iff.2 ⟨x, t, rfl, ht, rfl⟩

theorem field?_addField_of_not_mem (hname : name ∉ literal.map Prod.fst) (sofar : List (String × Json))
    (f : String × Json) : field? name (addField vs literal sofar f) = (given? vs name f).or (field? name sofar) := by
  rw [field?_addField]
  unfold given?
  by_cases hf : f.1 = name
  · rw [if_pos hf]
    cases hv : named? vs f.2 with
    | none => rw [if_neg fun h => absurd h.2.2 Bool.false_ne_true, Option.none_or]
    | some v => rw [if_pos ⟨hf, hname, rfl⟩, Option.some_or]
  · rw [if_neg hf, if_neg fun h => hf h.1, Option.none_or]

/-- A field that the literal does not have is the last that the reference gives. -/
theorem field?_foldl_addField (hname : name ∉ literal.map Prod.fst) (refs sofar : List (String × Json)) :
    field? name (refs.foldl (addField vs literal) sofar) =
      (refs.filterMap (given? vs name)).getLast?.or (field? name sofar) := by
  induction refs generalizing sofar with
  | nil => rfl
  | cons f refs ih =>
    rw [List.foldl_cons, ih, field?_addField_of_not_mem hname]
    cases hv : given? vs name f with
    | none => rw [List.filterMap_cons_none hv, Option.none_or]
    | some v =>
      rw [List.filterMap_cons_some hv, List.getLast?_cons, ← Option.or_some, Option.or_assoc, Option.some_or]

end Added

theorem Extended.of_names {part : Option Json} {literal fields : List (String × Json)}
    (hnames : fields.map Prod.fst = literal.map Prod.fst) (hpart : ∀ refs, part ≠ some (.obj refs)) :
    Extended vs part literal fields where
  names name := by
    rw [hnames, or_iff_left]
    rintro ⟨x, ⟨refs, hrefs, -⟩, -⟩
    exact hpart refs hrefs
  added name v hname hv := absurd (hnames ▸ Json.isSome_field?_iff.1 (Option.isSome_of_eq_some hv)) hname
  sorted h := hnames.symm ▸ h

theorem extended_addNamed (reference : Json) (literal : List (String × Json)) :
    Extended vs (some reference) literal
      (addNamed vs literal reference (resolveFields vs event reference literal)) := by
  have hnames := names_resolveFields vs event reference literal
  cases reference with
  | obj refs =>
    have hadded {name : String} (hname : name ∉ literal.map Prod.fst) :
        field? name (addNamed vs literal (.obj refs) (resolveFields vs event (.obj refs) literal)) =
          (refs.filterMap (given? vs name)).getLast? := by
      rw [addNamed_obj, field?_foldl_addField hname, Json.field?_eq_none_iff.2 (hnames.symm ▸ hname), Option.or_none]
    have hgiven {name : String} {v : Json} (hname : name ∉ literal.map Prod.fst)
        (hv : field? name (addNamed vs literal (.obj refs) (resolveFields vs event (.obj refs) literal)) = some v) :
        ∃ x t, NamesAt (some (.obj refs)) name x ∧ vs.value? x = some t ∧ v = .str t := by
      rw [hadded hname] at hv
      obtain ⟨f, hf, hgiven⟩ := List.mem_filterMap.1 (List.mem_of_getLast? hv)
      obtain ⟨x, t, rfl, ht, rfl⟩ := given?_eq_some_iff.1 hgiven
      exact ⟨x, t, ⟨refs, rfl, hf⟩, ht, rfl⟩
    refine ⟨fun name => ?_, fun name v => hgiven, fun h => sorted_foldl_addField refs (hnames.symm ▸ h)⟩
    rw [← Json.isSome_field?_iff]
    by_cases hname : name ∈ literal.map Prod.fst
    · rw [field?_addNamed hname, Json.isSome_field?_iff, hnames]
      exact iff_of_true hname (.inl hname)
    rw [or_iff_right hname]
    constructor
    · intro h
      obtain ⟨v, hv⟩ := Option.isSome_iff_exists.1 h
      obtain ⟨x, t, hx, ht, -⟩ := hgiven hname hv
      exact ⟨x, hx, Option.isSome_of_eq_some ht⟩
    · rintro ⟨x, ⟨refs', hrefs, hx⟩, hknown⟩
      obtain rfl := Json.obj.inj (Option.some.inj hrefs)
      obtain ⟨t, ht⟩ := Option.isSome_iff_exists.1 hknown
      rw [hadded hname, List.getLast?_isSome]
      exact List.ne_nil_of_mem (List.mem_filterMap.2 ⟨_, hx, given?_eq_some_iff.2 ⟨x, t, rfl, ht, rfl⟩⟩)
  | _ => exact .of_names hnames fun refs h => by cases h

theorem extended_resolvePart (vs : Variables) (event : Option String) (part : Option Json)
    (literal : List (String × Json)) :
    ∃ fields, resolvePart vs event part (.obj literal) = .obj fields ∧ Extended vs part literal fields := by
  cases part with
  | none => exact ⟨literal, resolvePart_none rfl, .of_names rfl nofun⟩
  | some reference =>
    rw [resolvePart]
    exact ⟨_, rfl, extended_addNamed reference literal⟩

theorem length_resolvePart (vs : Variables) (event : Option String) (part : Option Json) (items : List Json) :
    ∃ resolved, resolvePart vs event part (.arr items) = .arr resolved ∧ resolved.length = items.length := by
  cases part with
  | none => exact ⟨items, resolvePart_none rfl, rfl⟩
  | some reference =>
    rw [resolvePart]
    exact ⟨_, rfl, length_resolveItems reference items 0⟩

/-- What stands at the place of a list or an object. -/
theorem at_resolve {v s : Json} {place : List Step} (hv : v.at? place = some s) (hs : s.isStructure) (reference : Json) :
    (resolve vs event reference v).at? place = some (resolvePart vs event (partAt? place reference) s) := by
  rw [resolve_of_isStructure (Json.isStructure_of_at? hv fun _ => hs), at_resolvePart_of_isStructure hs place _ hv,
    Option.bind_some]

/-- **The value of a variable is taken as it is**, also if it is `$VALUE`. -/
theorem at_resolve_of_known {v s reference : Json} {place : List Step} {x t : String} (hv : v.at? place = some s)
    (hs : s.isStructure = false) (hr : partAt? place reference = some (.str x)) (ht : vs.value? x = some t) :
    (resolve vs event reference v).at? place = some (.str t) := by
  have hlookup : lookup? vs x = some (.str t) := Option.map_eq_some_iff.2 ⟨t, ht, rfl⟩
  cases place with
  | nil =>
    obtain rfl := Option.some.inj hv
    obtain rfl := Option.some.inj hr
    rw [resolve_literal hs]
    show some ((lookup? vs x).getD _) = _
    rw [hlookup, Option.getD_some]
  | cons step place =>
    rw [resolve_of_isStructure (Json.isStructure_of_at? hv nofun), at_resolvePart _ hv hr, resolvePart_name hs, hlookup,
      Option.getD_some]

/-- **Resolution reads the variables that the reference names, and no others; it keeps the length of every list and the
fields of every object, to which it adds those that only the reference has; and it takes the value of a variable as it
is.** -/
theorem resolve_reads_and_keeps (vs : Variables) (event : Option String) (reference v : Json) :
    (∀ vs', Agree vs vs' reference → resolve vs event reference v = resolve vs' event reference v) ∧
      (∀ place items, v.at? place = some (.arr items) →
        ∃ resolved, (resolve vs event reference v).at? place = some (.arr resolved) ∧
          resolved.length = items.length) ∧
      (∀ place literal, v.at? place = some (.obj literal) →
        ∃ fields, (resolve vs event reference v).at? place = some (.obj fields) ∧
          Extended vs (partAt? place reference) literal fields) ∧
      ∀ place s x t, v.at? place = some s → s.isStructure = false → partAt? place reference = some (.str x) →
        vs.value? x = some t → (resolve vs event reference v).at? place = some (.str t) := by
  refine ⟨fun vs' h => resolve_congr h v, fun place items hv => ?_, fun place literal hv => ?_,
    fun place s x t hv hs hr ht => at_resolve_of_known hv hs hr ht⟩
  · obtain ⟨resolved, hresolved, hlength⟩ := length_resolvePart vs event (partAt? place reference) items
    exact ⟨resolved, (at_resolve hv rfl reference).trans (congrArg some hresolved), hlength⟩
  · obtain ⟨fields, hfields, hextended⟩ := extended_resolvePart vs event (partAt? place reference) literal
    exact ⟨fields, (at_resolve hv rfl reference).trans (congrArg some hfields), hextended⟩

example : resolve (.ofList [("name", { value := "$VALUE" })]) (some "typed") (.obj [("greeting", .str "name")])
    (.obj [("input", .str "$VALUE")]) = .obj [("greeting", .str "$VALUE"), ("input", .str "typed")] := by rfl

end Reference
end BoundPage
