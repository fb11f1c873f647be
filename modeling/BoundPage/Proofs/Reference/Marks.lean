import BoundPage.Proofs.Reference.Places
/-!
# How deep the value of an event reaches

A value that is resolved without a reference has the value of the event in the place of its `$VALUE`s, but only of
those that are not deeper than one step inside: what is in a list or an object without a part of the reference is left
as it is (`event_reaches_iff`).
-/
namespace BoundPage

namespace Json

/-- A list or an object with every part changed. -/
def mapParts (f : Json → Json) : Json → Json
  | .arr items => .arr (items.map f)
  | .obj fields => .obj (fields.map fun part => (part.1, f part.2))
  | v => v

theorem mapParts_eq_iff {f g : Json → Json} {v : Json} :
    v.mapParts f = v.mapParts g ↔ ∀ part ∈ v.parts, f part = g part := by
  cases v with
  | arr items =>
    unfold mapParts parts
    rw [arr.injEq, List.map_inj_left]
  | obj fields =>
    unfold mapParts parts
    rw [obj.injEq, List.map_inj_left]
    simp only [Prod.mk.injEq, true_and, List.mem_map, forall_exists_index, and_imp, forall_apply_eq_imp_iff₂]
  | _ => exact iff_of_true rfl nofun

end Json

namespace Reference

variable {vs : Variables} {event : Option String} {e : String}

mutual

/-- A value with the value of the event in the place of every `$VALUE`, at any depth. -/
def filled (e : String) : Json → Json
  | .arr items => .arr (filledItems e items)
  | .obj fields => .obj (filledFields e fields)
  | literal => plain (some e) literal

def filledItems (e : String) : List Json → List Json
  | [] => []
  | v :: items => filled e v :: filledItems e items

def filledFields (e : String) : List (String × Json) → List (String × Json)
  | [] => []
  | (name, v) :: fields => (name, filled e v) :: filledFields e fields

end

theorem filledItems_eq (e : String) (items : List Json) : filledItems e items = items.map (filled e) := by
  induction items with
  | nil => rfl
  | cons v items ih => rw [filledItems, ih, List.map_cons]

theorem filledFields_eq (e : String) (fields : List (String × Json)) :
    filledFields e fields = fields.map fun f => (f.1, filled e f.2) := by
  induction fields with
  | nil => rfl
  | cons f fields ih => rw [filledFields, ih, List.map_cons]

theorem filled_of_isStructure {v : Json} (h : v.isStructure) : filled e v = v.mapParts (filled e) := by
  cases v with
  | arr items => rw [filled, filledItems_eq, Json.mapParts]
  | obj fields => rw [filled, filledFields_eq, Json.mapParts]
  | _ => cases h

theorem filled_literal {s : Json} (h : s.isStructure = false) : filled e s = plain (some e) s := by
  cases s with
  | arr items => cases h
  | obj fields => cases h
  | _ => rfl

mutual

/-- **Filling changes a value exactly if there is a `$VALUE` in it**, and the event has another value. -/
theorem filled_eq_self_iff : ∀ v : Json, filled e v = v ↔ e = eventMark ∨ eventMark ∉ v.strings
  | .str s => by
    show plain (some e) (.str s) = .str s ↔ _ ∨ eventMark ∉ [s]
    unfold plain
    rw [List.mem_singleton]
    by_cases h : s = eventMark
    · simp [h]
    · simp [h, Ne.symm h]
  | .arr items => by
    rw [filled, Json.arr.injEq, filledItems_eq_self_iff items, Json.strings]
  | .obj fields => by
    rw [filled, Json.obj.injEq, filledFields_eq_self_iff fields, Json.strings]
  | .null | .bool _ | .num _ => iff_of_true rfl (.inr List.not_mem_nil)

theorem filledItems_eq_self_iff : ∀ items : List Json,
    filledItems e items = items ↔ e = eventMark ∨ eventMark ∉ Json.stringsOfItems items
  | [] => iff_of_true rfl (.inr List.not_mem_nil)
  | v :: items => by
    rw [filledItems, List.cons.injEq, filled_eq_self_iff v, filledItems_eq_self_iff items, Json.stringsOfItems,
      List.mem_append, not_or, or_and_left]

theorem filledFields_eq_self_iff : ∀ fields : List (String × Json),
    filledFields e fields = fields ↔ e = eventMark ∨ eventMark ∉ Json.stringsOfFields fields
  | [] => iff_of_true rfl (.inr List.not_mem_nil)
  | (name, v) :: fields => by
    rw [filledFields, List.cons.injEq, Prod.mk.injEq, filled_eq_self_iff v, filledFields_eq_self_iff fields,
      Json.stringsOfFields, List.mem_append, not_or, or_and_left, eq_self_iff_true, true_and]

end

/-! ## Without a reference -/

theorem resolveFields_null : ∀ fields : List (String × Json),
    resolveFields vs event .null fields = fields.map fun f => (f.1, plain event f.2)
  | [] => by rw [resolveFields, List.map_nil]
  | (name, v) :: fields => by
    rw [resolveFields, resolveFields_null fields, List.map_cons]
    exact congrArg (fun x => (name, x) :: _) (resolvePart_none_eq v)

theorem resolveItems_null : ∀ (items : List Json) (index : Nat),
    resolveItems vs event .null index items = items.map (plain event)
  | [], _ => by rw [resolveItems, List.map_nil]
  | v :: items, index => by
    rw [resolveItems, resolveItems_null items, List.map_cons]
    exact congrArg (· :: _) (resolvePart_none_eq v)

/-- Without a reference, what is directly in a list or an object stands for itself or the event. -/
theorem resolve_null_of_isStructure {v : Json} (h : v.isStructure) :
    resolve vs event .null v = v.mapParts (plain event) := by
  rw [resolve_of_isStructure h]
  cases v with
  | arr items => rw [resolvePart, resolveItems_null, Json.mapParts]
  | obj fields => rw [resolvePart, resolveFields_null, Json.mapParts]; rfl
  | _ => cases h

theorem resolve_null_literal {s : Json} (h : s.isStructure = false) : resolve vs event .null s = plain event s :=
  resolve_literal h .null

/-- A literal is filled whenever it has an event to stand for. -/
theorem plain_eq_filled_iff {v : Json} :
    plain (some e) v = filled e v ↔ e = eventMark ∨ (v.isStructure → eventMark ∉ v.strings) := by
  cases h : v.isStructure with
  | false =>
    rw [filled_literal h]
    exact iff_of_true rfl (.inr nofun)
  | true =>
    rw [plain_of_isStructure h, eq_comm, filled_eq_self_iff]
    exact or_congr_right (true_imp_iff.symm.trans (by rw [eq_self_iff_true]))

theorem mapParts_eq_self {f : Json → Json} {v : Json} (h : ∀ part ∈ v.parts, f part = part) : v.mapParts f = v := by
  have hid : v.mapParts id = v := by
    cases v with
    | arr items => exact congrArg Json.arr (List.map_id items)
    | obj fields => exact congrArg Json.obj (List.map_id fields)
    | _ => rfl
  exact (Json.mapParts_eq_iff.2 h).trans hid

/-- **The value of the event reaches the `$VALUE`s that are at most one step inside.**  All of them are reached exactly
if no list and no object inside holds one.  Without an event the value is left as it is. -/
theorem event_reaches_iff (vs : Variables) (v : Json) :
    resolve vs none .null v = v ∧
      ∀ e, (resolve vs (some e) .null v = filled e v ↔
          e = eventMark ∨ ∀ part ∈ v.parts, part.isStructure → eventMark ∉ part.strings) ∧
        resolve vs (some e) .null v = if v.isStructure then v.mapParts (plain (some e)) else plain (some e) v := by
  have hplain (x : Json) : plain none x = x := plain_eq_self nofun
  cases h : v.isStructure with
  | false =>
    refine ⟨(resolve_null_literal h).trans (hplain v), fun e => ⟨?_, resolve_null_literal h⟩⟩
    rw [resolve_null_literal h, filled_literal h]
    refine iff_of_true rfl (.inr fun part hpart => ?_)
    cases v with
    | arr items => cases h
    | obj fields => cases h
    | _ => cases hpart
  | true =>
    refine ⟨(resolve_null_of_isStructure h).trans (mapParts_eq_self fun part _ => hplain part),
      fun e => ⟨?_, resolve_null_of_isStructure h⟩⟩
    rw [resolve_null_of_isStructure h, filled_of_isStructure h, Json.mapParts_eq_iff]
    by_cases he : e = eventMark
    · exact iff_of_true (fun part _ => plain_eq_filled_iff.2 (.inl he)) (.inl he)
    · simp only [plain_eq_filled_iff, he, false_or]

/-- A `$VALUE` in an object that is itself in an object is left as it is. -/
theorem not_filled_nested :
    let form : Json := .obj [("a", .obj [("b", .str "$VALUE")])]
    resolve ∅ (some "typed") .null form ≠ filled "typed" form := by
  intro form h
  have hresolved : (resolve ∅ (some "typed") .null form).at? [.field "a", .field "b"] = some (.str "$VALUE") := by rfl
  have hfilled : (filled "typed" form).at? [.field "a", .field "b"] = some (.str "typed") := by rfl
  rw [h, hfilled] at hresolved
  exact absurd (Json.str.inj (Option.some.inj hresolved)) (by decide)

end Reference
end BoundPage
