import BoundPage.Proofs.Json
import BoundPage.Proofs.Reference.Shape
/-!
# Values that were read

What a text can say is regular (`regular_of_read?`): it has no more levels than the reader has room for, no integer
beyond 64 bits, and the fields of every object in the order of their names.  So a value that was read can be written
and read again as often as one likes, as long as it holds no float (`Regular.read?_compact`).
-/
namespace BoundPage.Json

/-- An integer is one of 64 bits, signed or unsigned. -/
def Number.Regular : Number → Prop
  | .int n => -9223372036854775808 ≤ n ∧ n ≤ 18446744073709551615
  | .float _ => True

mutual

/-- **What a text can say**, in at most `room` levels of lists and objects. -/
def Regular (room : Nat) : Json → Prop
  | .null => True
  | .bool _ => True
  | .num x => x.Regular
  | .str _ => True
  | .arr vs => 0 < room ∧ RegularItems (room - 1) vs
  | .obj fs => 0 < room ∧ (fs.map Prod.fst).Pairwise (· < ·) ∧ RegularFields (room - 1) fs

def RegularItems (room : Nat) : List Json → Prop
  | [] => True
  | v :: vs => Regular room v ∧ RegularItems room vs

def RegularFields (room : Nat) : List (String × Json) → Prop
  | [] => True
  | (_, v) :: fs => Regular room v ∧ RegularFields room fs

end

mutual

/-- No number of the value is a float. -/
def integral : Json → Bool
  | .num (.float _) => false
  | .arr vs => integralItems vs
  | .obj fs => integralFields fs
  | _ => true

def integralItems : List Json → Bool
  | [] => true
  | v :: vs => integral v && integralItems vs

def integralFields : List (String × Json) → Bool
  | [] => true
  | (_, v) :: fs => integral v && integralFields fs

end

theorem regularItems_append {room : Nat} : ∀ {vs ws : List Json},
    RegularItems room (vs ++ ws) ↔ RegularItems room vs ∧ RegularItems room ws
  | [], ws => (and_iff_right trivial).symm
  | v :: vs, ws => by
    rw [List.cons_append, RegularItems, RegularItems, regularItems_append, and_assoc]

theorem integralItems_append : ∀ vs ws : List Json,
    integralItems (vs ++ ws) = (integralItems vs && integralItems ws)
  | [], ws => (Bool.true_and _).symm
  | v :: vs, ws => by
    rw [List.cons_append, integralItems, integralItems, integralItems_append vs ws, Bool.and_assoc]

mutual

/-- Without floats, what a text can say is exact. -/
theorem Regular.exact : ∀ {v : Json} {room : Nat}, v.Regular room → v.integral → v.Exact room
  | .null, _, _, _ => trivial
  | .bool _, _, _, _ => trivial
  | .num (.int _), _, h, _ => h
  | .str _, _, _, _ => trivial
  | .arr _, _, ⟨hroom, hvs⟩, hint => ⟨hroom, RegularItems.exact hvs hint⟩
  | .obj _, _, ⟨hroom, _, hfs⟩, hint => ⟨hroom, RegularFields.exact hfs hint⟩

theorem RegularItems.exact : ∀ {vs : List Json} {room : Nat}, RegularItems room vs → integralItems vs →
    ExactItems room vs
  | [], _, _, _ => trivial
  | _ :: _, _, ⟨hv, hvs⟩, hint =>
    have hint := Bool.and_eq_true_iff.1 hint
    ⟨Regular.exact hv hint.1, RegularItems.exact hvs hint.2⟩

theorem RegularFields.exact : ∀ {fs : List (String × Json)} {room : Nat}, RegularFields room fs → integralFields fs →
    ExactFields room fs
  | [], _, _, _ => trivial
  | (_, _) :: _, _, ⟨hv, hfs⟩, hint =>
    have hint := Bool.and_eq_true_iff.1 hint
    ⟨Regular.exact hv hint.1, RegularFields.exact hfs hint.2⟩

end

/-! ## What is read is regular -/

theorem regularFields_insertField {room : Nat} {name : String} {v : Json} (hv : v.Regular room) :
    ∀ {fs : List (String × Json)}, RegularFields room fs → RegularFields room (insertField name v fs)
  | [], _ => ⟨hv, trivial⟩
  | (_, _) :: _, ⟨hw, hfs⟩ => by
    unfold insertField
    split
    · exact ⟨hv, hw, hfs⟩
    · split
      · exact ⟨hv, hfs⟩
      · exact ⟨hw, regularFields_insertField hv hfs⟩

namespace Document

/-- The document stands for something that has at most `room` levels, if for anything. -/
def Within (room : Nat) (d : Document) : Prop := ∀ v, d.value? = some v → v.Regular room

theorem regularItems_of_valuesOf? {room : Nat} : ∀ {ds : List Document} {vs : List Json},
    (∀ d ∈ ds, d.Within room) → valuesOf? ds = some vs → RegularItems room vs
  | [], vs, _, h => by
    rw [← Option.some.inj h]
    exact trivial
  | d :: ds, vs, hds, h => by
    obtain ⟨v, hv, h⟩ := Option.bind_eq_some_iff.1 h
    obtain ⟨ws, hws, h⟩ := Option.bind_eq_some_iff.1 h
    rw [← Option.some.inj h]
    exact ⟨hds d List.mem_cons_self v hv,
      regularItems_of_valuesOf? (fun d' hd' => hds d' (List.mem_cons_of_mem d hd')) hws⟩

/-- Setting fields one after the other keeps them in order. -/
theorem regularFields_of_fieldsFrom? {room : Nat} : ∀ {ds : List (Option String × Document)}
    {sofar fs : List (String × Json)}, (∀ f ∈ ds, f.2.Within room) → (sofar.map Prod.fst).Pairwise (· < ·) →
      RegularFields room sofar → fieldsFrom? sofar ds = some fs →
        (fs.map Prod.fst).Pairwise (· < ·) ∧ RegularFields room fs
  | [], sofar, fs, _, hsorted, hsofar, h => by
    rw [← Option.some.inj h]
    exact ⟨hsorted, hsofar⟩
  | (none, d) :: ds, sofar, fs, _, _, _, h => by cases h
  | (some name, d) :: ds, sofar, fs, hds, hsorted, hsofar, h => by
    obtain ⟨v, hv, h⟩ := Option.bind_eq_some_iff.1 h
    exact regularFields_of_fieldsFrom? (fun f hf => hds f (List.mem_cons_of_mem _ hf)) (sorted_insertField hsorted)
      (regularFields_insertField (hds _ List.mem_cons_self v hv) hsofar) h

end Document

namespace Number

theorem absorb_le : ∀ {cs : List Char} {n : Nat}, n ≤ greatest → (absorb n cs).1 ≤ greatest
  | [], _, h => h
  | c :: cs, n, h => by
    unfold absorb
    dsimp only
    split
    · next hnext => exact absorb_le hnext
    · exact h

/-- **A literal stands for an integer of 64 bits, or for a float.** -/
theorem regular_of_ofLiteral? {l : Literal} {x : Number} (h : ofLiteral? l = some x) : x.Regular := by
  have hgreatest : (absorb 0 l.whole).1 ≤ 18446744073709551615 := absorb_le (Nat.zero_le greatest)
  have hhalf : Nat.pow 2 63 = 9223372036854775808 := rfl
  unfold ofLiteral? at h
  dsimp only at h
  split at h
  · rw [← Option.some.inj h]
    unfold Regular
    omega
  · split at h
    · next hneg =>
      simp only [Bool.and_eq_true, decide_eq_true_eq, hhalf] at hneg
      rw [← Option.some.inj h]
      unfold Regular
      omega
    · obtain ⟨y, -, rfl⟩ := Option.map_eq_some_iff.1 h
      exact trivial

end Number

namespace Reader
open Document (Within)

/-- A list or an object is within the room if what it holds is within one level less. -/
theorem within_enclosed {room : Nat} {d : Document} (h : 0 < room → d.Within room) : (enclosed room d).Within room := by
  unfold enclosed
  split
  · exact fun v hv => by cases hv
  · exact h (by omega)

theorem within_arr {room : Nat} {ds : List Document} (h : ∀ d ∈ ds, d.Within (room - 1)) :
    (enclosed room (.arr ds)).Within room := by
  refine within_enclosed fun hroom v hv => ?_
  obtain ⟨vs, hvs, rfl⟩ := Option.map_eq_some_iff.1 hv
  exact ⟨hroom, Document.regularItems_of_valuesOf? h hvs⟩

theorem within_obj {room : Nat} {ds : List (Option String × Document)} (h : ∀ f ∈ ds, f.2.Within (room - 1)) :
    (enclosed room (.obj ds)).Within room := by
  refine within_enclosed fun hroom v hv => ?_
  obtain ⟨fs, hfs, rfl⟩ := Option.map_eq_some_iff.1 hv
  exact ⟨hroom, Document.regularFields_of_fieldsFrom? h List.Pairwise.nil (by exact trivial) hfs⟩

/-- What a number is read as is what its literal stands for. -/
theorem exists_ofLiteral? {s rest : List Char} {x? : Option Number} (h : number? s = some (x?, rest)) :
    ∃ l, Number.ofLiteral? l = x? := by
  unfold number? at h
  dsimp only at h
  obtain ⟨whole, -, h⟩ := Option.bind_eq_some_iff.1 h
  split at h
  · cases h
  · obtain ⟨fraction, -, h⟩ := Option.bind_eq_some_iff.1 h
    obtain ⟨exponent, -, h⟩ := Option.bind_eq_some_iff.1 h
    exact ⟨_, congrArg Prod.fst (Option.some.inj h)⟩

theorem within_number {room : Nat} {s rest : List Char} {x? : Option Number} (h : number? s = some (x?, rest)) :
    (x?.elim Document.void .num).Within room := by
  obtain ⟨l, rfl⟩ := exists_ofLiteral? h
  intro v hv
  cases hl : Number.ofLiteral? l with
  | none =>
    rw [hl] at hv
    cases hv
  | some x =>
    rw [hl] at hv
    rw [← Option.some.inj hv]
    exact Number.regular_of_ofLiteral? hl

mutual

/-- **A value that is read is within the room it is given.** -/
theorem within_value? : ∀ {fuel room : Nat} {s rest : List Char} {d : Document},
    value? fuel room s = some (d, rest) → d.Within room
  | 0, _, _, _, _, h => by cases h
  | fuel + 1, room, s, rest, d, h => by
    rw [value?] at h
    split at h
    · cases h
      exact fun v hv => by cases hv; exact trivial
    · cases h
      exact fun v hv => by cases hv; exact trivial
    · cases h
      exact fun v hv => by cases hv; exact trivial
    · obtain ⟨⟨t, r⟩, -, h⟩ := Option.map_eq_some_iff.1 h
      cases h
      cases t with
      | none => exact fun v hv => by cases hv
      | some t => exact fun v hv => by cases hv; exact trivial
    · split at h
      · cases h
        exact within_arr fun _ hd => by cases hd
      · obtain ⟨⟨ds, r⟩, hitems, h⟩ := Option.map_eq_some_iff.1 h
        cases h
        exact within_arr (within_items? hitems)
    · split at h
      · cases h
        exact within_obj fun _ hf => by cases hf
      · obtain ⟨⟨fs, r⟩, hfields, h⟩ := Option.map_eq_some_iff.1 h
        cases h
        exact within_obj (within_fields? hfields)
    · obtain ⟨⟨x?, r⟩, hnumber, h⟩ := Option.map_eq_some_iff.1 h
      cases h
      exact within_number hnumber

theorem within_items? : ∀ {fuel room : Nat} {s rest : List Char} {ds : List Document},
    items? fuel room s = some (ds, rest) → ∀ d ∈ ds, d.Within room
  | 0, _, _, _, _, h => by cases h
  | fuel + 1, room, s, rest, ds, h => by
    rw [items?] at h
    obtain ⟨⟨d, r⟩, hvalue, h⟩ := Option.bind_eq_some_iff.1 h
    dsimp only at h
    split at h
    · cases h
      exact List.forall_mem_singleton.2 (within_value? hvalue)
    · obtain ⟨⟨ds', r'⟩, hitems, h⟩ := Option.bind_eq_some_iff.1 h
      cases h
      exact List.forall_mem_cons.2 ⟨within_value? hvalue, within_items? hitems⟩
    · cases h

theorem within_fields? : ∀ {fuel room : Nat} {s rest : List Char} {fs : List (Option String × Document)},
    fields? fuel room s = some (fs, rest) → ∀ f ∈ fs, f.2.Within room
  | 0, _, _, _, _, h => by cases h
  | fuel + 1, room, s, rest, fs, h => by
    rw [fields?] at h
    split at h
    · obtain ⟨⟨name, r⟩, -, h⟩ := Option.bind_eq_some_iff.1 h
      dsimp only at h
      split at h
      · obtain ⟨⟨d, r'⟩, hvalue, h⟩ := Option.bind_eq_some_iff.1 h
        dsimp only at h
        split at h
        · cases h
          exact List.forall_mem_singleton.2 (within_value? hvalue)
        · obtain ⟨⟨fs', r''⟩, hfields, h⟩ := Option.bind_eq_some_iff.1 h
          cases h
          exact List.forall_mem_cons.2 ⟨within_value? hvalue, within_fields? hfields⟩
        · cases h
      · cases h
    · cases h

end

end Reader

/-- **What is read is regular.** -/
theorem regular_of_read? {text : String} {v : Json} (h : read? text = some v) : v.Regular Reader.levels := by
  obtain ⟨d, hd, hv⟩ := Option.bind_eq_some_iff.1 h
  obtain ⟨⟨d', rest⟩, hread, hd⟩ := Option.bind_eq_some_iff.1 hd
  dsimp only at hd
  split at hd
  · cases hd
    exact Reader.within_value? hread v hv
  · cases hd

/-! ## What is regular is read back -/

/-- A field whose name is behind all others comes last. -/
theorem insertField_of_lt {name : String} {v : Json} : ∀ {fs : List (String × Json)}, (∀ f ∈ fs, f.1 < name) →
    insertField name v fs = fs ++ [(name, v)]
  | [], _ => rfl
  | f :: fs, h => by
    obtain ⟨hf, hfs⟩ := List.forall_mem_cons.1 h
    have hne : name ≠ f.1 := fun he => String.lt_irrefl name (he ▸ hf)
    rw [insertField, if_neg (String.lt_asymm hf), if_neg hne, insertField_of_lt hfs]
    rfl

mutual

/-- **The document of a regular value stands for the value.** -/
theorem value?_document : ∀ {v : Json} {room : Nat}, v.Regular room → v.document.value? = some v
  | .null, _, _ => rfl
  | .bool _, _, _ => rfl
  | .num _, _, _ => rfl
  | .str _, _, _ => rfl
  | .arr _, _, ⟨_, hvs⟩ => congrArg (Option.map Json.arr) (valuesOf?_documents hvs)
  | .obj _, _, ⟨_, hsorted, hfs⟩ => congrArg (Option.map Json.obj) (fieldsFrom?_fieldDocuments [] hsorted hfs)

theorem valuesOf?_documents : ∀ {vs : List Json} {room : Nat}, RegularItems room vs →
    Document.valuesOf? (documents vs) = some vs
  | [], _, _ => rfl
  | v :: vs, _, ⟨hv, hvs⟩ => by
    rw [documents, Document.valuesOf?, value?_document hv, valuesOf?_documents hvs]
    rfl

theorem fieldsFrom?_fieldDocuments : ∀ (sofar : List (String × Json)) {fs : List (String × Json)} {room : Nat},
    ((sofar ++ fs).map Prod.fst).Pairwise (· < ·) → RegularFields room fs →
      Document.fieldsFrom? sofar (fieldDocuments fs) = some (sofar ++ fs)
  | sofar, [], _, _, _ => by
    rw [List.append_nil]
    rfl
  | sofar, (name, v) :: fs, _, hsorted, ⟨hv, hfs⟩ => by
    have hlt : ∀ f ∈ sofar, f.1 < name := by
      rw [List.map_append, List.pairwise_append] at hsorted
      exact fun f hf => hsorted.2.2 f.1 (List.mem_map_of_mem hf) name List.mem_cons_self
    have happend : sofar ++ (name, v) :: fs = sofar ++ [(name, v)] ++ fs := by rw [List.append_assoc]; rfl
    rw [happend] at hsorted ⊢
    rw [fieldDocuments, Document.fieldsFrom?, value?_document hv]
    show Document.fieldsFrom? (insertField name v sofar) (fieldDocuments fs) = _
    rw [insertField_of_lt hlt, fieldsFrom?_fieldDocuments _ hsorted hfs]

end

/-- **A value without floats is written and read back**, if it is one that a text can say. -/
theorem Regular.read?_compact {v : Json} (h : v.Regular Reader.levels) (hint : v.integral) :
    read? v.compact = some v := by
  unfold read?
  rw [Json.read?_compact (h.exact hint)]
  exact value?_document h

end BoundPage.Json
