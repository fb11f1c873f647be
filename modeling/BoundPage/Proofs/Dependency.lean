import BoundPage.Dependency.Json
import BoundPage.Proofs.Json
import BoundPage.Proofs.Tables
/-!
# Dependencies that are read back

Reading a dependency settles what its document left open: a condition becomes a text or one of the two that stand for
blankness, a style value of any shape becomes its text, and what is missing gets its default.  What is written for the
result says the same again (`survives_writing`).
-/
namespace BoundPage
open Json (Document)
open Json.Decode

namespace Json

/-! ## Texts of values -/

theorem dollar_not_mem_digits (n : Nat) : '$' ∉ Nat.toDigits 10 n := fun h =>
  absurd (Reader.isDigit_of_mem_digits h) (by decide)

theorem dollar_not_mem_plain {digits : List Char} (h : '$' ∉ digits) (pointZero : Bool) (exponent : Int) :
    '$' ∉ Decimal.plain pointZero digits exponent := by
  unfold Decimal.plain
  split
  · cases pointZero <;> simp [h]
  · have hpad : '$' ∉ List.replicate ((-exponent).toNat + 1 - digits.length) '0' ++ digits := by simp [h]
    rw [List.mem_append, List.mem_cons]
    rintro (hm | hm | hm)
    · exact hpad (List.mem_of_mem_take hm)
    · exact absurd hm (by decide)
    · exact hpad (List.mem_of_mem_drop hm)

theorem dollar_not_mem_scientific {digits : List Char} (h : '$' ∉ digits) (leading : Int) :
    '$' ∉ Decimal.scientific digits leading := by
  have htake : '$' ∉ digits.take 1 := fun hm => h (List.mem_of_mem_take hm)
  have htail : '$' ∉ digits.tail := fun hm => h (List.mem_of_mem_tail hm)
  have hexp := dollar_not_mem_digits leading.natAbs
  unfold Decimal.scientific
  dsimp only
  split <;> split <;> simp [htake, htail, hexp]

theorem dollar_not_mem_render : ∀ x : Number, '$' ∉ x.render.toList
  | .int (Int.ofNat n) => fun h => absurd (Text.isDigit_of_mem_repr (n := n) h) (by decide)
  | .int (Int.negSucc n) => by
    have hn := dollar_not_mem_digits (n + 1)
    show '$' ∉ ("-" ++ toString (n + 1)).toList
    rw [String.toList_append, Nat.toString_eq_ofList_toDigits, String.toList_ofList]
    simp [hn]
  | .float x => by
    show '$' ∉ (Number.floatFormat.write x).toList
    unfold Decimal.Format.write
    dsimp only
    split
    · rw [String.toList_append]
      split <;> simp [Number.floatFormat]
    · rw [String.toList_ofList]
      split <;> split <;> simp [dollar_not_mem_plain, dollar_not_mem_scientific, dollar_not_mem_digits]

/-- Of the values only a string is shown as a text that starts with a dollar sign. -/
theorem head?_text_ne {v : Json} (h : v.asString? = none) : v.text.toList.head? ≠ some '$' := by
  cases v with
  | null => decide
  | bool b => cases b <;> decide
  | num x =>
    intro hx
    have htext : (Json.num x).text = x.render := String.ofList_toList
    rw [htext] at hx
    exact dollar_not_mem_render x (List.mem_of_mem_head? hx)
  | str s => cases h
  | arr vs => cases vs <;> simp [text, compact, chars]
  | obj fs => cases fs <;> simp [text, compact, chars]

end Json

namespace Condition

theorem ofJson_of_not_string {v : Json} (h : v.asString? = none) : ofJson v = .equals v.text := by
  cases v <;> first | rfl | cases h

/-- **The text of a condition that was read stands for that condition**: no other value is shown as one of the two texts
that stand for blankness. -/
theorem ofJson_text (v : Json) : ofJson (.str (ofJson v).text) = ofJson v := by
  cases hv : v.asString? with
  | none =>
    have hdollar := Json.head?_text_ne hv
    have hnull : v.text ≠ nullText := fun h => hdollar (by rw [h]; decide)
    have hnot : v.text ≠ notNullText := fun h => hdollar (by rw [h]; decide)
    rw [ofJson_of_not_string hv]
    exact (if_neg hnull).trans (if_neg hnot)
  | some s =>
    cases v with
    | str s =>
      unfold ofJson
      dsimp only
      split
      · rfl
      · split
        · rfl
        · next hnull hnot => exact (if_neg hnull).trans (if_neg hnot)
    | _ => cases hv

end Condition

namespace Json.Decode

theorem list_documents {α : Type} {item : Document → Option α} {write : α → Json} {xs : List α}
    (h : ∀ x ∈ xs, item (write x).document = some x) : list item (Json.arr (xs.map write)).document = some xs := by
  show (documents (xs.map write)).mapM item = some xs
  induction xs with
  | nil => rfl
  | cons x xs ih =>
    rw [List.map_cons, documents, List.mapM_cons, h x List.mem_cons_self,
      ih fun y hy => h y (List.mem_cons_of_mem x hy)]
    rfl

theorem foldlM_fieldDocuments {α : Type} {item : Document → Option α} {write : α → Json} :
    ∀ (es : List (String × α)) (t : Table α), (∀ e ∈ es, item (write e.2).document = some e.2) →
      (fieldDocuments (es.map fun e => (e.1, write e.2))).foldlM (tableEntry item) t = some (t.insertAll es)
  | [], t, _ => rfl
  | e :: es, t, h => by
    have hentry : tableEntry item t (some e.1, (write e.2).document) = some (t.insert e.1 e.2) := by
      unfold tableEntry
      rw [h e List.mem_cons_self]
      rfl
    rw [List.map_cons, fieldDocuments, List.foldlM_cons, hentry]
    exact foldlM_fieldDocuments es (t.insert e.1 e.2) fun e' he => h e' (List.mem_cons_of_mem e he)

/-- **A table that is written is read back**, with its entries in their order. -/
theorem table_document {α : Type} {item : Document → Option α} {write : α → Json} {t : Table α}
    (h : ∀ e ∈ t.entries, item (write e.2).document = some e.2) :
    table item (Json.obj (t.map write).entries).document = some t := by
  have hread : table item (Json.obj (t.map write).entries).document = some (Table.ofList t.entries) :=
    foldlM_fieldDocuments t.entries ∅ h
  rw [hread, Table.ext (Table.entries_ofList t.nodup)]

end Json.Decode

theorem StyleValue.ofDocument?_toJson (v : StyleValue) : ofDocument? v.toJson.document = some v := by
  obtain ⟨text, important⟩ := v
  cases text <;> rfl

theorem StyleParameter.ofDocument?_toJson (p : StyleParameter) : ofDocument? p.toJson.document = some p := by
  obtain ⟨value, fallback⟩ := p
  cases fallback with
  | none =>
    show (StyleValue.ofDocument? value.toJson.document).bind _ = _
    rw [value.ofDocument?_toJson]
    rfl
  | some w =>
    show (StyleValue.ofDocument? value.toJson.document).bind _ = _
    rw [value.ofDocument?_toJson]
    show ((StyleValue.ofDocument? w.toJson.document).map some).bind _ = _
    rw [w.ofDocument?_toJson]
    rfl

namespace Dependency

/-- A dependency as it is read: the text of its condition on visibility stands for that condition. -/
def Read : Dependency → Prop
  | .visible condition => Condition.ofJson (.str condition.text) = condition
  | _ => True

theorem read_of_ofDocument? {doc : Document} {d : Dependency} (h : ofDocument? doc = some d) : d.Read := by
  unfold ofDocument? at h
  obtain ⟨fields, -, h⟩ := Option.bind_eq_some_iff.1 h
  split at h
  · obtain ⟨kind, -, h⟩ := Option.bind_eq_some_iff.1 h
    obtain ⟨condition, -, h⟩ := Option.bind_eq_some_iff.1 h
    obtain ⟨parameters, -, h⟩ := Option.bind_eq_some_iff.1 h
    cases kind with
    | value => cases h; trivial
    | visible =>
      obtain ⟨c, -, rfl⟩ := Option.map_eq_some_iff.1 h
      exact Condition.ofJson_text c
    | style => cases h; trivial
  · cases h

theorem ofDocument?_toJson {d : Dependency} (h : d.Read) : ofDocument? d.toJson.document = some d := by
  cases d with
  | value => rfl
  | visible condition =>
    show some (Dependency.visible (Condition.ofJson (.str condition.text))) = _
    rw [h]
  | style condition parameters =>
    have hread := table_document (t := parameters) fun e _ => StyleParameter.ofDocument?_toJson e.2
    cases condition <;>
    · show ((table StyleParameter.ofDocument? (Json.obj (parameters.map StyleParameter.toJson).entries).document).map
        some).bind _ = _
      rw [hread]
      rfl

/-! ## Levels -/

theorem exact_parameter (room : Nat) (p : StyleParameter) : p.toJson.Exact (room + 2) := by
  have hvalue : ∀ v : StyleValue, v.toJson.Exact (room + 1) := fun v => by
    obtain ⟨text, important⟩ := v
    cases text <;> exact ⟨Nat.succ_pos room, trivial, trivial, trivial⟩
  obtain ⟨value, fallback⟩ := p
  cases fallback with
  | none => exact ⟨Nat.succ_pos _, hvalue value, trivial, trivial⟩
  | some w => exact ⟨Nat.succ_pos _, hvalue value, hvalue w, trivial⟩

theorem exact_parameters (room : Nat) : ∀ es : List (String × StyleParameter),
    Json.ExactFields (room + 2) (es.map fun e => (e.1, e.2.toJson))
  | [] => trivial
  | e :: es => ⟨exact_parameter room e.2, exact_parameters room es⟩

theorem exact_toJson (room : Nat) (d : Dependency) : d.toJson.Exact (room + 4) := by
  cases d with
  | value => exact ⟨Nat.succ_pos _, trivial, trivial⟩
  | visible condition => exact ⟨Nat.succ_pos _, trivial, trivial, trivial⟩
  | style condition parameters =>
    have hps : (Json.obj (parameters.map StyleParameter.toJson).entries).Exact (room + 3) :=
      ⟨Nat.succ_pos _, exact_parameters room parameters.entries⟩
    cases condition with
    | none => exact ⟨Nat.succ_pos _, trivial, hps, trivial⟩
    | some c => exact ⟨Nat.succ_pos _, trivial, trivial, hps, trivial⟩

theorem exact_list (ds : List Dependency) : (listToJson ds).Exact Json.Reader.levels := by
  have hitems : ∀ ds : List Dependency, Json.ExactItems 126 (ds.map toJson) := fun ds => by
    induction ds with
    | nil => trivial
    | cons d ds ih => exact ⟨exact_toJson 122 d, ih⟩
  exact ⟨by decide, hitems ds⟩

end Dependency

/-! ## What is written -/

/-- What `write` makes of a value is read back by `item`, as a document and as a text, and then written as before. -/
structure ReadsBack {α : Type} (item : Document → Option α) (write : α → Json) (x : α) : Prop where
  document : item (write x).document = some x
  text : ofText? item (write x).compact = some x
  written : ∀ y, ofText? item (write x).compact = some y → (write y).compact = (write x).compact

theorem readsBack_of_document {α : Type} {item : Document → Option α} {write : α → Json} {x : α}
    (hexact : (write x).Exact Json.Reader.levels) (h : item (write x).document = some x) :
    ReadsBack item write x := by
  have htext : ofText? item (write x).compact = some x := by
    unfold ofText?
    rw [Json.read?_compact hexact]
    exact h
  refine ⟨h, htext, fun y hy => ?_⟩
  rw [htext] at hy
  cases hy
  rfl

namespace Dependency

/-- A list of dependencies, in either of the two ways in which one is written. -/
def listOfWritten? (doc : Document) : Option (List Dependency) := (Written.ofDocument? doc).bind Written.read?

def listToText (ds : List Dependency) : Json := .str (listToJson ds).compact

theorem readsBack {d : Dependency} (h : d.Read) : ReadsBack ofDocument? toJson d :=
  readsBack_of_document (exact_toJson 123 d) (ofDocument?_toJson h)

theorem listOfDocument?_listToJson {ds : List Dependency} (h : ∀ d ∈ ds, d.Read) :
    listOfDocument? (listToJson ds).document = some ds :=
  list_documents fun d hd => ofDocument?_toJson (h d hd)

theorem read_of_listOfDocument? {doc : Document} {ds : List Dependency} (h : listOfDocument? doc = some ds) :
    ∀ d ∈ ds, d.Read := by
  cases doc with
  | arr docs =>
    change docs.mapM ofDocument? = some ds at h
    induction docs generalizing ds with
    | nil =>
      cases h
      exact fun _ hd => absurd hd List.not_mem_nil
    | cons doc docs ih =>
      rw [List.mapM_cons] at h
      obtain ⟨d, hd, h⟩ := Option.bind_eq_some_iff.1 h
      obtain ⟨ds', hds, h⟩ := Option.bind_eq_some_iff.1 h
      cases h
      exact List.forall_mem_cons.2 ⟨read_of_ofDocument? hd, ih hds⟩
  | _ => cases h

theorem read_of_listOfWritten? {doc : Document} {ds : List Dependency} (h : listOfWritten? doc = some ds) :
    ∀ d ∈ ds, d.Read := by
  obtain ⟨w, hw, h⟩ := Option.bind_eq_some_iff.1 h
  unfold Written.ofDocument? at hw
  split at hw
  · cases hw
    obtain ⟨inner, -, h⟩ := Option.bind_eq_some_iff.1 h
    exact read_of_listOfDocument? h
  · split at hw
    · obtain ⟨ds', hds, rfl⟩ := Option.map_eq_some_iff.1 hw
      cases h
      exact read_of_listOfDocument? hds
    · cases hw

theorem readsBack_list {ds : List Dependency} (h : ∀ d ∈ ds, d.Read) : ReadsBack listOfWritten? listToJson ds := by
  refine readsBack_of_document (exact_list ds) ?_
  show ((if (listToJson ds).document.sound then _ else _ : Option Written)).bind Written.read? = _
  rw [if_pos (Json.sound_document _), listOfDocument?_listToJson h]
  rfl

theorem readsBack_text {ds : List Dependency} (h : ∀ d ∈ ds, d.Read) : ReadsBack listOfWritten? listToText ds := by
  refine readsBack_of_document trivial ?_
  show ofText? listOfDocument? (listToJson ds).compact = _
  unfold ofText?
  rw [Json.read?_compact (exact_list ds)]
  exact listOfDocument?_listToJson h

/-- **Dependencies survive being written**: what a document is read as is read back from what is written for it, a
dependency alone and a list of them in either form. -/
theorem survives_writing (doc : Document) :
    (∀ d, ofDocument? doc = some d → ReadsBack ofDocument? toJson d) ∧
      ∀ ds, listOfWritten? doc = some ds →
        ReadsBack listOfWritten? listToJson ds ∧ ReadsBack listOfWritten? listToText ds :=
  ⟨fun _ hd => readsBack (read_of_ofDocument? hd), fun _ hds =>
    ⟨readsBack_list (read_of_listOfWritten? hds), readsBack_text (read_of_listOfWritten? hds)⟩⟩

/-- A condition that is a number, a style value that is no text and a default without one; and a list that is
written as a text. -/
theorem survives_writing_width :
    ReadsBack ofDocument? toJson
        (.style (some "1") (Table.ofList [("width", { value := { text := some "true" }, fallback := some {} })])) ∧
      ReadsBack listOfWritten? listToText [.visible .isNull] :=
  ⟨(survives_writing (.obj [(some "dependency_type", .str "Style"), (some "condition", .num (.int 1)),
      (some "parameters", .obj [(some "width", .obj [(some "value", .obj [(some "value", .bool true)]),
        (some "default", .obj [(some "value", .null)])])])])).1 _ rfl,
    ((survives_writing (.arr [.obj [(some "dependency_type", .str "Visible"),
      (some "condition", .str "$IsNull$")]])).2 _ rfl).2⟩

end Dependency

end BoundPage
