import Mathlib.Data.List.Basic
import BoundPage.Key
/-!
# Keys

Which template an item belongs to, and which instance a data-id is for, can be read off the texts: an index and the mark
behind it have no comma, and an instance id without a colon is what stands behind the last one.
-/
namespace BoundPage

namespace Text

theorem beforeSuffix?_eq_some {p s base : String} : beforeSuffix? p s = some base ↔ s = base ++ p := by
  unfold beforeSuffix?
  rw [Option.map_eq_some_iff]
  constructor
  · rintro ⟨cs, h, rfl⟩
    rw [List.isSuffixOf?_eq_some_iff_append_eq] at h
    rw [String.ext_iff, String.toList_append, String.toList_ofList, h]
  · rintro rfl
    exact ⟨base.toList, by rw [List.isSuffixOf?_eq_some_iff_append_eq, String.toList_append], String.ofList_toList⟩

theorem breakOn?_singleton {c : Char} : ∀ {a : List Char} (b : List Char), c ∉ a →
    breakOn? [c] (a ++ c :: b) = some (a, b)
  | [], b, _ => by simp [breakOn?, List.isPrefixOf?]
  | x :: a, b, h => by
    have hx : c ≠ x := fun hc => h (hc ▸ List.mem_cons_self)
    have ih := breakOn?_singleton b fun hc => h (List.mem_cons_of_mem x hc)
    simp [breakOn?, List.isPrefixOf?, hx, ih]

theorem breakOnLast?_singleton {c : Char} (a : List Char) {b : List Char} (h : c ∉ b) :
    breakOnLast? [c] (a ++ c :: b) = some (a, b) := by
  unfold breakOnLast?
  have he : (a ++ c :: b).reverse = b.reverse ++ c :: a.reverse := by simp
  rw [he, List.reverse_singleton, breakOn?_singleton _ (by simpa using h)]
  simp

theorem eq_append_of_breakOn? {piece : List Char} : ∀ {s a b : List Char}, breakOn? piece s = some (a, b) →
    s = a ++ piece ++ b
  | [], a, b, h => by
    unfold breakOn? at h
    split at h
    · next hp =>
      obtain ⟨rfl, rfl⟩ := Prod.ext_iff.1 (Option.some.inj h)
      simpa using hp
    · cases h
  | c :: s, a, b, h => by
    unfold breakOn? at h
    split at h
    · next rest hr =>
      obtain ⟨rfl, rfl⟩ := Prod.ext_iff.1 (Option.some.inj h)
      rw [List.isPrefixOf?_eq_some_iff_append_eq] at hr
      exact hr.symm
    · obtain ⟨⟨a', b'⟩, hp, he⟩ := Option.map_eq_some_iff.1 h
      obtain ⟨rfl, rfl⟩ := Prod.ext_iff.1 he
      rw [eq_append_of_breakOn? hp]
      rfl

theorem eq_append_of_breakOnLast? {piece s a b : List Char} (h : breakOnLast? piece s = some (a, b)) :
    s = a ++ piece ++ b := by
  unfold breakOnLast? at h
  obtain ⟨⟨x, y⟩, hxy, he⟩ := Option.map_eq_some_iff.1 h
  obtain ⟨rfl, rfl⟩ := Prod.ext_iff.1 he
  have hs := congrArg List.reverse (eq_append_of_breakOn? hxy)
  simpa using hs

theorem isDigit_of_mem_repr {n : Nat} {c : Char} (h : c ∈ (toString n).toList) : isDigit c := by
  rw [Nat.toString_eq_ofList_toDigits, String.toList_ofList] at h
  have hc := Nat.isDigit_of_mem_toDigits (by omega) (by omega) h
  unfold Char.isDigit at hc
  unfold isDigit
  simp only [Bool.and_eq_true, decide_eq_true_eq] at hc ⊢
  exact ⟨hc.1, hc.2⟩

theorem toString_inj {n m : Nat} (h : toString n = toString m) : n = m := by
  rw [Nat.toString_eq_ofList_toDigits, Nat.toString_eq_ofList_toDigits] at h
  have := congrArg (fun s => Nat.ofDigitChars 10 s.toList 0) h
  simpa using this

end Text

namespace Element

theorem isIndex_iff {s : List Char} : isIndex s ↔ s ≠ [] ∧ ∀ c ∈ s, Text.isDigit c := by
  unfold isIndex
  simp

theorem isIndex_toString (n : Nat) : isIndex (toString n).toList := by
  rw [isIndex_iff]
  refine ⟨?_, fun c hc => Text.isDigit_of_mem_repr hc⟩
  rw [Nat.toString_eq_ofList_toDigits, String.toList_ofList]
  exact Nat.toDigits_ne_nil

/-- An index and the mark behind it have no comma. -/
theorem comma_not_mem {index : List Char} (h : isIndex index) : ',' ∉ index ++ itemMark.toList := by
  rw [List.mem_append]
  rintro (hc | hc)
  · exact absurd ((isIndex_iff.1 h).2 _ hc) (by decide)
  · exact absurd hc (by decide)

theorem isTemplate_iff {t : String} : isTemplate t ↔ ∃ base, t = base ++ templateMark := by
  unfold isTemplate templateBase?
  rw [Option.isSome_iff_exists]
  exact exists_congr fun base => Text.beforeSuffix?_eq_some

theorem isItemOf_iff {e t : String} : isItemOf e t ↔ ∃ base index, t = base ++ templateMark ∧
    e.toList = base.toList ++ ',' :: (index ++ itemMark.toList) ∧ isIndex index := by
  unfold isItemOf templateBase?
  constructor
  · intro h
    split at h
    · cases h
    · rename_i base hb
      split at h
      · cases h
      · rename_i rest hr
        split at h
        · cases h
        · rename_i index hi
          rw [List.isPrefixOf?_eq_some_iff_append_eq] at hr
          rw [List.isSuffixOf?_eq_some_iff_append_eq] at hi
          refine ⟨base, index, Text.beforeSuffix?_eq_some.1 hb, ?_, h⟩
          rw [← hr, ← hi, String.toList_append]
          simp
  · rintro ⟨base, index, rfl, he, hi⟩
    have hr : (base ++ ",").toList.isPrefixOf? e.toList = some (index ++ itemMark.toList) := by
      rw [List.isPrefixOf?_eq_some_iff_append_eq, he, String.toList_append]
      simp
    have hx : itemMark.toList.isSuffixOf? (index ++ itemMark.toList) = some index := by
      rw [List.isSuffixOf?_eq_some_iff_append_eq]
    rw [Text.beforeSuffix?_eq_some.2 rfl]
    simp only [hr, hx]
    exact hi

/-- An item has an index and the mark behind its last comma. -/
theorem isItem_iff {e : String} : isItem e ↔ ∃ (base : String) (index : List Char),
    e.toList = base.toList ++ ',' :: (index ++ itemMark.toList) ∧ isIndex index := by
  unfold isItem
  constructor
  · intro h
    split at h
    · cases h
    · rename_i base rest hb
      split at h
      · cases h
      · rename_i index hx
        rw [List.isSuffixOf?_eq_some_iff_append_eq] at hx
        refine ⟨String.ofList base, index, ?_, h⟩
        rw [Text.eq_append_of_breakOnLast? hb, ← hx, String.toList_ofList, List.append_assoc]
        rfl
  · rintro ⟨base, index, he, hi⟩
    have hx : itemMark.toList.isSuffixOf? (index ++ itemMark.toList) = some index := by
      rw [List.isSuffixOf?_eq_some_iff_append_eq]
    rw [he, Text.breakOnLast?_singleton _ (comma_not_mem hi)]
    simp only [hx]
    exact hi

theorem isItem_of_isItemOf {e t : String} (h : isItemOf e t) : isItem e := by
  obtain ⟨base, index, -, he, hi⟩ := isItemOf_iff.1 h
  exact isItem_iff.2 ⟨base, index, he, hi⟩

/-- The template of an item stands before its last comma. -/
theorem exists_isItemOf {e : String} (h : isItem e) : ∃ t, isItemOf e t := by
  obtain ⟨base, index, he, hi⟩ := isItem_iff.1 h
  exact ⟨base ++ templateMark, isItemOf_iff.2 ⟨base, index, rfl, he, hi⟩⟩

theorem isItemOf_eq_false {e : String} (h : isItem e = false) (t : String) : isItemOf e t = false := by
  by_contra hi
  rw [isItem_of_isItemOf (eq_true_of_ne_false hi)] at h
  cases h

theorem ne_of_isItemOf {x e t : String} (hx : isItemOf x t) (h : isItem e = false) : x ≠ e := by
  rintro rfl
  rw [isItemOf_eq_false h t] at hx
  cases hx

/-- **An item belongs to one template.** -/
theorem template_unique {e t t' : String} (h : isItemOf e t) (h' : isItemOf e t') : t = t' := by
  obtain ⟨base, index, rfl, he, hi⟩ := isItemOf_iff.1 h
  obtain ⟨base', index', rfl, he', hi'⟩ := isItemOf_iff.1 h'
  have h1 := Text.breakOnLast?_singleton base.toList (comma_not_mem hi)
  rw [← he, he', Text.breakOnLast?_singleton _ (comma_not_mem hi')] at h1
  rw [String.ext_iff.2 (Prod.ext_iff.1 (Option.some.inj h1)).1]

theorem isTemplate_of_isItemOf {e t : String} (h : isItemOf e t) : isTemplate t := by
  obtain ⟨base, -, ht, -⟩ := isItemOf_iff.1 h
  exact isTemplate_iff.2 ⟨base, ht⟩

/-- No template is an item: the two marks end in different letters. -/
theorem isItem_of_isTemplate {t : String} (h : isTemplate t) : isItem t = false := by
  obtain ⟨base, rfl⟩ := isTemplate_iff.1 h
  rw [Bool.eq_false_iff]
  intro hi
  obtain ⟨base', index, he, -⟩ := isItem_iff.1 hi
  have hlast := congrArg (fun s => s.reverse.head?) he
  simp only [String.toList_append, List.reverse_append, List.reverse_cons] at hlast
  exact absurd hlast (by simp [templateMark, itemMark])

theorem not_isItem_of_isTemplate {t : String} (ht : isTemplate t) : ¬ isItem t := fun hi => by
  rw [isItem_of_isTemplate ht] at hi
  cases hi

theorem item?_eq_some {t e : String} {i : Nat} (h : item? t i = some e) :
    ∃ base, t = base ++ templateMark ∧ e = base ++ "," ++ toString i ++ itemMark := by
  obtain ⟨base, hb, rfl⟩ := Option.map_eq_some_iff.1 h
  exact ⟨base, Text.beforeSuffix?_eq_some.1 hb, rfl⟩

theorem isItemOf_item? {t e : String} {i : Nat} (h : item? t i = some e) : isItemOf e t := by
  obtain ⟨base, rfl, rfl⟩ := item?_eq_some h
  refine isItemOf_iff.2 ⟨base, (toString i).toList, rfl, ?_, isIndex_toString i⟩
  simp [String.toList_append]

theorem exists_item? {t : String} (h : isTemplate t) (i : Nat) : ∃ e, item? t i = some e := by
  obtain ⟨base, hb⟩ := Option.isSome_iff_exists.1 h
  exact ⟨_, by rw [item?, hb]; rfl⟩

/-- **Different indices make different items.** -/
theorem item?_inj {t e : String} {i j : Nat} (hi : item? t i = some e) (hj : item? t j = some e) : i = j := by
  obtain ⟨base, rfl, rfl⟩ := item?_eq_some hi
  obtain ⟨base', hb, he⟩ := item?_eq_some hj
  obtain rfl : base = base' := by simpa [String.ext_iff, String.toList_append] using hb
  refine Text.toString_inj (String.ext_iff.2 ?_)
  simpa [String.ext_iff, String.toList_append] using he

/-- **An item key is of one template and one index**, whatever its texts hold.  The key made for a template and an index
is an item of that template and is made for no other ones; each item is an item of exactly one template; and an element
is an item of some template exactly if an index and the mark stand behind its last comma, which no template has. -/
theorem item_keys_exact :
    (∀ a b e i j, item? a i = some e → item? b j = some e → a = b ∧ i = j) ∧
      (∀ a e i, item? a i = some e → isItemOf e a) ∧
      (∀ a b e, isItemOf e a → isItemOf e b → a = b) ∧
      (∀ e, isItem e ↔ ∃ a, isItemOf e a) ∧
      ∀ e, isItem e → isTemplate e = false := by
  refine ⟨?_, ?_, ?_, ?_, ?_⟩
  · intro a b e i j ha hb
    obtain rfl : a = b := template_unique (isItemOf_item? ha) (isItemOf_item? hb)
    exact ⟨rfl, item?_inj ha hb⟩
  · intro a e i ha
    exact isItemOf_item? ha
  · intro a b e ha hb
    exact template_unique ha hb
  · intro e
    constructor
    · exact exists_isItemOf
    · rintro ⟨a, ha⟩
      exact isItem_of_isItemOf ha
  · intro e he
    rw [Bool.eq_false_iff]
    intro ht
    exact not_isItem_of_isTemplate ht he

/-- A template whose base looks like an item and like a template. -/
theorem item_keys_exact_nested :
    item? "x,0:new:dummy,7:dummy" 10 = some "x,0:new:dummy,7,10:new" ∧
      isItemOf "x,0:new:dummy,7,10:new" "x,0:new:dummy,7:dummy" ∧
      (∀ b j, item? b j = some "x,0:new:dummy,7,10:new" → b = "x,0:new:dummy,7:dummy" ∧ j = 10) ∧
      isTemplate "x,0:new:dummy,7,10:new" = false := by
  have hmade : item? "x,0:new:dummy,7:dummy" 10 = some "x,0:new:dummy,7,10:new" := by decide
  refine ⟨hmade, item_keys_exact.2.1 _ _ _ hmade, ?_, ?_⟩
  · intro b j hb
    exact item_keys_exact.1 _ _ _ _ _ hb hmade
  · exact item_keys_exact.2.2.2.2 _ (item_keys_exact.2.2.2.1 _ |>.2 ⟨_, item_keys_exact.2.1 _ _ _ hmade⟩)

end Element

namespace NodeKey

/-- A data-id of a template: the element stands before the last colon. -/
def isTemplateText (text : String) : Bool :=
  match Text.breakOnLast? [':'] text.toList with
  | some (element, _) => Element.isTemplate (String.ofList element)
  | none => false

theorem breakOnLast?_text {k : NodeKey} (hk : ':' ∉ k.instanceId.toList) :
    Text.breakOnLast? [':'] k.text.toList = some (k.element.toList, k.instanceId.toList) := by
  have : k.text.toList = k.element.toList ++ ':' :: k.instanceId.toList := by simp [text, String.toList_append]
  rw [this, Text.breakOnLast?_singleton _ hk]

theorem isTemplateText_text {k : NodeKey} (hk : ':' ∉ k.instanceId.toList) : isTemplateText k.text = k.isTemplate := by
  unfold isTemplateText isTemplate
  rw [breakOnLast?_text hk]
  simp

theorem text_inj_of_instance {e e' id : String} (h : NodeKey.text ⟨e, id⟩ = NodeKey.text ⟨e', id⟩) : e = e' := by
  simpa [text, String.ext_iff, String.toList_append] using h

/-- An item has another data-id than an element of its instance that is no item. -/
theorem text_ne_of_item {key : NodeKey} {e id : String} (hkey : Element.isItem key.element) (hid : key.instanceId = id)
    (he : Element.isItem e = false) : key.text ≠ NodeKey.text ⟨e, id⟩ := by
  subst hid
  intro h
  rw [text_inj_of_instance h, he] at hkey
  cases hkey

/-- **A data-id has one key whose instance id is without a colon.** -/
theorem text_inj {k k' : NodeKey} (hk : ':' ∉ k.instanceId.toList) (hk' : ':' ∉ k'.instanceId.toList)
    (h : k.text = k'.text) : k = k' := by
  have h1 := breakOnLast?_text hk
  rw [h, breakOnLast?_text hk'] at h1
  obtain ⟨he, hi⟩ := Prod.ext_iff.1 (Option.some.inj h1)
  cases k; cases k'
  simp only at he hi
  rw [String.ext_iff.2 he, String.ext_iff.2 hi]

/-- **Instance ids are apart**: they differ, and neither ends in a colon and the other. -/
structure Apart (i j : String) : Prop where
  ne : i ≠ j
  left : ¬ (':' :: j.toList) <:+ i.toList
  right : ¬ (':' :: i.toList) <:+ j.toList

theorem apart_of_no_colon {i j : String} (hne : i ≠ j) (hi : ':' ∉ i.toList) (hj : ':' ∉ j.toList) : Apart i j where
  ne := hne
  left h := hi (h.subset List.mem_cons_self)
  right h := hj (h.subset List.mem_cons_self)

theorem toList_text (e i : String) : (NodeKey.text ⟨e, i⟩).toList = e.toList ++ ':' :: i.toList := by
  simp [text, String.toList_append]

/-- One of two texts that share an end, both with a colon before it, is the end of the other. -/
theorem suffix_of_append_eq {e e' i j : List Char} (hne : i ≠ j) (h : e ++ ':' :: i = e' ++ ':' :: j) :
    (':' :: j) <:+ i ∨ (':' :: i) <:+ j := by
  rcases List.append_eq_append_iff.1 h with ⟨x, -, hx⟩ | ⟨x, -, hx⟩
  · cases x with
    | nil => exact absurd (List.cons.inj hx).2 hne
    | cons c x => exact .inl ⟨x, (List.cons.inj hx).2.symm⟩
  · cases x with
    | nil => exact absurd (List.cons.inj hx).2.symm hne
    | cons c x => exact .inr ⟨x, (List.cons.inj hx).2.symm⟩

/-- An id that ends in a colon and another one: every data-id for it is a data-id for the other one. -/
theorem text_of_suffix {i j : String} (h : (':' :: j.toList) <:+ i.toList) (e : String) :
    ∃ e', NodeKey.text ⟨e, i⟩ = NodeKey.text ⟨e', j⟩ := by
  obtain ⟨x, hx⟩ := h
  refine ⟨e ++ ":" ++ String.ofList x, String.ext_iff.2 ?_⟩
  rw [toList_text, toList_text, ← hx]
  simp [String.toList_append]

/-- **The data-ids for two instances differ exactly if their ids are apart.** -/
theorem text_ne_iff_apart {i j : String} :
    (∀ e e', NodeKey.text ⟨e, i⟩ ≠ NodeKey.text ⟨e', j⟩) ↔ Apart i j := by
  constructor
  · intro h
    refine ⟨fun hij => h "" "" (by rw [hij]), fun hs => ?_, fun hs => ?_⟩
    · obtain ⟨e', he⟩ := text_of_suffix hs ""
      exact h "" e' he
    · obtain ⟨e', he⟩ := text_of_suffix hs ""
      exact h e' "" he.symm
  · intro h e e' he
    have hlists := congrArg String.toList he
    rw [toList_text, toList_text] at hlists
    rcases suffix_of_append_eq (fun hij => h.ne (String.ext_iff.2 hij)) hlists with hs | hs
    · exact h.left hs
    · exact h.right hs

end NodeKey
end BoundPage
