import BoundPage.Proofs.Keys
import BoundPage.Proofs.Tables
import BoundPage.Proofs.Words
import BoundPage.Surface.Basic
/-!
# Markup

The nodes of a description in document order, and its normal form.  A surface keeps the value of a style and its mark
apart, so a style is exported without blanks around it and with one blank before its mark (`Markup.normalStyle`).  This
is its own normal form.
-/
namespace BoundPage

namespace Markup

/-! ## Nodes -/

mutual

/-- The descriptions of a node and of all nodes below it, in document order, each without its children. -/
def nodes : Markup → List Markup
  | ⟨tag, id, externalId, text, attributes, styles, children⟩ =>
    { tag, id, externalId, text, attributes, styles } :: nodesOfAll children

def nodesOfAll : List Markup → List Markup
  | [] => []
  | m :: ms => m.nodes ++ nodesOfAll ms

end

theorem nodesOfAll_eq : ∀ ms : List Markup, nodesOfAll ms = ms.flatMap nodes
  | [] => rfl
  | m :: ms => by rw [nodesOfAll, nodesOfAll_eq ms, List.flatMap_cons]

/-! ## Normal form -/

/-- A style without blanks around it, and with one blank before the mark behind its value. -/
def normalStyle (text : String) : String :=
  match Text.beforeSuffix? "!important" (Text.trim text) with
  | some value => Text.trim value ++ " !important"
  | none => Text.trim text

mutual

/-- The description with all styles in normal form. -/
def normal : Markup → Markup
  | ⟨tag, id, externalId, text, attributes, styles, children⟩ =>
    { tag, id, externalId, text, attributes, styles := styles.map normalStyle, children := normalAll children }

def normalAll : List Markup → List Markup
  | [] => []
  | m :: ms => m.normal :: normalAll ms

end

theorem normalStyle_of_mark {text value : String}
    (h : Text.beforeSuffix? "!important" (Text.trim text) = some value) :
    normalStyle text = Text.trim value ++ " !important" := by
  unfold normalStyle
  rw [h]

theorem normalStyle_of_no_mark {text : String} (h : Text.beforeSuffix? "!important" (Text.trim text) = none) :
    normalStyle text = Text.trim text := by
  unfold normalStyle
  rw [h]

/-- The blank before a mark goes with the value, which is empty if nothing is left in front of the mark. -/
theorem trim_marked (value : String) :
    ∃ left, Text.trim (value ++ " !important") = left ++ "!important" ∧ Text.trim left = Text.trim value := by
  have hmark : "!important".toList = ['!', 'i', 'm', 'p', 'o', 'r', 't', 'a', 'n', 't'] := rfl
  have hchars : (value ++ " !important").toList = (value.toList ++ [' ']) ++ "!important".toList := by
    rw [String.toList_append, List.append_assoc]
    rfl
  have hfirst : ∀ c ∈ "!important".toList.head?, Text.isBlank c = false := by
    rw [hmark]
    rintro c ⟨⟩
    rfl
  have hlast : ∀ c ∈ "!important".toList.getLast?, Text.isBlank c = false := by
    rw [hmark]
    rintro c ⟨⟩
    rfl
  refine ⟨String.ofList (Text.trimLeft (value.toList ++ [' '])), ?_, ?_⟩
  · unfold Text.trim
    rw [hchars, Text.trimChars_append (by rw [hmark]; exact List.cons_ne_nil _ _) hfirst hlast, String.ofList_append,
      String.ofList_toList]
  · unfold Text.trim
    rw [String.toList_ofList, Text.trimChars_trimLeft, Text.trimChars_append_blank (by decide)]

/-- A value with one blank and the mark behind it is already in normal form. -/
theorem normalStyle_important (value : String) :
    normalStyle (Text.trim value ++ " !important") = Text.trim value ++ " !important" := by
  obtain ⟨left, htrim, hleft⟩ := trim_marked (Text.trim value)
  rw [normalStyle_of_mark (Text.beforeSuffix?_eq_some.2 htrim), hleft, Text.trim_trim]

/-- **The normal form of a style is its own normal form.** -/
theorem normalStyle_normalStyle (text : String) : normalStyle (normalStyle text) = normalStyle text := by
  cases hmark : Text.beforeSuffix? "!important" (Text.trim text) with
  | some value => rw [normalStyle_of_mark hmark, normalStyle_important]
  | none =>
    have hagain : Text.beforeSuffix? "!important" (Text.trim (Text.trim text)) = none := by rw [Text.trim_trim, hmark]
    rw [normalStyle_of_no_mark hmark, normalStyle_of_no_mark hagain, Text.trim_trim]

example : normalStyle "!important" = " !important" ∧
    normalStyle " a!important!important " = "a!important !important" := by
  decide +kernel

mutual

theorem normal_normal : ∀ m : Markup, m.normal.normal = m.normal
  | ⟨tag, id, externalId, text, attributes, styles, children⟩ => by
    simp only [normal, Table.map_map, normalStyle_normalStyle, normalAll_normalAll children]

theorem normalAll_normalAll : ∀ ms : List Markup, normalAll (normalAll ms) = normalAll ms
  | [] => rfl
  | m :: ms => congrArg₂ List.cons (normal_normal m) (normalAll_normalAll ms)

end

/-! ## Nodes in normal form -/

mutual

theorem nodes_normal : ∀ m : Markup, m.normal.nodes = m.nodes.map fun n => { n with styles := n.styles.map normalStyle }
  | ⟨tag, id, externalId, text, attributes, styles, children⟩ => by
    rw [normal, nodes, nodes, List.map_cons, nodesOfAll_normalAll children]

theorem nodesOfAll_normalAll : ∀ ms : List Markup, nodesOfAll (normalAll ms) =
    (nodesOfAll ms).map fun n => { n with styles := n.styles.map normalStyle }
  | [] => rfl
  | m :: ms => by
    rw [normalAll, nodesOfAll, nodesOfAll, List.map_append, nodes_normal m, nodesOfAll_normalAll ms]

end

end Markup

/-- A style that is read and written again is in normal form. -/
theorem StyleEntry.text_ofText (text : String) : (StyleEntry.ofText text).text = Markup.normalStyle text := by
  cases hmark : Text.beforeSuffix? importantMark (Text.trim text) with
  | some value =>
    have hentry : StyleEntry.ofText text = ⟨Text.trim value, true⟩ := by
      unfold ofText
      simp only [hmark]
    rw [hentry, Markup.normalStyle_of_mark hmark]
    show Text.trim value ++ " " ++ "!important" = _
    rw [String.append_assoc]
    rfl
  | none =>
    have hentry : StyleEntry.ofText text = ⟨Text.trim text, false⟩ := by
      unfold ofText
      simp only [hmark]
    rw [hentry, Markup.normalStyle_of_no_mark hmark]
    rfl

end BoundPage
