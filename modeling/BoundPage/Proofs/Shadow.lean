import BoundPage.Proofs.Words
import BoundPage.Proofs.Write.Steady
/-!
# Shadows that are read back

A shadow is written as one text, its colour in front of its lengths, and the parts are told apart by two marks: the last
closing parenthesis before a blank ends a colour, and without one a first word that looks like no length is a colour.  So
the parts are read back exactly if no length but the last one ends in a parenthesis, and a colour or what looks like a
length stands in front (`Shadow.readsBack_iff`).
-/
namespace BoundPage.Shadow
open Text (IsWord isBlank spaced)

/-- A colour is one word that does not look like a length, or it is a function, which ends in a closing parenthesis. -/
def IsColor (c : List Char) : Prop :=
  (IsWord c ∧ isLength c = false) ∨ (∀ d ∈ c.head?, isBlank d = false) ∧ c.getLast? = some ')'

instance : DecidablePred IsColor := fun c =>
  decidable_of_iff (IsWord c ∧ isLength c = false ∨ (c.head?.all fun d => !isBlank d) ∧ c.getLast? = some ')')
    (by cases c <;> simp [IsColor])

structure Proper (s : Shadow) : Prop where
  color : ∀ c ∈ s.color, IsColor c.toList
  lengths : ∀ l ∈ s.lengths, IsWord l.toList

/-- **The marks tell the parts apart.** -/
structure Legible (s : Shadow) : Prop where
  /-- Only the colour and the last length may end in a parenthesis. -/
  closes : ∀ l ∈ s.lengths.dropLast, l.toList.getLast? ≠ some ')'
  starts : s.color = none → isLength s.offsetX.toList

instance : DecidablePred Legible := fun _ => decidable_of_iff (_ ∧ _) ⟨fun h => ⟨h.1, h.2⟩, fun h => ⟨h.1, h.2⟩⟩

variable {s : Shadow} {css : String}

theorem css?_eq_none_iff : s.css? = none ↔ s.color = none ∧ ∀ l ∈ s.lengths, isZero l := by
  unfold css?
  split
  · next h => simpa using h
  · next h => simpa using h

theorem toList_of_css? (h : s.css? = some css) : css.toList = spaced ((s.color.toList ++ s.lengths).map String.toList) := by
  unfold css? at h
  split at h
  · cases h
  · rw [← Option.some.inj h, String.toList_intercalate]
    rfl

/-- The parts are the colour and the lengths that the text is split into. -/
theorem parse_eq_of_splitColor (h : splitColor (Text.trimChars css.toList) =
    (s.color.map String.toList, s.lengths.map String.toList)) : parse css = s := by
  unfold parse
  rw [h]
  refine ext ?_ ?_ ?_ ?_ ?_
  · show (s.color.map String.toList).map String.ofList = s.color
    rw [Option.map_map, show String.ofList ∘ String.toList = id from funext fun _ => String.ofList_toList,
      Option.map_id_fun, id]
  all_goals exact String.ofList_toList

/-! ## What a text is split into -/

theorem splitColor_of_function {c : List Char} {ws : List (List Char)} (hc : c.getLast? = some ')') (hne : ws ≠ [])
    (hws : ¬ [')', ' '] <:+: spaced ws) : splitColor (spaced (c :: ws)) = (some c, Text.words (spaced ws)) := by
  obtain ⟨d, rfl⟩ := List.getLast?_eq_some_iff.1 hc
  have htail : ¬ [')', ' '] <:+: ([')', ' '] ++ spaced ws).tail := fun h =>
    hws (((Text.infix_append_cons (x := []) (y := spaced ws) List.not_mem_nil).1 h).resolve_left nofun)
  have htext : spaced ((d ++ [')']) :: ws) = d ++ ([')', ' '] ++ spaced ws) := by
    rw [Text.spaced_cons _ hne]
    simp
  unfold splitColor
  rw [htext, Text.breakOnLast?_append (Text.breakOnLast?_of_not_infix htail) d]
  simp

theorem splitColor_of_words {w : List Char} {ws : List (List Char)} (hw : ∀ v ∈ w :: ws, IsWord v)
    (hws : ¬ [')', ' '] <:+: spaced (w :: ws)) :
    splitColor (spaced (w :: ws)) = if isLength w then (none, w :: ws) else (some w, ws) := by
  unfold splitColor
  rw [Text.breakOnLast?_eq_none_iff.2 hws, Text.words_spaced hw]

/-! ## Reading back -/

/-- The words of the lengths. -/
def lengthWords (s : Shadow) : List (List Char) := s.lengths.map String.toList

theorem Proper.isWord (h : s.Proper) : ∀ w ∈ s.lengthWords, IsWord w :=
  fun _ hw => by
    obtain ⟨l, hl, rfl⟩ := List.mem_map.1 hw
    exact h.lengths l hl

theorem lengthWords_ne_nil (s : Shadow) : s.lengthWords ≠ [] := List.cons_ne_nil _ _

theorem Proper.infix_iff (h : s.Proper) :
    [')', ' '] <:+: spaced s.lengthWords ↔ ∃ l ∈ s.lengths.dropLast, l.toList.getLast? = some ')' := by
  rw [Text.infix_spaced_iff fun w hw => (h.isWord w hw).not_mem]
  show (∃ w ∈ s.lengths.dropLast.map String.toList, _) ↔ _
  simp only [List.mem_map, exists_exists_and_eq_and]

/-- The text has no blanks at its ends. -/
theorem Proper.trimChars_text (h : s.Proper) (hcss : s.css? = some css) :
    Text.trimChars css.toList = spaced (s.color.toList.map String.toList ++ s.lengthWords) := by
  rw [toList_of_css? hcss, List.map_append]
  refine Text.trimChars_of_ends ?_ ?_
  · cases hc : s.color with
    | none =>
      have hword := h.lengths s.offsetX List.mem_cons_self
      show ∀ c ∈ (spaced (s.offsetX.toList :: _)).head?, isBlank c = false
      rw [Text.head?_spaced hword.1]
      exact hword.head
    | some c =>
      have hhead : ∀ d ∈ c.toList.head?, isBlank d = false := (h.color c hc).elim (fun hw => hw.1.head) And.left
      have hne : c.toList ≠ [] := (h.color c hc).elim (fun hw => hw.1.1) fun hf he => by
        rw [he] at hf
        cases hf.2
      show ∀ d ∈ (spaced (c.toList :: _)).head?, isBlank d = false
      rwa [Text.head?_spaced hne]
  · have hword := h.lengths s.size (by simp [Shadow.lengths])
    have hlast : s.lengths.map String.toList =
        [s.offsetX.toList, s.offsetY.toList, s.blur.toList] ++ [s.size.toList] := rfl
    rw [hlast, ← List.append_assoc, Text.getLast?_spaced hword.1]
    exact hword.last

/-- Without a parenthesis that closes a colour, the first word is one unless it looks like a length. -/
theorem splitColor_lengthWords (h : s.Proper) (hoccurs : ¬ [')', ' '] <:+: spaced s.lengthWords) :
    splitColor (spaced s.lengthWords) =
      if isLength s.offsetX.toList then (none, s.lengthWords) else (some s.offsetX.toList, s.lengthWords.tail) :=
  splitColor_of_words h.isWord hoccurs

theorem Legible.readsBack (hlegible : s.Legible) (h : s.Proper) (hcss : s.css? = some css) : s.ReadsBack := by
  have hoccurs : ¬ [')', ' '] <:+: spaced s.lengthWords := fun hin => by
    obtain ⟨l, hl, hlast⟩ := h.infix_iff.1 hin
    exact hlegible.closes l hl hlast
  refine parse_eq_of_splitColor ?_
  rw [hcss, Option.getD_some, h.trimChars_text hcss]
  cases hc : s.color with
  | none =>
    show splitColor (spaced s.lengthWords) = (none, s.lengthWords)
    rw [splitColor_lengthWords h hoccurs, if_pos (hlegible.starts hc)]
  | some c =>
    show splitColor (spaced (c.toList :: s.lengthWords)) = (some c.toList, s.lengthWords)
    by_cases hclose : c.toList.getLast? = some ')'
    · rw [splitColor_of_function hclose s.lengthWords_ne_nil hoccurs, Text.words_spaced h.isWord]
    · obtain ⟨hword, hlength⟩ := (h.color c hc).resolve_right fun hf => hclose hf.2
      have hnone : ¬ [')', ' '] <:+: spaced (c.toList :: s.lengthWords) := by
        rw [Text.spaced_cons _ s.lengthWords_ne_nil, Text.infix_append_cons hword.not_mem]
        exact fun hor => hor.elim hclose hoccurs
      rw [splitColor_of_words (List.forall_mem_cons.2 ⟨hword, h.isWord⟩) hnone, hlength]
      rfl

theorem ReadsBack.color (hread : s.ReadsBack) (h : s.Proper) (hcss : s.css? = some css) :
    (splitColor (spaced (s.color.toList.map String.toList ++ s.lengthWords))).1.map String.ofList = s.color := by
  rw [← h.trimChars_text hcss]
  unfold ReadsBack at hread
  rw [hcss, Option.getD_some] at hread
  exact congrArg Shadow.color hread

/-- Where a length before the last one ends in a parenthesis, the text up to there is taken for the colour. -/
theorem not_infix_of_readsBack (h : s.Proper) (hcss : s.css? = some css) (hread : s.ReadsBack) :
    ¬ [')', ' '] <:+: spaced s.lengthWords := by
  intro hin
  obtain ⟨⟨x, y⟩, hlast⟩ := Option.ne_none_iff_exists'.1 fun hn => Text.breakOnLast?_eq_none_iff.1 hn hin
  have hcolor := hread.color h hcss
  cases hc : s.color with
  | none =>
    have hsplit : (splitColor (spaced s.lengthWords)).1 = some (x ++ [')']) := by
      unfold splitColor
      rw [hlast]
    have hread : (splitColor (spaced s.lengthWords)).1.map String.ofList = none := by rwa [hc] at hcolor
    rw [hsplit] at hread
    cases hread
  | some c =>
    have htext : spaced (c.toList :: s.lengthWords) = (c.toList ++ [' ']) ++ spaced s.lengthWords := by
      rw [Text.spaced_cons _ s.lengthWords_ne_nil, List.append_assoc]
      rfl
    have hsplit : (splitColor (spaced (c.toList :: s.lengthWords))).1 = some (c.toList ++ [' '] ++ x ++ [')']) := by
      unfold splitColor
      rw [htext, Text.breakOnLast?_append hlast]
    have hread : (splitColor (spaced (c.toList :: s.lengthWords))).1.map String.ofList = some c := by rwa [hc] at hcolor
    rw [hsplit] at hread
    have hlength := congrArg (fun t : String => t.toList.length) (Option.some.inj hread)
    simp at hlength

/-- **A shadow is read back exactly if it is legible.** -/
theorem readsBack_iff (h : s.Proper) (hcss : s.css? = some css) : s.ReadsBack ↔ s.Legible := by
  refine ⟨fun hread => ?_, fun hlegible => hlegible.readsBack h hcss⟩
  have hoccurs := not_infix_of_readsBack h hcss hread
  refine ⟨fun l hl hlast => hoccurs (h.infix_iff.2 ⟨l, hl, hlast⟩), fun hc => ?_⟩
  by_contra hstarts
  have hcolor := hread.color h hcss
  rw [hc] at hcolor
  have hread : (splitColor (spaced s.lengthWords)).1.map String.ofList = none := hcolor
  rw [splitColor_lengthWords h hoccurs, if_neg hstarts] at hread
  cases hread

end BoundPage.Shadow
