import Mathlib.Data.List.DropRight
import Mathlib.Data.List.Infix
import BoundPage.Proofs.Integer
/-!
# Words with blanks between them

A text that is put together from words is taken apart again: its words are those that it was made of (`words_spaced`),
and a closing parenthesis before a blank is found in it exactly where a word ends in one (`infix_spaced_iff`).  The last
occurrence of a piece is found whatever stands before it (`breakOnLast?_append`).
-/
namespace BoundPage

namespace Text

/-! ## The first and the last occurrence of a piece -/

theorem breakOn?_eq_none_iff {piece : List Char} : ∀ {s : List Char}, breakOn? piece s = none ↔ ¬ piece <:+: s
  | [] => by
    unfold breakOn?
    cases piece <;> simp
  | c :: s => by
    unfold breakOn?
    rw [List.infix_cons_iff, not_or, ← breakOn?_eq_none_iff]
    cases hbegins : piece.isPrefixOf? (c :: s) with
    | some rest =>
      rw [List.isPrefixOf?_eq_some_iff_append_eq] at hbegins
      exact iff_of_false (Option.some_ne_none _) fun h => h.1 ⟨rest, hbegins⟩
    | none =>
      have hnot : ¬ piece <+: c :: s := by
        rintro ⟨rest, hrest⟩
        rw [← List.isPrefixOf?_eq_some_iff_append_eq, hbegins] at hrest
        cases hrest
      simp [hnot]

/-- **These are the parts of a text beside the first occurrence of a piece**: no occurrence begins earlier. -/
structure FirstBetween (piece s a b : List Char) : Prop where
  eq_append : s = a ++ piece ++ b
  first : ∀ a' b', s = a' ++ piece ++ b' → a.length ≤ a'.length

theorem firstBetween_of_breakOn? {piece : List Char} : ∀ {s a b : List Char}, breakOn? piece s = some (a, b) →
    FirstBetween piece s a b
  | [], a, b, h => by
    have hs := eq_append_of_breakOn? h
    refine ⟨hs, fun a' b' hs' => ?_⟩
    have hlength := congrArg List.length hs
    simp only [List.length_append, List.length_nil] at hlength
    omega
  | c :: s, a, b, h => by
    refine ⟨eq_append_of_breakOn? h, fun a' b' hs' => ?_⟩
    unfold breakOn? at h
    split at h
    · obtain ⟨rfl, -⟩ := Prod.ext_iff.1 (Option.some.inj h)
      exact Nat.zero_le _
    · next hnone =>
      obtain ⟨⟨x, y⟩, hxy, he⟩ := Option.map_eq_some_iff.1 h
      obtain ⟨rfl, -⟩ := Prod.ext_iff.1 he
      cases a' with
      | nil =>
        -- The piece does not stand at the beginning.
        rw [List.nil_append, eq_comm, ← List.isPrefixOf?_eq_some_iff_append_eq, hnone] at hs'
        cases hs'
      | cons d a' =>
        have hrest := (firstBetween_of_breakOn? hxy).first a' b' (List.cons.inj hs').2
        simp only [List.length_cons]
        omega

/-- What stands behind a text does not change the first occurrence in it. -/
theorem breakOn?_append {piece : List Char} : ∀ {s a b : List Char}, breakOn? piece s = some (a, b) →
    ∀ t, breakOn? piece (s ++ t) = some (a, b ++ t)
  | [], a, b, h, t => by
    unfold breakOn? at h
    split at h
    · next hempty =>
      obtain rfl := List.isEmpty_iff.1 hempty
      obtain ⟨rfl, rfl⟩ := Prod.ext_iff.1 (Option.some.inj h)
      cases t <;> rfl
    · cases h
  | c :: s, a, b, h, t => by
    unfold breakOn? at h
    rw [List.cons_append, breakOn?.eq_def]
    dsimp only
    split at h
    · next rest hrest =>
      obtain ⟨rfl, rfl⟩ := Prod.ext_iff.1 (Option.some.inj h)
      rw [List.isPrefixOf?_eq_some_iff_append_eq] at hrest
      have hbegins : piece.isPrefixOf? (c :: (s ++ t)) = some (rest ++ t) := by
        rw [List.isPrefixOf?_eq_some_iff_append_eq, ← List.append_assoc, hrest, List.cons_append]
      rw [hbegins]
    · next hnone =>
      obtain ⟨⟨x, y⟩, hxy, he⟩ := Option.map_eq_some_iff.1 h
      obtain ⟨rfl, rfl⟩ := Prod.ext_iff.1 he
      -- The piece is no longer than the text in which it occurs later on.
      have hlength : piece.length ≤ (c :: s).length := by
        rw [eq_append_of_breakOn? hxy]
        simp
        omega
      have hbegins : piece.isPrefixOf? (c :: (s ++ t)) = none := by
        rw [Option.eq_none_iff_forall_ne_some]
        intro rest hrest
        rw [List.isPrefixOf?_eq_some_iff_append_eq] at hrest
        obtain ⟨left, hleft⟩ := List.prefix_of_prefix_length_le ⟨rest, hrest⟩
          (List.prefix_append (c :: s) t) hlength
        rw [← List.isPrefixOf?_eq_some_iff_append_eq, hnone] at hleft
        cases hleft
      rw [hbegins, breakOn?_append hxy]
      rfl

theorem breakOnLast?_eq_none_iff {piece s : List Char} : breakOnLast? piece s = none ↔ ¬ piece <:+: s := by
  unfold breakOnLast?
  rw [Option.map_eq_none_iff, breakOn?_eq_none_iff, List.reverse_infix]

/-- What stands before a text does not change the last occurrence in it. -/
theorem breakOnLast?_append {piece s a b : List Char} (h : breakOnLast? piece s = some (a, b)) (t : List Char) :
    breakOnLast? piece (t ++ s) = some (t ++ a, b) := by
  unfold breakOnLast? at h ⊢
  obtain ⟨⟨x, y⟩, hxy, he⟩ := Option.map_eq_some_iff.1 h
  obtain ⟨rfl, rfl⟩ := Prod.ext_iff.1 he
  rw [List.reverse_append, breakOn?_append hxy]
  simp

/-- A piece that does not occur again is the last one. -/
theorem breakOnLast?_of_not_infix {piece b : List Char} (h : ¬ piece <:+: (piece ++ b).tail) :
    breakOnLast? piece (piece ++ b) = some ([], b) := by
  cases hlast : breakOnLast? piece (piece ++ b) with
  | none => exact absurd (List.prefix_append piece b).isInfix (breakOnLast?_eq_none_iff.1 hlast)
  | some parts =>
    obtain ⟨x, y⟩ := parts
    have hsplit := eq_append_of_breakOnLast? hlast
    cases x with
    | nil =>
      rw [List.nil_append] at hsplit
      rw [List.append_cancel_left hsplit]
    | cons c x => exact absurd ⟨x, y, by rw [hsplit]; rfl⟩ h

/-! ## Words -/

theorem runs_append {w : List Char} (h : ∀ c ∈ w, isBlank c = false) (s : List Char) :
    ∀ run, runs run (w ++ s) = runs (w.reverse ++ run) s := by
  induction w with
  | nil => exact fun _ => rfl
  | cons c w ih =>
    obtain ⟨hc, hw⟩ := List.forall_mem_cons.1 h
    intro run
    rw [List.cons_append, runs, if_neg (by rw [hc]; exact Bool.false_ne_true), ih hw]
    simp

/-- Not empty, and without blanks. -/
def IsWord (w : List Char) : Prop := w ≠ [] ∧ ∀ c ∈ w, isBlank c = false

instance : DecidablePred IsWord := fun w => decidable_of_iff (w ≠ [] ∧ w.all fun c => !isBlank c) (by simp [IsWord])

theorem IsWord.head {w : List Char} (h : IsWord w) : ∀ c ∈ w.head?, isBlank c = false :=
  fun c hc => h.2 c (List.mem_of_mem_head? hc)

theorem IsWord.last {w : List Char} (h : IsWord w) : ∀ c ∈ w.getLast?, isBlank c = false :=
  fun c hc => h.2 c (List.mem_of_mem_getLast? hc)

theorem IsWord.not_mem {w : List Char} (h : IsWord w) : ' ' ∉ w := fun hw => by
  have := h.2 ' ' hw
  exact absurd this (by decide)

theorem IsWord.words {w : List Char} (h : IsWord w) : words w = [w] := by
  have hruns := runs_append h.2 [] []
  rw [List.append_nil, List.append_nil] at hruns
  unfold Text.words
  rw [hruns, runs, if_neg (by simpa using h.1), List.reverse_reverse]

theorem IsWord.words_append {w : List Char} (h : IsWord w) (s : List Char) :
    Text.words (w ++ ' ' :: s) = w :: Text.words s := by
  unfold Text.words
  rw [runs_append h.2, List.append_nil, runs, if_pos (by decide), if_neg (by simpa using h.1), List.reverse_reverse]

/-- Texts with a blank between each two. -/
def spaced (ws : List (List Char)) : List Char := [' '].intercalate ws

theorem spaced_cons (w : List Char) {ws : List (List Char)} (h : ws ≠ []) : spaced (w :: ws) = w ++ ' ' :: spaced ws := by
  unfold spaced
  rw [List.intercalate_cons_of_ne_nil h]
  simp

theorem head?_spaced {w : List Char} (h : w ≠ []) (ws : List (List Char)) : (spaced (w :: ws)).head? = w.head? := by
  cases ws with
  | nil => simp [spaced]
  | cons v ws => rw [spaced_cons w (List.cons_ne_nil v ws), List.head?_append_of_ne_nil w h]

theorem getLast?_spaced {w : List Char} (h : w ≠ []) : ∀ ws : List (List Char),
    (spaced (ws ++ [w])).getLast? = w.getLast?
  | [] => by simp [spaced]
  | v :: ws => by
    have hne : spaced (ws ++ [w]) ≠ [] := fun he => by
      have hlast := getLast?_spaced h ws
      rw [he] at hlast
      exact h (List.getLast?_eq_none_iff.1 hlast.symm)
    rw [List.cons_append, spaced_cons v (by simp), List.getLast?_append_of_ne_nil v (List.cons_ne_nil _ _),
      List.getLast?_cons_of_ne_nil hne, getLast?_spaced h ws]

theorem words_spaced : ∀ {ws : List (List Char)}, (∀ w ∈ ws, IsWord w) → words (spaced ws) = ws
  | [], _ => rfl
  | [w], h => by
    rw [show spaced [w] = w by simp [spaced]]
    exact (h w List.mem_cons_self).words
  | w :: v :: ws, h => by
    obtain ⟨hw, hws⟩ := List.forall_mem_cons.1 h
    rw [spaced_cons w (List.cons_ne_nil v ws), hw.words_append, words_spaced hws]

/-- A blank character that stands in no word closes a piece only behind a word. -/
theorem infix_append_cons {x y : List Char} (hx : ' ' ∉ x) :
    [')', ' '] <:+: x ++ ' ' :: y ↔ x.getLast? = some ')' ∨ [')', ' '] <:+: y := by
  constructor
  · rintro ⟨a, b, h⟩
    rw [List.append_assoc, List.append_eq_append_iff] at h
    rcases h with ⟨t, hxt, ht⟩ | ⟨t, -, ht⟩
    · match t, ht with
      | [], ht => cases ht
      | [c], ht =>
        obtain rfl := (List.cons.inj ht).1
        exact .inl (by simp [hxt])
      | c :: d :: t, ht =>
        obtain rfl := (List.cons.inj (List.cons.inj ht).2).1
        exact absurd (by simp [hxt]) hx
    · match t, ht with
      | [], ht => cases ht
      | c :: t, ht => exact .inr ⟨t, b, (List.append_assoc ..).trans (List.cons.inj ht).2.symm⟩
  · rintro (h | ⟨a, b, h⟩)
    · obtain ⟨z, rfl⟩ := List.getLast?_eq_some_iff.1 h
      exact ⟨z, y, by simp⟩
    · exact ⟨x ++ ' ' :: a, b, by rw [← h]; simp⟩

/-- **A closing parenthesis before a blank** is found between words exactly if one of them, but the last, ends in it. -/
theorem infix_spaced_iff : ∀ {ws : List (List Char)}, (∀ w ∈ ws, ' ' ∉ w) →
    ([')', ' '] <:+: spaced ws ↔ ∃ w ∈ ws.dropLast, w.getLast? = some ')')
  | [], _ => by simp [spaced]
  | [w], h => by
    have hnot : ¬ [')', ' '] <:+: w := fun hw => h w List.mem_cons_self (hw.subset (by simp))
    simpa [spaced] using hnot
  | w :: v :: ws, h => by
    obtain ⟨hw, hws⟩ := List.forall_mem_cons.1 h
    rw [spaced_cons w (List.cons_ne_nil v ws), infix_append_cons hw, infix_spaced_iff hws,
      List.dropLast_cons_of_ne_nil (List.cons_ne_nil v ws)]
    simp

/-! ## Trimming -/

theorem trimLeft_eq_self {s : List Char} (h : ∀ c ∈ s.head?, isBlank c = false) : trimLeft s = s := by
  cases s with
  | nil => rfl
  | cons c s => exact List.dropWhile_cons_of_neg (by rw [h c rfl]; exact Bool.false_ne_true)

theorem trimRight_eq_self {s : List Char} (h : ∀ c ∈ s.getLast?, isBlank c = false) : trimRight s = s := by
  have hreverse : s.reverse.dropWhile isBlank = s.reverse := trimLeft_eq_self (by rwa [List.head?_reverse])
  unfold trimRight
  rw [hreverse, List.reverse_reverse]

theorem trimChars_of_ends {s : List Char} (hfirst : ∀ c ∈ s.head?, isBlank c = false)
    (hlast : ∀ c ∈ s.getLast?, isBlank c = false) : trimChars s = s := by
  unfold trimChars
  rw [trimLeft_eq_self hfirst, trimRight_eq_self hlast]

/-- What is left has no blank at either end. -/
theorem ends_trimChars (s : List Char) : (∀ c ∈ (trimChars s).head?, isBlank c = false) ∧
    ∀ c ∈ (trimChars s).getLast?, isBlank c = false := by
  have hhead : ∀ {t : List Char} {c : Char}, c ∈ (t.dropWhile isBlank).head? → isBlank c = false := fun {t c} hc => by
    have hfirst := List.head?_dropWhile_not isBlank t
    rw [Option.mem_def.1 hc] at hfirst
    exact hfirst
  constructor
  · intro c hc
    obtain ⟨rest, hrest⟩ : trimChars s <+: trimLeft s := List.rdropWhile_prefix isBlank (trimLeft s)
    refine hhead (t := s) (?_ : c ∈ (trimLeft s).head?)
    rw [← hrest, List.head?_append, Option.mem_def.1 hc]
    rfl
  · intro c hc
    unfold trimChars trimRight at hc
    rw [List.getLast?_reverse] at hc
    exact hhead hc

theorem trimChars_trimChars (s : List Char) : trimChars (trimChars s) = trimChars s :=
  trimChars_of_ends (ends_trimChars s).1 (ends_trimChars s).2

theorem trimChars_trimLeft (s : List Char) : trimChars (trimLeft s) = trimChars s := by
  unfold trimChars trimLeft
  rw [List.dropWhile_idempotent]

/-- A text whose end is no blank is trimmed in front of it only. -/
theorem trimChars_append {s t : List Char} (ht : t ≠ []) (hfirst : ∀ c ∈ t.head?, isBlank c = false)
    (hlast : ∀ c ∈ t.getLast?, isBlank c = false) : trimChars (s ++ t) = trimLeft s ++ t := by
  have hleft : trimLeft (s ++ t) = trimLeft s ++ t := by
    unfold trimLeft
    rw [List.dropWhile_append]
    split
    · next h =>
      rw [List.isEmpty_iff.1 h]
      exact trimLeft_eq_self hfirst
    · rfl
  unfold trimChars
  rw [hleft, trimRight_eq_self (by rwa [List.getLast?_append_of_ne_nil _ ht])]

theorem trimChars_append_blank {c : Char} (hc : isBlank c) (s : List Char) : trimChars (s ++ [c]) = trimChars s := by
  unfold trimChars trimLeft
  rw [List.dropWhile_append]
  split
  · next h => rw [List.isEmpty_iff.1 h, List.dropWhile_cons_of_pos hc, List.dropWhile_nil]
  · unfold trimRight
    rw [List.reverse_append, List.reverse_singleton, List.singleton_append, List.dropWhile_cons_of_pos hc]

theorem trim_trim (s : String) : trim (trim s) = trim s := by
  unfold trim
  rw [String.toList_ofList, trimChars_trimChars]

end Text
end BoundPage
