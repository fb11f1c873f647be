import Mathlib.Data.List.TakeWhile
import BoundPage.Integer
import BoundPage.Proofs.Keys
/-!
# Counting in 64 bits

What a step leaves is an integer of 64 bits again (`step_inRange`), and the text of such an integer is read back
(`leading?_toString`), but for the least one: a magnitude is read before its sign, and that of the least integer is
above the greatest one.
-/
namespace BoundPage

namespace Text

theorem not_isBlank_of_isDigit {c : Char} (h : isDigit c) : isBlank c = false := by
  unfold isDigit at h
  simp only [Bool.and_eq_true, decide_eq_true_eq] at h
  have hranges : ∀ r ∈ blankRanges, r.2 < 48 ∨ 57 < r.1 := by decide
  unfold isBlank
  rw [List.any_eq_false]
  intro r hr
  have := hranges r hr
  simp only [Bool.and_eq_true, decide_eq_true_eq]
  omega

theorem trimChars_of_not_blank {s : List Char} (h : ∀ c ∈ s, isBlank c = false) : trimChars s = s := by
  have hleft : ∀ {cs : List Char}, (∀ c ∈ cs, isBlank c = false) → cs.dropWhile isBlank = cs := fun hcs =>
    List.dropWhile_eq_self_iff.2 fun hlen => by rw [hcs _ (List.getElem_mem hlen)]; exact Bool.false_ne_true
  unfold trimChars trimRight trimLeft
  rw [hleft h, hleft fun c hc => h c (List.mem_reverse.1 hc), List.reverse_reverse]

theorem natOfDigits_toString (n : Nat) : natOfDigits (toString n).toList = n := by
  rw [Nat.toString_eq_ofList_toDigits, String.toList_ofList]
  exact Nat.ofDigitChars_toDigits (by omega) (by omega)

end Text

namespace Integer

theorem clip_inRange (n : Int) : InRange (clip n) := by
  unfold InRange clip bottom top
  omega

/-- **A step between bounds of 64 bits leaves an integer of 64 bits.** -/
theorem step_inRange {min? max? : Option Int} (hmin : ∀ lo ∈ min?, InRange lo) (hmax : ∀ hi ∈ max?, InRange hi)
    (value amount : Int) : InRange (step value amount min? max?) := by
  unfold step
  cases max? with
  | none => exact clip_inRange _
  | some hi =>
    have hlo : InRange (min?.getD 0) := by
      cases min? with
      | none => decide
      | some lo => exact hmin lo rfl
    dsimp only
    split
    · exact hlo
    · split
      · exact hmax hi rfl
      · exact clip_inRange _

/-! ## Wrapping -/

/-- What becomes of a number between two bounds: past the one it goes on at the other. -/
def wrapped (lo hi n : Int) : Int := if hi < n then lo else if n < lo then hi else n

theorem wrapped_between {lo hi : Int} (h : lo ≤ hi) (n : Int) : lo ≤ wrapped lo hi n ∧ wrapped lo hi n ≤ hi := by
  unfold wrapped
  split
  · omega
  · split <;> omega

theorem clip_of_inRange {n : Int} (h : InRange n) : clip n = n := by
  unfold InRange at h
  unfold clip
  omega

/-- The sum is clipped before it is compared. -/
theorem step_eq_wrapped (value amount : Int) (min? : Option Int) (hi : Int) :
    step value amount min? (some hi) = wrapped (min?.getD 0) hi (clip (value + amount)) := rfl

/-- A number above the 64 bits stays at the maximum if that is the greatest integer. -/
theorem wrapped_clip_of_top_lt {lo hi n : Int} (hle : lo ≤ hi) (hhi : hi = top) (hn : top < n) :
    wrapped lo hi (clip n) = hi := by
  unfold wrapped clip bottom
  unfold top at hhi hn ⊢
  split
  · omega
  · split <;> omega

theorem wrapped_clip_of_lt_bottom {lo hi n : Int} (hle : lo ≤ hi) (hlo : lo = bottom) (hn : n < bottom) :
    wrapped lo hi (clip n) = lo := by
  unfold wrapped clip top
  unfold bottom at hlo hn ⊢
  split
  · omega
  · split <;> omega

/-- Clipping is of no consequence where a number past the 64 bits is also past the bound. -/
theorem wrapped_clip {lo hi n : Int} (hlo : InRange lo) (hhi : InRange hi) (htop : hi = top → n ≤ top)
    (hbottom : lo = bottom → bottom ≤ n) : wrapped lo hi (clip n) = wrapped lo hi n := by
  unfold InRange at hlo hhi
  by_cases habove : top < n
  · have hclip : clip n = top := by unfold clip; omega
    have hlt : hi < top := by omega
    unfold wrapped
    rw [hclip, if_pos hlt, if_pos (by omega)]
  · by_cases hbelow : n < bottom
    · have hclip : clip n = bottom := by unfold clip bottom at *; omega
      have hlt : bottom < lo := by omega
      unfold wrapped
      rw [hclip, if_neg (by omega), if_pos hlt, if_neg (by omega), if_pos (by omega)]
    · rw [clip_of_inRange ⟨by omega, by omega⟩]

/-- **When a sum wraps.**  Between bounds of 64 bits, where a missing minimum is 0, a step wraps the sum of all integers
unless the sum leaves the 64 bits on the side of a bound that is the last integer there: then it stays at that bound.  It
never leaves the bounds, and without a maximum it is the sum clipped to 64 bits. -/
theorem step_wraps_iff {min? : Option Int} {hi : Int} (hmin : InRange (min?.getD 0)) (hmax : InRange hi)
    (hle : min?.getD 0 ≤ hi) (value amount : Int) :
    (step value amount min? (some hi) = wrapped (min?.getD 0) hi (value + amount) ↔
      min?.getD 0 = hi ∨ (hi = top → value + amount ≤ top) ∧ (min?.getD 0 = bottom → bottom ≤ value + amount)) ∧
    (hi = top → top < value + amount → step value amount min? (some hi) = hi) ∧
    (min?.getD 0 = bottom → value + amount < bottom → step value amount min? (some hi) = min?.getD 0) ∧
    (min?.getD 0 ≤ step value amount min? (some hi) ∧ step value amount min? (some hi) ≤ hi) ∧
    step value amount min? none = clip (value + amount) := by
  have hnone : step value amount min? none = clip (value + amount) := rfl
  rw [step_eq_wrapped]
  generalize min?.getD 0 = lo at *
  generalize value + amount = n at *
  refine ⟨⟨fun heq => ?_, ?_⟩, wrapped_clip_of_top_lt hle, wrapped_clip_of_lt_bottom hle, wrapped_between hle _, hnone⟩
  · by_contra hno
    rw [not_or, not_and_or, Classical.not_imp, Classical.not_imp] at hno
    obtain ⟨hne, ⟨hhi, hn⟩ | ⟨hlo, hn⟩⟩ := hno
    · have hstays := wrapped_clip_of_top_lt hle hhi (by omega : top < n)
      have hwraps : wrapped lo hi n = lo := if_pos (by omega)
      omega
    · have hstays := wrapped_clip_of_lt_bottom hle hlo (by omega : n < bottom)
      have hwraps : wrapped lo hi n = hi := by
        unfold wrapped
        rw [if_neg (by omega), if_pos (by omega)]
      omega
  · rintro (rfl | ⟨htop, hbottom⟩)
    · have := wrapped_between (Int.le_refl lo) (clip n)
      have := wrapped_between (Int.le_refl lo) n
      omega
    · exact wrapped_clip hmin hmax htop hbottom

theorem step_wraps_iff_top : InRange ((none : Option Int).getD 0) ∧ InRange top ∧ (none : Option Int).getD 0 ≤ top ∧
    step 9223372036854775800 7 none (some top) = wrapped 0 top 9223372036854775807 ∧
      step 9223372036854775800 8 none (some top) = top := by
  have hmin : InRange ((none : Option Int).getD 0) := by decide
  have hmax : InRange top := by decide
  have hle : (none : Option Int).getD 0 ≤ top := by decide
  have hfits := (step_wraps_iff hmin hmax hle 9223372036854775800 7).1
  have hstays := (step_wraps_iff hmin hmax hle 9223372036854775800 8).2.1
  exact ⟨hmin, hmax, hle, hfits.2 (.inr (by decide)), hstays rfl (by decide)⟩

/-- **A counter that may count up to the greatest integer stays there** instead of going on at its minimum. -/
theorem not_step_wraps_top : InRange 0 ∧ InRange top ∧ (0 : Int) ≤ top ∧
    step top 1 (some 0) (some top) = top ∧ wrapped 0 top (top + 1) = 0 ∧
      step top 1 (some 0) (some top) ≠ wrapped 0 top (top + 1) := by
  decide

/-! ## Reading back -/

/-- What is read from a sign and the digits of a number. -/
def signed? (negative : Bool) (n : Nat) : Option Int :=
  if (n : Int) ≤ top then some (if negative then -(n : Int) else n) else none

theorem leading?_of_digits {s : String} {negative : Bool} {n : Nat} (hblank : ∀ c ∈ s.toList, Text.isBlank c = false)
    (hsplit : splitSign s.toList = (negative, (toString n).toList)) : leading? s = signed? negative n := by
  have hdigits : (toString n).toList.takeWhile Text.isDigit = (toString n).toList :=
    List.takeWhile_eq_self_iff.2 fun c hc => Text.isDigit_of_mem_repr hc
  have hne : (toString n).toList.isEmpty = false := by
    rw [List.isEmpty_eq_false_iff]
    exact (Element.isIndex_iff.1 (Element.isIndex_toString n)).1
  unfold leading?
  simp only [Text.trimChars_of_not_blank hblank, hsplit, hdigits, hne, Text.natOfDigits_toString]
  rfl

theorem splitSign_of_digits {s : List Char} (h : ∀ c ∈ s, Text.isDigit c) : splitSign s = (false, s) := by
  unfold splitSign
  split
  · exact absurd (h _ List.mem_cons_self) (by decide)
  · exact absurd (h _ List.mem_cons_self) (by decide)
  · rfl

theorem leading?_ofNat (n : Nat) : leading? (toString (n : Int)) = signed? false n :=
  leading?_of_digits (fun _ hc => Text.not_isBlank_of_isDigit (Text.isDigit_of_mem_repr hc))
    (splitSign_of_digits fun _ hc => Text.isDigit_of_mem_repr hc)

theorem leading?_negSucc (n : Nat) : leading? (toString (Int.negSucc n)) = signed? true (n + 1) := by
  have htext : (toString (Int.negSucc n)).toList = '-' :: (toString (n + 1)).toList := by
    show ("-" ++ toString (n + 1)).toList = _
    rw [String.toList_append]
    rfl
  refine leading?_of_digits (fun c hc => ?_) (by rw [htext]; rfl)
  rw [htext, List.mem_cons] at hc
  rcases hc with rfl | hc
  · decide
  · exact Text.not_isBlank_of_isDigit (Text.isDigit_of_mem_repr hc)

/-- **The text of an integer of 64 bits is read back, but for the least one.** -/
theorem leading?_toString {n : Int} (h : InRange n) : leading? (toString n) = if n = bottom then none else some n := by
  unfold InRange bottom top at h
  cases n with
  | ofNat m =>
    rw [Int.ofNat_eq_natCast] at h ⊢
    rw [leading?_ofNat]
    unfold signed? bottom top
    rw [if_pos (by omega), if_neg Bool.false_ne_true, if_neg (by omega)]
  | negSucc m =>
    rw [leading?_negSucc]
    unfold signed? bottom top
    by_cases hm : Int.negSucc m = -9223372036854775808
    · rw [if_pos hm, if_neg (by omega)]
    · rw [if_neg hm, if_pos (by omega), if_pos rfl]
      rfl

end Integer
end BoundPage
