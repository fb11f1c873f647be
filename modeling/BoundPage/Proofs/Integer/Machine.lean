import Mathlib.Data.Nat.Digits.Defs
import BoundPage.Proofs.Integer
/-!
# Counting in machine words

An integer of 64 signed bits is a word, and sums, products and negations of words go round at the ends.  A text is read
by its bytes, and cut at offsets in bytes, which has to be between two characters.  Both are done here in that way; the
cuts are never inside a character (`Word.read_eq`), and no word goes round, as every magnitude is read with a check and
the words it bounds are closed under negation (`Integer.leading?_eq_some_iff`, `Word.toInt_step`).
-/
namespace BoundPage

/-! ## What a text is read as -/

namespace Integer

/-- **A text begins with a signed number**: at most one sign, a digit at least, and then no further digit. -/
structure Begins (s sign digits rest : List Char) : Prop where
  eq_append : s = sign ++ digits ++ rest
  sign_mem : sign ∈ [[], ['-'], ['+']]
  digits_ne : digits ≠ []
  all_digits : ∀ c ∈ digits, Text.isDigit c
  longest : ∀ c ∈ rest.head?, ¬ Text.isDigit c

/-- The decimal value of some digits, the last one counting once. -/
def magnitude (digits : List Char) : Nat := Nat.ofDigits 10 (digits.map Text.digitValue).reverse

theorem natOfDigits_eq (digits : List Char) : Text.natOfDigits digits = magnitude digits := by
  unfold Text.natOfDigits magnitude
  rw [Nat.ofDigits_eq_foldr, List.foldr_reverse, List.foldl_map]
  congr 1
  funext n c
  exact Nat.add_comm _ _

/-- The number that a sign and digits stand for. -/
def signedValue (sign digits : List Char) : Int := if sign = ['-'] then -(magnitude digits : Int) else magnitude digits

theorem exists_splitSign (s : List Char) : ∃ sign ∈ [[], ['-'], ['+']], s = sign ++ (splitSign s).2 ∧
    (splitSign s).1 = decide (sign = ['-']) := by
  unfold splitSign
  split
  · exact ⟨['-'], by simp, rfl, rfl⟩
  · exact ⟨['+'], by simp, rfl, rfl⟩
  · exact ⟨[], by simp, rfl, rfl⟩

/-- A sign is split off from before a digit. -/
theorem splitSign_append {sign s : List Char} (hsign : sign ∈ [[], ['-'], ['+']]) (hs : ∀ c ∈ s.head?, Text.isDigit c) :
    splitSign (sign ++ s) = (decide (sign = ['-']), s) := by
  simp only [List.mem_cons, List.not_mem_nil, or_false] at hsign
  rcases hsign with rfl | rfl | rfl
  · rw [List.nil_append]
    unfold splitSign
    split
    · exact absurd (hs '-' rfl) (by decide)
    · exact absurd (hs '+' rfl) (by decide)
    · rfl
  · rfl
  · rfl

theorem Begins.takeWhile {s sign digits rest : List Char} (h : Begins s sign digits rest) :
    (splitSign s).1 = decide (sign = ['-']) ∧ (splitSign s).2.takeWhile Text.isDigit = digits := by
  have hhead : ∀ c ∈ (digits ++ rest).head?, Text.isDigit c := by
    intro c hc
    obtain ⟨d, ds, hds⟩ := List.exists_cons_of_ne_nil h.digits_ne
    rw [hds, List.cons_append, List.head?_cons, Option.mem_some_iff] at hc
    exact h.all_digits c (by rw [hds, hc]; exact List.mem_cons_self)
  have hrest : rest.takeWhile Text.isDigit = [] := by
    cases rest with
    | nil => rfl
    | cons c rest => exact List.takeWhile_cons_of_neg (h.longest c rfl)
  rw [h.eq_append, List.append_assoc, splitSign_append h.sign_mem hhead]
  refine ⟨rfl, ?_⟩
  rw [List.takeWhile_append_of_pos h.all_digits, hrest, List.append_nil]

theorem exists_begins {s : List Char} (h : (splitSign s).2.takeWhile Text.isDigit ≠ []) :
    ∃ sign rest, Begins s sign ((splitSign s).2.takeWhile Text.isDigit) rest := by
  obtain ⟨sign, hsign, hs, -⟩ := exists_splitSign s
  refine ⟨sign, (splitSign s).2.dropWhile Text.isDigit, ?_, hsign, h, ?_, ?_⟩
  · rw [List.append_assoc, List.takeWhile_append_dropWhile]
    exact hs
  · intro c hc
    exact List.mem_takeWhile_imp hc
  · intro c hc hdigit
    have hnot := List.head?_dropWhile_not Text.isDigit (splitSign s).2
    rw [Option.mem_def.1 hc] at hnot
    simp only [hdigit] at hnot
    cases hnot

/-- **What a text is read as.**  It is an integer exactly if it begins with a signed number when the blanks are gone, of
a magnitude that is not above the greatest word; and then it is the value of that sign and all digits that follow. -/
theorem leading?_eq_some_iff {text : String} {n : Int} : leading? text = some n ↔
    ∃ sign digits rest, Begins (Text.trimChars text.toList) sign digits rest ∧ n = signedValue sign digits ∧
      (magnitude digits : Int) ≤ top := by
  have hread : ∀ {sign digits rest}, Begins (Text.trimChars text.toList) sign digits rest →
      leading? text = if (magnitude digits : Int) ≤ top then some (signedValue sign digits) else none := by
    intro sign digits rest hb
    obtain ⟨hsign, hdigits⟩ := hb.takeWhile
    have hne : digits.isEmpty = false := List.isEmpty_eq_false_iff.2 hb.digits_ne
    unfold leading? signedValue
    simp only [hsign, hdigits, hne, natOfDigits_eq, decide_eq_true_eq, Bool.false_eq_true, if_false]
  constructor
  · intro h
    have hne : (splitSign (Text.trimChars text.toList)).2.takeWhile Text.isDigit ≠ [] := by
      intro hempty
      unfold leading? at h
      simp only [hempty, List.isEmpty_nil, if_true] at h
      cases h
    obtain ⟨sign, rest, hb⟩ := exists_begins hne
    rw [hread hb] at h
    split at h
    · next hle => exact ⟨sign, _, rest, hb, (Option.some.inj h).symm, hle⟩
    · cases h
  · rintro ⟨sign, digits, rest, hb, rfl, hle⟩
    rw [hread hb, if_pos hle]

/-- **No magnitude is above the greatest word.** -/
theorem leading?_bounds {text : String} {n : Int} (h : leading? text = some n) : -top ≤ n ∧ n ≤ top := by
  obtain ⟨sign, digits, rest, -, rfl, hle⟩ := leading?_eq_some_iff.1 h
  unfold signedValue
  split <;> omega

end Integer

/-! ## Bytes -/

namespace Text

/-- The bytes of a text in UTF-8. -/
def bytes (s : List Char) : List UInt8 := s.flatMap String.utf8EncodeChar

/-- An offset in bytes that is inside a character or past the end. -/
structure NoBoundary where
  offset : Nat
deriving DecidableEq, Repr

/-- The parts of a text before and after an offset in bytes. -/
def splitAtByte : Nat → List Char → Except NoBoundary (List Char × List Char)
  | 0, s => .ok ([], s)
  | n + 1, [] => .error ⟨n + 1⟩
  | n + 1, c :: s =>
    if c.utf8Size ≤ n + 1 then (splitAtByte (n + 1 - c.utf8Size) s).map fun parts => (c :: parts.1, parts.2)
    else .error ⟨n + 1⟩

def isDigitByte (b : UInt8) : Bool := decide (48 ≤ b) && decide (b ≤ 57)

theorem utf8EncodeChar_ascii {c : Char} (h : c.toNat < 128) : String.utf8EncodeChar c = [UInt8.ofNat c.toNat] := by
  unfold String.utf8EncodeChar
  exact if_pos (Nat.le_of_lt_succ h)

/-- Every other character begins with a greater byte. -/
theorem utf8EncodeChar_high {c : Char} (h : ¬ c.toNat < 128) :
    ∃ b bs, String.utf8EncodeChar c = b :: bs ∧ 128 ≤ b.toNat := by
  have hlow : ¬ c.val.toNat ≤ 127 := fun hle => h (Nat.lt_succ_of_le hle)
  unfold String.utf8EncodeChar
  simp only [if_neg hlow]
  split
  · refine ⟨_, _, rfl, ?_⟩
    rw [UInt8.toNat_ofNat']
    omega
  · split
    · refine ⟨_, _, rfl, ?_⟩
      rw [UInt8.toNat_ofNat']
      omega
    · refine ⟨_, _, rfl, ?_⟩
      rw [UInt8.toNat_ofNat']
      omega

theorem ascii_of_isDigit {c : Char} (h : isDigit c) : c.toNat < 128 := by
  unfold isDigit at h
  simp only [Bool.and_eq_true, decide_eq_true_eq] at h
  omega

/-- **The first byte is an ASCII character exactly if the first character is it.** -/
theorem head?_bytes {b : UInt8} (hb : b.toNat < 128) (c : Char) (s : List Char) :
    (bytes (c :: s)).head? = some b ↔ c.toNat = b.toNat := by
  rw [bytes, List.flatMap_cons]
  by_cases hc : c.toNat < 128
  · rw [utf8EncodeChar_ascii hc, List.singleton_append, List.head?_cons, Option.some_inj, ← UInt8.toNat_inj,
      UInt8.toNat_ofNat']
    omega
  · obtain ⟨b', bs, he, hb'⟩ := utf8EncodeChar_high hc
    rw [he, List.cons_append, List.head?_cons, Option.some_inj]
    constructor
    · rintro rfl
      omega
    · omega

/-- **The first byte that is no digit stands behind as many bytes as there are digits.** -/
theorem findIdx_bytes : ∀ s : List Char,
    (bytes s).findIdx (fun b => !isDigitByte b) = (s.takeWhile isDigit).length
  | [] => rfl
  | c :: s => by
    rw [bytes, List.flatMap_cons]
    by_cases hc : c.toNat < 128
    · have hbyte : isDigitByte (UInt8.ofNat c.toNat) = isDigit c := by
        unfold isDigitByte isDigit
        simp only [UInt8.le_iff_toNat_le, UInt8.toNat_ofNat', Nat.mod_eq_of_lt (show c.toNat < 256 by omega)]
        rfl
      rw [utf8EncodeChar_ascii hc, List.singleton_append, List.findIdx_cons, hbyte]
      cases hd : isDigit c with
      | true =>
        rw [List.takeWhile_cons_of_pos hd, List.length_cons, ← findIdx_bytes s]
        rfl
      | false =>
        rw [List.takeWhile_cons_of_neg (by simp [hd])]
        rfl
    · obtain ⟨b, bs, he, hb⟩ := utf8EncodeChar_high hc
      have hbyte : isDigitByte b = false := by
        unfold isDigitByte
        simp only [UInt8.le_iff_toNat_le, Bool.and_eq_false_iff, decide_eq_false_iff_not]
        right
        show ¬ b.toNat ≤ 57
        omega
      have hd : ¬ isDigit c := fun hd => hc (ascii_of_isDigit hd)
      rw [he, List.cons_append, List.findIdx_cons, hbyte, List.takeWhile_cons_of_neg hd]
      rfl

/-- **ASCII characters are cut off at their number.** -/
theorem splitAtByte_append {b : List Char} : ∀ {a : List Char}, (∀ c ∈ a, c.toNat < 128) →
    splitAtByte a.length (a ++ b) = .ok (a, b)
  | [], _ => by cases b <;> rfl
  | c :: a, h => by
    obtain ⟨hc, ha⟩ := List.forall_mem_cons.1 h
    have hsize : c.utf8Size = 1 := by
      rw [← String.length_utf8EncodeChar, utf8EncodeChar_ascii hc]
      rfl
    rw [List.length_cons, List.cons_append, splitAtByte, hsize, if_pos (by omega), Nat.add_sub_cancel,
      splitAtByte_append ha]
    rfl

end Text

/-! ## Words -/

namespace Word
open Text

/-- An integer as a word, if it is one. -/
def checked (n : Int) : Option Int64 := if Integer.InRange n then some (.ofInt n) else none

/-- A further digit behind a number; neither the product nor the sum may leave the words. -/
def addDigit? (n : Int64) (c : Char) : Option Int64 := do
  let tens ← checked (n.toInt * 10)
  checked (tens.toInt + digitValue c)

def magnitude? (digits : List Char) : Option Int64 := digits.foldlM addDigit? 0

/-- The sign that the first byte is, and what is behind it. -/
def splitSign (s : List Char) : Except NoBoundary (Bool × List Char) :=
  if (bytes s).head? = some 45 then (splitAtByte 1 s).map fun parts => (true, parts.2)
  else if (bytes s).head? = some 43 then (splitAtByte 1 s).map fun parts => (false, parts.2)
  else .ok (false, s)

/-- The integer a text starts with: the sign is cut off behind its byte, the digits before the first byte that is none.
The negation goes round. -/
def read (text : String) : Except NoBoundary (Option Int64) := do
  let signed ← splitSign (trimChars text.toList)
  let stop := (bytes signed.2).findIdx fun b => !isDigitByte b
  if stop = 0 then return none
  let parts ← splitAtByte stop signed.2
  return (magnitude? parts.1).map fun m => if signed.1 then -m else m

/-- The sum, which goes round, or the end at which it does: then its sign is not that of both numbers. -/
def saturatingAdd (a b : Int64) : Int64 :=
  let sum := a + b
  if a < 0 ∧ b < 0 ∧ 0 ≤ sum then Int64.minValue
  else if 0 ≤ a ∧ 0 ≤ b ∧ sum < 0 then Int64.maxValue
  else sum

def step (value amount : Int64) (min? max? : Option Int64) : Int64 :=
  let next := saturatingAdd value amount
  match max? with
  | none => next
  | some hi =>
    let lo := min?.getD 0
    if hi < next then lo else if next < lo then hi else next

theorem inRange_toInt (w : Int64) : Integer.InRange w.toInt := by
  have := w.le_toInt
  have := w.toInt_lt
  unfold Integer.InRange Integer.bottom Integer.top
  omega

theorem toInt_ofInt {n : Int} (h : Integer.InRange n) : (Int64.ofInt n).toInt = n := by
  unfold Integer.InRange Integer.bottom Integer.top at h
  exact Int64.toInt_ofInt_of_le (by omega) (by omega)

theorem checked_toInt (w : Int64) : checked w.toInt = some w := by
  rw [checked, if_pos (inRange_toInt w), Int64.ofInt_toInt]

/-! ### Digits -/

theorem le_foldl_digits (digits : List Char) : ∀ n : Nat, n ≤ digits.foldl (fun n c => 10 * n + digitValue c) n := by
  induction digits with
  | nil => exact fun n => Nat.le_refl n
  | cons c digits ih =>
    intro n
    have := ih (10 * n + digitValue c)
    rw [List.foldl_cons]
    omega

theorem inRange_of_le {m n : Nat} (hle : m ≤ n) (hn : Integer.InRange n) : Integer.InRange m := by
  unfold Integer.InRange Integer.bottom Integer.top at *
  omega

theorem addDigit?_eq {w : Int64} {n : Nat} (hw : w.toInt = n) (c : Char) :
    addDigit? w c = checked (10 * n + digitValue c : Nat) := by
  have hsum : (n : Int) * 10 + digitValue c = (10 * n + digitValue c : Nat) := by omega
  have htens : (n : Int) * 10 = (10 * n : Nat) := by omega
  unfold addDigit?
  rw [hw]
  by_cases hin : Integer.InRange ((n : Int) * 10)
  · rw [checked, if_pos hin, Option.bind_eq_bind, Option.bind_some, toInt_ofInt hin, hsum]
  · have hout : ¬ Integer.InRange (10 * n + digitValue c : Nat) := by
      intro h
      rw [htens] at hin
      exact hin (inRange_of_le (Nat.le_add_right _ _) h)
    rw [checked, if_neg hin, checked, if_neg hout]
    rfl

/-- The checks stop at the first digit with which the number leaves the words; with more digits it is no smaller. -/
theorem foldlM_addDigit? (digits : List Char) : ∀ {w : Int64} {n : Nat}, w.toInt = n →
    digits.foldlM addDigit? w = checked (digits.foldl (fun n c => 10 * n + digitValue c) n : Nat) := by
  induction digits with
  | nil =>
    intro w n hw
    rw [List.foldl_nil, ← hw, checked_toInt]
    rfl
  | cons c digits ih =>
    intro w n hw
    rw [List.foldlM_cons, List.foldl_cons, addDigit?_eq hw]
    by_cases hin : Integer.InRange (10 * n + digitValue c : Nat)
    · rw [checked, if_pos hin]
      exact ih (toInt_ofInt hin)
    · have hout := fun h => hin (inRange_of_le (le_foldl_digits digits (10 * n + digitValue c)) h)
      rw [checked, if_neg hin, checked, if_neg hout]
      rfl

/-- **The digits are read with checks as the number they stand for, if that is a word.** -/
theorem magnitude?_eq (digits : List Char) : magnitude? digits = checked (natOfDigits digits) :=
  foldlM_addDigit? digits rfl

/-! ### Reading -/

/-- **A sign is cut off between two characters.** -/
theorem splitSign_eq (s : List Char) : splitSign s = .ok (Integer.splitSign s) := by
  cases s with
  | nil => rfl
  | cons c s =>
    have hminus : (bytes (c :: s)).head? = some 45 ↔ c = '-' :=
      (head?_bytes (by decide) c s).trans (Char.toNat_inj (d := '-'))
    have hplus : (bytes (c :: s)).head? = some 43 ↔ c = '+' :=
      (head?_bytes (by decide) c s).trans (Char.toNat_inj (d := '+'))
    have hcut : c.toNat < 128 → splitAtByte 1 (c :: s) = .ok ([c], s) := by
      intro hc
      exact splitAtByte_append (a := [c]) fun d hd => by rwa [List.mem_singleton.1 hd]
    unfold splitSign
    by_cases hm : c = '-'
    · subst hm
      rw [if_pos (hminus.2 rfl), hcut (by decide)]
      rfl
    · rw [if_neg fun h => hm (hminus.1 h)]
      by_cases hp : c = '+'
      · subst hp
        rw [if_pos (hplus.2 rfl), hcut (by decide)]
        rfl
      · rw [if_neg fun h => hp (hplus.1 h)]
        unfold Integer.splitSign
        split
        · next he => exact absurd (List.cons.inj he).1 hm
        · next he => exact absurd (List.cons.inj he).1 hp
        · rfl

/-- A magnitude that was read is negated as an integer is. -/
theorem map_magnitude? (negative : Bool) (digits : List Char) :
    (magnitude? digits).map (fun m => if negative then -m else m) =
      (if (natOfDigits digits : Int) ≤ Integer.top then
        some (if negative then -(natOfDigits digits : Int) else natOfDigits digits) else none).map Int64.ofInt := by
  rw [magnitude?_eq]
  by_cases hle : (natOfDigits digits : Int) ≤ Integer.top
  · have hin : Integer.InRange (natOfDigits digits) := by
      refine ⟨?_, hle⟩
      unfold Integer.bottom
      omega
    rw [checked, if_pos hin, if_pos hle]
    cases negative with
    | true => exact congrArg some (Int64.ofInt_neg _).symm
    | false => rfl
  · have hout : ¬ Integer.InRange (natOfDigits digits) := fun h => hle h.2
    rw [checked, if_neg hout, if_neg hle]
    rfl

/-- **Reading by bytes never cuts inside a character**, and gives the word of the integer that the text starts with. -/
theorem read_eq (text : String) : read text = .ok ((Integer.leading? text).map Int64.ofInt) := by
  unfold read Integer.leading?
  rw [splitSign_eq]
  generalize Integer.splitSign (trimChars text.toList) = signed
  have hdigits : ∀ c ∈ signed.2.takeWhile isDigit, c.toNat < 128 := by
    intro c hc
    exact ascii_of_isDigit (List.mem_takeWhile_imp hc)
  have hcut := splitAtByte_append (b := signed.2.dropWhile isDigit) hdigits
  rw [List.takeWhile_append_dropWhile] at hcut
  show (if (bytes signed.2).findIdx (fun b => !isDigitByte b) = 0 then .ok none
    else (splitAtByte ((bytes signed.2).findIdx fun b => !isDigitByte b) signed.2).bind fun parts =>
      .ok ((magnitude? parts.1).map fun m => if signed.1 then -m else m)) = _
  rw [findIdx_bytes, hcut]
  dsimp only
  by_cases hempty : signed.2.takeWhile isDigit = []
  · simp only [hempty, List.length_nil, List.isEmpty_nil, if_true, Option.map_none]
  · rw [if_neg (List.length_eq_zero_iff.not.2 hempty), if_neg (List.isEmpty_iff.not.2 hempty), ← map_magnitude?]
    rfl

/-- The word of an integer that was read is that integer. -/
theorem toInt_ofInt_of_leading? {text : String} {n : Int} (h : Integer.leading? text = some n) :
    (Int64.ofInt n).toInt = n := by
  have := Integer.leading?_bounds h
  apply toInt_ofInt
  unfold Integer.InRange Integer.bottom
  unfold Integer.top at this ⊢
  omega

theorem map_ofInt_toInt (text : String) :
    ((Integer.leading? text).map Int64.ofInt).map Int64.toInt = Integer.leading? text := by
  cases hread : Integer.leading? text with
  | none => rfl
  | some n => rw [Option.map_some, Option.map_some, toInt_ofInt_of_leading? hread]

/-! ### Counting -/

/-- **The sum stays at the end where it would go round.** -/
theorem toInt_saturatingAdd (a b : Int64) : (saturatingAdd a b).toInt = Integer.clip (a.toInt + b.toInt) := by
  have ha := inRange_toInt a
  have hb := inRange_toInt b
  have hsum := Int64.toInt_add a b
  have hmin : Int64.minValue.toInt = -9223372036854775808 := rfl
  have hmax : Int64.maxValue.toInt = 9223372036854775807 := rfl
  rw [Int.bmod_def] at hsum
  unfold Integer.InRange Integer.bottom Integer.top at ha hb
  unfold saturatingAdd Integer.clip Integer.bottom Integer.top
  simp only [Int64.lt_iff_toInt_lt, Int64.le_iff_toInt_le, Int64.toInt_zero]
  split at hsum
  · split
    · omega
    · split <;> omega
  · split
    · omega
    · split <;> omega

/-- **The least word alone has no negative.** -/
theorem toInt_sign_mul {direction amount : Int64} (hd : direction = 1 ∨ direction = -1)
    (ha : -Integer.top ≤ amount.toInt) : (direction * amount).toInt = direction.toInt * amount.toInt := by
  have := (inRange_toInt amount).2
  unfold Integer.top at *
  rcases hd with rfl | rfl
  · rw [Int64.one_mul]
    exact (Int.one_mul _).symm
  · rw [Int64.toInt_mul, Int.bmod_eq_of_le]
    · show _ ≤ (-1) * amount.toInt
      omega
    · show (-1) * amount.toInt < _
      omega

/-- **A step of words is the step of the integers that they are.** -/
theorem toInt_step (value amount : Int64) (min? max? : Option Int64) :
    (step value amount min? max?).toInt =
      Integer.step value.toInt amount.toInt (min?.map Int64.toInt) (max?.map Int64.toInt) := by
  unfold step Integer.step
  rw [← toInt_saturatingAdd]
  cases max? with
  | none => rfl
  | some hi =>
    have hlo : (min?.getD 0).toInt = (min?.map Int64.toInt).getD 0 := by cases min? <;> rfl
    simp only [Option.map_some, ← hlo, Int64.lt_iff_toInt_lt]
    split
    · rfl
    · split <;> rfl

end Word
end BoundPage
