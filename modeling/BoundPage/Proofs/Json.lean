import BoundPage.Json.Decode
import BoundPage.Json.Printer
import BoundPage.Proofs.Keys
/-!
# JSON that is read back

A value that is written is read back as the document that says the same (`read?_compact`).  That goes for values whose
numbers are integers of 64 bits, up to the levels that the reader has room for; the text of a float is the shortest one,
and the reader does not always take it back to the same float.
-/
namespace BoundPage.Json

/-- An integer of 64 bits, signed or unsigned. -/
def Number.Exact : Number → Prop
  | .int n => -9223372036854775808 ≤ n ∧ n ≤ 18446744073709551615
  | .float _ => False

mutual

/-- The numbers of the value are integers of 64 bits, and it has at most `room` levels of lists and objects. -/
def Exact (room : Nat) : Json → Prop
  | .null => True
  | .bool _ => True
  | .num x => x.Exact
  | .str _ => True
  | .arr vs => 0 < room ∧ ExactItems (room - 1) vs
  | .obj fs => 0 < room ∧ ExactFields (room - 1) fs

def ExactItems (room : Nat) : List Json → Prop
  | [] => True
  | v :: vs => Exact room v ∧ ExactItems room vs

def ExactFields (room : Nat) : List (String × Json) → Prop
  | [] => True
  | (_, v) :: fs => Exact room v ∧ ExactFields room fs

end

mutual

/-- The document that says what the value is. -/
def document : Json → Document
  | .null => .null
  | .bool b => .bool b
  | .num x => .num x
  | .str s => .str s
  | .arr vs => .arr (documents vs)
  | .obj fs => .obj (fieldDocuments fs)

def documents : List Json → List Document
  | [] => []
  | v :: vs => document v :: documents vs

def fieldDocuments : List (String × Json) → List (Option String × Document)
  | [] => []
  | (name, v) :: fs => (some name, document v) :: fieldDocuments fs

end

mutual

/-- Every part of the document of a value stands for something. -/
theorem sound_document : ∀ v : Json, v.document.sound = true
  | .null => rfl
  | .bool _ => rfl
  | .num _ => rfl
  | .str _ => rfl
  | .arr vs => sound_documents vs
  | .obj fs => sound_fieldDocuments fs

theorem sound_documents : ∀ vs : List Json, Document.soundItems (documents vs) = true
  | [] => rfl
  | v :: vs => Bool.and_eq_true_iff.2 ⟨sound_document v, sound_documents vs⟩

theorem sound_fieldDocuments : ∀ fs : List (String × Json), Document.soundFields (fieldDocuments fs) = true
  | [] => rfl
  | (_, v) :: fs => Bool.and_eq_true_iff.2 ⟨sound_document v, sound_fieldDocuments fs⟩

end

namespace Reader

/-! ## Strings -/

theorem hexValue?_hexDigit : ∀ n < 16, hexValue? (hexDigit n) = some n := by decide

theorem pieces?_char {c : Char} (s : List Char) (h1 : c ≠ '"') (h2 : c ≠ '\\') (h3 : ¬ c.toNat < 0x20) :
    pieces? (c :: s) = (pieces? s).map fun r => (.char c :: r.1, r.2) := by
  rw [pieces?.eq_def]
  split
  · next h => cases h
  · next h => cases h; exact absurd rfl h1
  · next h => cases h; exact absurd rfl h2
  · next h => cases h; exact absurd rfl h2
  · next h =>
    cases h
    simp [h2, h3]
    cases pieces? s <;> rfl

theorem pieces?_short {e c : Char} (s : List Char) (he : e ≠ 'u') (h : unescape? e = some c) :
    pieces? ('\\' :: e :: s) = (pieces? s).map fun r => (.char c :: r.1, r.2) := by
  rw [pieces?.eq_def]
  split
  · next h => cases h
  · next h => cases h
  · next h => cases h; exact absurd rfl he
  · next h' => cases h'; rw [h]; cases pieces? s <;> rfl
  · next hh h' => cases h'; exact absurd rfl (hh _ _ rfl)

theorem pieces?_code {n : Nat} (s : List Char) (hn : n < 0x20) :
    pieces? ('\\' :: 'u' :: '0' :: '0' :: hexDigit (n / 16) :: hexDigit (n % 16) :: s) =
      (pieces? s).map fun r => (.code n :: r.1, r.2) := by
  have hcode : hexCode? '0' '0' (hexDigit (n / 16)) (hexDigit (n % 16)) = some n := by
    have h0 : hexValue? '0' = some 0 := by decide
    unfold hexCode?
    rw [h0, hexValue?_hexDigit _ (by omega), hexValue?_hexDigit _ (by omega)]
    show some _ = _
    congr 1
    omega
  rw [pieces?, hcode]
  cases pieces? s <;> rfl

theorem joined?_code {n : Nat} (hn : n < 0x20) (ps : List Piece) :
    joined? (.code n :: ps) = (joined? ps).map (Char.ofNat n :: ·) := by
  have hl : isLead n = false := by simp [isLead]; omega
  have ht : isTrail n = false := by simp [isTrail]; omega
  rw [joined?.eq_def]
  split
  · next h => cases h
  · next h => cases h
  · next h => cases h; simp [hl, ht]
  · next h => cases h; simp [hl, ht]

/-- **A character that is written is read as one unit**, which stands for it. -/
theorem exists_piece (c : Char) : ∃ p : Piece,
    (∀ s, pieces? (escape c ++ s) = (pieces? s).map fun r => (p :: r.1, r.2)) ∧
      ∀ ps, joined? (p :: ps) = (joined? ps).map (c :: ·) := by
  have hchar : ∀ d : Char, ∀ ps, joined? (.char d :: ps) = (joined? ps).map (d :: ·) := fun _ _ => rfl
  unfold escape
  split
  · exact ⟨_, fun s => pieces?_short s (by decide) rfl, hchar _⟩
  · exact ⟨_, fun s => pieces?_short s (by decide) rfl, hchar _⟩
  · exact ⟨_, fun s => pieces?_short s (by decide) rfl, hchar _⟩
  · exact ⟨_, fun s => pieces?_short s (by decide) rfl, hchar _⟩
  · exact ⟨_, fun s => pieces?_short s (by decide) rfl, hchar _⟩
  · exact ⟨_, fun s => pieces?_short s (by decide) rfl, hchar _⟩
  · exact ⟨_, fun s => pieces?_short s (by decide) rfl, hchar _⟩
  · next hquote hslash _ _ _ _ _ =>
    split
    · next h =>
      refine ⟨_, fun s => pieces?_code s h, fun ps => ?_⟩
      rw [joined?_code h, Char.ofNat_toNat]
    · next h => exact ⟨_, fun s => pieces?_char s hquote hslash h, hchar c⟩

/-- **A string that is written is read back.** -/
theorem exists_pieces (rest : List Char) : ∀ s : List Char,
    ∃ ps, pieces? (s.flatMap escape ++ '"' :: rest) = some (ps, rest) ∧ joined? ps = some s
  | [] => ⟨[], rfl, rfl⟩
  | c :: s => by
    obtain ⟨p, hread, hstands⟩ := exists_piece c
    obtain ⟨ps, hps, hs⟩ := exists_pieces rest s
    refine ⟨p :: ps, ?_, ?_⟩
    · rw [List.flatMap_cons, List.append_assoc, hread, hps]
      rfl
    · rw [hstands, hs]
      rfl

theorem string?_written (s : String) (rest : List Char) :
    string? (s.toList.flatMap escape ++ '"' :: rest) = some (some s, rest) := by
  obtain ⟨ps, hps, hs⟩ := exists_pieces rest s.toList
  unfold string?
  rw [hps]
  show some ((joined? ps).map String.ofList, rest) = _
  rw [hs, Option.map_some, String.ofList_toList]

/-! ## Numbers -/

/-- The digits of a number are not empty, and the first is no zero unless it is the only one. -/
theorem exists_digits (n : Nat) : ∃ c cs, Nat.toDigits 10 n = c :: cs ∧ Text.isDigit c ∧ (c = '0' → cs = []) := by
  induction n using Nat.strongRecOn with
  | ind n ih =>
    by_cases h : n < 10
    · refine ⟨n.digitChar, [], Nat.toDigits_of_lt_base h, ?_, fun _ => rfl⟩
      exact (by decide : ∀ n < 10, Text.isDigit (Nat.digitChar n)) n h
    · obtain ⟨c, cs, hcs, hc, hzero⟩ := ih (n / 10) (by omega)
      refine ⟨c, cs ++ [(n % 10).digitChar], ?_, hc, fun h0 => ?_⟩
      · rw [Nat.toDigits_of_base_le (by omega) (by omega), hcs]
        rfl
      · have hn : Nat.ofDigitChars 10 (Nat.toDigits 10 (n / 10)) 0 = 0 := by
          rw [hcs, h0, hzero h0]
          rfl
        rw [Nat.ofDigitChars_ten_toDigits] at hn
        omega

theorem isDigit_of_mem_digits {n : Nat} {c : Char} (h : c ∈ Nat.toDigits 10 n) : Text.isDigit c :=
  Text.isDigit_of_mem_repr (n := n) (by rwa [Nat.toString_eq_ofList_toDigits, String.toList_ofList])

/-- What may stand behind a value: nothing, or what closes or parts lists and objects. -/
def Ends (rest : List Char) : Prop := ∀ c ∈ rest.head?, c = ',' ∨ c = ']' ∨ c = '}'

theorem digits?_append {rest : List Char} (h : Ends rest) (n : Nat) :
    digits? (Nat.toDigits 10 n ++ rest) = some (Nat.toDigits 10 n, rest) := by
  have hds : ∀ c ∈ Nat.toDigits 10 n, Text.isDigit c := fun _ hc => isDigit_of_mem_digits hc
  have hrest : rest.takeWhile Text.isDigit = [] ∧ rest.dropWhile Text.isDigit = rest := by
    cases rest with
    | nil => exact ⟨rfl, rfl⟩
    | cons c cs =>
      have hc : ¬ Text.isDigit c := by
        rcases h c rfl with rfl | rfl | rfl <;> decide
      exact ⟨List.takeWhile_cons_of_neg hc, List.dropWhile_cons_of_neg hc⟩
  unfold digits?
  rw [List.takeWhile_append_of_pos hds, List.dropWhile_append_of_pos hds, hrest.1, hrest.2, List.append_nil]
  exact if_neg (by simp)

theorem fraction?_of_ends {rest : List Char} (h : Ends rest) : fraction? rest = some ([], rest) := by
  unfold fraction?
  split
  · rcases h '.' rfl with h | h | h <;> exact absurd h (by decide)
  · rfl

theorem exponent?_of_ends {rest : List Char} (h : Ends rest) : exponent? rest = some (none, rest) := by
  unfold exponent?
  split
  · rcases h 'e' rfl with h | h | h <;> exact absurd h (by decide)
  · rcases h 'E' rfl with h | h | h <;> exact absurd h (by decide)
  · rfl

theorem le_ofDigitChars : ∀ (cs : List Char) (n : Nat), n ≤ Nat.ofDigitChars 10 cs n
  | [], n => Nat.le_refl n
  | c :: cs, n => Nat.le_trans (by omega) (le_ofDigitChars cs (10 * n + (c.toNat - 48)))

theorem absorb_of_le : ∀ (cs : List Char) (n : Nat), Nat.ofDigitChars 10 cs n ≤ Number.greatest →
    Number.absorb n cs = (Nat.ofDigitChars 10 cs n, 0)
  | [], _, _ => rfl
  | c :: cs, n, h => by
    have hnext : 10 * n + Text.digitValue c ≤ Number.greatest :=
      Nat.le_trans (le_ofDigitChars cs (10 * n + Text.digitValue c)) h
    rw [Number.absorb, if_pos hnext]
    exact absorb_of_le cs _ h

theorem absorb_digits {n : Nat} (h : n ≤ Number.greatest) : Number.absorb 0 (Nat.toDigits 10 n) = (n, 0) := by
  rw [absorb_of_le _ _ (by rwa [Nat.ofDigitChars_ten_toDigits]), Nat.ofDigitChars_ten_toDigits]

theorem number?_digits {rest : List Char} (h : Ends rest) (negative : Bool) (n : Nat) :
    number? ((if negative then ['-'] else []) ++ Nat.toDigits 10 n ++ rest) =
      some (Number.ofLiteral? { negative, whole := Nat.toDigits 10 n, fraction := [], exponent := none }, rest) := by
  obtain ⟨c, cs, hcs, hc, hzero⟩ := exists_digits n
  have hfirst : ((Nat.toDigits 10 n).head? == some '0' && (Nat.toDigits 10 n).length != 1) = false := by
    rw [hcs]
    by_cases h0 : c = '0'
    · simp [hzero h0]
    · simp [h0]
  have hbody : ((digits? (Nat.toDigits 10 n ++ rest)).bind fun whole =>
      if (whole.1.head? == some '0' && whole.1.length != 1) = true then none
      else (fraction? whole.2).bind fun fraction => (exponent? fraction.2).bind fun exponent =>
        some (Number.ofLiteral? { negative, whole := whole.1, fraction := fraction.1, exponent := exponent.1 },
          exponent.2)) =
      some (Number.ofLiteral? { negative, whole := Nat.toDigits 10 n, fraction := [], exponent := none }, rest) := by
    rw [digits?_append h, Option.bind_some]
    dsimp only
    rw [hfirst, fraction?_of_ends h]
    simp only [Bool.false_eq_true, if_false, Option.bind_some]
    rw [exponent?_of_ends h, Option.bind_some]
  rw [← hbody]
  cases negative with
  | true => rfl
  | false =>
    unfold number?
    simp only [Bool.false_eq_true, if_false, List.nil_append]
    split
    · next s he =>
      rw [hcs, List.cons_append] at he
      rw [(List.cons.inj he).1] at hc
      exact absurd hc (by decide)
    · rfl

/-- **An integer is written with a sign and digits that stand for it.** -/
theorem exists_literal : ∀ {x : Number}, x.Exact → ∃ negative n,
    x.render.toList = (if negative then ['-'] else []) ++ Nat.toDigits 10 n ∧
      Number.ofLiteral? { negative, whole := Nat.toDigits 10 n, fraction := [], exponent := none } = some x
  | .int (Int.ofNat n), hx => by
    have hn : n ≤ Number.greatest := by
      have := hx.2
      rw [Int.ofNat_eq_natCast] at this
      exact Nat.le_trans (by omega) (Nat.le_of_eq (rfl : 18446744073709551615 = Number.greatest))
    refine ⟨false, n, ?_, ?_⟩
    · show (toString n).toList = _
      simp
    · unfold Number.ofLiteral?
      simp [absorb_digits hn]
  | .int (Int.negSucc n), hx => by
    have hbottom : n + 1 ≤ 9223372036854775808 := by
      have := hx.1
      omega
    have hn : n + 1 ≤ Number.greatest := Nat.le_trans hbottom (by decide)
    refine ⟨true, n + 1, ?_, ?_⟩
    · show ("-" ++ toString (n + 1)).toList = _
      rw [String.toList_append]
      simp
    · unfold Number.ofLiteral?
      simp [absorb_digits hn, hbottom]
      omega

/-- **An integer that is written is read back.** -/
theorem number?_render {x : Number} (hx : x.Exact) {rest : List Char} (h : Ends rest) :
    number? (x.render.toList ++ rest) = some (some x, rest) := by
  obtain ⟨negative, n, hrender, hx⟩ := exists_literal hx
  rw [hrender, number?_digits h, hx]

theorem exists_render {x : Number} (hx : x.Exact) :
    ∃ c cs, x.render.toList = c :: cs ∧ (c = '-' ∨ Text.isDigit c) := by
  obtain ⟨negative, n, hrender, -⟩ := exists_literal hx
  obtain ⟨c, cs, hcs, hc, -⟩ := exists_digits n
  rw [hrender, hcs]
  cases negative with
  | true => exact ⟨'-', c :: cs, rfl, .inl rfl⟩
  | false => exact ⟨c, cs, rfl, .inr hc⟩

/-! ## Values -/

theorem ne_of_number {c d : Char} (hc : c = '-' ∨ Text.isDigit c) (hd : d ≠ '-' ∧ Text.isDigit d = false) : c ≠ d := by
  rintro rfl
  exact hc.elim hd.1 fun h => ne_true_of_eq_false hd.2 h

theorem isSpace_of_number {c : Char} (hc : c = '-' ∨ Text.isDigit c) : isSpace c = false := by
  unfold isSpace
  rw [beq_eq_false_iff_ne.2 (ne_of_number hc (by decide)), beq_eq_false_iff_ne.2 (ne_of_number hc (by decide)),
    beq_eq_false_iff_ne.2 (ne_of_number hc (by decide)), beq_eq_false_iff_ne.2 (ne_of_number hc (by decide))]
  rfl

/-- A value starts with a character that is no blank and closes nothing. -/
theorem exists_chars {room : Nat} : ∀ {v : Json}, v.Exact room →
    ∃ c cs, v.chars = c :: cs ∧ isSpace c = false ∧ c ≠ ']'
  | .null, _ => ⟨_, _, rfl, by decide⟩
  | .bool true, _ => ⟨_, _, rfl, by decide⟩
  | .bool false, _ => ⟨_, _, rfl, by decide⟩
  | .num _, h => by
    obtain ⟨c, cs, hcs, hc⟩ := exists_render h
    exact ⟨c, cs, hcs, isSpace_of_number hc, ne_of_number hc (by decide)⟩
  | .str _, _ => ⟨_, _, rfl, by decide⟩
  | .arr [], _ => ⟨_, _, rfl, by decide⟩
  | .arr (_ :: _), _ => ⟨_, _, rfl, by decide⟩
  | .obj [], _ => ⟨_, _, rfl, by decide⟩
  | .obj ((_, _) :: _), _ => ⟨_, _, rfl, by decide⟩

theorem skip_chars {room : Nat} {v : Json} (h : v.Exact room) (rest : List Char) :
    skip (v.chars ++ rest) = v.chars ++ rest := by
  obtain ⟨c, cs, hc, hspace, -⟩ := exists_chars h
  unfold skip
  rw [hc, List.cons_append, List.dropWhile_cons_of_neg (by simp [hspace])]

theorem one_le_length_chars {room : Nat} {v : Json} (h : v.Exact room) : 1 ≤ v.chars.length := by
  obtain ⟨c, cs, hc, -⟩ := exists_chars h
  simp [hc]

theorem enclosed_of_pos {room : Nat} (h : 0 < room) (d : Document) : enclosed room d = d :=
  if_neg (Nat.ne_of_gt h)

theorem tail_charsOfItems (v : Json) (vs : List Json) (rest : List Char) :
    (charsOfItems (v :: vs)).tail ++ rest = v.chars ++ (charsOfItems vs ++ rest) := by
  simp [charsOfItems]

theorem tail_charsOfFields (name : String) (v : Json) (fs : List (String × Json)) (rest : List Char) :
    (charsOfFields ((name, v) :: fs)).tail ++ rest =
      '"' :: (name.toList.flatMap escape ++ '"' :: ':' :: (v.chars ++ (charsOfFields fs ++ rest))) := by
  simp [charsOfFields, quote]

theorem length_charsOfItems (v : Json) (vs : List Json) :
    (charsOfItems (v :: vs)).length = v.chars.length + (charsOfItems vs).length + 1 := by
  simp [charsOfItems]

theorem length_charsOfFields (name : String) (v : Json) (fs : List (String × Json)) :
    v.chars.length + (charsOfFields fs).length + 4 ≤ (charsOfFields ((name, v) :: fs)).length := by
  simp [charsOfFields, quote]

theorem value?_number {c : Char} (hc : c = '-' ∨ Text.isDigit c) (fuel room : Nat) (s : List Char) :
    value? (fuel + 1) room (c :: s) = (number? (c :: s)).map fun (x, rest) => (x.elim .void .num, rest) := by
  have hskip : skip (c :: s) = c :: s := List.dropWhile_cons_of_neg (by simp [isSpace_of_number hc])
  rw [value?, hskip]
  split
  · next h => exact absurd (List.cons.inj h).1 (ne_of_number hc (by decide))
  · next h => exact absurd (List.cons.inj h).1 (ne_of_number hc (by decide))
  · next h => exact absurd (List.cons.inj h).1 (ne_of_number hc (by decide))
  · next h => exact absurd (List.cons.inj h).1 (ne_of_number hc (by decide))
  · next h => exact absurd (List.cons.inj h).1 (ne_of_number hc (by decide))
  · next h => exact absurd (List.cons.inj h).1 (ne_of_number hc (by decide))
  · rfl

/-- An opening bracket that is not followed by the closing one is followed by items. -/
theorem value?_items {room : Nat} {v : Json} (h : v.Exact room) (fuel top : Nat) (rest : List Char) :
    value? (fuel + 1) top ('[' :: (v.chars ++ rest)) =
      (items? fuel (top - 1) (v.chars ++ rest)).map fun (ds, rest) => (enclosed top (.arr ds), rest) := by
  obtain ⟨c, cs, hc, -, hclose⟩ := exists_chars h
  have hbracket : skip ('[' :: (v.chars ++ rest)) = '[' :: (v.chars ++ rest) := rfl
  rw [value?]
  simp only [hbracket]
  rw [skip_chars h, hc]
  split
  · next he => exact absurd (List.cons.inj he).1 hclose
  · rfl

theorem chars_items (v : Json) (vs : List Json) : (Json.arr (v :: vs)).chars = '[' :: (charsOfItems (v :: vs)).tail ∧
    (Json.arr (v :: vs)).chars.length = (charsOfItems (v :: vs)).length := by
  simp [chars, charsOfItems]

theorem chars_fields (f : String × Json) (fs : List (String × Json)) :
    (Json.obj (f :: fs)).chars = '{' :: (charsOfFields (f :: fs)).tail ∧
      (Json.obj (f :: fs)).chars.length = (charsOfFields (f :: fs)).length := by
  simp [chars, charsOfFields]

theorem ends_items (vs : List Json) (rest : List Char) : Ends (charsOfItems vs ++ rest) := by
  rintro c hc
  cases vs with
  | nil => exact .inr (.inl (Option.some.inj hc).symm)
  | cons v vs => exact .inl (Option.some.inj hc).symm

theorem ends_fields (fs : List (String × Json)) (rest : List Char) : Ends (charsOfFields fs ++ rest) := by
  rintro c hc
  cases fs with
  | nil => exact .inr (.inr (Option.some.inj hc).symm)
  | cons f fs => exact .inl (Option.some.inj hc).symm

mutual

/-- **A value that is written is read back**, if there is room for its levels. -/
theorem value?_chars : ∀ (v : Json) {room fuel : Nat} {rest : List Char}, v.Exact room → Ends rest →
    2 * v.chars.length ≤ fuel → value? fuel room (v.chars ++ rest) = some (v.document, rest)
  | v, _, 0, _, h, _, hf => by
    have := one_le_length_chars h
    omega
  | .null, room, fuel + 1, _, _, _, _ => rfl
  | .bool true, room, fuel + 1, _, _, _, _ => rfl
  | .bool false, room, fuel + 1, _, _, _, _ => rfl
  | .num x, room, fuel + 1, rest, h, hends, _ => by
    obtain ⟨c, cs, hcs, hc⟩ := exists_render h
    have hread := number?_render h hends
    show value? (fuel + 1) room (x.render.toList ++ rest) = _
    rw [hcs, List.cons_append] at hread ⊢
    rw [value?_number hc, hread]
    rfl
  | .str s, room, fuel + 1, rest, h, _, _ => by
    have hchars : (Json.str s).chars ++ rest = '"' :: (s.toList.flatMap escape ++ '"' :: rest) := by
      simp [chars, quote]
    rw [value?, skip_chars h, hchars]
    show (string? (s.toList.flatMap escape ++ '"' :: rest)).map _ = _
    rw [string?_written]
    rfl
  | .arr [], room, fuel + 1, rest, h, _, _ => by
    rw [value?, skip_chars h]
    show some (enclosed room (.arr []), rest) = _
    rw [enclosed_of_pos h.1]
    rfl
  | .arr (v :: vs), room, fuel + 1, rest, ⟨hroom, hitems⟩, _, hf => by
    obtain ⟨hchars, hlen⟩ := chars_items v vs
    rw [hchars, List.cons_append, tail_charsOfItems, value?_items hitems.1, ← tail_charsOfItems,
      items?_chars (v :: vs) (List.cons_ne_nil v vs) hitems (by omega), Option.map_some]
    dsimp only
    rw [enclosed_of_pos hroom]
    rfl
  | .obj [], room, fuel + 1, rest, h, _, _ => by
    rw [value?, skip_chars h]
    show some (enclosed room (.obj []), rest) = _
    rw [enclosed_of_pos h.1]
    rfl
  | .obj ((name, v) :: fs), room, fuel + 1, rest, ⟨hroom, hfields⟩, _, hf => by
    obtain ⟨hchars, hlen⟩ := chars_fields (name, v) fs
    have hread : fields? fuel (room - 1) ((charsOfFields ((name, v) :: fs)).tail ++ rest) =
        some (fieldDocuments ((name, v) :: fs), rest) :=
      fields?_chars ((name, v) :: fs) (List.cons_ne_nil _ fs) hfields (by omega)
    rw [hchars, List.cons_append, value?]
    rw [tail_charsOfFields] at hread ⊢
    show (fields? fuel (room - 1) _).map _ = _
    rw [hread, Option.map_some]
    dsimp only
    rw [enclosed_of_pos hroom]
    rfl

theorem items?_chars : ∀ (vs : List Json) {room fuel : Nat} {rest : List Char}, vs ≠ [] → ExactItems room vs →
    2 * (charsOfItems vs).length ≤ fuel + 1 →
    items? fuel room ((charsOfItems vs).tail ++ rest) = some (documents vs, rest)
  | [], _, _, _, hne, _, _ => absurd rfl hne
  | v :: vs, _, 0, _, _, _, hf => by
    rw [length_charsOfItems] at hf
    omega
  | [v], room, fuel + 1, rest, _, ⟨hv, _⟩, hf => by
    rw [length_charsOfItems] at hf
    rw [tail_charsOfItems, items?, value?_chars v hv (ends_items [] rest) (by omega)]
    rfl
  | v :: w :: vs, room, fuel + 1, rest, _, ⟨hv, hvs⟩, hf => by
    rw [length_charsOfItems] at hf
    rw [tail_charsOfItems, items?, value?_chars v hv (ends_items (w :: vs) rest) (by omega)]
    show (items? fuel room ((charsOfItems (w :: vs)).tail ++ rest)).bind _ = _
    rw [items?_chars (w :: vs) (List.cons_ne_nil w vs) hvs (by omega)]
    rfl

theorem fields?_chars : ∀ (fs : List (String × Json)) {room fuel : Nat} {rest : List Char}, fs ≠ [] →
    ExactFields room fs → 2 * (charsOfFields fs).length ≤ fuel + 1 →
    fields? fuel room ((charsOfFields fs).tail ++ rest) = some (fieldDocuments fs, rest)
  | [], _, _, _, hne, _, _ => absurd rfl hne
  | (name, v) :: fs, _, 0, _, _, _, hf => by
    have := length_charsOfFields name v fs
    omega
  | [(name, v)], room, fuel + 1, rest, _, ⟨hv, _⟩, hf => by
    have := length_charsOfFields name v []
    rw [tail_charsOfFields, fields?]
    show (string? _).bind _ = _
    rw [string?_written]
    show (value? fuel room (v.chars ++ (charsOfFields [] ++ rest))).bind _ = _
    rw [value?_chars v hv (ends_fields [] rest) (by omega)]
    rfl
  | (name, v) :: f :: fs, room, fuel + 1, rest, _, ⟨hv, hfs⟩, hf => by
    have := length_charsOfFields name v (f :: fs)
    rw [tail_charsOfFields, fields?]
    show (string? _).bind _ = _
    rw [string?_written]
    show (value? fuel room (v.chars ++ (charsOfFields (f :: fs) ++ rest))).bind _ = _
    rw [value?_chars v hv (ends_fields (f :: fs) rest) (by omega)]
    show (fields? fuel room ((charsOfFields (f :: fs)).tail ++ rest)).bind _ = _
    rw [fields?_chars (f :: fs) (List.cons_ne_nil f fs) hfs (by omega)]
    rfl

end

end Reader

/-- **What is written is read back.** -/
theorem read?_compact {v : Json} (h : v.Exact Reader.levels) : Document.read? v.compact = some v.document := by
  have hread : Reader.value? (2 * v.chars.length + 2) Reader.levels (v.chars ++ []) = some (v.document, []) :=
    Reader.value?_chars v h (fun _ hc => by cases hc) (by omega)
  unfold Document.read? compact
  rw [String.toList_ofList]
  rw [List.append_nil] at hread
  show (Reader.value? _ _ v.chars).bind _ = _
  rw [hread]
  rfl

end BoundPage.Json
