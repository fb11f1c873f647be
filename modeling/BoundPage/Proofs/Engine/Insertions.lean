import BoundPage.Proofs.Engine.Counters
import BoundPage.Proofs.Json.Regular
/-!
# Insertions into a list

Every insertion reads the whole text of the variable and writes the whole list again.  One insertion adds one item and
keeps the others (`Lists.insert`), so a run of them leaves what was there in the middle (`insertions_keep_items`).
-/
namespace BoundPage

namespace Json

/-- The value is a list without floats. -/
def isIntegralList : Json → Bool
  | .arr vs => integralItems vs
  | _ => false

theorem exists_of_isIntegralList {v : Json} (h : v.isIntegralList) : ∃ vs, v = .arr vs ∧ integralItems vs := by
  cases v with
  | arr vs => exact ⟨vs, rfl, h⟩
  | _ => cases h

/-- A list that was read can be read again with a text at either end. -/
theorem read?_compact_add {vs : List Json} {text : String} (h : read? text = some (.arr vs)) (hint : integralItems vs)
    (place : Engine.Place) (item : String) : read? (arr (place.add (.str item) vs)).compact =
      some (.arr (place.add (.str item) vs)) ∧ integralItems (place.add (.str item) vs) := by
  obtain ⟨hroom, hvs⟩ := regular_of_read? h
  have hregular : RegularItems (Reader.levels - 1) (place.add (.str item) vs) := by
    cases place with
    | start => exact ⟨trivial, hvs⟩
    | last => exact regularItems_append.2 ⟨hvs, trivial, trivial⟩
  have hintegral : integralItems (place.add (.str item) vs) := by
    cases place with
    | start => exact hint
    | last =>
      show integralItems (vs ++ [.str item]) = true
      rw [integralItems_append, hint]
      rfl
  exact ⟨Regular.read?_compact (v := .arr _) ⟨hroom, hregular⟩ hintegral, hintegral⟩

end Json

namespace Engine

/-- A text to be inserted, and where. -/
structure Insertion where
  text : String
  place : Place

namespace Insertion

/-- The texts that go to a place, in order. -/
def texts (place : Place) (is : List Insertion) : List String := (is.filter (·.place = place)).map (·.text)

/-- What a list becomes by insertions, one after the other. -/
def added (vs : List Json) (is : List Insertion) : List Json := is.foldl (fun vs i => i.place.add (.str i.text) vs) vs

theorem itemTexts_added (is : List Insertion) (vs : List Json) : (added vs is).map ListRegion.itemText =
    (texts .start is).reverse ++ vs.map ListRegion.itemText ++ texts .last is := by
  induction is generalizing vs with
  | nil => simp [added, texts]
  | cons i is ih =>
    show (added (i.place.add (.str i.text) vs) is).map _ = _
    rw [ih]
    rcases i with ⟨text, place⟩
    have hitem : ListRegion.itemText (.str text) = text := rfl
    cases place with
    | start => simp [texts, Place.add, hitem]
    | last => simp [texts, Place.add, hitem]

end Insertion

variable {S H W : Type} {g : Engine S H W} {id name : String} {vs : List Json}

/-- The variable holds a list, in which there is no float. -/
structure Lists (g : Engine S H W) (id name : String) (vs : List Json) : Prop where
  holds : ∃ text, g.current id name = .ok text ∧ Json.read? text = some (.arr vs)
  integral : Json.integralItems vs

variable [RenderTarget S]

/-- **An insertion adds its text and keeps the list.** -/
theorem Lists.insert (h : g.Lists id name vs) {i : Insertion} (hi : Text.isBlankText i.text = false) :
    (g.insert id name (some i.text) i.place).answer.isApplied ∧
      (g.insert id name (some i.text) i.place).state.Lists id name (i.place.add (.str i.text) vs) := by
  obtain ⟨text, htext, hread⟩ := h.holds
  have hwrite : g.insert id name (some i.text) i.place =
      g.write id name (.text (Json.arr (i.place.add (.str i.text) vs)).compact) := by
    unfold Engine.insert withCurrent
    simp only [htext, hread, Option.filter, hi]
    rfl
  obtain ⟨happlied, hcurrent⟩ := current_write htext (.text (Json.arr (i.place.add (.str i.text) vs)).compact)
  obtain ⟨hagain, hintegral⟩ := Json.read?_compact_add hread h.integral i.place i.text
  rw [hwrite]
  exact ⟨happlied, ⟨_, hcurrent, hagain⟩, hintegral⟩

/-- Inserts texts into a variable, one after the other. -/
def inserting (g : Engine S H W) (id name : String) (is : List Insertion) : Ran (Engine S H W) (List WriteOutcome) :=
  Ran.each (fun g i => g.insert id name (some i.text) i.place) g is

theorem Lists.inserting : ∀ {is : List Insertion} {g : Engine S H W} {vs : List Json}, g.Lists id name vs →
    (∀ i ∈ is, Text.isBlankText i.text = false) → (∀ o ∈ (g.inserting id name is).answer, o.isApplied) ∧
      (g.inserting id name is).state.Lists id name (Insertion.added vs is)
  | [], _, _, h, _ => ⟨fun _ ho => (List.not_mem_nil ho).elim, h⟩
  | _ :: _, _, _, h, his => by
    obtain ⟨hi, his⟩ := List.forall_mem_cons.1 his
    obtain ⟨happlied, hnext⟩ := h.insert hi
    obtain ⟨hall, hrest⟩ := hnext.inserting his
    exact ⟨List.forall_mem_cons.2 ⟨happlied, hall⟩, hrest⟩

/-- **Insertions keep what a list holds.**  If no number in the list is a float, every insertion of a text that is not
blank is applied, and the text of the variable is that of a list at every time: first the texts that were inserted at
the start, the latest one in front, then the items that were there, then the texts that were inserted at the end. -/
theorem insertions_keep_items {text : String} (h : g.current id name = .ok text)
    (hlist : Json.read? text = some (.arr vs)) (hint : Json.integralItems vs) {is : List Insertion}
    (his : ∀ i ∈ is, Text.isBlankText i.text = false) :
    (∀ o ∈ (g.inserting id name is).answer, o.isApplied) ∧ ∀ sofar, sofar <+: is →
      ∃ written ws, (g.inserting id name sofar).state.current id name = .ok written ∧
        Json.read? written = some (.arr ws) ∧ ListRegion.items written =
          (Insertion.texts .start sofar).reverse ++ ListRegion.items text ++ Insertion.texts .last sofar := by
  have hstart : g.Lists id name vs := ⟨⟨text, h, hlist⟩, hint⟩
  refine ⟨(hstart.inserting his).1, fun sofar hsofar => ?_⟩
  obtain ⟨written, hcurrent, hread⟩ := (hstart.inserting fun i hi => his i (hsofar.subset hi)).2.holds
  refine ⟨written, _, hcurrent, hread, ?_⟩
  unfold ListRegion.items
  simp only [hread, hlist]
  exact Insertion.itemTexts_added sofar vs

/-- A list of values of all kinds, with blanks between them and a field that stands twice. -/
def mixedText : String :=
  " [\"a\\\"\\\\\\u0001\\n\u00fc\", -9223372036854775808 , 18446744073709551615,null, \x7b\"b\":[true],\"a\":0,\"b\":\x7b\x7d\x7d]"

def mixedList : Engine Surface Empty Unit :=
  (mounted [] {} ∅ ()).perform (.start "main" { store := .ofList [("list", { value := mixedText })] })

def mixedInsertions : List Insertion := [⟨"x", .start⟩, ⟨" \"y\" ", .last⟩, ⟨"[1.50]", .start⟩]

theorem insertions_keep_items_mixed : (∃ vs, Json.read? mixedText = some (.arr vs) ∧ Json.integralItems vs) ∧
    (∀ i ∈ mixedInsertions, Text.isBlankText i.text = false) ∧
      ∃ written ws, (mixedList.inserting "main" "list" mixedInsertions).state.current "main" "list" = .ok written ∧
        Json.read? written = some (.arr ws) ∧ ListRegion.items written =
          ["[1.50]", "x", "a\"\\\x01\n\u00fc", "-9223372036854775808", "18446744073709551615", "null",
            "\x7b\"a\":0,\"b\":\x7b\x7d\x7d", " \"y\" "] := by
  have hcurrent : mixedList.current "main" "list" = .ok mixedText := rfl
  have hblank : ∀ i ∈ mixedInsertions, Text.isBlankText i.text = false := by decide
  have hitems : ListRegion.items mixedText = ["a\"\\\x01\n\u00fc", "-9223372036854775808", "18446744073709551615",
      "null", "\x7b\"a\":0,\"b\":\x7b\x7d\x7d"] := by decide +kernel
  have hread : (Json.read? mixedText).any Json.isIntegralList := by decide +kernel
  obtain ⟨v, hv, hlist⟩ := (Option.any_eq_true _ _).1 hread
  obtain ⟨vs, rfl, hint⟩ := Json.exists_of_isIntegralList hlist
  obtain ⟨written, ws, hwritten, hws, hafter⟩ :=
    (insertions_keep_items hcurrent hv hint hblank).2 mixedInsertions (List.prefix_refl _)
  exact ⟨⟨vs, hv, hint⟩, hblank, written, ws, hwritten, hws, hafter.trans (by rw [hitems]; rfl)⟩

end Engine
end BoundPage
