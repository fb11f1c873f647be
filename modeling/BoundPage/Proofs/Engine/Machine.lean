import BoundPage.Proofs.Engine.HostCalls
import BoundPage.Proofs.Integer.Machine
/-!
# Interactions in machine words

An interaction counts in words: its texts are read by bytes, the amount is turned round by a product of words, and the
sum is one of words.  Nothing of this is checked but the magnitude that is read; still an interaction does the same as
with integers of any size, and no text is cut inside a character (`interactWord_eq`).
-/
namespace BoundPage

/-- Does one thing for every item until one fails. -/
def Ran.eachChecked {σ α ι ε : Type} (f : σ → ι → Except ε (Ran σ α)) (state : σ) :
    List ι → Except ε (Ran σ (List α))
  | [] => .ok ⟨state, [], []⟩
  | i :: is => do
    let r ← f state i
    let rest ← eachChecked f r.state is
    return r.andThen fun _ a => rest.map (a :: ·)

theorem Ran.eachChecked_eq {σ α ι ε : Type} {f : σ → ι → Except ε (Ran σ α)} {g : σ → ι → Ran σ α}
    (hf : ∀ state i, f state i = .ok (g state i)) : ∀ (is : List ι) (state : σ),
    eachChecked f state is = .ok (each g state is)
  | [], _ => rfl
  | i :: is, state => by
    rw [eachChecked, hf]
    show (eachChecked f (g state i).state is >>= _) = _
    rw [eachChecked_eq hf is]
    rfl

namespace Engine
open Text (NoBoundary)

/-- The bounds among some words. -/
def boundsOfWords : List (Option Int64) → Option Int64 × Option Int64
  | [max?] => (none, max?)
  | [min?, max?] => (min?, max?)
  | _ => (none, none)

theorem boundsOf_map (ws : List (Option Int64)) : boundsOf (ws.map (Option.map Int64.toInt)) =
    ((boundsOfWords ws).1.map Int64.toInt, (boundsOfWords ws).2.map Int64.toInt) := by
  match ws with
  | [] => rfl
  | [_] => rfl
  | [_, _] => rfl
  | _ :: _ :: _ :: _ => rfl

variable {S H W : Type} [RenderTarget S]

/-- Counts a variable onwards by a word. -/
def incrementWord (g : Engine S H W) (id name : String) (amount : Int64) (min? max? : Option Int64) :
    Except NoBoundary (Ran (Engine S H W) WriteOutcome) :=
  match g.current id name with
  | .error reason => .ok (g.skip reason (lookupEvents id name reason))
  | .ok value => do
    match ← Word.read value with
    | some n => return g.write id name (.integer (Word.step n amount min? max?).toInt)
    | none => return g.skip (.notANumber value) [.notAnInteger id name value]

/-- Reads the bounds and counts a variable onwards between them. -/
def countBetween (g : Engine S H W) (id : String) (c : Count) (amount : Int64) (event : Option String) :
    Except NoBoundary (Ran (Engine S H W) WriteOutcome) := do
  let bounds ← c.bounds.mapM fun p => Word.read (g.resolveText id event p)
  g.incrementWord id c.target amount (boundsOfWords bounds).1 (boundsOfWords bounds).2

/-- Counts a variable by the product of a direction and an amount. -/
def countWord (g : Engine S H W) (id : String) (c : Count) (direction : Int64) (event : Option String) :
    Except NoBoundary (Ran (Engine S H W) WriteOutcome) :=
  match c.amount with
  | none => g.countBetween id c (direction * 1) event
  | some p => do
    let text := g.resolveText id event p
    match ← Word.read text with
    | some amount => g.countBetween id c (direction * amount) event
    | none => return g.skip (.notANumber text) [.amountNotAnInteger c.target text]

/-- Sets a variable to the integer that a value starts with. -/
def setWord (g : Engine S H W) (id target : String) (p : ActionParameter) (event : Option String) :
    Except NoBoundary (Ran (Engine S H W) WriteOutcome) := do
  let text := g.resolveText id event p
  match ← Word.read text with
  | some n => return g.write id target (.integer n.toInt)
  | none => return g.skip (.notANumber text) [.typeMismatch target text]

/-- Runs an action, which counts in words. -/
def actWord (run : Runner S H W) (g : Engine S H W) (id : String) (event : Option String) :
    Action → Except NoBoundary (Ran (Engine S H W) ActionOutcome)
  | .increment c => (g.countWord id c 1 event).map (Ran.map .write)
  | .decrement c => (g.countWord id c (-1) event).map (Ran.map .write)
  | .setValue target p .integer => (g.setWord id target p event).map (Ran.map .write)
  | a => .ok (g.act run id event a)

def actOnWord (run : Runner S H W) (id : String) (event : Option String) (g : Engine S H W) (d : ActionDescriptor) :
    Except NoBoundary (Ran (Engine S H W) ActionOutcome) :=
  match Action.ofDescriptor d with
  | .ok a => (g.actWord run id event a).map (Ran.after [.runningAction a.name])
  | .error e => .ok ⟨g, .invalid e, [.invalidAction e.message]⟩

def dispatchWord (run : Runner S H W) (g : Engine S H W) (id : String) (ds : List ActionDescriptor)
    (event : Option String) : Except NoBoundary (Ran (Engine S H W) InteractionReport) :=
  (Ran.eachChecked (actOnWord run id event) g ds).map <| Ran.map fun outcomes =>
    { stopPropagation := ds.any (isFlag "stop-propagation")
      preventDefault := ds.any (isFlag "prevent-default")
      outcomes }

/-- Runs the interaction that a text describes, which counts in words. -/
def interactWord (run : Runner S H W) (g : Engine S H W) (id actions : String) (event : Option String) :
    Except NoBoundary (Ran (Engine S H W) (Except InteractionError InteractionReport)) :=
  if !g.instances.contains id then .ok ⟨g, .error (.unknownInstance id), [.interactionUnknownInstance id]⟩
  else
    match ActionDescriptor.listOfText? actions with
    | none => .ok ⟨g, .error .malformedActions, [.malformedActions]⟩
    | some ds =>
      (g.dispatchWord run id ds event).map fun r => (r.map .ok).after [.handlingInteraction ds.length]

/-! ## The same as with integers -/

variable (g : Engine S H W) (id : String) (event : Option String)

theorem incrementWord_eq (name : String) (amount : Int64) (min? max? : Option Int64) :
    g.incrementWord id name amount min? max? =
      .ok (g.increment id name amount.toInt (min?.map Int64.toInt) (max?.map Int64.toInt)) := by
  unfold incrementWord increment withCurrent
  cases g.current id name with
  | error reason => rfl
  | ok value =>
    dsimp only
    rw [Word.read_eq]
    cases hread : Integer.leading? value with
    | none => rfl
    | some n =>
      show Except.ok _ = Except.ok _
      rw [Word.toInt_step, Word.toInt_ofInt_of_leading? hread]

theorem countBetween_eq (c : Count) (amount : Int64) : g.countBetween id c amount event =
    .ok (g.increment id c.target amount.toInt
      (boundsOf (c.bounds.map fun p => Integer.leading? (g.resolveText id event p))).1
      (boundsOf (c.bounds.map fun p => Integer.leading? (g.resolveText id event p))).2) := by
  have hread : (c.bounds.mapM fun p => Word.read (g.resolveText id event p)) =
      .ok (c.bounds.map fun p => (Integer.leading? (g.resolveText id event p)).map Int64.ofInt) := by
    simp only [Word.read_eq]
    exact List.mapM_pure
  have hwords : (c.bounds.map fun p => Integer.leading? (g.resolveText id event p)) =
      (c.bounds.map fun p => (Integer.leading? (g.resolveText id event p)).map Int64.ofInt).map
        (Option.map Int64.toInt) := by
    rw [List.map_map]
    exact List.map_congr_left fun p _ => (Word.map_ofInt_toInt _).symm
  rw [countBetween, hread, hwords, boundsOf_map]
  exact g.incrementWord_eq id c.target amount _ _

/-- **The product with a direction is exact**, as no amount that is read is the least word. -/
theorem countWord_eq (c : Count) {direction : Int64} (hd : direction = 1 ∨ direction = -1) :
    g.countWord id c direction event = .ok (g.count id c direction.toInt event) := by
  unfold countWord count
  cases c.amount with
  | none =>
    dsimp only
    rw [countBetween_eq, Int64.mul_one]
  | some p =>
    dsimp only
    rw [Word.read_eq]
    cases hread : Integer.leading? (g.resolveText id event p) with
    | none => rfl
    | some amount =>
      have hword := Word.toInt_ofInt_of_leading? hread
      have hlow : -Integer.top ≤ (Int64.ofInt amount).toInt := by
        rw [hword]
        exact (Integer.leading?_bounds hread).1
      show g.countBetween id c (direction * Int64.ofInt amount) event = _
      rw [countBetween_eq, Word.toInt_sign_mul hd hlow, hword]

theorem setWord_eq (target : String) (p : ActionParameter) :
    g.setWord id target p event = .ok (g.setValue id target p .integer event) := by
  unfold setWord setValue ValueType.coerce?
  dsimp only
  rw [Word.read_eq]
  cases hread : Integer.leading? (g.resolveText id event p) with
  | none => rfl
  | some n =>
    show Except.ok _ = Except.ok _
    rw [Word.toInt_ofInt_of_leading? hread]
    rfl

variable (run : Runner S H W)

theorem actWord_eq (a : Action) : g.actWord run id event a = .ok (g.act run id event a) := by
  cases a with
  | increment c => exact congrArg (Except.map (Ran.map ActionOutcome.write)) (g.countWord_eq id event c (.inl rfl))
  | decrement c => exact congrArg (Except.map (Ran.map ActionOutcome.write)) (g.countWord_eq id event c (.inr rfl))
  | setValue target p type =>
    cases type with
    | integer => exact congrArg (Except.map (Ran.map ActionOutcome.write)) (g.setWord_eq id event target p)
    | _ => rfl
  | _ => rfl

theorem actOnWord_eq (d : ActionDescriptor) : actOnWord run id event g d = .ok (actOn run id event g d) := by
  unfold actOnWord actOn
  cases Action.ofDescriptor d with
  | error e => rfl
  | ok a =>
    dsimp only
    rw [actWord_eq]
    rfl

theorem dispatchWord_eq (ds : List ActionDescriptor) :
    g.dispatchWord run id ds event = .ok (g.dispatch run id ds event) := by
  unfold dispatchWord
  rw [Ran.eachChecked_eq fun g d => actOnWord_eq g id event run d]
  rfl

theorem interactWord_eq (actions : String) :
    g.interactWord run id actions event = .ok (g.interact run id actions event) := by
  unfold interactWord interact
  split
  · rfl
  · cases ActionDescriptor.listOfText? actions with
    | none => rfl
    | some ds =>
      dsimp only
      rw [dispatchWord_eq]
      rfl

end Engine

/-- **Counting in words is counting**, whatever texts the steps and the bounds are.  A text is read by bytes without a cut
inside a character, and as a word exactly if it begins with a signed number of a magnitude up to the greatest word; so
its negative is a word too, the product with a direction is the product of integers, and the sum is theirs, clipped.
With all of that in words every interaction does what it does with integers of any size. -/
theorem counting_in_words_exact :
    (∀ text, ∃ w, Word.read text = .ok w ∧ w.map Int64.toInt = Integer.leading? text) ∧
    (∀ text n, Integer.leading? text = some n ↔ ∃ sign digits rest,
      Integer.Begins (Text.trimChars text.toList) sign digits rest ∧ n = Integer.signedValue sign digits ∧
        (Integer.magnitude digits : Int) ≤ Integer.top) ∧
    (∀ text n, Integer.leading? text = some n → -Integer.top ≤ n ∧ n ≤ Integer.top ∧
      ∀ direction : Int64, direction = 1 ∨ direction = -1 →
        (direction * Int64.ofInt n).toInt = direction.toInt * n) ∧
    (∀ (value amount : Int64) (min? max? : Option Int64), (Word.step value amount min? max?).toInt =
      Integer.step value.toInt amount.toInt (min?.map Int64.toInt) (max?.map Int64.toInt)) ∧
    ∀ {S H W : Type} [RenderTarget S] (run : Runner S H W) (g : Engine S H W) (id : String) (event : Option String),
      (∀ ds, g.dispatchWord run id ds event = .ok (g.dispatch run id ds event)) ∧
        ∀ actions, g.interactWord run id actions event = .ok (g.interact run id actions event) := by
  refine ⟨?_, ?_, ?_, Word.toInt_step, ?_⟩
  · intro text
    exact ⟨_, Word.read_eq text, Word.map_ofInt_toInt text⟩
  · intro text n
    exact Integer.leading?_eq_some_iff
  · intro text n hread
    obtain ⟨hlow, hhigh⟩ := Integer.leading?_bounds hread
    have hword := Word.toInt_ofInt_of_leading? hread
    refine ⟨hlow, hhigh, fun direction hd => ?_⟩
    rw [Word.toInt_sign_mul hd (by rwa [hword]), hword]
  · intro S H W _ run g id event
    exact ⟨g.dispatchWord_eq id event run, g.interactWord_eq id event run⟩

/-- A step down by the least amount that is read, with a digit of another script behind it. -/
theorem counting_in_words_exact_least :
    Integer.leading? "\u00A0-0009223372036854775807\u0663" = some (-9223372036854775807) ∧
    Word.read "-\u0663" = .ok none ∧
    Engine.tally.dispatchWord Recording.Step.noHost "main"
        [Engine.literal "decrement" "n" [("by", ["\u00A0-0009223372036854775807\u0663"])]] none =
      .ok (Engine.tally.dispatch Recording.Step.noHost "main"
        [Engine.literal "decrement" "n" [("by", ["\u00A0-0009223372036854775807\u0663"])]] none) ∧
    (Engine.tally.dispatch Recording.Step.noHost "main"
      [Engine.literal "decrement" "n" [("by", ["\u00A0-0009223372036854775807\u0663"])]]
        none).state.surface.textAt? "n:main" = some "9223372036854775807" := by
  refine ⟨by decide +kernel, by decide +kernel, ?_, by decide +kernel⟩
  exact (counting_in_words_exact.2.2.2.2 Recording.Step.noHost Engine.tally "main" none).1 _

end BoundPage
