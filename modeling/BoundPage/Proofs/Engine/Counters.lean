import BoundPage.Proofs.Engine.HostCalls
import BoundPage.Proofs.Integer
/-!
# Counters

Every step of a counter goes through text: the variable is read, and the sum is written.  So a run of steps goes on for
as long as every sum can be read back, and there is one integer that cannot (`applied_iff_above_bottom`).
-/
namespace BoundPage

/-- One step of a counter: how far, and between which bounds. -/
structure Stride where
  amount : Int
  min? : Option Int := none
  max? : Option Int := none

namespace Stride

structure Bounded (s : Stride) : Prop where
  min : ∀ lo ∈ s.min?, Integer.InRange lo
  max : ∀ hi ∈ s.max?, Integer.InRange hi

def next (s : Stride) (n : Int) : Int := Integer.step n s.amount s.min? s.max?

theorem Bounded.next {s : Stride} (h : s.Bounded) (n : Int) : Integer.InRange (s.next n) :=
  Integer.step_inRange h.min h.max n s.amount

/-- What a counter shows, one integer after every step. -/
def counted (n : Int) : List Stride → List Int
  | [] => []
  | s :: ss => s.next n :: counted (s.next n) ss

theorem counted_ne_nil {ss : List Stride} (h : ss ≠ []) (n : Int) : counted n ss ≠ [] := by
  cases ss with
  | nil => exact absurd rfl h
  | cons s ss => exact List.cons_ne_nil _ _

end Stride

namespace Engine

variable {S H W : Type} {g : Engine S H W} {id name text : String}

theorem current_eq_ok : g.current id name = .ok text ↔
    ∃ i v, g.instance? id = some i ∧ i.store.get? name = some v ∧ v.value = text := by
  unfold current Variables.value?
  cases g.instance? id with
  | none => simp
  | some i =>
    dsimp only
    cases hv : i.store.get? name <;> simp [hv]

variable [RenderTarget S]

/-- **A write to a variable that is there is applied**, and the variable has the text of the value then. -/
theorem current_write (h : g.current id name = .ok text) (value : Scalar) :
    (g.write id name value).answer.isApplied ∧ (g.write id name value).state.current id name = .ok value.render := by
  obtain ⟨i, v, hi, hv, -⟩ := current_eq_ok.1 h
  unfold write Instance.write
  rw [hi]
  simp only [hv]
  exact ⟨rfl, current_eq_ok.2 ⟨_, _, Table.get?_insert_self .., Table.get?_insert_self .., rfl⟩⟩

theorem increment_of_integer {n : Int} (h : g.current id name = .ok text) (hn : Integer.leading? text = some n)
    (amount : Int) (min? max? : Option Int) :
    g.increment id name amount min? max? = g.write id name (.integer (Integer.step n amount min? max?)) := by
  unfold increment withCurrent
  simp only [h, hn]

theorem increment_of_no_integer (h : g.current id name = .ok text) (hn : Integer.leading? text = none)
    (amount : Int) (min? max? : Option Int) :
    (g.increment id name amount min? max?).answer = .skipped (.notANumber text) := by
  unfold increment withCurrent
  simp only [h, hn]
  rfl

/-- Steps a counter, once for every stride. -/
def stepping (g : Engine S H W) (id name : String) (ss : List Stride) : Ran (Engine S H W) (List WriteOutcome) :=
  g.calls id (ss.map fun s => .increment name s.amount s.min? s.max?)

theorem answer_stepping_cons (s : Stride) (ss : List Stride) : (g.stepping id name (s :: ss)).answer =
    (g.increment id name s.amount s.min? s.max?).answer ::
      ((g.increment id name s.amount s.min? s.max?).state.stepping id name ss).answer := rfl

/-- **A counter that cannot be read is not stepped**, whatever the stride. -/
theorem not_applied_of_no_integer (h : g.current id name = .ok text) (hn : Integer.leading? text = none)
    {ss : List Stride} (hss : ss ≠ []) : ¬ ∀ o ∈ (g.stepping id name ss).answer, o.isApplied := by
  cases ss with
  | nil => exact absurd rfl hss
  | cons s ss =>
    rw [answer_stepping_cons, List.forall_mem_cons, increment_of_no_integer h hn]
    exact fun hall => Bool.false_ne_true hall.1

/-- **Counting goes on exactly as long as the counter stays above the least integer of 64 bits.**  From any text that
starts with an integer every step is applied, unless one before the last leaves that integer: its text alone is not read
back. -/
theorem applied_iff_above_bottom {n : Int} (h : g.current id name = .ok text) (hn : Integer.leading? text = some n)
    (ss : List Stride) (hss : ∀ s ∈ ss, s.Bounded) :
    (∀ o ∈ (g.stepping id name ss).answer, o.isApplied) ↔ Integer.bottom ∉ (Stride.counted n ss).dropLast := by
  induction ss generalizing g text n with
  | nil => exact ⟨fun _ => List.not_mem_nil, fun _ _ ho => absurd ho List.not_mem_nil⟩
  | cons s ss ih =>
    have hrest := fun s' hs' => hss s' (List.mem_cons_of_mem s hs')
    have hstep : g.increment id name s.amount s.min? s.max? = g.write id name (.integer (s.next n)) :=
      increment_of_integer h hn ..
    obtain ⟨happlied, hcurrent⟩ := current_write h (.integer (s.next n))
    rw [answer_stepping_cons, hstep, List.forall_mem_cons, and_iff_right happlied, Stride.counted]
    have hread : Integer.leading? (Scalar.render (.integer (s.next n))) = _ :=
      Integer.leading?_toString ((hss s List.mem_cons_self).next n)
    by_cases hbottom : s.next n = Integer.bottom
    · rw [if_pos hbottom] at hread
      by_cases hss' : ss = []
      · subst hss'
        exact ⟨fun _ => List.not_mem_nil, fun _ _ ho => absurd ho List.not_mem_nil⟩
      · -- The counter is stuck at the least integer.
        rw [List.dropLast_cons_of_ne_nil (Stride.counted_ne_nil hss' _)]
        exact iff_of_false (not_applied_of_no_integer hcurrent hread hss')
          (not_not_intro (hbottom ▸ List.mem_cons_self))
    · rw [if_neg hbottom] at hread
      rw [ih hcurrent hread hrest]
      by_cases hss' : ss = []
      · subst hss'
        rfl
      · rw [List.dropLast_cons_of_ne_nil (Stride.counted_ne_nil hss' _), List.mem_cons, not_or,
          and_iff_right (Ne.symm hbottom)]

/-- Up past the maximum, where the count goes on at the least integer. -/
def wrappingStrides : List Stride :=
  [{ amount := 1 }, { amount := -3, max? := some 5 }, { amount := 7, min? := some Integer.bottom, max? := some 5 }]

theorem applied_wrappingStrides : (∀ s ∈ wrappingStrides, s.Bounded) ∧
    (∀ o ∈ (tally.stepping "main" "n" wrappingStrides).answer, o.isApplied) ∧
      (tally.stepping "main" "n" wrappingStrides).state.current "main" "n" = .ok "-9223372036854775808" := by
  have hbounded : ∀ s ∈ wrappingStrides, s.Bounded := by
    intro s hs
    simp only [wrappingStrides, List.mem_cons, List.not_mem_nil, or_false] at hs
    rcases hs with rfl | rfl | rfl
    all_goals exact ⟨by decide, by decide⟩
  have hcurrent : tally.current "main" "n" = .ok "4" := rfl
  have hread : Integer.leading? "4" = some 4 := rfl
  exact ⟨hbounded, (applied_iff_above_bottom hcurrent hread wrappingStrides hbounded).2 (by decide), by decide +kernel⟩

/-- A counter that is one above the least integer. -/
def lowCounter : Engine Surface Empty Unit :=
  (mounted [] {} ∅ ()).perform (.start "main" { store := .ofList [("n", { value := "-9223372036854775807" })] })

/-- **A counter can become stuck by counting**: the first step is clipped to the least integer, and the second one is
skipped. -/
theorem not_applied_lowCounter : Integer.leading? "-9223372036854775807" = some (-9223372036854775807) ∧
    ¬ ∀ o ∈ (lowCounter.stepping "main" "n" [{ amount := -5 }, { amount := 1 }]).answer, o.isApplied := by
  decide +kernel

end Engine
end BoundPage
