import BoundPage.Proofs.Engine.Counters
/-!
# Counters that go round

Between two bounds a counter that goes on or back by one stays on a cycle (`Integer.cycle`): past one bound it comes in
at the other.  So where it is after a run depends on how often it went on and how often it went back, not on the order
(`Engine.current_after_turns`).
-/
namespace BoundPage

namespace Integer

/-- The place of a number on the cycle of the integers from `lo` to `hi`. -/
def cycle (lo hi n : Int) : Int := lo + (n - lo) % (hi - lo + 1)

variable {lo hi n : Int}

theorem cycle_between (h : lo ≤ hi) (n : Int) : lo ≤ cycle lo hi n ∧ cycle lo hi n ≤ hi := by
  have hnonneg : 0 ≤ (n - lo) % (hi - lo + 1) := Int.emod_nonneg _ (by omega)
  have hlt : (n - lo) % (hi - lo + 1) < hi - lo + 1 := Int.emod_lt_of_pos _ (by omega)
  unfold cycle
  omega

theorem cycle_of_between (hlo : lo ≤ n) (hhi : n ≤ hi) : cycle lo hi n = n := by
  unfold cycle
  rw [Int.emod_eq_of_lt (by omega) (by omega)]
  omega

/-- A round leads back. -/
theorem cycle_add_round (lo hi n : Int) : cycle lo hi (n + (hi - lo + 1)) = cycle lo hi n := by
  unfold cycle
  rw [show n + (hi - lo + 1) - lo = n - lo + (hi - lo + 1) by omega, Int.add_emod_right]

/-- Going on from a place is going on from any number that has this place. -/
theorem cycle_cycle_add (lo hi n d : Int) : cycle lo hi (cycle lo hi n + d) = cycle lo hi (n + d) := by
  unfold cycle
  rw [show lo + (n - lo) % (hi - lo + 1) + d - lo = (n - lo) % (hi - lo + 1) + d by omega, Int.emod_add_emod,
    show n - lo + d = n + d - lo by omega]

/-- **One past a bound, wrapping is going round.** -/
theorem wrapped_eq_cycle (h : lo ≤ hi) (hlo : lo - 1 ≤ n) (hhi : n ≤ hi + 1) : wrapped lo hi n = cycle lo hi n := by
  unfold wrapped
  split
  · next habove =>
    have hn : n = lo + (hi - lo + 1) := by omega
    rw [hn, cycle_add_round, cycle_of_between (Int.le_refl lo) h]
  · split
    · next hbelow =>
      have hn : n + (hi - lo + 1) = hi := by omega
      rw [← cycle_add_round, hn, cycle_of_between h (Int.le_refl hi)]
    · rw [cycle_of_between (by omega) (by omega)]

/-- A number comes back to its place after full rounds only. -/
theorem cycle_add_eq_iff (hlo : lo ≤ n) (hhi : n ≤ hi) (d : Int) : cycle lo hi (n + d) = n ↔ hi - lo + 1 ∣ d := by
  have hplace : (n - lo) % (hi - lo + 1) = n - lo := Int.emod_eq_of_lt (by omega) (by omega)
  have hcycle : cycle lo hi (n + d) = n ↔ (n - lo + d) % (hi - lo + 1) = n - lo := by
    unfold cycle
    rw [show n + d - lo = n - lo + d by omega]
    omega
  rw [hcycle]
  constructor
  · intro h
    have hdvd := Int.dvd_self_sub_of_emod_eq h
    rwa [show n - lo + d - (n - lo) = d by omega] at hdvd
  · rintro ⟨k, rfl⟩
    rw [Int.add_mul_emod_self_left, hplace]

/-- The numbers between bounds that are not the last integers are read back. -/
theorem leading?_between (hlo : bottom < lo) (hhi : hi < top) (hn : lo ≤ n) (hn' : n ≤ hi) :
    leading? (toString n) = some n := by
  rw [leading?_toString ⟨by omega, by omega⟩, if_neg (by omega)]

end Integer

/-- One step of a counter that goes round. -/
inductive Turn where
  | onwards
  | backwards
deriving DecidableEq, Repr

namespace Turn

def amount : Turn → Int
  | onwards => 1
  | backwards => -1

def stride (lo hi : Int) (t : Turn) : Stride := { amount := t.amount, min? := some lo, max? := some hi }

/-- How far a counter goes on in all. -/
def total (ts : List Turn) : Int := ts.count onwards - ts.count backwards

theorem total_cons (t : Turn) (ts : List Turn) : total (t :: ts) = t.amount + total ts := by
  unfold total
  cases t with
  | onwards =>
    rw [List.count_cons_self, List.count_cons_of_ne (by decide)]
    show _ = 1 + _
    omega
  | backwards =>
    rw [List.count_cons_self, List.count_cons_of_ne (by decide)]
    show _ = -1 + _
    omega

/-- **A step between bounds that are not the last integers is one on the cycle.** -/
theorem next_stride {lo hi n : Int} (hlo : Integer.bottom < lo) (hhi : hi < Integer.top) (hn : lo ≤ n) (hn' : n ≤ hi)
    (t : Turn) : (t.stride lo hi).next n = Integer.cycle lo hi (n + t.amount) := by
  have hamount : -1 ≤ t.amount ∧ t.amount ≤ 1 := by cases t <;> decide
  have hrange : Integer.InRange (n + t.amount) := ⟨by omega, by omega⟩
  have hstep : (t.stride lo hi).next n = Integer.wrapped lo hi (Integer.clip (n + t.amount)) := rfl
  rw [hstep, Integer.clip_of_inRange hrange, Integer.wrapped_eq_cycle (by omega) (by omega) (by omega)]

end Turn

namespace Engine

variable {S H W : Type} [RenderTarget S] {g : Engine S H W} {id name : String} {lo hi v : Int}

theorem increment_turn (hlo : Integer.bottom < lo) (hhi : hi < Integer.top) (h : g.current id name = .ok (toString v))
    (hv : lo ≤ v) (hv' : v ≤ hi) (t : Turn) :
    (g.increment id name t.amount (some lo) (some hi)).state.current id name =
      .ok (toString (Integer.cycle lo hi (v + t.amount))) := by
  rw [increment_of_integer h (Integer.leading?_between hlo hhi hv hv'), ← Turn.next_stride hlo hhi hv hv' t]
  exact (current_write h (.integer ((t.stride lo hi).next v))).2

theorem stepping_turns (hlo : Integer.bottom < lo) (hhi : hi < Integer.top) : ∀ (ts : List Turn) {g : Engine S H W}
    {v : Int}, g.current id name = .ok (toString v) → lo ≤ v → v ≤ hi →
      (g.stepping id name (ts.map (Turn.stride lo hi))).state.current id name =
        .ok (toString (Integer.cycle lo hi (v + Turn.total ts)))
  | [], g, v, h, hv, hv' => by
    rw [show Turn.total [] = 0 from rfl, Int.add_zero, Integer.cycle_of_between hv hv']
    exact h
  | t :: ts, g, v, h, hv, hv' => by
    have hbetween := Integer.cycle_between (Int.le_trans hv hv') (v + t.amount)
    have hrest := stepping_turns hlo hhi ts (increment_turn hlo hhi h hv hv' t) hbetween.1 hbetween.2
    rw [Integer.cycle_cycle_add, Int.add_assoc, ← Turn.total_cons] at hrest
    exact hrest

/-- **A counter between bounds is a cycle.**  Steps of one, onwards and backwards in any order, take it round the
integers from the minimum to the maximum, so it is back where it started exactly after full rounds. -/
theorem current_after_turns (hlo : Integer.bottom < lo) (hhi : hi < Integer.top)
    (h : g.current id name = .ok (toString v)) (hv : lo ≤ v) (hv' : v ≤ hi) (ts : List Turn) :
    (g.stepping id name (ts.map (Turn.stride lo hi))).state.current id name = .ok (toString
        (lo + (v - lo + ts.count .onwards - ts.count .backwards) % (hi - lo + 1))) ∧
      ((g.stepping id name (ts.map (Turn.stride lo hi))).state.current id name = .ok (toString v) ↔
        hi - lo + 1 ∣ (ts.count .onwards : Int) - ts.count .backwards) := by
  have hcurrent := stepping_turns hlo hhi ts h hv hv'
  have hbetween := Integer.cycle_between (Int.le_trans hv hv') (v + Turn.total ts)
  constructor
  · rw [hcurrent]
    unfold Integer.cycle Turn.total
    congr 4
    omega
  · rw [← Turn.total, ← Integer.cycle_add_eq_iff hv hv', hcurrent]
    constructor
    · intro htext
      have hread := Integer.leading?_between hlo hhi hbetween.1 hbetween.2
      rw [Except.ok.inj htext, Integer.leading?_between hlo hhi hv hv'] at hread
      exact (Option.some.inj hread).symm
    · exact fun hplace => congrArg (fun n => Except.ok (toString n)) hplace

/-- Three places below zero, entered at the top one. -/
def carousel : Engine Surface Empty Unit :=
  (mounted [] {} ∅ ()).perform (.start "main" { store := .ofList [("n", { value := "-1" })] })

theorem current_after_turns_carousel : carousel.current "main" "n" = .ok (toString (-1 : Int)) ∧
    (carousel.stepping "main" "n" ([.onwards, .onwards, .backwards, .onwards].map
      (Turn.stride (-3) (-1)))).state.current "main" "n" = .ok (toString (-2 : Int)) ∧
    (carousel.stepping "main" "n" ([.onwards, .onwards, .onwards].map
      (Turn.stride (-3) (-1)))).state.current "main" "n" = .ok (toString (-1 : Int)) := by
  have hcurrent : carousel.current "main" "n" = .ok (toString (-1 : Int)) := rfl
  have hturns := current_after_turns (by decide : Integer.bottom < -3) (by decide : -1 < Integer.top) hcurrent
    (by decide) (by decide)
  exact ⟨hcurrent, (hturns _).1, (hturns _).2.2 (by decide)⟩

end Engine
end BoundPage
