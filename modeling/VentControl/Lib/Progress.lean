/-
VentControl.Lib.Progress — a goal that is reached because the way to it
runs out.

A variant is a number read off the state. Every step of one kind makes
it smaller while the goal is not reached, and no other step makes it
larger. So the goal is reached as soon as that many steps of that kind
were made, whatever other steps were made in between. Nothing is said of
time: a task that makes no step makes no progress.

The steps may have to be good ones, and an invariant may be needed to see
that the number goes down; both are as in `Lib.Run`.
-/
import VentControl.Lib.Run

namespace Runs

namespace Mealy

variable {σ ι ω : Type*} {M : Mealy σ ι ω}

/-- `way` is a variant for `goal`, which the steps with `turn` bring closer,
under the invariant `I`, while all steps are `good`. -/
structure Variant (M : Mealy σ ι ω) (good : σ → ι → Prop) (turn : ι → Bool)
    (I goal : σ → Prop) (way : σ → Nat) : Prop where
  keeps : ∀ s i, I s → good s i → I (M.step s i).1
  arrives : ∀ s, I s → way s = 0 → goal s
  other : ∀ s i, I s → good s i → turn i = false →
    (goal s → goal (M.step s i).1) ∧ way (M.step s i).1 ≤ way s
  closer : ∀ s i, I s → good s i → turn i = true →
    (goal s → goal (M.step s i).1) ∧ (¬ goal s → way (M.step s i).1 < way s)

variable {good : σ → ι → Prop} {turn : ι → Bool} {I goal : σ → Prop} {way : σ → Nat}

/-- A goal that was reached stays reached. -/
theorem Variant.goal_runFrom (h : M.Variant good turn I goal way) {is : List ι} {s : σ}
    (hI : I s) (hgood : EachStep (fun v i => good (M.runFrom s v) i) is) (hgoal : goal s) :
    I (M.runFrom s is) ∧ goal (M.runFrom s is) := by
  induction is generalizing s with
  | nil => exact ⟨hI, hgoal⟩
  | cons i is ih =>
    obtain ⟨hi, his⟩ := EachStep.cons_iff.mp hgood
    have hstays : goal (M.step s i).1 := by
      cases hturn : turn i with
      | true => exact (h.closer s i hI hi hturn).1 hgoal
      | false => exact (h.other s i hI hi hturn).1 hgoal
    exact ih (h.keeps s i hI hi) his hstays

/-- **Progress rule**: the goal is reached once as many steps with `turn` were
made as the variant says, and the invariant still holds. -/
theorem Variant.reaches (h : M.Variant good turn I goal way) {is : List ι} {s : σ}
    (hI : I s) (hgood : EachStep (fun v i => good (M.runFrom s v) i) is)
    (hway : way s ≤ is.countP turn) : I (M.runFrom s is) ∧ goal (M.runFrom s is) := by
  induction is generalizing s with
  | nil => exact ⟨hI, h.arrives s hI (by simpa using hway)⟩
  | cons i is ih =>
    by_cases hgoal : goal s
    · exact h.goal_runFrom hI hgood hgoal
    · obtain ⟨hi, his⟩ := EachStep.cons_iff.mp hgood
      refine ih (h.keeps s i hI hi) his ?_
      rw [List.countP_cons] at hway
      cases hturn : turn i with
      | true =>
        have hlt := (h.closer s i hI hi hturn).2 hgoal
        rw [hturn, if_pos rfl] at hway
        omega
      | false =>
        have hle := (h.other s i hI hi hturn).2
        rw [hturn, if_neg (by decide)] at hway
        omega

/-- The same from the end of a run. -/
theorem Variant.reaches_run (h : M.Variant good turn I goal way) (js is : List ι)
    (hI : I (M.run js)) (hgood : EachStep (fun v i => good (M.run (js ++ v)) i) is)
    (hway : way (M.run js) ≤ is.countP turn) :
    I (M.run (js ++ is)) ∧ goal (M.run (js ++ is)) := by
  rw [run_append]
  refine h.reaches hI ?_ hway
  intro v i t he
  rw [← run_append]
  exact hgood v i t he

end Mealy

end Runs
