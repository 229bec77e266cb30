/-
VentControl.Lib.Divider — a counter that divides a clock.

`divider period o` counts its ticks, emits `o` at every `period`-th and
starts again at 0. `divider_traceFrom` says how often it has, from any
count.

A divider by `p` runs ahead of one by `p + 1`: `div_eq_div_succ_add` is by
how much, and `div_eq_div_succ_iff` names the numbers of ticks after which
the two still agree.
-/
import VentControl.Lib.Run

namespace Divider

open Runs

variable {ω : Type*}

/-- The counter. Its inputs are the ticks. -/
def divider (period : Nat) (o : ω) : Mealy Nat Unit ω where
  init := 0
  step c _ := if c + 1 ≥ period then (0, [o]) else (c + 1, [])

/-- The count stays below the period. -/
theorem divider_step_lt {period : Nat} (hpos : 0 < period) (o : ω) (c : Nat) (tick : Unit) :
    ((divider period o).step c tick).1 < period := by
  simp only [divider]
  split <;> simp only <;> omega

/-- How often the counter has come round after some ticks. -/
theorem divider_traceFrom {period : Nat} (o : ω) (ticks : List Unit) {c : Nat} (hc : c < period) :
    (divider period o).traceFrom c ticks = List.replicate ((c + ticks.length) / period) o := by
  have hpos : 0 < period := by omega
  induction ticks generalizing c with
  | nil => simp [Nat.div_eq_of_lt hc]
  | cons tick ticks ih =>
    rw [Mealy.traceFrom_cons, List.length_cons]
    by_cases hlast : c + 1 ≥ period
    · -- the tick at which it comes round
      have hstep : (divider period o).step c tick = (0, [o]) := if_pos hlast
      have hround : c + (ticks.length + 1) = period + ticks.length := by omega
      rw [hstep, ih hpos, hround, Nat.add_div_left _ hpos, Nat.zero_add, List.replicate_succ]
      rfl
    · have hstep : (divider period o).step c tick = (c + 1, []) := if_neg hlast
      have hnext : c + (ticks.length + 1) = c + 1 + ticks.length := by omega
      rw [hstep, ih (by omega), hnext]
      rfl

/-! ## Two dividers -/

/-- By how much a divider by `p` is ahead of one by `p + 1`. -/
theorem div_eq_div_succ_add {p : Nat} (hp : 0 < p) (n : Nat) :
    n / p = n / (p + 1) + (n / (p + 1) + n % (p + 1)) / p := by
  have hn : n = p * (n / (p + 1)) + (n / (p + 1) + n % (p + 1)) := by
    have h := Nat.div_add_mod n (p + 1)
    rw [Nat.add_mul, Nat.one_mul] at h
    omega
  calc n / p = (p * (n / (p + 1)) + (n / (p + 1) + n % (p + 1))) / p := by rw [← hn]
    _ = n / (p + 1) + (n / (p + 1) + n % (p + 1)) / p := Nat.mul_add_div hp _ _

/-- The two agree as long as the rounds made and the ticks of the last one
are together fewer than `p`. -/
theorem div_eq_div_succ_iff {p : Nat} (hp : 0 < p) (n : Nat) :
    n / p = n / (p + 1) ↔ n / (p + 1) + n % (p + 1) < p := by
  rw [div_eq_div_succ_add hp n, ← Nat.div_eq_zero_iff_lt hp]
  omega

end Divider
