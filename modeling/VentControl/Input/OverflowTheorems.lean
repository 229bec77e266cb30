/-
VentControl.Input.OverflowTheorems — how long an input may stay high.

`handle_inputs` adds 100 ms to the counter of a high input in every
iteration, also when its state has long been set: the comparison with
`INPUT_DELAY_MS` is skipped then, the sum is not. The counter holds 100 ms
for every sample in a row that was high until it passes the end of its
type, at the sample 21474837 in a row. That is after 24 days and 20 hours
of a switch that was left on.

C does not define what comes then. What the two's complement sum makes of
the counter is not seen outside of it, since the state is latched: nothing
in `EventTheorems` assumes that the counters are in range.
-/
import VentControl.Input.EventTheorems

namespace VentControl.Input

open Runs

/-- The greatest `int`. -/
def intMax : Int := 2 ^ 31 - 1

/-- How many samples in a row may be high: `intMax / inputReadDelayMs`. -/
def maxHighTurns : Nat := (intMax / inputReadDelayMs).toNat

theorem maxHighTurns_eq : maxHighTurns = 21474836 := by decide

/-- The sums one iteration computes are in the range of an `int`, and so are
the counters it leaves, which are not negative. -/
def NoOverflow (s : Locals) (x : Samples) : Prop :=
  ∀ i, (x i = true → (s.channels i).activeTimeMs + inputReadDelayMs ≤ intMax) ∧
    0 ≤ ((inputTurn s x).1.channels i).activeTimeMs ∧
    ((inputTurn s x).1.channels i).activeTimeMs ≤ intMax

/-! ## One iteration -/

/-- The rest of the loop leaves the counters alone. -/
theorem inputTurn_channels (s : Locals) (x : Samples) (i : Fin 4) :
    (inputTurn s x).1.channels i = handleInputs (x i) (s.channels i) := by
  rcases inputTurn_eq s x with ⟨-, -, he⟩ | ⟨-, -, he⟩ | ⟨-, -, -, he⟩ | ⟨-, -, he⟩ |
    ⟨-, -, he⟩ <;> rw [he]

/-- The counter is counted up or reset, whatever the state is. -/
theorem handleInputs_activeTimeMs (high : Bool) (c : Channel) :
    (handleInputs high c).activeTimeMs =
      if high then addInt c.activeTimeMs inputReadDelayMs else 0 := by
  unfold handleInputs
  cases high with
  | false => rfl
  | true =>
    simp only [if_true]
    split <;> rfl

/-- The sum in range. -/
theorem addInt_inputReadDelayMs {n : Nat} (hn : n < maxHighTurns) :
    addInt (inputReadDelayMs * n) inputReadDelayMs = inputReadDelayMs * (n + 1 : Nat) := by
  have hmax := maxHighTurns_eq
  rw [addInt, Int.bmod_eq_of_le] <;> simp only [inputReadDelayMs] <;> omega

/-- The counters hold 100 ms for each high sample in a row. -/
def Counted (h : List Samples) : Prop :=
  ∀ i, ((task.run h).channels i).activeTimeMs = inputReadDelayMs * highFor i h

theorem counted_nil : Counted [] := by
  intro i
  rw [highFor_nil]
  rfl

section

variable {h : List Samples}

/-- A counter after one more iteration. -/
theorem Counted.activeTimeMs (hc : Counted h) (x : Samples) (i : Fin 4) :
    ((task.run (h ++ [x])).channels i).activeTimeMs =
      if x i then addInt (inputReadDelayMs * highFor i h) inputReadDelayMs else 0 := by
  rw [run_concat, inputTurn_channels, handleInputs_activeTimeMs, hc i]

/-- **Step lemma**: the counters stay right while the samples in a row are
not too many. -/
theorem Counted.concat (hc : Counted h) (x : Samples)
    (hhigh : ∀ i, highFor i (h ++ [x]) ≤ maxHighTurns) : Counted (h ++ [x]) := by
  intro i
  have hi := hhigh i
  rw [hc.activeTimeMs, highFor_concat]
  rw [highFor_concat] at hi
  cases hx : x i with
  | false => simp
  | true =>
    rw [hx, if_pos rfl] at hi
    simp only [if_true]
    exact addInt_inputReadDelayMs (Nat.lt_of_succ_le hi)

/-- One iteration is in range when it leaves no input high too often. -/
theorem Counted.noOverflow_iff (hc : Counted h) (x : Samples) :
    NoOverflow (task.run h) x ↔ ∀ i, highFor i (h ++ [x]) ≤ maxHighTurns := by
  have hmax := maxHighTurns_eq
  constructor
  · intro hno i
    rw [highFor_concat]
    cases hx : x i with
    | false => exact Nat.zero_le _
    | true =>
      have hsum := (hno i).1 hx
      rw [hc i] at hsum
      simp only [inputReadDelayMs, intMax] at hsum
      simp only [if_true]
      omega
  · intro hhigh i
    have hi := hhigh i
    rw [← run_concat, hc.concat x hhigh i]
    refine ⟨fun hx => ?_, ?_, ?_⟩
    · rw [highFor_concat, hx, if_pos rfl] at hi
      rw [hc i]
      simp only [inputReadDelayMs, intMax]
      omega
    · simp only [inputReadDelayMs]
      omega
    · simp only [inputReadDelayMs, intMax]
      omega

end

/-! ## Runs -/

/-- The iterations of a run that are in range. -/
theorem along_noOverflow (xs : List Samples) :
    task.Along NoOverflow xs ↔
      EachStep (fun h x => ∀ i, highFor i (h ++ [x]) ≤ maxHighTurns) xs :=
  EachStep.iff_of_inv (I := Counted) counted_nil (fun _ x hc => hc.noOverflow_iff x)
    (fun _ x hc hhigh => hc.concat x hhigh) xs

/-- **The counters do not overflow** exactly in the runs in which no input
is high for more than `maxHighTurns` samples in a row. -/
theorem no_overflow_iff (xs : List Samples) :
    task.Along NoOverflow xs ↔ ∀ h, h <+: xs → ∀ i, highFor i h ≤ maxHighTurns := by
  rw [along_noOverflow]
  exact EachStep.iff_of_beginnings (P := fun h => ∀ i, highFor i h ≤ maxHighTurns)
    (fun _ => Nat.zero_le _)

/-- An input that is always high. -/
theorem highFor_replicate {x : Samples} {i : Fin 4} (hx : x i = true) (n : Nat) :
    highFor i (List.replicate n x) = n := by
  induction n with
  | zero => rfl
  | succ n ih => rw [List.replicate_succ', highFor_concat, if_pos hx, ih]

/-- A switch that is left on. -/
theorem overflows_of_high {x : Samples} {i : Fin 4} (hx : x i = true) {n : Nat}
    (hn : maxHighTurns < n) : ¬ task.Along NoOverflow (List.replicate n x) := by
  obtain ⟨m, rfl⟩ := Nat.exists_eq_succ_of_ne_zero (Nat.ne_zero_of_lt hn)
  rw [along_noOverflow]
  intro hrun
  have hlast := hrun (List.replicate m x) x [] List.replicate_succ' i
  rw [← List.replicate_succ', highFor_replicate hx] at hlast
  omega

/-- The first input, left on for 24 days and 20 hours. -/
theorem counter_overflows :
    ¬ task.Along NoOverflow (List.replicate 21474837 fun i => decide (i = 0)) :=
  overflows_of_high (i := 0) (by decide) (by rw [maxHighTurns_eq]; omega)

end VentControl.Input
