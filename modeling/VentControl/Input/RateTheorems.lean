/-
VentControl.Input.RateTheorems — `input_task` does not flood its queue.

A window is 1801 iterations in a row, the time an input must be high to
become active. In a window every input can become active once only: until
it was low again and high for 1801 samples, the window is over. So `true` is
sent at most four times. `false` is sent 3000 iterations after the last
active one; for a second one there would have to be an active iteration in
between, and the window is shorter than that.

Both are instances of the budget rule. The budget of `true` are the four
inputs (`UsedUp`), that of `false` is one token (`ActiveSince`).
-/
import VentControl.Lib.Budget
import VentControl.Lib.Fifo
import VentControl.Input.EventTheorems
import Mathlib.Data.Bool.Count

namespace VentControl.Input

open Runs

/-- What `input_task` sends in the `len` iterations after the first `k`. -/
def eventsIn (xs : List Samples) (k len : Nat) : List Bool :=
  task.traceFrom (task.run (xs.take k)) ((xs.drop k).take len)

section

variable {h v w : List Samples} {x : Samples}

/-! ## Boost on -/

/-- Input `i` cannot become active again in a window that began with `v`:
it is active, or it was low in the window. -/
def UsedUp (h v : List Samples) (i : Fin 4) : Prop :=
  inputDelayTurns < highFor i (h ++ v) ∨ highFor i (h ++ v) < v.length

theorem UsedUp.concat {i : Fin 4} (hu : UsedUp h v i) (x : Samples) : UsedUp h (v ++ [x]) i := by
  unfold UsedUp at hu ⊢
  rw [← List.append_assoc, highFor_concat, List.length_append, List.length_singleton]
  split
  · omega
  · exact Or.inr (Nat.succ_pos _)

/-- The input that makes the task active was not used up before. -/
theorem exists_usedUp (hv : v.length ≤ inputDelayTurns) (hact : Active (h ++ v ++ [x]))
    (hidle : ¬ Active (h ++ v)) : ∃ i, ¬ UsedUp h v i ∧ UsedUp h (v ++ [x]) i := by
  obtain ⟨i, hi⟩ := hact
  have hbefore : highFor i (h ++ v) ≤ inputDelayTurns :=
    Nat.le_of_not_lt fun hlt => hidle ⟨i, hlt⟩
  have hlen : inputDelayTurns ≤ highFor i (h ++ v) := by
    rw [highFor_concat] at hi
    split at hi <;> omega
  refine ⟨i, ?_, Or.inl (by rwa [← List.append_assoc])⟩
  rintro (hlt | hlt) <;> omega

/-! ## Boost off -/

/-- No `false` is to come in a window that began with `v`: the last active
iteration is in the window, or too long ago. -/
def ActiveSince (h v : List Samples) : Prop :=
  ∀ k, ActiveAgo (h ++ v) k → k < v.length ∨ boostDelayTurns ≤ k

theorem ActiveSince.concat (ha : ActiveSince h v) (x : Samples) : ActiveSince h (v ++ [x]) := by
  intro k hago
  rw [← List.append_assoc] at hago
  rw [List.length_append, List.length_singleton]
  cases k with
  | zero => exact Or.inl (Nat.succ_pos _)
  | succ j =>
    rcases ha j (activeAgo_succ.mp hago).1 with hlt | hle
    · exact Or.inl (Nat.succ_lt_succ hlt)
    · exact Or.inr (Nat.le_succ_of_le hle)

/-- The iteration that sends `false` is the first after which none is to
come. -/
theorem activeSince_of_activeAgo (hv : v.length ≤ inputDelayTurns)
    (hago : ActiveAgo (h ++ v ++ [x]) boostDelayTurns) :
    ¬ ActiveSince h v ∧ ActiveSince h (v ++ [x]) := by
  have hdelay := inputDelayTurns_eq
  have hturns := boostDelayTurns_eq
  constructor
  · intro hsince
    have hidle : boostDelayTurns = (boostDelayTurns - 1) + 1 := by omega
    rw [hidle] at hago
    rcases hsince _ (activeAgo_succ.mp hago).1 with hlt | hle <;> omega
  · intro k hk
    rw [← List.append_assoc] at hk
    exact Or.inr (hago.unique hk).le

/-! ## A window -/

/-- What one iteration in a window sends. -/
theorem step_run_eq (h v : List Samples) (x : Samples) :
    (task.step (task.runFrom (task.run h) v) x).2 = lastSent (h ++ v) x := by
  rw [← Mealy.run_append]
  rfl

/-- The beginning of a window is shorter than the window. -/
theorem length_le_of_window (hw : w.length ≤ inputDelayTurns + 1) (hv : v ++ [x] <+: w) :
    v.length ≤ inputDelayTurns := by
  have hle := hv.length_le
  rw [List.length_append, List.length_singleton] at hle
  omega

theorem count_true_le (hw : w.length ≤ inputDelayTurns + 1) :
    (task.traceFrom (task.run h) w).count true ≤ 4 := by
  refine Mealy.traceFrom_count_le_card (UsedUp h) (fun v x _ i hu => hu.concat x) fun v x hv => ?_
  rw [step_run_eq]
  rcases lastSent_cases (h ++ v) x with ⟨hs, hact, hidle⟩ | ⟨hs, -⟩ | ⟨hs, -⟩
  · exact Or.inr ⟨by rw [hs]; rfl, exists_usedUp (length_le_of_window hw hv) hact hidle⟩
  · exact Or.inl (by rw [hs]; rfl)
  · exact Or.inl (by rw [hs]; rfl)

theorem count_false_le (hw : w.length ≤ inputDelayTurns + 1) :
    (task.traceFrom (task.run h) w).count false ≤ 1 := by
  refine Mealy.traceFrom_count_le_card (τ := Unit) (fun v _ => ActiveSince h v)
    (fun v x _ _ ha => ha.concat x) fun v x hv => ?_
  rw [step_run_eq]
  rcases lastSent_cases (h ++ v) x with ⟨hs, -⟩ | ⟨hs, hago⟩ | ⟨hs, -⟩
  · exact Or.inl (by rw [hs]; rfl)
  · exact Or.inr ⟨by rw [hs]; rfl, (), activeSince_of_activeAgo (length_le_of_window hw hv) hago⟩
  · exact Or.inl (by rw [hs]; rfl)

theorem length_traceFrom_le (h w : List Samples) (hw : w.length ≤ inputDelayTurns + 1) :
    (task.traceFrom (task.run h) w).length ≤ 5 := by
  have htrue := count_true_le (h := h) hw
  have hfalse := count_false_le (h := h) hw
  have hsum := List.count_true_add_count_false (task.traceFrom (task.run h) w)
  omega

end

/-- At most five events for each window of a stretch. -/
theorem length_eventsIn_le (xs : List Samples) (k n : Nat) :
    (eventsIn xs k (n * (inputDelayTurns + 1))).length ≤ n * 5 :=
  Mealy.traceFrom_length_le_mul length_traceFrom_le n _ _ (List.length_take_le _ _)

/-- **Boost events are rate-limited**: a window has at most four `true` and
one `false`. A queue that has five free places when the window begins
therefore loses none of them, even if nothing is received meanwhile, and a
queue that is empty loses none for twenty windows. -/
theorem boost_events_limited (xs : List Samples) (k : Nat) :
    (eventsIn xs k (inputDelayTurns + 1)).count true ≤ 4 ∧
    (eventsIn xs k (inputDelayTurns + 1)).count false ≤ 1 ∧
    (∀ q : List Bool, q.length + 5 ≤ maxQueueLength →
      (eventsIn xs k (inputDelayTurns + 1)).foldl (Fifo.send maxQueueLength) q =
        q ++ eventsIn xs k (inputDelayTurns + 1)) ∧
    (eventsIn xs k (20 * (inputDelayTurns + 1))).foldl (Fifo.send maxQueueLength) [] =
      eventsIn xs k (20 * (inputDelayTurns + 1)) := by
  have hwindow : ((xs.drop k).take (inputDelayTurns + 1)).length ≤ inputDelayTurns + 1 :=
    List.length_take_le _ _
  refine ⟨count_true_le hwindow, count_false_le hwindow, fun q hq => ?_, ?_⟩
  · have hlen := length_traceFrom_le (xs.take k) _ hwindow
    exact Fifo.foldl_send_of_le _ (Nat.le_trans (Nat.add_le_add_left hlen _) hq)
  · have hlen := length_eventsIn_le xs k 20
    have hfits : ([] : List Bool).length + (eventsIn xs k (20 * (inputDelayTurns + 1))).length ≤
        maxQueueLength := by
      rw [List.length_nil, Nat.zero_add]
      exact hlen
    exact Fifo.foldl_send_of_le _ hfits

end VentControl.Input
