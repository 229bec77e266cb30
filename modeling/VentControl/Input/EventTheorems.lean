/-
VentControl.Input.EventTheorems — the boost events of `input_task` against
a specification over the history of samples.

The specification looks at nothing but the samples: an input is active
after more than 1800 samples in a row that were high (`highFor`), and the
task is active when one of its inputs is (`Active`). `true` is sent in the
iteration in which the task becomes active, and `false` when the last
active iteration is 3000 iterations ago (`ActiveAgo`): the count-down of
3000 steps takes its first step in the iteration of the falling edge.

`Counts` ties the locals to the history. It says nothing about an
`active_time_ms` that has passed the threshold, because nothing depends on
it: the state of an input that stays high is latched.
-/
import VentControl.Input.Task

namespace VentControl.Input

open Runs

/-! ## The specification -/

/-- `INPUT_DELAY_MS / INPUT_READ_DELAY_MS`. -/
def inputDelayTurns : Nat := (inputDelayMs / inputReadDelayMs).toNat

/-- `BOOST_DELAY_MS / INPUT_READ_DELAY_MS`. -/
def boostDelayTurns : Nat := (boostDelayMs / inputReadDelayMs).toNat

theorem inputDelayTurns_eq : inputDelayTurns = 1800 := by decide

theorem boostDelayTurns_eq : boostDelayTurns = 3000 := by decide

/-- How many samples in a row, up to the last one, were high on input `i`. -/
def highFor (i : Fin 4) (h : List Samples) : Nat := (h.reverse.takeWhile (· i)).length

/-- Some input was high for long enough. -/
def Active (h : List Samples) : Prop := ∃ i, inputDelayTurns < highFor i h

instance (h : List Samples) : Decidable (Active h) := by
  unfold Active
  infer_instance

/-- The last active iteration is `k` iterations ago. -/
def ActiveAgo (h : List Samples) (k : Nat) : Prop :=
  k ≤ h.length ∧ Active (h.take (h.length - k)) ∧
    ∀ j, h.length - k < j → j ≤ h.length → ¬ Active (h.take j)

/-- What the last iteration of the run `h ++ [x]` sends. -/
def lastSent (h : List Samples) (x : Samples) : List Bool := (inputTurn (task.run h) x).2

theorem run_concat (h : List Samples) (x : Samples) :
    task.run (h ++ [x]) = (inputTurn (task.run h) x).1 := Mealy.run_concat task h x

theorem trace_concat (h : List Samples) (x : Samples) :
    task.trace (h ++ [x]) = task.trace h ++ lastSent h x := Mealy.trace_concat task h x

/-! ## The specification, one iteration at a time -/

theorem highFor_nil (i : Fin 4) : highFor i [] = 0 := rfl

theorem highFor_concat (i : Fin 4) (h : List Samples) (x : Samples) :
    highFor i (h ++ [x]) = if x i then highFor i h + 1 else 0 := by
  simp only [highFor, List.reverse_concat, List.takeWhile_cons]
  split <;> simp

theorem not_active_nil : ¬ Active [] := by
  rintro ⟨i, hi⟩
  simp [highFor_nil] at hi

theorem activeAgo_zero {h : List Samples} : ActiveAgo h 0 ↔ Active h := by
  constructor
  · rintro ⟨-, hact, -⟩
    simpa using hact
  · intro hact
    exact ⟨Nat.zero_le _, by simpa using hact, fun j hj hj' => by omega⟩

theorem activeAgo_succ {h : List Samples} {x : Samples} {k : Nat} :
    ActiveAgo (h ++ [x]) (k + 1) ↔ ActiveAgo h k ∧ ¬ Active (h ++ [x]) := by
  have hlen : (h ++ [x]).length = h.length + 1 := by simp
  have htake : ∀ j, j ≤ h.length → (h ++ [x]).take j = h.take j :=
    fun j hj => List.take_append_of_le_length hj
  have hall : (h ++ [x]).take (h.length + 1) = h ++ [x] := by rw [← hlen, List.take_length]
  unfold ActiveAgo
  rw [hlen, Nat.add_sub_add_right, htake _ (Nat.sub_le _ _)]
  constructor
  · rintro ⟨hk, hact, hidle⟩
    refine ⟨⟨by omega, hact, fun j hj hj' => ?_⟩, ?_⟩
    · rw [← htake j hj']
      exact hidle j hj (by omega)
    · rw [← hall]
      exact hidle (h.length + 1) (by omega) (Nat.le_refl _)
  · rintro ⟨⟨hk, hact, hidle⟩, hnow⟩
    refine ⟨by omega, hact, fun j hj hj' => ?_⟩
    rcases Nat.lt_or_ge h.length j with hlt | hle
    · rwa [show j = h.length + 1 from by omega, hall]
    · rw [htake j hle]
      exact hidle j hj hle

/-- There is only one last active iteration. -/
theorem ActiveAgo.unique {h : List Samples} {k k' : Nat} (hk : ActiveAgo h k)
    (hk' : ActiveAgo h k') : k = k' := by
  obtain ⟨hle, hact, hidle⟩ := hk
  obtain ⟨hle', hact', hidle'⟩ := hk'
  rcases Nat.lt_trichotomy k k' with hlt | heq | hgt
  · exact absurd hact (hidle' _ (by omega) (by omega))
  · exact heq
  · exact absurd hact' (hidle _ (by omega) (by omega))

/-! ## The inputs -/

theorem inputActivated_iff (channels : Fin 4 → Channel) :
    inputActivated channels = true ↔ ∃ i, (channels i).inputState = true := by
  simp [inputActivated, Fin.exists_fin_succ, or_assoc]

/-! ## The invariant -/

/-- What the counter and the state of one input say about the number `n` of
high samples in a row. -/
structure Channel.Counts (c : Channel) (n : Nat) : Prop where
  time : n ≤ inputDelayTurns → c.activeTimeMs = inputReadDelayMs * n
  state : c.inputState = true ↔ inputDelayTurns < n

/-- One sample of one input. -/
theorem Channel.Counts.handleInputs {c : Channel} {n : Nat} (h : c.Counts n) (high : Bool) :
    (handleInputs high c).Counts (if high then n + 1 else 0) := by
  have hturns := inputDelayTurns_eq
  obtain ⟨htime, hstate⟩ := h
  cases high with
  | false => exact ⟨fun _ => by simp [Input.handleInputs], by simp [Input.handleInputs]⟩
  | true =>
    simp only [Input.handleInputs, if_true]
    rcases Nat.lt_or_ge inputDelayTurns n with hlt | hge
    · -- latched: the counter does not matter any more
      have hon := hstate.mpr hlt
      simp only [hon, Bool.true_eq_false, and_false, if_false]
      exact ⟨fun hle => by omega, iff_of_true rfl (by omega)⟩
    · have hsum : addInt c.activeTimeMs inputReadDelayMs = inputReadDelayMs * (n + 1 : Nat) := by
        rw [htime hge, addInt, Int.bmod_eq_of_le] <;> simp only [inputReadDelayMs] <;> omega
      have hoff : c.inputState = false :=
        Bool.eq_false_iff.mpr fun hon => absurd (hstate.mp hon) (by omega)
      rw [hsum]
      by_cases hact : inputReadDelayMs * (n + 1 : Nat) > inputDelayMs
      · rw [if_pos ⟨hact, hoff⟩]
        simp only [inputReadDelayMs, inputDelayMs] at hact
        exact ⟨fun _ => rfl, iff_of_true rfl (by omega)⟩
      · rw [if_neg fun h => hact h.1]
        simp only [inputReadDelayMs, inputDelayMs] at hact
        exact ⟨fun _ => rfl, iff_of_false (by simp [hoff]) (by omega)⟩

/-- The locals in terms of the samples so far: the count-down is pending
exactly while the last active iteration is fewer than 3000, and more than
0, iterations ago. -/
structure Counts (h : List Samples) (s : Locals) : Prop where
  channels : ∀ i, (s.channels i).Counts (highFor i h)
  boost : s.boost = true ↔ Active h
  idle : ∀ k, 0 < k → k < boostDelayTurns → ActiveAgo h k →
    s.boostDelay = boostDelayMs - inputReadDelayMs * k
  pending : 0 < s.boostDelay → ∃ k, 0 < k ∧ k < boostDelayTurns ∧ ActiveAgo h k

theorem counts_start : Counts [] .start where
  channels := fun _ =>
    ⟨fun _ => by simp [Locals.start, highFor_nil], by simp [Locals.start, highFor_nil]⟩
  boost := by simp [Locals.start, not_active_nil]
  idle := fun k hk _ hago => absurd hago.1 (by simp only [List.length_nil]; omega)
  pending := fun hpos => absurd hpos (by simp [Locals.start])

section

variable {h : List Samples} {s : Locals}

/-- The sampled channels after one more iteration. -/
theorem Counts.sampled (hc : Counts h s) (x : Samples) (i : Fin 4) :
    (handleInputs (x i) (s.channels i)).Counts (highFor i (h ++ [x])) := by
  rw [highFor_concat]
  exact (hc.channels i).handleInputs (x i)

/-- What line 44 computes is whether the task is active. -/
theorem Counts.activated (hc : Counts h s) (x : Samples) :
    inputActivated (fun i => handleInputs (x i) (s.channels i)) = true ↔ Active (h ++ [x]) := by
  rw [inputActivated_iff]
  exact exists_congr fun i => (hc.sampled x i).state

/-- Nothing is counted down while the task is active. -/
theorem Counts.delay_of_active (hc : Counts h s) (hact : Active h) : s.boostDelay ≤ 0 := by
  rcases Int.lt_or_le 0 s.boostDelay with hpos | hle
  · obtain ⟨k, hk, -, hago⟩ := hc.pending hpos
    have hzero := hago.unique (activeAgo_zero.mpr hact)
    omega
  · exact hle

/-- A task that is not active was last active some iterations ago. -/
theorem ActiveAgo.pos {k : Nat} (hago : ActiveAgo h k) (hidle : ¬ Active h) : 0 < k := by
  rcases Nat.eq_zero_or_pos k with rfl | hk
  · exact absurd (activeAgo_zero.mp hago) hidle
  · exact hk

/-- Seen from an idle iteration, the last active one was one iteration less
ago before it. -/
theorem ActiveAgo.pred {x : Samples} {k : Nat} (hago : ActiveAgo (h ++ [x]) k)
    (hidle : ¬ Active (h ++ [x])) : ∃ j, k = j + 1 ∧ ActiveAgo h j := by
  obtain ⟨j, rfl⟩ := Nat.exists_eq_succ_of_ne_zero (Nat.pos_iff_ne_zero.mp (hago.pos hidle))
  exact ⟨j, rfl, (activeAgo_succ.mp hago).1⟩

/-- An iteration that ends active. -/
theorem counts_active {x : Samples} {channels : Fin 4 → Channel} {delay : Int}
    (hch : ∀ i, (channels i).Counts (highFor i (h ++ [x]))) (hact : Active (h ++ [x]))
    (hdelay : delay ≤ 0) : Counts (h ++ [x]) ⟨channels, true, delay⟩ where
  channels := hch
  boost := iff_of_true rfl hact
  idle := fun k hk _ hago => by
    have hzero := hago.unique (activeAgo_zero.mpr hact)
    omega
  pending := fun hpos => by
    simp only at hpos
    omega

/-- An idle iteration: `delay` has to be what the last active one, before
it, makes it. -/
theorem counts_idle {x : Samples} {channels : Fin 4 → Channel} {delay : Int}
    (hch : ∀ i, (channels i).Counts (highFor i (h ++ [x]))) (hidle : ¬ Active (h ++ [x]))
    (hdelay : ∀ k, k + 1 < boostDelayTurns → ActiveAgo h k →
      delay = boostDelayMs - inputReadDelayMs * (k + 1 : Nat))
    (hpending : 0 < delay → ∃ k, k + 1 < boostDelayTurns ∧ ActiveAgo h k) :
    Counts (h ++ [x]) ⟨channels, false, delay⟩ where
  channels := hch
  boost := iff_of_false Bool.false_ne_true hidle
  idle := fun k _ hk hago => by
    obtain ⟨j, rfl, hj⟩ := hago.pred hidle
    exact hdelay j hk hj
  pending := fun hpos => by
    obtain ⟨k, hk, hago⟩ := hpending hpos
    exact ⟨k + 1, Nat.succ_pos k, hk, activeAgo_succ.mpr ⟨hago, hidle⟩⟩

/-- What an idle iteration counts down says how long ago the last active one
is. -/
theorem Counts.toCount (hc : Counts h s) :
    (∀ k, k < boostDelayTurns → ActiveAgo h k →
      s.toCount = boostDelayMs - inputReadDelayMs * k) ∧
    (0 < s.toCount → ∃ k, k < boostDelayTurns ∧ ActiveAgo h k) := by
  unfold Locals.toCount
  cases hb : s.boost with
  | true =>
    -- the falling edge
    have hzero : ActiveAgo h 0 := activeAgo_zero.mpr (hc.boost.mp hb)
    refine ⟨fun k _ hago => ?_, fun _ => ⟨0, by decide, hzero⟩⟩
    rw [hago.unique hzero]
    rfl
  | false =>
    have hidle : ¬ Active h := fun hact => by simp [hc.boost.mpr hact] at hb
    refine ⟨fun k hk hago => hc.idle k (hago.pos hidle) hk hago, fun hpos => ?_⟩
    obtain ⟨k, -, hk, hago⟩ := hc.pending hpos
    exact ⟨k, hk, hago⟩

/-- **Step lemma**: one iteration keeps the invariant, and what it sends is
told by the history. -/
theorem Counts.turn (hc : Counts h s) (x : Samples) :
    Counts (h ++ [x]) (inputTurn s x).1 ∧
      (((inputTurn s x).2 = [true] ∧ Active (h ++ [x]) ∧ ¬ Active h) ∨
       ((inputTurn s x).2 = [false] ∧ ActiveAgo (h ++ [x]) boostDelayTurns) ∨
       ((inputTurn s x).2 = [] ∧ (Active (h ++ [x]) → Active h) ∧
          ¬ ActiveAgo (h ++ [x]) boostDelayTurns)) := by
  have hturns := boostDelayTurns_eq
  have hread : inputReadDelayMs = 100 := rfl
  have hact := hc.activated x
  have hch := hc.sampled x
  have hpending := hc.toCount.2
  have hcount : ∀ k, k < boostDelayTurns → ActiveAgo h k → s.toCount = 300000 - 100 * (k : Int) :=
    hc.toCount.1
  rcases inputTurn_eq s x with ⟨ha, hb, he⟩ | ⟨ha, hb, he⟩ | ⟨ha, hpos, hle, he⟩ | ⟨ha, hlt, he⟩ |
    ⟨ha, hle, he⟩ <;> rw [he]
  · -- boost begins
    have hA := hact.mp ha
    have hnot : ¬ Active h := fun hA' => by simp [hc.boost.mpr hA'] at hb
    exact ⟨counts_active hch hA (Int.le_refl 0), Or.inl ⟨rfl, hA, hnot⟩⟩
  · -- boost goes on
    have hA := hact.mp ha
    have hwas := hc.boost.mp hb
    refine ⟨counts_active hch hA (hc.delay_of_active hwas),
      Or.inr (Or.inr ⟨rfl, fun _ => hwas, fun hago => ?_⟩)⟩
    have hzero := hago.unique (activeAgo_zero.mpr hA)
    omega
  · -- the end of the count-down
    have hidle : ¬ Active (h ++ [x]) := fun hA => by simp [hact.mpr hA] at ha
    obtain ⟨k, hk, hago⟩ := hpending hpos
    have hdelay := hcount k hk hago
    have hlast : k + 1 = boostDelayTurns := by omega
    refine ⟨counts_idle hch hidle (fun j hj hago' => ?_) fun h0 => absurd h0 (by omega),
      Or.inr (Or.inl ⟨rfl, hlast ▸ activeAgo_succ.mpr ⟨hago, hidle⟩⟩)⟩
    have hjk := hago'.unique hago
    omega
  · -- the count-down goes on, or begins
    have hidle : ¬ Active (h ++ [x]) := fun hA => by simp [hact.mpr hA] at ha
    obtain ⟨k, hk, hago⟩ := hpending (by omega)
    have hdelay := hcount k hk hago
    refine ⟨counts_idle hch hidle (fun j hj hago' => ?_) fun _ => ⟨k, by omega, hago⟩,
      Or.inr (Or.inr ⟨rfl, fun hA => absurd hA hidle, fun hago' => ?_⟩)⟩
    · rw [hcount j (by omega) hago']
      simp only [inputReadDelayMs, boostDelayMs]
      omega
    · obtain ⟨j, hj, hago₀⟩ := hago'.pred hidle
      have hjk := hago₀.unique hago
      omega
  · -- nothing is pending
    have hidle : ¬ Active (h ++ [x]) := fun hA => by simp [hact.mpr hA] at ha
    have hold : ∀ k, k < boostDelayTurns → ¬ ActiveAgo h k := fun k hk hago => by
      have hdelay := hcount k hk hago
      omega
    refine ⟨counts_idle hch hidle (fun j hj hago => absurd hago (hold j (by omega)))
        fun h0 => absurd h0 (by omega),
      Or.inr (Or.inr ⟨rfl, fun hA => absurd hA hidle, fun hago => ?_⟩)⟩
    obtain ⟨j, hj, hago'⟩ := hago.pred hidle
    exact hold j (by omega) hago'

end

/-- **Run lemma**: the locals at every point of every run. -/
theorem counts_run (h : List Samples) : Counts h (task.run h) := by
  induction h using List.reverseRecOn with
  | nil => exact counts_start
  | append_singleton h x ih =>
    rw [run_concat]
    exact (ih.turn x).1

/-! ## The events -/

/-- What the last iteration of a run sends, by the history. -/
theorem lastSent_cases (h : List Samples) (x : Samples) :
    (lastSent h x = [true] ∧ Active (h ++ [x]) ∧ ¬ Active h) ∨
    (lastSent h x = [false] ∧ ActiveAgo (h ++ [x]) boostDelayTurns) ∨
    (lastSent h x = [] ∧ (Active (h ++ [x]) → Active h) ∧
      ¬ ActiveAgo (h ++ [x]) boostDelayTurns) :=
  ((counts_run h).turn x).2

/-- The falling edge that is `k` iterations before the end of the run. -/
theorem activeAgo_iff_edge (h : List Samples) (k : Nat) :
    ActiveAgo h k ↔ ∃ f, f + k = h.length + 1 ∧ 0 < f ∧ Active (h.take (f - 1)) ∧
      ∀ j, f ≤ j → j ≤ h.length → ¬ Active (h.take j) := by
  constructor
  · rintro ⟨hk, hact, hidle⟩
    refine ⟨h.length - k + 1, by omega, by omega, hact, fun j hj hj' => hidle j (by omega) hj'⟩
  · rintro ⟨f, hf, hpos, hact, hidle⟩
    have hpred : h.length - k = f - 1 := by omega
    refine ⟨by omega, hpred ▸ hact, fun j hj hj' => hidle j (by omega) hj'⟩

/-- `false` is sent at the end of a boost period only. -/
theorem inBoostPeriod_of_sent_false {s : Locals} {x : Samples}
    (hsent : (inputTurn s x).2 = [false]) : s.InBoostPeriod := by
  rcases inputTurn_eq s x with ⟨-, -, he⟩ | ⟨-, -, he⟩ | ⟨-, hpos, -, -⟩ | ⟨-, -, he⟩ |
    ⟨-, -, he⟩
  case inr.inr.inl => exact s.inBoostPeriod_iff.mpr hpos
  all_goals
    rw [he] at hsent
    simp at hsent

/-- The trace of a run ends with `true` exactly in the boost period, and
each of its `false` stands right behind a `true`. -/
theorem trace_alternates (xs : List Samples) :
    (task.run xs).Ok ∧ ((task.run xs).InBoostPeriod ↔ (task.trace xs).getLast? = some true) ∧
      ∀ p q, task.trace xs = p ++ false :: q → p.getLast? = some true := by
  induction xs using List.reverseRecOn with
  | nil =>
    exact ⟨Locals.Ok.start, by simp [task, Locals.start, Locals.InBoostPeriod], by simp⟩
  | append_singleton h x ih =>
    obtain ⟨hok, hperiod, hfalse⟩ := ih
    rw [run_concat, trace_concat, lastSent]
    obtain ⟨hok', hcases⟩ := inputTurn_cases (task.run h) hok x
    refine ⟨hok', ?_⟩
    rcases hcases with ⟨hsent, hsame⟩ | ⟨hsent, hin⟩ | ⟨hsent, hout⟩
    · rw [hsent, List.append_nil, hsame]
      exact ⟨hperiod, hfalse⟩
    · rw [hsent]
      refine ⟨iff_of_true hin (by simp), fun p q he => ?_⟩
      rcases split_concat he with ⟨-, hb, -⟩ | ⟨q', -, he'⟩
      · simp at hb
      · exact hfalse p q' he'
    · have hlast := hperiod.mp (inBoostPeriod_of_sent_false hsent)
      rw [hsent]
      refine ⟨iff_of_false hout (by simp), fun p q he => ?_⟩
      rcases split_concat he with ⟨rfl, -, -⟩ | ⟨q', -, he'⟩
      · exact hlast
      · exact hfalse p q' he'

/-- **The boost events of every run.** With the iterations numbered from
1, `n` the last one and `A j` for being active after iteration `j`:
iteration `n` sends `true` exactly when the task becomes active in it; it
sends `false` exactly when the last falling edge `f` is
`BOOST_DELAY_MS / INPUT_READ_DELAY_MS - 1` iterations ago and nothing was
active since; it sends nothing else. An input that becomes active again in
between cancels the `false`, and over the run each `false` stands right
behind a `true`. -/
theorem boost_event_trace (h : List Samples) (x : Samples) :
    let n := h.length + 1
    let A := fun j => Active ((h ++ [x]).take j)
    (lastSent h x = [true] ↔ A n ∧ ¬ A (n - 1)) ∧
    (lastSent h x = [false] ↔ ∃ f, f + (boostDelayTurns - 1) = n ∧ 0 < f ∧ A (f - 1) ∧
      ∀ j, f ≤ j → j ≤ n → ¬ A j) ∧
    (lastSent h x = [] ∨ lastSent h x = [true] ∨ lastSent h x = [false]) ∧
    (∀ f j, f + (boostDelayTurns - 1) = n → f < j → j ≤ n → A j → lastSent h x ≠ [false]) ∧
    ∀ p q, task.trace (h ++ [x]) = p ++ false :: q → p.getLast? = some true := by
  intro n A
  have hturns := boostDelayTurns_eq
  have hn : A n ↔ Active (h ++ [x]) := by
    simp only [A, n]
    rw [List.take_of_length_le (by simp)]
  have hpred : A (n - 1) ↔ Active h := by simp [A, n]
  have hedge : ActiveAgo (h ++ [x]) boostDelayTurns ↔ ∃ f, f + (boostDelayTurns - 1) = n ∧
      0 < f ∧ A (f - 1) ∧ ∀ j, f ≤ j → j ≤ n → ¬ A j := by
    rw [activeAgo_iff_edge]
    refine exists_congr fun f => and_congr ?_ ?_
    · simp only [List.length_append, List.length_singleton, n]
      omega
    · simp [A, n]
  have hcancel : ∀ f j, f + (boostDelayTurns - 1) = n → f < j → j ≤ n → A j →
      ¬ ActiveAgo (h ++ [x]) boostDelayTurns := by
    intro f j hf hj hjn hA hago
    obtain ⟨f', hf', -, -, hidle⟩ := hedge.mp hago
    exact hidle j (by omega) hjn hA
  refine ⟨?_, ?_, ?_, ?_, (trace_alternates (h ++ [x])).2.2⟩
  · rw [hn, hpred]
    rcases lastSent_cases h x with ⟨hs, hA, hnot⟩ | ⟨hs, hago⟩ | ⟨hs, hsame, -⟩
    · exact iff_of_true hs ⟨hA, hnot⟩
    · refine iff_of_false (by simp [hs]) fun hA => ?_
      have hzero := hago.unique (activeAgo_zero.mpr hA.1)
      omega
    · exact iff_of_false (by simp [hs]) fun hA => hA.2 (hsame hA.1)
  · rw [← hedge]
    rcases lastSent_cases h x with ⟨hs, hA, hnot⟩ | ⟨hs, hago⟩ | ⟨hs, -, hnot⟩
    · refine iff_of_false (by simp [hs]) fun hago => ?_
      have hzero := hago.unique (activeAgo_zero.mpr hA)
      omega
    · exact iff_of_true hs hago
    · exact iff_of_false (by simp [hs]) hnot
  · rcases lastSent_cases h x with ⟨hs, -⟩ | ⟨hs, -⟩ | ⟨hs, -⟩
    · exact Or.inr (Or.inl hs)
    · exact Or.inr (Or.inr hs)
    · exact Or.inl hs
  · intro f j hf hj hjn hA hs
    rcases lastSent_cases h x with ⟨hs', -⟩ | ⟨-, hago⟩ | ⟨hs', -⟩
    · simp [hs'] at hs
    · exact hcancel f j hf hj hjn hA hago
    · simp [hs'] at hs

end VentControl.Input
