/-
VentControl.Input.Task — `input.c`: the task that samples the four inputs
every 100 ms, debounces each and tells the fan task when boost begins and
ends.

`handleInputs` is the C function of that name for one input; the arrays
`input_active` and `input_state` are one `Channel` for each input. The
sum in `handle_inputs` is a 32-bit signed one: C leaves its overflow
undefined, and `addInt` gives it the two's complement result that the
compiled code computes.

One turn of the loop is `inputTurn`. It takes the four samples and gives
the new locals and the events the turn sends to `input_queue`, at most
one. `boost` is sent by its value at the time of the call.
-/
import VentControl.Types
import VentControl.Lib.Run

namespace VentControl.Input

open Runs

/-! ## Constants -/

/-- `INPUT_READ_DELAY_MS`. -/
def inputReadDelayMs : Int := 100

/-- `INPUT_DELAY_MS`: three minutes. -/
def inputDelayMs : Int := 3 * 60 * 1000

/-- `BOOST_DELAY_MS`: five minutes. -/
def boostDelayMs : Int := 5 * 60 * 1000

/-- The 32-bit two's complement sum. -/
def addInt (a b : Int) : Int := Int.bmod (a + b) (2 ^ 32)

/-! ## One input -/

/-- `input_active[i]` and `input_state[i]`. -/
structure Channel where
  activeTimeMs : Int
  inputState : Bool
  deriving DecidableEq, Repr

/-- `handle_inputs`: one sample of one input. -/
def handleInputs (gpio : Bool) (c : Channel) : Channel :=
  if gpio then
    let active := addInt c.activeTimeMs inputReadDelayMs
    if active > inputDelayMs ∧ c.inputState = false then ⟨active, true⟩
    else ⟨active, c.inputState⟩
  else
    ⟨0, if c.inputState then false else c.inputState⟩

/-! ## One turn of the loop -/

/-- The four samples of one turn. -/
abbrev Samples : Type := Fin 4 → Bool

/-- The locals of `input_task` that live across turns. -/
structure Locals where
  channels : Fin 4 → Channel
  boost : Bool
  boostDelay : Int

/-- Lines 29 to 32. -/
def Locals.start : Locals where
  channels := fun _ => ⟨0, false⟩
  boost := false
  boostDelay := 0

/-- Line 44: some input is active. -/
def inputActivated (channels : Fin 4 → Channel) : Bool :=
  (channels 0).inputState || (channels 1).inputState ||
    (channels 2).inputState || (channels 3).inputState

/-- Lines 49 to 60: boost is latched on, or its switch-off is put off for
the boost delay. The second component is what line 54 sends. -/
def latchBoost (activated : Bool) (s : Locals) : Locals × List Bool :=
  if activated = true ∧ s.boost = false then
    ({ s with boost := true, boostDelay := 0 }, [true])
  else if activated = false ∧ s.boost = true then
    ({ s with boost := false, boostDelay := boostDelayMs }, [])
  else (s, [])

/-- Lines 61 to 70: the count-down, and what line 67 sends at its end. -/
def countDown (s : Locals) : Locals × List Bool :=
  if s.boost = false ∧ s.boostDelay > 0 then
    if s.boostDelay - inputReadDelayMs ≤ 0 then ({ s with boostDelay := 0 }, [s.boost])
    else ({ s with boostDelay := s.boostDelay - inputReadDelayMs }, [])
  else (s, [])

/-- One turn of the loop: the new locals and the events sent. -/
def inputTurn (s : Locals) (samples : Samples) : Locals × List Bool :=
  let channels := fun i => handleInputs (samples i) (s.channels i)
  let (s₁, sent₁) := latchBoost (inputActivated channels) { s with channels := channels }
  let (s₂, sent₂) := countDown s₁
  (s₂, sent₁ ++ sent₂)

/-- `input_task` as a machine: one input is the samples of one turn, the
outputs are the events sent to `input_queue`. -/
def task : Mealy Locals Samples Bool where
  init := .start
  step := inputTurn

/-! ## What one turn does -/

/-- What an idle turn counts down: the whole boost delay, if boost was on
until then, or what is left of it. -/
def Locals.toCount (s : Locals) : Int := if s.boost then boostDelayMs else s.boostDelay

/-- **All one turn can do**, by whether some input is active: boost begins,
or goes on; its end is counted down, to its end, on, or not at all. -/
theorem inputTurn_eq (s : Locals) (x : Samples) :
    let channels := fun i => handleInputs (x i) (s.channels i)
    (inputActivated channels = true ∧ s.boost = false ∧
      inputTurn s x = (⟨channels, true, 0⟩, [true])) ∨
    (inputActivated channels = true ∧ s.boost = true ∧
      inputTurn s x = (⟨channels, true, s.boostDelay⟩, [])) ∨
    (inputActivated channels = false ∧ 0 < s.toCount ∧ s.toCount ≤ inputReadDelayMs ∧
      inputTurn s x = (⟨channels, false, 0⟩, [false])) ∨
    (inputActivated channels = false ∧ inputReadDelayMs < s.toCount ∧
      inputTurn s x = (⟨channels, false, s.toCount - inputReadDelayMs⟩, [])) ∨
    (inputActivated channels = false ∧ s.toCount ≤ 0 ∧
      inputTurn s x = (⟨channels, false, s.toCount⟩, [])) := by
  intro channels
  have hturn : inputTurn s x =
      ((countDown (latchBoost (inputActivated channels) { s with channels := channels }).1).1,
        (latchBoost (inputActivated channels) { s with channels := channels }).2 ++
          (countDown
            (latchBoost (inputActivated channels) { s with channels := channels }).1).2) := rfl
  rw [hturn]
  cases inputActivated channels with
  | true =>
    cases hb : s.boost with
    | true => exact Or.inr (Or.inl ⟨rfl, rfl, by simp [latchBoost, countDown]⟩)
    | false => exact Or.inl ⟨rfl, rfl, by simp [latchBoost, countDown]⟩
  | false =>
    have hlatch : latchBoost false { s with channels := channels } =
        (⟨channels, false, s.toCount⟩, []) := by
      cases hb : s.boost <;> simp [latchBoost, Locals.toCount, hb]
    rw [hlatch]
    simp only [countDown, List.nil_append, true_and]
    rcases Int.lt_or_le 0 s.toCount with hpos | hle
    · rcases Int.lt_or_le inputReadDelayMs s.toCount with hlt | hge
      · refine Or.inr (Or.inr (Or.inr (Or.inl ⟨hlt, ?_⟩)))
        rw [if_pos hpos, if_neg (by omega)]
      · refine Or.inr (Or.inr (Or.inl ⟨hpos, hge, ?_⟩))
        rw [if_pos hpos, if_pos (by omega)]
    · refine Or.inr (Or.inr (Or.inr (Or.inr ⟨hle, ?_⟩)))
      rw [if_neg (by omega)]

/-! ## The boost period -/

/-- The task is in its boost period: boost is on, or its switch-off is
still being counted down. -/
def Locals.InBoostPeriod (s : Locals) : Prop := s.boost = true ∨ s.boostDelay > 0

/-- While boost is on nothing is counted down, and the count-down never
goes below 0. -/
structure Locals.Ok (s : Locals) : Prop where
  on : s.boost = true → s.boostDelay = 0
  delay : 0 ≤ s.boostDelay

theorem Locals.Ok.start : Locals.start.Ok := ⟨by simp [Locals.start], by decide⟩

theorem Locals.inBoostPeriod_iff (s : Locals) : s.InBoostPeriod ↔ 0 < s.toCount := by
  unfold Locals.InBoostPeriod Locals.toCount
  cases s.boost with
  | true => exact iff_of_true (Or.inl rfl) (show 0 < boostDelayMs by decide)
  | false => simp

theorem Locals.Ok.toCount {s : Locals} (hs : s.Ok) : 0 ≤ s.toCount := by
  unfold Locals.toCount
  split
  · decide
  · exact hs.delay

/-- **What one turn sends**: nothing, and the boost period is what it was;
`true`, and the period runs from here; or `false`, and it is over. -/
theorem inputTurn_cases (s : Locals) (hs : s.Ok) (samples : Samples) :
    (inputTurn s samples).1.Ok ∧
    (((inputTurn s samples).2 = [] ∧
        ((inputTurn s samples).1.InBoostPeriod ↔ s.InBoostPeriod)) ∨
     ((inputTurn s samples).2 = [true] ∧ (inputTurn s samples).1.InBoostPeriod) ∨
     ((inputTurn s samples).2 = [false] ∧ ¬ (inputTurn s samples).1.InBoostPeriod)) := by
  rcases inputTurn_eq s samples with ⟨-, -, he⟩ | ⟨-, hb, he⟩ | ⟨-, -, -, he⟩ | ⟨-, hlt, he⟩ |
    ⟨-, hle, he⟩ <;> rw [he]
  · exact ⟨⟨fun _ => rfl, Int.le_refl 0⟩, Or.inr (Or.inl ⟨rfl, Or.inl rfl⟩)⟩
  · exact ⟨⟨fun _ => hs.on hb, hs.delay⟩, Or.inl ⟨rfl, iff_of_true (Or.inl rfl) (Or.inl hb)⟩⟩
  · exact ⟨⟨by simp, Int.le_refl 0⟩, Or.inr (Or.inr ⟨rfl, by simp [Locals.InBoostPeriod]⟩)⟩
  · -- the count-down has begun, or goes on
    have hpos : 0 < s.toCount - inputReadDelayMs := by omega
    have hwas : 0 < s.toCount := Int.lt_trans (by decide) hlt
    refine ⟨⟨by simp, Int.le_of_lt hpos⟩, Or.inl ⟨rfl, iff_of_true (Or.inr hpos) ?_⟩⟩
    exact s.inBoostPeriod_iff.mpr hwas
  · have hnot : ¬ s.InBoostPeriod := fun hin => absurd (s.inBoostPeriod_iff.mp hin) (by omega)
    refine ⟨⟨by simp, hs.toCount⟩, Or.inl ⟨rfl, iff_of_false ?_ hnot⟩⟩
    rintro (hon | hpos)
    · simp at hon
    · simp only at hpos
      omega

end VentControl.Input
