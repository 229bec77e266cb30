/-
VentControl.Ventcontrol.Task — `ventcontrol.c`: the task that arbitrates
between the speed the clients ask for and the boost of the inputs, and
drives the three relays.

One turn of the loop receives twice, once from `receive_queue` and once
from `input_queue`, each with a timeout, and acts after each. The model
keeps the two halves apart, because another task can run in between:

* `ventcontrolMessage` — lines 45 to 92, what is done with the client
  message (or with the timeout);
* `ventcontrolBoost` — lines 94 to 128, what is done with the boost event
  (or with the timeout), the speed switch and the broadcast.

Each half is a function of the task's local variables to their new values
and the list of actions it takes, in program order. An `Action` is a
write to an output, a delay, or an attempt to put a message on
`send_queue`; the result of `xQueueSend` is ignored by the source, so it
is no part of the model here.

`boost = false` in line 53 is a dead store: `boost` is only read after
`xQueueReceive` has written it. The local has no counterpart.
-/
import VentControl.Types
import VentControl.Lib.Run

namespace VentControl.Ventcontrol

open Runs

/-! ## Constants and actions -/

/-- `RELAIS_SWITCH_DELAY_MS`. -/
def relaisSwitchDelayMs : Nat := 500

/-- `portTICK_PERIOD_MS` for `configTICK_RATE_HZ` of 1000. -/
def portTickPeriodMs : Nat := 1

/-- `BOOST_SPEED`. -/
def boostSpeedOn : Int := 2

/-- `NORMAL_SPEED`. -/
def normalSpeed : Int := 1

/-- The outputs: GPIO 15, 14 and 7. -/
inductive Pin
  | relSpeed2
  | relSpeed3
  | relVakantie
  deriving DecidableEq, Repr

/-- What the task does to the world outside its locals. -/
inductive Action
  | gpioPut (pin : Pin) (on : Bool)
  | vTaskDelay (ticks : Nat)
  | xQueueSend (m : Message)
  deriving DecidableEq, Repr

/-! ## The task's locals -/

/-- The locals of `ventcontrol_task` that live across turns. -/
structure Locals where
  currentVakantie : Bool
  actualSpeed : Int
  requestedSpeed : Int
  boostSpeed : Int
  deriving DecidableEq, Repr

/-- Lines 38 to 41. -/
def Locals.start : Locals where
  currentVakantie := false
  actualSpeed := 0
  requestedSpeed := 1
  boostSpeed := 1

/-- Lines 34 to 36: the outputs are switched off before the loop. -/
def prologue : List Action :=
  [.gpioPut .relSpeed2 false, .gpioPut .relSpeed3 false, .gpioPut .relVakantie false]

/-! ## One turn of the loop -/

/-- The value of a C `bool` assigned to an `int`. -/
def boolInt (b : Bool) : Int := if b then 1 else 0

/-- Lines 45 to 92: a client message was received, or the wait timed out. -/
def ventcontrolMessage (s : Locals) : Option Message → Locals × List Action
  | none => (s, [])
  | some message =>
    match message.messageType with
    | .setSpeed =>
      if s.requestedSpeed ≠ message.value then
        ({ s with requestedSpeed := message.value, boostSpeed := message.value }, [])
      else (s, [])
    | .setVakantie =>
      let vakantie := decide (message.value > 0)
      ({ s with currentVakantie := vakantie },
        [.gpioPut .relVakantie vakantie,
         .xQueueSend ⟨message.client, boolInt vakantie, .currentVakantie⟩])
    | .getStatus =>
      (s,
        [.xQueueSend ⟨message.client, s.actualSpeed, .currentSpeeed⟩,
         .xQueueSend ⟨message.client, boolInt s.currentVakantie, .currentVakantie⟩])
    | _ => (s, [])

/-- Lines 102 to 120: the relays for `wantedSpeed`. -/
def switchRelays (wantedSpeed : Int) : List Action :=
  if wantedSpeed = 1 then
    [.gpioPut .relSpeed2 false, .gpioPut .relSpeed3 false]
  else if wantedSpeed = 2 then
    [.gpioPut .relSpeed3 false, .vTaskDelay (relaisSwitchDelayMs / portTickPeriodMs),
     .gpioPut .relSpeed2 true]
  else if wantedSpeed = 3 then
    [.gpioPut .relSpeed2 false, .vTaskDelay (relaisSwitchDelayMs / portTickPeriodMs),
     .gpioPut .relSpeed3 true]
  else []

/-- Lines 122 to 127: the message that tells every client the new speed. -/
def speedBroadcast (speed : Int) : Message := ⟨-1, speed, .currentSpeeed⟩

/-- Lines 94 to 97: `boostSpeed` after the receive from `input_queue`. -/
def takeBoost (s : Locals) : Option Bool → Locals
  | none => s
  | some boost => { s with boostSpeed := if boost then boostSpeedOn else normalSpeed }

/-- Line 99. -/
def wantedSpeed (s : Locals) : Int :=
  if s.boostSpeed > s.requestedSpeed then s.boostSpeed else s.requestedSpeed

/-- Lines 94 to 128: a boost event was received, or the wait timed out;
then the fan is switched if another speed is wanted. -/
def ventcontrolBoost (s : Locals) (boost : Option Bool) : Locals × List Action :=
  let s := takeBoost s boost
  if wantedSpeed s ≠ s.actualSpeed then
    ({ s with actualSpeed := wantedSpeed s },
      switchRelays (wantedSpeed s) ++ [.xQueueSend (speedBroadcast (wantedSpeed s))])
  else (s, [])

/-- What the two receives of one turn return; `none` is a timeout. -/
structure Turn where
  message : Option Message
  boost : Option Bool
  deriving DecidableEq, Repr

/-- One turn of the loop. -/
def ventcontrolTurn (s : Locals) (i : Turn) : Locals × List Action :=
  let (s₁, acts₁) := ventcontrolMessage s i.message
  let (s₂, acts₂) := ventcontrolBoost s₁ i.boost
  (s₂, acts₁ ++ acts₂)

/-- `ventcontrol_task` as a machine: one input is one turn. -/
def task : Mealy Locals Turn Action where
  init := .start
  step := ventcontrolTurn

/-- Everything the task does in a run: the prologue, then turn after turn. -/
def actions (turns : List Turn) : List Action := prologue ++ task.trace turns

/-! ## The outputs -/

/-- The levels of the three outputs. -/
structure Relays where
  speed2 : Bool
  speed3 : Bool
  vakantie : Bool
  deriving DecidableEq, Repr

/-- What an action does to the outputs. -/
def Relays.apply (r : Relays) : Action → Relays
  | .gpioPut .relSpeed2 on => { r with speed2 := on }
  | .gpioPut .relSpeed3 on => { r with speed3 := on }
  | .gpioPut .relVakantie on => { r with vakantie := on }
  | .vTaskDelay _ => r
  | .xQueueSend _ => r

/-- The outputs after `gpio_init`, before the task's first write. -/
def Relays.init : Relays := ⟨false, false, false⟩

/-- The outputs after a list of actions. -/
def Relays.after (r : Relays) (acts : List Action) : Relays := acts.foldl Relays.apply r

/-- The ticks that pass before the next action can follow. -/
def Action.ticks : Action → Nat
  | .vTaskDelay n => n
  | _ => 0

/-! ## Equations of one turn -/

@[simp] theorem Relays.after_nil (r : Relays) : r.after [] = r := rfl

@[simp] theorem Relays.after_cons (r : Relays) (a : Action) (acts : List Action) :
    r.after (a :: acts) = (r.apply a).after acts := rfl

theorem Relays.after_append (r : Relays) (as bs : List Action) :
    r.after (as ++ bs) = (r.after as).after bs := by
  simp [Relays.after]

@[simp] theorem ventcontrolMessage_none (s : Locals) :
    ventcontrolMessage s none = (s, []) := rfl

/-- The first half never touches the speed that is running. -/
@[simp] theorem ventcontrolMessage_actualSpeed (s : Locals) (m : Option Message) :
    (ventcontrolMessage s m).1.actualSpeed = s.actualSpeed := by
  rcases m with _ | ⟨c, v, ty⟩
  · rfl
  · cases ty <;> try rfl
    simp only [ventcontrolMessage]
    split <;> rfl

@[simp] theorem takeBoost_requestedSpeed (s : Locals) (b : Option Bool) :
    (takeBoost s b).requestedSpeed = s.requestedSpeed := by
  cases b <;> rfl

@[simp] theorem takeBoost_actualSpeed (s : Locals) (b : Option Bool) :
    (takeBoost s b).actualSpeed = s.actualSpeed := by
  cases b <;> rfl

@[simp] theorem takeBoost_currentVakantie (s : Locals) (b : Option Bool) :
    (takeBoost s b).currentVakantie = s.currentVakantie := by
  cases b <;> rfl

/-- What the first half sends are replies to a request: they go to its
client, and a status reply tells the speed that is running. -/
theorem mem_ventcontrolMessage {s : Locals} {message : Option Message} {r : Message}
    (h : .xQueueSend r ∈ (ventcontrolMessage s message).2) :
    (∃ m, message = some m ∧ r.client = m.client ∧
      (m.messageType = .getStatus ∨ m.messageType = .setVakantie)) ∧
    (r.messageType = .currentSpeeed → r.value = s.actualSpeed) ∧
    (r.value = s.actualSpeed ∨ r.value = 0 ∨ r.value = 1) := by
  have hbool : ∀ b, boolInt b = 0 ∨ boolInt b = 1 := by decide
  rcases message with _ | ⟨c, v, ty⟩
  · simp at h
  · cases ty with
    | setSpeed =>
      simp only [ventcontrolMessage] at h
      split at h <;> simp at h
    | getStatus =>
      simp only [ventcontrolMessage, List.mem_cons, Action.xQueueSend.injEq, List.not_mem_nil,
        or_false] at h
      rcases h with rfl | rfl
      · exact ⟨⟨_, rfl, rfl, Or.inl rfl⟩, fun _ => rfl, Or.inl rfl⟩
      · exact ⟨⟨_, rfl, rfl, Or.inl rfl⟩, fun hty => by simp at hty, Or.inr (hbool _)⟩
    | setVakantie =>
      simp only [ventcontrolMessage, List.mem_cons, reduceCtorEq, Action.xQueueSend.injEq,
        List.not_mem_nil, or_false, false_or] at h
      subst h
      exact ⟨⟨_, rfl, rfl, Or.inr rfl⟩, fun hty => by simp at hty, Or.inr (hbool _)⟩
    | noMessage => simp [ventcontrolMessage] at h
    | currentSpeeed => simp [ventcontrolMessage] at h
    | currentVakantie => simp [ventcontrolMessage] at h
    | remainingTime => simp [ventcontrolMessage] at h
    | keepalive => simp [ventcontrolMessage] at h

/-- A boost event leaves one of the two boost levels. -/
theorem takeBoost_some_range (s : Locals) (b : Bool) :
    1 ≤ (takeBoost s (some b)).boostSpeed ∧ (takeBoost s (some b)).boostSpeed ≤ 2 := by
  cases b <;> simp [takeBoost, boostSpeedOn, normalSpeed]

/-- The second half never touches the speed that was asked for. -/
@[simp] theorem ventcontrolBoost_requestedSpeed (s : Locals) (b : Option Bool) :
    (ventcontrolBoost s b).1.requestedSpeed = s.requestedSpeed := by
  simp only [ventcontrolBoost]
  split <;> simp

@[simp] theorem ventcontrolBoost_boostSpeed (s : Locals) (b : Option Bool) :
    (ventcontrolBoost s b).1.boostSpeed = (takeBoost s b).boostSpeed := by
  simp only [ventcontrolBoost]
  split <;> rfl

@[simp] theorem ventcontrolBoost_currentVakantie (s : Locals) (b : Option Bool) :
    (ventcontrolBoost s b).1.currentVakantie = s.currentVakantie := by
  simp only [ventcontrolBoost]
  split <;> simp

/-- After the second half the fan runs at the wanted speed. -/
theorem ventcontrolBoost_actualSpeed (s : Locals) (b : Option Bool) :
    (ventcontrolBoost s b).1.actualSpeed = wantedSpeed (takeBoost s b) := by
  simp only [ventcontrolBoost]
  split
  · rfl
  · next h => exact (not_not.mp h).symm

theorem not_mem_switchRelays (v : Int) (r : Message) : .xQueueSend r ∉ switchRelays v := by
  unfold switchRelays
  split
  · simp
  · split
    · simp
    · split <;> simp

/-- The second half sends only the new speed, to all. -/
theorem mem_ventcontrolBoost {s : Locals} {b : Option Bool} {r : Message}
    (h : .xQueueSend r ∈ (ventcontrolBoost s b).2) :
    r = speedBroadcast (ventcontrolBoost s b).1.actualSpeed := by
  rw [ventcontrolBoost_actualSpeed]
  simp only [ventcontrolBoost] at h
  split at h
  · rcases List.mem_append.mp h with h | h
    · exact absurd h (not_mem_switchRelays _ _)
    · simpa using h
  · simp at h

theorem ventcontrolTurn_fst (s : Locals) (i : Turn) :
    (ventcontrolTurn s i).1 = (ventcontrolBoost (ventcontrolMessage s i.message).1 i.boost).1 :=
  rfl

theorem ventcontrolTurn_snd (s : Locals) (i : Turn) :
    (ventcontrolTurn s i).2 = (ventcontrolMessage s i.message).2 ++
      (ventcontrolBoost (ventcontrolMessage s i.message).1 i.boost).2 :=
  rfl

theorem actions_concat (turns : List Turn) (i : Turn) :
    actions (turns ++ [i]) = actions turns ++ (ventcontrolTurn (task.run turns) i).2 := by
  simp only [actions, Mealy.trace_concat, List.append_assoc]
  rfl

theorem run_concat (turns : List Turn) (i : Turn) :
    task.run (turns ++ [i]) = (ventcontrolTurn (task.run turns) i).1 :=
  Mealy.run_concat _ _ _

/-- The wanted speed is the larger of the boost and the requested speed. -/
theorem wantedSpeed_eq_max (s : Locals) :
    wantedSpeed s = max s.boostSpeed s.requestedSpeed := by
  unfold wantedSpeed
  split <;> omega

end VentControl.Ventcontrol
