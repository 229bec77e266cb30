/-
VentControl.System.BoostTheorems — the sensor task and the fan task on
the two ends of `input_queue`.

The system interleaves the two tasks in every possible way. A step is a
turn of `input_task` up to its send, that send, or the next step of
`ventcontrol_task`; what its first receive returns is up to the
environment, so any client commands can come in between.

The invariant `Agrees` follows the last element: of the boost events
taken by the fan task, then those in the queue, then the one not sent
yet, the last is on exactly while the sensor task is in its boost period.
Where the queue is empty and both tasks are at their loop heads, that is
the last event the fan task has taken, and `actualSpeed_of_lastEvent`
says what the fan does.

In the firmware the commands come from `receive_queue`; its two tasks are
these (`firmware_run`).
-/
import VentControl.Lib.Fifo
import VentControl.Input.Task
import VentControl.System.Firmware
import VentControl.Ventcontrol.Steps
import VentControl.Ventcontrol.BoostTheorems

namespace VentControl.System.Boost

open Runs VentControl.Ventcontrol

/-! ## The system -/

/-- The two tasks and the queue between them. `inputPending` is what the
running turn of `input_task` has still to send; `turns` records the
completed turns of `ventcontrol_task`. -/
structure State where
  input : Input.Locals
  inputPending : List Bool
  inputQueue : List Bool
  vent : Vent
  turns : List Turn

/-- A step of one of the tasks. -/
inductive Label
  | sample (samples : Input.Samples)
  | inputSend
  | vent (message : Option Message)

/-- `input_task` and `ventcontrol_task` before their first turns. -/
def State.start : State where
  input := .start
  inputPending := []
  inputQueue := []
  vent := .start
  turns := []

/-- The next step of `ventcontrol_task`. -/
def State.ventStep (s : State) (message : Option Message) : State :=
  match s.vent.pending with
  | _ :: rest => { s with vent := { s.vent with pending := rest } }
  | [] =>
    match s.vent.half with
    | none => { s with vent := s.vent.receiveMessage message }
    | some m =>
      { s with
        vent := s.vent.receiveBoost (Fifo.receive s.inputQueue).1
        inputQueue := (Fifo.receive s.inputQueue).2
        turns := s.turns ++ [⟨m, (Fifo.receive s.inputQueue).1⟩] }

/-- One step. A task that is not where the label wants it stays put. -/
def State.step (s : State) : Label → State
  | .sample samples =>
    match s.inputPending with
    | [] =>
      { s with
        input := (Input.inputTurn s.input samples).1
        inputPending := (Input.inputTurn s.input samples).2 }
    | _ :: _ => s
  | .inputSend =>
    match s.inputPending with
    | [] => s
    | b :: rest =>
      { s with
        inputPending := rest
        inputQueue := Fifo.send maxQueueLength s.inputQueue b }
  | .vent message => s.ventStep message

/-- The system as a machine. -/
def system : Mealy State Label Empty where
  init := .start
  step s l := (s.step l, [])

/-- A send to `input_queue` finds room. -/
def SendSucceeds (s : State) (l : Label) : Prop :=
  l = .inputSend → s.inputPending ≠ [] → s.inputQueue.length < maxQueueLength

theorem sendSucceeds_of_ne {s : State} {l : Label} (h : l ≠ .inputSend) : SendSucceeds s l :=
  fun he => absurd he h

/-- Both tasks are at their loop heads, the queue is empty, and the fan
task has completed a turn. -/
structure State.Settled (s : State) : Prop where
  vent : s.vent.AtHead
  input : s.inputPending = []
  queue : s.inputQueue = []
  turned : s.turns ≠ []

/-! ## The last event -/

/-- Every boost event so far, in order: taken, queued, not sent yet. -/
def State.events (s : State) : List Bool :=
  s.turns.filterMap Turn.boost ++ s.inputQueue ++ s.inputPending

/-- The invariant: the last event is on exactly during the boost period. -/
structure Agrees (s : State) : Prop where
  input : s.input.Ok
  last : s.events.getLast? = some true ↔ s.input.InBoostPeriod
  tracks : s.vent.Tracks s.turns

theorem agrees_start : Agrees .start := by
  refine ⟨Input.Locals.Ok.start, ?_, Vent.tracks_start⟩
  simp [State.events, State.start, Input.Locals.InBoostPeriod, Input.Locals.start]

/-- The fan task takes events from the front, so the last one stays. -/
theorem ventStep_events (s : State) (message : Option Message) :
    (s.ventStep message).events = s.events := by
  unfold State.ventStep
  split
  · rfl
  · split
    · rfl
    · have hfifo := Fifo.receive_append s.inputQueue
      rcases hq : Fifo.receive s.inputQueue with ⟨b, q⟩
      rw [hq] at hfifo
      cases b <;> simp_all [State.events]

theorem Agrees.ventStep {s : State} (h : Agrees s) (message : Option Message) :
    Agrees (s.ventStep message) := by
  have hin : (s.ventStep message).input = s.input := by
    unfold State.ventStep
    split <;> try split
    all_goals rfl
  refine ⟨hin ▸ h.input, ?_, ?_⟩
  · rw [ventStep_events, hin]
    exact h.last
  · unfold State.ventStep
    split
    · exact h.tracks.pending _
    · split
      · next hhalf => exact h.tracks.receiveMessage hhalf message
      · next m hhalf => exact h.tracks.receiveBoost hhalf _

theorem Agrees.step {s : State} (h : Agrees s) {l : Label} (hroom : SendSucceeds s l) :
    Agrees (s.step l) := by
  cases l with
  | vent message => exact h.ventStep message
  | sample samples =>
    simp only [State.step]
    split
    · next hp =>
      obtain ⟨hok, hcases⟩ := Input.inputTurn_cases s.input h.input samples
      refine ⟨hok, ?_, h.tracks⟩
      have hlast := h.last
      simp only [State.events, hp, List.append_nil] at hlast ⊢
      rcases hcases with ⟨hsent, hper⟩ | ⟨hsent, hper⟩ | ⟨hsent, hper⟩
      · rw [hsent, hper, List.append_nil]
        exact hlast
      · simp [hsent, hper]
      · simp [hsent, hper]
    · exact h
  | inputSend =>
    simp only [State.step]
    split
    · exact h
    · next b rest hp =>
      have hlt := hroom rfl (by simp [hp])
      refine ⟨h.input, ?_, h.tracks⟩
      have hlast := h.last
      simp only [State.events, hp, Fifo.send_of_lt hlt] at hlast ⊢
      simpa using hlast

theorem agrees_run {ls : List Label} (hroom : system.Along SendSucceeds ls) :
    Agrees (system.run ls) :=
  system.run_inv SendSucceeds agrees_start (fun _ _ h hr => h.step hr) ls hroom

/-- **Sensor and fan agree on boost.** For every interleaving of the two
tasks, every samples and every client commands, as long as no send to
`input_queue` fails. -/
theorem sensor_and_fan_agree (ls : List Label) (hroom : system.Along SendSucceeds ls)
    (hset : (system.run ls).Settled) :
    let s := system.run ls
    let v := s.vent.locals
    (s.input.InBoostPeriod → ¬ ChangedSinceOn s.turns →
      v.actualSpeed = max 2 v.requestedSpeed) ∧
    (s.input.InBoostPeriod → ChangedSinceOn s.turns → v.actualSpeed = v.requestedSpeed) ∧
    (¬ s.input.InBoostPeriod →
      v.requestedSpeed ≤ v.actualSpeed ∧ v.actualSpeed ≤ max 1 v.requestedSpeed) := by
  have hinv := agrees_run hroom
  have hloc := hinv.tracks.locals_eq hset.vent
  have hlast : lastEvent (system.run ls).turns = some true ↔
      (system.run ls).input.InBoostPeriod := by
    rw [← hinv.last]
    simp [State.events, hset.input, hset.queue, lastEvent]
  obtain ⟨hon, hch, hoff⟩ := actualSpeed_of_lastEvent hset.turned
  simp only [hloc, requestedSpeed_run]
  exact ⟨fun hp => hon (hlast.mpr hp), fun hp => hch (hlast.mpr hp),
    fun hp => hoff fun hl => hp (hlast.mp hl)⟩

/-! ## In the firmware -/

/-- The sensor task and the fan task of the firmware. The turns are not
recorded there. -/
def ofFirmware (s : Firmware.State) (turns : List Turn) : State where
  input := s.input
  inputPending := s.inputPending
  inputQueue := s.inputQueue
  vent := s.clients.vent
  turns := turns

/-- The same condition there. -/
def FirmwareSendSucceeds (s : Firmware.State) (l : Firmware.Label) : Prop :=
  l = .inputSend → s.inputPending ≠ [] → s.inputQueue.length < maxQueueLength

/-- The step of the fan task, with the command that is next in
`receive_queue`. -/
theorem ofFirmware_ventStep (s : Firmware.State) (turns : List Turn) :
    ∃ turns', (ofFirmware s turns).ventStep
        (s.clients.receiveQueue.head?.map Clients.Request.message) =
      ofFirmware s.ventStep turns' := by
  cases hp : s.clients.vent.pending with
  | cons act rest =>
    refine ⟨turns, ?_⟩
    cases act <;>
      simp [ofFirmware, State.ventStep, Firmware.State.ventStep, Clients.State.ventStep, hp]
  | nil =>
    cases hh : s.clients.vent.half with
    | none =>
      refine ⟨turns, ?_⟩
      simp [ofFirmware, State.ventStep, Firmware.State.ventStep, Clients.State.ventStep, hp, hh,
        Fifo.receive]
    | some m =>
      refine ⟨turns ++ [⟨m, (Fifo.receive s.inputQueue).1⟩], ?_⟩
      simp [ofFirmware, State.ventStep, Firmware.State.ventStep, Clients.State.ventStep, hp, hh]

/-- A step of the firmware is at most one of the two tasks. -/
theorem ofFirmware_step (s : Firmware.State) (turns : List Turn) {l : Firmware.Label}
    (hroom : FirmwareSendSucceeds s l) :
    (∃ turns', ofFirmware (s.step l).1 turns' = ofFirmware s turns) ∨
      ∃ l' turns', SendSucceeds (ofFirmware s turns) l' ∧
        (ofFirmware s turns).step l' = ofFirmware (s.step l).1 turns' := by
  cases l with
  | dhcp i => exact Or.inl ⟨turns, rfl⟩
  | server a stack =>
    refine Or.inl ⟨turns, ?_⟩
    show ofFirmware { s with clients := (s.clients.serverStep a stack).1 } turns = _
    rw [ofFirmware, ofFirmware, Clients.serverStep_vent]
  | vent =>
    obtain ⟨turns', hstep⟩ := ofFirmware_ventStep s turns
    exact Or.inr ⟨.vent _, turns', sendSucceeds_of_ne (by simp), hstep⟩
  | sample samples =>
    refine Or.inr ⟨.sample samples, turns, sendSucceeds_of_ne (by simp), ?_⟩
    cases hp : s.inputPending <;>
      simp [ofFirmware, State.step, Firmware.State.step, Firmware.State.sample, hp]
  | inputSend =>
    refine Or.inr ⟨.inputSend, turns, fun _ hp => hroom rfl hp, ?_⟩
    cases hp : s.inputPending <;>
      simp [ofFirmware, State.step, Firmware.State.step, Firmware.State.inputSend, hp]

/-- **The two tasks in every run of the firmware** in which no send to
`input_queue` fails are those of such a run of the system above. -/
theorem firmware_run (s₀ : Clients.PortId → Server.SocketData) (ls : List Firmware.Label)
    (hroom : (Firmware.system s₀).Along FirmwareSendSucceeds ls) :
    ∃ ls' turns, system.Along SendSucceeds ls' ∧
      system.run ls' = ofFirmware ((Firmware.system s₀).run ls) turns := by
  induction ls using List.reverseRecOn with
  | nil => exact ⟨[], [], EachStep.nil _, rfl⟩
  | append_singleton ls l ih =>
    obtain ⟨hls, hl⟩ := EachStep.concat_iff.mp hroom
    obtain ⟨ls', turns, hgood, hrun⟩ := ih hls
    rw [Mealy.run_concat]
    rcases ofFirmware_step ((Firmware.system s₀).run ls) turns hl with
      ⟨turns', hsame⟩ | ⟨l', turns', hsend, hstep⟩
    · exact ⟨ls', turns', hgood, hrun.trans hsame.symm⟩
    · refine ⟨ls' ++ [l'], turns', EachStep.concat_iff.mpr ⟨hgood, ?_⟩, ?_⟩
      · rw [hrun]
        exact hsend
      · rw [Mealy.run_concat, hrun]
        exact hstep

/-! ## A run with a boost -/

/-- A turn of the sensor task in which all four inputs are active. -/
def allHigh : Label := .sample fun _ => true

/-- One more turn counts for an input until three minutes are over. -/
theorem handleInputs_high {n : Nat} (hn : n < 1800) :
    Input.handleInputs true ⟨Input.inputReadDelayMs * n, false⟩ =
      ⟨Input.inputReadDelayMs * (n + 1 : Nat), false⟩ := by
  have hsum : Input.addInt (Input.inputReadDelayMs * n) Input.inputReadDelayMs =
      Input.inputReadDelayMs * (n + 1 : Nat) := by
    rw [Input.addInt, Int.bmod_eq_of_le] <;> simp only [Input.inputReadDelayMs] <;> omega
  have hshort : ¬ Input.inputReadDelayMs * (n + 1 : Nat) > Input.inputDelayMs := by
    simp only [Input.inputReadDelayMs, Input.inputDelayMs]
    omega
  simp only [Input.handleInputs, hsum, hshort, if_true, false_and, if_false]

theorem inputTurn_quiet {c c' : Input.Channel} (hc : Input.handleInputs true c = c')
    (hidle : c'.inputState = false) :
    Input.inputTurn ⟨fun _ => c, false, 0⟩ (fun _ => true) = (⟨fun _ => c', false, 0⟩, []) := by
  simp [Input.inputTurn, hc, Input.inputActivated, hidle, Input.latchBoost, Input.countDown]

/-- Until then nothing else changes. -/
theorem run_allHigh {n : Nat} (hn : n ≤ 1800) :
    system.run (List.replicate n allHigh) =
      { State.start with input := ⟨fun _ => ⟨Input.inputReadDelayMs * n, false⟩, false, 0⟩ } := by
  induction n with
  | zero => rfl
  | succ n ih =>
    have hturn := inputTurn_quiet (handleInputs_high (n := n) (by omega)) rfl
    rw [List.replicate_succ', Mealy.run_concat, ih (by omega)]
    simp only [system, State.step, allHigh, State.start, hturn]

/-- All inputs are active for three minutes and one turn more, in which boost
begins. -/
def threeMinutes : List Label := List.replicate 1800 allHigh ++ [allHigh]

/-- Boost is sent, and the fan task runs through its prologue and one turn. -/
def boosted : List Label := threeMinutes ++ .inputSend :: List.replicate 9 (.vent none)

theorem run_threeMinutes : (system.run threeMinutes).inputQueue = [] := by
  rw [threeMinutes, Mealy.run_append, run_allHigh (Nat.le_refl _)]
  rfl

theorem run_boosted :
    (system.run boosted).Settled ∧ (system.run boosted).turns = [⟨none, some true⟩] ∧
      (system.run boosted).input.boost = true := by
  rw [boosted, threeMinutes, List.append_assoc, Mealy.run_append, run_allHigh (Nat.le_refl _)]
  exact ⟨⟨⟨rfl, rfl⟩, rfl, rfl, by decide⟩, rfl, rfl⟩

/-- A run without sends. -/
theorem along_of_not_mem {good : List Label → Label → Prop} {ls : List Label}
    (hgood : ∀ h l, l ≠ .inputSend → good h l) (hls : ∀ l ∈ ls, l ≠ .inputSend) :
    EachStep good ls := by
  intro h l t he
  exact hgood h l (hls l (by simp [he]))

theorem boosted_sendSucceeds : system.Along SendSucceeds boosted := by
  have hthree : ∀ l ∈ threeMinutes, l ≠ .inputSend := by
    intro l hl
    have hhigh : l = allHigh := by
      rcases List.mem_append.mp hl with hl | hl
      · exact List.eq_of_mem_replicate hl
      · exact List.mem_singleton.mp hl
    simp [hhigh, allHigh]
  refine EachStep.append_iff.mpr ⟨?_, EachStep.cons_iff.mpr ⟨?_, ?_⟩⟩
  · exact along_of_not_mem (fun _ _ => sendSucceeds_of_ne) hthree
  · -- the queue is empty at the send
    intro _ _
    rw [List.append_nil, run_threeMinutes]
    decide
  · exact along_of_not_mem (fun _ _ => sendSucceeds_of_ne) (by simp)

theorem sensor_and_fan_agree_boosted :
    (system.run boosted).vent.locals.actualSpeed =
      max 2 (system.run boosted).vent.locals.requestedSpeed := by
  obtain ⟨hset, hturns, hboost⟩ := run_boosted
  have hunchanged : ¬ ChangedSinceOn (system.run boosted).turns := by
    rw [hturns]
    rintro ⟨p, i, q, he, -, -, q₁, j, q₂, rfl, -⟩
    have hlen := congrArg List.length he
    simp only [List.length_append, List.length_cons, List.length_nil] at hlen
    omega
  exact (sensor_and_fan_agree boosted boosted_sendSucceeds hset).1 (Or.inl hboost) hunchanged

end VentControl.System.Boost
