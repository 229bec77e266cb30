/-
VentControl.Ventcontrol.Steps — the fan task between two of its steps,
for the systems in which other tasks run in between.

The task takes one step at a time: the next action it owes (a write, a
delay, a send), or, when it owes none, its next receive. `half` is what
the first receive of the running turn returned, and `none` at the loop
head and before the loop.

`Tracks v turns` ties such a task to the machine of `Ventcontrol.Task`:
its locals are those of the completed turns `turns`, with the first half
of the running turn done on top.
-/
import VentControl.Ventcontrol.Task

namespace VentControl.Ventcontrol

open Runs

/-- The fan task between two steps. -/
structure Vent where
  locals : Locals
  half : Option (Option Message)
  pending : List Action
  deriving DecidableEq, Repr

/-- The task before its first write. -/
def Vent.start : Vent := ⟨.start, none, prologue⟩

/-- The task is at the head of its loop. -/
def Vent.AtHead (v : Vent) : Prop := v.half = none ∧ v.pending = []

/-- The first receive of a turn has returned `m`. -/
def Vent.receiveMessage (v : Vent) (m : Option Message) : Vent :=
  ⟨(ventcontrolMessage v.locals m).1, some m, (ventcontrolMessage v.locals m).2⟩

/-- The second receive of a turn has returned `b`. -/
def Vent.receiveBoost (v : Vent) (b : Option Bool) : Vent :=
  ⟨(ventcontrolBoost v.locals b).1, none, (ventcontrolBoost v.locals b).2⟩

/-- The locals are those of the completed turns, with the first half of the
running turn on top. -/
def Vent.Tracks (v : Vent) (turns : List Turn) : Prop :=
  match v.half with
  | none => v.locals = task.run turns
  | some m => v.locals = (ventcontrolMessage (task.run turns) m).1

theorem Vent.tracks_start : Vent.start.Tracks [] := rfl

theorem Vent.Tracks.pending {v : Vent} {turns : List Turn} (h : v.Tracks turns)
    (acts : List Action) : { v with pending := acts }.Tracks turns := h

theorem Vent.Tracks.receiveMessage {v : Vent} {turns : List Turn} (h : v.Tracks turns)
    (hhead : v.half = none) (m : Option Message) : (v.receiveMessage m).Tracks turns := by
  simp only [Vent.Tracks, hhead] at h
  simp only [Vent.Tracks, Vent.receiveMessage, h]

/-- The second receive completes the turn. -/
theorem Vent.Tracks.receiveBoost {v : Vent} {turns : List Turn} (h : v.Tracks turns)
    {m : Option Message} (hhalf : v.half = some m) (b : Option Bool) :
    (v.receiveBoost b).Tracks (turns ++ [⟨m, b⟩]) := by
  simp only [Vent.Tracks, hhalf] at h
  simp only [Vent.Tracks, Vent.receiveBoost, h, run_concat, ventcontrolTurn_fst]

/-- At the loop head the locals are those of the completed turns. -/
theorem Vent.Tracks.locals_eq {v : Vent} {turns : List Turn} (h : v.Tracks turns)
    (hhead : v.AtHead) : v.locals = task.run turns := by
  simpa only [Vent.Tracks, hhead.1] using h

/-! ## What a turn sends -/

/-- The messages that a list of actions puts on `send_queue`. -/
def sends (acts : List Action) : List Message :=
  acts.filterMap fun
    | .xQueueSend m => some m
    | _ => none

theorem mem_sends {acts : List Action} {m : Message} : m ∈ sends acts ↔ .xQueueSend m ∈ acts := by
  constructor
  · intro h
    obtain ⟨act, hact, hm⟩ := List.mem_filterMap.mp h
    cases act <;> simp_all
  · intro h
    exact List.mem_filterMap.mpr ⟨_, h, rfl⟩

/-- The second half changes the speed and tells all, or does neither. -/
theorem ventcontrolBoost_tells (s : Locals) (b : Option Bool) :
    ((ventcontrolBoost s b).1.actualSpeed = s.actualSpeed ∧ sends (ventcontrolBoost s b).2 = []) ∨
      sends (ventcontrolBoost s b).2 = [speedBroadcast (ventcontrolBoost s b).1.actualSpeed] := by
  rw [ventcontrolBoost_actualSpeed]
  by_cases h : wantedSpeed (takeBoost s b) = s.actualSpeed
  · have hacts : (ventcontrolBoost s b).2 = [] := by simp [ventcontrolBoost, h]
    exact Or.inl ⟨h, by rw [hacts]; rfl⟩
  · refine Or.inr ?_
    have hswitch : sends (switchRelays (wantedSpeed (takeBoost s b))) = [] := by
      rw [List.eq_nil_iff_forall_not_mem]
      intro m hm
      exact not_mem_switchRelays _ _ (mem_sends.mp hm)
    have hacts : (ventcontrolBoost s b).2 = switchRelays (wantedSpeed (takeBoost s b)) ++
        [.xQueueSend (speedBroadcast (wantedSpeed (takeBoost s b)))] := by
      simp [ventcontrolBoost, h]
    rw [hacts, sends, List.filterMap_append]
    show sends _ ++ _ = _
    rw [hswitch]
    rfl

/-! ## The speeds -/

/-- The speeds a client can ask for, and the boost levels, are 0 to 3. -/
structure Locals.InRange (s : Locals) : Prop where
  requested : 0 ≤ s.requestedSpeed ∧ s.requestedSpeed ≤ 3
  boost : 0 ≤ s.boostSpeed ∧ s.boostSpeed ≤ 3
  actual : 0 ≤ s.actualSpeed ∧ s.actualSpeed ≤ 3

theorem Locals.inRange_start : Locals.start.InRange := ⟨by decide, by decide, by decide⟩

theorem Locals.InRange.message {s : Locals} (h : s.InRange) {message : Option Message}
    (hm : ∀ m ∈ message, m.IsCommand) : (ventcontrolMessage s message).1.InRange := by
  rcases message with _ | ⟨c, v, ty⟩
  · exact h
  · cases ty with
    | setSpeed =>
      have hv : 0 ≤ v ∧ v ≤ 3 := by simpa [Message.IsCommand] using hm _ rfl
      simp only [ventcontrolMessage]
      split
      · exact ⟨hv, hv, h.actual⟩
      · exact h
    | getStatus => exact h
    | setVakantie => exact ⟨h.requested, h.boost, h.actual⟩
    | noMessage => exact h
    | currentSpeeed => exact h
    | currentVakantie => exact h
    | remainingTime => exact h
    | keepalive => exact h

theorem Locals.InRange.boostTurn {s : Locals} (h : s.InRange) (b : Option Bool) :
    (ventcontrolBoost s b).1.InRange := by
  have htake : 0 ≤ (takeBoost s b).boostSpeed ∧ (takeBoost s b).boostSpeed ≤ 3 := by
    cases b with
    | none => exact h.boost
    | some b =>
      have := takeBoost_some_range s b
      omega
  refine ⟨by simpa using h.requested, by simpa using htake, ?_⟩
  rw [ventcontrolBoost_actualSpeed, wantedSpeed_eq_max, takeBoost_requestedSpeed]
  have := h.requested
  omega

end VentControl.Ventcontrol
