/-
VentControl.System.ControlTheorems — what the relays do in the whole
firmware.

`Ventcontrol.RelayTheorems` is about `ventcontrol_task` alone, with any
messages. Here all four tasks run, in any order, for any bytes from the
clients and any samples of the inputs. `System.Ledger` turns such a run
into one of the fan task, so what a run of the fan task keeps, the
firmware keeps.

1. `firmware_interlock`: the relays of speeds 2 and 3 are never on
   together, and between the one going off and the other going on lie
   `RELAIS_SWITCH_DELAY_MS`.

2. `outputs_follow_commands`: once the queues are empty and the fan task
   has nothing left to do, the outputs follow the commands that were
   accepted. The last speed command and the last vakantie command count,
   whatever was in between. Only a boost event can make the fan run
   faster, and a fan that runs is switched to the speed it runs at. For
   speed 0 the relays are not touched (`Ventcontrol.RelayTheorems`), so
   nothing is said of them then. That the firmware gets to rest is in
   `SettleTheorems`.
-/
import VentControl.System.Ledger
import VentControl.System.WakeupTheorems
import VentControl.System.WellFormedTheorems
import VentControl.Ventcontrol.BoostTheorems
import VentControl.Ventcontrol.RelayTheorems

namespace VentControl.System.Firmware

open Runs Timed VentControl.Server VentControl.Ventcontrol
open VentControl.System.Clients (PortId Reply Request)

/-! ## The interlock -/

/-- **The relay interlock of the firmware.** In every run, and for every way
its actions can fall in time: at no instant are both speed relays on, and a
speed relay is switched on only when the other has been off for the switch
delay (in ticks) without a break. -/
theorem firmware_interlock (s₀ : PortId → SocketData) (ls : List Label)
    (tr : List (Nat × Action)) (htr : tr.map Prod.snd = ((recorded s₀).run ls).ledger.acts)
    (hst : StampsFrom Action.ticks 0 tr) :
    (∀ pre, pre <+: tr → ¬ (Timed.after Relays.apply Relays.init pre).Both) ∧
    (∀ pre t post, tr = pre ++ (t, .gpioPut .relSpeed2 true) :: post →
      HeldFor Relays.apply Relays.init (fun r => r.speed3 = false)
        (relaisSwitchDelayMs / portTickPeriodMs) pre t) ∧
    (∀ pre t post, tr = pre ++ (t, .gpioPut .relSpeed3 true) :: post →
      HeldFor Relays.apply Relays.init (fun r => r.speed2 = false)
        (relaisSwitchDelayMs / portTickPeriodMs) pre t) := by
  have hbegin := (List.prefix_append _ _).trans (acts_turns (explained_run s₀ ls))
  have h2 := (actions_guarded_2 ((recorded s₀).run ls).turns).beginning hbegin
  have h3 := (actions_guarded_3 ((recorded s₀).run ls).turns).beginning hbegin
  rw [← htr] at h2 h3
  refine ⟨?_, ?_, ?_⟩
  · intro pre hpre
    rw [after_eq_relays]
    exact not_both_of_guarded h2 h3 _ (hpre.map Prod.snd)
  · intro pre t post he
    subst he
    exact heldFor_of_switchGuard (P := fun r => r.speed3 = false) hst h2
      (fun _ => rfl) (fun _ _ => id)
  · intro pre t post he
    subst he
    exact heldFor_of_switchGuard (P := fun r => r.speed2 = false) hst h3
      (fun _ => rfl) (fun _ _ => id)

/-- A round of the serving loop, from one receive to the next, with the answers
`a` for socket 0. -/
def serverRound (a : Answers) : List Label :=
  [.server (.status .other 0 0) noMessage, .server a noMessage] ++
    List.replicate 4 (.server (.status .other 0 0) noMessage)

/-- A client connects and asks for speed 3, and the fan task does it. -/
def speedThree : List Label :=
  firstPeriod ++ serverRound (.status .established 0 0) ++
    serverRound (arrival (CString.ascii ['S', 'E', 'T', '3', '#'])) ++ List.replicate 9 .vent

theorem firmware_interlock_speedThree :
    HeldFor Relays.apply Relays.init (fun r => r.speed2 = false) 500 (switchRun.take 5) 510 :=
  (firmware_interlock Clients.freshSockets speedThree switchRun (by decide +kernel)
    (by simp [switchRun, StampsFrom, Action.ticks])).2.2 (switchRun.take 5) 510
      [(510, .xQueueSend ⟨-1, 3, .currentSpeeed⟩)] (by decide)

/-! ## What the outputs show -/

/-- The outputs are what the locals say, where the fan runs at a speed that
has a relay setting. -/
structure Shows (r : Relays) (s : Locals) : Prop where
  speed : 1 ≤ s.actualSpeed → s.actualSpeed ≤ 3 → SpeedShown r s
  vakantie : r.vakantie = s.currentVakantie

/-- A switch to such a speed sets both relays, wherever they were. -/
theorem switchRelays_sets (r : Relays) (s : Locals) {w : Int} (hpos : 1 ≤ w) (hle : w ≤ 3) :
    SpeedShown (r.after (switchRelays w)) { s with actualSpeed := w } := by
  have hcases : w = 1 ∨ w = 2 ∨ w = 3 := by omega
  rcases hcases with rfl | rfl | rfl <;> simp [switchRelays, SpeedShown, Relays.apply]

theorem switchRelays_vakantie (r : Relays) (w : Int) :
    (r.after (switchRelays w)).vakantie = r.vakantie := by
  unfold switchRelays
  split
  · rfl
  · split
    · rfl
    · split <;> rfl

/-- The first half of a turn. -/
theorem Shows.message {r : Relays} {s : Locals} (h : Shows r s) (m : Option Message) :
    Shows (r.after (ventcontrolMessage s m).2) (ventcontrolMessage s m).1 := by
  rcases m with _ | ⟨c, v, ty⟩
  · exact h
  · cases ty with
    | setVakantie => exact ⟨h.speed, rfl⟩
    | setSpeed =>
      simp only [ventcontrolMessage]
      split
      · exact ⟨h.speed, h.vakantie⟩
      · exact h
    | _ => exact h

/-- The second half of a turn. -/
theorem Shows.boost {r : Relays} {s : Locals} (h : Shows r s) (b : Option Bool) :
    Shows (r.after (ventcontrolBoost s b).2) (ventcontrolBoost s b).1 := by
  simp only [ventcontrolBoost]
  split
  · rw [Relays.after_append]
    exact ⟨fun hpos hle => switchRelays_sets r (takeBoost s b) hpos hle,
      (switchRelays_vakantie r _).trans (by simpa using h.vakantie)⟩
  · exact ⟨by simpa [SpeedShown] using h.speed, by simpa using h.vakantie⟩

/-- **The outputs show the speed and vakantie** after every run of the fan
task, whatever it received. -/
theorem shows_run (turns : List Turn) :
    Shows (Relays.init.after (actions turns)) (task.run turns) := by
  induction turns using List.reverseRecOn with
  | nil => exact ⟨fun _ _ => ⟨rfl, rfl⟩, rfl⟩
  | append_singleton turns i ih =>
    rw [run_concat, actions_concat, ventcontrolTurn_fst, ventcontrolTurn_snd, Relays.after_append,
      Relays.after_append]
    exact (ih.message i.message).boost i.boost

/-! ## What the commands ask for -/

/-- The speed asked for: the value of the last speed command, 1 if there was
none. -/
def speedAsked (ms : List Message) : Int :=
  ms.foldl (fun v m => if m.messageType = .setSpeed then m.value else v) 1

/-- The last vakantie command, off if there was none. -/
def vakantieAsked (ms : List Message) : Bool :=
  ms.foldl (fun v m => if m.messageType = .setVakantie then decide (m.value > 0) else v) false

theorem requestAfter_eq (v : Int) (i : Turn) :
    requestAfter v i =
      i.message.toList.foldl (fun v m => if m.messageType = .setSpeed then m.value else v) v := by
  obtain ⟨m, b⟩ := i
  rcases m with _ | ⟨c, w, ty⟩
  · rfl
  · cases ty <;> rfl

/-- The requested speed of the turns is the one their commands ask for. -/
theorem requestedSpeedOf_eq (turns : List Turn) :
    requestedSpeedOf turns = speedAsked (turns.filterMap Turn.message) := by
  induction turns using List.reverseRecOn with
  | nil => rfl
  | append_singleton turns i ih =>
    rw [requestedSpeedOf_concat, requestAfter_eq, ih, List.filterMap_append, speedAsked, speedAsked,
      List.foldl_append]
    cases hm : i.message <;> simp [hm]

theorem ventcontrolMessage_vakantie (s : Locals) (m : Option Message) :
    (ventcontrolMessage s m).1.currentVakantie =
      m.toList.foldl (fun v m => if m.messageType = .setVakantie then decide (m.value > 0) else v)
        s.currentVakantie := by
  rcases m with _ | ⟨c, w, ty⟩
  · rfl
  · cases ty <;> try rfl
    simp only [ventcontrolMessage]
    split <;> rfl

/-- Vakantie is what the commands ask for. -/
theorem currentVakantie_run (turns : List Turn) :
    (task.run turns).currentVakantie = vakantieAsked (turns.filterMap Turn.message) := by
  induction turns using List.reverseRecOn with
  | nil => rfl
  | append_singleton turns i ih =>
    rw [run_concat, ventcontrolTurn_fst, ventcontrolBoost_currentVakantie,
      ventcontrolMessage_vakantie, ih, List.filterMap_append, vakantieAsked, vakantieAsked,
      List.foldl_append]
    cases hm : i.message <;> simp [hm]

/-! ## At rest -/

/-- The commands that `receive_queue` accepted. -/
def Recorded.asked (r : Recorded) : List Message := r.ledger.accepted.map Request.message

/-- Nothing is on its way to the fan task, and it has nothing left to do; it
has completed a turn. -/
structure Recorded.AtRest (r : Recorded) : Prop where
  commands : r.state.clients.receiveQueue = []
  boosts : r.state.inputQueue = []
  pending : r.state.clients.vent.pending = []
  half : r.state.clients.vent.half.join = none
  turned : r.ledger.turns ≠ []

/-- A half turn that received nothing has changed nothing. -/
theorem tracks_of_join {v : Vent} {turns : List Turn} (h : v.Tracks turns)
    (hhalf : v.half.join = none) : v.locals = task.run turns ∧ firstActions v turns = [] := by
  unfold Vent.Tracks at h
  unfold firstActions
  cases hh : v.half with
  | none =>
    rw [hh] at h
    exact ⟨h, rfl⟩
  | some m =>
    rw [hh] at h hhalf
    obtain rfl : m = none := hhalf
    exact ⟨h, rfl⟩

/-- At rest all that was accepted was handled. -/
theorem Explained.handled_of_atRest {r : Recorded} (h : Explained r.state r.ledger)
    (hrest : r.AtRest) :
    r.ledger.turns.filterMap Turn.message = r.asked ∧
      r.ledger.turns.filterMap Turn.boost = r.ledger.boosts ∧
      r.ledger.acts = actions r.ledger.turns ∧
      r.state.clients.vent.locals = task.run r.ledger.turns := by
  obtain ⟨hlocals, hfirst⟩ := tracks_of_join h.outputs.tracks hrest.half
  have hhandled := h.commands.handled
  have htaken := h.boosts.taken
  have hacts := h.outputs.acts
  simp only [firstMessage, hrest.half, hrest.commands, Option.toList_none,
    List.map_nil, List.append_nil] at hhandled
  simp only [hrest.boosts, List.append_nil] at htaken
  simp only [hrest.pending, hfirst, List.append_nil] at hacts
  exact ⟨hhandled, htaken, hacts, hlocals⟩

/-- The locals `v` of the fan task and the outputs follow the commands
`asked` and the boost events: vakantie is the last one asked for, and its
output shows it; the fan runs at the speed asked for last or faster, and no
faster than the larger of that and the boost speed; if the last boost event
is not on, no faster than the larger of that and 1; and if it runs, the two
speed relays show its speed. -/
structure Follows (asked : List Message) (boosts : List Bool) (v : Locals) (outputs : Relays) :
    Prop where
  requested : v.requestedSpeed = speedAsked asked
  vakantie : v.currentVakantie = vakantieAsked asked
  vakantieShown : outputs.vakantie = vakantieAsked asked
  least : speedAsked asked ≤ v.actualSpeed
  most : v.actualSpeed ≤ max boostSpeedOn (speedAsked asked)
  normal : boosts.getLast? ≠ some true → v.actualSpeed ≤ max normalSpeed (speedAsked asked)
  speedShown : v.actualSpeed ≠ 0 → SpeedShown outputs v

/-- The actual speed after some turns, from the commands and the boost events
in them. -/
theorem actualSpeed_bounds {turns : List Turn} (hne : turns ≠ []) :
    speedAsked (turns.filterMap Turn.message) ≤ (task.run turns).actualSpeed ∧
      (task.run turns).actualSpeed ≤
        max boostSpeedOn (speedAsked (turns.filterMap Turn.message)) ∧
      ((turns.filterMap Turn.boost).getLast? ≠ some true → (task.run turns).actualSpeed ≤
        max normalSpeed (speedAsked (turns.filterMap Turn.message))) := by
  have hboost : boostSpeedOn = 2 := rfl
  obtain ⟨hon, hch, hoff⟩ := actualSpeed_of_lastEvent hne
  rw [lastEvent, requestedSpeedOf_eq] at hon hch hoff
  by_cases hl : (turns.filterMap Turn.boost).getLast? = some true
  · by_cases hc : ChangedSinceOn turns
    · have hact := hch hl hc
      exact ⟨by omega, by omega, fun hnot => absurd hl hnot⟩
    · have hact := hon hl hc
      exact ⟨by omega, by omega, fun hnot => absurd hl hnot⟩
  · obtain ⟨hlo, hhi⟩ := hoff hl
    exact ⟨hlo, by omega, fun _ => hhi⟩

/-- At rest the outputs follow the commands. -/
theorem follows_of_atRest {s₀ : PortId → SocketData} {ls : List Label}
    (hrest : ((recorded s₀).run ls).AtRest) :
    Follows ((recorded s₀).run ls).asked ((recorded s₀).run ls).ledger.boosts
      ((recorded s₀).run ls).state.clients.vent.locals
      (Relays.init.after ((recorded s₀).run ls).ledger.acts) := by
  have hrange : ((recorded s₀).run ls).state.clients.vent.locals.InRange := by
    have hwf := (wellFormed_run s₀ ls).1.locals
    rwa [← (recorded_run s₀ ls).1] at hwf
  obtain ⟨hasked, hboosts, hacts, hlocals⟩ := (explained_run s₀ ls).handled_of_atRest hrest
  rw [← hasked, ← hboosts, hacts, hlocals]
  rw [hlocals] at hrange
  have hshows := shows_run ((recorded s₀).run ls).ledger.turns
  have hvakantie := currentVakantie_run ((recorded s₀).run ls).ledger.turns
  obtain ⟨hlo, hhi, hoff⟩ := actualSpeed_bounds hrest.turned
  exact {
    requested := (requestedSpeed_run _).trans (requestedSpeedOf_eq _)
    vakantie := hvakantie
    vakantieShown := hshows.vakantie.trans hvakantie
    least := hlo
    most := hhi
    normal := hoff
    speedShown := fun hne => hshows.speed (by have := hrange.actual.1; omega) hrange.actual.2 }

end VentControl.System.Firmware
