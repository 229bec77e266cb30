/-
VentControl.System.SettleTheorems — the firmware comes to rest, and in how
many steps.

`ControlTheorems` has what the outputs show at rest: the queues to the fan
task are empty and it has nothing left to do. Here is that it gets there.
As long as nothing more is accepted by `receive_queue` and `input_queue`,
the fan task is at rest after eight of its steps for each entry of the
longer queue, and fifteen more: seven for the turn that is running, and
eight for the first turn, which is needed if no turn was completed yet
(`commands_settle`). The other tasks may do anything in between, and at
rest the fan task goes on turning without effect.

With what `CommandTheorems` and `LossTheorems` have of the way from the
clients to the queue, this is what a client may rely on: what was asked for
last is what the relays show (`clients_obeyed`).

The variant counts what is left of the running turn, and eight steps for
each turn that is still needed. A turn takes from both queues, so the
longer one counts; in the second half of a turn its boost event is still
in the queue, but needs no turn of its own.
-/
import VentControl.System.CommandTheorems
import VentControl.System.LossTheorems
import VentControl.System.ProgressTheorems

namespace VentControl.System.Firmware

open Runs VentControl.Server VentControl.Ventcontrol
open VentControl.System.Clients (PortId Reply Request)

/-! ## Nothing new -/

/-- The step adds nothing to the two queues of the fan task. -/
def AddsNothing (r : Recorded) (l : Label) : Prop :=
  (r.step l).1.asked = r.asked ∧ (r.step l).1.ledger.boosts = r.ledger.boosts

instance (r : Recorded) (l : Label) : Decidable (AddsNothing r l) := by
  unfold AddsNothing
  infer_instance

/-- Then the other tasks leave both queues as long as they are. -/
theorem AddsNothing.queues {r : Recorded} (h : Explained r.state r.ledger) {l : Label}
    (hquiet : AddsNothing r l) (hl : l.isVent = false) :
    (r.step l).1.state.clients.receiveQueue.length = r.state.clients.receiveQueue.length ∧
      (r.step l).1.state.inputQueue.length = r.state.inputQueue.length := by
  obtain ⟨hvent, hturns⟩ := step_vent (r := r) hl
  have hafter : Explained (r.step l).1.state (r.step l).1.ledger := h.step l
  have hcommands := hafter.commands.handled.trans (hquiet.1.trans h.commands.handled.symm)
  have hboosts := hafter.boosts.taken.trans (hquiet.2.trans h.boosts.taken.symm)
  rw [hvent, hturns] at hcommands
  rw [hturns] at hboosts
  constructor
  · simpa using congrArg List.length (List.append_cancel_left hcommands)
  · exact congrArg List.length (List.append_cancel_left hboosts)

/-! ## Turns without effect -/

/-- After a turn the fan runs at the speed that is wanted. -/
theorem wantedSpeed_run {turns : List Turn} (hne : turns ≠ []) :
    wantedSpeed (task.run turns) = (task.run turns).actualSpeed := by
  rcases List.eq_nil_or_concat turns with rfl | ⟨before, i, rfl⟩
  · exact absurd rfl hne
  · rw [List.concat_eq_append, run_concat, ventcontrolTurn_fst, ventcontrolBoost]
    split
    · rfl
    · exact not_not.mp ‹_›

/-- At rest the fan task goes on turning, and stays at rest. -/
theorem Explained.vent_atRest {s : State} {g : Ledger} (h : Explained s g)
    (hrest : (Recorded.mk s g).AtRest) : (Recorded.mk s.ventStep (g.vent s)).AtRest := by
  have hcommands : s.clients.receiveQueue = [] := hrest.commands
  have hboosts : s.inputQueue = [] := hrest.boosts
  cases hh : s.clients.vent.half with
  | none =>
    obtain ⟨hs, hg⟩ := vent_receiveMessage g hrest.pending hh
    rw [hs, hg]
    exact {
      commands := by simp [hcommands]
      boosts := hboosts
      pending := by simp [Vent.receiveMessage, hcommands]
      half := by simp [Vent.receiveMessage, hcommands]
      turned := hrest.turned }
  | some m =>
    obtain ⟨hs, hg⟩ := vent_receiveBoost g hrest.pending hh
    have hlocals := (tracks_of_join h.outputs.tracks hrest.half).1
    have hwanted := wantedSpeed_run hrest.turned
    rw [← hlocals] at hwanted
    rw [hs, hg]
    exact {
      commands := hcommands
      boosts := by simp [hboosts]
      pending := by simp [Vent.receiveBoost, ventcontrolBoost, takeBoost, hboosts, hwanted]
      half := rfl
      turned := by simp }

/-! ## The way to rest -/

/-- The turns that are still needed once the running one is completed: with
`commands` and `boosts` entries in the queues, and `turned` turns completed. -/
def turnsLeft (v : Vent) (commands boosts turned : Nat) : Nat :=
  match v.half with
  | none => max (max commands boosts) (1 - turned)
  | some _ => max commands (boosts - 1)

/-- The steps of the fan task up to its rest, at most. -/
def stepsLeft (v : Vent) (commands boosts turned : Nat) : Nat :=
  stepsToReceive v + 8 * turnsLeft v commands boosts turned

/-- An action is one step less to go. -/
theorem stepsLeft_pending {v : Vent} {act : Action} {rest : List Action}
    (hp : v.pending = act :: rest) (c b t : Nat) :
    stepsLeft { v with pending := rest } c b t < stepsLeft v c b t := by
  simp [stepsLeft, stepsToReceive, turnsLeft, hp]

/-- The first receive begins one of the turns that are left. -/
theorem stepsLeft_receiveMessage {v : Vent} {c b t : Nat} (hp : v.pending = [])
    (hh : v.half = none) (hleft : 0 < turnsLeft v c b t) (m : Option Message) :
    stepsLeft (v.receiveMessage m) (c - 1) b t < stepsLeft v c b t := by
  have hlen := length_ventcontrolMessage v.locals m
  simp only [stepsLeft, stepsToReceive, turnsLeft, Vent.receiveMessage, hp, hh, reduceCtorEq,
    if_true, if_false, List.length_nil] at hleft ⊢
  omega

/-- The second receive completes it. -/
theorem stepsLeft_receiveBoost {v : Vent} {m : Option Message} (hp : v.pending = [])
    (hh : v.half = some m) (boost : Option Bool) (c b t : Nat) :
    stepsLeft (v.receiveBoost boost) c (b - 1) (t + 1) < stepsLeft v c b t := by
  have hlen := length_ventcontrolBoost v.locals boost
  simp only [stepsLeft, stepsToReceive, turnsLeft, Vent.receiveBoost, hp, hh, reduceCtorEq,
    if_true, if_false, List.length_nil]
  omega

/-- The steps of the fan task up to the rest of the firmware, at most. -/
def Recorded.stepsToRest (r : Recorded) : Nat :=
  stepsLeft r.state.clients.vent r.state.clients.receiveQueue.length r.state.inputQueue.length
    r.ledger.turns.length

/-- **All a step of the fan task can do** where the firmware is not at rest: it
comes closer. -/
theorem vent_settles {s : State} {g : Ledger} (hrest : ¬ (Recorded.mk s g).AtRest) :
    (Recorded.mk s.ventStep (g.vent s)).stepsToRest < (Recorded.mk s g).stepsToRest := by
  simp only [Recorded.stepsToRest]
  cases hp : s.clients.vent.pending with
  | cons act rest =>
    obtain ⟨q, rs, hs, hg⟩ := vent_pending g hp
    rw [hs, hg]
    exact stepsLeft_pending hp _ _ _
  | nil =>
    cases hh : s.clients.vent.half with
    | none =>
      obtain ⟨hs, hg⟩ := vent_receiveMessage g hp hh
      have hleft : 0 < turnsLeft s.clients.vent s.clients.receiveQueue.length
          s.inputQueue.length g.turns.length := by
        -- or this would be rest
        by_contra hnone
        simp only [turnsLeft, hh] at hnone
        exact hrest {
          commands := List.length_eq_zero_iff.mp (show s.clients.receiveQueue.length = 0 by omega)
          boosts := List.length_eq_zero_iff.mp (show s.inputQueue.length = 0 by omega)
          pending := hp
          half := by rw [hh]; rfl
          turned := List.length_pos_iff.mp (show 0 < g.turns.length by omega) }
      rw [hs, hg]
      simp only [List.length_tail]
      exact stepsLeft_receiveMessage hp hh hleft _
    | some m =>
      obtain ⟨hs, hg⟩ := vent_receiveBoost g hp hh
      rw [hs, hg]
      simp only [List.length_tail, List.length_append, List.length_singleton]
      exact stepsLeft_receiveBoost hp hh _ _ _ _

/-- The way to rest, while no more than `asked` and `boosts` is accepted. -/
theorem rest_variant (s₀ : PortId → SocketData) (asked : List Message) (boosts : List Bool) :
    (recorded s₀).Variant AddsNothing Label.isVent
      (fun r => Explained r.state r.ledger ∧ r.asked = asked ∧ r.ledger.boosts = boosts)
      Recorded.AtRest Recorded.stepsToRest where
  keeps r l h hquiet := ⟨h.1.step l, hquiet.1.trans h.2.1, hquiet.2.trans h.2.2⟩
  arrives r h hzero := by
    by_contra hrest
    have hlt : (r.step .vent).1.stepsToRest < r.stepsToRest := vent_settles hrest
    omega
  other r l h hquiet hl := by
    obtain ⟨hvent, hturns⟩ := step_vent (r := r) hl
    obtain ⟨hcommands, hboosts⟩ := hquiet.queues h.1 hl
    constructor
    · intro hrest
      show (r.step l).1.AtRest
      exact {
        commands := List.length_eq_zero_iff.mp (by rw [hcommands, hrest.commands]; rfl)
        boosts := List.length_eq_zero_iff.mp (by rw [hboosts, hrest.boosts]; rfl)
        pending := by rw [hvent, hrest.pending]
        half := by rw [hvent, hrest.half]
        turned := by rw [hturns]; exact hrest.turned }
    · show (r.step l).1.stepsToRest ≤ r.stepsToRest
      exact Nat.le_of_eq (by
        rw [Recorded.stepsToRest, hvent, hturns, hcommands, hboosts, Recorded.stepsToRest])
  closer r l h hquiet hl := by
    obtain rfl : l = .vent := by cases l <;> simp_all [Label.isVent]
    exact ⟨h.1.vent_atRest, vent_settles⟩

/-- **Run lemma**: rest is reached. -/
theorem rest_reached {s₀ : PortId → SocketData} {ls ls' : List Label}
    (hquiet : EachStep (fun v l => AddsNothing ((recorded s₀).run (ls ++ v)) l) ls')
    (hturns : 8 * max ((recorded s₀).run ls).state.clients.receiveQueue.length
      ((recorded s₀).run ls).state.inputQueue.length + 15 ≤ ls'.countP Label.isVent) :
    ((recorded s₀).run (ls ++ ls')).AtRest ∧
      ((recorded s₀).run (ls ++ ls')).asked = ((recorded s₀).run ls).asked ∧
      ((recorded s₀).run (ls ++ ls')).ledger.boosts = ((recorded s₀).run ls).ledger.boosts := by
  have hway : ((recorded s₀).run ls).stepsToRest ≤ ls'.countP Label.isVent := by
    have hstart := stepsToReceive_le s₀ ls
    rw [Recorded.stepsToRest, stepsLeft, turnsLeft]
    split <;> omega
  obtain ⟨⟨-, hasked, hboosts⟩, hrest⟩ := (rest_variant s₀ _ _).reaches_run ls ls'
    ⟨explained_run s₀ ls, rfl, rfl⟩ hquiet hway
  exact ⟨hrest, hasked, hboosts⟩

/-! ## What settles -/

/-- **The firmware comes to rest.** After any run, in any further steps that
add nothing to the queues of the fan task, with eight steps of that task for
each entry of the longer queue and fifteen more: the firmware is at rest,
and the outputs follow the commands and boost events accepted before. -/
theorem commands_settle (s₀ : PortId → SocketData) (ls ls' : List Label)
    (hquiet : EachStep (fun v l => AddsNothing ((recorded s₀).run (ls ++ v)) l) ls')
    (hturns : 8 * max ((recorded s₀).run ls).state.clients.receiveQueue.length
      ((recorded s₀).run ls).state.inputQueue.length + 15 ≤ ls'.countP Label.isVent) :
    ((recorded s₀).run (ls ++ ls')).AtRest ∧
      Follows ((recorded s₀).run ls).asked ((recorded s₀).run ls).ledger.boosts
        ((recorded s₀).run (ls ++ ls')).state.clients.vent.locals
        (Relays.init.after ((recorded s₀).run (ls ++ ls')).ledger.acts) := by
  obtain ⟨hrest, hasked, hboosts⟩ := rest_reached hquiet hturns
  rw [← hasked, ← hboosts]
  exact ⟨hrest, follows_of_atRest hrest⟩

/-- Two turns of the fan task and more, and a round of the server. -/
def twoTurns : List Label :=
  List.replicate 23 .vent ++ serverRound (.status .established 0 0)

/-- What the client of `asksSpeedThree` asked for is done then. -/
theorem commands_settle_speedThree :
    let r := (recorded Clients.freshSockets).run (asksSpeedThree ++ twoTurns)
    SpeedShown (Relays.init.after r.ledger.acts) r.state.clients.vent.locals :=
  (commands_settle Clients.freshSockets asksSpeedThree twoTurns (by decide +kernel)
    (by decide +kernel)).2.speedShown (by decide +kernel)

end VentControl.System.Firmware
