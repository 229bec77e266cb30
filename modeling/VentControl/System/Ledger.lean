/-
VentControl.System.Ledger — the firmware explained by a fan controller
that runs alone.

Between a client and the relays there are three queues and four tasks that
run in any order. The fan task on its own is the machine of
`Ventcontrol.Task`: turn after turn, a command and a boost event at a
time. Here every run of the firmware is matched with a run of that
machine.

A `Ledger` is written beside the firmware and never read by it. It says
what each task has done so far at each queue: what was offered, what the
queue had room for, what was taken, and the actions the fan task has
carried out. `Explained` ties the ledger to the state, queue by queue:

* `receive_queue`: the commands handled, followed by those in the queue,
  are the commands it accepted, a subsequence of those parsed;
* `input_queue`: the same for the boost events of `input_task`;
* the relays: the actions carried out, followed by those still owed, are
  the actions of the controller on the turns completed;
* `send_queue`: what the server took, followed by what is in the queue, is
  what it accepted, a subsequence of what the fan task sent.

`fan_controller_explains` reads off what an observer sees: a controller
that handles the accepted commands one at a time, in order.
-/
import VentControl.System.Firmware

namespace VentControl.System.Firmware

open Runs VentControl.Server VentControl.Ventcontrol
open VentControl.System.Clients (PortId Reply Request ServerAt)

/-! ## The ledger -/

/-- The frames handed to `send`. -/
def wireFrames (calls : List Call) : List (List UInt8) :=
  calls.filterMap fun
    | .send _ bytes => some bytes
    | _ => none

/-- Those that are no heartbeats are the message frames. -/
theorem filter_wireFrames (calls : List Call) :
    (wireFrames calls).filter (· ≠ heartbeatFrame) = sentFrames calls := by
  induction calls with
  | nil => rfl
  | cons c calls ih =>
    cases c with
    | send sn bytes =>
      by_cases hb : bytes = heartbeatFrame <;> simpa [wireFrames, sentFrames, hb] using ih
    | _ => simpa [wireFrames, sentFrames] using ih

/-- The frames that `send` accepts in a body. -/
def onWire (p : Clients.Port) (r : Reply) (a : Answers) : List (List UInt8) :=
  if a.sendRet > 0 then wireFrames (serverBody r.message a p.socket).2.1 else []

/-- What the tasks have done so far, oldest first. `wire` is the frames that
`send` took, for each socket. -/
structure Ledger where
  parsed : List Request
  accepted : List Request
  samples : List Input.Samples
  offered : List Bool
  boosts : List Bool
  turns : List Turn
  acts : List Action
  reported : List Reply
  taken : List Reply
  wire : PortId → List (List UInt8)

/-- Nothing was done. -/
def Ledger.empty : Ledger := ⟨[], [], [], [], [], [], [], [], [], fun _ => []⟩

/-- The message frames that `send` took. -/
def Ledger.sent (g : Ledger) (i : PortId) : List (List UInt8) :=
  (g.wire i).filter (· ≠ heartbeatFrame)

/-- What a step of `server_task` adds. -/
def Ledger.server (g : Ledger) (s : Clients.State) (a : Answers) : Ledger :=
  match s.server with
  | .taking => { g with taken := g.taken ++ s.sendQueue.head?.toList }
  | .body r i =>
    { g with
      parsed := g.parsed ++ (s.ports i).requests i r a
      accepted := g.accepted ++
        Fifo.kept maxQueueLength s.receiveQueue ((s.ports i).requests i r a)
      wire := Function.update g.wire i (g.wire i ++ onWire (s.ports i) r a) }
  | _ => g

/-- What a body adds to the message frames. -/
theorem Ledger.sent_body (g : Ledger) {s : Clients.State} {r : Reply} {i : PortId}
    (hat : s.server = .body r i) (a : Answers) :
    (g.server s a).sent =
      Function.update g.sent i (g.sent i ++ (s.ports i).acceptedFrames r a) := by
  have hfilter : (onWire (s.ports i) r a).filter (· ≠ heartbeatFrame) =
      (s.ports i).acceptedFrames r a := by
    unfold onWire Clients.Port.acceptedFrames
    split
    · exact filter_wireFrames _
    · rfl
  funext j
  rw [Ledger.sent, Ledger.server, hat]
  by_cases hj : j = i
  · subst hj
    simp only [Function.update_self, List.filter_append, hfilter]
    rfl
  · simp only [Function.update_of_ne hj]
    rfl

/-- What a step of `ventcontrol_task` adds. -/
def Ledger.vent (g : Ledger) (s : State) : Ledger :=
  match s.clients.vent.pending with
  | .xQueueSend m :: _ =>
    { g with
      acts := g.acts ++ [.xQueueSend m]
      reported := g.reported ++
        Fifo.kept maxQueueLength s.clients.sendQueue [⟨m, s.clients.current⟩] }
  | act :: _ => { g with acts := g.acts ++ [act] }
  | [] =>
    match s.clients.vent.half with
    | none => g
    | some m => { g with turns := g.turns ++ [⟨m, s.inputQueue.head?⟩] }

/-- What a step adds. -/
def Ledger.step (g : Ledger) (s : State) : Label → Ledger
  | .dhcp _ => g
  | .server a _ => g.server s.clients a
  | .vent => g.vent s
  | .sample samples =>
    if s.inputPending = [] then { g with samples := g.samples ++ [samples] } else g
  | .inputSend =>
    { g with
      offered := g.offered ++ s.inputPending.take 1
      boosts := g.boosts ++ Fifo.kept maxQueueLength s.inputQueue (s.inputPending.take 1) }

/-- The firmware with its ledger. -/
structure Recorded where
  state : State
  ledger : Ledger

/-- One step of both. -/
def Recorded.step (r : Recorded) (l : Label) : Recorded × List Call :=
  (⟨(r.state.step l).1, r.ledger.step r.state l⟩, (r.state.step l).2)

/-- The firmware with its ledger, as a machine. -/
def recorded (s₀ : PortId → SocketData) : Mealy Recorded Label Call where
  init := ⟨.start s₀, .empty⟩
  step := Recorded.step

/-- **The ledger only watches**: the firmware makes the same run. -/
theorem recorded_run (s₀ : PortId → SocketData) (ls : List Label) :
    ((recorded s₀).run ls).state = (system s₀).run ls ∧
      (recorded s₀).trace ls = (system s₀).trace ls := by
  induction ls using List.reverseRecOn with
  | nil => exact ⟨rfl, rfl⟩
  | append_singleton ls l ih =>
    rw [Mealy.run_concat, Mealy.run_concat, Mealy.trace_concat, Mealy.trace_concat, ih.2, ← ih.1]
    exact ⟨rfl, rfl⟩

/-- The firmware, with what `view` sees of each step as its outputs. -/
def observed {α : Type} (view : State → Label → List α) (s₀ : PortId → SocketData) :
    Mealy State Label α where
  init := .start s₀
  step s l := ((s.step l).1, view s l)

theorem observed_run {α : Type} (view : State → Label → List α) (s₀ : PortId → SocketData)
    (ls : List Label) : (observed view s₀).run ls = (system s₀).run ls := by
  induction ls using List.reverseRecOn with
  | nil => rfl
  | append_singleton ls l ih =>
    rw [Mealy.run_concat, Mealy.run_concat, ih]
    rfl

/-- **Only the server** changes the sockets, or where it is, or writes in its
part of the ledger. -/
theorem step_of_not_server (s : State) (g : Ledger) {l : Label}
    (hl : ∀ a stack, l ≠ .server a stack) :
    ((s.step l).1.clients.ports = s.clients.ports ∧
      (s.step l).1.clients.server = s.clients.server) ∧
    (g.step s l).parsed = g.parsed ∧ (g.step s l).taken = g.taken ∧
      (g.step s l).wire = g.wire := by
  cases l with
  | server a stack => exact absurd rfl (hl a stack)
  | dhcp i => exact ⟨⟨rfl, rfl⟩, rfl, rfl, rfl⟩
  | sample samples =>
    simp only [State.step, State.sample, Ledger.step]
    constructor <;> split <;> exact ⟨rfl, by simp⟩
  | inputSend =>
    simp only [State.step, State.inputSend, Ledger.step]
    exact ⟨by split <;> exact ⟨rfl, rfl⟩, trivial, trivial, trivial⟩
  | vent =>
    constructor
    · have hvent : ∀ boost, (s.clients.ventStep boost).ports = s.clients.ports ∧
          (s.clients.ventStep boost).server = s.clients.server := by
        intro boost
        obtain ⟨m, rest, -, h⟩ | ⟨act, rest, -, -, h⟩ | ⟨-, -, h⟩ | ⟨m, -, -, h⟩ :=
          Clients.ventStep_cases s.clients boost <;> rw [h] <;> exact ⟨rfl, rfl⟩
      simp only [State.step, State.ventStep]
      split <;> exact hvent _
    · simp only [Ledger.step, Ledger.vent]
      split
      · exact ⟨rfl, rfl, rfl⟩
      · exact ⟨rfl, rfl, rfl⟩
      · split <;> exact ⟨rfl, rfl, rfl⟩

/-! ## What a step of the server does to both -/

/-- **All a step of the server can do** at the queues: nothing; it takes from
`send_queue`; or it puts what it parsed on `receive_queue`. -/
theorem server_cases (s : Clients.State) (g : Ledger) (a : Answers) (stack : Message) :
    ((∀ r i, s.server ≠ .body r i) ∧ s.server ≠ .taking ∧
      (s.serverStep a stack).1.receiveQueue = s.receiveQueue ∧
      (s.serverStep a stack).1.sendQueue = s.sendQueue ∧ g.server s a = g) ∨
    (s.server = .taking ∧
      (s.serverStep a stack).1.receiveQueue = s.receiveQueue ∧
      (s.serverStep a stack).1.sendQueue = s.sendQueue.tail ∧
      g.server s a = { g with taken := g.taken ++ s.sendQueue.head?.toList }) ∨
    ∃ r i, s.server = .body r i ∧
      (s.serverStep a stack).1.receiveQueue =
        ((s.ports i).requests i r a).foldl (Fifo.send maxQueueLength) s.receiveQueue ∧
      (s.serverStep a stack).1.sendQueue = s.sendQueue ∧
      g.server s a =
        { g with
          parsed := g.parsed ++ (s.ports i).requests i r a
          accepted := g.accepted ++
            Fifo.kept maxQueueLength s.receiveQueue ((s.ports i).requests i r a)
          wire := Function.update g.wire i (g.wire i ++ onWire (s.ports i) r a) } := by
  rw [Ledger.server]
  cases hat : s.server with
  | waiting =>
    left
    rcases Clients.serverStep_waiting a stack hat with hs | hs <;> rw [hs] <;>
      exact ⟨fun _ _ => ServerAt.noConfusion, ServerAt.noConfusion, rfl, rfl, rfl⟩
  | starting i =>
    left
    rw [Clients.serverStep_starting a stack hat]
    exact ⟨fun _ _ => ServerAt.noConfusion, ServerAt.noConfusion, rfl, rfl, rfl⟩
  | head =>
    left
    rcases Clients.serverStep_head a stack hat with hs | hs <;> rw [hs] <;>
      exact ⟨fun _ _ => ServerAt.noConfusion, ServerAt.noConfusion, rfl, rfl, rfl⟩
  | taking =>
    right; left
    cases hq : s.sendQueue with
    | nil =>
      rw [Clients.serverStep_taking_nil a stack hat hq]
      exact ⟨rfl, rfl, hq, rfl⟩
    | cons r q =>
      rw [Clients.serverStep_taking_cons a stack hat hq]
      exact ⟨rfl, rfl, rfl, rfl⟩
  | body r i =>
    right; right
    rw [Clients.serverStep_body a stack hat]
    exact ⟨r, i, rfl, rfl, rfl, rfl⟩

/-! ## What a step of the fan task does to both -/

section VentSteps

variable {s : State} (g : Ledger)

/-- A message goes to `send_queue`, or is lost when that is full. -/
theorem vent_xQueueSend {m : Message} {rest : List Action}
    (hp : s.clients.vent.pending = .xQueueSend m :: rest) :
    s.ventStep =
        { s with
          clients := { s.clients with
            vent := { s.clients.vent with pending := rest }
            sendQueue := Fifo.send maxQueueLength s.clients.sendQueue ⟨m, s.clients.current⟩ } } ∧
      g.vent s =
        { g with
          acts := g.acts ++ [.xQueueSend m]
          reported := g.reported ++
            Fifo.kept maxQueueLength s.clients.sendQueue [⟨m, s.clients.current⟩] } := by
  constructor
  · rw [State.ventStep, if_neg (by simp [hp]), Clients.State.ventStep, hp]
  · rw [Ledger.vent, hp]

/-- An output is written, or the task waits. -/
theorem vent_action {act : Action} {rest : List Action}
    (hp : s.clients.vent.pending = act :: rest) (hact : ∀ m, act ≠ .xQueueSend m) :
    s.ventStep =
        { s with
          clients := { s.clients with vent := { s.clients.vent with pending := rest } } } ∧
      g.vent s = { g with acts := g.acts ++ [act] } := by
  have hstep : s.ventStep = { s with clients := s.clients.ventStep none } := by
    rw [State.ventStep, if_neg (by simp [hp])]
  rw [hstep, Clients.State.ventStep, Ledger.vent, hp]
  cases act with
  | xQueueSend m => exact absurd rfl (hact m)
  | gpioPut pin on => exact ⟨rfl, rfl⟩
  | vTaskDelay n => exact ⟨rfl, rfl⟩

/-- Either way only `send_queue` can change, and what is reported. -/
theorem vent_pending {act : Action} {rest : List Action}
    (hp : s.clients.vent.pending = act :: rest) :
    ∃ q rs,
      s.ventStep =
        { s with
          clients := { s.clients with
            vent := { s.clients.vent with pending := rest }
            sendQueue := q } } ∧
      g.vent s = { g with acts := g.acts ++ [act], reported := rs } := by
  by_cases hact : ∃ m, act = .xQueueSend m
  · obtain ⟨m, rfl⟩ := hact
    obtain ⟨hs, hg⟩ := vent_xQueueSend g hp
    exact ⟨_, _, hs, hg⟩
  · obtain ⟨hs, hg⟩ := vent_action g hp fun m he => hact ⟨m, he⟩
    exact ⟨s.clients.sendQueue, g.reported, hs, hg⟩

/-- The first receive of a turn. -/
theorem vent_receiveMessage (hp : s.clients.vent.pending = []) (hh : s.clients.vent.half = none) :
    s.ventStep =
        { s with
          clients := { s.clients with
            vent := s.clients.vent.receiveMessage
              (s.clients.receiveQueue.head?.map Request.message)
            receiveQueue := s.clients.receiveQueue.tail
            current := s.clients.receiveQueue.head?.map Request.origin } } ∧
      g.vent s = g := by
  constructor
  · rw [State.ventStep, if_neg (by simp [hh]), Clients.State.ventStep, hp, hh]
    rfl
  · rw [Ledger.vent, hp, hh]

/-- The second receive of a turn. -/
theorem vent_receiveBoost {m : Option Message} (hp : s.clients.vent.pending = [])
    (hh : s.clients.vent.half = some m) :
    s.ventStep =
        { s with
          clients := { s.clients with
            vent := s.clients.vent.receiveBoost s.inputQueue.head?
            current := none }
          inputQueue := s.inputQueue.tail } ∧
      g.vent s = { g with turns := g.turns ++ [⟨m, s.inputQueue.head?⟩] } := by
  constructor
  · rw [State.ventStep, if_pos ⟨hp, by simp [hh]⟩, Clients.State.ventStep, hp, hh]
    rfl
  · rw [Ledger.vent, hp, hh]

end VentSteps

/-! ## The invariant -/

/-- What the running turn has received in its first half. -/
def firstMessage (v : Vent) : List Message := v.half.join.toList

/-- The actions of the first half of the running turn. -/
def firstActions (v : Vent) (turns : List Turn) : List Action :=
  match v.half with
  | none => []
  | some m => (ventcontrolMessage (task.run turns) m).2

/-- `receive_queue`: every command it accepted is handled once, in order. -/
structure CommandsOk (s : State) (g : Ledger) : Prop where
  handled : g.turns.filterMap Turn.message ++ firstMessage s.clients.vent ++
    s.clients.receiveQueue.map Request.message = g.accepted.map Request.message
  lost : g.accepted.Sublist g.parsed

/-- `input_queue`: every boost event it accepted is taken once, in order. -/
structure BoostsOk (s : State) (g : Ledger) : Prop where
  input : s.input = Input.task.run g.samples
  taken : g.turns.filterMap Turn.boost ++ s.inputQueue = g.boosts
  offered : g.offered ++ s.inputPending = Input.task.trace g.samples
  lost : g.boosts.Sublist g.offered

/-- The outputs: the task does what the controller does on the same
turns. -/
structure OutputsOk (s : State) (g : Ledger) : Prop where
  tracks : s.clients.vent.Tracks g.turns
  acts : g.acts ++ s.clients.vent.pending = actions g.turns ++ firstActions s.clients.vent g.turns

/-- `send_queue`: every message it accepted is taken once, in order. -/
structure ReportsOk (s : State) (g : Ledger) : Prop where
  taken : g.taken ++ s.clients.sendQueue = g.reported
  lost : (g.reported.map Reply.message).Sublist (sends g.acts)

/-- The ledger explains the state. -/
structure Explained (s : State) (g : Ledger) : Prop where
  commands : CommandsOk s g
  boosts : BoostsOk s g
  outputs : OutputsOk s g
  reports : ReportsOk s g

theorem explained_start (s₀ : PortId → SocketData) : Explained (.start s₀) .empty where
  commands := ⟨rfl, List.Sublist.refl _⟩
  boosts := ⟨rfl, rfl, rfl, List.Sublist.refl _⟩
  outputs := ⟨Vent.tracks_start, rfl⟩
  reports := ⟨rfl, List.Sublist.refl _⟩

/-! ## Step by step -/

theorem sends_append (as bs : List Action) : sends (as ++ bs) = sends as ++ sends bs :=
  List.filterMap_append

section Steps

variable {s : State} {g : Ledger} (h : Explained s g)
include h

/-- What the fan task sends is accepted, or lost. -/
theorem Explained.xQueueSend {m : Message} {rest : List Action}
    (hp : s.clients.vent.pending = .xQueueSend m :: rest) :
    Explained s.ventStep (g.vent s) := by
  obtain ⟨hs, hg⟩ := vent_xQueueSend g hp
  rw [hs, hg]
  refine ⟨{ h.commands with }, { h.boosts with }, ⟨h.outputs.tracks.pending rest, ?_⟩, ⟨?_, ?_⟩⟩
  · have hacts := h.outputs.acts
    rw [hp] at hacts
    simpa [firstActions] using hacts
  · show g.taken ++ Fifo.send maxQueueLength s.clients.sendQueue ⟨m, s.clients.current⟩ = _
    rw [Fifo.send_eq, ← List.append_assoc, h.reports.taken]
  · have hkept : ((Fifo.kept maxQueueLength s.clients.sendQueue
        [⟨m, s.clients.current⟩]).map Reply.message).Sublist [m] :=
      (Fifo.kept_sublist _ _ _).map Reply.message
    simp only [List.map_append, sends_append]
    exact h.reports.lost.append hkept

/-- Another action changes no queue. -/
theorem Explained.action {act : Action} {rest : List Action}
    (hp : s.clients.vent.pending = act :: rest) (hact : ∀ m, act ≠ .xQueueSend m) :
    Explained s.ventStep (g.vent s) := by
  obtain ⟨hs, hg⟩ := vent_action g hp hact
  rw [hs, hg]
  refine ⟨{ h.commands with }, { h.boosts with }, ⟨h.outputs.tracks.pending rest, ?_⟩,
    ⟨h.reports.taken, ?_⟩⟩
  · have hacts := h.outputs.acts
    rw [hp] at hacts
    simpa [firstActions] using hacts
  · rw [sends_append]
    exact h.reports.lost.trans (List.sublist_append_left _ _)

/-- The first receive begins a turn. -/
theorem Explained.receiveMessage (hp : s.clients.vent.pending = [])
    (hh : s.clients.vent.half = none) : Explained s.ventStep (g.vent s) := by
  obtain ⟨hs, hg⟩ := vent_receiveMessage g hp hh
  rw [hs, hg]
  refine ⟨⟨?_, h.commands.lost⟩, { h.boosts with },
    ⟨h.outputs.tracks.receiveMessage hh _, ?_⟩, { h.reports with }⟩
  · -- the command moves from the queue to the task
    have hhandled := h.commands.handled
    simp only [firstMessage, hh] at hhandled
    rw [← hhandled]
    cases s.clients.receiveQueue <;> simp [firstMessage, Vent.receiveMessage]
  · have hlocals : s.clients.vent.locals = task.run g.turns := h.outputs.tracks.locals_eq ⟨hh, hp⟩
    have hacts := h.outputs.acts
    simp only [hp, firstActions, hh, List.append_nil] at hacts
    show g.acts ++ _ = _
    rw [hacts, Vent.receiveMessage, hlocals, firstActions]

/-- The second receive completes it. -/
theorem Explained.receiveBoost {m : Option Message} (hp : s.clients.vent.pending = [])
    (hh : s.clients.vent.half = some m) : Explained s.ventStep (g.vent s) := by
  obtain ⟨hs, hg⟩ := vent_receiveBoost g hp hh
  rw [hs, hg]
  refine ⟨⟨?_, h.commands.lost⟩, ⟨h.boosts.input, ?_, h.boosts.offered, h.boosts.lost⟩,
    ⟨h.outputs.tracks.receiveBoost hh _, ?_⟩, { h.reports with }⟩
  · have hhandled := h.commands.handled
    simp only [firstMessage, hh] at hhandled
    rw [← hhandled]
    cases m <;> simp [firstMessage, Vent.receiveBoost]
  · rw [← h.boosts.taken]
    cases s.inputQueue <;> simp
  · have hlocals : s.clients.vent.locals = (ventcontrolMessage (task.run g.turns) m).1 := by
      simpa [Vent.Tracks, hh] using h.outputs.tracks
    have hacts := h.outputs.acts
    simp only [hp, firstActions, hh, List.append_nil] at hacts
    show g.acts ++ _ = _
    rw [hacts, actions_concat, ventcontrolTurn_snd, Vent.receiveBoost, hlocals, List.append_assoc]
    simp [firstActions]

/-- **A step of the fan task.** -/
theorem Explained.ventStep : Explained s.ventStep (g.vent s) := by
  cases hp : s.clients.vent.pending with
  | nil =>
    cases hh : s.clients.vent.half with
    | none => exact h.receiveMessage hp hh
    | some m => exact h.receiveBoost hp hh
  | cons act rest =>
    by_cases hact : ∃ m, act = .xQueueSend m
    · obtain ⟨m, rfl⟩ := hact
      exact h.xQueueSend hp
    · exact h.action hp fun m he => hact ⟨m, he⟩

/-- **A step of the server** parses commands, or takes a message. -/
theorem Explained.serverStep (a : Answers) (stack : Message) :
    Explained { s with clients := (s.clients.serverStep a stack).1 } (g.server s.clients a) := by
  have hvent := Clients.serverStep_vent s.clients a stack
  have hcases := server_cases s.clients g a stack
  generalize (s.clients.serverStep a stack).1 = c at hvent hcases ⊢
  have houtputs : OutputsOk { s with clients := c } g := by
    constructor
    · simpa only [hvent] using h.outputs.tracks
    · simpa only [hvent] using h.outputs.acts
  rcases hcases with ⟨-, -, hreceive, hsend, hg⟩ | ⟨-, hreceive, hsend, hg⟩ |
      ⟨r, i, -, hreceive, hsend, hg⟩ <;> rw [hg]
  · exact {
      commands := ⟨by simpa only [hvent, hreceive] using h.commands.handled, h.commands.lost⟩
      boosts := { h.boosts with }
      outputs := houtputs
      reports := ⟨by simpa only [hsend] using h.reports.taken, h.reports.lost⟩ }
  · exact {
      commands := ⟨by simpa only [hvent, hreceive] using h.commands.handled, h.commands.lost⟩
      boosts := { h.boosts with }
      outputs := { houtputs with }
      reports := by
        -- the message moves from the queue to the server
        refine ⟨?_, h.reports.lost⟩
        rw [← h.reports.taken]
        cases hq : s.clients.sendQueue <;> simp [hsend, hq] }
  · exact {
      commands := by
        refine ⟨?_, h.commands.lost.append (Fifo.kept_sublist _ _ _)⟩
        simp only [hvent, hreceive, Fifo.foldl_send, List.map_append, ← h.commands.handled,
          List.append_assoc]
      boosts := { h.boosts with }
      outputs := { houtputs with }
      reports := ⟨by simpa only [hsend] using h.reports.taken, h.reports.lost⟩ }

/-- A turn of the sensor task up to its send. -/
theorem Explained.sample (samples : Input.Samples) :
    Explained (s.sample samples) (g.step s (.sample samples)) := by
  have hoffered := h.boosts.offered
  cases hp : s.inputPending with
  | nil =>
    rw [hp, List.append_nil] at hoffered
    simp only [State.sample, Ledger.step, hp, if_true]
    refine ⟨{ h.commands with }, ⟨?_, h.boosts.taken, ?_, h.boosts.lost⟩,
      { h.outputs with }, { h.reports with }⟩
    · rw [Mealy.run_concat, h.boosts.input]
      rfl
    · rw [Mealy.trace_concat, hoffered, h.boosts.input]
      rfl
  | cons b rest =>
    simp only [State.sample, Ledger.step, hp, reduceCtorEq, if_false]
    exact h

/-- The send of the sensor task. -/
theorem Explained.inputSend : Explained s.inputSend (g.step s .inputSend) := by
  have hoffered := h.boosts.offered
  cases hp : s.inputPending with
  | nil => simpa [State.inputSend, Ledger.step, hp, Fifo.kept] using h
  | cons b rest =>
    rw [hp] at hoffered
    simp only [State.inputSend, Ledger.step, hp]
    refine ⟨{ h.commands with }, ⟨h.boosts.input, ?_, by simpa using hoffered, ?_⟩,
      { h.outputs with }, { h.reports with }⟩
    · show _ ++ Fifo.send maxQueueLength s.inputQueue b = _
      rw [Fifo.send_eq, ← List.append_assoc, h.boosts.taken]
      rfl
    · exact h.boosts.lost.append (Fifo.kept_sublist _ _ _)

/-- **Step lemma**: whichever task is next, the ledger explains it. -/
theorem Explained.step (l : Label) : Explained (s.step l).1 (g.step s l) := by
  cases l with
  | dhcp i =>
    exact ⟨{ h.commands with }, { h.boosts with }, { h.outputs with }, { h.reports with }⟩
  | server a stack => exact h.serverStep a stack
  | vent => exact h.ventStep
  | sample samples => exact h.sample samples
  | inputSend => exact h.inputSend

end Steps

/-! ## Runs -/

/-- The ledger explains every run. -/
theorem explained_run (s₀ : PortId → SocketData) (ls : List Label) :
    Explained ((recorded s₀).run ls).state ((recorded s₀).run ls).ledger :=
  (recorded s₀).run_inv (fun _ _ => True) (I := fun r => Explained r.state r.ledger)
    (explained_start s₀) (fun _ l h _ => h.step l) ls fun _ _ _ _ => trivial

/-- The turns of the controller: those completed and the running one, with
no boost event so far. -/
def Recorded.turns (r : Recorded) : List Turn :=
  r.ledger.turns ++ (r.state.clients.vent.half.map fun m => ⟨m, none⟩).toList

/-- What was carried out and what is still owed is a beginning of what the
controller does. -/
theorem acts_turns {r : Recorded} (h : Explained r.state r.ledger) :
    r.ledger.acts ++ r.state.clients.vent.pending <+: actions r.turns := by
  rw [h.outputs.acts]
  cases hh : r.state.clients.vent.half with
  | none => simp [Recorded.turns, firstActions, hh]
  | some m => simp [Recorded.turns, firstActions, hh, actions_concat, ventcontrolTurn_snd]

/-- The commands of the controller, and those still in the queue. -/
theorem messages_turns {r : Recorded} (h : Explained r.state r.ledger) :
    r.turns.filterMap Turn.message ++ r.state.clients.receiveQueue.map Request.message =
      r.ledger.accepted.map Request.message := by
  rw [← h.commands.handled, Recorded.turns]
  cases hh : r.state.clients.vent.half with
  | none => simp [firstMessage, hh]
  | some m => cases m <;> simp [firstMessage, hh]

/-- Its boost events, and those still in the queue. -/
theorem boosts_turns {r : Recorded} (h : Explained r.state r.ledger) :
    r.turns.filterMap Turn.boost ++ r.state.inputQueue = r.ledger.boosts := by
  rw [← h.boosts.taken, Recorded.turns]
  cases r.state.clients.vent.half <;> simp

/-- **The firmware is a fan controller that handles one command at a
time.** In every run, for any bytes received and any samples: the actions
carried out are a beginning of those of `ventcontrol_task` alone on some
turns; the commands of these turns and those still in `receive_queue` are
the ones the queue accepted, in order, all of them parsed; their boost
events and those still in `input_queue` are the ones that queue accepted,
all emitted by `input_task` on its samples; and what the server took from
`send_queue` and what is still in it was sent by these actions, in
order. -/
theorem fan_controller_explains (s₀ : PortId → SocketData) (ls : List Label) :
    let s := ((recorded s₀).run ls).state
    let g := ((recorded s₀).run ls).ledger
    ∃ turns : List Turn,
      g.acts <+: actions turns ∧
      turns.filterMap Turn.message ++ s.clients.receiveQueue.map Request.message =
        g.accepted.map Request.message ∧
      g.accepted.Sublist g.parsed ∧
      turns.filterMap Turn.boost ++ s.inputQueue = g.boosts ∧
      g.boosts.Sublist (Input.task.trace g.samples) ∧
      g.taken ++ s.clients.sendQueue = g.reported ∧
      (g.reported.map Reply.message).Sublist (sends g.acts) := by
  intro s g
  have h : Explained s g := explained_run s₀ ls
  refine ⟨((recorded s₀).run ls).turns, (List.prefix_append _ _).trans (acts_turns h),
    messages_turns h, h.commands.lost, boosts_turns h, ?_, h.reports.taken, h.reports.lost⟩
  rw [← h.boosts.offered]
  exact h.boosts.lost.trans (List.sublist_append_left _ _)

end VentControl.System.Firmware
