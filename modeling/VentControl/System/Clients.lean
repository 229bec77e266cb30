/-
VentControl.System.Clients — the server, the fan task and the clients, on
the two ends of `receive_queue` and `send_queue`.

The system interleaves `server_task` and `ventcontrol_task` in every
possible way. A step of the server is one of: its wait for an IP address,
the initialisation of one socket, the test of `server_run`, the receive
from `send_queue`, or the body of the serving loop for one socket, which
ends with what it puts on `receive_queue`. A step of the fan task is a
receive or the next action it owes. So every step touches the queues at
most once, and a task that waits at a queue is one that steps later.
`dhcp_task` is any writer of `server_run` and giver of the semaphore;
boost events come from outside.

Three things are recorded beside the state of the program and never read
by it:

* connections: `serial` counts the connections a socket has had;
* causes: an `Origin` says on which connection of which socket a command
  was received. It goes with the command through `receive_queue`, with
  the replies to it through `send_queue`, and (`tag`) with the frame in
  the send buffer. A broadcast has none;
* speeds: `lastSpeed` is the last `S` frame `send` accepted on the
  connection that is up.
-/
import VentControl.Lib.Run
import VentControl.Lib.Fifo
import VentControl.Server.Connection
import VentControl.Server.Task
import VentControl.Ventcontrol.Steps

namespace VentControl.System.Clients

open Runs VentControl.Server VentControl.Ventcontrol

/-! ## Messages and their causes -/

/-- The number of a socket in `socket_data`. -/
abbrev PortId : Type := Fin listeningSocketCount

/-- Where a command was received: the socket, and which of its connections
was the last then. -/
structure Origin where
  port : PortId
  serial : Nat
  command : Message
  deriving DecidableEq

/-- An element of `receive_queue`. -/
structure Request where
  message : Message
  origin : Origin

/-- An element of `send_queue`, with the origin of the command it replies
to. -/
structure Reply where
  message : Message
  origin : Option Origin
  deriving DecidableEq

/-! ## One socket -/

/-- A socket with its records. -/
structure Port where
  socket : SocketData
  link : Link
  serial : Nat
  tag : Option Reply
  lastSpeed : Option (List UInt8)

/-- An `S` frame. -/
def IsSpeedFrame (f : List UInt8) : Prop := f.head? = (CString.ascii ['S']).head?

instance (f : List UInt8) : Decidable (IsSpeedFrame f) := by
  unfold IsSpeedFrame
  infer_instance

section Body

variable (p : Port) (r : Reply) (a : Answers)

/-- The number of connections, when the status is read. -/
def Port.serialAfter : Nat := if p.link.New a then p.serial + 1 else p.serial

/-- The message whose frame is in the send buffer after it was filled. -/
def Port.tagAfter : Option Reply :=
  if builtFrame r.message p.socket ≠ [] then some r
  else if p.socket.sendSize = 0 then none
  else p.tag

/-- The frames that `send` accepts in a body. -/
def Port.acceptedFrames : List (List UInt8) :=
  if a.sendRet > 0 then sentFrames (serverBody r.message a p.socket).2.1 else []

/-- The last `S` frame accepted on the connection, after the body. -/
def Port.lastSpeedAfter : Option (List UInt8) :=
  ((p.acceptedFrames r a).filter (IsSpeedFrame ·)).getLast?.or
    (if p.link.New a then none else p.lastSpeed)

/-- The body of the serving loop. -/
def Port.body : Port where
  socket := (serverBody r.message a p.socket).1
  link := p.link.after a.sr (serverBody r.message a p.socket).2.1
  serial := p.serialAfter a
  tag := p.tagAfter r
  lastSpeed := p.lastSpeedAfter r a

/-- The initialisation when an IP address was assigned; the first call is
`socket`. -/
def Port.start (i : PortId) : Port where
  socket := (initSocket i a p.socket).1
  link := Link.down.after a.sr (initSocket i a p.socket).2.tail
  serial := p.serial
  tag := p.tag
  lastSpeed := p.lastSpeed

end Body

/-- A frame is handed to `send`: on which socket, which of its connections
is the last, and the message the frame was built from. -/
structure Handed where
  port : PortId
  serial : Nat
  reply : Option Reply
  deriving DecidableEq

/-- The calls of `send` in a body. -/
def Port.handed (i : PortId) (p : Port) (r : Reply) (a : Answers) : List Handed :=
  (serverBody r.message a p.socket).2.1.filterMap fun
    | .send _ _ => some ⟨i, p.serialAfter a, p.tagAfter r⟩
    | _ => none

/-- What a body puts on `receive_queue`. -/
def Port.requests (i : PortId) (p : Port) (r : Reply) (a : Answers) : List Request :=
  (serverBody r.message a p.socket).2.2.map fun m => ⟨m, ⟨i, p.serialAfter a, m⟩⟩

/-! ## The system -/

/-- Where `server_task` is. -/
inductive ServerAt
  | waiting
  | starting (i : PortId)
  | head
  | taking
  | body (r : Reply) (i : PortId)

/-- The tasks, the queues, and what `dhcp_task` shares with the server.
`current` is the origin of what the fan task is handling. -/
structure State where
  serverRun : Bool
  ipAssignedSem : Nat
  receiveQueue : List Request
  sendQueue : List Reply
  server : ServerAt
  ports : PortId → Port
  vent : Vent
  current : Option Origin

/-- A step. `stack` is what the stack holds where `send_message` is. -/
inductive Label
  | serverRun (run : Bool)
  | ipAssigned
  | server (a : Answers) (stack : Message)
  | vent (boost : Option Bool)

/-- The start of the scheduler, with any memory for the sockets. -/
def State.start (s₀ : PortId → SocketData) : State where
  serverRun := false
  ipAssignedSem := 0
  receiveQueue := []
  sendQueue := []
  server := .waiting
  ports := fun i => ⟨s₀ i, .down, 0, none, none⟩
  vent := .start
  current := none

/-- Where the `for` loops go after socket `i`. -/
def nextPort (i : PortId) (next : PortId → ServerAt) : ServerAt :=
  if h : i.val + 1 < listeningSocketCount then next ⟨i.val + 1, h⟩ else .head

/-- The next step of `server_task`. -/
def State.serverStep (s : State) (a : Answers) (stack : Message) : State × List Handed :=
  match s.server with
  | .waiting =>
    if s.ipAssignedSem > 0 then
      ({ s with ipAssignedSem := s.ipAssignedSem - 1, server := .starting 0 }, [])
    else (s, [])
  | .starting i =>
    ({ s with
        ports := Function.update s.ports i ((s.ports i).start a i)
        server := nextPort i .starting }, [])
  | .head => ({ s with server := if s.serverRun then .taking else .waiting }, [])
  | .taking =>
    match Fifo.receive s.sendQueue with
    | (some r, q) => ({ s with sendQueue := q, server := .body r 0 }, [])
    | (none, _) =>
      ({ s with server := .body ⟨⟨stack.client, stack.value, .noMessage⟩, none⟩ 0 }, [])
  | .body r i =>
    ({ s with
        ports := Function.update s.ports i ((s.ports i).body r a)
        receiveQueue :=
          ((s.ports i).requests i r a).foldl (Fifo.send maxQueueLength) s.receiveQueue
        server := nextPort i (.body r) },
      (s.ports i).handed i r a)

/-- The next step of `ventcontrol_task`. -/
def State.ventStep (s : State) (boost : Option Bool) : State :=
  match s.vent.pending with
  | .xQueueSend m :: rest =>
    { s with
      vent := { s.vent with pending := rest }
      sendQueue := Fifo.send maxQueueLength s.sendQueue ⟨m, s.current⟩ }
  | _ :: rest => { s with vent := { s.vent with pending := rest } }
  | [] =>
    match s.vent.half with
    | none =>
      { s with
        vent := s.vent.receiveMessage ((Fifo.receive s.receiveQueue).1.map Request.message)
        receiveQueue := (Fifo.receive s.receiveQueue).2
        current := (Fifo.receive s.receiveQueue).1.map Request.origin }
    | some _ => { s with vent := s.vent.receiveBoost boost, current := none }

/-- One step. -/
def State.step (s : State) : Label → State × List Handed
  | .serverRun run => ({ s with serverRun := run }, [])
  | .ipAssigned => ({ s with ipAssignedSem := s.ipAssignedSem + 1 }, [])
  | .server a stack => s.serverStep a stack
  | .vent boost => (s.ventStep boost, [])

/-- The system as a machine; its outputs are the frames handed to `send`. -/
def system (s₀ : PortId → SocketData) : Mealy State Label Handed where
  init := .start s₀
  step := State.step

/-- The next step of the server reads bytes only where they stay inside the
buffer. -/
def State.ReadsInside (s : State) (a : Answers) : Prop :=
  match s.server with
  | .starting i => (resetSocket i (s.ports i).socket).ReadsInside a
  | .body _ i => (s.ports i).socket.ReadsInside a
  | _ => True

instance (s : State) (a : Answers) : Decidable (s.ReadsInside a) := by
  unfold State.ReadsInside
  split <;> infer_instance

/-- The condition on a step: what bytes beyond the end of a receive buffer do
to the other fields is not modelled. -/
def ReadsInside (s : State) : Label → Prop
  | .server a _ => s.ReadsInside a
  | _ => True

instance (s : State) : (l : Label) → Decidable (ReadsInside s l)
  | .server a _ => inferInstanceAs (Decidable (s.ReadsInside a))
  | .serverRun _ => inferInstanceAs (Decidable True)
  | .ipAssigned => inferInstanceAs (Decidable True)
  | .vent _ => inferInstanceAs (Decidable True)

/-! ## Sample runs -/

/-- Four sockets in cleared memory. -/
def freshSockets : PortId → SocketData := fun _ => SocketData.fresh

/-- A step of the server in which the chip has nothing to say. -/
def quiet : Label := .server (.status .other 0 0) noMessage

/-- The server is told to run and starts, and its sockets listen. -/
def startServer : List Label :=
  [.serverRun true, .ipAssigned, quiet] ++
    List.replicate 4 (.server (.status .init 0 0) noMessage)

/-- A round of the serving loop, with the answers `a` for socket 0. -/
def round (a : Answers) : List Label :=
  [quiet, quiet, .server a noMessage, quiet, quiet, quiet]

/-! ## The steps, case by case -/

section Steps

variable {s : State} (a : Answers) (stack : Message)

theorem serverStep_waiting (h : s.server = .waiting) :
    s.serverStep a stack = (s, []) ∨
      s.serverStep a stack =
        ({ s with ipAssignedSem := s.ipAssignedSem - 1, server := .starting 0 }, []) := by
  unfold State.serverStep
  rw [h]
  simp only
  split
  · exact Or.inr rfl
  · exact Or.inl rfl

theorem serverStep_starting {i : PortId} (h : s.server = .starting i) :
    s.serverStep a stack =
      ({ s with
          ports := Function.update s.ports i ((s.ports i).start a i)
          server := nextPort i .starting }, []) := by
  unfold State.serverStep
  rw [h]

theorem serverStep_head (h : s.server = .head) :
    s.serverStep a stack = ({ s with server := .taking }, []) ∨
      s.serverStep a stack = ({ s with server := .waiting }, []) := by
  unfold State.serverStep
  rw [h]
  cases s.serverRun with
  | true => exact Or.inl rfl
  | false => exact Or.inr rfl

theorem serverStep_taking_nil (h : s.server = .taking) (hq : s.sendQueue = []) :
    s.serverStep a stack =
      ({ s with server := .body ⟨⟨stack.client, stack.value, .noMessage⟩, none⟩ 0 }, []) := by
  unfold State.serverStep
  rw [h]
  simp [Fifo.receive, hq]

theorem serverStep_taking_cons {r : Reply} {q : List Reply} (h : s.server = .taking)
    (hq : s.sendQueue = r :: q) :
    s.serverStep a stack = ({ s with sendQueue := q, server := .body r 0 }, []) := by
  unfold State.serverStep
  rw [h]
  simp [Fifo.receive, hq]

theorem serverStep_body {r : Reply} {i : PortId} (h : s.server = .body r i) :
    s.serverStep a stack =
      ({ s with
          ports := Function.update s.ports i ((s.ports i).body r a)
          receiveQueue :=
            ((s.ports i).requests i r a).foldl (Fifo.send maxQueueLength) s.receiveQueue
          server := nextPort i (.body r) },
        (s.ports i).handed i r a) := by
  unfold State.serverStep
  rw [h]

/-- A step of the fan task is a send, another action, or one of the two
receives. -/
theorem ventStep_cases (s : State) (boost : Option Bool) :
    (∃ m rest, s.vent.pending = .xQueueSend m :: rest ∧
      s.ventStep boost =
        { s with
          vent := { s.vent with pending := rest }
          sendQueue := Fifo.send maxQueueLength s.sendQueue ⟨m, s.current⟩ }) ∨
    (∃ act rest, s.vent.pending = act :: rest ∧ (∀ m, act ≠ .xQueueSend m) ∧
      s.ventStep boost = { s with vent := { s.vent with pending := rest } }) ∨
    (s.vent.pending = [] ∧ s.vent.half = none ∧
      s.ventStep boost =
        { s with
          vent := s.vent.receiveMessage (s.receiveQueue.head?.map Request.message)
          receiveQueue := s.receiveQueue.tail
          current := s.receiveQueue.head?.map Request.origin }) ∨
    (∃ m, s.vent.pending = [] ∧ s.vent.half = some m ∧
      s.ventStep boost = { s with vent := s.vent.receiveBoost boost, current := none }) := by
  cases hp : s.vent.pending with
  | cons act rest =>
    cases act with
    | xQueueSend m => exact Or.inl ⟨m, rest, rfl, by simp [State.ventStep, hp]⟩
    | gpioPut pin on =>
      exact Or.inr (Or.inl ⟨_, rest, rfl, by simp, by simp [State.ventStep, hp]⟩)
    | vTaskDelay n =>
      exact Or.inr (Or.inl ⟨_, rest, rfl, by simp, by simp [State.ventStep, hp]⟩)
  | nil =>
    cases hh : s.vent.half with
    | none =>
      exact Or.inr (Or.inr (Or.inl ⟨rfl, rfl, by simp [State.ventStep, hp, hh, Fifo.receive]⟩))
    | some m => exact Or.inr (Or.inr (Or.inr ⟨m, rfl, rfl, by simp [State.ventStep, hp, hh]⟩))

@[simp] theorem serverStep_vent (s : State) (a : Answers) (stack : Message) :
    (s.serverStep a stack).1.vent = s.vent := by
  unfold State.serverStep
  split <;> try rfl
  all_goals split <;> rfl

@[simp] theorem ventStep_ports (s : State) (boost : Option Bool) :
    (s.ventStep boost).ports = s.ports := by
  obtain ⟨m, rest, -, h⟩ | ⟨act, rest, -, -, h⟩ | ⟨-, -, h⟩ | ⟨m, -, -, h⟩ :=
    ventStep_cases s boost <;> rw [h]

/-- A step leaves a socket alone, or initialises it, or is the body for
it. -/
theorem step_port_cases (s : State) (l : Label) (i : PortId) :
    (s.step l).1.ports i = s.ports i ∨
    (∃ a, (s.step l).1.ports i = (s.ports i).start a i) ∨
    (∃ r a, (s.step l).1.ports i = (s.ports i).body r a) := by
  cases l with
  | serverRun run => exact Or.inl rfl
  | ipAssigned => exact Or.inl rfl
  | vent boost => exact Or.inl (by simp [State.step])
  | server a stack =>
    simp only [State.step]
    cases hat : s.server with
    | waiting => rcases serverStep_waiting a stack hat with h | h <;> exact Or.inl (by rw [h])
    | head => rcases serverStep_head a stack hat with h | h <;> exact Or.inl (by rw [h])
    | taking =>
      cases hq : s.sendQueue with
      | nil => exact Or.inl (by rw [serverStep_taking_nil a stack hat hq])
      | cons r q => exact Or.inl (by rw [serverStep_taking_cons a stack hat hq])
    | starting j =>
      rw [serverStep_starting a stack hat]
      by_cases hij : i = j
      · subst hij
        exact Or.inr (Or.inl ⟨a, by simp⟩)
      · exact Or.inl (by simp [hij])
    | body r j =>
      rw [serverStep_body a stack hat]
      by_cases hij : i = j
      · subst hij
        exact Or.inr (Or.inr ⟨r, a, by simp⟩)
      · exact Or.inl (by simp [hij])

end Steps

end VentControl.System.Clients
