/-
VentControl.System.Firmware — all four tasks of `main`, interleaved in
every possible way.

`dhcp_task` is the one of `Dhcp.Task`: it writes `server_run` and gives
the semaphore that the server takes. The server and the fan task are those
of `System.Clients`, with the client queues between them, and `input_task`
feeds `input_queue`, from which the fan task takes its boost events. A
step is the next step of one task; the outputs are the calls the server
makes.

The server and the fan task do nothing here that they could not do in
`System.Clients`, where `server_run`, the semaphore and the boost events
are anybody's: so what holds in every run there holds here
(`clients_run`). And the server makes the steps of `Server.Task`
(`serverStep_taskState`).
-/
import VentControl.Dhcp.Task
import VentControl.Input.Task
import VentControl.Server.Task
import VentControl.System.Clients

namespace VentControl.System.Firmware

open Runs VentControl.Server VentControl.Ventcontrol
open VentControl.System.Clients (PortId Reply Request ServerAt)

/-! ## The system -/

/-- The tasks and the queues. `inputPending` is what the running turn of
`input_task` has still to send. -/
structure State where
  dhcp : Dhcp.Locals
  clients : Clients.State
  input : Input.Locals
  inputPending : List Bool
  inputQueue : List Bool

/-- A step of one of the tasks. -/
inductive Label
  | dhcp (i : Dhcp.Input)
  | server (a : Answers) (stack : Message)
  | vent
  | sample (samples : Input.Samples)
  | inputSend

/-- The start of the scheduler, with any memory for the sockets. -/
def State.start (s₀ : PortId → SocketData) : State where
  dhcp := .init
  clients := .start s₀
  input := .start
  inputPending := []
  inputQueue := []

/-- The fields of `server_data_t` that `dhcp_task` writes. -/
def State.serverData (s : State) : Dhcp.ServerData :=
  ⟨s.clients.serverRun, s.clients.ipAssignedSem⟩

/-- The next step of `dhcp_task`. -/
def State.dhcpStep (s : State) (i : Dhcp.Input) : State :=
  let (l, d, _) := Dhcp.dhcpStep s.dhcp s.serverData i
  { s with
    dhcp := l
    clients := { s.clients with serverRun := d.serverRun, ipAssignedSem := d.ipAssignedSem } }

/-- The next step of `ventcontrol_task`. Its second receive is from
`input_queue`. -/
def State.ventStep (s : State) : State :=
  if s.clients.vent.pending = [] ∧ s.clients.vent.half ≠ none then
    { s with
      clients := s.clients.ventStep (Fifo.receive s.inputQueue).1
      inputQueue := (Fifo.receive s.inputQueue).2 }
  else { s with clients := s.clients.ventStep none }

/-- The next step of `input_task`: a turn of its loop, up to the send. -/
def State.sample (s : State) (samples : Input.Samples) : State :=
  match s.inputPending with
  | [] =>
    { s with
      input := (Input.inputTurn s.input samples).1
      inputPending := (Input.inputTurn s.input samples).2 }
  | _ :: _ => s

/-- The next step of `input_task`: the send. -/
def State.inputSend (s : State) : State :=
  match s.inputPending with
  | [] => s
  | b :: rest =>
    { s with inputPending := rest, inputQueue := Fifo.send maxQueueLength s.inputQueue b }

/-- The calls of the next step of the server. -/
def serverCalls (s : Clients.State) (a : Answers) : List Call :=
  match s.server with
  | .starting i => (initSocket i a (s.ports i).socket).2
  | .body r i => (serverBody r.message a (s.ports i).socket).2.1
  | _ => []

/-- One step. -/
def State.step (s : State) : Label → State × List Call
  | .dhcp i => (s.dhcpStep i, [])
  | .server a stack =>
    ({ s with clients := (s.clients.serverStep a stack).1 }, serverCalls s.clients a)
  | .vent => (s.ventStep, [])
  | .sample samples => (s.sample samples, [])
  | .inputSend => (s.inputSend, [])

/-- The firmware as a machine; its outputs are the calls of the server. -/
def system (s₀ : PortId → SocketData) : Mealy State Label Call where
  init := .start s₀
  step := State.step

/-- The condition on a step under which the model is right about what the
server sends. -/
def ReadsInside (s : State) : Label → Prop
  | .server a _ => s.clients.ReadsInside a
  | _ => True

instance (s : State) : (l : Label) → Decidable (ReadsInside s l)
  | .server a _ => inferInstanceAs (Decidable (s.clients.ReadsInside a))
  | .dhcp _ => inferInstanceAs (Decidable True)
  | .vent => inferInstanceAs (Decidable True)
  | .sample _ => inferInstanceAs (Decidable True)
  | .inputSend => inferInstanceAs (Decidable True)

/-! ## What `dhcp_task` can do to the server -/

/-- `dhcp_task` writes `server_run`, or gives the semaphore, or touches
neither. -/
theorem dhcpStep_serverData (l : Dhcp.Locals) (d : Dhcp.ServerData) (i : Dhcp.Input) :
    (Dhcp.dhcpStep l d i).2.1 = d ∨
    (∃ run, (Dhcp.dhcpStep l d i).2.1 = { d with serverRun := run }) ∨
    (Dhcp.dhcpStep l d i).2.1 = { d with ipAssignedSem := d.ipAssignedSem + 1 } := by
  cases Dhcp.dhcpStep_handover l d i with
  | stop _ _ hdata => exact Or.inr (Or.inl ⟨false, hdata⟩)
  | run _ _ hdata => exact Or.inr (Or.inl ⟨true, hdata⟩)
  | give _ _ hdata =>
    rw [hdata, Dhcp.ServerData.xSemaphoreGive]
    split
    · exact Or.inr (Or.inr rfl)
    · exact Or.inl rfl
  | quiet _ _ _ hdata => exact Or.inl hdata

/-- A step of the firmware is at most one step of the server and the fan
task with any surroundings. -/
theorem step_clients (s : State) (l : Label) :
    (s.step l).1.clients = s.clients ∨ ∃ l', (s.step l).1.clients = (s.clients.step l').1 := by
  cases l with
  | dhcp i =>
    simp only [State.step, State.dhcpStep]
    rcases dhcpStep_serverData s.dhcp s.serverData i with h | ⟨run, h⟩ | h <;> rw [h]
    · exact Or.inl rfl
    · exact Or.inr ⟨.serverRun run, rfl⟩
    · exact Or.inr ⟨.ipAssigned, rfl⟩
  | server a stack => exact Or.inr ⟨.server a stack, rfl⟩
  | vent =>
    simp only [State.step, State.ventStep]
    split
    · exact Or.inr ⟨.vent _, rfl⟩
    · exact Or.inr ⟨.vent none, rfl⟩
  | sample samples =>
    simp only [State.step, State.sample]
    split <;> exact Or.inl rfl
  | inputSend =>
    simp only [State.step, State.inputSend]
    split <;> exact Or.inl rfl

/-- **The server and the fan task of every run of the firmware** are those
of a run of the system of `System.Clients`. -/
theorem clients_run (s₀ : PortId → SocketData) (ls : List Label) :
    ∃ ls', ((system s₀).run ls).clients = (Clients.system s₀).run ls' := by
  induction ls using List.reverseRecOn with
  | nil => exact ⟨[], rfl⟩
  | append_singleton ls l ih =>
    obtain ⟨ls', hls'⟩ := ih
    rw [Mealy.run_concat]
    rcases step_clients ((system s₀).run ls) l with h | ⟨l', h⟩
    · exact ⟨ls', h.trans hls'⟩
    · refine ⟨ls' ++ [l'], h.trans ?_⟩
      rw [Mealy.run_concat, ← hls']
      rfl

/-! ## `server_task` in the system -/

/-- Where the server is, without the records. -/
def taskPoint : ServerAt → TaskPoint
  | .waiting => .waiting
  | .starting i => .starting i
  | .head => .head
  | .taking => .taking
  | .body r i => .body r.message i

/-- The server without the records. -/
def taskState (s : Clients.State) : TaskState := ⟨taskPoint s.server, fun i => (s.ports i).socket⟩

theorem readsInside_taskState (s : Clients.State) (a : Answers) :
    (taskState s).ReadsInside a ↔ s.ReadsInside a := by
  unfold TaskState.ReadsInside Clients.State.ReadsInside taskState
  cases s.server <;> exact Iff.rfl

/-- What the server reads from the rest of the system. -/
def serverEnv (s : Clients.State) (a : Answers) (stack : Message) : Env where
  ipAssigned := 0 < s.ipAssignedSem
  serverRun := s.serverRun
  received := s.sendQueue.head?.map Reply.message
  answers := a
  stack := stack

/-- The calls among the outputs of `server_task`. -/
def callsOf (outs : List Output) : List Call :=
  outs.filterMap fun
    | .call c => some c
    | _ => none

theorem taskPoint_nextPort {next : PortId → ServerAt} {next' : PortId → TaskPoint}
    (h : ∀ i, taskPoint (next i) = next' i) (i : PortId) :
    taskPoint (Clients.nextPort i next) = nextSocket i next' := by
  unfold Clients.nextPort nextSocket
  split
  · exact h _
  · rfl

theorem taskState_update {s : Clients.State} {i : PortId} {p : Clients.Port} (j : PortId) :
    (Function.update s.ports i p j).socket =
      Function.update (fun i => (s.ports i).socket) i p.socket j :=
  Function.apply_update (fun _ => Clients.Port.socket) s.ports i p j

@[simp] theorem callsOf_append (outs outs' : List Output) :
    callsOf (outs ++ outs') = callsOf outs ++ callsOf outs' :=
  List.filterMap_append

@[simp] theorem callsOf_call (cs : List Call) : callsOf (cs.map .call) = cs := by
  simp [callsOf, List.filterMap_map]

@[simp] theorem callsOf_clock (i : PortId) (us : List ClockUse) :
    callsOf (us.map (.clock i)) = [] := by
  simp [callsOf]

@[simp] theorem callsOf_queued (ms : List Message) : callsOf (ms.map .queued) = [] := by
  simp [callsOf]

/-- **The server of the system is `server_task`**: it makes the same step
and the same calls. -/
theorem serverStep_taskState (s : Clients.State) (a : Answers) (stack : Message) :
    taskState (s.serverStep a stack).1 = (serverStep (taskState s) (serverEnv s a stack)).1 ∧
      serverCalls s a = callsOf (serverStep (taskState s) (serverEnv s a stack)).2 := by
  have hpoint : ∀ next, s.server = next → (taskState s).point = taskPoint next :=
    fun _ h => congrArg taskPoint h
  unfold serverCalls serverStep
  cases hat : s.server with
  | waiting =>
    rw [hpoint _ hat]
    simp only [Clients.State.serverStep, hat, taskState, taskPoint, serverEnv]
    by_cases hsem : s.ipAssignedSem > 0
    · simp [hsem, callsOf]
    · simp [hsem, hat, callsOf]
  | starting i =>
    rw [hpoint _ hat, Clients.serverStep_starting a stack hat]
    exact ⟨congrArg₂ TaskState.mk (taskPoint_nextPort (fun _ => rfl) i) (funext taskState_update),
      by simp [taskPoint, taskState, serverEnv]⟩
  | head =>
    rw [hpoint _ hat]
    simp only [Clients.State.serverStep, hat, taskState, serverEnv]
    by_cases hrun : s.serverRun = true
    · simp [hrun, taskPoint, callsOf]
    · simp [hrun, taskPoint, callsOf]
  | taking =>
    rw [hpoint _ hat]
    cases hq : s.sendQueue with
    | nil =>
      rw [Clients.serverStep_taking_nil a stack hat hq]
      simp [taskState, taskPoint, serverEnv, hq, callsOf]
    | cons r q =>
      rw [Clients.serverStep_taking_cons a stack hat hq]
      simp [taskState, taskPoint, serverEnv, hq, callsOf]
  | body r i =>
    rw [hpoint _ hat, Clients.serverStep_body a stack hat]
    exact ⟨congrArg₂ TaskState.mk (taskPoint_nextPort (fun _ => rfl) i) (funext taskState_update),
      by simp [taskPoint, taskState, serverEnv]⟩

end VentControl.System.Firmware
