/-
VentControl.Server.Task — `server_task` as a machine of its own, against
everything it reads from outside: the semaphore, `server_run`,
`send_queue`, the chip and the clock.

A step is the wait for an IP address, the initialisation of one socket,
the test of `server_run`, the receive from `send_queue`, or the body of
the serving loop for one socket. Its outputs are what the step does to the
outside (the calls, and the messages put on `receive_queue`), and what it
does with the clock: every `time_us_64` is either stored in one of the two
timestamps of a socket or has one of them subtracted from it.

Storage that the program does not initialise has no value of its own here.
The sockets of the first state are arbitrary, and what the stack holds
where `send_message` and `received_message` are comes in with each step.
-/
import VentControl.Lib.Run
import VentControl.Server.Socket

namespace VentControl.Server

open Runs

/-! ## The clock -/

/-- The two timestamps of a socket. -/
inductive Timestamp
  | received
  | send
  deriving DecidableEq, Repr

/-- The value of a timestamp. -/
def SocketData.timestamp (s : SocketData) : Timestamp → Nat
  | .received => s.lastCommandReceived
  | .send => s.lastCommandSend

/-- What the code does with a `time_us_64()`: it stores it in a timestamp,
or subtracts one from it. -/
inductive ClockUse
  | store (f : Timestamp) (t : Nat)
  | subtract (f : Timestamp) (now last : Nat)
  deriving DecidableEq, Repr

/-- Lines 144 and 145. -/
def openSocketClock (a : Answers) (s : SocketData) : List ClockUse :=
  if s.socketOpen then []
  else [.store .received (timeUs64 a.timeOpenReceived), .store .send (timeUs64 a.timeOpenSend)]

/-- Lines 171 and 176. -/
def receiveStepClock (a : Answers) (s : SocketData) : List ClockUse :=
  if a.rxRsr > 0 then
    if a.recv.ret ≠ a.rxRsr then [] else [.store .received (timeUs64 a.timeReceive)]
  else [.subtract .received (timeUs64 a.timeReceive) s.lastCommandReceived]

/-- Line 193. -/
def sendStepClock (a : Answers) (s : SocketData) : List ClockUse :=
  if s.sendSize > 0 then [.store .send (timeUs64 a.timeSend)] else []

/-- The clock in `server_loop`. -/
def serverLoopClock (a : Answers) (s : SocketData) : List ClockUse :=
  match a.sr with
  | .established =>
    let (s₁, _, goOn) := receiveStep a (openSocket a s)
    openSocketClock a s ++ receiveStepClock a (openSocket a s) ++
      if goOn then sendStepClock a s₁ else []
  | _ => []

/-- Lines 97 and 98. -/
def heartbeatClock (a : Answers) (s : SocketData) : List ClockUse :=
  if s.sendSize = 0 then [.subtract .send (timeUs64 a.timeHeartbeat) s.lastCommandSend] else []

/-- The clock in the body of the serving loop. -/
def serverBodyClock (m : Message) (a : Answers) (s : SocketData) : List ClockUse :=
  (if s.socketOpen then heartbeatClock a (buildFrame m s) else []) ++
    serverLoopClock a (fillSendBuffer m a s)

/-- The clock reading of a use. -/
def ClockUse.reading : ClockUse → Nat
  | .store _ t => t
  | .subtract _ now _ => now

/-! ## The task -/

/-- The initialisation of socket `i` up to its call of `server_loop`. -/
def resetSocket (i : Nat) (s : SocketData) : SocketData :=
  { s with
    socketId := basePortId + i
    listeningPort := listeningPort
    socketOpen := false
    receiveSize := 0
    sendSize := 0 }

theorem initSocket_eq (i : Nat) (a : Answers) (s : SocketData) :
    initSocket i a s =
      ((serverLoop a (resetSocket i s)).1,
        .socket (basePortId + i) listeningPort :: (serverLoop a (resetSocket i s)).2) := rfl

/-- Where `server_task` is: at `xSemaphoreTake`, at socket `i` of the
initialisation, at the test of `server_run`, at the receive from
`send_queue`, or at socket `i` of the serving loop with what
`send_message` holds. -/
inductive TaskPoint
  | waiting
  | starting (i : Fin listeningSocketCount)
  | head
  | taking
  | body (m : Message) (i : Fin listeningSocketCount)

/-- The task and its `socket_data`. -/
structure TaskState where
  point : TaskPoint
  sockets : Fin listeningSocketCount → SocketData

/-- What one step reads from outside: whether the semaphore can be taken,
`server_run`, what the receive from `send_queue` returns, the answers of
the chip and the libraries, and what the stack holds where `send_message`
is. -/
structure Env where
  ipAssigned : Bool
  serverRun : Bool
  received : Option Message
  answers : Answers
  stack : Message

/-- What a step does to the outside, and with the clock. -/
inductive Output
  | call (c : Call)
  | queued (m : Message)
  | clock (i : Fin listeningSocketCount) (u : ClockUse)
  deriving DecidableEq

/-- Where the `for` loops go after socket `i`. -/
def nextSocket (i : Fin listeningSocketCount) (next : Fin listeningSocketCount → TaskPoint) :
    TaskPoint :=
  if h : i.val + 1 < listeningSocketCount then next ⟨i.val + 1, h⟩ else .head

/-- The next step of `server_task`. -/
def serverStep (t : TaskState) (e : Env) : TaskState × List Output :=
  match t.point with
  | .waiting => ({ t with point := if e.ipAssigned then .starting 0 else .waiting }, [])
  | .starting i =>
    let (s, calls) := initSocket i e.answers (t.sockets i)
    (⟨nextSocket i .starting, Function.update t.sockets i s⟩,
      (serverLoopClock e.answers (resetSocket i (t.sockets i))).map (.clock i) ++
        calls.map .call)
  | .head => ({ t with point := if e.serverRun then .taking else .waiting }, [])
  | .taking =>
    match e.received with
    | some m => ({ t with point := .body m 0 }, [])
    | none => ({ t with point := .body ⟨e.stack.client, e.stack.value, .noMessage⟩ 0 }, [])
  | .body m i =>
    let (s, calls, messages) := serverBody m e.answers (t.sockets i)
    (⟨nextSocket i (.body m), Function.update t.sockets i s⟩,
      (serverBodyClock m e.answers (t.sockets i)).map (.clock i) ++ calls.map .call ++
        messages.map .queued)

/-- The step reads bytes only where they stay inside the buffer. -/
def TaskState.ReadsInside (t : TaskState) (a : Answers) : Prop :=
  match t.point with
  | .starting i => (resetSocket i (t.sockets i)).ReadsInside a
  | .body _ i => (t.sockets i).ReadsInside a
  | _ => True

instance (t : TaskState) (a : Answers) : Decidable (t.ReadsInside a) := by
  unfold TaskState.ReadsInside
  split <;> infer_instance

/-- `server_task` with any memory for the sockets. -/
def task (s₀ : Fin listeningSocketCount → SocketData) : Mealy TaskState Env Output where
  init := ⟨.waiting, s₀⟩
  step := serverStep

end VentControl.Server
