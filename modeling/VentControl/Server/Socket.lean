/-
VentControl.Server.Socket — `server.c`, one socket at a time: the data
kept for it, `server_loop`, `handle_receive_bufffer`, and the body of the
serving loop in `server_task`.

The chip and the libraries behind `getSn_SR`, `getSn_RX_RSR`, `recv`,
`send`, `socket` and `time_us_64` are not in the repository. What they
answer during one body is an input of the model, `Answers`; what the code
asks of them is an output, the list of `Call`s, in program order. `recv`
stores as many bytes as it returns, so its result carries them
(`RecvResult`). The results of `listen`, and of `close` on a socket that
the peer has half closed, are tested by the source but change nothing:
both branches leave the function.

Memory. The two buffers are separate arrays of `BUFFER_SIZE` bytes. The
source can write and search behind the end of `receive_buffer`; here such
bytes are lost, and the `memset` and `recv` calls record the range the
code asked for. On the board they fall on the fields behind the buffer,
`receive_size`, `send_buffer` and `send_size` among them, and on the next
socket. `SocketData.ReadsInside` is the condition under which they do not,
and `Server.Layout` shows that the model is then right about all of
`socket_data`. Delivery, heartbeats, the speed that clients know and the
order in which they read reports are about runs that meet the condition in
every step. Formats and uninitialised storage are about arrays that are
separate as here.

`receive_size` is a `uint16_t` and the two timestamps are `uint64_t`:
sums and differences wrap accordingly (`addU16`, `elapsed`).
-/
import VentControl.Types
import VentControl.Lib.CString

namespace VentControl.Server

open CString

/-! ## Data -/

/-- An array of `BUFFER_SIZE` bytes. -/
@[ext] structure Buffer where
  bytes : List UInt8
  size_eq : bytes.length = bufferSize
  deriving DecidableEq

/-- Write into the array; bytes behind its end are lost. -/
def Buffer.store (b : Buffer) (off : Nat) (data : List UInt8) : Buffer :=
  ⟨storeAt b.bytes off data, by rw [length_storeAt, b.size_eq]⟩

/-- An array of NULs. -/
def Buffer.zero : Buffer := ⟨List.replicate bufferSize 0, by simp⟩

/-- `socket_data_t`. -/
structure SocketData where
  socketId : Nat
  listeningPort : Nat
  socketOpen : Bool
  receiveBuffer : Buffer
  receiveSize : Nat
  sendBuffer : Buffer
  sendSize : Nat
  lastCommandReceived : Nat
  lastCommandSend : Nat

/-- `a + b` in a `uint16_t`. -/
def addU16 (a b : Nat) : Nat := (a + b) % 2 ^ 16

/-- `time_us_64()` when `t` microseconds have passed. -/
def timeUs64 (t : Nat) : Nat := t % 2 ^ 64

/-- `now - last` in a `uint64_t`. -/
def elapsed (now last : Nat) : Nat := (now + 2 ^ 64 - last) % 2 ^ 64

/-- The values of the status register that `server_loop` tells apart. -/
inductive SnSR
  | established
  | closeWait
  | closed
  | init
  | other
  deriving DecidableEq, Repr

/-- What `recv` does: it stores bytes and returns their number, which is
`SOCK_BUSY` when there are none, or it returns a negative error code. -/
inductive RecvResult
  | stored (data : List UInt8)
  | error (code : Nat)
  deriving DecidableEq, Repr

/-- `SOCK_BUSY`. -/
def sockBusy : Int := 0

/-- The return value of `recv`. -/
def RecvResult.ret : RecvResult → Int
  | .stored data => data.length
  | .error code => -(code : Int) - 1

/-- The bytes `recv` stores. -/
def RecvResult.data : RecvResult → List UInt8
  | .stored data => data
  | .error _ => []

/-- What the chip, the libraries and the stack answer during one body of
the serving loop: the status register, the received size register, the
results of `recv`, `send` and `socket`, the times at which `time_us_64` is
called, in the order of the text, and what the stack held where
`received_message` is. -/
structure Answers where
  sr : SnSR
  rxRsr : Nat
  recv : RecvResult
  sendRet : Int
  socketRet : Int
  timeHeartbeat : Nat
  timeOpenReceived : Nat
  timeOpenSend : Nat
  timeReceive : Nat
  timeSend : Nat
  receivedMessage : Message
  deriving DecidableEq, Repr

/-- What the code asks of the C library and of the chip. `memset` and
`recv` carry the range of `receive_buffer` they write. -/
inductive Call
  | memset (off len : Nat)
  | recv (off len : Nat)
  | send (sn : Nat) (bytes : List UInt8)
  | close (sn : Nat)
  | socket (sn port : Nat)
  | listen (sn : Nat)
  deriving DecidableEq, Repr

/-! ## `server_loop` -/

/-- Lines 141 to 148: the first time the connection is seen. -/
def openSocket (a : Answers) (s : SocketData) : SocketData :=
  if s.socketOpen then s
  else
    { s with
      socketOpen := true
      lastCommandReceived := timeUs64 a.timeOpenReceived
      lastCommandSend := timeUs64 a.timeOpenSend }

/-- Lines 151 to 187: read what has arrived, or look at the inactivity
timeout. The flag says whether the function goes on to its send step. -/
def receiveStep (a : Answers) (s : SocketData) : SocketData × List Call × Bool :=
  if a.rxRsr > 0 then
    let calls := [.memset s.receiveSize bufferSize, .recv 0 a.recv.data.length]
    let buffer := (s.receiveBuffer.store s.receiveSize (List.replicate bufferSize 0)).store 0
      a.recv.data
    if a.recv.ret ≠ a.rxRsr then
      if a.recv.ret = sockBusy then ({ s with receiveBuffer := buffer }, calls, false)
      else if a.recv.ret < 0 then
        ({ s with receiveBuffer := buffer, socketOpen := false },
          calls ++ [.close s.socketId], false)
      else ({ s with receiveBuffer := buffer }, calls, true)
    else
      ({ s with
          receiveBuffer := buffer
          receiveSize := addU16 s.receiveSize a.rxRsr
          lastCommandReceived := timeUs64 a.timeReceive },
        calls, true)
  else if elapsed (timeUs64 a.timeReceive) s.lastCommandReceived > timeoutUs then
    ({ s with socketOpen := false }, [.close s.socketId], false)
  else (s, [], true)

/-- If `server_loop` reads bytes, it does so with at most one byte in the
buffer, and they fit into it. -/
def SocketData.ReadsInside (s : SocketData) (a : Answers) : Prop :=
  a.sr = .established → a.rxRsr > 0 → s.receiveSize ≤ 1 ∧ a.rxRsr ≤ bufferSize

instance (s : SocketData) (a : Answers) : Decidable (s.ReadsInside a) := by
  unfold SocketData.ReadsInside
  infer_instance

/-- Lines 189 to 201: send what is in the send buffer. -/
def sendStep (a : Answers) (s : SocketData) : SocketData × List Call :=
  if s.sendSize > 0 then
    let calls := [.send s.socketId (s.sendBuffer.bytes.take s.sendSize)]
    let s := { s with sendSize := 0, lastCommandSend := timeUs64 a.timeSend }
    if a.sendRet < 0 then ({ s with socketOpen := false }, calls ++ [.close s.socketId])
    else (s, calls)
  else (s, [])

/-- `server_loop`. -/
def serverLoop (a : Answers) (s : SocketData) : SocketData × List Call :=
  match a.sr with
  | .established =>
    let (s₁, calls₁, goOn) := receiveStep a (openSocket a s)
    if goOn then
      let (s₂, calls₂) := sendStep a s₁
      (s₂, calls₁ ++ calls₂)
    else (s₁, calls₁)
  | .closeWait => ({ s with socketOpen := false }, [.close s.socketId])
  | .closed =>
    if a.socketRet ≠ s.socketId then
      ({ s with socketOpen := false },
        [.socket s.socketId s.listeningPort, .close s.socketId])
    else (s, [.socket s.socketId s.listeningPort])
  | .init => ({ s with sendSize := 0, receiveSize := 0 }, [.listen s.socketId])
  | .other => (s, [])

/-! ## `handle_receive_bufffer` -/

/-- `'#'`. -/
def hash : UInt8 := 35

/-- One of the eight comparisons of `handle_receive_bufffer`: the text, the
message it makes, and what it leaves in `receive_size`. -/
structure Command where
  text : List Char
  messageType : MessageType
  value : Int
  receiveSize : Nat
  deriving DecidableEq, Repr

/-- The comparisons, in the order of the source. `VAK1` leaves 1. -/
def commands : List Command :=
  [⟨['G', 'E', 'T'], .getStatus, 0, 0⟩,
   ⟨['S', 'E', 'T', '0'], .setSpeed, 0, 0⟩,
   ⟨['S', 'E', 'T', '1'], .setSpeed, 1, 0⟩,
   ⟨['S', 'E', 'T', '2'], .setSpeed, 2, 0⟩,
   ⟨['S', 'E', 'T', '3'], .setSpeed, 3, 0⟩,
   ⟨['V', 'A', 'K', '0'], .setVakantie, 0, 0⟩,
   ⟨['V', 'A', 'K', '1'], .setVakantie, 1, 1⟩,
   ⟨['H', 'B'], .keepalive, 0, 0⟩]

/-- The first command whose text is the string in the buffer. -/
def matchCommand (buffer : Buffer) : Option Command :=
  commands.find? fun c => strEq buffer.bytes c.text

/-- `handle_receive_bufffer`: the result, the socket data, and the message
the caller passed, written when the result is true. -/
def handleReceiveBufffer (s : SocketData) (message : Message) : Bool × SocketData × Message :=
  match strnstr hash s.receiveBuffer.bytes s.receiveSize with
  | none => (false, s, message)
  | some k =>
    let buffer := s.receiveBuffer.store k [0]
    match matchCommand buffer with
    | some c =>
      (true, { s with receiveBuffer := buffer, receiveSize := c.receiveSize },
        ⟨s.socketId, c.value, c.messageType⟩)
    | none =>
      -- an end character, but no type we know: the buffer is reset
      (false, { s with receiveBuffer := buffer, receiveSize := 0 }, message)

/-! ## The body of the serving loop -/

/-- A message that goes on to `receive_queue`. -/
def Queued (m : Message) : Prop :=
  m.messageType ≠ .keepalive ∧ m.messageType ≠ .noMessage

instance (m : Message) : Decidable (Queued m) := by
  unfold Queued
  infer_instance

/-- The loop of lines 114 to 123, for at most `fuel` rounds: the messages it
puts on `receive_queue`. -/
def drainFor : Nat → SocketData → Message → SocketData × List Message
  | 0, s, _ => (s, [])
  | fuel + 1, s, message =>
    match handleReceiveBufffer s message with
    | (true, s', m) =>
      let (s'', ms) := drainFor fuel s' m
      (s'', if Queued m then m :: ms else ms)
    | (false, s', _) => (s', [])

/-- The loop of lines 114 to 123. Each round that goes on leaves a smaller
`receive_size` (`handleReceiveBufffer_decreases`), so the rounds suffice. -/
def drainReceive (s : SocketData) (message : Message) : SocketData × List Message :=
  drainFor (s.receiveSize + 1) s message

/-- `sprintf` into the send buffer, with its result in `send_size`. -/
def SocketData.sprintf (s : SocketData) (text : List UInt8) : SocketData :=
  { s with sendBuffer := s.sendBuffer.store 0 (text ++ [0]), sendSize := text.length }

/-- The frame `c%d#`. -/
def valueFrame (c : Char) (value : Int) : List UInt8 := ascii [c] ++ formatD value ++ [hash]

/-- The frame of a message from `send_queue`, for the types that have one. -/
def frameOf (m : Message) : Option (List UInt8) :=
  match m.messageType with
  | .currentSpeeed => some (valueFrame 'S' m.value)
  | .currentVakantie => some (valueFrame 'V' m.value)
  | .remainingTime => some (valueFrame 'T' m.value)
  | _ => none

/-- The message is for this socket or for all. -/
def SocketData.Addressed (s : SocketData) (m : Message) : Prop :=
  m.client = s.socketId ∨ m.client = -1

instance (s : SocketData) (m : Message) : Decidable (s.Addressed m) := by
  unfold SocketData.Addressed
  infer_instance

/-- Lines 75 to 92: the frame of the message that was taken, if it is for
this socket. -/
def buildFrame (m : Message) (s : SocketData) : SocketData :=
  if s.Addressed m then
    match frameOf m with
    | some frame => s.sprintf frame
    | none => s
  else s

/-- `"HB#"`. -/
def heartbeatFrame : List UInt8 := ascii ['H', 'B', '#']

/-- Lines 95 to 105: a heartbeat, when there is nothing else to send and
the last send is long enough ago. -/
def buildHeartbeat (a : Answers) (s : SocketData) : SocketData :=
  if s.sendSize = 0 ∧ elapsed (timeUs64 a.timeHeartbeat) s.lastCommandSend > keepAliveUs then
    s.sprintf heartbeatFrame
  else s

/-- Lines 72 to 106: fill the send buffer of an open socket. -/
def fillSendBuffer (m : Message) (a : Answers) (s : SocketData) : SocketData :=
  if s.socketOpen then buildHeartbeat a (buildFrame m s) else s

/-- The body of lines 69 to 125 for one socket: the socket data, the calls,
and the messages put on `receive_queue`. `m` is what `send_message` holds. -/
def serverBody (m : Message) (a : Answers) (s : SocketData) :
    SocketData × List Call × List Message :=
  let (s₁, calls) := serverLoop a (fillSendBuffer m a s)
  if s₁.socketOpen then
    let (s₂, ms) := drainReceive s₁ a.receivedMessage
    (s₂, calls, ms)
  else (s₁, calls, [])

/-- Lines 51 to 58: initialise socket `i` when an IP address was assigned. -/
def initSocket (i : Nat) (a : Answers) (s : SocketData) : SocketData × List Call :=
  let s₁ := { s with
    socketId := basePortId + i
    listeningPort := listeningPort
    socketOpen := false
    receiveSize := 0
    sendSize := 0 }
  let (s₂, calls) := serverLoop a s₁
  (s₂, .socket s₁.socketId s₁.listeningPort :: calls)

/-! ## Samples -/

/-- Socket 1 before its first connection. -/
def SocketData.fresh : SocketData where
  socketId := 1
  listeningPort := VentControl.listeningPort
  socketOpen := false
  receiveBuffer := Buffer.zero
  receiveSize := 0
  sendBuffer := Buffer.zero
  sendSize := 0
  lastCommandReceived := 0
  lastCommandSend := 0

/-- No message, in memory that was cleared. -/
def noMessage : Message := ⟨0, 0, .noMessage⟩

/-- Answers for a body in which the connection is up and a piece arrives. -/
def arrival (data : List UInt8) : Answers where
  sr := .established
  rxRsr := data.length
  recv := .stored data
  sendRet := 0
  socketRet := 1
  timeHeartbeat := 0
  timeOpenReceived := 0
  timeOpenSend := 0
  timeReceive := 0
  timeSend := 0
  receivedMessage := noMessage

/-- Answers for a body with nothing to read that reads the status `sr` at
time `t`; `socket` succeeds on socket 2, and `send` takes `sent` bytes. -/
def Answers.status (sr : SnSR) (t : Nat) (sent : Int) : Answers :=
  { arrival [] with
    sr := sr
    sendRet := sent
    socketRet := 2
    timeOpenReceived := t
    timeReceive := t }

end VentControl.Server
