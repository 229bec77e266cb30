/-
VentControl.Types — `types.h` and `server.h`: the message that crosses
the queues between the tasks, and the constants both ends share.

`message_type` is one of the `NO_MESSAGE` / `MSG_*` macros and never any
other number: every assignment in the firmware is one of them. It is the
inductive `MessageType`. `client` and `value` are C `int`s that no code
adds to, so they are `Int`.
-/
import Mathlib.Algebra.Group.Int.Defs
import Mathlib.Algebra.GroupWithZero.Nat
import Mathlib.Data.List.Basic

namespace VentControl

/-! ## Constants -/

/-- `BUFFER_SIZE` of `types.h`. -/
def bufferSize : Nat := 128

/-- `MAX_QUEUE_LENGTH` of `types.h`: the capacity of every queue. -/
def maxQueueLength : Nat := 100

/-- `LISTENING_PORT` of `server.h`. -/
def listeningPort : Nat := 1234

/-- `LISTENING_SOCKET_COUNT` of `server.h`. -/
abbrev listeningSocketCount : Nat := 4

instance : NeZero listeningSocketCount := ⟨by decide⟩

/-- `BASE_PORT_ID` of `server.h`: the id of the first socket served. -/
def basePortId : Nat := 2

/-- `KEEP_ALIVE_SECONDS * 1000 * 1000`, in the microseconds of `time_us_64`. -/
def keepAliveUs : Nat := 10 * 1000 * 1000

/-- `TIMEOUT_SECONDS * 1000 * 1000`. -/
def timeoutUs : Nat := 30 * 1000 * 1000

/-! ## Messages -/

/-- The `NO_MESSAGE` and `MSG_*` macros. -/
inductive MessageType
  | noMessage
  | getStatus
  | currentSpeeed
  | currentVakantie
  | setSpeed
  | setVakantie
  | remainingTime
  | keepalive
  deriving DecidableEq, Repr

/-- `message_t`. -/
structure Message where
  client : Int
  value : Int
  messageType : MessageType
  deriving DecidableEq, Repr

/-- `value` is in the range of its type. -/
def Message.IsInt (m : Message) : Prop := -2 ^ 31 ≤ m.value ∧ m.value < 2 ^ 31

instance (m : Message) : Decidable m.IsInt := by
  unfold Message.IsInt
  infer_instance

/-- What the command parser can put on `receive_queue`: a status request,
a speed of 0..3, or vakantie off or on. -/
def Message.IsCommand (m : Message) : Prop :=
  m.messageType = .getStatus ∨
  (m.messageType = .setSpeed ∧ 0 ≤ m.value ∧ m.value ≤ 3) ∨
  (m.messageType = .setVakantie ∧ (m.value = 0 ∨ m.value = 1))

instance (m : Message) : Decidable m.IsCommand := by
  unfold Message.IsCommand
  infer_instance

end VentControl
