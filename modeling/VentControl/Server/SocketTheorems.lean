/-
VentControl.Server.SocketTheorems — one lemma for each function of
`Server.Socket` that says all it does, and what each leaves alone.

`front s` is the received bytes: the first `receive_size` bytes of the
receive buffer. `handleReceiveBufffer_found` and `_missed` read the
parser as a function of them: it looks up the bytes before the first
`'#'`, unless a NUL hides it. One round of the drain loop leaves at most
one byte, and that byte is no `'#'`, so the loop makes at most one round
that goes on (`drainReceive_found`, `drainReceive_missed`).

The receive side (buffer and size) and the send side of a socket do not
touch each other; the `@[simp]` lemmas at the end say so function by
function.
-/
import VentControl.Server.Socket

namespace VentControl.Server

open CString

/-! ## The parser -/

/-- The received bytes that have not been processed, as the code sees
them. -/
def SocketData.front (s : SocketData) : List UInt8 := s.receiveBuffer.bytes.take s.receiveSize

/-- The command with the text `f`. -/
def lookup (f : List UInt8) : Option Command := commands.find? fun c => f == ascii c.text

/-- The message of a command on socket `sn`. -/
def Command.message (c : Command) (sn : Nat) : Message := ⟨sn, c.value, c.messageType⟩

/-- The socket data after a command or an unrecognised frame `f` was taken
from the front of the receive buffer. -/
def SocketData.took (s : SocketData) (f : List UInt8) : SocketData :=
  { s with
    receiveBuffer := s.receiveBuffer.store f.length [0]
    receiveSize := ((lookup f).map Command.receiveSize).getD 0 }

/-- No `'#'` is found in the received bytes: there is none, or a NUL stands
before the first. -/
def SocketData.NoFrame (s : SocketData) : Prop :=
  ∀ p q, s.front = p ++ hash :: q → hash ∉ p → 0 ∈ p

/-- An empty buffer has no frame. -/
theorem noFrame_of_receiveSize {s : SocketData} (h : s.receiveSize = 0) : s.NoFrame := by
  intro p q hpq
  simp [SocketData.front, h] at hpq

theorem SocketData.front_eq {s : SocketData} {b : Buffer} {n : Nat} (hb : s.receiveBuffer = b)
    (hn : s.receiveSize = n) : s.front = b.bytes.take n := by
  rw [SocketData.front, hb, hn]

theorem matchCommand_store {b : Buffer} {f rest : List UInt8} (hb : b.bytes = f ++ hash :: rest)
    (h0 : 0 ∉ f) : matchCommand (b.store f.length [0]) = lookup f := by
  have hstr : cstr (b.store f.length [0]).bytes = f := by
    simp only [Buffer.store, hb]
    exact cstr_storeAt_nul hash h0
  simp only [matchCommand, lookup, strEq, hstr]

/-- The buffer starts with what its front starts with. -/
theorem bytes_of_front {s : SocketData} {f rest : List UInt8}
    (hfront : s.front = f ++ hash :: rest) :
    ∃ q, s.receiveBuffer.bytes = f ++ hash :: q := by
  obtain ⟨q, hq⟩ := List.take_prefix s.receiveSize s.receiveBuffer.bytes
  rw [← SocketData.front, hfront] at hq
  exact ⟨rest ++ q, by simpa using hq.symm⟩

/-- **The parser finds a frame** and looks it up. -/
theorem handleReceiveBufffer_found {s : SocketData} {f rest : List UInt8} (message : Message)
    (hfront : s.front = f ++ hash :: rest) (hf : hash ∉ f) (h0 : 0 ∉ f) :
    handleReceiveBufffer s message =
      ((lookup f).isSome, s.took f, ((lookup f).map (·.message s.socketId)).getD message) := by
  have hfind : strnstr hash s.receiveBuffer.bytes s.receiveSize = some f.length := by
    rw [strnstr, ← SocketData.front, hfront]
    exact findBeforeNul_append hf h0
  obtain ⟨q, hbytes⟩ := bytes_of_front hfront
  simp only [handleReceiveBufffer, hfind, matchCommand_store hbytes h0]
  cases hl : lookup f <;> simp [SocketData.took, hl, Command.message]

/-- **The parser finds no frame** and does nothing. -/
theorem handleReceiveBufffer_missed {s : SocketData} (message : Message) (h : s.NoFrame) :
    handleReceiveBufffer s message = (false, s, message) := by
  have hfind : strnstr hash s.receiveBuffer.bytes s.receiveSize = none :=
    findBeforeNul_eq_none_iff.mpr h
  simp [handleReceiveBufffer, hfind]

/-- A frame is found or not. -/
theorem front_cases (s : SocketData) :
    s.NoFrame ∨ ∃ f rest, s.front = f ++ hash :: rest ∧ hash ∉ f ∧ 0 ∉ f := by
  by_cases h : s.NoFrame
  · exact Or.inl h
  · simp only [SocketData.NoFrame, not_forall] at h
    obtain ⟨f, rest, hfront, hf, h0⟩ := h
    exact Or.inr ⟨f, rest, hfront, hf, h0⟩

/-! ## The drain loop -/

theorem lookup_mem {f : List UInt8} {c : Command} (h : lookup f = some c) :
    c ∈ commands ∧ f = ascii c.text := by
  refine ⟨List.mem_of_find?_eq_some h, ?_⟩
  have := List.find?_some h
  simpa using this

/-- Every command leaves fewer bytes than its text has, and at most one. -/
theorem commands_receiveSize : ∀ c ∈ commands,
    c.receiveSize ≤ 1 ∧ c.receiveSize < (ascii c.text).length := by
  decide

theorem length_of_front {s : SocketData} {f rest : List UInt8}
    (hfront : s.front = f ++ hash :: rest) : f.length < s.receiveSize := by
  have h1 : s.front.length ≤ s.receiveSize := List.length_take_le _ _
  rw [hfront] at h1
  simp at h1
  omega

/-- A round that goes on leaves a smaller `receive_size`. -/
theorem handleReceiveBufffer_decreases {s s' : SocketData} {message m : Message}
    (h : handleReceiveBufffer s message = (true, s', m)) : s'.receiveSize < s.receiveSize := by
  rcases front_cases s with hmiss | ⟨f, rest, hfront, hf, h0⟩
  · simp [handleReceiveBufffer_missed message hmiss] at h
  · rw [handleReceiveBufffer_found message hfront hf h0] at h
    simp only [Prod.mk.injEq] at h
    obtain ⟨hsome, rfl, -⟩ := h
    obtain ⟨c, hc⟩ := Option.isSome_iff_exists.mp hsome
    obtain ⟨hmem, rfl⟩ := lookup_mem hc
    have h1 := (commands_receiveSize c hmem).2
    have h2 := length_of_front hfront
    simp only [SocketData.took, hc, Option.map_some, Option.getD_some]
    omega

/-- What is left at the front after a frame `f` was taken is the beginning
of `f`, the bytes after it are out of reach. -/
theorem front_took {s : SocketData} {f rest : List UInt8} (hfront : s.front = f ++ hash :: rest) :
    (s.took f).front = f.take (s.took f).receiveSize := by
  obtain ⟨r, hbytes⟩ := bytes_of_front hfront
  have hst : storeAt s.receiveBuffer.bytes f.length [0] = f ++ 0 :: r := by
    rw [hbytes]
    simp [storeAt]
  have hle : (s.took f).receiveSize ≤ f.length := by
    show ((lookup f).map Command.receiveSize).getD 0 ≤ f.length
    cases hl : lookup f with
    | none => simp
    | some c =>
      obtain ⟨hmem, rfl⟩ := lookup_mem hl
      have := (commands_receiveSize c hmem).2
      simp only [Option.map_some, Option.getD_some]
      omega
  show (storeAt s.receiveBuffer.bytes f.length [0]).take (s.took f).receiveSize = _
  rw [hst, List.take_append_of_le_length hle]

/-- After a frame was taken no further frame is found: there is no `'#'`
in what is left. -/
theorem noFrame_took {s : SocketData} {f rest : List UInt8} (hfront : s.front = f ++ hash :: rest)
    (hf : hash ∉ f) : (s.took f).NoFrame := by
  intro p q hp _
  have hmem : hash ∈ f.take (s.took f).receiveSize := by
    rw [← front_took hfront, hp]
    simp
  exact absurd (List.mem_of_mem_take hmem) hf

/-- The loop's own equation: its rounds end because the parser says so,
never because the model runs out of them. -/
theorem drainReceive_eq (s : SocketData) (message : Message) :
    drainReceive s message =
      match handleReceiveBufffer s message with
      | (true, s', m) =>
        ((drainReceive s' m).1,
          if Queued m then m :: (drainReceive s' m).2 else (drainReceive s' m).2)
      | (false, s', _) => (s', []) := by
  -- more rounds than `receive_size` never change the result
  have fuel : ∀ (n k : Nat) (s : SocketData) (message : Message), s.receiveSize < n →
      s.receiveSize < k → drainFor n s message = drainFor k s message := by
    intro n
    induction n with
    | zero => intro k s message hn; omega
    | succ n ih =>
      intro k s message hn hk
      obtain ⟨k, rfl⟩ : ∃ k', k = k' + 1 := ⟨k - 1, by omega⟩
      simp only [drainFor]
      rcases hh : handleReceiveBufffer s message with ⟨b, s', m⟩
      cases b with
      | false => rfl
      | true =>
        have hlt := handleReceiveBufffer_decreases hh
        simp only
        rw [ih k s' m (by omega) (by omega)]
  rcases hh : handleReceiveBufffer s message with ⟨b, s', m⟩
  cases b with
  | false => simp [drainReceive, drainFor, hh]
  | true =>
    have hlt := handleReceiveBufffer_decreases hh
    have heq := fuel s.receiveSize (s'.receiveSize + 1) s' m hlt (by omega)
    simp only [drainReceive, drainFor, hh, heq]

theorem drainReceive_missed {s : SocketData} (message : Message) (h : s.NoFrame) :
    drainReceive s message = (s, []) := by
  rw [drainReceive_eq, handleReceiveBufffer_missed message h]

/-- **The drain loop takes one frame**, and puts its message on the queue if
it is a command other than the heartbeat. -/
theorem drainReceive_found {s : SocketData} {f rest : List UInt8} (message : Message)
    (hfront : s.front = f ++ hash :: rest) (hf : hash ∉ f) (h0 : 0 ∉ f) :
    drainReceive s message =
      (s.took f, ((lookup f).map (·.message s.socketId)).toList.filter (Queued ·)) := by
  rw [drainReceive_eq, handleReceiveBufffer_found message hfront hf h0]
  have hdone := fun m => drainReceive_missed m (noFrame_took hfront hf)
  cases hl : lookup f with
  | none => simp
  | some c =>
    by_cases hq : Queued (c.message s.socketId) <;> simp [hdone, hq]

/-- When the drain loop ends, the parser finds no further frame. -/
theorem noFrame_drainReceive (s : SocketData) (message : Message) :
    (drainReceive s message).1.NoFrame := by
  rcases front_cases s with hmiss | ⟨f, rest, hfront, hf, h0⟩
  · rwa [drainReceive_missed message hmiss]
  · rw [drainReceive_found message hfront hf h0]
    exact noFrame_took hfront hf

/-! ## The clock -/

/-- The difference of two readings, when the clock has not wrapped. -/
theorem elapsed_of_le {now last : Nat} (hle : last ≤ now) (hlt : now < 2 ^ 64) :
    elapsed now last = now - last := by
  unfold elapsed
  omega

/-! ## The two halves of `server_loop` -/

/-- The receive buffer after `memset` and `recv`. -/
def SocketData.read (a : Answers) (s : SocketData) : Buffer :=
  (s.receiveBuffer.store s.receiveSize (List.replicate bufferSize 0)).store 0 a.recv.data

/-- The two calls that read. -/
def SocketData.readCalls (a : Answers) (s : SocketData) : List Call :=
  [.memset s.receiveSize bufferSize, .recv 0 a.recv.data.length]

/-- **All the receive step can do**: all bytes are read, or some, or none
(and `server_loop` returns), or `recv` fails, or there are none to read
and the connection has timed out or has not. -/
theorem receiveStep_cases (a : Answers) (s : SocketData) :
    (a.rxRsr > 0 ∧ a.recv.ret = a.rxRsr ∧
      receiveStep a s =
        ({ s with
            receiveBuffer := s.read a
            receiveSize := addU16 s.receiveSize a.rxRsr
            lastCommandReceived := timeUs64 a.timeReceive }, s.readCalls a, true)) ∨
    (a.rxRsr > 0 ∧ a.recv.ret ≠ a.rxRsr ∧ 0 < a.recv.ret ∧
      receiveStep a s = ({ s with receiveBuffer := s.read a }, s.readCalls a, true)) ∨
    (a.rxRsr > 0 ∧ a.recv.ret = 0 ∧
      receiveStep a s = ({ s with receiveBuffer := s.read a }, s.readCalls a, false)) ∨
    (a.rxRsr > 0 ∧ a.recv.ret < 0 ∧
      receiveStep a s =
        ({ s with receiveBuffer := s.read a, socketOpen := false },
          s.readCalls a ++ [.close s.socketId], false)) ∨
    (a.rxRsr = 0 ∧ elapsed (timeUs64 a.timeReceive) s.lastCommandReceived > timeoutUs ∧
      receiveStep a s = ({ s with socketOpen := false }, [.close s.socketId], false)) ∨
    (a.rxRsr = 0 ∧ ¬ elapsed (timeUs64 a.timeReceive) s.lastCommandReceived > timeoutUs ∧
      receiveStep a s = (s, [], true)) := by
  unfold receiveStep
  by_cases hrx : a.rxRsr > 0
  · rw [if_pos hrx]
    by_cases hret : a.recv.ret = a.rxRsr
    · rw [if_neg (not_not_intro hret)]
      exact Or.inl ⟨hrx, hret, rfl⟩
    · rw [if_pos hret]
      rcases Int.lt_trichotomy a.recv.ret 0 with hneg | hzero | hpos
      · rw [if_neg (show ¬ a.recv.ret = sockBusy from by simp [sockBusy]; omega), if_pos hneg]
        exact Or.inr (Or.inr (Or.inr (Or.inl ⟨hrx, hneg, rfl⟩)))
      · rw [if_pos (show a.recv.ret = sockBusy from hzero)]
        exact Or.inr (Or.inr (Or.inl ⟨hrx, hzero, rfl⟩))
      · rw [if_neg (show ¬ a.recv.ret = sockBusy from by simp [sockBusy]; omega),
          if_neg (by omega)]
        exact Or.inr (Or.inl ⟨hrx, hret, hpos, rfl⟩)
  · rw [if_neg hrx]
    by_cases hto : elapsed (timeUs64 a.timeReceive) s.lastCommandReceived > timeoutUs
    · rw [if_pos hto]
      exact Or.inr (Or.inr (Or.inr (Or.inr (Or.inl ⟨by omega, hto, rfl⟩))))
    · rw [if_neg hto]
      exact Or.inr (Or.inr (Or.inr (Or.inr (Or.inr ⟨by omega, hto, rfl⟩))))

/-- **All the send step can do**: nothing waits, or `send` takes what waits,
or it fails. -/
theorem sendStep_cases (a : Answers) (s : SocketData) :
    (s.sendSize = 0 ∧ sendStep a s = (s, [])) ∨
    (s.sendSize > 0 ∧ 0 ≤ a.sendRet ∧
      sendStep a s =
        ({ s with sendSize := 0, lastCommandSend := timeUs64 a.timeSend },
          [.send s.socketId (s.sendBuffer.bytes.take s.sendSize)])) ∨
    (s.sendSize > 0 ∧ a.sendRet < 0 ∧
      sendStep a s =
        ({ s with sendSize := 0, lastCommandSend := timeUs64 a.timeSend, socketOpen := false },
          [.send s.socketId (s.sendBuffer.bytes.take s.sendSize), .close s.socketId])) := by
  unfold sendStep
  by_cases hpos : s.sendSize > 0
  · rw [if_pos hpos]
    by_cases hneg : a.sendRet < 0
    · exact Or.inr (Or.inr ⟨hpos, hneg, by simp [hneg]⟩)
    · exact Or.inr (Or.inl ⟨hpos, by omega, by simp [hneg]⟩)
  · rw [if_neg hpos]
    exact Or.inl ⟨by omega, rfl⟩

/-! ## What each function leaves alone -/

section Frame

variable (m : Message) (a : Answers) (s : SocketData)

@[simp] theorem sprintf_socketId (text : List UInt8) : (s.sprintf text).socketId = s.socketId :=
  rfl

@[simp] theorem sprintf_socketOpen (text : List UInt8) :
    (s.sprintf text).socketOpen = s.socketOpen := rfl

@[simp] theorem sprintf_receiveBuffer (text : List UInt8) :
    (s.sprintf text).receiveBuffer = s.receiveBuffer := rfl

@[simp] theorem sprintf_receiveSize (text : List UInt8) :
    (s.sprintf text).receiveSize = s.receiveSize := rfl

@[simp] theorem sprintf_sendSize (text : List UInt8) :
    (s.sprintf text).sendSize = text.length := rfl

@[simp] theorem sprintf_lastCommandReceived (text : List UInt8) :
    (s.sprintf text).lastCommandReceived = s.lastCommandReceived := rfl

@[simp] theorem sprintf_lastCommandSend (text : List UInt8) :
    (s.sprintf text).lastCommandSend = s.lastCommandSend := rfl

/-- Filling the send buffer changes the send side and nothing else. -/
theorem fillSendBuffer_eq :
    ∃ b n, fillSendBuffer m a s = { s with sendBuffer := b, sendSize := n } := by
  have hkeep : ∃ b n, s = { s with sendBuffer := b, sendSize := n } :=
    ⟨s.sendBuffer, s.sendSize, rfl⟩
  have hframe : ∃ b n, buildFrame m s = { s with sendBuffer := b, sendSize := n } := by
    unfold buildFrame
    split
    · split
      · exact ⟨_, _, rfl⟩
      · exact hkeep
    · exact hkeep
  unfold fillSendBuffer
  split
  · obtain ⟨b, n, hb⟩ := hframe
    rw [hb]
    unfold buildHeartbeat
    split
    · exact ⟨_, _, rfl⟩
    · exact ⟨b, n, rfl⟩
  · exact hkeep

variable {m a s} in
theorem fillSendBuffer_of_closed (h : s.socketOpen = false) : fillSendBuffer m a s = s := by
  simp [fillSendBuffer, h]

@[simp] theorem fillSendBuffer_socketId : (fillSendBuffer m a s).socketId = s.socketId := by
  obtain ⟨b, n, h⟩ := fillSendBuffer_eq m a s
  rw [h]

@[simp] theorem fillSendBuffer_socketOpen :
    (fillSendBuffer m a s).socketOpen = s.socketOpen := by
  obtain ⟨b, n, h⟩ := fillSendBuffer_eq m a s
  rw [h]

@[simp] theorem fillSendBuffer_receiveBuffer :
    (fillSendBuffer m a s).receiveBuffer = s.receiveBuffer := by
  obtain ⟨b, n, h⟩ := fillSendBuffer_eq m a s
  rw [h]

@[simp] theorem fillSendBuffer_receiveSize :
    (fillSendBuffer m a s).receiveSize = s.receiveSize := by
  obtain ⟨b, n, h⟩ := fillSendBuffer_eq m a s
  rw [h]

@[simp] theorem fillSendBuffer_lastCommandReceived :
    (fillSendBuffer m a s).lastCommandReceived = s.lastCommandReceived := by
  obtain ⟨b, n, h⟩ := fillSendBuffer_eq m a s
  rw [h]

@[simp] theorem fillSendBuffer_lastCommandSend :
    (fillSendBuffer m a s).lastCommandSend = s.lastCommandSend := by
  obtain ⟨b, n, h⟩ := fillSendBuffer_eq m a s
  rw [h]

variable {a s} in
theorem openSocket_of_open (h : s.socketOpen = true) : openSocket a s = s := by
  simp [openSocket, h]

@[simp] theorem openSocket_socketId : (openSocket a s).socketId = s.socketId := by
  unfold openSocket
  split <;> rfl

@[simp] theorem openSocket_socketOpen : (openSocket a s).socketOpen = true := by
  unfold openSocket
  split
  · assumption
  · rfl

@[simp] theorem openSocket_receiveBuffer : (openSocket a s).receiveBuffer = s.receiveBuffer := by
  unfold openSocket
  split <;> rfl

@[simp] theorem openSocket_receiveSize : (openSocket a s).receiveSize = s.receiveSize := by
  unfold openSocket
  split <;> rfl

@[simp] theorem openSocket_sendBuffer : (openSocket a s).sendBuffer = s.sendBuffer := by
  unfold openSocket
  split <;> rfl

@[simp] theorem openSocket_sendSize : (openSocket a s).sendSize = s.sendSize := by
  unfold openSocket
  split <;> rfl

@[simp] theorem sendStep_socketId : (sendStep a s).1.socketId = s.socketId := by
  unfold sendStep
  split
  · split <;> rfl
  · rfl

@[simp] theorem sendStep_receiveBuffer : (sendStep a s).1.receiveBuffer = s.receiveBuffer := by
  unfold sendStep
  split
  · split <;> rfl
  · rfl

@[simp] theorem sendStep_receiveSize : (sendStep a s).1.receiveSize = s.receiveSize := by
  unfold sendStep
  split
  · split <;> rfl
  · rfl

@[simp] theorem sendStep_lastCommandReceived :
    (sendStep a s).1.lastCommandReceived = s.lastCommandReceived := by
  unfold sendStep
  split
  · split <;> rfl
  · rfl

@[simp] theorem sendStep_sendBuffer : (sendStep a s).1.sendBuffer = s.sendBuffer := by
  unfold sendStep
  split
  · split <;> rfl
  · rfl

/-- After the send step nothing waits in the send buffer. -/
@[simp] theorem sendStep_sendSize : (sendStep a s).1.sendSize = 0 := by
  unfold sendStep
  split
  · split <;> rfl
  · simp only
    omega

/-- The receive step changes the receive side, the receive timestamp and
`socket_open`, and nothing else. -/
theorem receiveStep_eq : ∃ b n t o, (receiveStep a s).1 =
    { s with receiveBuffer := b, receiveSize := n, lastCommandReceived := t, socketOpen := o } := by
  unfold receiveStep
  split
  · split
    · split
      · exact ⟨_, _, _, _, rfl⟩
      · split <;> exact ⟨_, _, _, _, rfl⟩
    · exact ⟨_, _, _, _, rfl⟩
  · split <;> exact ⟨_, _, _, _, rfl⟩

@[simp] theorem receiveStep_socketId : (receiveStep a s).1.socketId = s.socketId := by
  obtain ⟨b, n, t, o, h⟩ := receiveStep_eq a s
  rw [h]

@[simp] theorem receiveStep_sendBuffer : (receiveStep a s).1.sendBuffer = s.sendBuffer := by
  obtain ⟨b, n, t, o, h⟩ := receiveStep_eq a s
  rw [h]

@[simp] theorem receiveStep_sendSize : (receiveStep a s).1.sendSize = s.sendSize := by
  obtain ⟨b, n, t, o, h⟩ := receiveStep_eq a s
  rw [h]

@[simp] theorem receiveStep_lastCommandSend :
    (receiveStep a s).1.lastCommandSend = s.lastCommandSend := by
  obtain ⟨b, n, t, o, h⟩ := receiveStep_eq a s
  rw [h]

/-- The drain loop changes the receive side and nothing else. -/
theorem drainReceive_eq_receive :
    ∃ b n, (drainReceive s m).1 = { s with receiveBuffer := b, receiveSize := n } := by
  rcases front_cases s with hmiss | ⟨f, rest, hfront, hf, h0⟩
  · rw [drainReceive_missed m hmiss]
    exact ⟨s.receiveBuffer, s.receiveSize, rfl⟩
  · rw [drainReceive_found m hfront hf h0]
    exact ⟨_, _, rfl⟩

@[simp] theorem drainReceive_socketId : (drainReceive s m).1.socketId = s.socketId := by
  obtain ⟨b, n, h⟩ := drainReceive_eq_receive m s
  rw [h]

@[simp] theorem drainReceive_socketOpen : (drainReceive s m).1.socketOpen = s.socketOpen := by
  obtain ⟨b, n, h⟩ := drainReceive_eq_receive m s
  rw [h]

@[simp] theorem drainReceive_sendBuffer : (drainReceive s m).1.sendBuffer = s.sendBuffer := by
  obtain ⟨b, n, h⟩ := drainReceive_eq_receive m s
  rw [h]

@[simp] theorem drainReceive_sendSize : (drainReceive s m).1.sendSize = s.sendSize := by
  obtain ⟨b, n, h⟩ := drainReceive_eq_receive m s
  rw [h]

@[simp] theorem drainReceive_lastCommandReceived :
    (drainReceive s m).1.lastCommandReceived = s.lastCommandReceived := by
  obtain ⟨b, n, h⟩ := drainReceive_eq_receive m s
  rw [h]

@[simp] theorem drainReceive_lastCommandSend :
    (drainReceive s m).1.lastCommandSend = s.lastCommandSend := by
  obtain ⟨b, n, h⟩ := drainReceive_eq_receive m s
  rw [h]

/-- What `server_loop` does to the receive side: bytes are read, or a new
round of listening clears the count, or nothing happens. -/
theorem serverLoop_receive :
    (a.sr = .established ∧ a.rxRsr > 0 ∧ (serverLoop a s).1.receiveBuffer = s.read a ∧
      (serverLoop a s).1.receiveSize =
        if a.recv.ret = a.rxRsr then addU16 s.receiveSize a.rxRsr else s.receiveSize) ∨
    (a.sr = .init ∧ (serverLoop a s).1.receiveBuffer = s.receiveBuffer ∧
      (serverLoop a s).1.receiveSize = 0) ∨
    (a.sr ≠ .init ∧ ¬ (a.sr = .established ∧ a.rxRsr > 0) ∧
      (serverLoop a s).1.receiveBuffer = s.receiveBuffer ∧
      (serverLoop a s).1.receiveSize = s.receiveSize) := by
  cases hsr : a.sr with
  | established =>
    have hread : (openSocket a s).read a = s.read a := by simp [SocketData.read]
    obtain ⟨hrx, hret, h⟩ | ⟨hrx, hret, -, h⟩ | ⟨hrx, hret, h⟩ | ⟨hrx, hret, h⟩ | ⟨hrx, -, h⟩ |
        ⟨hrx, -, h⟩ := receiveStep_cases a (openSocket a s)
    · refine Or.inl ⟨rfl, hrx, ?_, ?_⟩ <;> simp [serverLoop, hsr, h, hread, hret]
    · refine Or.inl ⟨rfl, hrx, ?_, ?_⟩ <;> simp [serverLoop, hsr, h, hread, hret]
    · have hne : ¬ a.recv.ret = a.rxRsr := by omega
      refine Or.inl ⟨rfl, hrx, ?_, ?_⟩ <;> simp [serverLoop, hsr, h, hread, hne]
    · have hne : ¬ a.recv.ret = a.rxRsr := by omega
      refine Or.inl ⟨rfl, hrx, ?_, ?_⟩ <;> simp [serverLoop, hsr, h, hread, hne]
    · refine Or.inr (Or.inr ⟨by decide, by omega, ?_, ?_⟩) <;> simp [serverLoop, hsr, h]
    · refine Or.inr (Or.inr ⟨by decide, by omega, ?_, ?_⟩) <;> simp [serverLoop, hsr, h]
  | init => exact Or.inr (Or.inl ⟨rfl, by simp [serverLoop, hsr]⟩)
  | closeWait => exact Or.inr (Or.inr ⟨by decide, by simp, by simp [serverLoop, hsr]⟩)
  | closed =>
    refine Or.inr (Or.inr ⟨by decide, by simp, ?_, ?_⟩)
    · simp only [serverLoop, hsr]
      split <;> rfl
    · simp only [serverLoop, hsr]
      split <;> rfl
  | other => exact Or.inr (Or.inr ⟨by decide, by simp, by simp [serverLoop, hsr]⟩)

/-- What its steps keep `server_loop` keeps. -/
theorem serverLoop_keeps {β : Type*} (f : SocketData → β) (hopen : f (openSocket a s) = f s)
    (hreceive : ∀ s, f (receiveStep a s).1 = f s) (hsend : ∀ s, f (sendStep a s).1 = f s)
    (hclose : f { s with socketOpen := false } = f s)
    (hlisten : f { s with sendSize := 0, receiveSize := 0 } = f s) :
    f (serverLoop a s).1 = f s := by
  have hreceived : f (receiveStep a (openSocket a s)).1 = f s := (hreceive _).trans hopen
  cases hsr : a.sr with
  | established =>
    simp only [serverLoop, hsr]
    split
    · exact (hsend _).trans hreceived
    · exact hreceived
  | closeWait =>
    simp only [serverLoop, hsr]
    exact hclose
  | closed =>
    simp only [serverLoop, hsr]
    split
    · exact hclose
    · rfl
  | init =>
    simp only [serverLoop, hsr]
    exact hlisten
  | other => simp only [serverLoop, hsr]

/-- `server_loop` keeps the socket's id. -/
@[simp] theorem serverLoop_socketId : (serverLoop a s).1.socketId = s.socketId :=
  serverLoop_keeps a s SocketData.socketId (by simp) (by simp) (by simp) rfl rfl

/-- `server_loop` never writes the send buffer. -/
@[simp] theorem serverLoop_sendBuffer : (serverLoop a s).1.sendBuffer = s.sendBuffer :=
  serverLoop_keeps a s SocketData.sendBuffer (by simp) (by simp) (by simp) rfl rfl

end Frame

/-! ## The body -/

theorem serverBody_fst (m : Message) (a : Answers) (s : SocketData) :
    (serverBody m a s).1 =
      if (serverLoop a (fillSendBuffer m a s)).1.socketOpen then
        (drainReceive (serverLoop a (fillSendBuffer m a s)).1 a.receivedMessage).1
      else (serverLoop a (fillSendBuffer m a s)).1 := by
  unfold serverBody
  simp only
  split <;> rfl

theorem serverBody_calls (m : Message) (a : Answers) (s : SocketData) :
    (serverBody m a s).2.1 = (serverLoop a (fillSendBuffer m a s)).2 := by
  unfold serverBody
  simp only
  split <;> rfl

theorem serverBody_messages (m : Message) (a : Answers) (s : SocketData) :
    (serverBody m a s).2.2 =
      if (serverLoop a (fillSendBuffer m a s)).1.socketOpen then
        (drainReceive (serverLoop a (fillSendBuffer m a s)).1 a.receivedMessage).2
      else [] := by
  unfold serverBody
  simp only
  split <;> rfl

/-- The messages of a body are commands of the parser, from its socket. -/
theorem mem_serverBody_messages {m : Message} {a : Answers} {s : SocketData} {r : Message}
    (h : r ∈ (serverBody m a s).2.2) : r.IsCommand ∧ r.client = s.socketId := by
  have hcommands : ∀ c ∈ commands, ∀ sn, Queued (c.message sn) → (c.message sn).IsCommand := by
    simp only [commands, List.forall_mem_cons]
    simp [Command.message, Message.IsCommand, Queued]
  have hdrain : ∀ s' : SocketData, r ∈ (drainReceive s' a.receivedMessage).2 →
      r.IsCommand ∧ r.client = s'.socketId := by
    intro s' hr
    rcases front_cases s' with hmiss | ⟨f, rest, hfront, hf, h0⟩
    · simp [drainReceive_missed _ hmiss] at hr
    · rw [drainReceive_found _ hfront hf h0] at hr
      cases hl : lookup f with
      | none => simp [hl] at hr
      | some c =>
        simp only [hl, Option.map_some, Option.toList_some, List.mem_filter, List.mem_singleton,
          decide_eq_true_eq] at hr
        obtain ⟨rfl, hq⟩ := hr
        exact ⟨hcommands c (lookup_mem hl).1 _ hq, rfl⟩
  rw [serverBody_messages] at h
  split at h
  · simpa using hdrain _ h
  · simp at h

@[simp] theorem serverBody_socketId (m : Message) (a : Answers) (s : SocketData) :
    (serverBody m a s).1.socketId = s.socketId := by
  rw [serverBody_fst]
  split <;> simp

/-- The drain loop neither opens nor closes the socket. -/
theorem serverBody_socketOpen (m : Message) (a : Answers) (s : SocketData) :
    (serverBody m a s).1.socketOpen = (serverLoop a (fillSendBuffer m a s)).1.socketOpen := by
  rw [serverBody_fst]
  split
  · simp
  · rfl

end VentControl.Server
