/-
VentControl.Server.CloseTheorems — the commands of a client that sends
them and closes its side.

The chip keeps what the client sent, also after the client has closed its
side. `server_loop` reads it while it finds SOCK_ESTABLISHED. On
SOCK_CLOSE_WAIT it closes the socket at once, and what has not been read
by then is gone. So which of the last commands are executed depends on
when the server looked (`commands_read_are_queued`); a command followed at
once by the close is lost (`last_command_lost`).

`Peer` puts one connection together from both sides: the client sends
frames and closes, in segments that the chip keeps apart here so that a
body can be required to read them one by one; a body reads the status, and
then the bytes, as the chip has them.
-/
import VentControl.Server.FramingTheorems

namespace VentControl.Server

open Runs Framing CString

/-! ## Both sides of a connection -/

/-- A frame that fits into the receive buffer with its end character. -/
abbrev Frame : Type := { f : List UInt8 // hash ∉ f ∧ 0 ∉ f ∧ f.length < bufferSize }

/-- A connection: the server's socket, and the chip, which holds the frames
that are `unread` and whether the client has closed its side. `sent` and
`read` are the frames the client has sent and the server has read;
`closed` is set when the server has closed its side too. -/
structure Peer where
  socket : SocketData
  sent : List Frame
  read : List Frame
  unread : List Frame
  fin : Bool
  closed : Bool

/-- What happens on a connection: the client sends a frame, in a segment of
its own; it closes its side; the server runs the body of its loop. -/
inductive PeerEvent
  | segment (f : Frame)
  | fin
  | body (m : Message) (a : Answers)

/-- The bytes of a segment. -/
def Frame.bytes (f : Frame) : List UInt8 := f.val ++ [hash]

/-- The bytes in the chip's receive memory. -/
def Peer.rx (p : Peer) : List UInt8 := p.unread.flatMap Frame.bytes

/-- The chip answers for the connection; the rest of the answers is open. -/
def Peer.answers (p : Peer) (a : Answers) : Answers :=
  { a with
    sr := if p.fin then .closeWait else .established
    rxRsr := p.rx.length
    recv := .stored p.rx }

/-- A socket that listens, as SOCK_INIT leaves it, when a client connects. -/
def Peer.start (s₀ : SocketData) : Peer where
  socket := { s₀ with sendSize := 0, receiveSize := 0 }
  sent := []
  read := []
  unread := []
  fin := false
  closed := false

/-- One event, with what it puts on `receive_queue`. The client sends
nothing after it has closed its side, and the server is done with a
connection that it has closed. -/
def Peer.step (p : Peer) : PeerEvent → Peer × List Message
  | .segment f =>
    if p.fin then (p, []) else ({ p with sent := p.sent ++ [f], unread := p.unread ++ [f] }, [])
  | .fin => ({ p with fin := true }, [])
  | .body m a =>
    let (s, _, messages) := serverBody m (p.answers a) p.socket
    if p.closed then (p, [])
    else if p.fin then ({ p with socket := s, closed := true }, messages)
    else ({ p with socket := s, read := p.read ++ p.unread, unread := [] }, messages)

/-- The connection as a machine; its outputs are the messages put on
`receive_queue`. -/
def peer (s₀ : SocketData) : Mealy Peer PeerEvent Message where
  init := .start s₀
  step := Peer.step

/-- The messages of a list of frames. -/
def messagesOf (sn : Nat) (fs : List Frame) : List Message :=
  fs.filterMap fun f => frameMessage sn f.val

/-- While the client has not closed its side, the server does not close the
connection on its own: no `send` fails, and there is no timeout. And it
finds at most one segment when it reads. -/
def Undisturbed (p : Peer) : PeerEvent → Prop
  | .body _ a =>
    p.fin = false → p.unread.length ≤ 1 ∧ 0 ≤ a.sendRet ∧
      (p.unread = [] →
        ¬ elapsed (timeUs64 a.timeReceive) (openSocket a p.socket).lastCommandReceived > timeoutUs)
  | _ => True

instance (p : Peer) (e : PeerEvent) : Decidable (Undisturbed p e) := by
  unfold Undisturbed
  split <;> infer_instance

/-! ## One body -/

/-- The send step leaves an open socket open when `send` does not fail. -/
theorem sendStep_open {a : Answers} {s : SocketData} (hopen : s.socketOpen = true)
    (hsend : 0 ≤ a.sendRet) : (sendStep a s).1.socketOpen = true := by
  obtain ⟨-, h⟩ | ⟨-, -, h⟩ | ⟨-, hfail, -⟩ := sendStep_cases a s
  · rw [h, hopen]
  · rw [h]
    exact hopen
  · omega

/-- So does `server_loop`, when all bytes are read and there is no
timeout. -/
theorem serverLoop_open {a : Answers} {s : SocketData} (hsr : a.sr = .established)
    (hrecv : a.rxRsr > 0 → a.recv.ret = a.rxRsr) (hsend : 0 ≤ a.sendRet)
    (htime : a.rxRsr = 0 →
      ¬ elapsed (timeUs64 a.timeReceive) (openSocket a s).lastCommandReceived > timeoutUs) :
    (serverLoop a s).1.socketOpen = true := by
  have hopen := openSocket_socketOpen a s
  have hloop : ∀ s₁ cs, receiveStep a (openSocket a s) = (s₁, cs, true) →
      (serverLoop a s).1 = (sendStep a s₁).1 := fun s₁ cs h => by simp [serverLoop, hsr, h]
  obtain ⟨-, -, h⟩ | ⟨hrx, hret, -, -⟩ | ⟨hrx, hret, -⟩ | ⟨hrx, hret, -⟩ | ⟨hrx, hto, -⟩ |
    ⟨-, -, h⟩ := receiveStep_cases a (openSocket a s)
  · rw [hloop _ _ h]
    exact sendStep_open hopen hsend
  · exact absurd (hrecv hrx) hret
  · have := hrecv hrx
    omega
  · have := hrecv hrx
    omega
  · exact absurd hto (htime hrx)
  · rw [hloop _ _ h]
    exact sendStep_open hopen hsend

theorem openSocket_lastCommandReceived (a : Answers) (s : SocketData) :
    (openSocket a s).lastCommandReceived =
      if s.socketOpen then s.lastCommandReceived else timeUs64 a.timeOpenReceived := by
  unfold openSocket
  split <;> rfl

theorem length_bytes (f : Frame) : f.bytes.length ≤ bufferSize := by
  have hlt := f.property.2.2
  simp only [Frame.bytes, List.length_append, List.length_singleton]
  omega

theorem rx_eq_nil {p : Peer} : p.rx = [] ↔ p.unread = [] := by
  constructor
  · intro h
    refine List.eq_nil_iff_forall_not_mem.mpr fun f hf => ?_
    have hnil := List.flatMap_eq_nil_iff.mp h f hf
    simp [Frame.bytes] at hnil
  · intro h
    simp [Peer.rx, h]

/-- A body of an undisturbed connection reads all there is. -/
theorem Undisturbed.streams {p : Peer} {m : Message} {a : Answers}
    (h : Undisturbed p (.body m a)) (hfin : p.fin = false) :
    Streams p.socket ⟨m, p.answers a⟩ := by
  obtain ⟨hone, hsend, htime⟩ := h hfin
  have hsr : (p.answers a).sr = .established := by simp [Peer.answers, hfin]
  have hrecv : (p.answers a).recv.ret = (p.answers a).rxRsr := rfl
  have hempty : (p.answers a).rxRsr = 0 → p.unread = [] := fun hrx =>
    rx_eq_nil.mp (List.length_eq_zero_iff.mp hrx)
  refine ⟨hsr, fun _ => hrecv, ?_, ?_⟩
  · show p.rx.length ≤ bufferSize
    match hu : p.unread, hone with
    | [], _ => simp [Peer.rx, hu]
    | [f], _ => simpa [Peer.rx, hu] using length_bytes f
  · rw [serverBody_socketOpen]
    refine serverLoop_open hsr (fun _ => hrecv) hsend fun hrx => ?_
    have hno := htime (hempty hrx)
    rw [openSocket_lastCommandReceived] at hno ⊢
    simpa [Peer.answers] using hno

theorem chunk_answers (p : Peer) (m : Message) (a : Answers) :
    (Body.mk m (p.answers a)).chunk = p.rx := by
  unfold Body.chunk
  split
  · rfl
  · next hrx =>
    have hzero : p.rx.length = 0 := by
      simp only [Peer.answers] at hrx
      omega
    rw [List.length_eq_zero_iff.mp hzero]

/-- A taken frame leaves at most one byte. -/
theorem took_receiveSize_le (s : SocketData) (f : List UInt8) : (s.took f).receiveSize ≤ 1 := by
  show ((lookup f).map Command.receiveSize).getD 0 ≤ 1
  cases hl : lookup f with
  | none => exact Nat.zero_le 1
  | some c => exact (commands_receiveSize c (lookup_mem hl).1).1

/-- A body that reads one frame takes it. -/
theorem Streams.receiveSize_of_frame {s : SocketData} {i : Body} (h : Streams s i)
    (hsize : s.receiveSize ≤ 1) {f : List UInt8} (hchunk : i.chunk = f ++ [hash]) (hf : hash ∉ f)
    (h0 : 0 ∉ f) : (serverBody i.message i.answers s).1.receiveSize ≤ 1 := by
  obtain ⟨z, -, hfront⟩ := h.front (by simp [hchunk]) hsize
  have hcut : (serverLoop i.answers (fillSendBuffer i.message i.answers s)).1.front =
      f ++ hash :: z := by
    rw [hfront, hchunk]
    simp
  rw [h.messages.2, drainReceive_found _ hcut hf h0]
  exact took_receiveSize_le _ f

/-- A body that reads nothing leaves what was there. -/
theorem Streams.receiveSize_of_nil {s : SocketData} {i : Body} (h : Streams s i)
    (hchunk : i.chunk = []) (hno : s.NoFrame) :
    (serverBody i.message i.answers s).1.receiveSize = s.receiveSize := by
  obtain ⟨hbuf, hsize⟩ := h.receive_side.1 hchunk
  have hmiss : (serverLoop i.answers (fillSendBuffer i.message i.answers s)).1.NoFrame :=
    fun p q hpq => hno p q (by simpa only [SocketData.front, hbuf, hsize] using hpq)
  rw [h.messages.2, drainReceive_missed _ hmiss, hsize]

/-- What a body that reads one segment, or none, does: it puts the
segment's message on the queue, and leaves at most one byte and no frame. -/
theorem body_undisturbed {p : Peer} {m : Message} {a : Answers} (h : Undisturbed p (.body m a))
    (hfin : p.fin = false) (hsize : p.socket.receiveSize ≤ 1) (hno : p.socket.NoFrame) :
    (serverBody m (p.answers a) p.socket).2.2 = messagesOf p.socket.socketId p.unread ∧
      (serverBody m (p.answers a) p.socket).1.receiveSize ≤ 1 ∧
      (serverBody m (p.answers a) p.socket).1.NoFrame := by
  have hstreams := h.streams hfin
  have hchunk := chunk_answers p m a
  refine ⟨?_, ?_, hstreams.noFrame⟩
  · match hu : p.unread, (h hfin).1 with
    | [], _ =>
      have hnil : p.rx = [] := rx_eq_nil.mpr hu
      exact hstreams.idle (hchunk.trans hnil) hno
    | [f], _ =>
      have hrx : p.rx = f.val ++ [hash] := by simp [Peer.rx, hu, Frame.bytes]
      have hframes : frames hash (f.val ++ [hash]) = [f.val] := by
        rw [frames, parse_frame hash f.property.1]
        rfl
      have hone : OneCommand p.socket.socketId p.socket [] ⟨m, p.answers a⟩ :=
        ⟨hsize, rfl, by rw [hchunk, hrx, hframes]; simp⟩
      have hmessages := messages_of_oneCommand hstreams (by simp [hchunk, hrx]) hone
      rw [hchunk, hrx, hframes] at hmessages
      simpa [messagesOf] using hmessages
  · match hu : p.unread, (h hfin).1 with
    | [], _ =>
      have hsame := hstreams.receiveSize_of_nil (hchunk.trans (rx_eq_nil.mpr hu)) hno
      exact hsame.symm ▸ hsize
    | [f], _ =>
      have hrx : p.rx = f.val ++ [hash] := by simp [Peer.rx, hu, Frame.bytes]
      exact hstreams.receiveSize_of_frame hsize (hchunk.trans hrx) f.property.1 f.property.2.1

/-! ## Whole connections -/

/-- **The invariant.** -/
structure Peer.Told (sn : Nat) (p : Peer) (queued : List Message) : Prop where
  socketId : p.socket.socketId = sn
  size : p.closed = false → p.socket.receiveSize ≤ 1
  noFrame : p.closed = false → p.socket.NoFrame
  queued : queued = messagesOf sn p.read
  sent : p.sent = p.read ++ p.unread
  closed : p.closed = true → p.fin = true

theorem told_start (s₀ : SocketData) : (Peer.start s₀).Told s₀.socketId [] where
  socketId := rfl
  size := fun _ => Nat.zero_le 1
  noFrame := fun _ => noFrame_of_receiveSize rfl
  queued := rfl
  sent := rfl
  closed := fun h => by simp [Peer.start] at h

theorem messagesOf_append (sn : Nat) (fs gs : List Frame) :
    messagesOf sn (fs ++ gs) = messagesOf sn fs ++ messagesOf sn gs :=
  List.filterMap_append

/-- On SOCK_CLOSE_WAIT the socket is closed and nothing is read. -/
theorem serverBody_closeWait {m : Message} {a : Answers} {s : SocketData}
    (hsr : a.sr = .closeWait) : (serverBody m a s).2.2 = [] := by
  rw [serverBody_messages, if_neg]
  simp [serverLoop, hsr]

/-- **Step lemma.** -/
theorem Peer.Told.step {sn : Nat} {p : Peer} {queued : List Message} (h : p.Told sn queued)
    {e : PeerEvent} (he : Undisturbed p e) :
    (p.step e).1.Told sn (queued ++ (p.step e).2) := by
  cases e with
  | segment f =>
    simp only [Peer.step]
    split
    · simpa using h
    · exact { h with
        queued := by simpa using h.queued
        sent := by simp [h.sent] }
  | fin =>
    exact ⟨h.socketId, h.size, h.noFrame, by simpa [Peer.step] using h.queued, h.sent,
      fun _ => rfl⟩
  | body m a =>
    simp only [Peer.step]
    split
    · simpa using h
    · next hclosed =>
      have hnot : p.closed = false := by simpa using hclosed
      split
      · next hfin =>
        -- the unread frames stay unread
        have hnone : (serverBody m (p.answers a) p.socket).2.2 = [] :=
          serverBody_closeWait (by simp [Peer.answers, hfin])
        exact {
          socketId := by simpa using h.socketId
          size := fun hc => by simp at hc
          noFrame := fun hc => by simp at hc
          queued := by simpa [hnone] using h.queued
          sent := h.sent
          closed := fun _ => hfin }
      · next hfin =>
        obtain ⟨hmessages, hsize, hno⟩ :=
          body_undisturbed he (by simpa using hfin) (h.size hnot) (h.noFrame hnot)
        exact {
          socketId := by simpa using h.socketId
          size := fun _ => hsize
          noFrame := fun _ => hno
          queued := by rw [hmessages, h.socketId, messagesOf_append, h.queued]
          sent := by simp [h.sent]
          closed := fun hc => absurd hc hclosed }

/-- **The commands that are queued are those that were read** while the
status was SOCK_ESTABLISHED. In every undisturbed run, what the client has
sent is what was read, then what was not; the messages on `receive_queue`
are those of the first part; so they are those of all that was sent exactly
if no message is among what was not read. -/
theorem commands_read_are_queued (s₀ : SocketData) (es : List PeerEvent)
    (h : (peer s₀).Along Undisturbed es) :
    ((peer s₀).run es).sent = ((peer s₀).run es).read ++ ((peer s₀).run es).unread ∧
      (peer s₀).trace es = messagesOf s₀.socketId ((peer s₀).run es).read ∧
      ((peer s₀).trace es = messagesOf s₀.socketId ((peer s₀).run es).sent ↔
        messagesOf s₀.socketId ((peer s₀).run es).unread = []) := by
  have htold : ((peer s₀).run es).Told s₀.socketId ((peer s₀).trace es) := by
    refine EachStep.induct (I := fun es =>
      ((peer s₀).run es).Told s₀.socketId ((peer s₀).trace es)) (told_start s₀) ?_ es h
    intro es e hes he
    rw [Mealy.run_concat, Mealy.trace_concat]
    exact hes.step he
  refine ⟨htold.sent, htold.queued, ?_⟩
  rw [htold.sent, messagesOf_append, ← htold.queued]
  exact List.self_eq_append_right

/-- The frame of a command. -/
def set1 : Frame := ⟨ascii ['S', 'E', 'T', '1'], by decide⟩

/-- A client connects, sends a command, and closes its side; `between` is
what the server does before it learns of that. -/
def commandThenClose (between : List PeerEvent) : List PeerEvent :=
  let look : PeerEvent := .body noMessage (.status .other 0 0)
  look :: .segment set1 :: between ++ [.fin, look]

theorem commands_read_are_queued_inTime :
    (peer .fresh).trace (commandThenClose [.body noMessage (.status .other 0 0)]) =
      messagesOf 1 ((peer .fresh).run
        (commandThenClose [.body noMessage (.status .other 0 0)])).sent :=
  (commands_read_are_queued .fresh _ (by decide +kernel)).2.2.mpr (by decide +kernel)

/-- The server looks too late: the socket is closed, and the command was
never put on the queue. -/
theorem last_command_lost :
    ((peer .fresh).run (commandThenClose [])).closed = true ∧
      messagesOf 1 ((peer .fresh).run (commandThenClose [])).sent = [⟨1, 1, .setSpeed⟩] ∧
      (peer .fresh).trace (commandThenClose []) = [] := by
  decide +kernel

end VentControl.Server
