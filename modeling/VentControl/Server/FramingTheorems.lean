/-
VentControl.Server.FramingTheorems — the commands of one connection
against the byte stream the client sent.

The reference is the stream cut at every `'#'`, whatever the pieces it
arrived in: `referenceMessages`. The server reads one piece in each body
of its serving loop, into the front of the receive buffer, and takes one
frame out of it.

So the two agree on a run in which every piece starts at a frame boundary
and only its first frame is a command (`OneCommand`), and they do not
agree in general: what follows the first frame of a piece is dropped
(`receive_size` is set to 0, although the caller loops for more), and a
piece that continues a frame overwrites the part that came before (`recv`
writes to the front, although `memset` and `receive_size` count on from
there). `stream_framing` is the first half, `stream_framing_fails` shows
both defects.
-/
import VentControl.Lib.Run
import VentControl.Lib.Framing
import VentControl.Server.SocketTheorems

namespace VentControl.Server

open Runs Framing CString

/-! ## The reference -/

/-- The message of a frame, for the seven commands that have one; a
heartbeat and an unrecognised frame have none. -/
def frameMessage (sn : Nat) (f : List UInt8) : Option Message :=
  if f = ascii ['G', 'E', 'T'] then some ⟨sn, 0, .getStatus⟩
  else if f = ascii ['S', 'E', 'T', '0'] then some ⟨sn, 0, .setSpeed⟩
  else if f = ascii ['S', 'E', 'T', '1'] then some ⟨sn, 1, .setSpeed⟩
  else if f = ascii ['S', 'E', 'T', '2'] then some ⟨sn, 2, .setSpeed⟩
  else if f = ascii ['S', 'E', 'T', '3'] then some ⟨sn, 3, .setSpeed⟩
  else if f = ascii ['V', 'A', 'K', '0'] then some ⟨sn, 0, .setVakantie⟩
  else if f = ascii ['V', 'A', 'K', '1'] then some ⟨sn, 1, .setVakantie⟩
  else none

/-- The messages of a stream: cut it at every `'#'` and map the frames. -/
def referenceMessages (sn : Nat) (stream : List UInt8) : List Message :=
  (frames hash stream).filterMap (frameMessage sn)

/-- It is the library's cut of the stream, without the last part, which no
`'#'` ends. -/
theorem referenceMessages_eq_splitOn (sn : Nat) (stream : List UInt8) :
    referenceMessages sn stream =
      (stream.splitOn hash).dropLast.filterMap (frameMessage sn) := by
  rw [referenceMessages, ← parse_eq_splitOn, List.dropLast_concat]

/-! ## The connection -/

/-- What one body of the serving loop is run with: what `send_message`
holds, and what the chip answers. -/
structure Body where
  message : Message
  answers : Answers
  deriving DecidableEq, Repr

/-- One socket under body after body, as `server_task` runs it between two
starts (`connection_task`): the outputs are the messages put on
`receive_queue`. -/
def connection (s₀ : SocketData) : Mealy SocketData Body Message where
  init := s₀
  step s i := ((serverBody i.message i.answers s).1, (serverBody i.message i.answers s).2.2)

/-- The bytes a body reads. -/
def Body.chunk (i : Body) : List UInt8 :=
  if i.answers.rxRsr > 0 then i.answers.recv.data else []

/-- The bytes a run reads. -/
def streamOf (is : List Body) : List UInt8 := is.flatMap Body.chunk

/-- A body of a connection that stays up: the status is SOCK_ESTABLISHED
and the socket stays open, and `recv` returns exactly the size read, which
is at most the size of the buffer. -/
structure Streams (s : SocketData) (i : Body) : Prop where
  sr : i.answers.sr = .established
  recv : i.answers.rxRsr > 0 → i.answers.recv.ret = i.answers.rxRsr
  size : i.answers.rxRsr ≤ bufferSize
  opened : (serverBody i.message i.answers s).1.socketOpen = true

/-- The condition on a piece, when `before` is the stream so far: it is
read with nothing waiting in the buffer (but for the byte that `VAK1`
leaves), it starts at a frame boundary, and after its first frame it has
no further command. -/
structure OneCommand (sn : Nat) (s : SocketData) (before : List UInt8) (i : Body) : Prop where
  empty : s.receiveSize ≤ 1
  boundary : tail hash before = []
  silent : ∀ f ∈ (frames hash i.chunk).tail, frameMessage sn f = none

/-! ## The reference, frame by frame -/

/-- The commands of the parser have the reference's messages, and the
heartbeat has none. -/
theorem frameMessage_command (sn : Nat) : ∀ c ∈ commands,
    (frameMessage sn (ascii c.text)).toList = [c.message sn].filter (Queued ·) := by
  simp only [commands, List.forall_mem_cons, List.not_mem_nil, false_implies, implies_true,
    and_true]
  refine ⟨rfl, rfl, rfl, rfl, rfl, rfl, rfl, rfl⟩

/-- A frame that no command has as its text has no message. -/
theorem frameMessage_of_lookup_none {sn : Nat} {f : List UInt8} (h : lookup f = none) :
    frameMessage sn f = none := by
  have hne : ∀ c ∈ commands, f ≠ ascii c.text := by
    simpa [lookup] using h
  simp only [commands, List.forall_mem_cons, List.not_mem_nil, false_implies, implies_true,
    and_true] at hne
  obtain ⟨h1, h2, h3, h4, h5, h6, h7, -⟩ := hne
  simp only [frameMessage, h1, h2, h3, h4, h5, h6, h7, if_false]

/-- The reference message of a frame is the message of the command the
parser looks up, heartbeats dropped. -/
theorem frameMessage_eq_lookup (sn : Nat) (f : List UInt8) :
    (frameMessage sn f).toList =
      ((lookup f).map (·.message sn)).toList.filter (Queued ·) := by
  cases h : lookup f with
  | none => simp [frameMessage_of_lookup_none h]
  | some c =>
    obtain ⟨hmem, rfl⟩ := lookup_mem h
    simpa using frameMessage_command sn c hmem

/-- A frame with a NUL in it has no message. -/
theorem frameMessage_of_nul {sn : Nat} {f : List UInt8} (h0 : 0 ∈ f) :
    frameMessage sn f = none := by
  refine frameMessage_of_lookup_none ?_
  by_contra hne
  obtain ⟨c, hc⟩ := Option.ne_none_iff_exists'.mp hne
  obtain ⟨hmem, rfl⟩ := lookup_mem hc
  have hno : ∀ c ∈ commands, 0 ∉ ascii c.text := by decide
  exact hno c hmem h0

/-! ## One body -/

/-- What reading a piece into a buffer with at most one byte waiting leaves
at the front: the piece, and perhaps a NUL. -/
theorem front_store {b : Buffer} {r : Nat} {c : List UInt8} (hr : r ≤ 1) (hc : c ≠ [])
    (hlen : c.length ≤ bufferSize) :
    ∃ z, (∀ x ∈ z, x = 0) ∧
      ((b.store r (List.replicate bufferSize 0)).store 0 c).bytes.take (addU16 r c.length) =
        c ++ z := by
  have hpos : 0 < c.length := List.length_pos_iff.mpr hc
  have hsize : bufferSize = 128 := rfl
  have hzero : (b.store r (List.replicate bufferSize 0)).bytes =
      b.bytes.take r ++ List.replicate (bufferSize - r) 0 := by
    simp only [Buffer.store]
    rw [storeAt_zeros (by rw [b.size_eq]; omega), b.size_eq]
  have hst : ((b.store r (List.replicate bufferSize 0)).store 0 c).bytes =
      c ++ List.replicate (bufferSize - c.length) 0 := by
    show storeAt _ 0 c = _
    rw [storeAt_zero (by rw [Buffer.size_eq]; exact hlen), hzero]
    congr 1
    -- the piece covers the byte that was waiting
    rw [List.drop_append, List.drop_eq_nil_of_le (by rw [List.length_take]; omega),
      List.nil_append, List.drop_replicate, List.length_take, b.size_eq]
    congr 1
    omega
  refine ⟨(List.replicate (bufferSize - c.length) 0).take r, fun x hx => ?_, ?_⟩
  · exact List.eq_of_mem_replicate (List.mem_of_mem_take hx)
  · rw [hst, addU16, Nat.mod_eq_of_lt (by omega), Nat.add_comm r, List.take_length_add_append]

/-- The piece a body of an undisturbed connection reads is what `recv`
stored, all of it. -/
theorem Streams.chunk_length {s : SocketData} {i : Body} (h : Streams s i) :
    i.chunk.length = i.answers.rxRsr := by
  unfold Body.chunk
  split
  · next hpos =>
    have hret := h.recv hpos
    cases hr : i.answers.recv with
    | stored data =>
      rw [hr] at hret
      simp only [RecvResult.ret] at hret
      simp only [RecvResult.data]
      omega
    | error code =>
      rw [hr] at hret
      simp only [RecvResult.ret] at hret
      omega
  · simp only [List.length_nil]
    omega

/-- The receive side of the socket after `server_loop` on an undisturbed
connection. -/
theorem Streams.receive_side {s : SocketData} {i : Body} (h : Streams s i) :
    let s' := (serverLoop i.answers (fillSendBuffer i.message i.answers s)).1
    (i.chunk = [] → s'.receiveBuffer = s.receiveBuffer ∧ s'.receiveSize = s.receiveSize) ∧
    (i.chunk ≠ [] →
      s'.receiveBuffer =
        (s.receiveBuffer.store s.receiveSize (List.replicate bufferSize 0)).store 0 i.chunk ∧
      s'.receiveSize = addU16 s.receiveSize i.chunk.length) := by
  intro s'
  have hlen := h.chunk_length
  obtain ⟨-, hrx, hbuf, hsize⟩ | ⟨hinit, -⟩ | ⟨-, hno, hbuf, hsize⟩ :=
    serverLoop_receive i.answers (fillSendBuffer i.message i.answers s)
  · have hchunk : i.chunk = i.answers.recv.data := by simp [Body.chunk, hrx]
    have hne : i.chunk ≠ [] := List.ne_nil_of_length_pos (by omega)
    refine ⟨fun he => absurd he hne, fun _ => ⟨?_, ?_⟩⟩
    · rw [hchunk]
      simpa [SocketData.read] using hbuf
    · rw [hlen]
      simpa [h.recv hrx] using hsize
  · exact absurd (h.sr.symm.trans hinit) (by decide)
  · have hrx : ¬ i.answers.rxRsr > 0 := fun hpos => hno ⟨h.sr, hpos⟩
    have hnil : i.chunk = [] := by simp [Body.chunk, hrx]
    exact ⟨fun _ => ⟨by simpa using hbuf, by simpa using hsize⟩, fun hne => absurd hnil hne⟩

/-- The messages of a body of an undisturbed connection are those of the
drain loop. -/
theorem Streams.messages {s : SocketData} {i : Body} (h : Streams s i) :
    (serverBody i.message i.answers s).2.2 =
        (drainReceive (serverLoop i.answers (fillSendBuffer i.message i.answers s)).1
          i.answers.receivedMessage).2 ∧
      (serverBody i.message i.answers s).1 =
        (drainReceive (serverLoop i.answers (fillSendBuffer i.message i.answers s)).1
          i.answers.receivedMessage).1 := by
  have hopen := h.opened
  rw [serverBody_socketOpen] at hopen
  simp only [serverBody_messages, serverBody_fst, hopen, if_true, and_self]

/-- What the parser sees of a piece that was read with at most one byte
waiting: the piece, and perhaps a NUL behind it. -/
theorem Streams.front {s : SocketData} {i : Body} (h : Streams s i) (hne : i.chunk ≠ [])
    (hempty : s.receiveSize ≤ 1) :
    ∃ z, (∀ x ∈ z, x = 0) ∧
      (serverLoop i.answers (fillSendBuffer i.message i.answers s)).1.front = i.chunk ++ z := by
  obtain ⟨hbuf, hsize⟩ := h.receive_side.2 hne
  have hlen : i.chunk.length ≤ bufferSize := h.chunk_length ▸ h.size
  obtain ⟨z, hz, hfront⟩ := front_store hempty hne hlen
  exact ⟨z, hz, by rw [SocketData.front, hbuf, hsize, hfront]⟩

/-- **One piece**: read at a frame boundary with at most one byte waiting,
and with no further command after its first frame, a piece gives the
reference's messages. -/
theorem messages_of_oneCommand {s : SocketData} {i : Body} {before : List UInt8}
    (h : Streams s i) (hne : i.chunk ≠ []) (hone : OneCommand s.socketId s before i) :
    (serverBody i.message i.answers s).2.2 =
      ((frames hash i.chunk).filterMap (frameMessage s.socketId)) := by
  obtain ⟨z, hz, hfr⟩ := h.front hne hone.empty
  rw [h.messages.1]
  set s' := (serverLoop i.answers (fillSendBuffer i.message i.answers s)).1 with hs'
  have hid : s'.socketId = s.socketId := by simp [hs']
  have hzhash : hash ∉ z := fun hm => absurd (hz _ hm) (by decide)
  rcases cut_cases hash i.chunk with hno | ⟨f, rest, hc, hf⟩
  · -- no end character: nothing is found, and the reference has no frame
    have hmiss : s'.NoFrame := by
      intro p q hpq
      have : hash ∈ i.chunk ++ z := by rw [← hfr, hpq]; simp
      rcases List.mem_append.mp this with hm | hm
      · exact absurd hm hno
      · exact absurd hm hzhash
    rw [drainReceive_missed _ hmiss, frames, parse_of_not_mem hash hno]
    rfl
  · have hframes : frames hash i.chunk = f :: frames hash rest := by
      rw [hc, frames, parse_frame hash hf, List.nil_append]
    have hsilent : (frames hash rest).filterMap (frameMessage s.socketId) = [] := by
      rw [List.filterMap_eq_nil_iff]
      intro g hg
      exact hone.silent g (by rw [hframes]; exact hg)
    have hfront' : s'.front = f ++ hash :: (rest ++ z) := by rw [hfr, hc]; simp
    rw [hframes, List.filterMap_cons, hsilent]
    by_cases h0 : 0 ∈ f
    · -- the end character is hidden behind a NUL
      have hmiss : s'.NoFrame := by
        intro p q hpq hp
        rwa [(cut_unique (hpq.symm.trans hfront') hp hf).1]
      rw [drainReceive_missed _ hmiss, frameMessage_of_nul h0]
    · rw [drainReceive_found _ hfront' hf h0, hid, ← frameMessage_eq_lookup]
      cases frameMessage s.socketId f <;> rfl

/-! ## Whole connections -/

/-- A body that reads nothing finds no frame where none was left. -/
theorem Streams.idle {s : SocketData} {i : Body} (h : Streams s i) (hnil : i.chunk = [])
    (hno : s.NoFrame) : (serverBody i.message i.answers s).2.2 = [] := by
  obtain ⟨hbuf, hsize⟩ := h.receive_side.1 hnil
  rw [h.messages.1, drainReceive_missed]
  intro p q hpq
  exact hno p q (by simpa only [SocketData.front, hbuf, hsize] using hpq)

/-- A body leaves no frame behind, whatever it reads. -/
theorem Streams.noFrame {s : SocketData} {i : Body} (h : Streams s i) :
    (serverBody i.message i.answers s).1.NoFrame := by
  rw [h.messages.2]
  exact noFrame_drainReceive _ _

theorem referenceMessages_append (sn : Nat) {before : List UInt8} (c : List UInt8)
    (hb : tail hash before = []) :
    referenceMessages sn (before ++ c) =
      referenceMessages sn before ++ (frames hash c).filterMap (frameMessage sn) := by
  rw [referenceMessages, frames_append, hb, List.filterMap_append]
  rfl

theorem streamOf_concat (is : List Body) (i : Body) :
    streamOf (is ++ [i]) = streamOf is ++ i.chunk := by
  simp [streamOf]

/-- The condition on the step `i` after the steps `h`. -/
def FramedStep (s₀ : SocketData) (h : List Body) (i : Body) : Prop :=
  Streams ((connection s₀).run h) i ∧
    (i.chunk ≠ [] → OneCommand s₀.socketId ((connection s₀).run h) (streamOf h) i)

/-- **Stream framing.** On a connection that starts with an empty receive
buffer and stays up, when every piece starts at a frame boundary and only
its first frame is a command, the messages put on `receive_queue` are the
reference's messages of the whole stream. -/
theorem stream_framing (s₀ : SocketData) (h₀ : s₀.receiveSize = 0) (is : List Body)
    (his : EachStep (FramedStep s₀) is) :
    (connection s₀).trace is = referenceMessages s₀.socketId (streamOf is) := by
  -- between two bodies no frame waits in the buffer
  have key : (connection s₀).trace is = referenceMessages s₀.socketId (streamOf is) ∧
      ((connection s₀).run is).NoFrame ∧ ((connection s₀).run is).socketId = s₀.socketId := by
    refine EachStep.induct (I := fun is =>
      (connection s₀).trace is = referenceMessages s₀.socketId (streamOf is) ∧
      ((connection s₀).run is).NoFrame ∧ ((connection s₀).run is).socketId = s₀.socketId)
      ⟨rfl, noFrame_of_receiveSize h₀, rfl⟩ ?_ is his
    intro h i hinv hstep
    obtain ⟨htrace, hno, hid⟩ := hinv
    obtain ⟨hstreams, hone⟩ := hstep
    rw [Mealy.trace_concat, Mealy.run_concat, streamOf_concat, htrace]
    refine ⟨?_, hstreams.noFrame, by simp [connection, ← hid]⟩
    by_cases hc : i.chunk = []
    · have hidle := hstreams.idle hc hno
      simp only [connection] at hidle ⊢
      rw [hidle, hc, List.append_nil, List.append_nil]
    · have hmsgs := messages_of_oneCommand hstreams hc (hid.symm ▸ hone hc)
      rw [hid] at hmsgs
      rw [referenceMessages_append _ _ (hone hc).boundary, ← hmsgs]
      rfl
  exact key.1

/-- A body with nothing to send, in which a piece arrives. -/
def Body.arrival (data : List UInt8) : Body := ⟨noMessage, Server.arrival data⟩

/-- One command in each piece. -/
theorem stream_framing_getSet :
    (connection SocketData.fresh).trace
        [Body.arrival (ascii ['G', 'E', 'T', '#']), Body.arrival (ascii ['S', 'E', 'T', '1', '#'])] =
      referenceMessages 1 (ascii ['G', 'E', 'T', '#', 'S', 'E', 'T', '1', '#']) := by
  refine stream_framing SocketData.fresh rfl
    [Body.arrival (ascii ['G', 'E', 'T', '#']), Body.arrival (ascii ['S', 'E', 'T', '1', '#'])] ?_
  rw [EachStep.cons_iff, EachStep.cons_iff]
  refine ⟨⟨⟨rfl, fun _ => rfl, ?_, ?_⟩, fun _ => ⟨?_, rfl, ?_⟩⟩,
      ⟨⟨rfl, fun _ => rfl, ?_, ?_⟩, fun _ => ⟨?_, rfl, ?_⟩⟩, EachStep.nil _⟩ <;>
    decide +kernel

/-- Two commands in one piece. -/
def twoInOne : List Body := [Body.arrival (ascii ['G', 'E', 'T', '#', 'S', 'E', 'T', '1', '#'])]

/-- One command in two pieces. -/
def oneInTwo : List Body := [Body.arrival (ascii ['G', 'E']), Body.arrival (ascii ['T', '#'])]

/-- Two commands in one piece: the second is lost. One command in two
pieces: it is lost. The connection stays up in both. -/
theorem stream_framing_fails :
    ((connection SocketData.fresh).Along Streams twoInOne ∧
      (connection SocketData.fresh).trace twoInOne ≠ referenceMessages 1 (streamOf twoInOne)) ∧
    ((connection SocketData.fresh).Along Streams oneInTwo ∧
      (connection SocketData.fresh).trace oneInTwo ≠ referenceMessages 1 (streamOf oneInTwo)) := by
  simp only [Mealy.Along, twoInOne, oneInTwo, EachStep.cons_iff]
  refine ⟨⟨⟨?_, EachStep.nil _⟩, by decide +kernel⟩, ⟨?_, ?_, EachStep.nil _⟩, by decide +kernel⟩
  · exact ⟨rfl, fun _ => rfl, by decide +kernel, by decide +kernel⟩
  · exact ⟨rfl, fun _ => rfl, by decide +kernel, by decide +kernel⟩
  · exact ⟨rfl, fun _ => rfl, by decide +kernel, by decide +kernel⟩

end VentControl.Server
