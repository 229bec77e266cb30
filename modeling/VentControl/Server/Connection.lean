/-
VentControl.Server.Connection — which connection a socket has, and what
`server_loop` does to it.

The code keeps no identity of a connection: it only has the socket's
number. `Link` is kept beside the model, from what the code can see of the
chip: a connection can come up after `listen` was called, and it is up
from the first SOCK_ESTABLISHED that is read until another status is read
or `close`, `socket` or `listen` is called. `Link.New` is the first
reading.

`serverLoop_established` and `serverLoop_link_cases` say all that
`server_loop` can do, the first to the send side of an established
socket, the second to the link. The last section reads them off for a
whole body, and for the initialisation of a socket.
-/
import VentControl.Server.SocketTheorems

namespace VentControl.Server

open CString

/-! ## The link -/

/-- What is known of the chip's side of a socket: it listens since the last
connection, or a connection is up. -/
@[ext] structure Link where
  listening : Bool
  live : Bool
  deriving DecidableEq, Repr

/-- Neither. -/
def Link.down : Link := ⟨false, false⟩

/-- The status register is read. -/
def Link.poll (l : Link) : SnSR → Link
  | .established => ⟨false, l.live || l.listening⟩
  | _ => { l with live := false }

/-- A call is made. -/
def Link.call (l : Link) : Call → Link
  | .listen _ => ⟨true, false⟩
  | .close _ => .down
  | .socket _ _ => .down
  | _ => l

/-- The link after one `server_loop`: the reading, then the calls. -/
def Link.after (l : Link) (sr : SnSR) (calls : List Call) : Link :=
  calls.foldl Link.call (l.poll sr)

/-- The reading is the first of a new connection. -/
def Link.New (l : Link) (a : Answers) : Prop := a.sr = .established ∧ l.listening = true

instance (l : Link) (a : Answers) : Decidable (l.New a) := by
  unfold Link.New
  infer_instance

/-! ## The send side -/

/-- What is in the send buffer. -/
def SocketData.frame (s : SocketData) : List UInt8 := s.sendBuffer.bytes.take s.sendSize

/-- The message frame that waits in the send buffer, if there is one. -/
def SocketData.waiting (s : SocketData) : List (List UInt8) :=
  if s.sendSize > 0 ∧ s.frame ≠ heartbeatFrame then [s.frame] else []

/-- The frame of the message taken, if it is for this open socket. -/
def builtFrame (m : Message) (s : SocketData) : List (List UInt8) :=
  if s.socketOpen = true ∧ s.Addressed m then (frameOf m).toList else []

/-- The message frames handed to `send`. -/
def sentFrames (calls : List Call) : List (List UInt8) :=
  calls.filterMap fun
    | .send _ bytes => if bytes ≠ heartbeatFrame then some bytes else none
    | _ => none

/-- `sprintf` puts a text that fits into the send buffer. -/
theorem frame_sprintf (s : SocketData) {text : List UInt8} (h : text.length ≤ bufferSize) :
    (s.sprintf text).frame = text := by
  show (storeAt s.sendBuffer.bytes 0 (text ++ [0])).take text.length = text
  have hsize := s.sendBuffer.size_eq
  simp only [storeAt, List.take_zero, List.nil_append, Nat.sub_zero, hsize]
  rw [List.take_append_of_le_length (by simp; omega), List.take_take,
    Nat.min_eq_left h, List.take_left]

/-- `%d` of an `int` has at most eleven characters. -/
theorem length_formatD {v : Int} (hv : -2 ^ 31 ≤ v ∧ v < 2 ^ 31) : (formatD v).length ≤ 11 := by
  have hdigits : (Nat.toDigits 10 v.natAbs).length ≤ 10 :=
    (Nat.length_toDigits_le_iff (by decide) (by decide)).mpr (by omega)
  simp only [formatD, ascii, List.length_append, List.length_map]
  split <;> simp <;> omega

/-- The frame of a message fits into the send buffer. -/
theorem length_frameOf {m : Message} {f : List UInt8} (hm : m.IsInt)
    (hf : frameOf m = some f) : 0 < f.length ∧ f.length ≤ bufferSize := by
  have hlen : ∀ c, 0 < (valueFrame c m.value).length ∧
      (valueFrame c m.value).length ≤ bufferSize := by
    intro c
    have := length_formatD hm
    simp only [valueFrame, ascii, List.length_append, List.length_map, List.length_cons,
      List.length_nil, bufferSize]
    omega
  unfold frameOf at hf
  split at hf <;> simp only [Option.some.injEq, reduceCtorEq] at hf <;> exact hf ▸ hlen _

theorem waiting_of_sendSize {s : SocketData} (h : s.sendSize = 0) : s.waiting = [] := by
  simp [SocketData.waiting, h]

theorem waiting_congr {s s' : SocketData} (hbuf : s'.sendBuffer = s.sendBuffer)
    (hsize : s'.sendSize = s.sendSize) : s'.waiting = s.waiting := by
  have hframe : s'.frame = s.frame := by rw [SocketData.frame, SocketData.frame, hbuf, hsize]
  unfold SocketData.waiting
  rw [hframe, hsize]

/-- The heartbeat is no message frame. -/
theorem frameOf_ne_heartbeat {m : Message} {f : List UInt8} (hf : frameOf m = some f) :
    f ≠ heartbeatFrame := by
  unfold frameOf at hf
  split at hf <;> simp only [Option.some.injEq, reduceCtorEq] at hf <;> subst hf <;>
    simp [valueFrame, heartbeatFrame, CString.ascii]

theorem waiting_sprintf_frame (s : SocketData) {m : Message} {f : List UInt8}
    (hm : m.IsInt) (hf : frameOf m = some f) : (s.sprintf f).waiting = [f] := by
  obtain ⟨hpos, hle⟩ := length_frameOf hm hf
  rw [SocketData.waiting, frame_sprintf s hle, if_pos]
  exact ⟨hpos, frameOf_ne_heartbeat hf⟩

theorem waiting_sprintf_heartbeat (s : SocketData) : (s.sprintf heartbeatFrame).waiting = [] := by
  rw [SocketData.waiting, frame_sprintf s (by decide), if_neg (by simp)]

/-- A heartbeat is built only when no frame waits. -/
theorem waiting_buildHeartbeat (a : Answers) (s : SocketData) :
    (buildHeartbeat a s).waiting = s.waiting := by
  unfold buildHeartbeat
  split
  · next h => rw [waiting_sprintf_heartbeat, waiting_of_sendSize h.1]
  · rfl

/-- **What waits after the send buffer was filled**: the frame of the
message taken, if it is for this socket, or what waited before. -/
theorem waiting_fillSendBuffer {m : Message} {a : Answers} {s : SocketData}
    (hm : frameOf m ≠ none → m.IsInt) :
    (fillSendBuffer m a s).waiting =
      if builtFrame m s = [] then s.waiting else builtFrame m s := by
  by_cases hopen : s.socketOpen = true
  · have hfill : fillSendBuffer m a s = buildHeartbeat a (buildFrame m s) := by
      simp [fillSendBuffer, hopen]
    rw [hfill, waiting_buildHeartbeat]
    by_cases haddr : s.Addressed m
    · cases hf : frameOf m with
      | none => simp [buildFrame, builtFrame, hf]
      | some f =>
        have hbuilt : builtFrame m s = [f] := by simp [builtFrame, hopen, haddr, hf]
        have hbuild : buildFrame m s = s.sprintf f := by simp [buildFrame, haddr, hf]
        rw [hbuild, waiting_sprintf_frame s (hm (by simp [hf])) hf, hbuilt, if_neg (by simp)]
    · simp [buildFrame, builtFrame, haddr]
  · simp [fillSendBuffer, builtFrame, hopen]

/-! ## `server_loop` -/

/-- A call that only touches the receive buffer. -/
def Call.Reads : Call → Prop
  | .memset _ _ => True
  | .recv _ _ => True
  | _ => False

theorem readCalls_reads (a : Answers) (s : SocketData) : ∀ c ∈ s.readCalls a, c.Reads := by
  intro c hc
  simp only [SocketData.readCalls, List.mem_cons, List.not_mem_nil, or_false] at hc
  rcases hc with rfl | rfl <;> trivial

/-- Reading keeps the link. -/
theorem Link.foldl_reads {r : List Call} (hr : ∀ c ∈ r, c.Reads) (l : Link) :
    r.foldl Link.call l = l := by
  induction r generalizing l with
  | nil => rfl
  | cons c r ih =>
    have hc : l.call c = l := by
      have := hr c (by simp)
      cases c <;> first | rfl | exact this.elim
    rw [List.foldl_cons, hc]
    exact ih (fun c hc => hr c (by simp [hc])) l

/-- What `server_loop` does to an established socket: after its reads it
returns since `recv` was busy, or closes since it failed or the connection
timed out, or comes to its send step, where nothing waits, or `send` takes
what waits, or it fails and the socket is closed. -/
inductive Established (a : Answers) (s s' : SocketData) (calls : List Call) : Prop
  | busy (hrx : a.rxRsr > 0) (hret : a.recv.ret = 0) (hreads : ∀ c ∈ calls, c.Reads)
      (hopen : s'.socketOpen = true) (hsize : s'.sendSize = s.sendSize)
  | dropped (r : List Call) (hreads : ∀ c ∈ r, c.Reads) (hcalls : calls = r ++ [.close s.socketId])
      (hopen : s'.socketOpen = false) (hsize : s'.sendSize = s.sendSize)
  | idle (hon : a.rxRsr > 0 → 0 < a.recv.ret) (hreads : ∀ c ∈ calls, c.Reads)
      (hopen : s'.socketOpen = true) (hnone : s.sendSize = 0) (hsize : s'.sendSize = 0)
  | sent (hon : a.rxRsr > 0 → 0 < a.recv.ret) (r : List Call) (hreads : ∀ c ∈ r, c.Reads)
      (hcalls : calls = r ++ [.send s.socketId s.frame]) (hopen : s'.socketOpen = true)
      (hsome : s.sendSize > 0) (hret : 0 ≤ a.sendRet) (hsize : s'.sendSize = 0)
  | failed (r : List Call) (hreads : ∀ c ∈ r, c.Reads)
      (hcalls : calls = r ++ [.send s.socketId s.frame, .close s.socketId])
      (hopen : s'.socketOpen = false) (hret : a.sendRet < 0) (hsize : s'.sendSize = 0)

/-- The send step, after reads that leave the send side alone. -/
theorem Established.of_sendStep {a : Answers} {s s₁ : SocketData} {r : List Call}
    (hon : a.rxRsr > 0 → 0 < a.recv.ret) (hreads : ∀ c ∈ r, c.Reads)
    (hopen : s₁.socketOpen = true) (hid : s₁.socketId = s.socketId)
    (hsize : s₁.sendSize = s.sendSize) (hbuf : s₁.sendBuffer = s.sendBuffer) :
    Established a s (sendStep a s₁).1 (r ++ (sendStep a s₁).2) := by
  have hframe : s₁.sendBuffer.bytes.take s₁.sendSize = s.frame := by
    rw [SocketData.frame, hsize, hbuf]
  obtain ⟨hz, h⟩ | ⟨hpos, hret, h⟩ | ⟨hpos, hret, h⟩ := sendStep_cases a s₁
  · rw [h, List.append_nil]
    exact .idle hon hreads hopen (hsize ▸ hz) hz
  · rw [h]
    exact .sent hon r hreads (by rw [hid, hframe]) hopen (hsize ▸ hpos) hret rfl
  · rw [h]
    exact .failed r hreads (by rw [hid, hframe]) rfl hret rfl

/-- **All `server_loop` can do to an established socket.** -/
theorem serverLoop_established {a : Answers} {s : SocketData} (hsr : a.sr = .established) :
    Established a s (serverLoop a s).1 (serverLoop a s).2 := by
  have hreads := readCalls_reads a (openSocket a s)
  obtain ⟨hrx, hret, h⟩ | ⟨hrx, -, hret, h⟩ | ⟨hrx, hret, h⟩ | ⟨hrx, -, h⟩ | ⟨hrx, -, h⟩ |
      ⟨hrx, -, h⟩ := receiveStep_cases a (openSocket a s) <;>
    simp only [serverLoop, hsr, h, if_true]
  · exact .of_sendStep (by omega) hreads (by simp) (by simp) (by simp) (by simp)
  · exact .of_sendStep (fun _ => hret) hreads (by simp) (by simp) (by simp) (by simp)
  · exact .busy hrx hret hreads (by simp) (by simp)
  · exact .dropped _ hreads (by simp) rfl (by simp)
  · exact .dropped [] (by simp) (by simp) rfl (by simp)
  · exact .of_sendStep (by omega) (by simp) (by simp) (by simp) (by simp) (by simp)

theorem sentFrames_reads {r : List Call} (hr : ∀ c ∈ r, c.Reads) (cs : List Call) :
    sentFrames (r ++ cs) = sentFrames cs := by
  have hnil : sentFrames r = [] := by
    rw [sentFrames, List.filterMap_eq_nil_iff]
    intro c hc
    have := hr c hc
    cases c <;> first | rfl | exact this.elim
  rw [sentFrames, List.filterMap_append]
  show sentFrames r ++ sentFrames cs = _
  rw [hnil, List.nil_append]

/-- What is handed to `send` is what waits. -/
theorem sentFrames_send {s : SocketData} (sn : Nat) (hs : s.sendSize > 0) :
    sentFrames [.send sn s.frame] = s.waiting := by
  unfold SocketData.waiting
  by_cases hb : s.frame = heartbeatFrame
  · simp [sentFrames, hb]
  · simp [sentFrames, hb, hs]

/-- `recv` was busy. -/
def Answers.Busy (a : Answers) : Prop := a.rxRsr > 0 ∧ a.recv.ret = sockBusy

instance (a : Answers) : Decidable a.Busy := by
  unfold Answers.Busy
  infer_instance

/-- **What a body does with what waits** on an established socket: it still
waits since `recv` was busy; or the socket is closed, and `send` was not
called or failed; or `send` took it. -/
theorem serverBody_send {m : Message} {a : Answers} {s : SocketData} (hsr : a.sr = .established) :
    (a.Busy ∧ sentFrames (serverBody m a s).2.1 = [] ∧
      (serverBody m a s).1.waiting = (fillSendBuffer m a s).waiting) ∨
    ((serverBody m a s).1.socketOpen = false ∧
      (sentFrames (serverBody m a s).2.1 = [] ∨ a.sendRet < 0)) ∨
    ((a.rxRsr > 0 → 0 < a.recv.ret) ∧ (serverBody m a s).1.sendSize = 0 ∧
      sentFrames (serverBody m a s).2.1 = (fillSendBuffer m a s).waiting ∧
      ((fillSendBuffer m a s).waiting = [] ∨ 0 ≤ a.sendRet)) := by
  set f := fillSendBuffer m a s with hf
  have hsize' : (serverBody m a s).1.sendSize = (serverLoop a f).1.sendSize := by
    rw [serverBody_fst, ← hf]
    split <;> simp
  have hbuf' : (serverBody m a s).1.sendBuffer = f.sendBuffer := by
    rw [serverBody_fst, ← hf]
    split <;> simp
  rw [serverBody_calls, serverBody_socketOpen, hsize', ← hf]
  cases serverLoop_established (s := f) hsr with
  | busy hrx hret hr _ hsize =>
    exact Or.inl ⟨⟨hrx, hret⟩, by simpa [sentFrames] using sentFrames_reads hr [],
      waiting_congr hbuf' (hsize'.trans hsize)⟩
  | dropped r hr hc hopen _ =>
    exact Or.inr (Or.inl ⟨hopen, Or.inl (by rw [hc, sentFrames_reads hr]; rfl)⟩)
  | idle hon hr _ hnone hsize =>
    have hw : f.waiting = [] := waiting_of_sendSize hnone
    exact Or.inr (Or.inr ⟨hon, hsize, by rw [hw]; simpa [sentFrames] using sentFrames_reads hr [],
      Or.inl hw⟩)
  | sent hon r hr hc _ hsome hret hsize =>
    exact Or.inr (Or.inr ⟨hon, hsize, by rw [hc, sentFrames_reads hr, sentFrames_send _ hsome],
      Or.inr hret⟩)
  | failed r _ _ hopen hret _ => exact Or.inr (Or.inl ⟨hopen, Or.inr hret⟩)

/-- The link after `server_loop` on an established socket: a connection is up
on an open socket, or there is none. -/
theorem serverLoop_link_established (l : Link) {a : Answers} {s : SocketData}
    (hsr : a.sr = .established) :
    (l.after a.sr (serverLoop a s).2 = ⟨false, true⟩ ∧ (l.live || l.listening) = true ∧
      (serverLoop a s).1.socketOpen = true) ∨
    l.after a.sr (serverLoop a s).2 = .down := by
  have hl : l.after a.sr (serverLoop a s).2 =
      (serverLoop a s).2.foldl Link.call ⟨false, l.live || l.listening⟩ := by
    simp only [Link.after, hsr]
    rfl
  rw [hl]
  -- a connection that stays up is one that was up or could come up
  have hup : (serverLoop a s).1.socketOpen = true →
      ((⟨false, l.live || l.listening⟩ : Link) = ⟨false, true⟩ ∧
        (l.live || l.listening) = true ∧ (serverLoop a s).1.socketOpen = true) ∨
      (⟨false, l.live || l.listening⟩ : Link) = .down := by
    intro hopen
    cases (l.live || l.listening) with
    | true => exact Or.inl ⟨rfl, rfl, hopen⟩
    | false => exact Or.inr rfl
  cases serverLoop_established (s := s) hsr with
  | busy _ _ hr hopen _ =>
    rw [Link.foldl_reads hr]
    exact hup hopen
  | dropped r hr hc =>
    rw [hc, List.foldl_append]
    exact Or.inr rfl
  | idle _ hr hopen =>
    rw [Link.foldl_reads hr]
    exact hup hopen
  | sent _ r hr hc hopen =>
    rw [hc, List.foldl_append, Link.foldl_reads hr]
    exact hup hopen
  | failed r hr hc =>
    rw [hc, List.foldl_append]
    exact Or.inr rfl

/-- **The link after `server_loop`**: a connection is up on an open socket;
or the socket was just made to listen, with both counts cleared; or it
still listens and nothing happened; or neither. -/
theorem serverLoop_link_cases (l : Link) (a : Answers) (s : SocketData) :
    let l' := l.after a.sr (serverLoop a s).2
    let s' := (serverLoop a s).1
    (l' = ⟨false, true⟩ ∧ a.sr = .established ∧ (l.live || l.listening) = true ∧
      s'.socketOpen = true) ∨
    (l' = ⟨true, false⟩ ∧ a.sr = .init ∧ s' = { s with sendSize := 0, receiveSize := 0 }) ∨
    (l' = ⟨true, false⟩ ∧ a.sr = .other ∧ l.listening = true ∧ s' = s) ∨
    l' = .down := by
  intro l' s'
  cases hsr : a.sr with
  | established =>
    rcases serverLoop_link_established l (s := s) hsr with ⟨hl, hup⟩ | hl
    · exact Or.inl ⟨hl, rfl, hup⟩
    · exact Or.inr (Or.inr (Or.inr hl))
  | closeWait =>
    refine Or.inr (Or.inr (Or.inr ?_))
    simp [l', Link.after, serverLoop, hsr, Link.call]
  | closed =>
    refine Or.inr (Or.inr (Or.inr ?_))
    simp only [l', Link.after, serverLoop, hsr]
    split <;> rfl
  | init =>
    refine Or.inr (Or.inl ⟨?_, rfl, ?_⟩)
    · simp [l', Link.after, serverLoop, hsr, Link.call]
    · simp [s', serverLoop, hsr]
  | other =>
    have hl : l' = ⟨l.listening, false⟩ := by simp [l', Link.after, serverLoop, hsr, Link.poll]
    cases hb : l.listening with
    | true =>
      exact Or.inr (Or.inr (Or.inl ⟨by rw [hl, hb], rfl, rfl, by simp [s', serverLoop, hsr]⟩))
    | false =>
      refine Or.inr (Or.inr (Or.inr ?_))
      rw [hl, hb]
      rfl

/-- A connection that is up after `server_loop` is on an established, open
socket, and it was up before or could come up. -/
theorem serverLoop_live {l : Link} {a : Answers} {s : SocketData}
    (h : (l.after a.sr (serverLoop a s).2).live = true) :
    a.sr = .established ∧ (l.live || l.listening) = true ∧
      (serverLoop a s).1.socketOpen = true := by
  obtain ⟨-, hup⟩ | ⟨hl, -⟩ | ⟨hl, -⟩ | hl := serverLoop_link_cases l a s
  · exact hup
  · exact absurd ((congrArg Link.live hl).symm.trans h) (by decide)
  · exact absurd ((congrArg Link.live hl).symm.trans h) (by decide)
  · exact absurd ((congrArg Link.live hl).symm.trans h) (by decide)

/-- A socket that listens after `server_loop` was just made to, with both
counts cleared, or did before and nothing happened. -/
theorem serverLoop_listening {l : Link} {a : Answers} {s : SocketData}
    (h : (l.after a.sr (serverLoop a s).2).listening = true) :
    (a.sr = .init ∧ (serverLoop a s).1 = { s with sendSize := 0, receiveSize := 0 }) ∨
    (a.sr = .other ∧ l.listening = true ∧ (serverLoop a s).1 = s) := by
  obtain ⟨hl, -⟩ | ⟨-, hinit⟩ | ⟨-, hother⟩ | hl := serverLoop_link_cases l a s
  · exact absurd ((congrArg Link.listening hl).symm.trans h) (by decide)
  · exact Or.inl hinit
  · exact Or.inr hother
  · exact absurd ((congrArg Link.listening hl).symm.trans h) (by decide)

/-! ## The body and the initialisation -/

/-- A connection that is up after a body is on an established, open socket,
and it was up before or could come up. -/
theorem serverBody_live {l : Link} {m : Message} {a : Answers} {s : SocketData}
    (h : (l.after a.sr (serverBody m a s).2.1).live = true) :
    a.sr = .established ∧ (l.live || l.listening) = true ∧
      (serverBody m a s).1.socketOpen = true := by
  rw [serverBody_calls] at h
  rw [serverBody_socketOpen]
  exact serverLoop_live h

/-- A socket that listens after a body was just made to, with both counts
cleared, or did before, and nothing happened but in the two buffers. -/
theorem serverBody_listening {l : Link} {m : Message} {a : Answers} {s : SocketData}
    (h : (l.after a.sr (serverBody m a s).2.1).listening = true) :
    ((serverBody m a s).1.sendSize = 0 ∧ (serverBody m a s).1.receiveSize = 0) ∨
    (l.listening = true ∧
      (serverBody m a s).1 =
        if s.socketOpen then (drainReceive (fillSendBuffer m a s) a.receivedMessage).1 else s) := by
  rw [serverBody_calls] at h
  rw [serverBody_fst]
  obtain ⟨-, hinit⟩ | ⟨-, hwas, hkeep⟩ := serverLoop_listening h
  · refine Or.inl ?_
    rw [hinit]
    split
    · rw [drainReceive_missed _ (noFrame_of_receiveSize rfl)]
      exact ⟨rfl, rfl⟩
    · exact ⟨rfl, rfl⟩
  · refine Or.inr ⟨hwas, ?_⟩
    rw [hkeep, fillSendBuffer_socketOpen]
    split
    · rfl
    · next hclosed => exact fillSendBuffer_of_closed (by simpa using hclosed)

/-- A socket that was just initialised has no connection, and if it listens
both counts are cleared. -/
theorem initSocket_link (i : Nat) (a : Answers) (s : SocketData) :
    (Link.down.after a.sr (initSocket i a s).2.tail).live = false ∧
    ((Link.down.after a.sr (initSocket i a s).2.tail).listening = true →
      (initSocket i a s).1.sendSize = 0 ∧ (initSocket i a s).1.receiveSize = 0) := by
  -- the first call is `socket`, the rest is `server_loop`
  obtain ⟨s₁, hs, hcalls⟩ : ∃ s₁, (initSocket i a s).1 = (serverLoop a s₁).1 ∧
      (initSocket i a s).2.tail = (serverLoop a s₁).2 := ⟨_, rfl, rfl⟩
  rw [hs, hcalls]
  refine ⟨?_, fun hlist => ?_⟩
  · by_contra hlive
    obtain ⟨-, hup, -⟩ := serverLoop_live (by simpa using hlive)
    exact absurd hup (by decide)
  · obtain ⟨-, hinit⟩ | ⟨-, hwas, -⟩ := serverLoop_listening hlist
    · rw [hinit]
      exact ⟨rfl, rfl⟩
    · exact absurd hwas (by decide)

end VentControl.Server
