/-
VentControl.Server.StorageTheorems — storage that the program does not
initialise never shows.

Two runs of `server_task` that read the same from outside do the same,
whatever the memory of the sockets held at first and whatever the stack
held where `send_message` and `received_message` are. `Similar` says what
two versions of a socket agree on: the fields the initialisation writes,
and, of the rest, what the code can come to read. The receive buffer
counts while `receive_size` is not 0, the first `send_size` bytes of the
send buffer, and the timestamps while the socket is open. Each function of
`server.c` keeps two similar sockets similar and does the same for both.

The last section is about one run: a timestamp that is subtracted from the
clock was stored by an earlier step of the same run, so with a clock that
never goes back no subtraction wraps.
-/
import Mathlib.Data.List.Forall2
import Mathlib.Tactic.SplitIfs
import VentControl.Server.ClockTheorems
import VentControl.Server.Connection

namespace VentControl.Server

open CString Runs

/-! ## Similar sockets -/

/-- Two versions of a socket that differ in nothing the code can read. -/
structure Similar (s s' : SocketData) : Prop where
  socketId : s'.socketId = s.socketId
  listeningPort : s'.listeningPort = s.listeningPort
  socketOpen : s'.socketOpen = s.socketOpen
  receiveSize : s'.receiveSize = s.receiveSize
  sendSize : s'.sendSize = s.sendSize
  receiveBuffer : 0 < s.receiveSize → s'.receiveBuffer = s.receiveBuffer
  frame : s'.frame = s.frame
  timestamps : s.socketOpen = true → ∀ f, s'.timestamp f = s.timestamp f

section

variable {s s' : SocketData} (a : Answers)

theorem similar_resetSocket (i : Nat) (s s' : SocketData) :
    Similar (resetSocket i s) (resetSocket i s') := by
  constructor <;> simp [resetSocket, SocketData.frame]

/-- A similar socket has other bytes in its buffers and other timestamps,
and nothing else. -/
theorem Similar.exists_eq (h : Similar s s') :
    ∃ rb sb tr ts,
      s' = { s with
        receiveBuffer := rb
        sendBuffer := sb
        lastCommandReceived := tr
        lastCommandSend := ts } := by
  obtain ⟨id, port, isOpen, rb, n, sb, k, tr, ts⟩ := s'
  obtain ⟨rfl, rfl, rfl, rfl, rfl, -, -, -⟩ := h
  exact ⟨rb, sb, tr, ts, rfl⟩

/-- The frame that `sprintf` leaves does not depend on what was there. -/
theorem frame_sprintf_congr (s s' : SocketData) (text : List UInt8) :
    (s'.sprintf text).frame = (s.sprintf text).frame := by
  rcases Nat.lt_or_ge bufferSize text.length with hlong | hfits
  · have hwhole : ∀ t : SocketData, (t.sprintf text).frame = (text ++ [0]).take bufferSize := by
      intro t
      have hsize := t.sendBuffer.size_eq
      have hdrop : t.sendBuffer.bytes.drop (text ++ [0]).length = [] :=
        List.drop_eq_nil_of_le (by simp; omega)
      show (storeAt t.sendBuffer.bytes 0 (text ++ [0])).take text.length = _
      rw [List.take_of_length_le (by simp; omega)]
      simp only [storeAt, List.take_zero, List.nil_append, Nat.sub_zero, Nat.zero_add, hsize,
        hdrop, List.append_nil]
    rw [hwhole, hwhole]
  · rw [frame_sprintf s' hfits, frame_sprintf s hfits]

theorem Similar.sprintf (h : Similar s s') (text : List UInt8) :
    Similar (s.sprintf text) (s'.sprintf text) where
  socketId := h.socketId
  listeningPort := h.listeningPort
  socketOpen := h.socketOpen
  receiveSize := h.receiveSize
  sendSize := rfl
  receiveBuffer := h.receiveBuffer
  frame := frame_sprintf_congr s s' text
  timestamps := h.timestamps

/-- What `memset` and `recv` leave in the receive buffer: with nothing
received before, all of it is overwritten. -/
theorem Similar.read (h : Similar s s') : s'.read a = s.read a := by
  rcases Nat.eq_zero_or_pos s.receiveSize with hzero | hpos
  · have hclear : ∀ b : Buffer, b.store 0 (List.replicate bufferSize 0) = Buffer.zero := by
      intro b
      ext1
      simp [Buffer.store, Buffer.zero, storeAt_zeros, b.size_eq]
    rw [SocketData.read, SocketData.read, h.receiveSize, hzero, hclear, hclear]
  · rw [SocketData.read, SocketData.read, h.receiveSize, h.receiveBuffer hpos]

/-! ## `server_loop` -/

theorem Similar.openSocket (h : Similar s s') :
    Similar (openSocket a s) (openSocket a s') ∧ openSocketClock a s' = openSocketClock a s := by
  unfold Server.openSocket openSocketClock
  rw [h.socketOpen]
  split
  · exact ⟨h, rfl⟩
  · refine ⟨{ h with socketOpen := rfl, timestamps := fun _ f => ?_ }, rfl⟩
    cases f <;> rfl

/-- The receive step of an open socket. -/
theorem Similar.receiveStep (h : Similar s s') (hopen : s.socketOpen = true) :
    Similar (receiveStep a s).1 (receiveStep a s').1 ∧
      (receiveStep a s').2 = (receiveStep a s).2 ∧
      receiveStepClock a s' = receiveStepClock a s := by
  have hread := h.read a
  obtain ⟨rb, sb, tr, ts, rfl⟩ := h.exists_eq
  have hlast : tr = s.lastCommandReceived := h.timestamps hopen .received
  have hsend : ts = s.lastCommandSend := h.timestamps hopen .send
  subst hlast hsend
  unfold SocketData.read at hread
  simp only at hread
  -- the tests are the same for both, and so are the fields that are written
  simp only [Server.receiveStep, receiveStepClock, hread]
  refine ⟨?_, ?_, trivial⟩
  · split_ifs
    · exact { h with receiveBuffer := fun _ => rfl }
    · exact { h with socketOpen := rfl, receiveBuffer := fun _ => rfl, timestamps := by simp }
    · exact { h with receiveBuffer := fun _ => rfl }
    · refine { h with receiveSize := rfl, receiveBuffer := fun _ => rfl, timestamps := ?_ }
      rintro - (_ | _) <;> rfl
    · exact { h with socketOpen := rfl, timestamps := by simp }
    · exact h
  · split_ifs <;> rfl

/-- The send step of an open socket. -/
theorem Similar.sendStep (h : Similar s s') (hopen : s.socketOpen = true) :
    Similar (sendStep a s).1 (sendStep a s').1 ∧ (sendStep a s').2 = (sendStep a s).2 ∧
      sendStepClock a s' = sendStepClock a s := by
  have hframe := h.frame
  obtain ⟨rb, sb, tr, ts, rfl⟩ := h.exists_eq
  have hlast : tr = s.lastCommandReceived := h.timestamps hopen .received
  subst hlast
  simp only [SocketData.frame] at hframe
  simp only [Server.sendStep, sendStepClock, hframe]
  refine ⟨?_, ?_, trivial⟩
  · split_ifs
    · exact { h with
        socketOpen := rfl
        sendSize := rfl
        frame := by simp [SocketData.frame]
        timestamps := by simp }
    · refine { h with sendSize := rfl, frame := by simp [SocketData.frame], timestamps := ?_ }
      rintro - (_ | _) <;> rfl
    · exact h
  · split_ifs <;> rfl

/-- **`server_loop` cannot tell similar sockets apart.** -/
theorem Similar.serverLoop (h : Similar s s') :
    Similar (serverLoop a s).1 (serverLoop a s').1 ∧
      (serverLoop a s').2 = (serverLoop a s).2 ∧
      serverLoopClock a s' = serverLoopClock a s := by
  unfold Server.serverLoop serverLoopClock
  cases a.sr with
  | established =>
    obtain ⟨h₀, hclock₀⟩ := h.openSocket a
    obtain ⟨h₁, hrest, hclock₁⟩ := h₀.receiveStep a (openSocket_socketOpen a s)
    obtain ⟨hcalls, hgo⟩ := Prod.ext_iff.mp hrest
    simp only [hclock₀, hclock₁, hcalls, hgo]
    split_ifs with hgoes
    · obtain ⟨h₂, hsend, hclock₂⟩ :=
        h₁.sendStep a (receiveStep_open a (openSocket_socketOpen a s) hgoes)
      exact ⟨h₂, by rw [hsend], by rw [hclock₂]⟩
    · exact ⟨h₁, rfl, rfl⟩
  | closeWait =>
    exact ⟨{ h with socketOpen := rfl, timestamps := by simp }, by simp [h.socketId], rfl⟩
  | closed =>
    obtain ⟨rb, sb, tr, ts, rfl⟩ := h.exists_eq
    refine ⟨?_, ?_, rfl⟩
    · split_ifs
      · exact { h with socketOpen := rfl, timestamps := by simp }
      · exact h
    · split_ifs <;> rfl
  | init =>
    exact ⟨{ h with receiveSize := rfl, sendSize := rfl, receiveBuffer := by simp,
                    frame := by simp [SocketData.frame] }, by simp [h.socketId], rfl⟩
  | other => exact ⟨h, rfl, rfl⟩

/-! ## The body -/

/-- Two values of `send_message` that are the same, or no messages. -/
def SameMessage (m m' : Message) : Prop :=
  m' = m ∨ (m.messageType = .noMessage ∧ m'.messageType = .noMessage)

theorem buildFrame_noMessage {m : Message} (hm : m.messageType = .noMessage) (s : SocketData) :
    buildFrame m s = s := by
  simp [buildFrame, frameOf, hm]

theorem Similar.buildFrame {m m' : Message} (h : Similar s s') (hm : SameMessage m m') :
    Similar (buildFrame m s) (buildFrame m' s') := by
  rcases hm with rfl | ⟨hno, hno'⟩
  · have haddr : s'.Addressed m' ↔ s.Addressed m' := by
      simp only [SocketData.Addressed, h.socketId]
    unfold Server.buildFrame
    simp only [haddr]
    split
    · split
      · exact h.sprintf _
      · exact h
    · exact h
  · rw [buildFrame_noMessage hno, buildFrame_noMessage hno']
    exact h

/-- Filling the send buffer, with what the clock is used for on the way. -/
theorem Similar.fillSendBuffer {m m' : Message} (h : Similar s s') (hm : SameMessage m m') :
    Similar (fillSendBuffer m a s) (fillSendBuffer m' a s') ∧
      (if s'.socketOpen then heartbeatClock a (Server.buildFrame m' s') else []) =
        if s.socketOpen then heartbeatClock a (Server.buildFrame m s) else [] := by
  unfold Server.fillSendBuffer
  rw [h.socketOpen]
  split
  · next hopen =>
    have hb := h.buildFrame hm
    have hlast : (Server.buildFrame m' s').lastCommandSend =
        (Server.buildFrame m s).lastCommandSend :=
      hb.timestamps (by rw [buildFrame_socketOpen, hopen]) .send
    unfold buildHeartbeat heartbeatClock
    rw [hb.sendSize, hlast]
    refine ⟨?_, rfl⟩
    split
    · exact hb.sprintf _
    · exact hb
  · exact ⟨h, rfl⟩

/-- The drain loop. What `received_message` holds before it is overwritten
does not matter. -/
theorem Similar.drainReceive (h : Similar s s') (r r' : Message) :
    Similar (drainReceive s r).1 (drainReceive s' r').1 ∧
      (drainReceive s' r').2 = (drainReceive s r).2 := by
  rcases Nat.eq_zero_or_pos s.receiveSize with hzero | hpos
  · have hzero' : s'.receiveSize = 0 := by rw [h.receiveSize, hzero]
    rw [drainReceive_missed r (noFrame_of_receiveSize hzero),
      drainReceive_missed r' (noFrame_of_receiveSize hzero')]
    exact ⟨h, rfl⟩
  · have hfront : s'.front = s.front := by
      rw [SocketData.front, SocketData.front, h.receiveSize, h.receiveBuffer hpos]
    rcases front_cases s with hmiss | ⟨f, rest, hf, hhash, hnul⟩
    · have hmiss' : s'.NoFrame := fun p q hpq => hmiss p q (hfront ▸ hpq)
      rw [drainReceive_missed r hmiss, drainReceive_missed r' hmiss']
      exact ⟨h, rfl⟩
    · rw [drainReceive_found r hf hhash hnul,
        drainReceive_found r' (hfront.trans hf) hhash hnul, h.socketId]
      refine ⟨{ h with receiveSize := rfl, receiveBuffer := fun _ => ?_ }, rfl⟩
      simp only [SocketData.took, h.receiveBuffer hpos]

/-- **The body cannot tell similar sockets apart.** -/
theorem Similar.serverBody {m m' : Message} (h : Similar s s') (hm : SameMessage m m')
    (r : Message) :
    Similar (serverBody m a s).1 (serverBody m' { a with receivedMessage := r } s').1 ∧
      (serverBody m' { a with receivedMessage := r } s').2 = (serverBody m a s).2 ∧
      serverBodyClock m' { a with receivedMessage := r } s' = serverBodyClock m a s := by
  obtain ⟨hfill, hheart⟩ := h.fillSendBuffer a hm
  obtain ⟨hloop, hcalls, hclock⟩ := hfill.serverLoop a
  obtain ⟨hdrain, hmessages⟩ := hloop.drainReceive a.receivedMessage r
  have hbody : Server.serverBody m' { a with receivedMessage := r } s' =
      (if (Server.serverLoop a (Server.fillSendBuffer m' a s')).1.socketOpen then
        ((Server.drainReceive (Server.serverLoop a (Server.fillSendBuffer m' a s')).1 r).1,
          (Server.serverLoop a (Server.fillSendBuffer m' a s')).2,
          (Server.drainReceive (Server.serverLoop a (Server.fillSendBuffer m' a s')).1 r).2)
      else ((Server.serverLoop a (Server.fillSendBuffer m' a s')).1,
        (Server.serverLoop a (Server.fillSendBuffer m' a s')).2, [])) := rfl
  have hclocks : serverBodyClock m' { a with receivedMessage := r } s' =
      (if s'.socketOpen then heartbeatClock a (Server.buildFrame m' s') else []) ++
        serverLoopClock a (Server.fillSendBuffer m' a s') := rfl
  rw [hbody, hclocks, hheart, hclock, hcalls, hmessages, hloop.socketOpen]
  unfold Server.serverBody serverBodyClock
  simp only
  split_ifs with hopen
  · exact ⟨hdrain, rfl, trivial⟩
  · exact ⟨hloop, rfl, trivial⟩

end

/-! ## Two runs -/

/-- Two steps read the same from outside; what the stack held may differ. -/
structure Env.Agrees (e e' : Env) : Prop where
  ipAssigned : e'.ipAssigned = e.ipAssigned
  serverRun : e'.serverRun = e.serverRun
  received : e'.received = e.received
  answers : ∃ r, e'.answers = { e.answers with receivedMessage := r }

/-- The tasks are at the same point, with the same message if there is
one. -/
inductive SamePoint : TaskPoint → TaskPoint → Prop
  | refl (point : TaskPoint) : SamePoint point point
  | body {m m' : Message} (hm : SameMessage m m') (i : Fin listeningSocketCount) :
      SamePoint (.body m i) (.body m' i)

/-- Two states that differ in nothing the task can read: sockets that have
not been initialised are arbitrary. -/
structure Related (t t' : TaskState) : Prop where
  point : SamePoint t.point t'.point
  sockets : ∀ i, t.point.Started i → Similar (t.sockets i) (t'.sockets i)

theorem SamePoint.nextSocket_body {m m' : Message} (hm : SameMessage m m')
    (i : Fin listeningSocketCount) :
    SamePoint (nextSocket i (.body m)) (nextSocket i (.body m')) := by
  unfold nextSocket
  split
  · exact .body hm _
  · exact .refl _

/-- One socket of each is replaced by similar ones. -/
theorem similar_update {sockets sockets' : Fin listeningSocketCount → SocketData}
    {i j : Fin listeningSocketCount} {s s' : SocketData} (hnew : Similar s s')
    (hold : j ≠ i → Similar (sockets j) (sockets' j)) :
    Similar (Function.update sockets i s j) (Function.update sockets' i s' j) := by
  by_cases hji : j = i
  · subst hji
    simpa using hnew
  · simpa [hji] using hold hji

/-- The body of the serving loop, with messages that are built into the same
frames. -/
theorem Related.body {sockets sockets' : Fin listeningSocketCount → SocketData} {m m' : Message}
    {i : Fin listeningSocketCount} {e e' : Env} (hm : SameMessage m m')
    (hsockets : ∀ j, Similar (sockets j) (sockets' j)) (he : e.Agrees e') :
    Related (serverStep ⟨.body m i, sockets⟩ e).1 (serverStep ⟨.body m' i, sockets'⟩ e').1 ∧
      (serverStep ⟨.body m' i, sockets'⟩ e').2 = (serverStep ⟨.body m i, sockets⟩ e).2 := by
  obtain ⟨r, hanswers⟩ := he.answers
  obtain ⟨hsim, hdo, hclock⟩ := (hsockets i).serverBody e.answers hm r
  simp only [serverStep, hanswers, hclock, hdo]
  refine ⟨⟨.nextSocket_body hm i, fun j _ => ?_⟩, trivial⟩
  exact similar_update hsim fun _ => hsockets j

/-- The initialisation makes its socket similar, whatever it was. -/
theorem Related.starting {sockets sockets' : Fin listeningSocketCount → SocketData}
    {i : Fin listeningSocketCount} {e e' : Env}
    (hsockets : ∀ j, (TaskPoint.starting i).Started j → Similar (sockets j) (sockets' j))
    (he : e.Agrees e') :
    Related (serverStep ⟨.starting i, sockets⟩ e).1 (serverStep ⟨.starting i, sockets'⟩ e').1 ∧
      (serverStep ⟨.starting i, sockets'⟩ e').2 = (serverStep ⟨.starting i, sockets⟩ e).2 := by
  obtain ⟨r, hanswers⟩ := he.answers
  obtain ⟨hsim, hcalls, hclock⟩ :=
    (similar_resetSocket i.val (sockets i) (sockets' i)).serverLoop e.answers
  have hloop : ∀ s, serverLoop e'.answers s = serverLoop e.answers s := fun s => by
    rw [hanswers]
    rfl
  have hloopClock : ∀ s, serverLoopClock e'.answers s = serverLoopClock e.answers s := fun s => by
    rw [hanswers]
    rfl
  simp only [serverStep, initSocket_eq, hloop, hloopClock, hcalls, hclock]
  refine ⟨⟨.refl _, fun j hj => ?_⟩, trivial⟩
  exact similar_update hsim fun hji =>
    hsockets j ((started_nextSocket_starting hj).resolve_left hji)

/-- **Step lemma**: related states make related steps, with the same
outputs. -/
theorem Related.step {t t' : TaskState} {e e' : Env} (h : Related t t') (he : e.Agrees e') :
    Related (serverStep t e).1 (serverStep t' e').1 ∧
      (serverStep t' e').2 = (serverStep t e).2 := by
  obtain ⟨point, sockets⟩ := t
  obtain ⟨point', sockets'⟩ := t'
  obtain ⟨hpoint, hsockets⟩ := h
  simp only at hpoint hsockets
  cases hpoint with
  | body hm i => exact Related.body hm (fun j => hsockets j trivial) he
  | refl =>
    cases point with
    | waiting =>
      simp only [serverStep, he.ipAssigned]
      refine ⟨⟨.refl _, fun j hj => ?_⟩, trivial⟩
      simp only at hj
      split at hj
      · exact absurd hj (Nat.not_lt_zero _)
      · exact hj.elim
    | starting i => exact Related.starting hsockets he
    | head =>
      simp only [serverStep, he.serverRun]
      exact ⟨⟨.refl _, fun j _ => hsockets j trivial⟩, trivial⟩
    | taking =>
      simp only [serverStep, he.received]
      cases e.received with
      | some m => exact ⟨⟨.refl _, fun j _ => hsockets j trivial⟩, rfl⟩
      | none => exact ⟨⟨.body (Or.inr ⟨rfl, rfl⟩) 0, fun j _ => hsockets j trivial⟩, rfl⟩
    | body m i => exact Related.body (Or.inl rfl) (fun j => hsockets j trivial) he

/-! ## The clock -/

/-- The readings of the clock, in order. -/
def readings (outs : List Output) : List Nat :=
  outs.filterMap fun
    | .clock _ u => some u.reading
    | _ => none

/-- The clock never goes back. -/
def Monotone (outs : List Output) : Prop := (readings outs).Pairwise (· ≤ ·)

instance (outs : List Output) : Decidable (Monotone outs) := by
  unfold Monotone
  infer_instance

theorem Monotone.le {p q : List Output} {o : Output} {i j : Fin listeningSocketCount}
    {u u' : ClockUse} (h : Monotone (p ++ o :: q)) (ho : o = .clock i u)
    (hu : .clock j u' ∈ p) : u'.reading ≤ u.reading := by
  subst ho
  obtain ⟨p₁, p₂, rfl⟩ := List.append_of_mem hu
  simp only [Monotone, readings, List.filterMap_append, List.filterMap_cons,
    List.pairwise_append] at h
  exact h.2.2 u'.reading (by simp) u.reading (by simp)

/-- **Uninitialised storage never shows.** Two runs that read the same from
outside, from any two memories and with any stack, make the same calls and
put the same messages on `receive_queue`. If the clock never goes back,
every timestamp that is subtracted from it was stored before by the same
run, and is not later, so that the difference does not wrap. -/
theorem storage_never_shows {s₀ s₀' : Fin listeningSocketCount → SocketData} {es es' : List Env}
    (h : List.Forall₂ Env.Agrees es es') :
    (task s₀').trace es' = (task s₀).trace es ∧
    (Monotone ((task s₀).trace es) → ∀ p q i f now last,
      (task s₀).trace es = p ++ .clock i (.subtract f now last) :: q →
        .clock i (.store f last) ∈ p ∧ last ≤ now ∧ elapsed now last = now - last) := by
  refine ⟨?_, fun hclock p q i f now last he => ?_⟩
  · have hstart : Related (task s₀).init (task s₀').init :=
      ⟨.refl _, fun i hi => absurd hi (by simp [task, TaskPoint.Started])⟩
    exact (Mealy.traceFrom_eq_of_related (fun _ _ _ _ hs he => hs.step he) h hstart).2
  · have hstored := stored_before_subtracted he
    have hle : last ≤ now := by
      rw [he] at hclock
      exact hclock.le rfl hstored
    have hmem : .clock i (.subtract f now last) ∈ (task s₀).trace es := by
      rw [he]
      exact List.mem_append_right p List.mem_cons_self
    have hlt : now < 2 ^ 64 := reading_lt hmem
    exact ⟨hstored, hle, elapsed_of_le hle hlt⟩

/-- Memory in which everything is set. -/
def dirtySocket : SocketData where
  socketId := 9
  listeningPort := 9
  socketOpen := true
  receiveBuffer := ⟨List.replicate bufferSize 255, by simp⟩
  receiveSize := 100
  sendBuffer := ⟨List.replicate bufferSize 255, by simp⟩
  sendSize := 100
  lastCommandReceived := 2 ^ 63
  lastCommandSend := 2 ^ 63

/-- A step in which nothing is in `send_queue`, and `stack` on the stack. -/
def Env.quiet (a : Answers) (stack : Message) : Env :=
  ⟨true, true, none, { a with receivedMessage := stack }, stack⟩

theorem Env.agrees_quiet (a : Answers) (stack stack' : Message) :
    (Env.quiet a stack).Agrees (Env.quiet a stack') :=
  ⟨rfl, rfl, rfl, ⟨stack', rfl⟩⟩

/-- The server starts, and a connection on the first socket is seen twice:
at 10 and at 20 microseconds. -/
def twoRounds : List Answers :=
  List.replicate 7 (.status .other 0 0) ++
    [{ Answers.status .established 10 0 with timeOpenSend := 10 }] ++
    List.replicate 5 (.status .other 0 0) ++
    [{ Answers.status .established 20 0 with timeHeartbeat := 20 }]

/-- What the run does: four sockets are opened, and the clock is read. -/
def twoRoundsTrace : List Output :=
  [2, 3, 4, 5].map (fun sn => .call (.socket sn listeningPort)) ++
    clockLog 0 [.store .received 10, .store .send 10, .subtract .received 10 10]

theorem storage_never_shows_twoRounds :
    (task fun _ => dirtySocket).trace (twoRounds.map (.quiet · ⟨-1, 3, .setSpeed⟩)) =
      (task fun _ => .fresh).trace (twoRounds.map (.quiet · noMessage)) ∧
    .clock 0 (.store .send 10) ∈ twoRoundsTrace ∧ 10 ≤ 20 ∧ elapsed 20 10 = 20 - 10 := by
  have hagree : List.Forall₂ Env.Agrees (twoRounds.map (.quiet · noMessage))
      (twoRounds.map (.quiet · ⟨-1, 3, .setSpeed⟩)) := by
    rw [List.forall₂_map_left_iff, List.forall₂_map_right_iff]
    exact List.forall₂_same.mpr fun a _ => Env.agrees_quiet a _ _
  obtain ⟨htrace, hclock⟩ :=
    @storage_never_shows (fun _ => .fresh) (fun _ => dirtySocket) _ _ hagree
  exact ⟨htrace, hclock (by decide +kernel) twoRoundsTrace
    [.clock 0 (.subtract .received 20 10)] 0 .send 20 10 (by decide +kernel)⟩

end VentControl.Server
