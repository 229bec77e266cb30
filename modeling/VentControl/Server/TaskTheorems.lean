/-
VentControl.Server.TaskTheorems — the machines for one socket run what
`server_task` runs.

`socketOps` is what a run of `server_task` does with one of its sockets:
bodies of the serving loop, and initialisations at the starts of the
server. In a stretch of a run without a start it is a list of bodies, and
then the socket and what is put on `receive_queue` for it are those of
`connection` (`connection_task`).

`peer` is a run of `connection` in which the chip answers as the state of
the connection has it (`peer_connection`), so it is a stretch of
`server_task` with such a chip (`peer_task`).

`receiveSide` makes the calls of `server_loop` and
`handle_receive_bufffer` in any order; a start of the server, and the
bodies after it, make them in one of these orders (`bodyCalls`). What
differs is the send side, which no call of the receive side reads
(`SameReceive`): so in `receiveSide` the receive buffer, `receive_size`
and the writes are those of the task (`receiveSide_task`).
-/
import VentControl.Server.BoundsTheorems
import VentControl.Server.CloseTheorems
import VentControl.Server.FreshTheorems

namespace VentControl.Server

open Runs CString

/-! ## The bodies of a socket -/

/-- The body, as a step of the socket. -/
def Body.op (b : Body) : SocketOp := .body b.message b.answers

/-- The messages among the outputs. -/
def queuedOf (outs : List Output) : List Message :=
  outs.filterMap fun
    | .queued m => some m
    | _ => none

@[simp] theorem queuedOf_append (outs outs' : List Output) :
    queuedOf (outs ++ outs') = queuedOf outs ++ queuedOf outs' :=
  List.filterMap_append

@[simp] theorem queuedOf_queued (ms : List Message) : queuedOf (ms.map .queued) = ms := by
  simp [queuedOf, List.filterMap_map]

@[simp] theorem queuedOf_call (cs : List Call) : queuedOf (cs.map .call) = [] := by
  simp [queuedOf]

@[simp] theorem queuedOf_clock (i : Fin listeningSocketCount) (us : List ClockUse) :
    queuedOf (us.map (.clock i)) = [] := by
  simp [queuedOf]

/-- What a run puts on `receive_queue` in the bodies of socket `i`. -/
def queuedOn (i : Fin listeningSocketCount) : TaskState → List Env → List Message
  | _, [] => []
  | t, e :: es =>
    (match t.point.socketOp i e.answers with
      | some (.body _ _) => queuedOf (serverStep t e).2
      | _ => []) ++ queuedOn i (serverStep t e).1 es

/-- What a step does to socket `i`, and what it puts on `receive_queue` if it
is the body for it. -/
theorem serverStep_socketOp (t : TaskState) (e : Env) (i : Fin listeningSocketCount) :
    match t.point.socketOp i e.answers with
    | none => (serverStep t e).1.sockets i = t.sockets i
    | some (.init j a) => (serverStep t e).1.sockets i = (initSocket j a (t.sockets i)).1
    | some (.body m a) => (serverStep t e).1.sockets i = (serverBody m a (t.sockets i)).1 ∧
        queuedOf (serverStep t e).2 = (serverBody m a (t.sockets i)).2.2 := by
  cases hp : t.point with
  | waiting => simp [TaskPoint.socketOp, serverStep, hp]
  | head => simp [TaskPoint.socketOp, serverStep, hp]
  | taking =>
    simp only [TaskPoint.socketOp, serverStep, hp]
    cases e.received <;> rfl
  | starting j =>
    by_cases hj : j = i
    · subst hj
      simp [TaskPoint.socketOp, serverStep, hp]
    · simp [TaskPoint.socketOp, serverStep, hp, hj, Ne.symm hj]
  | body m j =>
    by_cases hj : j = i
    · subst hj
      simp [TaskPoint.socketOp, serverStep, hp]
    · simp [TaskPoint.socketOp, serverStep, hp, hj, Ne.symm hj]

theorem connection_runFrom (s₀ : Fin listeningSocketCount → SocketData) (c : SocketData)
    (i : Fin listeningSocketCount) {t : TaskState} {es : List Env} {bs : List Body}
    (h : socketOps i t es = bs.map Body.op) :
    ((task s₀).runFrom t es).sockets i = (connection c).runFrom (t.sockets i) bs ∧
      queuedOn i t es = (connection c).traceFrom (t.sockets i) bs := by
  induction es generalizing t bs with
  | nil =>
    obtain rfl : bs = [] := by simpa [socketOps] using h.symm
    exact ⟨rfl, rfl⟩
  | cons e es ih =>
    have hstep := serverStep_socketOp t e i
    rw [socketOps] at h
    rw [Mealy.runFrom_cons, queuedOn]
    cases hop : t.point.socketOp i e.answers with
    | none =>
      simp only [hop, Option.toList_none, List.nil_append] at h hstep ⊢
      rw [← hstep]
      exact ih h
    | some op =>
      simp only [hop, Option.toList_some, List.singleton_append] at h hstep ⊢
      cases bs with
      | nil => simp at h
      | cons b bs =>
        obtain ⟨hhead, hrest⟩ := List.cons.inj h
        cases op with
        | init j a => cases hhead
        | body m a =>
          cases hhead
          obtain ⟨hsocket, hqueued⟩ := hstep
          obtain ⟨hrun, htrace⟩ := ih hrest
          rw [hsocket] at hrun htrace
          refine ⟨hrun, ?_⟩
          show queuedOf (serverStep t e).2 ++ _ = _
          rw [hqueued, htrace]
          rfl

/-- **A stretch of `server_task` without a start** takes each socket through a
run of `connection`, and puts on `receive_queue` for it what that run
does. -/
theorem connection_task (s₀ : Fin listeningSocketCount → SocketData)
    (i : Fin listeningSocketCount) {t : TaskState} {es : List Env} {bs : List Body}
    (h : socketOps i t es = bs.map Body.op) :
    ((task s₀).runFrom t es).sockets i = (connection (t.sockets i)).run bs ∧
      queuedOn i t es = (connection (t.sockets i)).trace bs :=
  connection_runFrom s₀ (t.sockets i) i h

/-! ## A connection with its client -/

/-- The body an event stands for, with the answers the chip gives. -/
def Peer.body (p : Peer) : PeerEvent → Option Body
  | .segment _ => none
  | .fin => none
  | .body m a => if p.closed then none else some ⟨m, p.answers a⟩

/-- The bodies of a run. -/
def Peer.bodies : Peer → List PeerEvent → List Body
  | _, [] => []
  | p, e :: es => (p.body e).toList ++ bodies (p.step e).1 es

/-- **A run of `peer` is one of `connection`**, with a chip that answers for
both sides. -/
theorem peer_connection (s₀ : SocketData) (es : List PeerEvent) :
    ((peer s₀).run es).socket =
        (connection (Peer.start s₀).socket).run ((Peer.start s₀).bodies es) ∧
      (peer s₀).trace es =
        (connection (Peer.start s₀).socket).trace ((Peer.start s₀).bodies es) := by
  have hfrom : ∀ p : Peer,
      ((peer s₀).runFrom p es).socket =
          (connection (Peer.start s₀).socket).runFrom p.socket (p.bodies es) ∧
        (peer s₀).traceFrom p es =
          (connection (Peer.start s₀).socket).traceFrom p.socket (p.bodies es) := by
    induction es with
    | nil => exact fun p => ⟨rfl, rfl⟩
    | cons e es ih =>
      intro p
      obtain ⟨hrun, htrace⟩ := ih (p.step e).1
      rw [Mealy.runFrom_cons, Mealy.traceFrom_cons, Peer.bodies]
      show ((peer s₀).runFrom (p.step e).1 es).socket = _ ∧
        (p.step e).2 ++ (peer s₀).traceFrom (p.step e).1 es = _
      rw [hrun, htrace]
      cases e with
      | segment f =>
        by_cases hfin : p.fin = true <;> simp [Peer.step, Peer.body, hfin]
      | fin => simp [Peer.step, Peer.body]
      | body m a =>
        by_cases hclosed : p.closed = true
        · simp [Peer.step, Peer.body, hclosed]
        · by_cases hfin : p.fin = true <;> simp [Peer.step, Peer.body, hclosed, hfin, connection]
  exact hfrom (.start s₀)

theorem Peer.start_socket {s : SocketData} (hsend : s.sendSize = 0)
    (hreceive : s.receiveSize = 0) : (Peer.start s).socket = s := by
  cases s
  cases hsend
  cases hreceive
  rfl

/-- **It is a stretch of `server_task`** with such a chip, from where
SOCK_INIT has cleared the two counts. -/
theorem peer_task (s₀ : Fin listeningSocketCount → SocketData) (i : Fin listeningSocketCount)
    {t : TaskState} {es : List Env} {ps : List PeerEvent}
    (hsend : (t.sockets i).sendSize = 0) (hreceive : (t.sockets i).receiveSize = 0)
    (h : socketOps i t es = ((Peer.start (t.sockets i)).bodies ps).map Body.op) :
    ((task s₀).runFrom t es).sockets i = ((peer (t.sockets i)).run ps).socket ∧
      queuedOn i t es = (peer (t.sockets i)).trace ps := by
  obtain ⟨hrun, htrace⟩ := connection_task s₀ i h
  obtain ⟨hsocket, hmessages⟩ := peer_connection (t.sockets i) ps
  rw [hrun, htrace, hsocket, hmessages, Peer.start_socket hsend hreceive]
  exact ⟨rfl, rfl⟩

/-! ## The calls of the receive side -/

/-- The same receive side. -/
structure SameReceive (s s' : SocketData) : Prop where
  receiveBuffer : s'.receiveBuffer = s.receiveBuffer
  receiveSize : s'.receiveSize = s.receiveSize

theorem SameReceive.serverLoop {s s' : SocketData} (h : SameReceive s s') (a : Answers) :
    SameReceive (serverLoop a s).1 (serverLoop a s').1 ∧
      (Server.serverLoop a s').2.filterMap Call.write =
        (Server.serverLoop a s).2.filterMap Call.write := by
  have hread : s'.read a = s.read a := by
    rw [SocketData.read, SocketData.read, h.receiveBuffer, h.receiveSize]
  refine ⟨?_, by rw [serverLoop_writes, serverLoop_writes, h.receiveSize]⟩
  obtain ⟨hsr, hrx, hbuf, hsize⟩ | ⟨hsr, hbuf, hsize⟩ | ⟨hsr, hno, hbuf, hsize⟩ :=
      serverLoop_receive a s <;>
    obtain ⟨hsr', hrx', hbuf', hsize'⟩ | ⟨hsr', hbuf', hsize'⟩ | ⟨hsr', hno', hbuf', hsize'⟩ :=
      serverLoop_receive a s'
  · exact ⟨by rw [hbuf, hbuf', hread], by rw [hsize, hsize', h.receiveSize]⟩
  · exact absurd (hsr.symm.trans hsr') (by decide)
  · exact absurd ⟨hsr, hrx⟩ hno'
  · exact absurd (hsr'.symm.trans hsr) (by decide)
  · exact ⟨by rw [hbuf, hbuf', h.receiveBuffer], by rw [hsize, hsize']⟩
  · exact absurd hsr hsr'
  · exact absurd ⟨hsr', hrx'⟩ hno
  · exact absurd hsr' hsr
  · exact ⟨by rw [hbuf, hbuf', h.receiveBuffer], by rw [hsize, hsize', h.receiveSize]⟩

/-- The parser of the one finds what that of the other does. -/
theorem SameReceive.handleReceiveBufffer {s s' : SocketData} (h : SameReceive s s')
    (m m' : Message) :
    (handleReceiveBufffer s' m').1 = (handleReceiveBufffer s m).1 ∧
      SameReceive (Server.handleReceiveBufffer s m).2.1
        (Server.handleReceiveBufffer s' m').2.1 := by
  unfold Server.handleReceiveBufffer
  rw [h.receiveBuffer, h.receiveSize]
  cases strnstr hash s.receiveBuffer.bytes s.receiveSize with
  | none => exact ⟨rfl, h⟩
  | some k =>
    dsimp only
    cases matchCommand (s.receiveBuffer.store k [0]) <;> exact ⟨rfl, rfl, rfl⟩

/-- The calls of the drain loop, as `drainFor` makes them. -/
def drainCalls : Nat → SocketData → Message → List ReceiveOp
  | 0, _, _ => []
  | fuel + 1, s, message =>
    .handleReceiveBufffer message ::
      match handleReceiveBufffer s message with
      | (true, s', m) => drainCalls fuel s' m
      | (false, _, _) => []

/-- The calls of a body. -/
def bodyCalls (b : Body) (s : SocketData) : List ReceiveOp :=
  let s₁ := (serverLoop b.answers (fillSendBuffer b.message b.answers s)).1
  .serverLoop b.answers ::
    if s₁.socketOpen then drainCalls (s₁.receiveSize + 1) s₁ b.answers.receivedMessage else []

/-- The calls of the bodies of a socket. -/
def bodiesCalls : SocketData → List Body → List ReceiveOp
  | _, [] => []
  | s, b :: bs => bodyCalls b s ++ bodiesCalls (serverBody b.message b.answers s).1 bs

/-- The writes of the bodies of a socket. -/
def bodiesWrites : SocketData → List Body → List Access
  | _, [] => []
  | s, b :: bs =>
    (serverBody b.message b.answers s).2.1.filterMap Call.write ++
      bodiesWrites (serverBody b.message b.answers s).1 bs

/-- The access is a write. -/
def Access.isWrite : Access → Bool
  | .write _ _ => true
  | .search _ => false

theorem filter_isWrite_write (cs : List Call) :
    (cs.filterMap Call.write).filter Access.isWrite = cs.filterMap Call.write := by
  rw [List.filter_eq_self]
  intro w hw
  obtain ⟨c, -, hc⟩ := List.mem_filterMap.mp hw
  cases c <;> cases hc <;> rfl

section Calls

variable (s₀ c₀ : SocketData)

theorem receiveSide_drain (n : Nat) {s : SocketData} {r : ReceiveSide}
    (h : SameReceive s r.socket) (m : Message) :
    SameReceive (drainFor n s m).1 ((receiveSide s₀).runFrom r (drainCalls n s m)).socket ∧
      ((receiveSide s₀).traceFrom r (drainCalls n s m)).filter Access.isWrite = [] := by
  induction n generalizing s r m with
  | zero => exact ⟨h, rfl⟩
  | succ n ih =>
    have hstep := (h.handleReceiveBufffer m m).2
    rw [drainCalls, drainFor, Mealy.runFrom_cons, Mealy.traceFrom_cons]
    have hwrites : ((receiveSide s₀).step r (.handleReceiveBufffer m)).2.filter Access.isWrite =
        [] := rfl
    rw [List.filter_append, hwrites, List.nil_append]
    rcases hh : handleReceiveBufffer s m with ⟨found, s', m'⟩
    rw [hh] at hstep
    cases found with
    | true => exact ih hstep m'
    | false => exact ⟨hstep, rfl⟩

/-- One body. -/
theorem receiveSide_body (b : Body) {s : SocketData} {r : ReceiveSide}
    (h : SameReceive s r.socket) :
    SameReceive (serverBody b.message b.answers s).1
        ((receiveSide s₀).runFrom r (bodyCalls b s)).socket ∧
      ((receiveSide s₀).traceFrom r (bodyCalls b s)).filter Access.isWrite =
        (serverBody b.message b.answers s).2.1.filterMap Call.write := by
  have hfill : SameReceive (fillSendBuffer b.message b.answers s) r.socket :=
    ⟨by simpa using h.receiveBuffer, by simpa using h.receiveSize⟩
  obtain ⟨hloop, hwrites⟩ := hfill.serverLoop b.answers
  have hall : ((receiveSide s₀).step r (.serverLoop b.answers)).2.filter Access.isWrite =
      (serverLoop b.answers (fillSendBuffer b.message b.answers s)).2.filterMap Call.write := by
    rw [← hwrites]
    exact filter_isWrite_write _
  rw [bodyCalls, Mealy.runFrom_cons, Mealy.traceFrom_cons, List.filter_append, hall,
    serverBody_fst, serverBody_calls]
  split
  · obtain ⟨hdrain, hnone⟩ := receiveSide_drain s₀ _
      (r := ((receiveSide s₀).step r (.serverLoop b.answers)).1) hloop b.answers.receivedMessage
    exact ⟨hdrain, by rw [hnone, List.append_nil]⟩
  · exact ⟨hloop, by simp⟩

theorem receiveSide_bodies (bs : List Body) {s : SocketData} {r : ReceiveSide}
    (h : SameReceive s r.socket) :
    SameReceive ((connection c₀).runFrom s bs)
        ((receiveSide s₀).runFrom r (bodiesCalls s bs)).socket ∧
      ((receiveSide s₀).traceFrom r (bodiesCalls s bs)).filter Access.isWrite =
        bodiesWrites s bs := by
  induction bs generalizing s r with
  | nil => exact ⟨h, rfl⟩
  | cons b bs ih =>
    obtain ⟨hbody, hwrites⟩ := receiveSide_body s₀ b h
    obtain ⟨hrun, hrest⟩ := ih hbody
    rw [bodiesCalls, Mealy.runFrom_append, Mealy.traceFrom_append, List.filter_append, hwrites,
      hrest]
    exact ⟨hrun, rfl⟩

end Calls

/-- The first call on a socket that `server_task` has just initialised. -/
theorem receiveSide_init (j : Nat) (a : Answers) (s : SocketData) :
    SameReceive (initSocket j a s).1 ((receiveSide s).run [.serverLoop a]).socket ∧
      ((receiveSide s).trace [.serverLoop a]).filter Access.isWrite =
        (initSocket j a s).2.filterMap Call.write := by
  have hreset : SameReceive (resetSocket j s) { s with receiveSize := 0 } := ⟨rfl, rfl⟩
  obtain ⟨hloop, hwrites⟩ := hreset.serverLoop a
  refine ⟨hloop, ?_⟩
  show ((serverLoop a { s with receiveSize := 0 }).2.filterMap Call.write ++ []).filter _ =
    (serverLoop a (resetSocket j s)).2.filterMap Call.write
  rw [List.append_nil, filter_isWrite_write, hwrites]

/-- **From a start of the server on** the receive side of a socket, and the
writes to it, are those of `receiveSide`. -/
theorem receiveSide_task (s₀ : Fin listeningSocketCount → SocketData)
    (i : Fin listeningSocketCount) {t : TaskState} {es : List Env} {j : Nat} {a : Answers}
    {bs : List Body} (h : socketOps i t es = .init j a :: bs.map Body.op) :
    let s := (initSocket j a (t.sockets i)).1
    let calls := .serverLoop a :: bodiesCalls s bs
    SameReceive (((task s₀).runFrom t es).sockets i)
        ((receiveSide (t.sockets i)).run calls).socket ∧
      ((receiveSide (t.sockets i)).trace calls).filter Access.isWrite =
        (initSocket j a (t.sockets i)).2.filterMap Call.write ++ bodiesWrites s bs := by
  induction es generalizing t with
  | nil => cases h
  | cons e es ih =>
    have hstep := serverStep_socketOp t e i
    rw [socketOps] at h
    rw [Mealy.runFrom_cons]
    cases hop : t.point.socketOp i e.answers with
    | none =>
      simp only [hop, Option.toList_none, List.nil_append] at h hstep
      rw [← hstep]
      exact ih h
    | some op =>
      simp only [hop, Option.toList_some, List.singleton_append] at h hstep
      obtain ⟨rfl, hrest⟩ := List.cons.inj h
      have hbodies := (connection_runFrom s₀ (t.sockets i) i hrest).1
      rw [hstep] at hbodies
      obtain ⟨hinit, hfirst⟩ := receiveSide_init j a (t.sockets i)
      obtain ⟨hrun, hwrites⟩ := receiveSide_bodies (t.sockets i) (t.sockets i) bs hinit
      refine ⟨?_, ?_⟩
      · show SameReceive (((task s₀).runFrom (serverStep t e).1 es).sockets i) _
        rw [hbodies]
        exact hrun
      · show ((receiveSide (t.sockets i)).traceFrom _ ([.serverLoop a] ++ _)).filter _ = _
        rw [Mealy.traceFrom_append, List.filter_append, ← hfirst, ← hwrites]
        rfl

end VentControl.Server
