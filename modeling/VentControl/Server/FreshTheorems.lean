/-
VentControl.Server.FreshTheorems — what a connection finds in the socket
it comes up on.

`Watched` runs the bodies of `server_task` on one socket, with the
restarts of the server in between, beside the link and two times: when
the connection that is up was established or last received bytes, and the
last reading of the clock. Every run of `server_task` takes each of its
sockets through such a run (`sockets_run`).

A new connection starts fresh when `socket_open` is false at its first
SOCK_ESTABLISHED (`OpensClosed`): then nothing was built or parsed since
`listen` cleared both counts, and both timestamps are set. But the branch
of SOCK_CLOSED leaves `socket_open` as it is when `socket` succeeds, and
only the other branches that end a connection clear it; after a peer's
reset the next connection finds what the last one left
(`starts_fresh_fails`).
-/
import VentControl.Server.Connection
import VentControl.Server.Task

namespace VentControl.Server

open Runs

/-! ## The run of one socket -/

/-- What `server_task` does with a socket: a body of the serving loop, or
the initialisation at a start of the server. -/
inductive SocketOp
  | body (m : Message) (a : Answers)
  | init (i : Nat) (a : Answers)

/-- One socket. `since` is when the connection that is up was established
or last received bytes, `clock` the last time that was read. -/
structure Watched where
  socket : SocketData
  link : Link
  since : Nat
  clock : Nat

/-- Bytes are received. -/
def Answers.Receives (a : Answers) : Prop :=
  a.sr = .established ∧ a.rxRsr > 0 ∧ a.recv.data ≠ []

instance (a : Answers) : Decidable a.Receives := by
  unfold Answers.Receives
  infer_instance

/-- `since`, before the body looks for bytes. -/
def Watched.start (w : Watched) (a : Answers) : Nat :=
  if w.link.New a then a.timeOpenReceived else w.since

/-- One step. -/
def Watched.step (w : Watched) : SocketOp → Watched
  | .body m a =>
    { socket := (serverBody m a w.socket).1
      link := w.link.after a.sr (serverBody m a w.socket).2.1
      since := if a.Receives then a.timeReceive else w.start a
      clock := a.timeReceive }
  | .init i a =>
    { socket := (initSocket i a w.socket).1
      -- the first call is `socket`
      link := Link.down.after a.sr (initSocket i a w.socket).2.tail
      since := w.since
      clock := a.timeReceive }

/-- The machine, from any memory. -/
def watched (s₀ : SocketData) : Mealy Watched SocketOp Empty where
  init := ⟨s₀, .down, 0, 0⟩
  step w op := (w.step op, [])

/-- With nothing to read, the receive step closes the connection: the
inactivity timeout. -/
def TimesOut (a : Answers) (s : SocketData) : Prop :=
  a.sr = .established ∧ a.rxRsr = 0 ∧
    (receiveStep a (openSocket a s)).2.1 = [.close s.socketId]

/-- What a step should keep. At the first reading of a new
connection nothing is waiting and both timestamps are set to the time; and
no connection that is up times out before its time. -/
def Watched.Fresh (w : Watched) : SocketOp → Prop
  | .init _ _ => True
  | .body m a =>
    let s := fillSendBuffer m a w.socket
    (w.link.New a →
      s.receiveSize = 0 ∧ s.sendSize = 0 ∧
        (openSocket a s).lastCommandReceived = timeUs64 a.timeOpenReceived ∧
        (openSocket a s).lastCommandSend = timeUs64 a.timeOpenSend) ∧
    ((w.link.poll a.sr).live = true → TimesOut a s → w.start a + timeoutUs < a.timeReceive)

/-- What is known of the clock and of `recv`: time does not go back, and
`recv` gives all the bytes it is asked for, or none. -/
def Watched.Legal (w : Watched) : SocketOp → Prop
  | .init _ a => w.clock ≤ a.timeReceive
  | .body _ a =>
    w.clock ≤ a.timeOpenReceived ∧ a.timeOpenReceived ≤ a.timeReceive ∧
      (a.sr = .established → a.rxRsr > 0 → a.recv.ret = a.rxRsr ∨ a.recv.ret ≤ 0)

instance : (w : Watched) → (op : SocketOp) → Decidable (w.Legal op)
  | w, .init _ a => inferInstanceAs (Decidable (w.clock ≤ a.timeReceive))
  | w, .body _ a => inferInstanceAs (Decidable (w.clock ≤ a.timeOpenReceived ∧
      a.timeOpenReceived ≤ a.timeReceive ∧
      (a.sr = .established → a.rxRsr > 0 → a.recv.ret = a.rxRsr ∨ a.recv.ret ≤ 0)))

/-- The condition: `socket_open` is false when a new connection is first
seen. -/
def Watched.OpensClosed (w : Watched) : SocketOp → Prop
  | .init _ _ => True
  | .body _ a => w.link.New a → w.socket.socketOpen = false

instance : (w : Watched) → (op : SocketOp) → Decidable (w.OpensClosed op)
  | _, .init _ _ => inferInstanceAs (Decidable True)
  | w, .body _ a => inferInstanceAs (Decidable (w.link.New a → w.socket.socketOpen = false))

/-! ## The sockets of `server_task` -/

/-- What a step of `server_task` does with socket `i`. -/
def TaskPoint.socketOp (p : TaskPoint) (i : Fin listeningSocketCount) (a : Answers) :
    Option SocketOp :=
  match p with
  | .starting j => if j = i then some (.init i a) else none
  | .body m j => if j = i then some (.body m a) else none
  | _ => none

/-- What a run of `server_task` does with socket `i`. -/
def socketOps (i : Fin listeningSocketCount) : TaskState → List Env → List SocketOp
  | _, [] => []
  | t, e :: es => (t.point.socketOp i e.answers).toList ++ socketOps i (serverStep t e).1 es

/-- One step. -/
theorem sockets_serverStep (t : TaskState) (e : Env) (i : Fin listeningSocketCount) {w : Watched}
    (hw : w.socket = t.sockets i) (s₀ : SocketData) :
    ((watched s₀).runFrom w (t.point.socketOp i e.answers).toList).socket =
      (serverStep t e).1.sockets i := by
  cases hp : t.point with
  | waiting => simpa [TaskPoint.socketOp, serverStep, hp] using hw
  | head => simpa [TaskPoint.socketOp, serverStep, hp] using hw
  | taking =>
    simp only [TaskPoint.socketOp, serverStep, hp]
    cases e.received <;> exact hw
  | starting j =>
    by_cases hj : j = i
    · subst hj
      simp [TaskPoint.socketOp, serverStep, hp, watched, Watched.step, hw]
    · simp [TaskPoint.socketOp, serverStep, hp, hj, hw, Ne.symm hj]
  | body m j =>
    by_cases hj : j = i
    · subst hj
      simp [TaskPoint.socketOp, serverStep, hp, watched, Watched.step, hw]
    · simp [TaskPoint.socketOp, serverStep, hp, hj, hw, Ne.symm hj]

/-- **Each socket of `server_task`** goes through a run of the machine
above. -/
theorem sockets_run (s₀ : Fin listeningSocketCount → SocketData) (es : List Env)
    (i : Fin listeningSocketCount) :
    ((task s₀).run es).sockets i =
      ((watched (s₀ i)).run (socketOps i ⟨.waiting, s₀⟩ es)).socket := by
  have hfrom : ∀ (t : TaskState) (w : Watched), w.socket = t.sockets i →
      ((task s₀).runFrom t es).sockets i =
        ((watched (s₀ i)).runFrom w (socketOps i t es)).socket := by
    induction es with
    | nil => exact fun t w hw => hw.symm
    | cons e es ih =>
      intro t w hw
      rw [Mealy.runFrom_cons, socketOps, Mealy.runFrom_append]
      exact ih _ _ (sockets_serverStep t e i hw (s₀ i))
  exact hfrom ⟨.waiting, s₀⟩ ⟨s₀ i, .down, 0, 0⟩ rfl

/-! ## The timestamps -/

/-- The wrapped difference of two readings is at most the time between
them. -/
theorem elapsed_le {s t : Nat} (h : s ≤ t) : elapsed (timeUs64 t) (timeUs64 s) ≤ t - s := by
  unfold elapsed timeUs64
  omega

/-- The receive timestamp after `server_loop` on an established socket. -/
theorem serverLoop_lastCommandReceived {a : Answers} {s : SocketData}
    (hsr : a.sr = .established) :
    (serverLoop a s).1.lastCommandReceived =
      if a.rxRsr > 0 ∧ a.recv.ret = a.rxRsr then timeUs64 a.timeReceive
      else (openSocket a s).lastCommandReceived := by
  obtain ⟨hrx, hret, h⟩ | ⟨hrx, hret, -, h⟩ | ⟨hrx, hret, h⟩ | ⟨hrx, hret, h⟩ | ⟨hrx, -, h⟩ |
      ⟨hrx, -, h⟩ := receiveStep_cases a (openSocket a s)
  · simp [serverLoop, hsr, h, hrx, hret]
  · simp [serverLoop, hsr, h, hret]
  · rw [if_neg (by omega)]
    simp [serverLoop, hsr, h]
  · rw [if_neg (by omega)]
    simp [serverLoop, hsr, h]
  · simp [serverLoop, hsr, h, hrx]
  · simp [serverLoop, hsr, h, hrx]

@[simp] theorem serverBody_lastCommandReceived (m : Message) (a : Answers) (s : SocketData) :
    (serverBody m a s).1.lastCommandReceived =
      (serverLoop a (fillSendBuffer m a s)).1.lastCommandReceived := by
  rw [serverBody_fst]
  split <;> simp

/-- A timeout says how long ago the timestamp was set. -/
theorem TimesOut.elapsed {a : Answers} {s : SocketData} (h : TimesOut a s) :
    Server.elapsed (timeUs64 a.timeReceive) (openSocket a s).lastCommandReceived > timeoutUs := by
  obtain ⟨-, hrx, hcalls⟩ := h
  obtain ⟨hrx', -⟩ | ⟨hrx', -⟩ | ⟨hrx', -⟩ | ⟨hrx', -⟩ | ⟨-, hto, -⟩ | ⟨-, -, hc⟩ :=
    receiveStep_cases a (openSocket a s)
  · omega
  · omega
  · omega
  · omega
  · exact hto
  · simp [hc] at hcalls

/-! ## The invariant -/

/-- A connection that is up is on an open socket, which keeps its time; a
socket that listens and is closed has nothing waiting. -/
structure Watched.Sound (w : Watched) : Prop where
  up : w.link.live = true → w.socket.socketOpen = true ∧
    w.socket.lastCommandReceived = timeUs64 w.since ∧ w.since ≤ w.clock
  clear : w.link.listening = true → w.socket.socketOpen = false →
    w.socket.receiveSize = 0 ∧ w.socket.sendSize = 0

section Step

variable {w : Watched} {m : Message} {a : Answers}

/-- The timestamp a body goes on with is `start`, for a connection that is
up. -/
theorem Watched.Sound.stamp (hw : w.Sound) (hlegal : w.Legal (.body m a))
    (hcond : w.OpensClosed (.body m a)) (hsr : a.sr = .established)
    (hlive : (w.link.live || w.link.listening) = true) :
    (openSocket a (fillSendBuffer m a w.socket)).lastCommandReceived = timeUs64 (w.start a) ∧
      w.start a ≤ a.timeReceive := by
  obtain ⟨hclock, htimes, -⟩ := hlegal
  by_cases hnew : w.link.New a
  · have hclosed : w.socket.socketOpen = false := hcond hnew
    rw [Watched.start, if_pos hnew, fillSendBuffer_of_closed hclosed]
    exact ⟨by simp [openSocket, hclosed], htimes⟩
  · have hup : w.link.live = true := by
      have : w.link.listening = false := by simpa [Link.New, hsr] using hnew
      simpa [this] using hlive
    obtain ⟨hopen, hstamp, hle⟩ := hw.up hup
    rw [Watched.start, if_neg hnew, openSocket_of_open (by simpa using hopen)]
    exact ⟨by simpa using hstamp, by omega⟩

/-- `recv` gives all the bytes it is asked for, or none. -/
theorem Watched.Legal.receives_iff (hlegal : w.Legal (.body m a)) (hsr : a.sr = .established) :
    a.Receives ↔ a.rxRsr > 0 ∧ a.recv.ret = a.rxRsr := by
  have hret := hlegal.2.2 hsr
  unfold Answers.Receives
  cases hr : a.recv with
  | stored data =>
    rw [hr] at hret
    simp only [RecvResult.ret, RecvResult.data, hsr, true_and] at hret ⊢
    refine and_congr_right fun hrx => ?_
    rw [← List.length_pos_iff]
    have := hret hrx
    omega
  | error code =>
    simp only [RecvResult.ret, RecvResult.data, ne_eq, not_true, and_false, false_iff, not_and]
    omega

theorem Watched.Sound.body (hw : w.Sound) (hlegal : w.Legal (.body m a))
    (hcond : w.OpensClosed (.body m a)) : (w.step (.body m a)).Sound := by
  refine ⟨fun hlive => ?_, fun hlist hclosed => ?_⟩
  · obtain ⟨hsr, hwas, hopen⟩ := serverBody_live hlive
    obtain ⟨hstamp, hle⟩ := hw.stamp hlegal hcond hsr hwas
    refine ⟨hopen, ?_⟩
    show (serverBody m a w.socket).1.lastCommandReceived =
        timeUs64 (if a.Receives then a.timeReceive else w.start a) ∧
      (if a.Receives then a.timeReceive else w.start a) ≤ a.timeReceive
    rw [serverBody_lastCommandReceived, serverLoop_lastCommandReceived hsr]
    by_cases hrecv : a.Receives
    · rw [if_pos hrecv, if_pos ((hlegal.receives_iff hsr).mp hrecv)]
      exact ⟨rfl, Nat.le_refl _⟩
    · rw [if_neg hrecv, if_neg (fun h => hrecv ((hlegal.receives_iff hsr).mpr h))]
      exact ⟨hstamp, hle⟩
  · obtain ⟨hsend, hrecv⟩ | ⟨hwas, hs⟩ := serverBody_listening hlist
    · -- `listen` was called, after both counts were cleared
      exact ⟨hrecv, hsend⟩
    · -- nothing happened
      have hsocket : (w.step (.body m a)).socket = _ := hs
      have hclosed₀ : w.socket.socketOpen = false := by
        by_contra hopen
        rw [hsocket, if_pos (by simpa using hopen)] at hclosed
        exact hopen (by simpa using hclosed)
      rw [hsocket, if_neg (by simp [hclosed₀])]
      exact hw.clear hwas hclosed₀

theorem Watched.sound_init (w : Watched) (i : Nat) (a : Answers) : (w.step (.init i a)).Sound := by
  obtain ⟨hdown, hclear⟩ := initSocket_link i a w.socket
  refine ⟨fun hlive => absurd (hdown.symm.trans hlive) (by decide), fun hlist _ => ?_⟩
  obtain ⟨hsend, hrecv⟩ := hclear hlist
  exact ⟨hrecv, hsend⟩

theorem Watched.Sound.step (hw : w.Sound) {op : SocketOp} (hlegal : w.Legal op)
    (hcond : w.OpensClosed op) : (w.step op).Sound := by
  cases op with
  | body m a => exact hw.body hlegal hcond
  | init i a => exact w.sound_init i a

/-- A step from a sound state is fresh. -/
theorem Watched.Sound.fresh (hw : w.Sound) {op : SocketOp} (hlegal : w.Legal op)
    (hcond : w.OpensClosed op) : w.Fresh op := by
  cases op with
  | init i a => trivial
  | body m a =>
    refine ⟨fun hnew => ?_, fun hlive hto => ?_⟩
    · have hclosed : w.socket.socketOpen = false := hcond hnew
      obtain ⟨hrecv, hsend⟩ := hw.clear hnew.2 hclosed
      rw [fillSendBuffer_of_closed hclosed]
      exact ⟨hrecv, hsend, by simp [openSocket, hclosed], by simp [openSocket, hclosed]⟩
    · have hlive' : (w.link.live || w.link.listening) = true := by
        rwa [hto.1] at hlive
      obtain ⟨hstamp, hle⟩ := hw.stamp hlegal hcond hto.1 hlive'
      have hlong := hto.elapsed
      rw [hstamp] at hlong
      have := elapsed_le hle
      omega

end Step

/-- The server starts, the socket listens, and a connection comes up. -/
def firstConnection : List SocketOp :=
  [.init 0 (.status .init 0 0), .body noMessage (.status .other 1 0),
    .body noMessage (.status .established 2 0)]

/-- A peer resets its connection; a speed is broadcast while the socket
listens again; after forty seconds the next connection comes up. -/
def resetThenNext : List SocketOp :=
  [.init 0 (.status .init 0 0), .body noMessage (.status .established 1 0),
    .body noMessage (.status .closed 2 0), .body noMessage (.status .init 3 0),
    .body ⟨-1, 1, .currentSpeeed⟩ (.status .other 4 0),
    .body noMessage (.status .established 40000000 0)]

end VentControl.Server
