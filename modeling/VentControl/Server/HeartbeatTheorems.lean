/-
VentControl.Server.HeartbeatTheorems — how long an open connection goes
without a send.

`server_task` builds a heartbeat when `last_command_send` is more than
KEEP_ALIVE_SECONDS ago. What the timestamp is meant to be is `Conn.base`:
when `send` last took bytes on the connection, or when the connection was
established. `Pulse` is `server_task` with that time kept beside it, for
each socket.

As long as the two are the same, no body starts later than the bound
(`heartbeat_in_time`). They come apart when `send` returns SOCK_BUSY: it
has taken nothing, but `send_size` is cleared and the timestamp is set as
if it had (`heartbeat_refused`). A `recv` that returns SOCK_BUSY skips the
send step, so a heartbeat that is due is not sent; a connection that comes
up on a socket still open does not have its timestamp set; and bytes read
beyond the end of a receive buffer can overwrite `send_size` with 0.
-/
import VentControl.Server.Connection
import VentControl.Server.Task

namespace VentControl.Server

open Runs

/-! ## The time of the last send -/

/-- The call is a `send`. -/
def Call.isSend : Call → Bool
  | .send _ _ => true
  | _ => false

/-- The connection of a socket: the link, and when `send` last took bytes
on it, or when `last_command_send` was set as it was established. -/
structure Conn where
  link : Link
  base : Option Nat

/-- The base before the send step. A connection that comes up on a socket
still open has none: line 145 is skipped. -/
def Conn.opened (c : Conn) (a : Answers) (s : SocketData) : Option Nat :=
  if c.link.live then c.base
  else if s.socketOpen then none
  else some a.timeOpenSend

/-- After the body of the serving loop. -/
def Conn.body (c : Conn) (m : Message) (a : Answers) (s : SocketData) : Conn where
  link := c.link.after a.sr (serverBody m a s).2.1
  base :=
    if 0 < a.sendRet ∧ (serverBody m a s).2.1.any Call.isSend then some a.timeSend
    else c.opened a s

/-- After the initialisation, which begins with `socket`. -/
def Conn.start (i : Nat) (a : Answers) (s : SocketData) : Conn where
  link := Link.down.after a.sr (initSocket i a s).2.tail
  base := none

/-- `server_task` with its connections. `clock` is the last time that was
read. -/
structure Pulse where
  task : TaskState
  conns : Fin listeningSocketCount → Conn
  clock : Nat

/-- A step, and the time at which it starts. -/
structure TimedStep where
  start : Nat
  env : Env

def Pulse.step (w : Pulse) (e : TimedStep) : Pulse where
  task := (serverStep w.task e.env).1
  conns :=
    match w.task.point with
    | .starting i => Function.update w.conns i (.start i e.env.answers (w.task.sockets i))
    | .body m i =>
      Function.update w.conns i ((w.conns i).body m e.env.answers (w.task.sockets i))
    | _ => w.conns
  clock := e.env.answers.timeSend

/-- The machine, from any memory. -/
def pulse (s₀ : Fin listeningSocketCount → SocketData) : Mealy Pulse TimedStep Empty where
  init := ⟨⟨.waiting, s₀⟩, fun _ => ⟨.down, none⟩, 0⟩
  step w e := (w.step e, [])

/-- Its runs are the runs of `server_task`. -/
theorem pulse_task (s₀ : Fin listeningSocketCount → SocketData) (es : List TimedStep) :
    ((pulse s₀).run es).task = (task s₀).run (es.map TimedStep.env) := by
  induction es using List.reverseRecOn with
  | nil => rfl
  | append_singleton es e ih =>
    rw [List.map_append, List.map_singleton, Mealy.run_concat, Mealy.run_concat, ← ih]
    rfl

/-- From `start` on the clock is read in the order of the text, and
`time_us_64` does not wrap. -/
def Answers.InOrder (a : Answers) (start : Nat) : Prop :=
  start ≤ a.timeHeartbeat ∧ a.timeHeartbeat ≤ a.timeOpenReceived ∧
    a.timeOpenReceived ≤ a.timeOpenSend ∧ a.timeOpenSend ≤ a.timeReceive ∧
    a.timeReceive ≤ a.timeSend ∧ a.timeSend < 2 ^ 64

instance (a : Answers) (start : Nat) : Decidable (a.InOrder start) := by
  unfold Answers.InOrder
  infer_instance

/-- What is known of the clock: it does not go back. -/
def Pulse.Legal (w : Pulse) (e : TimedStep) : Prop :=
  w.clock ≤ e.start ∧ e.env.answers.InOrder e.start

instance Pulse.decidableLegal (w : Pulse) (e : TimedStep) : Decidable (w.Legal e) := by
  unfold Pulse.Legal
  infer_instance

/-! ## The guarantee and its condition -/

/-- An established socket that is open after the body: the body started at
most KEEP_ALIVE_SECONDS after the base. -/
def Conn.InTime (c : Conn) (start : Nat) (m : Message) (a : Answers) (s : SocketData) : Prop :=
  a.sr = .established → (serverBody m a s).1.socketOpen = true →
    ∃ t ∈ (c.body m a s).base, start ≤ t + keepAliveUs

instance (c : Conn) (start : Nat) (m : Message) (a : Answers) (s : SocketData) :
    Decidable (c.InTime start m a s) := by
  unfold Conn.InTime
  infer_instance

/-- The guarantee, for a step of `server_task`. -/
def Pulse.InTime (w : Pulse) (e : TimedStep) : Prop :=
  match w.task.point with
  | .body m i => (w.conns i).InTime e.start m e.env.answers (w.task.sockets i)
  | _ => True

instance (w : Pulse) (e : TimedStep) : Decidable (w.InTime e) := by
  unfold Pulse.InTime
  split <;> infer_instance

/-- The socket is open, and its last send looks longer ago than
KEEP_ALIVE_SECONDS. -/
def SocketData.Due (s : SocketData) (a : Answers) : Prop :=
  s.socketOpen = true ∧ elapsed (timeUs64 a.timeHeartbeat) s.lastCommandSend > keepAliveUs

instance (s : SocketData) (a : Answers) : Decidable (s.Due a) := by
  unfold SocketData.Due
  infer_instance

/-- There is something to send: a frame that waits, the message taken, or a
heartbeat. -/
def SocketData.ToSend (s : SocketData) (m : Message) (a : Answers) : Prop :=
  s.sendSize > 0 ∨ builtFrame m s ≠ [] ∨ s.Due a

instance (s : SocketData) (m : Message) (a : Answers) : Decidable (s.ToSend m a) := by
  unfold SocketData.ToSend
  infer_instance

/-- `recv` gave bytes, or there were none to read. -/
def Answers.GoesOn (a : Answers) : Prop := a.rxRsr > 0 → 0 < a.recv.ret

instance (a : Answers) : Decidable a.GoesOn := by
  unfold Answers.GoesOn
  infer_instance

/-- The condition on a body that finds the socket established: `recv` is
not busy when a heartbeat is due; `send` is not busy when it has something
to send; and a connection that comes up on a socket still open has
something to send at once. -/
def Conn.Unhindered (c : Conn) (m : Message) (a : Answers) (s : SocketData) : Prop :=
  (s.Due a → ¬ a.Busy) ∧
  (s.ToSend m a → a.GoesOn → a.sendRet ≠ sockBusy) ∧
  (c.link.live = false → s.socketOpen = true → s.ToSend m a ∧ ¬ a.Busy)

instance (c : Conn) (m : Message) (a : Answers) (s : SocketData) :
    Decidable (c.Unhindered m a s) := by
  unfold Conn.Unhindered
  infer_instance

/-- The condition on a step of `server_task`. What a read leaves behind the
end of a receive buffer falls on `send_size`, so there is none. -/
def Pulse.Unhindered (w : Pulse) (e : TimedStep) : Prop :=
  w.task.ReadsInside e.env.answers ∧
    match w.task.point with
    | .body m i =>
      e.env.answers.sr = .established →
        (w.conns i).Unhindered m e.env.answers (w.task.sockets i)
    | _ => True

instance (w : Pulse) (e : TimedStep) : Decidable (w.Unhindered e) := by
  unfold Pulse.Unhindered
  split <;> infer_instance

/-! ## One body -/

section Body

variable {m : Message} {a : Answers} {s : SocketData}

theorem frameOf_length_pos {f : List UInt8} (hf : frameOf m = some f) : 0 < f.length := by
  have hpos : ∀ c, 0 < (valueFrame c m.value).length := by
    intro c
    simp only [valueFrame, List.length_append, List.length_singleton]
    omega
  unfold frameOf at hf
  split at hf
  · exact Option.some.inj hf ▸ hpos 'S'
  · exact Option.some.inj hf ▸ hpos 'V'
  · exact Option.some.inj hf ▸ hpos 'T'
  · cases hf

@[simp] theorem buildFrame_lastCommandSend :
    (buildFrame m s).lastCommandSend = s.lastCommandSend := by
  unfold buildFrame
  split
  · split <;> rfl
  · rfl

/-- Something waits after the frame of the message was built. -/
theorem buildFrame_sendSize_pos (hopen : s.socketOpen = true) :
    (buildFrame m s).sendSize > 0 ↔ s.sendSize > 0 ∨ builtFrame m s ≠ [] := by
  by_cases haddr : s.Addressed m
  · cases hf : frameOf m with
    | none => simp [buildFrame, builtFrame, hf]
    | some f =>
      have hpos : 0 < f.length := frameOf_length_pos hf
      simp [buildFrame, builtFrame, hopen, haddr, hf, hpos]
  · simp [buildFrame, builtFrame, haddr]

/-- Something waits after the send buffer was filled exactly if there is
something to send. -/
theorem fillSendBuffer_sendSize_pos : (fillSendBuffer m a s).sendSize > 0 ↔ s.ToSend m a := by
  by_cases hopen : s.socketOpen = true
  · have hfill : fillSendBuffer m a s = buildHeartbeat a (buildFrame m s) := by
      simp [fillSendBuffer, hopen]
    have hdue : s.Due a ↔
        elapsed (timeUs64 a.timeHeartbeat) (buildFrame m s).lastCommandSend > keepAliveUs := by
      simp [SocketData.Due, hopen]
    rw [hfill, SocketData.ToSend, ← or_assoc, ← buildFrame_sendSize_pos hopen, hdue]
    unfold buildHeartbeat
    split
    · next h =>
      have hpos : 0 < heartbeatFrame.length := by decide
      exact ⟨fun _ => Or.inr h.2, fun _ => hpos⟩
    · next h =>
      refine ⟨Or.inl, fun hor => ?_⟩
      by_contra hzero
      have hempty : (buildFrame m s).sendSize = 0 := by omega
      exact h ⟨hempty, hor.resolve_left hzero⟩
  · have hclosed : s.socketOpen = false := by simpa using hopen
    simp [fillSendBuffer_of_closed hclosed, SocketData.ToSend, SocketData.Due, builtFrame, hclosed]

/-- A call that reads is no `send`. -/
theorem reads_isSend {r : List Call} (hr : ∀ c ∈ r, c.Reads) : r.any Call.isSend = false := by
  rw [List.any_eq_false]
  intro c hc
  have hreads := hr c hc
  cases c with
  | send sn bytes => exact hreads.elim
  | _ => simp [Call.isSend]

/-- The send timestamp after `server_loop` on an established socket. -/
theorem serverLoop_lastCommandSend (hsr : a.sr = .established) :
    (serverLoop a s).1.lastCommandSend =
      if (serverLoop a s).2.any Call.isSend then timeUs64 a.timeSend
      else (openSocket a s).lastCommandSend := by
  have hreads := reads_isSend (readCalls_reads a (openSocket a s))
  -- the send step, after a receive step that goes on
  have hsend : ∀ s₁ r, receiveStep a (openSocket a s) = (s₁, r, true) →
      r.any Call.isSend = false →
      s₁.lastCommandSend = (openSocket a s).lastCommandSend →
      (serverLoop a s).1.lastCommandSend =
        if (serverLoop a s).2.any Call.isSend then timeUs64 a.timeSend
        else (openSocket a s).lastCommandSend := by
    intro s₁ r h hr hstamp
    simp only [serverLoop, hsr, h, if_true, List.any_append, hr, Bool.false_or]
    obtain ⟨-, hs⟩ | ⟨-, -, hs⟩ | ⟨-, -, hs⟩ := sendStep_cases a s₁ <;>
      simp [hs, hstamp, Call.isSend]
  obtain ⟨-, -, h⟩ | ⟨-, -, -, h⟩ | ⟨-, -, h⟩ | ⟨-, -, h⟩ | ⟨-, -, h⟩ | ⟨-, -, h⟩ :=
    receiveStep_cases a (openSocket a s)
  · exact hsend _ _ h hreads rfl
  · exact hsend _ _ h hreads rfl
  · simp [serverLoop, hsr, h, hreads]
  · simp [serverLoop, hsr, h, hreads, Call.isSend]
  · simp [serverLoop, hsr, h, Call.isSend]
  · exact hsend _ _ h rfl rfl

@[simp] theorem serverBody_lastCommandSend :
    (serverBody m a s).1.lastCommandSend =
      (serverLoop a (fillSendBuffer m a s)).1.lastCommandSend := by
  rw [serverBody_fst]
  split <;> simp

/-- **What a body does that leaves an established socket open**: it comes
to its send step with something to send, and `send` does not fail; or it
does not call `send`, since there is nothing to send or since `recv` was
busy. -/
theorem serverBody_stays (hsr : a.sr = .established)
    (hopen : (serverBody m a s).1.socketOpen = true) :
    ((serverBody m a s).2.1.any Call.isSend = true ∧ s.ToSend m a ∧ a.GoesOn ∧
      0 ≤ a.sendRet) ∨
    ((serverBody m a s).2.1.any Call.isSend = false ∧ (¬ s.ToSend m a ∨ a.Busy)) := by
  rw [serverBody_socketOpen] at hopen
  rw [serverBody_calls, ← fillSendBuffer_sendSize_pos]
  cases serverLoop_established (s := fillSendBuffer m a s) hsr with
  | busy hrx hret hr => exact Or.inr ⟨reads_isSend hr, Or.inr ⟨hrx, hret⟩⟩
  | dropped r hr hc hclosed => simp [hclosed] at hopen
  | idle hon hr _ hnone => exact Or.inr ⟨reads_isSend hr, Or.inl (by omega)⟩
  | sent hon r hr hc _ hsome hret =>
    exact Or.inl ⟨by simp [hc, Call.isSend], hsome, hon, hret⟩
  | failed r hr hc hclosed => simp [hclosed] at hopen

end Body

/-! ## The invariant -/

/-- The timestamp of a connection that is up is its base. -/
def Conn.Steady (c : Conn) (s : SocketData) (now : Nat) : Prop :=
  c.link.live = true → s.socketOpen = true ∧
    ∃ t, c.base = some t ∧ s.lastCommandSend = timeUs64 t ∧ t ≤ now

theorem Conn.Steady.mono {c : Conn} {s : SocketData} {now now' : Nat} (h : c.Steady s now)
    (hle : now ≤ now') : c.Steady s now' := by
  intro hlive
  obtain ⟨hopen, t, hbase, hstamp, ht⟩ := h hlive
  exact ⟨hopen, t, hbase, hstamp, by omega⟩

section Step

variable {c : Conn} {m : Message} {a : Answers} {s : SocketData} {clock start : Nat}

/-- Before the send step the timestamp is the base, which is not before the
start of the body if the socket was closed. -/
theorem Conn.Steady.opened (h : c.Steady s clock) (hclock : clock ≤ start)
    (hord : a.InOrder start) (hstale : ¬ (c.link.live = false ∧ s.socketOpen = true)) :
    ∃ t, c.opened a s = some t ∧
      (openSocket a (fillSendBuffer m a s)).lastCommandSend = timeUs64 t ∧
      t ≤ a.timeSend ∧ ((s.socketOpen = true ∧ s.lastCommandSend = timeUs64 t ∧ t ≤ start) ∨
        start ≤ t) := by
  obtain ⟨h₁, h₂, h₃, h₄, h₅, -⟩ := hord
  cases hlive : c.link.live with
  | true =>
    obtain ⟨hopen, t, hbase, hstamp, ht⟩ := h hlive
    refine ⟨t, by simp [Conn.opened, hlive, hbase], ?_, by omega,
      Or.inl ⟨hopen, hstamp, by omega⟩⟩
    rw [openSocket_of_open (by simpa using hopen), fillSendBuffer_lastCommandSend, hstamp]
  | false =>
    have hclosed : s.socketOpen = false := by simpa [hlive] using hstale
    refine ⟨a.timeOpenSend, by simp [Conn.opened, hlive, hclosed], ?_, by omega,
      Or.inr (by omega)⟩
    rw [fillSendBuffer_of_closed hclosed]
    simp [openSocket, hclosed]

/-- No heartbeat is due: the body starts within the bound. -/
theorem within_of_not_due {t : Nat} (hopen : s.socketOpen = true)
    (hstamp : s.lastCommandSend = timeUs64 t) (ht : t ≤ start) (hord : a.InOrder start)
    (hdue : ¬ s.Due a) : start ≤ t + keepAliveUs := by
  obtain ⟨h₁, h₂, h₃, h₄, h₅, h₆⟩ := hord
  have hshort : ¬ elapsed (timeUs64 a.timeHeartbeat) s.lastCommandSend > keepAliveUs :=
    fun hlong => hdue ⟨hopen, hlong⟩
  have hheartbeat : timeUs64 a.timeHeartbeat = a.timeHeartbeat := Nat.mod_eq_of_lt (by omega)
  have hlast : timeUs64 t = t := Nat.mod_eq_of_lt (by omega)
  rw [hstamp, hheartbeat, hlast, elapsed_of_le (by omega) (by omega)] at hshort
  omega

/-- **Step lemma**: after an unhindered body that leaves an established
socket open, the timestamp is the base, and the body started within the
bound. -/
theorem Conn.Steady.stays (h : c.Steady s clock) (hclock : clock ≤ start)
    (hord : a.InOrder start) (hfree : c.Unhindered m a s) (hsr : a.sr = .established)
    (hopen : (serverBody m a s).1.socketOpen = true) :
    ∃ t, (c.body m a s).base = some t ∧ (serverBody m a s).1.lastCommandSend = timeUs64 t ∧
      t ≤ a.timeSend ∧ start ≤ t + keepAliveUs := by
  obtain ⟨hcomes, htakes, hnew⟩ := hfree
  have hcalls := serverBody_calls m a s
  rw [serverBody_lastCommandSend, serverLoop_lastCommandSend hsr, ← hcalls]
  obtain ⟨hsend, hto, hon, hret⟩ | ⟨hno, hwhy⟩ := serverBody_stays hsr hopen
  · -- `send` took bytes
    have hpos : 0 < a.sendRet := by
      have : a.sendRet ≠ 0 := htakes hto hon
      omega
    obtain ⟨h₁, h₂, h₃, h₄, h₅, -⟩ := hord
    refine ⟨a.timeSend, by simp [Conn.body, hpos, hsend], by simp [hsend], Nat.le_refl _, by omega⟩
  · -- nothing was sent, and no heartbeat is due
    have hstale : ¬ (c.link.live = false ∧ s.socketOpen = true) := by
      rintro ⟨hlive, hwas⟩
      obtain ⟨hto, hbusy⟩ := hnew hlive hwas
      exact hwhy.elim (fun hnone => hnone hto) hbusy
    have hdue : ¬ s.Due a := fun hd =>
      hwhy.elim (fun hnone => hnone (Or.inr (Or.inr hd))) (hcomes hd)
    obtain ⟨t, hbase, hstamp, ht, hstart⟩ := h.opened (m := m) hclock hord hstale
    refine ⟨t, by simp [Conn.body, hno, hbase], by simp [hno, hstamp], ht, ?_⟩
    obtain ⟨hwas, hsame, hle⟩ | hle := hstart
    · exact within_of_not_due hwas hsame hle hord hdue
    · omega

/-- The body keeps the invariant. -/
theorem Conn.Steady.body (h : c.Steady s clock) (hclock : clock ≤ start)
    (hord : a.InOrder start) (hfree : a.sr = .established → c.Unhindered m a s) :
    (c.body m a s).Steady (serverBody m a s).1 a.timeSend := by
  intro hlive
  obtain ⟨hsr, -, hopen⟩ := serverBody_live hlive
  obtain ⟨t, hbase, hstamp, ht, -⟩ := h.stays hclock hord (hfree hsr) hsr hopen
  exact ⟨hopen, t, hbase, hstamp, ht⟩

/-- A socket that was just initialised has no connection. -/
theorem Conn.steady_start (i : Nat) (a : Answers) (s s' : SocketData) (now : Nat) :
    (Conn.start i a s).Steady s' now := by
  intro hlive
  exact absurd ((initSocket_link i a s).1.symm.trans hlive) (by decide)

end Step

/-- The invariant of `server_task`. -/
def Pulse.Sound (w : Pulse) : Prop := ∀ i, (w.conns i).Steady (w.task.sockets i) w.clock

section Run

variable {w : Pulse} {e : TimedStep}

theorem Pulse.Legal.clock_le (h : w.Legal e) : w.clock ≤ e.env.answers.timeSend := by
  obtain ⟨h₀, h₁, h₂, h₃, h₄, h₅, -⟩ := h
  omega

/-- Changing one socket and its connection keeps the others. -/
theorem Pulse.Sound.update (h : w.Sound) {now : Nat} (hle : w.clock ≤ now)
    {i : Fin listeningSocketCount} {c : Conn} {s : SocketData} (hc : c.Steady s now) :
    ∀ j, (Function.update w.conns i c j).Steady (Function.update w.task.sockets i s j) now := by
  intro j
  by_cases hj : j = i
  · subst hj
    simpa using hc
  · simpa [hj] using (h j).mono hle

theorem Pulse.Sound.step (h : w.Sound) (hlegal : w.Legal e) (hfree : w.Unhindered e) :
    (w.step e).Sound := by
  have hle := hlegal.clock_le
  obtain ⟨hclock, hord⟩ := hlegal
  cases hp : w.task.point with
  | starting i =>
    simp only [Pulse.Sound, Pulse.step, serverStep, hp]
    exact h.update hle (Conn.steady_start _ _ _ _ _)
  | body m i =>
    have hbody := hfree.2
    simp only [hp] at hbody
    simp only [Pulse.Sound, Pulse.step, serverStep, hp]
    exact h.update hle ((h i).body hclock hord hbody)
  | waiting =>
    simp only [Pulse.Sound, Pulse.step, serverStep, hp]
    exact fun j => (h j).mono hle
  | head =>
    simp only [Pulse.Sound, Pulse.step, serverStep, hp]
    exact fun j => (h j).mono hle
  | taking =>
    simp only [Pulse.Sound, Pulse.step, serverStep, hp]
    intro j
    cases e.env.received <;> exact (h j).mono hle

theorem Pulse.Sound.inTime (h : w.Sound) (hlegal : w.Legal e) (hfree : w.Unhindered e) :
    w.InTime e := by
  cases hp : w.task.point with
  | body m i =>
    have hbody := hfree.2
    simp only [hp] at hbody
    simp only [Pulse.InTime, hp]
    intro hsr hopen
    obtain ⟨t, hbase, -, -, hstart⟩ := (h i).stays hlegal.1 hlegal.2 (hbody hsr) hsr hopen
    exact ⟨t, hbase, hstart⟩
  | _ => simp only [Pulse.InTime, hp]

end Run

/-- **A heartbeat in time**, in every run of `server_task` in which `recv`
is not busy when a heartbeat is due, `send` is never busy, a connection
that comes up on a socket still open is sent something at once, and no step
reads bytes beyond the end of a receive buffer. -/
theorem heartbeat_in_time (s₀ : Fin listeningSocketCount → SocketData) (es : List TimedStep)
    (hlegal : (pulse s₀).Along Pulse.Legal es)
    (hfree : (pulse s₀).Along Pulse.Unhindered es) :
    (pulse s₀).Along Pulse.InTime es := by
  have hboth : (pulse s₀).Along (fun w e => w.Legal e ∧ w.Unhindered e) es :=
    fun h e t he => ⟨hlegal h e t he, hfree h e t he⟩
  have hstart : Pulse.Sound ⟨⟨.waiting, s₀⟩, fun _ => ⟨.down, none⟩, 0⟩ :=
    fun i hlive => absurd hlive (by simp [Link.down])
  exact (pulse s₀).along_of_inv (I := Pulse.Sound) hstart
    (fun w e hw hg => hw.step hg.1 hg.2) (fun w e hw hg => hw.inTime hg.1 hg.2) es hboth

/-- A step at time `t` that reads the status `sr`, with nothing to take, to
read or to tell; `send` takes `sent` bytes. -/
def TimedStep.quiet (sent : Int) (sr : SnSR) (t : Nat) : TimedStep where
  start := t
  env := ⟨true, true, none, { Answers.status sr t sent with
    timeHeartbeat := t
    timeOpenSend := t
    timeSend := t }, noMessage⟩

/-- The serving loop at time `t`, with `sr` for the first socket. -/
def servingLoop (sent : Int) (sr : SnSR) (t : Nat) : List TimedStep :=
  [.other, .other, sr, .other, .other, .other].map (.quiet sent · t)

/-- The server starts, a connection comes up on the first socket, and a
little more than ten seconds later `send` is called for a heartbeat. -/
def firstHeartbeat (sent : Int) : List TimedStep :=
  List.replicate 5 (.quiet sent .other 0) ++ servingLoop sent .init 1 ++
    servingLoop sent .established 10 ++ servingLoop sent .established 10000020

theorem heartbeat_in_time_first :
    (pulse fun _ => .fresh).Along Pulse.InTime (firstHeartbeat 3) :=
  heartbeat_in_time (fun _ => .fresh) (firstHeartbeat 3) (by decide +kernel) (by decide +kernel)

/-- SOCK_BUSY: `send` takes nothing of the heartbeat, and the connection
has gone without a send for too long. -/
theorem heartbeat_refused :
    (pulse fun _ => .fresh).Along Pulse.Legal (firstHeartbeat sockBusy) ∧
      ¬ (pulse fun _ => .fresh).Along Pulse.InTime (firstHeartbeat sockBusy) := by
  decide +kernel

end VentControl.Server
