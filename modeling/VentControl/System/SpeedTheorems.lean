/-
VentControl.System.SpeedTheorems — the speed the clients were told last.

A speed change is told to every client once, in a broadcast through
`send_queue`; a status reply tells one client the speed of its time. So
what a connection was told last is right as soon as nothing is on its way
to it, if no broadcast went missing. One goes missing when `send_queue` is
full: the result of `xQueueSend` is ignored. `clients_converge` is the
first, `clients_stay_wrong` a run of the second: the link is down, a
hundred messages fill the queue, and the last change is never told. Another
is spoiled when bytes read beyond the end of a receive buffer fall on the
send buffer behind it, so the first is about runs without such reads.

The argument is the one of `Lib.Refresh`, with the broadcasts as
refreshes. For each socket, `State.upcoming` is what is on its way: the
message in the server's hands if the body for this socket is still to
come, `send_queue`, and what the fan task has still to send. `SpeedOk`
says that every message in it that tells a speed tells the current one or
is followed by a broadcast, and the same of what the connection was told
last and of what waits in the send buffer.
-/
import VentControl.Lib.Refresh
import VentControl.System.Clients

namespace VentControl.System.Clients

open Runs Refresh VentControl.Server VentControl.Ventcontrol

/-! ## What is on its way -/

/-- The message tells the speed `v`, if it tells a speed. -/
def Tells (v : Int) (m : Message) : Prop := m.messageType = .currentSpeeed → m.value = v

/-- A speed for all clients. -/
def IsBroadcast (m : Message) : Prop := m.client = -1 ∧ m.messageType = .currentSpeeed

instance (m : Message) : Decidable (IsBroadcast m) := by
  unfold IsBroadcast
  infer_instance

/-- The frame that tells a speed. -/
def speedFrame (v : Int) : List UInt8 := valueFrame 'S' v

/-- The speed the fan runs at. -/
def State.speed (s : State) : Int := s.vent.locals.actualSpeed

/-- The message in the server's hands, for the sockets whose bodies are
still to come. -/
def ServerAt.inHand : ServerAt → PortId → List Message
  | .body r j, i => if j ≤ i then [r.message] else []
  | _, _ => []

/-- What is on its way to a socket, oldest first. -/
def State.upcoming (s : State) (i : PortId) : List Message :=
  s.server.inHand i ++ (s.sendQueue.map Reply.message ++ sends s.vent.pending)

/-- What was told, `f`, is the speed `v`, or a broadcast is on its way. -/
def Told (v : Int) (q : List Message) (f : List UInt8) : Prop :=
  Heard IsBroadcast (f = speedFrame v) q

/-! ## The conditions -/

/-- What is assumed of the chip and its library: `send` takes every frame or
fails, and `recv` gives all the bytes it is asked for or fails. -/
def Reliable (_ : State) : Label → Prop
  | .server a _ => a.sr = .established →
      a.sendRet ≠ 0 ∧ (a.rxRsr > 0 → a.recv.ret = a.rxRsr ∨ a.recv.ret < 0)
  | _ => True

/-- A broadcast finds room in `send_queue`. -/
def BroadcastFits (s : State) : Label → Prop
  | .vent _ => ∀ m ∈ sends (s.vent.pending.take 1), IsBroadcast m →
      s.sendQueue.length < maxQueueLength
  | _ => True

instance (s : State) : (l : Label) → Decidable (Reliable s l)
  | .server a _ => inferInstanceAs (Decidable (a.sr = .established →
      a.sendRet ≠ 0 ∧ (a.rxRsr > 0 → a.recv.ret = a.rxRsr ∨ a.recv.ret < 0)))
  | .serverRun _ => inferInstanceAs (Decidable True)
  | .ipAssigned => inferInstanceAs (Decidable True)
  | .vent _ => inferInstanceAs (Decidable True)

instance (s : State) : (l : Label) → Decidable (BroadcastFits s l)
  | .vent _ => inferInstanceAs (Decidable (∀ m ∈ sends (s.vent.pending.take 1), IsBroadcast m →
      s.sendQueue.length < maxQueueLength))
  | .serverRun _ => inferInstanceAs (Decidable True)
  | .ipAssigned => inferInstanceAs (Decidable True)
  | .server _ _ => inferInstanceAs (Decidable True)

/-- Nothing is on its way: `send_queue` is empty, the fan task is at its
loop head, and for no socket a frame waits in the send buffer or is still
to be built from the message in the server's hands. -/
structure State.Quiet (s : State) : Prop where
  queue : s.sendQueue = []
  vent : s.vent.AtHead
  sent : ∀ i, (s.ports i).socket.waiting = [] ∧ ∀ m ∈ s.server.inHand i, frameOf m = none

instance (s : State) : Decidable s.Quiet :=
  decidable_of_iff (s.sendQueue = [] ∧ (s.vent.half = none ∧ s.vent.pending = []) ∧
      ∀ i, (s.ports i).socket.waiting = [] ∧ ∀ m ∈ s.server.inHand i, frameOf m = none)
    ⟨fun h => ⟨h.1, h.2.1, h.2.2⟩, fun h => ⟨h.1, h.2, h.3⟩⟩

/-! ## What a step does to what is on its way -/

/-- The change from `v` and `q` to `v'` and `q'` keeps the argument. -/
structure Carries (v : Int) (q : List Message) (v' : Int) (q' : List Message) : Prop where
  ints : (∀ m ∈ q, frameOf m ≠ none → m.IsInt) → ∀ m ∈ q', frameOf m ≠ none → m.IsInt
  settles : Settles (Tells v) IsBroadcast q → Settles (Tells v') IsBroadcast q'
  told : ∀ f, Told v q f → Told v' q' f

theorem Carries.refl (v : Int) (q : List Message) : Carries v q v q := ⟨id, id, fun _ => id⟩

/-- Messages that tell the current speed are appended. -/
theorem Carries.append {v : Int} {ms : List Message} (q : List Message)
    (hms : ∀ m ∈ ms, Tells v m ∧ m.IsInt) : Carries v q v (q ++ ms) := by
  refine ⟨fun h m hm hf => ?_, fun h => h.append fun m hm => (hms m hm).1, fun f h => h.append _⟩
  rcases List.mem_append.mp hm with hm | hm
  · exact h m hm hf
  · exact (hms m hm).2

/-- The speed changes, and a broadcast of the new one is appended. -/
theorem Carries.refresh (v v' : Int) (q : List Message) (hint : (speedBroadcast v').IsInt) :
    Carries v q v' (q ++ [speedBroadcast v']) := by
  have hb : IsBroadcast (speedBroadcast v') := ⟨rfl, rfl⟩
  refine ⟨fun h m hm hf => ?_, fun _ => settles_append_refresh (fun _ => rfl) hb q,
    fun f _ => heard_append_refresh hb q⟩
  rcases List.mem_append.mp hm with hm | hm
  · exact h m hm hf
  · rw [List.mem_singleton.mp hm]
    exact hint

/-- A message that is no broadcast goes missing. -/
theorem Carries.drop {v : Int} {p q : List Message} {m : Message} (hm : ¬ IsBroadcast m) :
    Carries v (p ++ m :: q) v (p ++ q) := by
  refine ⟨fun h x hx => h x ?_, fun h => h.drop hm, fun f h => Heard.drop hm h⟩
  rcases List.mem_append.mp hx with hx | hx
  · exact List.mem_append_left _ hx
  · exact List.mem_append_right _ (List.mem_cons_of_mem _ hx)

/-- A message without a frame comes first. -/
theorem Carries.noise {v : Int} {m : Message} (q : List Message) (hm : m.messageType = .noMessage) :
    Carries v q v (m :: q) := by
  have hframe : frameOf m = none := by simp [frameOf, hm]
  refine ⟨fun h x hx hf => ?_, fun h => ⟨Or.inl fun hty => ?_, h⟩, fun f h => ?_⟩
  · rcases List.mem_cons.mp hx with rfl | hx
    · exact absurd hframe hf
    · exact h x hx hf
  · rw [hm] at hty
    cases hty
  · rcases h with h | ⟨b, hb, hr⟩
    · exact Or.inl h
    · exact Or.inr ⟨b, List.mem_cons_of_mem _ hb, hr⟩

/-! ## One socket -/

/-- The invariant for one socket, with the speed `v` and `q` on its way. A
connection that is up has nothing waiting, and a frame that waits for the
next connection is on an open socket. -/
structure PortOk (v : Int) (q : List Message) (p : Port) : Prop where
  up : p.link.live = true → p.socket.socketOpen = true ∧ p.socket.waiting = [] ∧
    ∀ f, p.lastSpeed = some f → Told v q f
  next : p.link.listening = true → p.socket.waiting ≠ [] →
    p.socket.socketOpen = true ∧ ∀ f ∈ p.socket.waiting, IsSpeedFrame f → Told v q f

theorem PortOk.carries {v v' : Int} {q q' : List Message} {p : Port} (h : PortOk v q p)
    (hc : Carries v q v' q') : PortOk v' q' p := by
  refine ⟨fun hl => ?_, fun hl hw => ?_⟩
  · obtain ⟨hopen, hwait, htold⟩ := h.up hl
    exact ⟨hopen, hwait, fun f hf => hc.told f (htold f hf)⟩
  · obtain ⟨hopen, htold⟩ := h.next hl hw
    exact ⟨hopen, fun f hf hs => hc.told f (htold f hf hs)⟩

theorem isSpeedFrame_frameOf {m : Message} {f : List UInt8} (hf : frameOf m = some f)
    (hs : IsSpeedFrame f) : m.messageType = .currentSpeeed ∧ f = speedFrame m.value := by
  unfold frameOf at hf
  split at hf <;> simp only [Option.some.injEq, reduceCtorEq] at hf <;> subst hf
  · next hty => exact ⟨hty, rfl⟩
  · exact absurd hs (by simp [IsSpeedFrame, valueFrame, CString.ascii])
  · exact absurd hs (by simp [IsSpeedFrame, valueFrame, CString.ascii])

/-- A broadcast is built for every open socket. -/
theorem builtFrame_broadcast {m : Message} {s : SocketData} (hopen : s.socketOpen = true)
    (hm : IsBroadcast m) : builtFrame m s = [speedFrame m.value] := by
  have haddr : s.Addressed m := Or.inr hm.1
  simp [builtFrame, hopen, haddr, frameOf, hm.2, speedFrame]

section Body

variable {v : Int} {q : List Message} {p : Port} {r : Reply} {a : Answers}

/-- A frame that waits when the send buffer was filled tells the current
speed, or a broadcast follows. -/
theorem PortOk.filled (h : PortOk v (r.message :: q) p)
    (hset : Settles (Tells v) IsBroadcast (r.message :: q))
    (hint : frameOf r.message ≠ none → r.message.IsInt)
    (hlink : (p.link.live || p.link.listening) = true) :
    ∀ f ∈ (fillSendBuffer r.message a p.socket).waiting, IsSpeedFrame f → Told v q f := by
  intro f hf hs
  rw [waiting_fillSendBuffer hint] at hf
  split at hf
  · next hnone =>
    -- it waited before, so it waits for the next connection
    have hlist : p.link.listening = true := by
      rcases Bool.or_eq_true_iff.mp hlink with hl | hl
      · rw [(h.up hl).2.1] at hf
        simp at hf
      · exact hl
    obtain ⟨hopen, htold⟩ := h.next hlist (List.ne_nil_of_mem hf)
    rcases htold f hf hs with heq | ⟨b, hb, hr⟩
    · exact Or.inl heq
    · rcases List.mem_cons.mp hb with rfl | hb
      · rw [builtFrame_broadcast hopen hr] at hnone
        simp at hnone
      · exact Or.inr ⟨b, hb, hr⟩
  · have hframe : frameOf r.message = some f := by
      unfold builtFrame at hf
      split at hf
      · exact Option.mem_toList.mp hf
      · simp at hf
    obtain ⟨hty, rfl⟩ := isSpeedFrame_frameOf hframe hs
    rcases hset.heard with htells | hb
    · exact Or.inl (by rw [htells hty])
    · exact Or.inr hb

/-- The last speed told after a body in which `send` took what waited. -/
theorem PortOk.lastSpeed (h : PortOk v (r.message :: q) p)
    (hset : Settles (Tells v) IsBroadcast (r.message :: q))
    (hint : frameOf r.message ≠ none → r.message.IsInt)
    (hsr : a.sr = .established) (hlink : (p.link.live || p.link.listening) = true)
    (hacc : p.acceptedFrames r a = (fillSendBuffer r.message a p.socket).waiting) :
    ∀ f, p.lastSpeedAfter r a = some f → Told v q f := by
  intro f hf
  rw [Port.lastSpeedAfter, hacc, Option.or_eq_some_iff] at hf
  rcases hf with hf | ⟨hnone, hf⟩
  · -- a frame of this body
    obtain ⟨hmem, hs⟩ := List.mem_filter.mp (List.mem_of_getLast? hf)
    exact h.filled hset hint hlink f hmem (by simpa using hs)
  · -- a frame of an earlier body, on the same connection
    have hlive : p.link.live = true ∧ p.lastSpeed = some f := by
      split at hf
      · simp at hf
      · next hnew =>
        refine ⟨?_, hf⟩
        have hlist : p.link.listening = false := by simpa [Link.New, hsr] using hnew
        simpa [hlist] using hlink
    obtain ⟨hopen, -, htold⟩ := h.up hlive.1
    rcases htold f hlive.2 with heq | ⟨b, hb, hr⟩
    · exact Or.inl heq
    · rcases List.mem_cons.mp hb with rfl | hb
      · -- the broadcast was built, so it was a frame of this body
        have hbuilt := builtFrame_broadcast hopen hr
        rw [waiting_fillSendBuffer hint, hbuilt, if_neg (by simp)] at hnone
        have hspeed : IsSpeedFrame (speedFrame r.message.value) := rfl
        simp [hspeed] at hnone
      · exact Or.inr ⟨b, hb, hr⟩

/-- **The body for a socket** takes the oldest message. -/
theorem PortOk.body (h : PortOk v (r.message :: q) p)
    (hset : Settles (Tells v) IsBroadcast (r.message :: q))
    (hint : frameOf r.message ≠ none → r.message.IsInt)
    (hrel : a.sr = .established →
      a.sendRet ≠ 0 ∧ (a.rxRsr > 0 → a.recv.ret = a.rxRsr ∨ a.recv.ret < 0)) :
    PortOk v q (p.body r a) := by
  refine ⟨fun hlive => ?_, fun hlist hwait => ?_⟩
  · obtain ⟨hsr, hwas, hopen⟩ := serverBody_live hlive
    obtain ⟨hret, hrecv⟩ := hrel hsr
    obtain ⟨⟨hrx, hbusy⟩, -⟩ | ⟨hclosed, -⟩ | ⟨-, hsize, hsent, hge⟩ :=
      serverBody_send (m := r.message) (s := p.socket) hsr
    · -- `recv` is never busy
      have := hrecv hrx
      simp only [sockBusy] at hbusy
      omega
    · exact absurd (hclosed.symm.trans hopen) (by decide)
    · have hacc : p.acceptedFrames r a = (fillSendBuffer r.message a p.socket).waiting := by
        rw [Port.acceptedFrames, hsent]
        rcases hge with hnil | hge
        · rw [hnil, ite_self]
        · rw [if_pos (by omega)]
      exact ⟨hopen, waiting_of_sendSize hsize, h.lastSpeed hset hint hsr hwas hacc⟩
  · obtain ⟨hsend, -⟩ | ⟨hwas, hs⟩ := serverBody_listening hlist
    · -- `send_size` was just cleared
      exact absurd (waiting_of_sendSize hsend) hwait
    · have hsocket : (p.body r a).socket = _ := hs
      have hopen : p.socket.socketOpen = true := by
        by_contra hclosed
        rw [hsocket, if_neg hclosed] at hwait
        exact hclosed (h.next hwas hwait).1
      have hsend : (p.body r a).socket.waiting =
          (fillSendBuffer r.message a p.socket).waiting := by
        rw [hsocket, if_pos hopen]
        exact waiting_congr (by simp) (by simp)
      rw [hsend]
      refine ⟨by rw [hsocket, if_pos hopen]; simpa using hopen, h.filled hset hint ?_⟩
      rw [hwas, Bool.or_true]

/-- A socket that was just initialised has nothing waiting. -/
theorem portOk_start (v : Int) (q : List Message) (p : Port) (a : Answers) (i : PortId) :
    PortOk v q (p.start a i) := by
  obtain ⟨hdown, hclear⟩ := initSocket_link i a p.socket
  refine ⟨fun hlive => absurd (hdown.symm.trans hlive) (by decide), fun hlist hwait => ?_⟩
  exact absurd (waiting_of_sendSize (hclear hlist).1) hwait

end Body

/-! ## The system -/

/-- The invariant. -/
structure SpeedOk (s : State) : Prop where
  commands : ∀ r ∈ s.receiveQueue, r.message.IsCommand
  locals : s.vent.locals.InRange
  ints : ∀ i, ∀ m ∈ s.upcoming i, frameOf m ≠ none → m.IsInt
  settles : ∀ i, Settles (Tells s.speed) IsBroadcast (s.upcoming i)
  ports : ∀ i, PortOk s.speed (s.upcoming i) (s.ports i)

theorem speedOk_start (s₀ : PortId → SocketData) : SpeedOk (.start s₀) := by
  have hup : ∀ i, (State.start s₀).upcoming i = [] := fun i => rfl
  refine ⟨by simp [State.start], Locals.inRange_start, fun i => by simp [hup i], fun i => ?_,
    fun i => ?_⟩
  · rw [hup i]
    trivial
  · exact ⟨fun h => absurd h (by simp [State.start, Link.down]),
      fun h => absurd h (by simp [State.start, Link.down])⟩

/-- A step that leaves the sockets alone keeps the invariant if it carries
what is on its way. -/
theorem SpeedOk.of_carries {s s' : State} (h : SpeedOk s) (hports : s'.ports = s.ports)
    (hcommands : ∀ r ∈ s'.receiveQueue, r.message.IsCommand) (hlocals : s'.vent.locals.InRange)
    (hc : ∀ i, Carries s.speed (s.upcoming i) s'.speed (s'.upcoming i)) : SpeedOk s' := by
  refine ⟨hcommands, hlocals, fun i => (hc i).ints (h.ints i),
    fun i => (hc i).settles (h.settles i), fun i => ?_⟩
  rw [hports]
  exact (h.ports i).carries (hc i)

theorem isInt_of_range {v : Int} (h : 0 ≤ v ∧ v ≤ 3) {m : Message}
    (hm : m.value = v ∨ m.value = 0 ∨ m.value = 1) : m.IsInt := by
  unfold Message.IsInt
  omega

/-! ## The fan task -/

section VentStep

variable {s : State} (h : SpeedOk s)
include h

/-- A message goes to `send_queue`, or is lost when that is full. -/
theorem SpeedOk.xQueueSend {m : Message} {rest : List Action}
    (hp : s.vent.pending = .xQueueSend m :: rest)
    (hfit : IsBroadcast m → s.sendQueue.length < maxQueueLength) :
    SpeedOk { s with
      vent := { s.vent with pending := rest }
      sendQueue := Fifo.send maxQueueLength s.sendQueue ⟨m, s.current⟩ } := by
  refine h.of_carries rfl h.commands h.locals fun i => ?_
  have hup : s.upcoming i =
      s.server.inHand i ++ (s.sendQueue.map Reply.message ++ (m :: sends rest)) := by
    rw [State.upcoming, hp]
    rfl
  rcases Nat.lt_or_ge s.sendQueue.length maxQueueLength with hlt | hge
  · -- the message moves from the task to the queue
    rw [hup, Fifo.send_of_lt hlt]
    simp only [State.upcoming, List.map_append, List.map_cons, List.map_nil, List.append_assoc,
      List.singleton_append]
    exact Carries.refl _ _
  · have hm : ¬ IsBroadcast m := fun hb => absurd (hfit hb) (Nat.not_lt.mpr hge)
    rw [hup, Fifo.send_of_le hge, ← List.append_assoc]
    simp only [State.upcoming, ← List.append_assoc]
    exact Carries.drop hm

/-- Another action tells nothing. -/
theorem SpeedOk.action {act : Action} {rest : List Action} (hp : s.vent.pending = act :: rest)
    (hact : ∀ m, act ≠ .xQueueSend m) :
    SpeedOk { s with vent := { s.vent with pending := rest } } := by
  refine h.of_carries rfl h.commands h.locals fun i => ?_
  have hup : s.upcoming i =
      s.server.inHand i ++ (s.sendQueue.map Reply.message ++ sends rest) := by
    rw [State.upcoming, hp]
    cases act with
    | xQueueSend m => exact absurd rfl (hact m)
    | gpioPut pin on => rfl
    | vTaskDelay n => rfl
  rw [hup]
  exact Carries.refl _ _

/-- The replies to a command tell the speed of now. -/
theorem SpeedOk.receiveMessage (hp : s.vent.pending = []) :
    SpeedOk { s with
      vent := s.vent.receiveMessage (s.receiveQueue.head?.map Request.message)
      receiveQueue := s.receiveQueue.tail
      current := s.receiveQueue.head?.map Request.origin } := by
  refine h.of_carries rfl (fun r hr => h.commands r (List.mem_of_mem_tail hr)) ?_ fun i => ?_
  · refine h.locals.message fun m hm => ?_
    obtain ⟨r, hr, rfl⟩ := Option.map_eq_some_iff.mp hm
    exact h.commands r (List.mem_of_mem_head? hr)
  · set s' : State := { s with
      vent := s.vent.receiveMessage (s.receiveQueue.head?.map Request.message)
      receiveQueue := s.receiveQueue.tail
      current := s.receiveQueue.head?.map Request.origin }
    have hup : s'.upcoming i = s.upcoming i ++ sends
        (ventcontrolMessage s.vent.locals (s.receiveQueue.head?.map Request.message)).2 := by
      rw [State.upcoming, State.upcoming, hp]
      simp [s', Vent.receiveMessage, sends]
    have hspeed : s'.speed = s.speed := ventcontrolMessage_actualSpeed _ _
    rw [hup, hspeed]
    refine Carries.append _ fun m hm => ?_
    obtain ⟨-, htells, hval⟩ := mem_ventcontrolMessage (mem_sends.mp hm)
    exact ⟨htells, isInt_of_range h.locals.actual hval⟩

/-- The second half of a turn keeps the speed, or broadcasts the new one. -/
theorem SpeedOk.receiveBoost (hp : s.vent.pending = []) (boost : Option Bool) :
    SpeedOk { s with vent := s.vent.receiveBoost boost, current := none } := by
  refine h.of_carries rfl h.commands (h.locals.boostTurn boost) fun i => ?_
  set s' : State := { s with vent := s.vent.receiveBoost boost, current := none }
  have hup : s'.upcoming i =
      s.upcoming i ++ sends (ventcontrolBoost s.vent.locals boost).2 := by
    rw [State.upcoming, State.upcoming, hp]
    simp [s', Vent.receiveBoost, sends]
  have hspeed : s'.speed = (ventcontrolBoost s.vent.locals boost).1.actualSpeed := rfl
  rw [hup, hspeed]
  obtain ⟨hsame, hnone⟩ | htold := ventcontrolBoost_tells s.vent.locals boost
  · rw [hsame, hnone, List.append_nil]
    exact Carries.refl _ _
  · rw [htold]
    exact Carries.refresh _ _ _ (isInt_of_range (h.locals.boostTurn boost).actual (Or.inl rfl))

/-- **A step of the fan task.** -/
theorem SpeedOk.ventStep (boost : Option Bool) (hfit : BroadcastFits s (.vent boost)) :
    SpeedOk (s.ventStep boost) := by
  obtain ⟨m, rest, hp, hs⟩ | ⟨act, rest, hp, hact, hs⟩ | ⟨hp, -, hs⟩ | ⟨m, hp, -, hs⟩ :=
    ventStep_cases s boost <;> rw [hs]
  · exact h.xQueueSend hp fun hb => hfit m (by simp [hp, sends]) hb
  · exact h.action hp hact
  · exact h.receiveMessage hp
  · exact h.receiveBoost hp boost

end VentStep

/-! ## The server -/

@[simp] theorem inHand_nextPort_starting (i j : PortId) :
    (nextPort i .starting).inHand j = [] := by
  unfold nextPort
  split <;> rfl

/-- After the body for socket `i` the message is still to come for the
sockets behind it. -/
theorem inHand_nextPort_body (r : Reply) (i j : PortId) :
    (nextPort i (.body r)).inHand j = if i < j then [r.message] else [] := by
  unfold nextPort
  by_cases h : i.val + 1 < listeningSocketCount
  · rw [dif_pos h]
    simp only [ServerAt.inHand, Fin.le_def, Fin.lt_def]
    by_cases hij : i.val < j.val
    · rw [if_pos hij, if_pos (by omega)]
    · rw [if_neg hij, if_neg (by omega)]
  · rw [dif_neg h, if_neg (by have := j.isLt; simp only [Fin.lt_def]; omega)]
    rfl

/-- The body for one socket takes the message from what is on its way to
that socket, and leaves the others alone. -/
theorem SpeedOk.body {s : State} (h : SpeedOk s) {r : Reply} {i : PortId}
    (hat : s.server = .body r i) (a : Answers) (stack : Message)
    (hrel : Reliable s (.server a stack)) : SpeedOk (s.serverStep a stack).1 := by
  have hs := serverStep_body a stack hat
  -- what is on its way to socket `i`, and what is left of it
  have hupi : s.upcoming i = r.message :: (s.serverStep a stack).1.upcoming i := by
    rw [hs, State.upcoming, State.upcoming, hat, inHand_nextPort_body, if_neg (by simp)]
    simp [ServerAt.inHand]
  have hupj : ∀ j, j ≠ i → (s.serverStep a stack).1.upcoming j = s.upcoming j := by
    intro j hj
    have hlt : (i < j) = (i ≤ j) := by
      simp only [Fin.lt_def, Fin.le_def, eq_iff_iff]
      have := Fin.val_ne_of_ne hj
      omega
    rw [hs, State.upcoming, State.upcoming, hat, inHand_nextPort_body]
    simp only [ServerAt.inHand, hlt]
  have hspeed : (s.serverStep a stack).1.speed = s.speed := by
    rw [hs]
    rfl
  have hseti := h.settles i
  rw [hupi] at hseti
  refine ⟨?_, ?_, fun j => ?_, fun j => ?_, fun j => ?_⟩
  · rw [hs]
    refine Fifo.forall_foldl_send _ h.commands fun q hq => ?_
    obtain ⟨m, hm, rfl⟩ := List.mem_map.mp hq
    exact (mem_serverBody_messages hm).1
  · rw [hs]
    exact h.locals
  · by_cases hj : j = i
    · subst hj
      exact fun m hm => h.ints j m (by rw [hupi]; exact List.mem_cons_of_mem _ hm)
    · rw [hupj j hj]
      exact h.ints j
  · rw [hspeed]
    by_cases hj : j = i
    · subst hj
      exact hseti.tail
    · rw [hupj j hj]
      exact h.settles j
  · rw [hspeed]
    by_cases hj : j = i
    · subst hj
      have hport : (s.serverStep a stack).1.ports j = (s.ports j).body r a := by simp [hs]
      have hok := h.ports j
      rw [hupi] at hok
      rw [hport]
      exact hok.body hseti (h.ints j r.message (by rw [hupi]; simp)) hrel
    · have hport : (s.serverStep a stack).1.ports j = s.ports j := by simp [hs, hj]
      rw [hport, hupj j hj]
      exact h.ports j

/-- The initialisation of a socket leaves nothing waiting on it. -/
theorem SpeedOk.starting {s : State} (h : SpeedOk s) {j : PortId} (hat : s.server = .starting j)
    (a : Answers) (stack : Message) : SpeedOk (s.serverStep a stack).1 := by
  have hs := serverStep_starting a stack hat
  have hup : ∀ i, (s.serverStep a stack).1.upcoming i = s.upcoming i := by
    intro i
    rw [hs, State.upcoming, State.upcoming, hat, inHand_nextPort_starting]
    rfl
  have hspeed : (s.serverStep a stack).1.speed = s.speed := by
    rw [hs]
    rfl
  refine ⟨by rw [hs]; exact h.commands, by rw [hs]; exact h.locals,
    fun i => by rw [hup i]; exact h.ints i,
    fun i => by rw [hup i, hspeed]; exact h.settles i, fun i => ?_⟩
  by_cases hi : i = j
  · subst hi
    have hport : (s.serverStep a stack).1.ports i = (s.ports i).start a i := by simp [hs]
    rw [hport]
    exact portOk_start _ _ _ _ _
  · have hport : (s.serverStep a stack).1.ports i = s.ports i := by simp [hs, hi]
    rw [hport, hup i, hspeed]
    exact h.ports i

/-- **A step of the server.** -/
theorem SpeedOk.serverStep {s : State} (h : SpeedOk s) (a : Answers) (stack : Message)
    (hrel : Reliable s (.server a stack)) : SpeedOk (s.serverStep a stack).1 := by
  -- a step that keeps the queues keeps what is on its way
  have hsame : ∀ s' : State, s'.ports = s.ports → s'.receiveQueue = s.receiveQueue →
      s'.vent = s.vent → (∀ i, s'.upcoming i = s.upcoming i) → SpeedOk s' := by
    intro s' hports hqueue hvent hup
    refine h.of_carries hports (by rw [hqueue]; exact h.commands) (by rw [hvent]; exact h.locals) ?_
    intro i
    have hspeed : s'.speed = s.speed := by rw [State.speed, hvent, State.speed]
    rw [hup i, hspeed]
    exact Carries.refl _ _
  cases hat : s.server with
  | waiting =>
    rcases serverStep_waiting a stack hat with hs | hs <;> rw [hs]
    · exact h
    · exact hsame _ rfl rfl rfl fun i => by simp [State.upcoming, hat, ServerAt.inHand]
  | head =>
    rcases serverStep_head a stack hat with hs | hs <;> rw [hs]
    · exact hsame _ rfl rfl rfl fun i => by simp [State.upcoming, hat, ServerAt.inHand]
    · exact hsame _ rfl rfl rfl fun i => by simp [State.upcoming, hat, ServerAt.inHand]
  | taking =>
    cases hq : s.sendQueue with
    | nil =>
      -- the wait timed out: what is in the server's hands is no message
      rw [serverStep_taking_nil a stack hat hq]
      refine h.of_carries rfl h.commands h.locals fun i => ?_
      have hup : s.upcoming i = sends s.vent.pending := by
        simp [State.upcoming, hat, hq, ServerAt.inHand]
      rw [hup]
      simp only [State.upcoming, ServerAt.inHand, hq, Fin.zero_le, if_true]
      exact Carries.noise _ rfl
    | cons r q =>
      rw [serverStep_taking_cons a stack hat hq]
      exact hsame _ rfl rfl rfl fun i => by simp [State.upcoming, hat, hq, ServerAt.inHand]
  | starting j => exact h.starting hat a stack
  | body r i => exact h.body hat a stack hrel

theorem SpeedOk.step {s : State} (h : SpeedOk s) {l : Label} (hrel : Reliable s l)
    (hfit : BroadcastFits s l) : SpeedOk (s.step l).1 := by
  cases l with
  | serverRun run => exact ⟨h.commands, h.locals, h.ints, h.settles, h.ports⟩
  | ipAssigned => exact ⟨h.commands, h.locals, h.ints, h.settles, h.ports⟩
  | server a stack => exact h.serverStep a stack hrel
  | vent boost => exact h.ventStep boost hfit

/-! ## Runs -/

/-- What an open connection was told last, if it was told a speed, is the
current one. -/
def State.Converged (s : State) : Prop :=
  ∀ i, (s.ports i).link.live = true → ∀ f, (s.ports i).lastSpeed = some f → f = speedFrame s.speed

/-- **Clients converge to the real speed**, in every run in which every
broadcast finds room in `send_queue` and the server reads no bytes beyond
the end of a receive buffer. -/
theorem clients_converge (s₀ : PortId → SocketData) (ls : List Label)
    (hrel : (system s₀).Along Reliable ls)
    (hcond : (system s₀).Along (fun s l => BroadcastFits s l ∧ ReadsInside s l) ls)
    (hquiet : ((system s₀).run ls).Quiet) : ((system s₀).run ls).Converged := by
  have hboth : (system s₀).Along (fun s l => Reliable s l ∧ BroadcastFits s l) ls :=
    fun h l t he => ⟨hrel h l t he, (hcond h l t he).1⟩
  have hok : SpeedOk ((system s₀).run ls) :=
    (system s₀).run_inv _ (speedOk_start s₀) (fun s l h hg => h.step hg.1 hg.2) ls hboth
  intro i hlive f hf
  obtain ⟨-, -, htold⟩ := (hok.ports i).up hlive
  rcases htold f hf with heq | ⟨b, hb, hr⟩
  · exact heq
  · -- nothing on its way is a broadcast
    have hpending := hquiet.vent.2
    simp only [State.upcoming, hquiet.queue, hpending, List.map_nil, sends, List.filterMap_nil,
      List.append_nil] at hb
    have hnone := (hquiet.sent i).2 b hb
    simp [frameOf, hr.2] at hnone

/-- A client connects, and then the fan is switched on. -/
def toldOnce : List Label :=
  startServer ++ round (.status .established 0 3) ++ List.replicate 8 (.vent none) ++
    round (.status .established 0 3)

theorem clients_converge_toldOnce : ((system freshSockets).run toldOnce).Converged :=
  clients_converge freshSockets toldOnce (by decide +kernel) (by decide +kernel)
    (by decide +kernel)

/-- Two turns of the fan task: boost goes on, and off again. -/
def boostOnOff : List Label :=
  [.vent none, .vent (some true)] ++ List.replicate 4 (.vent none) ++
    [.vent none, .vent (some false)] ++ List.replicate 3 (.vent none)

/-- The link is down while boost goes on and off fifty times; then the
server starts, and a client connects when one message is left. -/
def fullQueue : List Label :=
  List.replicate 8 (.vent none) ++ (List.replicate 50 boostOnOff).flatten ++
    startServer ++ (List.replicate 98 (round (.status .other 0 3))).flatten ++
    round (.status .established 0 3) ++ round (.status .established 0 3)

/-- The last change did not fit into the queue: the client was told speed 2,
and the fan runs at speed 1. -/
theorem clients_stay_wrong :
    (system freshSockets).Along Reliable fullQueue ∧ ((system freshSockets).run fullQueue).Quiet ∧
      ¬ ((system freshSockets).run fullQueue).Converged := by
  -- the run is evaluated once for all five
  obtain ⟨hrel, hquiet, hlive, hlast, hspeed⟩ :
      (system freshSockets).Along Reliable fullQueue ∧
      ((system freshSockets).run fullQueue).Quiet ∧
      (((system freshSockets).run fullQueue).ports 0).link.live = true ∧
      (((system freshSockets).run fullQueue).ports 0).lastSpeed = some (speedFrame 2) ∧
      speedFrame 2 ≠ speedFrame ((system freshSockets).run fullQueue).speed := by
    decide +kernel
  exact ⟨hrel, hquiet, fun h => hspeed (h 0 hlive _ hlast)⟩

end VentControl.System.Clients
