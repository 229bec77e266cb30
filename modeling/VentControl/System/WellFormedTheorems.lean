/-
VentControl.System.WellFormedTheorems — what goes through the queues and
out to the clients is well formed, whatever the clients send.

No task checks a range. The parser only makes commands (`IsCommand`), the
fan task keeps its speeds in 0..3 when it is given commands, so it only
sends reports (`IsReport`), and the server makes frames of these and of
the heartbeat (`replyFrames`). `WellFormed` is the invariant that goes
round: each part of it is kept because the others hold. It leaves out
sockets that have not been initialised: their memory is arbitrary, and
nothing is sent from it.
-/
import VentControl.System.Firmware
import VentControl.System.ReplyTheorems

namespace VentControl.System.Firmware

open Runs VentControl.Server VentControl.Ventcontrol
open VentControl.System.Clients (PortId Reply Request Port Traced ServerAt freshSockets)

/-! ## The formats -/

/-- The id of one of the sockets that are served. -/
def IsSocketId (client : Int) : Prop :=
  (basePortId : Int) ≤ client ∧ client ≤ (basePortId + listeningSocketCount - 1 : Nat)

/-- A command, from the socket of a client. -/
def IsRequest (m : Message) : Prop := m.IsCommand ∧ IsSocketId m.client

/-- A speed or the state of vakantie, for a client or for all. -/
def IsReport (m : Message) : Prop :=
  ((m.messageType = .currentSpeeed ∧ 0 ≤ m.value ∧ m.value ≤ 3) ∨
    (m.messageType = .currentVakantie ∧ (m.value = 0 ∨ m.value = 1))) ∧
  (m.client = -1 ∨ IsSocketId m.client)

/-- Everything that is sent to a client. -/
def replyFrames : List (List UInt8) :=
  [['S', '0', '#'], ['S', '1', '#'], ['S', '2', '#'], ['S', '3', '#'], ['V', '0', '#'],
    ['V', '1', '#'], ['H', 'B', '#']].map CString.ascii

/-- A call of `send` passes one complete frame. -/
def SendsFrame : Call → Prop
  | .send _ bytes => bytes ∈ replyFrames
  | _ => True

/-- A report has one of the frames. -/
theorem frameOf_report {m : Message} {f : List UInt8} (hm : IsReport m) (hf : frameOf m = some f) :
    f ∈ replyFrames := by
  have hspeed : ∀ v ∈ [0, 1, 2, 3], valueFrame 'S' v ∈ replyFrames := by decide
  have hvakantie : ∀ v ∈ [0, 1], valueFrame 'V' v ∈ replyFrames := by decide
  rcases hm.1 with ⟨hty, hlo, hhi⟩ | ⟨hty, hv⟩
  · simp only [frameOf, hty, Option.some.injEq] at hf
    exact hf ▸ hspeed m.value (by simp only [List.mem_cons, List.not_mem_nil, or_false]; omega)
  · simp only [frameOf, hty, Option.some.injEq] at hf
    exact hf ▸ hvakantie m.value (by simpa using hv)

/-! ## One socket -/

/-- What waits in the send buffer is one of the frames. -/
def Ready (s : SocketData) : Prop := 0 < s.sendSize → s.frame ∈ replyFrames

theorem length_replyFrames : ∀ f ∈ replyFrames, f.length ≤ bufferSize := by decide

theorem ready_sprintf (s : SocketData) {f : List UInt8} (hf : f ∈ replyFrames) :
    Ready (s.sprintf f) := fun _ => by
  rw [frame_sprintf s (length_replyFrames f hf)]
  exact hf

/-- Filling the send buffer leaves a frame, if the message is a report or
has no frame. -/
theorem Ready.fillSendBuffer {s : SocketData} (h : Ready s) {m : Message}
    (hm : frameOf m = none ∨ IsReport m) (a : Answers) : Ready (fillSendBuffer m a s) := by
  have hframe : Ready (buildFrame m s) := by
    unfold buildFrame
    split
    · cases hf : frameOf m with
      | none => exact h
      | some f =>
        rcases hm with hnone | hreport
        · simp [hf] at hnone
        · exact ready_sprintf s (frameOf_report hreport hf)
    · exact h
  unfold Server.fillSendBuffer
  split
  · unfold buildHeartbeat
    split
    · exact ready_sprintf _ (by decide)
    · exact hframe
  · exact h

theorem Ready.congr {s s' : SocketData} (h : Ready s) (hbuffer : s'.sendBuffer = s.sendBuffer)
    (hsize : s'.sendSize = s.sendSize) : Ready s' := by
  intro hpos
  rw [SocketData.frame, hbuffer, hsize]
  exact h (hsize ▸ hpos)

theorem ready_of_empty {s : SocketData} (h : s.sendSize = 0) : Ready s :=
  fun hpos => absurd h (Nat.pos_iff_ne_zero.mp hpos)

/-- `server_loop` keeps what waits, or takes it. -/
theorem serverLoop_sendSize (a : Answers) (s : SocketData) :
    (serverLoop a s).1.sendSize = s.sendSize ∨ (serverLoop a s).1.sendSize = 0 := by
  unfold serverLoop
  split
  · simp only
    split
    · exact Or.inr (by simp)
    · exact Or.inl (by simp)
  · exact Or.inl rfl
  · split <;> exact Or.inl rfl
  · exact Or.inr rfl
  · exact Or.inl rfl

theorem Ready.serverLoop {s : SocketData} (h : Ready s) (a : Answers) :
    Ready (serverLoop a s).1 := by
  rcases serverLoop_sendSize a s with hsame | hzero
  · exact h.congr (serverLoop_sendBuffer a s) hsame
  · exact ready_of_empty hzero

/-- The receive step sends nothing. -/
theorem send_not_mem_receiveStep (a : Answers) (s : SocketData) (sn : Nat) (bytes : List UInt8) :
    .send sn bytes ∉ (receiveStep a s).2.1 := by
  obtain ⟨-, -, h⟩ | ⟨-, -, -, h⟩ | ⟨-, -, h⟩ | ⟨-, -, h⟩ | ⟨-, -, h⟩ | ⟨-, -, h⟩ :=
    receiveStep_cases a s <;> rw [h] <;> simp [SocketData.readCalls]

/-- What `server_loop` sends is what waits. -/
theorem mem_serverLoop_send {a : Answers} {s : SocketData} {sn : Nat} {bytes : List UInt8}
    (h : .send sn bytes ∈ (serverLoop a s).2) : 0 < s.sendSize ∧ bytes = s.frame := by
  have hsend : ∀ s₁ : SocketData, .send sn bytes ∈ (sendStep a s₁).2 →
      0 < s₁.sendSize ∧ bytes = s₁.frame := by
    intro s₁ hmem
    obtain ⟨-, he⟩ | ⟨hpos, -, he⟩ | ⟨hpos, -, he⟩ := sendStep_cases a s₁ <;> rw [he] at hmem
    · simp at hmem
    · exact ⟨hpos, (Call.send.inj (List.mem_singleton.mp hmem)).2⟩
    · have hboth : sn = s₁.socketId ∧ bytes = s₁.frame := by simpa [SocketData.frame] using hmem
      exact ⟨hpos, hboth.2⟩
  unfold serverLoop at h
  split at h
  · simp only at h
    split at h
    · rcases List.mem_append.mp h with h | h
      · exact absurd h (send_not_mem_receiveStep a _ sn bytes)
      · simpa [SocketData.frame] using hsend _ h
    · exact absurd h (send_not_mem_receiveStep a _ sn bytes)
  · simp at h
  · split at h <;> simp at h
  · simp at h
  · simp at h

theorem Ready.sends {s : SocketData} (h : Ready s) (a : Answers) :
    ∀ c ∈ (Server.serverLoop a s).2, SendsFrame c := by
  intro c hc
  cases c with
  | send sn bytes =>
    obtain ⟨hpos, rfl⟩ := mem_serverLoop_send hc
    exact h hpos
  | _ => trivial

/-- The body of the serving loop. -/
theorem Ready.serverBody {s : SocketData} (h : Ready s) {m : Message}
    (hm : frameOf m = none ∨ IsReport m) (a : Answers) :
    Ready (serverBody m a s).1 ∧ ∀ c ∈ (Server.serverBody m a s).2.1, SendsFrame c := by
  have hfill := h.fillSendBuffer hm a
  have hloop := hfill.serverLoop a
  rw [serverBody_fst, serverBody_calls]
  refine ⟨?_, hfill.sends a⟩
  split
  · exact hloop.congr (by simp) (by simp)
  · exact hloop

/-- The initialisation of a socket, whatever its memory held. -/
theorem ready_initSocket (i : Nat) (a : Answers) (s : SocketData) :
    Ready (initSocket i a s).1 ∧ ∀ c ∈ (initSocket i a s).2, SendsFrame c := by
  have hreset : Ready (resetSocket i s) := ready_of_empty rfl
  rw [initSocket_eq]
  refine ⟨hreset.serverLoop a, fun c hc => ?_⟩
  rcases List.mem_cons.mp hc with rfl | hc
  · trivial
  · exact hreset.sends a c hc

/-! ## The fan task -/

/-- The fan task answers a request with reports. -/
theorem isReport_ventcontrolMessage {s : Locals} (hs : s.InRange) {message : Option Message}
    (hm : ∀ m ∈ message, IsRequest m) {r : Message}
    (h : .xQueueSend r ∈ (ventcontrolMessage s message).2) : IsReport r := by
  have hbool : ∀ b, boolInt b = 0 ∨ boolInt b = 1 := by decide
  obtain ⟨⟨m, rfl, hclient, -⟩, -, -⟩ := mem_ventcontrolMessage h
  have hid : r.client = -1 ∨ IsSocketId r.client := Or.inr (hclient ▸ (hm m rfl).2)
  refine ⟨?_, hid⟩
  unfold ventcontrolMessage at h
  split at h
  · simp at h
  · split at h
    · split at h <;> simp at h
    · obtain rfl : r = _ := by simpa using h
      exact Or.inr ⟨rfl, hbool _⟩
    · simp only [List.mem_cons, Action.xQueueSend.injEq, List.not_mem_nil, or_false] at h
      rcases h with rfl | rfl
      · exact Or.inl ⟨rfl, hs.actual⟩
      · exact Or.inr ⟨rfl, hbool _⟩
    · simp at h

/-- What it sends on its own is a report. -/
theorem isReport_ventcontrolBoost {s : Locals} (hs : s.InRange) {b : Option Bool} {r : Message}
    (h : .xQueueSend r ∈ (ventcontrolBoost s b).2) : IsReport r := by
  rw [mem_ventcontrolBoost h]
  exact ⟨Or.inl ⟨rfl, (hs.boostTurn b).actual⟩, Or.inl rfl⟩

/-! ## The invariant -/

/-- Everything in the queues and in the hands of the tasks is well formed. -/
structure WellFormed (s : Clients.State) : Prop where
  locals : s.vent.locals.InRange
  requests : ∀ q ∈ s.receiveQueue, IsRequest q.message
  pending : ∀ m, .xQueueSend m ∈ s.vent.pending → IsReport m
  reports : ∀ r ∈ s.sendQueue, IsReport r.message
  hand : ∀ r i, s.server = .body r i → frameOf r.message = none ∨ IsReport r.message
  ready : ∀ i, s.server.Started i → Ready (s.ports i).socket

theorem wellFormed_start (s₀ : PortId → SocketData) : WellFormed (.start s₀) where
  locals := Locals.inRange_start
  requests := by simp [Clients.State.start]
  pending := by simp [Clients.State.start, Vent.start, prologue]
  reports := by simp [Clients.State.start]
  hand := fun r i h => by cases h
  ready := fun i h => h.elim

/-- What the body puts on `receive_queue` are requests. -/
theorem isRequest_requests {s : Clients.State} (ht : Traced s) {r : Reply} {i : PortId}
    (hat : s.server = .body r i) (a : Answers) :
    ∀ q ∈ (s.ports i).requests i r a, IsRequest q.message := by
  intro q hq
  obtain ⟨m, hm, rfl⟩ := List.mem_map.mp hq
  obtain ⟨hcommand, hclient⟩ := mem_serverBody_messages hm
  have hid : (s.ports i).socket.socketId = basePortId + i := ht.ids i (by rw [hat]; trivial)
  refine ⟨hcommand, ?_⟩
  have hlt := i.isLt
  show IsSocketId m.client
  rw [hclient, hid]
  constructor <;> push_cast <;> omega

/-- A socket is initialised. -/
theorem WellFormed.starting {s : Clients.State} (h : WellFormed s) {i : PortId}
    (hat : s.server = .starting i) (a : Answers) (stack : Message) :
    WellFormed (s.serverStep a stack).1 ∧ ∀ c ∈ serverCalls s a, SendsFrame c := by
  obtain ⟨hready, hsends⟩ := ready_initSocket i a (s.ports i).socket
  refine ⟨?_, by simpa [serverCalls, hat] using hsends⟩
  rw [Clients.serverStep_starting a stack hat]
  refine { h with hand := fun r j hj => absurd hj Clients.nextPort_starting_ne_body,
                  ready := fun j hj => ?_ }
  have hji := Clients.started_nextPort_starting hj
  by_cases heq : j = i
  · subst heq
    simpa [Port.start] using hready
  · have hlt : j < i := by
      have hne := Fin.val_ne_of_ne heq
      exact Fin.lt_def.mpr (by have := Fin.le_def.mp hji; omega)
    have hold : Ready (s.ports j).socket := h.ready j (by rw [hat]; exact hlt)
    simpa [heq] using hold

/-- What the server takes from `send_queue` is a report; if it takes nothing,
there is nothing to build. -/
theorem WellFormed.taking {s : Clients.State} (h : WellFormed s) (hat : s.server = .taking)
    (a : Answers) (stack : Message) : WellFormed (s.serverStep a stack).1 := by
  have hready : ∀ i, Ready (s.ports i).socket := fun i => h.ready i (by rw [hat]; trivial)
  cases hq : s.sendQueue with
  | nil =>
    rw [Clients.serverStep_taking_nil a stack hat hq]
    refine { h with hand := fun r i hr => Or.inl ?_
                    ready := fun i _ => hready i }
    simp only [ServerAt.body.injEq] at hr
    rw [← hr.1]
    rfl
  | cons r q =>
    rw [Clients.serverStep_taking_cons a stack hat hq]
    refine { h with reports := fun r' hr' => h.reports r' (by rw [hq]; simp [hr'])
                    hand := fun r' i hr => Or.inr ?_
                    ready := fun i _ => hready i }
    simp only [ServerAt.body.injEq] at hr
    exact h.reports r' (by rw [hq, ← hr.1]; simp)

/-- The body of the serving loop. -/
theorem WellFormed.body {s : Clients.State} (h : WellFormed s) (ht : Traced s) {r : Reply}
    {i : PortId} (hat : s.server = .body r i) (a : Answers) (stack : Message) :
    WellFormed (s.serverStep a stack).1 ∧ ∀ c ∈ serverCalls s a, SendsFrame c := by
  have hready : ∀ j, Ready (s.ports j).socket := fun j => h.ready j (by rw [hat]; trivial)
  obtain ⟨hbody, hsends⟩ := (hready i).serverBody (h.hand r i hat) a
  refine ⟨?_, by simpa [serverCalls, hat] using hsends⟩
  rw [Clients.serverStep_body a stack hat]
  have hports : ∀ j, Ready (Function.update s.ports i ((s.ports i).body r a) j).socket :=
    (Function.forall_update_iff s.ports fun _ p => Ready p.socket).mpr
      ⟨hbody, fun k _ => hready k⟩
  refine { h with
    requests := Fifo.forall_foldl_send _ h.requests (isRequest_requests ht hat a)
    hand := fun r' j hj => ?_
    ready := fun j _ => hports j }
  obtain rfl := Clients.nextPort_body_eq hj
  exact h.hand r' i hat

/-- A step of the server. -/
theorem WellFormed.serverStep {s : Clients.State} (h : WellFormed s) (ht : Traced s) (a : Answers)
    (stack : Message) :
    WellFormed (s.serverStep a stack).1 ∧ ∀ c ∈ serverCalls s a, SendsFrame c := by
  cases hat : s.server with
  | waiting =>
    refine ⟨?_, by simp [serverCalls, hat]⟩
    rcases Clients.serverStep_waiting a stack hat with hs | hs <;> rw [hs]
    · exact h
    · exact { h with hand := fun r i hr => by simp at hr
                     ready := fun i hi => absurd hi (Nat.not_lt_zero _) }
  | starting i => exact h.starting hat a stack
  | head =>
    refine ⟨?_, by simp [serverCalls, hat]⟩
    have hready : ∀ i, Ready (s.ports i).socket := fun i => h.ready i (by rw [hat]; trivial)
    rcases Clients.serverStep_head a stack hat with hs | hs <;> rw [hs] <;>
      exact { h with hand := fun r i hr => by simp at hr
                     ready := fun i _ => hready i }
  | taking => exact ⟨h.taking hat a stack, by simp [serverCalls, hat]⟩
  | body r i => exact h.body ht hat a stack

/-- A step of the fan task. -/
theorem WellFormed.ventStep {s : Clients.State} (h : WellFormed s) (boost : Option Bool) :
    WellFormed (s.ventStep boost) := by
  obtain ⟨m, rest, hp, hs⟩ | ⟨act, rest, hp, -, hs⟩ | ⟨hp, hh, hs⟩ | ⟨m, hp, hh, hs⟩ :=
    Clients.ventStep_cases s boost <;> rw [hs]
  · exact { h with
      pending := fun m' hm' => h.pending m' (by rw [hp]; exact List.mem_cons_of_mem _ hm')
      reports := Fifo.forall_send h.reports (h.pending m (by simp [hp])) }
  · exact { h with
      pending := fun m' hm' => h.pending m' (by rw [hp]; exact List.mem_cons_of_mem _ hm') }
  · have hm : ∀ m ∈ s.receiveQueue.head?.map Request.message, IsRequest m := by
      intro m hm
      obtain ⟨q, hq, rfl⟩ := Option.map_eq_some_iff.mp hm
      exact h.requests q (List.mem_of_mem_head? hq)
    exact { h with
      locals := h.locals.message fun m hmem => (hm m hmem).1
      requests := fun q hq => h.requests q (List.mem_of_mem_tail hq)
      pending := fun r hr => isReport_ventcontrolMessage h.locals hm hr }
  · exact { h with
      locals := h.locals.boostTurn boost
      pending := fun r hr => isReport_ventcontrolBoost h.locals hr }

theorem WellFormed.step {s : Clients.State} (h : WellFormed s) (ht : Traced s)
    (l : Clients.Label) : WellFormed (s.step l).1 := by
  cases l with
  | serverRun run => exact { h with }
  | ipAssigned => exact { h with }
  | server a stack => exact (h.serverStep ht a stack).1
  | vent boost => exact h.ventStep boost

/-! ## Runs -/

/-- **Step lemma** for the firmware. -/
theorem wellFormed_step {s : State} (h : WellFormed s.clients ∧ Traced s.clients) (l : Label) :
    (WellFormed (s.step l).1.clients ∧ Traced (s.step l).1.clients) ∧
      ∀ c ∈ (s.step l).2, SendsFrame c := by
  constructor
  · rcases step_clients s l with hs | ⟨l', hs⟩ <;> rw [hs]
    · exact h
    · exact ⟨h.1.step h.2 l', h.2.step l'⟩
  · cases l with
    | server a stack => exact (h.1.serverStep h.2 a stack).2
    | _ => simp [State.step]

/-- The invariant holds after every run. -/
theorem wellFormed_run (s₀ : PortId → SocketData) (ls : List Label) :
    WellFormed ((system s₀).run ls).clients ∧ Traced ((system s₀).run ls).clients :=
  (system s₀).run_inv (fun _ _ => True)
    (I := fun s : State => WellFormed s.clients ∧ Traced s.clients)
    ⟨wellFormed_start s₀, Clients.traced_start s₀⟩ (fun _ l h _ => (wellFormed_step h l).1) ls
    fun _ _ _ _ => trivial

/-- **Everything sent is well formed**, in every run, from any memory and
for any bytes received: the speeds, the requests in `receive_queue`, the
reports in `send_queue`, and the frames passed to `send`. -/
theorem everything_sent_wellFormed (s₀ : PortId → SocketData) (ls : List Label) :
    ((system s₀).run ls).clients.vent.locals.InRange ∧
      (∀ q ∈ ((system s₀).run ls).clients.receiveQueue, IsRequest q.message) ∧
      (∀ r ∈ ((system s₀).run ls).clients.sendQueue, IsReport r.message) ∧
      ∀ c ∈ (system s₀).trace ls, SendsFrame c := by
  have hstart : WellFormed (system s₀).init.clients ∧ Traced (system s₀).init.clients :=
    ⟨wellFormed_start s₀, Clients.traced_start s₀⟩
  have hrun := (system s₀).run_inv (fun _ _ => True)
    (I := fun s : State => WellFormed s.clients ∧ Traced s.clients) hstart
    (fun s l h _ => (wellFormed_step h l).1) ls fun _ _ _ _ => trivial
  refine ⟨hrun.1.locals, hrun.1.requests, hrun.1.reports, ?_⟩
  exact (system s₀).trace_forall (fun _ _ => True) hstart
    (fun s l h _ => (wellFormed_step h l).1) (fun s l h _ => (wellFormed_step h l).2) ls
    fun _ _ _ _ => trivial

end VentControl.System.Firmware
