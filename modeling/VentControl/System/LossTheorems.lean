/-
VentControl.System.LossTheorems — when the firmware loses a message.

The tasks ignore the result of `xQueueSend`, so a message that finds its
queue full is lost without a trace. `nothing_lost_iff` says when this
happens, for each of the three queues, from what the tasks do at its two
ends alone: in some stretch of the run the one task puts over
`MAX_QUEUE_LENGTH` more messages than the other one asks for, or, what
comes to the same, than the other one finds. A fan task that is slow for
once does no harm, and one that is idle saves nothing up for later.

What is done at a queue in a step is a list of `Fifo.Op`s, and `Watches`
says that the queue and the ledger of `System.Ledger` are what these
operations make of them. The rest is `Fifo.lossless_iff`.
-/
import VentControl.Lib.Flow
import VentControl.System.Ledger
import VentControl.System.WakeupTheorems

namespace VentControl.System.Firmware

open Runs VentControl.Server VentControl.Ventcontrol
open VentControl.System.Clients (PortId Reply Request)

/-! ## What is done at a queue -/

variable {α : Type}

/-- `ops` is what the tasks do at the queue `queue`: the ledger has what was
offered to it and what it accepted. -/
structure Watches (ops : State → Label → List (Fifo.Op α)) (queue : State → List α)
    (offered accepted : Ledger → List α) : Prop where
  start : ∀ s₀, queue (.start s₀) = [] ∧ offered .empty = [] ∧ accepted .empty = []
  step : ∀ s g l, queue (s.step l).1 = Fifo.after maxQueueLength (queue s) (ops s l) ∧
    offered (g.step s l) = offered g ++ Fifo.puts (ops s l) ∧
    accepted (g.step s l) = accepted g ++ Fifo.accepted maxQueueLength (queue s) (ops s l)

section Watches

variable {ops : State → Label → List (Fifo.Op α)} {queue : State → List α}
  {offered accepted : Ledger → List α}

/-- A run is what is done at the queue in it. -/
theorem Watches.run (h : Watches ops queue offered accepted) (s₀ : PortId → SocketData)
    (ls : List Label) :
    queue ((recorded s₀).run ls).state =
        Fifo.after maxQueueLength [] ((observed ops s₀).trace ls) ∧
      offered ((recorded s₀).run ls).ledger = Fifo.puts ((observed ops s₀).trace ls) ∧
      accepted ((recorded s₀).run ls).ledger =
        Fifo.accepted maxQueueLength [] ((observed ops s₀).trace ls) := by
  induction ls using List.reverseRecOn with
  | nil => exact h.start s₀
  | append_singleton ls l ih =>
    obtain ⟨hqueue, hoffered, haccepted⟩ := ih
    have hops : (observed ops s₀).trace (ls ++ [l]) =
        (observed ops s₀).trace ls ++ ops ((recorded s₀).run ls).state l := by
      rw [Mealy.trace_concat, observed_run, (recorded_run s₀ ls).1]
      rfl
    rw [hops, Mealy.run_concat, Fifo.after_append, Fifo.puts_append, Fifo.accepted_append, ← hqueue,
      ← hoffered, ← haccepted]
    exact h.step _ _ l

/-- **Nothing is lost at the queue** exactly if every stretch of the run puts
at most `MAX_QUEUE_LENGTH` more than it gets. -/
theorem Watches.lossless_iff (h : Watches ops queue offered accepted) (s₀ : PortId → SocketData)
    (ls : List Label) :
    accepted ((recorded s₀).run ls).ledger = offered ((recorded s₀).run ls).ledger ↔
      ∀ w, w <:+: (observed ops s₀).trace ls →
        (Fifo.puts w).length ≤ maxQueueLength + Fifo.gets w := by
  obtain ⟨-, hoffered, haccepted⟩ := h.run s₀ ls
  rw [hoffered, haccepted]
  exact Fifo.lossless_iff maxQueueLength _

/-- The same with the gets that find an element. -/
theorem Watches.lossless_iff_found (h : Watches ops queue offered accepted)
    (s₀ : PortId → SocketData) (ls : List Label) :
    accepted ((recorded s₀).run ls).ledger = offered ((recorded s₀).run ls).ledger ↔
      Fifo.FindsKeepUp maxQueueLength ((observed ops s₀).trace ls) := by
  obtain ⟨-, hoffered, haccepted⟩ := h.run s₀ ls
  rw [hoffered, haccepted]
  exact Fifo.lossless_iff_found maxQueueLength _

end Watches

/-! ## The three queues -/

/-- At `receive_queue`: a body of the server puts the commands it parsed, and
a turn of the fan task begins with a get. -/
def commandOps (s : State) : Label → List (Fifo.Op Request)
  | .server a _ =>
    match s.clients.server with
    | .body r i => ((s.clients.ports i).requests i r a).map .put
    | _ => []
  | .vent => if s.clients.vent.pending = [] ∧ s.clients.vent.half = none then [.get] else []
  | _ => []

/-- At `input_queue`: the sensor task puts its event, and the fan task gets in
the second half of its turn. -/
def boostOps (s : State) : Label → List (Fifo.Op Bool)
  | .inputSend => (s.inputPending.take 1).map .put
  | .vent => if s.clients.vent.pending = [] ∧ s.clients.vent.half ≠ none then [.get] else []
  | _ => []

/-- At `send_queue`: the fan task puts its messages, and a round of the server
begins with a get. -/
def reportOps (s : State) : Label → List (Fifo.Op Message)
  | .vent => (sends (s.clients.vent.pending.take 1)).map .put
  | .server _ _ =>
    match s.clients.server with
    | .taking => [.get]
    | _ => []
  | _ => []

/-- A step that leaves the queue and the ledger alone does nothing at the
queue. -/
theorem watches_quiet {queue queue' : List α} {offered offered' accepted accepted' : List α}
    (hqueue : queue' = queue) (hoffered : offered' = offered) (haccepted : accepted' = accepted) :
    queue' = Fifo.after maxQueueLength queue [] ∧ offered' = offered ++ Fifo.puts [] ∧
      accepted' = accepted ++ Fifo.accepted maxQueueLength queue [] := by
  simp [hqueue, hoffered, haccepted, Fifo.after, Fifo.accepted]

/-- A get takes the oldest element. -/
theorem watches_get {queue queue' : List α} {offered offered' accepted accepted' : List α}
    (hqueue : queue' = queue.tail) (hoffered : offered' = offered)
    (haccepted : accepted' = accepted) :
    queue' = Fifo.after maxQueueLength queue [.get] ∧ offered' = offered ++ Fifo.puts [.get] ∧
      accepted' = accepted ++ Fifo.accepted maxQueueLength queue [.get] := by
  simp [hqueue, hoffered, haccepted, Fifo.after, Fifo.Op.apply, Fifo.receive, Fifo.accepted]

/-- Puts append what there is room for. -/
theorem watches_put {queue queue' : List α} {offered offered' accepted accepted' xs : List α}
    (hqueue : queue' = queue ++ Fifo.kept maxQueueLength queue xs)
    (hoffered : offered' = offered ++ xs)
    (haccepted : accepted' = accepted ++ Fifo.kept maxQueueLength queue xs) :
    queue' = Fifo.after maxQueueLength queue (xs.map .put) ∧
      offered' = offered ++ Fifo.puts (xs.map .put) ∧
      accepted' = accepted ++ Fifo.accepted maxQueueLength queue (xs.map .put) := by
  rw [Fifo.after_map_put, Fifo.foldl_send, Fifo.puts_map_put, Fifo.accepted_map_put]
  exact ⟨hqueue, hoffered, haccepted⟩

/-- `receive_queue`. -/
theorem watches_commands :
    Watches commandOps (fun s => s.clients.receiveQueue) Ledger.parsed Ledger.accepted := by
  constructor
  · intro _
    exact ⟨rfl, rfl, rfl⟩
  intro s g l
  cases l with
  | dhcp i => exact watches_quiet rfl rfl rfl
  | inputSend =>
    refine watches_quiet ?_ rfl rfl
    rw [State.step, (inputSend_handover s).2]
  | sample samples =>
    refine watches_quiet ?_ ?_ ?_
    · rw [State.step, (sample_handover s samples).2]
    · simp only [Ledger.step]
      split <;> rfl
    · simp only [Ledger.step]
      split <;> rfl
  | server a stack =>
    simp only [State.step, Ledger.step, commandOps]
    obtain ⟨hbody, -, hreceive, -, hg⟩ | ⟨hat, hreceive, -, hg⟩ | ⟨r, i, hat, hreceive, -, hg⟩ :=
      server_cases s.clients g a stack
    · rw [hg]
      split
      · exact absurd ‹_› (hbody _ _)
      · exact watches_quiet hreceive rfl rfl
    · rw [hg, hat]
      exact watches_quiet hreceive rfl rfl
    · rw [hg, hat]
      exact watches_put (hreceive.trans (Fifo.foldl_send _ _ _)) rfl rfl
  | vent =>
    simp only [State.step, Ledger.step, commandOps]
    cases hp : s.clients.vent.pending with
    | cons act rest =>
      obtain ⟨q, rs, hs, hg⟩ := vent_pending g hp
      rw [hs, hg, if_neg (by simp)]
      exact watches_quiet rfl rfl rfl
    | nil =>
      cases hh : s.clients.vent.half with
      | none =>
        obtain ⟨hs, hg⟩ := vent_receiveMessage g hp hh
        rw [hs, hg, if_pos ⟨rfl, rfl⟩]
        exact watches_get rfl rfl rfl
      | some m =>
        obtain ⟨hs, hg⟩ := vent_receiveBoost g hp hh
        rw [hs, hg, if_neg (by simp)]
        exact watches_quiet rfl rfl rfl

/-- `input_queue`. -/
theorem watches_boosts : Watches boostOps State.inputQueue Ledger.offered Ledger.boosts := by
  constructor
  · intro _
    exact ⟨rfl, rfl, rfl⟩
  intro s g l
  cases l with
  | dhcp i => exact watches_quiet rfl rfl rfl
  | inputSend =>
    simp only [State.step, State.inputSend, Ledger.step, boostOps]
    cases hp : s.inputPending with
    | nil => exact watches_put (by simp [Fifo.kept]) rfl rfl
    | cons b rest => exact watches_put (Fifo.send_eq _ _ _) rfl rfl
  | sample samples =>
    simp only [State.step, State.sample, Ledger.step, boostOps]
    cases s.inputPending with
    | nil => exact watches_quiet rfl rfl rfl
    | cons b rest => exact watches_quiet rfl rfl rfl
  | server a stack =>
    simp only [State.step, Ledger.step, Ledger.server, boostOps]
    split <;> exact watches_quiet rfl rfl rfl
  | vent =>
    simp only [State.step, Ledger.step, boostOps]
    cases hp : s.clients.vent.pending with
    | cons act rest =>
      obtain ⟨q, rs, hs, hg⟩ := vent_pending g hp
      rw [hs, hg, if_neg (by simp)]
      exact watches_quiet rfl rfl rfl
    | nil =>
      cases hh : s.clients.vent.half with
      | none =>
        obtain ⟨hs, hg⟩ := vent_receiveMessage g hp hh
        rw [hs, hg, if_neg (by simp)]
        exact watches_quiet rfl rfl rfl
      | some m =>
        obtain ⟨hs, hg⟩ := vent_receiveBoost g hp hh
        rw [hs, hg, if_pos ⟨rfl, by simp⟩]
        exact watches_get rfl rfl rfl

/-- `send_queue`, without the origins. -/
theorem watches_reports :
    Watches reportOps (fun s => s.clients.sendQueue.map Reply.message) (fun g => sends g.acts)
      (fun g => g.reported.map Reply.message) := by
  constructor
  · intro _
    exact ⟨rfl, rfl, rfl⟩
  intro s g l
  cases l with
  | dhcp i => exact watches_quiet rfl rfl rfl
  | inputSend =>
    refine watches_quiet ?_ rfl rfl
    rw [State.step, (inputSend_handover s).2]
  | sample samples =>
    refine watches_quiet ?_ ?_ ?_
    · rw [State.step, (sample_handover s samples).2]
    · simp only [Ledger.step]
      split <;> rfl
    · simp only [Ledger.step]
      split <;> rfl
  | server a stack =>
    simp only [State.step, Ledger.step, reportOps]
    obtain ⟨-, htaking, -, hsend, hg⟩ | ⟨hat, -, hsend, hg⟩ | ⟨r, i, hat, -, hsend, hg⟩ :=
      server_cases s.clients g a stack
    · rw [hg]
      split
      · exact absurd ‹_› htaking
      · exact watches_quiet (by rw [hsend]) rfl rfl
    · rw [hg, hat]
      exact watches_get (by rw [hsend, List.map_tail]) rfl rfl
    · rw [hg, hat]
      exact watches_quiet (by rw [hsend]) rfl rfl
  | vent =>
    simp only [State.step, Ledger.step, reportOps]
    cases hp : s.clients.vent.pending with
    | cons act rest =>
      by_cases hact : ∃ m, act = .xQueueSend m
      · obtain ⟨m, rfl⟩ := hact
        obtain ⟨hs, hg⟩ := vent_xQueueSend g hp
        rw [hs, hg]
        refine watches_put ?_ (sends_append _ _) ?_
        · simp only [Fifo.send_eq, List.map_append, Fifo.kept_map]
          rfl
        · simp only [List.map_append, Fifo.kept_map]
          rfl
      · obtain ⟨hs, hg⟩ := vent_action g hp fun m he => hact ⟨m, he⟩
        have hnone : sends ((act :: rest).take 1) = [] := by
          cases act with
          | xQueueSend m => exact absurd ⟨m, rfl⟩ hact
          | gpioPut pin on => rfl
          | vTaskDelay n => rfl
        rw [hs, hg, hnone]
        refine watches_quiet rfl ?_ rfl
        rw [sends_append]
        have hact' : sends [act] = [] := hnone
        rw [hact', List.append_nil]
    | nil =>
      cases hh : s.clients.vent.half with
      | none =>
        obtain ⟨hs, hg⟩ := vent_receiveMessage g hp hh
        rw [hs, hg]
        exact watches_quiet rfl rfl rfl
      | some m =>
        obtain ⟨hs, hg⟩ := vent_receiveBoost g hp hh
        rw [hs, hg]
        exact watches_quiet rfl rfl rfl

/-! ## Losses -/

/-- **When the firmware loses nothing.** In every run, for each of the three
queues: all that was offered to the queue was accepted exactly if in every
stretch of the run at most `MAX_QUEUE_LENGTH` more was put than was asked
for at the other end; and exactly if in every stretch at most as many more
were put than were found there. -/
theorem nothing_lost_iff (s₀ : PortId → SocketData) (ls : List Label) :
    let g := ((recorded s₀).run ls).ledger
    ((g.accepted = g.parsed ↔
        ∀ w, w <:+: (observed commandOps s₀).trace ls →
          (Fifo.puts w).length ≤ maxQueueLength + Fifo.gets w) ∧
      (g.boosts = g.offered ↔
        ∀ w, w <:+: (observed boostOps s₀).trace ls →
          (Fifo.puts w).length ≤ maxQueueLength + Fifo.gets w) ∧
      (g.reported.map Reply.message = sends g.acts ↔
        ∀ w, w <:+: (observed reportOps s₀).trace ls →
          (Fifo.puts w).length ≤ maxQueueLength + Fifo.gets w)) ∧
    ((g.accepted = g.parsed ↔
        Fifo.FindsKeepUp maxQueueLength ((observed commandOps s₀).trace ls)) ∧
      (g.boosts = g.offered ↔
        Fifo.FindsKeepUp maxQueueLength ((observed boostOps s₀).trace ls)) ∧
      (g.reported.map Reply.message = sends g.acts ↔
        Fifo.FindsKeepUp maxQueueLength ((observed reportOps s₀).trace ls))) :=
  ⟨⟨watches_commands.lossless_iff s₀ ls, watches_boosts.lossless_iff s₀ ls,
      watches_reports.lossless_iff s₀ ls⟩,
    ⟨watches_commands.lossless_iff_found s₀ ls, watches_boosts.lossless_iff_found s₀ ls,
      watches_reports.lossless_iff_found s₀ ls⟩⟩

end VentControl.System.Firmware
