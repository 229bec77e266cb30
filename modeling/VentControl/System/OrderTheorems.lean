/-
VentControl.System.OrderTheorems — what reaches a client, from the fan
task to `send`.

A message of the fan task goes through `send_queue` into the server's
hands, from there into the send buffers of the sockets it is for, and
waits there until `send` takes it. It can be lost on the way: the queue is
full, the socket is not open, the next message overwrites the buffer, the
connection ends. But it never comes twice, and never overtakes another.

For one socket the order is that of three places: what was sent on it,
what waits in its send buffer, and what is in the server's hands for it.
`InOrder` says that these three in a row are a subsequence of the frames
for this socket among the messages taken from `send_queue`. Before a
socket is initialised its send buffer holds anything, so then only the
first counts.

`client_reads_in_order` is what comes of it at the other end of the
connection, where only bytes arrive, in pieces that TCP chooses. It is
about the runs in which no bytes are read beyond the end of a receive
buffer: there a send buffer stands behind it.
-/
import VentControl.Server.WireTheorems
import VentControl.System.ControlTheorems
import VentControl.System.SpeedTheorems

namespace VentControl.System.Firmware

open Runs VentControl.Server VentControl.Ventcontrol
open VentControl.System.Clients (PortId Reply Request Traced)

/-! ## One body -/

/-- What `send` took. -/
def tookFrames (a : Answers) (calls : List Call) : List (List UInt8) :=
  if a.sendRet > 0 then sentFrames calls else []

theorem tookFrames_nil {a : Answers} {calls : List Call} (h : sentFrames calls = []) :
    tookFrames a calls = [] := by
  rw [tookFrames, h, ite_self]

/-- **`server_loop` keeps the order**: what it sends waited, and does not
wait any more. -/
theorem serverLoop_waiting (a : Answers) (s : SocketData) :
    (tookFrames a (serverLoop a s).2 ++ (serverLoop a s).1.waiting).Sublist s.waiting := by
  -- a call of `server_loop` that sends nothing leaves what waits alone, or drops it
  have hkeep : sentFrames (serverLoop a s).2 = [] → (serverLoop a s).1.sendSize = s.sendSize →
      (tookFrames a (serverLoop a s).2 ++ (serverLoop a s).1.waiting).Sublist s.waiting := by
    intro hnone hsize
    rw [tookFrames_nil hnone, List.nil_append, waiting_congr (serverLoop_sendBuffer a s) hsize]
  have hdrop : tookFrames a (serverLoop a s).2 = [] → (serverLoop a s).1.sendSize = 0 →
      (tookFrames a (serverLoop a s).2 ++ (serverLoop a s).1.waiting).Sublist s.waiting := by
    intro hnone hsize
    rw [hnone, waiting_of_sendSize hsize]
    exact List.nil_sublist _
  cases hsr : a.sr with
  | established =>
    cases serverLoop_established (s := s) hsr with
    | busy _ _ hr _ hsize => exact hkeep (by simpa [sentFrames] using sentFrames_reads hr []) hsize
    | dropped r hr hc _ hsize =>
      exact hkeep (by rw [hc, sentFrames_reads hr]; rfl) hsize
    | idle _ hr _ _ hsize =>
      exact hdrop (tookFrames_nil (by simpa [sentFrames] using sentFrames_reads hr [])) hsize
    | sent _ r hr hc _ hsome _ hsize =>
      -- what waits is sent, or lost
      rw [waiting_of_sendSize hsize, List.append_nil, tookFrames, hc, sentFrames_reads hr,
        sentFrames_send _ hsome]
      split
      · exact List.Sublist.refl _
      · exact List.nil_sublist _
    | failed r _ _ _ hret hsize => exact hdrop (by rw [tookFrames, if_neg (by omega)]) hsize
  | closeWait => exact hkeep (by simp [serverLoop, hsr, sentFrames]) (by simp [serverLoop, hsr])
  | closed =>
    refine hkeep ?_ ?_ <;> simp only [serverLoop, hsr] <;> split <;> simp [sentFrames]
  | init => exact hdrop (tookFrames_nil (by simp [serverLoop, hsr, sentFrames])) (by
      simp [serverLoop, hsr])
  | other => exact hkeep (by simp [serverLoop, hsr, sentFrames]) (by simp [serverLoop, hsr])

/-- The parser leaves the send side alone. -/
theorem serverBody_waiting (m : Message) (a : Answers) (s : SocketData) :
    (serverBody m a s).1.waiting = (serverLoop a (fillSendBuffer m a s)).1.waiting := by
  rw [serverBody_fst]
  split
  · exact waiting_congr (by simp) (by simp)
  · rfl

theorem isInt_of_isReport {m : Message} (hm : IsReport m) : m.IsInt := by
  obtain ⟨hval, -⟩ := hm
  unfold Message.IsInt
  omega

/-- **A body keeps the order**: what is sent, and then what waits, waited
before or was built. -/
theorem serverBody_inOrder {m : Message} (hm : frameOf m ≠ none → m.IsInt) (a : Answers)
    (s : SocketData) :
    (tookFrames a (serverBody m a s).2.1 ++ (serverBody m a s).1.waiting).Sublist
      (s.waiting ++ builtFrame m s) := by
  have hloop := serverLoop_waiting a (fillSendBuffer m a s)
  rw [serverBody_calls, serverBody_waiting]
  refine hloop.trans ?_
  rw [waiting_fillSendBuffer hm]
  split
  · exact List.sublist_append_left _ _
  · exact List.sublist_append_right _ _

/-! ## The messages for a socket -/

/-- The message is for socket `i`, or for all. -/
def ForPort (i : PortId) (m : Message) : Prop := m.client = (basePortId + i.val : Nat) ∨ m.client = -1

instance (i : PortId) (m : Message) : Decidable (ForPort i m) := by
  unfold ForPort
  infer_instance

/-- The frames of the messages for socket `i`. -/
def framesFor (i : PortId) (ms : List Message) : List (List UInt8) :=
  (ms.filter (ForPort i ·)).filterMap frameOf

theorem framesFor_append (i : PortId) (ms ms' : List Message) :
    framesFor i (ms ++ ms') = framesFor i ms ++ framesFor i ms' := by
  simp [framesFor]

theorem framesFor_nil (i : PortId) : framesFor i [] = [] := rfl

theorem framesFor_sublist (i : PortId) {ms ms' : List Message} (h : ms.Sublist ms') :
    (framesFor i ms).Sublist (framesFor i ms') :=
  (h.filter _).filterMap _

theorem framesFor_noMessage (i : PortId) {m : Message} (hm : m.messageType = .noMessage) :
    framesFor i [m] = [] := by
  have hnone : frameOf m = none := by simp [frameOf, hm]
  unfold framesFor
  by_cases hfor : ForPort i m <;> simp [hfor, hnone]

/-- What is built for a socket that has its number. -/
theorem builtFrame_sublist {s : SocketData} {i : PortId} (hid : s.socketId = basePortId + i)
    (m : Message) : (builtFrame m s).Sublist (framesFor i [m]) := by
  unfold builtFrame
  split
  · next hopen =>
    have hfor : ForPort i m := by
      rcases hopen.2 with hclient | hall
      · exact Or.inl (by rw [hclient, hid])
      · exact Or.inr hall
    cases hf : frameOf m <;> simp [framesFor, hfor, hf]
  · exact List.nil_sublist _

/-! ## The invariant -/

/-- What was sent on socket `i`, what waits and what is in hand for it, in
the order of the messages taken. -/
structure InOrder (s : Clients.State) (g : Ledger) (i : PortId) : Prop where
  sent : (g.sent i).Sublist (framesFor i (g.taken.map Reply.message))
  all : s.server.Started i →
    (g.sent i ++ ((s.ports i).socket.waiting ++ framesFor i (s.server.inHand i))).Sublist
      (framesFor i (g.taken.map Reply.message))

theorem inOrder_start (s₀ : PortId → SocketData) (i : PortId) :
    InOrder (.start s₀) .empty i :=
  ⟨List.nil_sublist _, fun h => h.elim⟩

/-- A step that sends and takes nothing, and leaves the sockets alone. -/
theorem InOrder.of_quiet {s s' : Clients.State} {g : Ledger} {i : PortId} (h : InOrder s g i)
    (hports : s'.ports = s.ports)
    (hstarted : s'.server.Started i → s.server.Started i ∧ s'.server.inHand i = []) :
    InOrder s' g i := by
  refine ⟨h.sent, fun hi => ?_⟩
  obtain ⟨hwas, hnone⟩ := hstarted hi
  rw [hports, hnone, framesFor_nil, List.append_nil]
  refine List.Sublist.trans ?_ (h.all hwas)
  exact (List.Sublist.refl _).append (List.sublist_append_left _ _)

/-- A socket is initialised: nothing waits there. -/
theorem InOrder.starting {s : Clients.State} {g : Ledger} {i j : PortId} (h : InOrder s g i)
    (hat : s.server = .starting j) (a : Answers) (stack : Message) :
    InOrder (s.serverStep a stack).1 (g.server s a) i := by
  rw [Clients.serverStep_starting a stack hat, Ledger.server, hat]
  refine ⟨h.sent, fun hi => ?_⟩
  have hle := Clients.started_nextPort_starting hi
  simp only [Clients.inHand_nextPort_starting, framesFor_nil, List.append_nil]
  by_cases hij : i = j
  · subst hij
    have hzero : (initSocket i a (s.ports i).socket).1.sendSize = 0 :=
      (serverLoop_sendSize a (resetSocket i (s.ports i).socket)).elim id id
    simpa [Clients.Port.start, waiting_of_sendSize hzero] using h.sent
  · have hlt : i < j := Fin.lt_def.mpr (by
      have hne := Fin.val_ne_of_ne hij
      have := Fin.le_def.mp hle
      omega)
    have hall := h.all (by rw [hat]; exact hlt)
    rw [hat] at hall
    simpa [hij, Clients.ServerAt.inHand, framesFor_nil] using hall

/-- The server takes a message, which is then in hand for every socket. -/
theorem InOrder.taking {s : Clients.State} {g : Ledger} {i : PortId} (h : InOrder s g i)
    (hat : s.server = .taking) (a : Answers) (stack : Message) :
    InOrder (s.serverStep a stack).1 (g.server s a) i := by
  have hall := h.all (by rw [hat]; trivial)
  rw [hat] at hall
  simp only [Clients.ServerAt.inHand, framesFor_nil, List.append_nil] at hall
  rw [Ledger.server, hat]
  cases hq : s.sendQueue with
  | nil =>
    rw [Clients.serverStep_taking_nil a stack hat hq]
    refine ⟨by simpa using h.sent, fun _ => ?_⟩
    simp only [Clients.ServerAt.inHand, Fin.zero_le, if_true]
    rw [framesFor_noMessage i rfl]
    simpa using hall
  | cons r q =>
    rw [Clients.serverStep_taking_cons a stack hat hq]
    simp only [List.head?_cons, Option.toList_some]
    refine ⟨?_, fun _ => ?_⟩
    · rw [List.map_append, framesFor_append]
      exact h.sent.trans (List.sublist_append_left _ _)
    · simp only [Clients.ServerAt.inHand, Fin.zero_le, if_true]
      rw [List.map_append, framesFor_append, ← List.append_assoc]
      exact hall.append (List.Sublist.refl _)

/-- The body for a socket. -/
theorem InOrder.body {s : Clients.State} {g : Ledger} {i j : PortId} (h : InOrder s g i)
    (hwf : WellFormed s) (ht : Traced s) {r : Reply} (hat : s.server = .body r j) (a : Answers)
    (stack : Message) : InOrder (s.serverStep a stack).1 (g.server s a) i := by
  have hall := h.all (by rw [hat]; trivial)
  have htaken : (g.server s a).taken = g.taken := by rw [Ledger.server, hat]
  rw [hat] at hall
  rw [Clients.serverStep_body a stack hat]
  suffices hafter : ((g.server s a).sent i ++
      ((Function.update s.ports j ((s.ports j).body r a) i).socket.waiting ++
        framesFor i ((Clients.nextPort j (.body r)).inHand i))).Sublist
      (framesFor i ((g.server s a).taken.map Reply.message)) from
    ⟨(List.sublist_append_left _ _).trans hafter, fun _ => hafter⟩
  rw [g.sent_body hat a, htaken, Clients.inHand_nextPort_body]
  by_cases hij : i = j
  · subst hij
    have hint : frameOf r.message ≠ none → r.message.IsInt := fun hf =>
      (hwf.hand r i hat).elim (fun hnone => absurd hnone hf) isInt_of_isReport
    have hid : (s.ports i).socket.socketId = basePortId + i := ht.ids i (by rw [hat]; trivial)
    -- what waited and what was in hand, in this order
    have hbody : ((s.ports i).acceptedFrames r a ++ ((s.ports i).body r a).socket.waiting).Sublist
        ((s.ports i).socket.waiting ++ framesFor i [r.message]) :=
      (serverBody_inOrder hint a _).trans
        ((List.Sublist.refl _).append (builtFrame_sublist hid r.message))
    simp only [Function.update_self, if_neg (Nat.lt_irrefl i.val), Fin.lt_def, framesFor_nil,
      List.append_nil, List.append_assoc]
    simp only [Clients.ServerAt.inHand, Fin.le_refl, if_true] at hall
    exact ((List.Sublist.refl _).append hbody).trans hall
  · have hlt : (j < i) = (j ≤ i) := by
      simp only [Fin.lt_def, Fin.le_def, eq_iff_iff]
      have := Fin.val_ne_of_ne hij
      omega
    simp only [Function.update_of_ne hij, hlt]
    exact hall

/-- **A step of the server** keeps the order. -/
theorem InOrder.serverStep {s : Clients.State} {g : Ledger} {i : PortId} (h : InOrder s g i)
    (hwf : WellFormed s) (ht : Traced s) (a : Answers) (stack : Message) :
    InOrder (s.serverStep a stack).1 (g.server s a) i := by
  cases hat : s.server with
  | waiting =>
    rw [Ledger.server, hat]
    rcases Clients.serverStep_waiting a stack hat with hs | hs <;> rw [hs]
    · exact h
    · exact h.of_quiet rfl fun hi => absurd hi (Nat.not_lt_zero _)
  | starting j => exact h.starting hat a stack
  | head =>
    rw [Ledger.server, hat]
    have hstarted : s.server.Started i := by rw [hat]; trivial
    rcases Clients.serverStep_head a stack hat with hs | hs <;> rw [hs] <;>
      exact h.of_quiet rfl fun _ => ⟨hstarted, rfl⟩
  | taking => exact h.taking hat a stack
  | body r j => exact h.body hwf ht hat a stack

/-- The other tasks neither take messages nor send frames. -/
theorem InOrder.congr {s s' : Clients.State} {g g' : Ledger} {i : PortId} (h : InOrder s g i)
    (hports : s'.ports = s.ports) (hserver : s'.server = s.server) (hwire : g'.wire = g.wire)
    (htaken : g'.taken = g.taken) : InOrder s' g' i := by
  have hsent : g'.sent i = g.sent i := by rw [Ledger.sent, Ledger.sent, hwire]
  refine ⟨by rw [hsent, htaken]; exact h.sent, fun hi => ?_⟩
  rw [hserver] at hi ⊢
  rw [hports, hsent, htaken]
  exact h.all hi

/-- **Step lemma.** -/
theorem InOrder.step {s : State} {g : Ledger} {i : PortId} (h : InOrder s.clients g i)
    (hwf : WellFormed s.clients) (ht : Traced s.clients) (l : Label) :
    InOrder (s.step l).1.clients (g.step s l) i := by
  by_cases hl : ∃ a stack, l = .server a stack
  · obtain ⟨a, stack, rfl⟩ := hl
    exact h.serverStep hwf ht a stack
  · obtain ⟨⟨hports, hserver⟩, -, htaken, hwire⟩ :=
      step_of_not_server s g fun a stack he => hl ⟨a, stack, he⟩
    exact h.congr hports hserver hwire htaken

/-! ## Runs -/

/-- The order is kept in every run. -/
theorem inOrder_run (s₀ : PortId → SocketData) (ls : List Label) (i : PortId) :
    InOrder ((recorded s₀).run ls).state.clients ((recorded s₀).run ls).ledger i := by
  induction ls using List.reverseRecOn with
  | nil => exact inOrder_start s₀ i
  | append_singleton ls l ih =>
    obtain ⟨hwf, ht⟩ := wellFormed_run s₀ ls
    rw [← (recorded_run s₀ ls).1] at hwf ht
    rw [Mealy.run_concat]
    exact ih.step hwf ht l

/-- The message frames that `send` took on a socket are a subsequence of the
frames, for this socket or for all, of the messages the fan task sent, in
the order in which it sent them. -/
theorem sent_in_order (s₀ : PortId → SocketData) (ls : List Label) (i : PortId) :
    (((recorded s₀).run ls).ledger.sent i).Sublist
      (framesFor i (sends ((recorded s₀).run ls).ledger.acts)) := by
  have hreports := (explained_run s₀ ls).reports
  have htaken : (((recorded s₀).run ls).ledger.taken.map Reply.message).Sublist
      (sends ((recorded s₀).run ls).ledger.acts) := by
    refine List.Sublist.trans ?_ hreports.lost
    rw [← hreports.taken, List.map_append]
    exact List.sublist_append_left _ _
  exact (inOrder_run s₀ ls i).sent.trans (framesFor_sublist i htaken)

/-! ## What a client reads -/

/-- Everything that is said to a client. -/
def reports : List Report :=
  [.speed 0, .speed 1, .speed 2, .speed 3, .vakantie 0, .vakantie 1, .heartbeat]

theorem replyFrames_eq : replyFrames = reports.map Report.frame := by decide

/-- What the messages say to socket `i`. -/
def reportsFor (i : PortId) (ms : List Message) : List Report :=
  (ms.filter (ForPort i ·)).filterMap reportOf

theorem framesFor_eq (i : PortId) (ms : List Message) :
    framesFor i ms = (reportsFor i ms).map Report.frame := by
  rw [framesFor, reportsFor, List.map_filterMap]
  exact congrArg (List.filterMap · _) (funext frameOf_eq)

theorem mem_wireFrames {f : List UInt8} {calls : List Call} (h : f ∈ wireFrames calls) :
    ∃ sn, .send sn f ∈ calls := by
  obtain ⟨c, hc, hf⟩ := List.mem_filterMap.mp h
  cases c with
  | send sn bytes =>
    obtain rfl : bytes = f := by simpa using hf
    exact ⟨sn, hc⟩
  | _ => simp at hf

/-- A step of the server sends what its calls say. -/
theorem mem_wire_server {s : Clients.State} {g : Ledger} {a : Answers} {i : PortId}
    {f : List UInt8} (h : f ∈ (g.server s a).wire i) :
    f ∈ g.wire i ∨ ∃ sn, .send sn f ∈ serverCalls s a := by
  unfold Ledger.server at h
  split at h
  · exact Or.inl h
  · next r j hat =>
    by_cases hij : i = j
    · subst hij
      simp only [Function.update_self] at h
      rcases List.mem_append.mp h with h | h
      · exact Or.inl h
      · unfold onWire at h
        split at h
        · simpa [serverCalls, hat] using Or.inr (mem_wireFrames h)
        · simp at h
    · exact Or.inl (by simpa [hij] using h)
  · exact Or.inl h

/-- **Step lemma**: what is added is what the step sends. -/
theorem mem_wire_step {s : State} {g : Ledger} {l : Label} {i : PortId} {f : List UInt8}
    (h : f ∈ (g.step s l).wire i) : f ∈ g.wire i ∨ ∃ sn, .send sn f ∈ (s.step l).2 := by
  by_cases hl : ∃ a stack, l = .server a stack
  · obtain ⟨a, stack, rfl⟩ := hl
    exact mem_wire_server h
  · obtain ⟨-, -, -, hwire⟩ := step_of_not_server s g fun a stack he => hl ⟨a, stack, he⟩
    exact Or.inl (hwire ▸ h)

/-- Every frame on a connection is one of a report. -/
theorem wire_run (s₀ : PortId → SocketData) (ls : List Label) (i : PortId) :
    ∀ f ∈ ((recorded s₀).run ls).ledger.wire i, f ∈ replyFrames := by
  induction ls using List.reverseRecOn with
  | nil => simp [recorded, Ledger.empty]
  | append_singleton ls l ih =>
    intro f hf
    rw [Mealy.run_concat] at hf
    rcases mem_wire_step hf with hold | ⟨sn, hsent⟩
    · exact ih f hold
    · have hstep := (wellFormed_step (wellFormed_run s₀ ls) l).2
      rw [← (recorded_run s₀ ls).1] at hstep
      exact hstep _ hsent

/-- Frames of reports are the frames of some reports. -/
theorem exists_reports {w : List (List UInt8)} (h : ∀ f ∈ w, f ∈ replyFrames) :
    ∃ rs : List Report, w = rs.map Report.frame ∧ ∀ r ∈ rs, r ∈ reports := by
  induction w with
  | nil => exact ⟨[], rfl, by simp⟩
  | cons f w ih =>
    obtain ⟨rs, rfl, hrs⟩ := ih fun f hf => h f (by simp [hf])
    have hf : f ∈ reports.map Report.frame := replyFrames_eq ▸ h f (by simp)
    obtain ⟨r, hr, rfl⟩ := List.mem_map.mp hf
    exact ⟨r :: rs, rfl, by simpa using ⟨hr, hrs⟩⟩

/-- The message frames are those of the reports that are no heartbeat. -/
theorem filter_frames (rs : List Report) :
    (rs.map Report.frame).filter (· ≠ heartbeatFrame) =
      (rs.filter (· ≠ .heartbeat)).map Report.frame := by
  rw [List.filter_map]
  congr 1
  refine List.filter_congr fun r _ => ?_
  simp only [Function.comp_apply, ← frame_heartbeat, frame_injective.ne_iff]

/-- **Every client is told the truth, in order, and nothing twice.** In
every run in which the server reads no bytes beyond the end of a receive
buffer, for each socket: let `w` be any frames that `send` took on it one
after the other, such as those of one connection, and let their bytes arrive
in any pieces. The client reads well-formed reports only, and is left with
nothing unread. Those that are no heartbeats are a subsequence of what the
messages of the fan task said, to this socket or to all, in the order in
which it sent them.

The proof has no use for the condition on the run: it says where the model
is right about what the server sends. -/
theorem client_reads_in_order (s₀ : PortId → SocketData) (ls : List Label)
    (_hinside : (system s₀).Along ReadsInside ls) (i : PortId)
    {w pieces : List (List UInt8)} (hw : w <:+: ((recorded s₀).run ls).ledger.wire i)
    (hpieces : pieces.flatten = w.flatten) :
    ∃ rs : List Report,
      clientReads pieces = rs.map some ∧ (Framing.reader hash).run pieces = [] ∧
      (∀ r ∈ rs, r ∈ reports) ∧
      (rs.filter (· ≠ .heartbeat)).Sublist
        (reportsFor i (sends ((recorded s₀).run ls).ledger.acts)) := by
  obtain ⟨rs, rfl, hrs⟩ := exists_reports fun f hf => wire_run s₀ ls i f (hw.subset hf)
  obtain ⟨hread, hrest⟩ := clientReads_of_frames hpieces
  refine ⟨rs, hread, hrest, hrs, ?_⟩
  have hsent : ((rs.filter (· ≠ .heartbeat)).map Report.frame).Sublist
      ((reportsFor i (sends ((recorded s₀).run ls).ledger.acts)).map Report.frame) := by
    rw [← filter_frames, ← framesFor_eq]
    exact (hw.sublist.filter _).trans (sent_in_order s₀ ls i)
  obtain ⟨rs', hsub, hmap⟩ := List.sublist_map_iff.mp hsent
  rwa [frame_injective.list_map hmap]

/-- The client of `speedThree` is told of it, in two pieces. -/
theorem client_reads_in_order_speedThree :
    ∃ rs : List Report,
      clientReads [CString.ascii ['S'], CString.ascii ['3', '#']] = rs.map some ∧
      (Framing.reader hash).run [CString.ascii ['S'], CString.ascii ['3', '#']] = [] ∧
      (∀ r ∈ rs, r ∈ reports) ∧
      (rs.filter (· ≠ .heartbeat)).Sublist (reportsFor 0 (sends ((recorded Clients.freshSockets).run
        (speedThree ++ serverRound (.status .established 0 3))).ledger.acts)) :=
  client_reads_in_order Clients.freshSockets
    (speedThree ++ serverRound (.status .established 0 3)) (by decide +kernel) 0
    (w := [CString.ascii ['S', '3', '#']]) (by decide +kernel) (by decide)

end VentControl.System.Firmware
