/-
VentControl.System.ProgressTheorems — what was accepted is handled, and in
how many steps.

A queue gives no promise of its own: what is in it is handled when the
task at its other end gets there. Three bounds, in steps of that task,
whatever the other tasks do in between:

* `accepted_commands_handled`: the commands in `receive_queue` are handled
  after eight steps of the fan task for each, and seven more for the
  turn that is running. A turn is a receive, at most two actions, the
  second receive, and at most four actions.
* `accepted_reports_taken`: the messages in `send_queue` are taken after
  six steps of the server for each, and five more, as long as
  `server_run` stays set. A round is a test of `server_run`, a receive,
  and four bodies.
* `server_leaves`: once `server_run` is cleared, the server has left its
  serving loop after five of its steps, and does not come back before
  `server_run` is set again, even if there is a token for it.

Each is the progress rule of `Lib.Progress` for a variant that counts the
steps left.
-/
import VentControl.Lib.Progress
import VentControl.System.ControlTheorems

namespace VentControl.System.Firmware

open Runs VentControl.Server VentControl.Ventcontrol
open VentControl.System.Clients (PortId Reply Request ServerAt)

/-! ## The fan task -/

/-- The commands handled: those of the completed turns, and that of the
running one. -/
def Recorded.handled (r : Recorded) : List Message :=
  r.ledger.turns.filterMap Turn.message ++ firstMessage r.state.clients.vent

/-- The steps of the fan task up to its next receive from `receive_queue`, at
most. -/
def stepsToReceive (v : Vent) : Nat := v.pending.length + if v.half = none then 0 else 5

theorem length_ventcontrolMessage (s : Locals) (m : Option Message) :
    (ventcontrolMessage s m).2.length ≤ 2 := by
  rcases m with _ | ⟨c, v, ty⟩
  · simp
  · cases ty <;> simp only [ventcontrolMessage] <;> try split
    all_goals simp

theorem length_ventcontrolBoost (s : Locals) (b : Option Bool) :
    (ventcontrolBoost s b).2.length ≤ 4 := by
  have hswitch : ∀ w, (switchRelays w).length ≤ 3 := by
    intro w
    unfold switchRelays
    split
    · simp
    · split
      · simp
      · split <;> simp
  simp only [ventcontrolBoost]
  split
  · have := hswitch (wantedSpeed (takeBoost s b))
    simp only [List.length_append, List.length_singleton]
    omega
  · simp

/-- **All a step of the fan task can do**: it comes closer to its next receive
from `receive_queue`, or makes it. -/
theorem vent_advances (r : Recorded) :
    ((r.step .vent).1.handled = r.handled ∧
      stepsToReceive (r.step .vent).1.state.clients.vent <
        stepsToReceive r.state.clients.vent) ∨
    (stepsToReceive r.state.clients.vent = 0 ∧
      stepsToReceive (r.step .vent).1.state.clients.vent ≤ 7 ∧
      (r.step .vent).1.handled =
        r.handled ++ (r.state.clients.receiveQueue.head?.map Request.message).toList) := by
  obtain ⟨s, g⟩ := r
  simp only [Recorded.step, State.step, Ledger.step, Recorded.handled]
  cases hp : s.clients.vent.pending with
  | cons act rest =>
    obtain ⟨q, rs, hs, hg⟩ := vent_pending g hp
    rw [hs, hg]
    exact Or.inl ⟨rfl, by simp [stepsToReceive, hp]⟩
  | nil =>
    cases hh : s.clients.vent.half with
    | none =>
      obtain ⟨hs, hg⟩ := vent_receiveMessage g hp hh
      have hlen := length_ventcontrolMessage s.clients.vent.locals
        (s.clients.receiveQueue.head?.map Request.message)
      rw [hs, hg]
      refine Or.inr ⟨by simp [stepsToReceive, hp, hh], ?_, ?_⟩
      · simp only [stepsToReceive, Vent.receiveMessage, reduceCtorEq, if_false]
        omega
      · simp [firstMessage, Vent.receiveMessage, hh]
    | some m =>
      obtain ⟨hs, hg⟩ := vent_receiveBoost g hp hh
      have hlen := length_ventcontrolBoost s.clients.vent.locals s.inputQueue.head?
      rw [hs, hg]
      refine Or.inl ⟨?_, ?_⟩
      · cases m <;> simp [firstMessage, Vent.receiveBoost, hh]
      · simp only [stepsToReceive, Vent.receiveBoost, hp, hh, reduceCtorEq, if_true, if_false,
          List.length_nil]
        omega

/-- A step of the fan task. -/
def Label.isVent : Label → Bool
  | .vent => true
  | _ => false

/-- The other tasks leave the fan task alone. -/
theorem step_vent {r : Recorded} {l : Label} (hl : l.isVent = false) :
    (r.step l).1.state.clients.vent = r.state.clients.vent ∧
      (r.step l).1.ledger.turns = r.ledger.turns := by
  cases l with
  | vent => cases hl
  | dhcp i => exact ⟨rfl, rfl⟩
  | sample samples =>
    simp only [Recorded.step, State.step, State.sample, Ledger.step]
    constructor <;> split <;> rfl
  | inputSend =>
    simp only [Recorded.step, State.step, State.inputSend, Ledger.step]
    constructor
    · split <;> rfl
    · trivial
  | server a stack =>
    simp only [Recorded.step, State.step, Ledger.step, Ledger.server]
    constructor
    · exact Clients.serverStep_vent r.state.clients a stack
    · split <;> rfl

/-- What was accepted stays accepted. -/
theorem accepted_grows (r : Recorded) (l : Label) :
    r.ledger.accepted <+: (r.step l).1.ledger.accepted := by
  cases l with
  | dhcp i => exact List.prefix_rfl
  | inputSend => exact List.prefix_rfl
  | sample samples =>
    simp only [Recorded.step, Ledger.step]
    split <;> exact List.prefix_rfl
  | vent =>
    simp only [Recorded.step, Ledger.step, Ledger.vent]
    split
    · exact List.prefix_rfl
    · exact List.prefix_rfl
    · split <;> exact List.prefix_rfl
  | server a stack =>
    simp only [Recorded.step, Ledger.step, Ledger.server]
    split
    · exact List.prefix_rfl
    · exact List.prefix_append _ _
    · exact List.prefix_rfl

/-- The way to the moment at which the commands `ms` are handled. -/
theorem handled_variant (s₀ : PortId → SocketData) (ms : List Message) :
    (recorded s₀).Variant (fun _ _ => True) Label.isVent
      (fun r => Explained r.state r.ledger ∧ ms <+: r.ledger.accepted.map Request.message)
      (fun r => ms.length ≤ r.handled.length)
      (fun r => 8 * (ms.length - r.handled.length) + stepsToReceive r.state.clients.vent) where
  keeps r l h _ := ⟨h.1.step l, h.2.trans ((accepted_grows r l).map _)⟩
  arrives r _ hzero := by
    show ms.length ≤ r.handled.length
    omega
  other r l _ _ hl := by
    obtain ⟨hvent, hturns⟩ := step_vent (r := r) hl
    have hhandled : (r.step l).1.handled = r.handled := by
      rw [Recorded.handled, hvent, hturns, Recorded.handled]
    show (_ → ms.length ≤ (r.step l).1.handled.length) ∧
      8 * (ms.length - (r.step l).1.handled.length) +
        stepsToReceive (r.step l).1.state.clients.vent ≤ _
    rw [hhandled, hvent]
    exact ⟨id, Nat.le_refl _⟩
  closer r l h _ hl := by
    obtain rfl : l = .vent := by cases l <;> simp_all [Label.isVent]
    show (_ → ms.length ≤ (r.step .vent).1.handled.length) ∧
      (_ → 8 * (ms.length - (r.step .vent).1.handled.length) +
        stepsToReceive (r.step .vent).1.state.clients.vent < _)
    rcases vent_advances r with ⟨hhandled, hlt⟩ | ⟨hzero, hle, hhandled⟩
    · rw [hhandled]
      exact ⟨id, fun _ => by omega⟩
    · -- as long as a command is left, there is one in the queue
      have hall : r.handled ++ r.state.clients.receiveQueue.map Request.message =
        r.ledger.accepted.map Request.message := h.1.commands.handled
      have hlen := h.2.length_le
      rw [← hall, List.length_append, List.length_map] at hlen
      cases hq : r.state.clients.receiveQueue with
      | nil =>
        simp only [hq, List.length_nil] at hlen
        rw [hhandled, hq]
        exact ⟨by simp, fun hleft => absurd hlen hleft⟩
      | cons q qs =>
        rw [hhandled, hq]
        simp only [List.head?_cons, Option.map_some, Option.toList_some, List.length_append,
          List.length_singleton]
        omega

/-- The next receive is never far. -/
theorem stepsToReceive_le (s₀ : PortId → SocketData) (ls : List Label) :
    stepsToReceive ((recorded s₀).run ls).state.clients.vent ≤ 7 := by
  refine (recorded s₀).run_inv (fun _ _ => True)
    (I := fun r => stepsToReceive r.state.clients.vent ≤ 7) ?_ ?_ ls fun _ _ _ _ => trivial
  · show stepsToReceive Vent.start ≤ 7
    decide
  · intro r l h _
    show stepsToReceive (r.step l).1.state.clients.vent ≤ 7
    cases hl : l.isVent with
    | true =>
      obtain rfl : l = .vent := by cases l <;> simp_all [Label.isVent]
      rcases vent_advances r with ⟨-, hlt⟩ | ⟨-, hle, -⟩
      · omega
      · exact hle
    | false =>
      rw [(step_vent hl).1]
      exact h

/-- **Every accepted command is handled.** After any run, in any further
steps with eight of the fan task for each command in `receive_queue` and
seven more: the commands that were accepted then are all handled, in the
order in which they were accepted. -/
theorem accepted_commands_handled (s₀ : PortId → SocketData) (ls ls' : List Label)
    (hturns : 8 * ((recorded s₀).run ls).state.clients.receiveQueue.length + 7 ≤
      ls'.countP Label.isVent) :
    ((recorded s₀).run ls).ledger.accepted.map Request.message <+:
      ((recorded s₀).run (ls ++ ls')).handled := by
  set ms := ((recorded s₀).run ls).ledger.accepted.map Request.message with hms
  have hnow := explained_run s₀ ls
  have hall : ((recorded s₀).run ls).handled ++
      ((recorded s₀).run ls).state.clients.receiveQueue.map Request.message = ms :=
    hnow.commands.handled
  have hway : 8 * (ms.length - ((recorded s₀).run ls).handled.length) +
      stepsToReceive ((recorded s₀).run ls).state.clients.vent ≤ ls'.countP Label.isVent := by
    have := stepsToReceive_le s₀ ls
    rw [← hall, List.length_append, List.length_map]
    omega
  obtain ⟨⟨hthen, hgrown⟩, hgoal⟩ := (handled_variant s₀ ms).reaches_run ls ls'
    ⟨hnow, List.prefix_rfl⟩ (fun _ _ _ _ => trivial) hway
  -- what is handled is the beginning of what was accepted by then
  exact List.prefix_of_prefix_length_le hgrown ⟨_, hthen.commands.handled⟩ hgoal

/-- A client connects, and what it asks for is in the queue. -/
def asksSpeedThree : List Label :=
  firstPeriod ++ serverRound (.status .established 0 0) ++
    serverRound (arrival (CString.ascii ['S', 'E', 'T', '3', '#']))

theorem accepted_commands_handled_speedThree :
    ((recorded Clients.freshSockets).run asksSpeedThree).ledger.accepted.map Request.message <+:
      ((recorded Clients.freshSockets).run
        (asksSpeedThree ++ List.replicate 15 .vent)).handled :=
  accepted_commands_handled Clients.freshSockets asksSpeedThree (List.replicate 15 .vent)
    (by decide +kernel)

/-! ## The server -/

/-- The steps of the server up to its next receive from `send_queue`. -/
def stepsToTake : ServerAt → Nat
  | .waiting => 0
  | .starting i => 5 - i
  | .head => 1
  | .taking => 0
  | .body _ i => 5 - i

theorem stepsToTake_le (at_ : ServerAt) : stepsToTake at_ ≤ 5 := by
  cases at_ <;> simp [stepsToTake]

/-- The next socket is one step closer. -/
theorem stepsToTake_nextPort {next : PortId → ServerAt} (hnext : ∀ i, stepsToTake (next i) = 5 - i)
    (i : PortId) : stepsToTake (Clients.nextPort i next) < 5 - i := by
  have hlt : i.val < 4 := i.isLt
  unfold Clients.nextPort
  split
  · rw [hnext]
    show 5 - (i.val + 1) < 5 - i.val
    omega
  · show 1 < 5 - i.val
    omega

theorem nextPort_ne_waiting {next : PortId → ServerAt} (hnext : ∀ i, next i ≠ .waiting)
    (i : PortId) : Clients.nextPort i next ≠ .waiting := by
  unfold Clients.nextPort
  split
  · exact hnext _
  · exact ServerAt.noConfusion

/-- **All a step of the serving loop can do** while `server_run` is set: it
comes closer to its next receive from `send_queue`, or makes it. -/
theorem server_advances {s : Clients.State} (g : Ledger) (hat : s.server ≠ .waiting)
    (hrun : s.serverRun = true) (a : Answers) (stack : Message) :
    (s.serverStep a stack).1.server ≠ .waiting ∧
    (((g.server s a).taken = g.taken ∧
        stepsToTake (s.serverStep a stack).1.server < stepsToTake s.server) ∨
      (stepsToTake s.server = 0 ∧
        (g.server s a).taken = g.taken ++ s.sendQueue.head?.toList)) := by
  rw [Ledger.server]
  cases hp : s.server with
  | waiting => exact absurd hp hat
  | starting i =>
    rw [Clients.serverStep_starting a stack hp]
    exact ⟨nextPort_ne_waiting (fun _ => ServerAt.noConfusion) i,
      Or.inl ⟨rfl, stepsToTake_nextPort (fun _ => rfl) i⟩⟩
  | head =>
    have hs : s.serverStep a stack = ({ s with server := .taking }, []) := by
      simp [Clients.State.serverStep, hp, hrun]
    rw [hs]
    exact ⟨ServerAt.noConfusion, Or.inl ⟨rfl, by simp [stepsToTake]⟩⟩
  | taking =>
    cases hq : s.sendQueue with
    | nil =>
      rw [Clients.serverStep_taking_nil a stack hp hq]
      exact ⟨ServerAt.noConfusion, Or.inr ⟨rfl, rfl⟩⟩
    | cons r q =>
      rw [Clients.serverStep_taking_cons a stack hp hq]
      exact ⟨ServerAt.noConfusion, Or.inr ⟨rfl, rfl⟩⟩
  | body r i =>
    rw [Clients.serverStep_body a stack hp]
    exact ⟨nextPort_ne_waiting (fun _ => ServerAt.noConfusion) i,
      Or.inl ⟨rfl, stepsToTake_nextPort (fun _ => rfl) i⟩⟩

/-- A step of the server. -/
def Label.isServer : Label → Bool
  | .server _ _ => true
  | _ => false

theorem Label.exists_server {l : Label} (hl : l.isServer = true) :
    ∃ a stack, l = .server a stack := by
  cases l with
  | server a stack => exact ⟨a, stack, rfl⟩
  | _ => cases hl

/-- The other tasks leave the server where it is. -/
theorem step_server {r : Recorded} {l : Label} (hl : l.isServer = false) :
    (r.step l).1.state.clients.server = r.state.clients.server ∧
      (r.step l).1.ledger.taken = r.ledger.taken := by
  have hnot : ∀ a stack, l ≠ .server a stack := by
    intro a stack h
    subst h
    cases hl
  obtain ⟨⟨-, hserver⟩, -, htaken, -⟩ := step_of_not_server r.state r.ledger hnot
  exact ⟨hserver, htaken⟩

/-- What was reported stays reported. -/
theorem reported_grows (r : Recorded) (l : Label) :
    r.ledger.reported <+: (r.step l).1.ledger.reported := by
  cases l with
  | dhcp i => exact List.prefix_rfl
  | inputSend => exact List.prefix_rfl
  | sample samples =>
    simp only [Recorded.step, Ledger.step]
    split <;> exact List.prefix_rfl
  | vent =>
    simp only [Recorded.step, Ledger.step, Ledger.vent]
    split
    · exact List.prefix_append _ _
    · exact List.prefix_rfl
    · split <;> exact List.prefix_rfl
  | server a stack =>
    simp only [Recorded.step, Ledger.step, Ledger.server]
    split <;> exact List.prefix_rfl

/-- The way to the moment at which the messages `rs` are taken. -/
theorem taken_variant (s₀ : PortId → SocketData) (rs : List Reply) :
    (recorded s₀).Variant (fun r _ => r.state.clients.serverRun = true) Label.isServer
      (fun r => Explained r.state r.ledger ∧ r.state.clients.server ≠ .waiting ∧
        rs <+: r.ledger.reported)
      (fun r => rs.length ≤ r.ledger.taken.length)
      (fun r => 6 * (rs.length - r.ledger.taken.length) +
        stepsToTake r.state.clients.server) where
  keeps r l h hrun := by
    refine ⟨h.1.step l, ?_, h.2.2.trans (reported_grows r l)⟩
    show (r.step l).1.state.clients.server ≠ .waiting
    cases hl : l.isServer with
    | true =>
      obtain ⟨a, stack, rfl⟩ := Label.exists_server hl
      exact (server_advances r.ledger h.2.1 hrun a stack).1
    | false =>
      rw [(step_server hl).1]
      exact h.2.1
  arrives r _ hzero := by
    show rs.length ≤ r.ledger.taken.length
    omega
  other r l _ _ hl := by
    obtain ⟨hserver, htaken⟩ := step_server (r := r) hl
    show (_ → rs.length ≤ (r.step l).1.ledger.taken.length) ∧
      6 * (rs.length - (r.step l).1.ledger.taken.length) +
        stepsToTake (r.step l).1.state.clients.server ≤ _
    rw [hserver, htaken]
    exact ⟨id, Nat.le_refl _⟩
  closer r l h hrun hl := by
    obtain ⟨a, stack, rfl⟩ := Label.exists_server hl
    have hle := stepsToTake_le (r.state.clients.serverStep a stack).1.server
    show (_ → rs.length ≤ (r.ledger.server r.state.clients a).taken.length) ∧
      (_ → 6 * (rs.length - (r.ledger.server r.state.clients a).taken.length) +
        stepsToTake (r.state.clients.serverStep a stack).1.server < _)
    rcases (server_advances r.ledger h.2.1 hrun a stack).2 with ⟨htaken, hlt⟩ | ⟨hzero, htaken⟩
    · rw [htaken]
      exact ⟨id, fun _ => by omega⟩
    · -- as long as a message is left, there is one in the queue
      have hlen := h.2.2.length_le
      rw [← h.1.reports.taken, List.length_append] at hlen
      cases hq : r.state.clients.sendQueue with
      | nil =>
        simp only [hq, List.length_nil] at hlen
        rw [htaken, hq]
        exact ⟨by simp, fun hleft => absurd hlen hleft⟩
      | cons q qs =>
        rw [htaken, hq]
        simp only [List.head?_cons, Option.toList_some, List.length_append,
          List.length_singleton]
        omega

/-- **Every accepted message is taken.** After any run that ends with the
server in its serving loop or on the way there, in any further steps during
which `server_run` stays set, with six of the server for each message in
`send_queue` and five more: the messages that were accepted then are all
taken by the server, in the order in which they were accepted. -/
theorem accepted_reports_taken (s₀ : PortId → SocketData) (ls ls' : List Label)
    (hserves : ((recorded s₀).run ls).state.clients.server ≠ .waiting)
    (hrun : EachStep (fun v _ => ((recorded s₀).run (ls ++ v)).state.clients.serverRun = true) ls')
    (hturns : 6 * ((recorded s₀).run ls).state.clients.sendQueue.length + 5 ≤
      ls'.countP Label.isServer) :
    ((recorded s₀).run ls).ledger.reported <+: ((recorded s₀).run (ls ++ ls')).ledger.taken := by
  have hnow := explained_run s₀ ls
  have hway : 6 * (((recorded s₀).run ls).ledger.reported.length -
      ((recorded s₀).run ls).ledger.taken.length) +
        stepsToTake ((recorded s₀).run ls).state.clients.server ≤ ls'.countP Label.isServer := by
    have := stepsToTake_le ((recorded s₀).run ls).state.clients.server
    rw [← hnow.reports.taken, List.length_append]
    omega
  obtain ⟨⟨hthen, -, hgrown⟩, hgoal⟩ :=
    (taken_variant s₀ ((recorded s₀).run ls).ledger.reported).reaches_run ls ls'
      ⟨hnow, hserves, List.prefix_rfl⟩ hrun hway
  exact List.prefix_of_prefix_length_le hgrown ⟨_, hthen.reports.taken⟩ hgoal

/-- The new speed is in the queue, and the server makes two rounds. -/
theorem accepted_reports_taken_speedThree :
    ((recorded Clients.freshSockets).run speedThree).ledger.reported <+:
      ((recorded Clients.freshSockets).run
        (speedThree ++ serverRound (.status .established 0 3) ++
          serverRound (.status .established 0 3))).ledger.taken := by
  have hserves :
      ¬ ServerWaits ((recorded Clients.freshSockets).run speedThree).state.clients.server := by
    decide +kernel
  rw [List.append_assoc]
  exact accepted_reports_taken Clients.freshSockets speedThree
    (serverRound (.status .established 0 3) ++ serverRound (.status .established 0 3))
    (fun h => hserves (by rw [h]; trivial)) (by decide +kernel) (by decide +kernel)

/-! ## The end of serving -/

/-- The server is in its serving loop: it takes from `send_queue` and serves
the sockets. -/
def InLoop : ServerAt → Prop
  | .taking => True
  | .body _ _ => True
  | _ => False

/-- The steps of the server up to its next test of `server_run`. -/
def stepsToTest : ServerAt → Nat
  | .taking => 5
  | .body _ i => 4 - i
  | _ => 0

/-- A step of the server while `server_run` is cleared. -/
theorem server_leaving {s : Clients.State} (hrun : s.serverRun = false) (a : Answers)
    (stack : Message) :
    (¬ InLoop s.server → ¬ InLoop (s.serverStep a stack).1.server) ∧
      (InLoop s.server → stepsToTest (s.serverStep a stack).1.server < stepsToTest s.server) := by
  cases hp : s.server with
  | waiting =>
    refine ⟨fun _ => ?_, False.elim⟩
    rcases Clients.serverStep_waiting a stack hp with hs | hs <;> rw [hs]
    · rw [hp]
      exact id
    · exact id
  | starting i =>
    rw [Clients.serverStep_starting a stack hp]
    refine ⟨fun _ => ?_, False.elim⟩
    simp only [Clients.nextPort]
    split <;> exact id
  | head =>
    have hs : s.serverStep a stack = ({ s with server := .waiting }, []) := by
      simp [Clients.State.serverStep, hp, hrun]
    rw [hs]
    exact ⟨fun _ => id, False.elim⟩
  | taking =>
    refine ⟨fun hout => absurd trivial hout, fun _ => ?_⟩
    cases hq : s.sendQueue with
    | nil =>
      rw [Clients.serverStep_taking_nil a stack hp hq]
      exact Nat.lt_succ_self 4
    | cons r q =>
      rw [Clients.serverStep_taking_cons a stack hp hq]
      exact Nat.lt_succ_self 4
  | body r i =>
    refine ⟨fun hout => absurd trivial hout, fun _ => ?_⟩
    rw [Clients.serverStep_body a stack hp]
    have hlt : i.val < 4 := i.isLt
    simp only [Clients.nextPort]
    split
    · show 4 - (i.val + 1) < 4 - i.val
      omega
    · show 0 < 4 - i.val
      omega

/-- The way out of the serving loop. -/
theorem leaving_variant (s₀ : PortId → SocketData) :
    (recorded s₀).Variant (fun r _ => r.state.clients.serverRun = false) Label.isServer
      (fun _ => True) (fun r => ¬ InLoop r.state.clients.server)
      (fun r => stepsToTest r.state.clients.server) where
  keeps _ _ _ _ := trivial
  arrives r _ hzero := by
    cases hp : r.state.clients.server with
    | taking =>
      rw [hp] at hzero
      cases hzero
    | body q i =>
      have hlt : i.val < 4 := i.isLt
      rw [hp] at hzero
      simp only [stepsToTest] at hzero
      omega
    | _ => exact id
  other r l _ _ hl := by
    show (_ → ¬ InLoop (r.step l).1.state.clients.server) ∧
      stepsToTest (r.step l).1.state.clients.server ≤ _
    rw [(step_server hl).1]
    exact ⟨id, Nat.le_refl _⟩
  closer r l _ hrun hl := by
    obtain ⟨a, stack, rfl⟩ := Label.exists_server hl
    obtain ⟨hout, hin⟩ := server_leaving hrun a stack
    exact ⟨hout, fun h => hin (not_not.mp h)⟩

/-- **The server leaves its loop** once `server_run` is cleared: after any run,
in any further steps during which `server_run` stays cleared, with five of
the server, it is outside its serving loop at the end. -/
theorem server_leaves (s₀ : PortId → SocketData) (ls ls' : List Label)
    (hrun : EachStep (fun v _ => ((recorded s₀).run (ls ++ v)).state.clients.serverRun = false) ls')
    (hturns : 5 ≤ ls'.countP Label.isServer) :
    ¬ InLoop ((recorded s₀).run (ls ++ ls')).state.clients.server := by
  refine ((leaving_variant s₀).reaches_run ls ls' trivial hrun ?_).2
  refine Nat.le_trans ?_ hturns
  cases ((recorded s₀).run ls).state.clients.server with
  | body r i => exact Nat.le_trans (Nat.sub_le 4 i) (Nat.le_succ 4)
  | _ => simp [stepsToTest]

/-- The link goes off while the server is about to take a message. -/
def linkLoss : List Label :=
  firstPeriod ++ List.replicate 2 (.dhcp ⟨.off, .other⟩)

theorem server_leaves_linkLoss :
    ¬ InLoop ((recorded Clients.freshSockets).run
      (linkLoss ++ List.replicate 5 (.server (.status .other 0 0) noMessage))
      ).state.clients.server :=
  server_leaves Clients.freshSockets linkLoss
    (List.replicate 5 (.server (.status .other 0 0) noMessage)) (by decide +kernel) (by decide)

end VentControl.System.Firmware
