/-
VentControl.Server.DeliveryTheorems — from `send_queue` to `send`.

A `Line` is a socket with two records for the connection that is up: the
frames of the messages taken for it, and those that `send` accepted (with
a positive result). `serving` is `server_task` with its sockets as lines;
its runs are those of the task (`serving_task`).

One send buffer stands between the two records. The step lemma
`Line.Sound.accounted` says that what was taken is what was accepted and
then what waits in the buffer, so nothing is lost, doubled or reordered.
It needs two things of a body, `Line.Delivers`. `send_size` is cleared
before the result of `send` is looked at, so a result of 0 loses the
frame; and a body in which `recv` is busy returns before the send step, so
the next message overwrites the frame that still waits. `messages_lost`
shows both. And no step may read bytes beyond the end of a receive buffer,
where a send buffer follows it in memory.

A frame that waits already when a connection comes up is counted as taken
for it. Heartbeats are not counted.
-/
import VentControl.Lib.Run
import VentControl.Server.Connection
import VentControl.Server.Task

namespace VentControl.Server

open Runs

/-! ## The records -/

/-- A socket, its link, and the records of the connection that is up. -/
structure Line where
  socket : SocketData
  link : Link
  taken : List (List UInt8)
  accepted : List (List UInt8)

/-- The records when `server_loop` is entered: a new connection starts new
ones. -/
def Line.records (l : Line) (m : Message) (a : Answers) : List (List UInt8) × List (List UInt8) :=
  if l.link.New a then ((fillSendBuffer m a l.socket).waiting, [])
  else (l.taken ++ builtFrame m l.socket, l.accepted)

/-- One body. The records change while a connection is up. -/
def Line.body (l : Line) (m : Message) (a : Answers) : Line :=
  let calls := (serverBody m a l.socket).2.1
  { socket := (serverBody m a l.socket).1
    link := l.link.after a.sr calls
    taken := if (l.link.poll a.sr).live then (l.records m a).1 else l.taken
    accepted :=
      if (l.link.poll a.sr).live then
        (l.records m a).2 ++ if a.sendRet > 0 then sentFrames calls else []
      else l.accepted }

/-- The initialisation, which begins with `socket`; there is no connection. -/
def Line.start (i : Nat) (a : Answers) (l : Line) : Line where
  socket := (initSocket i a l.socket).1
  link := Link.down.after a.sr (initSocket i a l.socket).2.tail
  taken := []
  accepted := []

/-! ## The task -/

/-- `server_task` with its sockets as lines. -/
structure Serving where
  point : TaskPoint
  lines : Fin listeningSocketCount → Line

/-- The task without the records. -/
def Serving.task (w : Serving) : TaskState := ⟨w.point, fun i => (w.lines i).socket⟩

/-- One step. -/
def Serving.step (w : Serving) (e : Env) : Serving where
  point := (serverStep w.task e).1.point
  lines :=
    match w.point with
    | .starting i => Function.update w.lines i (.start i e.answers (w.lines i))
    | .body m i => Function.update w.lines i ((w.lines i).body m e.answers)
    | _ => w.lines

/-- The machine, from any memory. -/
def serving (s₀ : Fin listeningSocketCount → SocketData) : Mealy Serving Env Empty where
  init := ⟨.waiting, fun i => ⟨s₀ i, .down, [], []⟩⟩
  step w e := (w.step e, [])

theorem sockets_update (lines : Fin listeningSocketCount → Line) (i : Fin listeningSocketCount)
    (l : Line) :
    (fun j => (Function.update lines i l j).socket) =
      Function.update (fun j => (lines j).socket) i l.socket :=
  Function.comp_update Line.socket lines i l

theorem Serving.task_step (w : Serving) (e : Env) : (w.step e).task = (serverStep w.task e).1 := by
  cases hp : w.point with
  | starting i =>
    simp only [Serving.task, Serving.step, serverStep, hp, sockets_update]
    rfl
  | body m i =>
    simp only [Serving.task, Serving.step, serverStep, hp, sockets_update]
    rfl
  | waiting => simp only [Serving.task, Serving.step, serverStep, hp]
  | head => simp only [Serving.task, Serving.step, serverStep, hp]
  | taking =>
    simp only [Serving.task, Serving.step, serverStep, hp]
    cases e.received <;> rfl

/-- Its runs are the runs of `server_task`. -/
theorem serving_task (s₀ : Fin listeningSocketCount → SocketData) (es : List Env) :
    ((serving s₀).run es).task = (task s₀).run es := by
  induction es using List.reverseRecOn with
  | nil => rfl
  | append_singleton es e ih =>
    rw [Mealy.run_concat, Mealy.run_concat, ← ih]
    exact ((serving s₀).run es).task_step e

/-! ## The guarantee and its condition -/

/-- What a body should keep. What was accepted is the beginning of what was
taken; on a connection that is up only the frame that waits is missing,
and a frame waits only after `recv` was busy. -/
def Line.Accounted (l : Line) (m : Message) (a : Answers) : Prop :=
  (l.body m a).accepted <+: (l.body m a).taken ∧
  ((l.body m a).link.live = true →
    (l.body m a).taken = (l.body m a).accepted ++ (l.body m a).socket.waiting ∧
    (¬ a.Busy → (l.body m a).socket.waiting = []))

instance (l : Line) (m : Message) (a : Answers) : Decidable (l.Accounted m a) := by
  unfold Line.Accounted
  infer_instance

/-- The condition on a body. On a connection that is up no message is taken
while the frame of another still waits; and where `server_loop` comes to
its send step with a message frame, `send` is not busy. -/
def Line.Delivers (l : Line) (m : Message) (a : Answers) : Prop :=
  (l.link.live = true → builtFrame m l.socket ≠ [] → l.socket.waiting = []) ∧
  (a.sr = .established → (a.rxRsr > 0 → 0 < a.recv.ret) →
    l.socket.waiting ++ builtFrame m l.socket ≠ [] → a.sendRet ≠ 0)

instance (l : Line) (m : Message) (a : Answers) : Decidable (l.Delivers m a) := by
  unfold Line.Delivers
  infer_instance

/-- The condition on a step of `server_task`. -/
def Serving.Delivers (w : Serving) (e : Env) : Prop :=
  w.task.ReadsInside e.answers ∧
    match w.point with
    | .body m i => (w.lines i).Delivers m e.answers
    | _ => True

instance (w : Serving) (e : Env) : Decidable (w.Delivers e) := by
  unfold Serving.Delivers
  split <;> infer_instance

/-- What a step should keep. -/
def Serving.Accounted (w : Serving) (e : Env) : Prop :=
  match w.point with
  | .body m i => (w.lines i).Accounted m e.answers
  | _ => True

instance (w : Serving) (e : Env) : Decidable (w.Accounted e) := by
  unfold Serving.Accounted
  split <;> infer_instance

/-! ## One body -/

/-- The invariant: a connection that is up is on an open socket, and what was
taken for it was accepted or waits. -/
structure Line.Sound (l : Line) : Prop where
  prefix_taken : l.accepted <+: l.taken
  up : l.link.live = true →
    l.socket.socketOpen = true ∧ l.taken = l.accepted ++ l.socket.waiting

section Step

variable {l : Line} {m : Message} {a : Answers}

/-- On a connection that is up the records differ by what waits, when
`server_loop` is entered. -/
theorem Line.Sound.records (hl : l.Sound) (hm : frameOf m ≠ none → m.IsInt) (hcond : l.Delivers m a)
    (hsr : a.sr = .established) (hlive : (l.link.live || l.link.listening) = true) :
    (l.records m a).1 = (l.records m a).2 ++ (fillSendBuffer m a l.socket).waiting := by
  by_cases hnew : l.link.New a
  · simp [Line.records, hnew]
  · have hup : l.link.live = true := by
      have : l.link.listening = false := by simpa [Link.New, hsr] using hnew
      simpa [this] using hlive
    rw [Line.records, if_neg hnew, waiting_fillSendBuffer hm, (hl.up hup).2]
    by_cases hb : builtFrame m l.socket = []
    · simp [hb]
    · simp [hb, hcond.1 hup hb]

/-- What a body does on an established socket with a connection. -/
theorem Line.Sound.established (hl : l.Sound) (hm : frameOf m ≠ none → m.IsInt)
    (hcond : l.Delivers m a) (hsr : a.sr = .established)
    (hlive : (l.link.live || l.link.listening) = true) :
    (l.body m a).accepted <+: (l.body m a).taken ∧
    ((l.body m a).socket.socketOpen = true →
      (l.body m a).taken = (l.body m a).accepted ++ (l.body m a).socket.waiting ∧
      (¬ a.Busy → (l.body m a).socket.waiting = [])) := by
  have hrec := hl.records hm hcond hsr hlive
  have hpoll : (l.link.poll a.sr).live = true := by rw [hsr]; exact hlive
  have htaken : (l.body m a).taken = (l.records m a).1 := by simp [Line.body, hpoll]
  have haccepted : (l.body m a).accepted = (l.records m a).2 ++
      if a.sendRet > 0 then sentFrames (serverBody m a l.socket).2.1 else [] := by
    simp [Line.body, hpoll]
  rw [htaken, hrec, haccepted]
  obtain ⟨hbusy, hsent, hwait⟩ | ⟨hclosed, hsent⟩ | ⟨hon, hsize, hsent, hret⟩ :=
    serverBody_send (m := m) (s := l.socket) hsr
  · -- the frame still waits
    have hwait' : (l.body m a).socket.waiting = (fillSendBuffer m a l.socket).waiting := hwait
    rw [hsent, ite_self, List.append_nil, hwait']
    exact ⟨List.prefix_append _ _, fun _ => ⟨rfl, fun hb => absurd hbusy hb⟩⟩
  · -- the connection is closed
    have hnone : (if a.sendRet > 0 then sentFrames (serverBody m a l.socket).2.1 else []) = [] := by
      rcases hsent with hs | hneg
      · rw [hs, ite_self]
      · rw [if_neg (by omega)]
    rw [hnone, List.append_nil]
    exact ⟨List.prefix_append _ _, fun h => absurd (hclosed.symm.trans h) (by decide)⟩
  · -- `send` took the frame
    have hwait' : (l.body m a).socket.waiting = [] := waiting_of_sendSize hsize
    have hall : (if a.sendRet > 0 then sentFrames (serverBody m a l.socket).2.1 else []) =
        (fillSendBuffer m a l.socket).waiting := by
      rw [hsent]
      by_cases hw : (fillSendBuffer m a l.socket).waiting = []
      · rw [hw, ite_self]
      · have hne : l.socket.waiting ++ builtFrame m l.socket ≠ [] := by
          intro hnil
          obtain ⟨hnil₁, hnil₂⟩ := List.append_eq_nil_iff.mp hnil
          exact hw (by rw [waiting_fillSendBuffer hm, if_pos hnil₂, hnil₁])
        have hpos := hcond.2 hsr hon hne
        have hge := hret.resolve_left hw
        rw [if_pos (by omega)]
    rw [hall, hwait', List.append_nil]
    exact ⟨List.prefix_refl _, fun _ => ⟨rfl, fun _ => rfl⟩⟩

/-- **One body** loses and doubles nothing. -/
theorem Line.Sound.accounted (hl : l.Sound) (hm : frameOf m ≠ none → m.IsInt)
    (hcond : l.Delivers m a) :
    l.Accounted m a ∧ (l.body m a).Sound := by
  have hlive : (l.body m a).link.live = true → a.sr = .established ∧
      (l.link.live || l.link.listening) = true ∧ (l.body m a).socket.socketOpen = true :=
    serverBody_live
  by_cases hpoll : a.sr = .established ∧ (l.link.live || l.link.listening) = true
  · obtain ⟨hpre, hup⟩ := hl.established hm hcond hpoll.1 hpoll.2
    have hopen := fun h => (hlive h).2.2
    exact ⟨⟨hpre, fun h => hup (hopen h)⟩, ⟨hpre, fun h => ⟨hopen h, (hup (hopen h)).1⟩⟩⟩
  · -- no connection is up, the records stay
    have hnot : ¬ (l.link.poll a.sr).live = true := by
      intro h
      cases hsr : a.sr <;> simp_all [Link.poll]
    have hdown : ¬ (l.body m a).link.live = true :=
      fun h => hpoll ⟨(hlive h).1, (hlive h).2.1⟩
    have hpre : (l.body m a).accepted <+: (l.body m a).taken := by
      simpa [Line.body, hnot] using hl.prefix_taken
    exact ⟨⟨hpre, fun h => absurd h hdown⟩, ⟨hpre, fun h => absurd h hdown⟩⟩

end Step

/-- A socket that was just initialised has no connection. -/
theorem Line.sound_start (i : Nat) (a : Answers) (l : Line) : (Line.start i a l).Sound := by
  have hdown := (initSocket_link i a l.socket).1
  exact ⟨List.prefix_refl _, fun h => absurd (hdown.symm.trans h) (by decide)⟩

/-! ## Runs -/

/-- The invariant of `server_task`. The message in its hands has an `int`, if
it has a frame: what the stack held comes with NO_MESSAGE. -/
structure Serving.Sound (w : Serving) : Prop where
  lines : ∀ i, (w.lines i).Sound
  message : ∀ m i, w.point = .body m i → frameOf m ≠ none → m.IsInt

section Run

variable {w : Serving} {e : Env}

/-- Changing one line keeps the others. -/
theorem Serving.Sound.update (h : w.Sound) {i : Fin listeningSocketCount} {l : Line}
    (hl : l.Sound) : ∀ j, (Function.update w.lines i l j).Sound :=
  (Function.forall_update_iff w.lines fun _ l => l.Sound).mpr ⟨hl, fun j _ => h.lines j⟩

theorem nextSocket_body {m m' : Message} {i j : Fin listeningSocketCount}
    (h : nextSocket i (.body m) = .body m' j) : m' = m := by
  unfold nextSocket at h
  split at h
  · exact (TaskPoint.body.inj h).1.symm
  · cases h

theorem nextSocket_starting {i j : Fin listeningSocketCount} {m : Message}
    (h : nextSocket i .starting = .body m j) : False := by
  unfold nextSocket at h
  split at h <;> cases h

theorem Serving.Sound.accounted (h : w.Sound) (hcond : w.Delivers e) : w.Accounted e := by
  cases hp : w.point with
  | body m i =>
    have hdelivers := hcond.2
    simp only [hp] at hdelivers
    simp only [Serving.Accounted, hp]
    exact ((h.lines i).accounted (h.message m i hp) hdelivers).1
  | _ => simp only [Serving.Accounted, hp]

theorem Serving.Sound.step (h : w.Sound) (hint : ∀ m ∈ e.received, m.IsInt)
    (hcond : w.Delivers e) : (w.step e).Sound := by
  cases hp : w.point with
  | starting i =>
    refine ⟨?_, fun m j hj => ?_⟩
    · simp only [Serving.step, hp]
      exact h.update (Line.sound_start _ _ _)
    · simp only [Serving.step, Serving.task, serverStep, hp] at hj
      exact (nextSocket_starting hj).elim
  | body m i =>
    have hdelivers := hcond.2
    simp only [hp] at hdelivers
    refine ⟨?_, fun m' j hj => ?_⟩
    · simp only [Serving.step, hp]
      exact h.update ((h.lines i).accounted (h.message m i hp) hdelivers).2
    · simp only [Serving.step, Serving.task, serverStep, hp] at hj
      exact nextSocket_body hj ▸ h.message m i hp
  | waiting =>
    refine ⟨by simpa only [Serving.step, hp] using h.lines, fun m j hj => ?_⟩
    simp only [Serving.step, Serving.task, serverStep, hp] at hj
    split at hj <;> cases hj
  | head =>
    refine ⟨by simpa only [Serving.step, hp] using h.lines, fun m j hj => ?_⟩
    simp only [Serving.step, Serving.task, serverStep, hp] at hj
    split at hj <;> cases hj
  | taking =>
    refine ⟨by simpa only [Serving.step, hp] using h.lines, fun m j hj hframe => ?_⟩
    simp only [Serving.step, Serving.task, serverStep, hp] at hj
    cases hr : e.received with
    | none =>
      -- what the stack held has no frame
      rw [hr] at hj
      obtain ⟨rfl, -⟩ := TaskPoint.body.inj hj
      exact absurd rfl hframe
    | some m' =>
      rw [hr] at hj
      obtain ⟨rfl, -⟩ := TaskPoint.body.inj hj
      exact hint m' hr

end Run

/-- **No outgoing message is lost or doubled**, in every run of `server_task`
in which no message is taken for a connection while the frame of another
waits for it, `send` is never busy with a message frame, and no step reads
bytes beyond the end of a receive buffer. -/
theorem no_message_lost (s₀ : Fin listeningSocketCount → SocketData) (es : List Env)
    (hint : ∀ e ∈ es, ∀ m ∈ e.received, m.IsInt)
    (hcond : (serving s₀).Along Serving.Delivers es) :
    (serving s₀).Along Serving.Accounted es := by
  have hboth : (serving s₀).Along
      (fun w e => (∀ m ∈ e.received, m.IsInt) ∧ w.Delivers e) es :=
    fun h e t he => ⟨hint e (by simp [he]), hcond h e t he⟩
  have hstart : Serving.Sound (serving s₀).init :=
    ⟨fun i => ⟨List.nil_prefix, fun h => absurd h (by simp [serving, Link.down])⟩,
      fun m i h => by cases h⟩
  exact (serving s₀).along_of_inv (I := Serving.Sound) hstart
    (fun w e hw hg => hw.step hg.1 hg.2) (fun w e hw hg => hw.accounted hg.2) es hboth

/-- A step that reads `received` and `a`. -/
def Env.reads (received : Option Message) (a : Answers) : Env :=
  ⟨true, true, received, a, noMessage⟩

/-- A round of the serving loop that takes `received`: socket 2 gets the
answers `a`, and the others wait for a connection. -/
def servingRound (received : Option Message) (a : Answers) : List Env :=
  [.reads none (.status .other 0 0), .reads received (.status .other 0 0), .reads none a] ++
    List.replicate 3 (.reads none (.status .other 0 0))

/-- The server starts, its sockets listen, and a connection comes up on
socket 2. -/
def connected : List Env :=
  .reads none (.status .other 0 0) ::
    (List.replicate 4 (.reads none (.status .init 0 0)) ++
      servingRound none (.status .established 1 0))

/-- The two replies to a GET, both accepted. -/
def twoReplies : List Env :=
  connected ++ servingRound (some ⟨2, 1, .currentSpeeed⟩) (.status .established 2 3) ++
    servingRound (some ⟨2, 0, .currentVakantie⟩) (.status .established 3 3)

theorem no_message_lost_twoReplies :
    (serving fun _ => .fresh).Along Serving.Accounted twoReplies :=
  no_message_lost (fun _ => .fresh) twoReplies (by decide) (by decide +kernel)

/-- `send` is busy with the first reply. -/
def busySend : List Env :=
  connected ++ servingRound (some ⟨2, 1, .currentSpeeed⟩) (.status .established 2 0)

/-- `recv` is busy in the round of the first reply. -/
def busyRecv : List Env :=
  connected ++
    servingRound (some ⟨2, 1, .currentSpeeed⟩)
      { Answers.status .established 2 3 with rxRsr := 4 } ++
    servingRound (some ⟨2, 0, .currentVakantie⟩) (.status .established 3 3)

/-- A reply is lost when `send` is busy, and it is overwritten when `recv`
was. -/
theorem messages_lost :
    ¬ (serving fun _ => .fresh).Along Serving.Accounted busySend ∧
      ¬ (serving fun _ => .fresh).Along Serving.Accounted busyRecv := by
  decide +kernel

end VentControl.Server
