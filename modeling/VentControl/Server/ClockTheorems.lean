/-
VentControl.Server.ClockTheorems — no timestamp is subtracted that was
not stored before.

The two timestamps of each socket are cells, and the outputs of
`server_task` are a log of what is stored in them and subtracted from
them. While a socket is open its timestamps are what the log says
(`Holds`): `server_loop` stores both before it reads either, and the
heartbeat is only thought of for a socket that is open. One lemma for each
function, put together along the log.
-/
import VentControl.Lib.Cells
import VentControl.Server.SocketTheorems
import VentControl.Server.Task

namespace VentControl.Server

open Runs Cells

/-! ## The log -/

/-- A timestamp of a socket. -/
abbrev Cell : Type := Fin listeningSocketCount × Timestamp

/-- What an output stores in a timestamp. -/
def Output.stores : Output → Cell → Option Nat
  | .clock i (.store f t), k => if k = (i, f) then some t else none
  | _, _ => none

/-- The value of a timestamp that an output subtracts. -/
def Output.subtracts : Output → Cell → Option Nat
  | .clock i (.subtract f _ last), k => if k = (i, f) then some last else none
  | _, _ => none

/-- The log of what socket `i` does with the clock. -/
def clockLog (i : Fin listeningSocketCount) (us : List ClockUse) : List Output :=
  us.map (.clock i)

/-- The timestamps of an open socket are known. -/
def Holds (c : Cell → Option Nat) (i : Fin listeningSocketCount) (s : SocketData) : Prop :=
  s.socketOpen = true → ∀ f, c (i, f) = some (s.timestamp f)

/-- From what the cells hold, the log only reads what is there, and what
they hold then is right for the socket. -/
structure Follows (c : Cell → Option Nat) (i : Fin listeningSocketCount) (us : List ClockUse)
    (s : SocketData) : Prop where
  reads : Reads Output.stores Output.subtracts c (clockLog i us)
  holds : Holds (held Output.stores c (clockLog i us)) i s

section

variable {c : Cell → Option Nat} {i : Fin listeningSocketCount} {s s₁ : SocketData}
  {us us' : List ClockUse}

theorem Follows.nil (h : Holds c i s) : Follows c i [] s := ⟨trivial, h⟩

theorem Follows.append (h : Follows c i us s)
    (h' : Follows (held Output.stores c (clockLog i us)) i us' s₁) :
    Follows c i (us ++ us') s₁ := by
  constructor
  · rw [clockLog, List.map_append]
    exact (reads_append _ _).mpr ⟨h.reads, h'.reads⟩
  · rw [clockLog, List.map_append, held_append]
    exact h'.holds

/-- The timestamps matter while the socket is open only. -/
theorem Follows.of_closed (h : Follows c i us s) (hclosed : s₁.socketOpen = false) :
    Follows c i us s₁ :=
  ⟨h.reads, fun hopen => by simp [hclosed] at hopen⟩

theorem Follows.congr (h : Follows c i us s) (hopen : s₁.socketOpen = s.socketOpen)
    (htime : ∀ f, s₁.timestamp f = s.timestamp f) : Follows c i us s₁ :=
  ⟨h.reads, fun ho f => by rw [htime]; exact h.holds (hopen ▸ ho) f⟩

/-- Storing one timestamp of an open socket whose timestamps are known. -/
theorem Holds.store (h : Holds c i s) (hopen : s.socketOpen = true) {f : Timestamp} {t : Nat}
    (hf : s₁.timestamp f = t) (hkeep : ∀ f', f' ≠ f → s₁.timestamp f' = s.timestamp f') :
    Follows c i [.store f t] s₁ := by
  refine ⟨by simp [clockLog, Reads, Output.subtracts], fun _ f' => ?_⟩
  by_cases hff : f' = f
  · subst hff
    simp [clockLog, Output.stores, hf]
  · simp [clockLog, Output.stores, hff, hkeep f' hff, h hopen f']

/-! ## One lemma for each function -/

variable (a : Answers)

theorem follows_openSocket (h : Holds c i s) :
    Follows c i (openSocketClock a s) (openSocket a s) := by
  unfold openSocketClock openSocket
  split
  · exact .nil h
  · refine ⟨by simp [clockLog, Reads, Output.subtracts], fun _ f => ?_⟩
    cases f <;> simp [clockLog, Output.stores, SocketData.timestamp]

theorem follows_receiveStep (h : Holds c i s) (hopen : s.socketOpen = true) :
    Follows c i (receiveStepClock a s) (receiveStep a s).1 := by
  have hread : Follows c i [.subtract .received (timeUs64 a.timeReceive) s.lastCommandReceived]
      s := by
    refine ⟨⟨fun k v hv => ?_, trivial⟩, fun _ f => ?_⟩
    · simp only [Output.subtracts, Option.ite_none_right_eq_some, Option.some.injEq] at hv
      obtain ⟨rfl, rfl⟩ := hv
      exact h hopen .received
    · simpa [clockLog, Output.stores] using h hopen f
  unfold receiveStepClock
  obtain ⟨hrx, hret, he⟩ | ⟨hrx, hret, -, he⟩ | ⟨hrx, hret, he⟩ | ⟨hrx, hret, he⟩ |
    ⟨hrx, -, he⟩ | ⟨hrx, -, he⟩ := receiveStep_cases a s <;> rw [he]
  · rw [if_pos hrx, if_neg (by simp [hret])]
    refine h.store hopen rfl fun f hf => ?_
    cases f with
    | received => exact absurd rfl hf
    | send => rfl
  · rw [if_pos hrx, if_pos hret]
    exact (Follows.nil h).congr rfl fun f => by cases f <;> rfl
  · rw [if_pos hrx, if_pos (by omega)]
    exact (Follows.nil h).congr rfl fun f => by cases f <;> rfl
  · rw [if_pos hrx, if_pos (by omega)]
    exact (Follows.nil h).of_closed rfl
  · rw [if_neg (by omega)]
    exact hread.of_closed rfl
  · rw [if_neg (by omega)]
    exact hread

theorem follows_sendStep (h : Holds c i s) (hopen : s.socketOpen = true) :
    Follows c i (sendStepClock a s) (sendStep a s).1 := by
  have hstore : ∀ s₁ : SocketData, s₁.lastCommandReceived = s.lastCommandReceived →
      s₁.lastCommandSend = timeUs64 a.timeSend →
      Follows c i [.store .send (timeUs64 a.timeSend)] s₁ := by
    intro s₁ hreceived hsend
    refine h.store hopen hsend fun f hf => ?_
    cases f with
    | received => exact hreceived
    | send => exact absurd rfl hf
  unfold sendStepClock
  obtain ⟨hsize, he⟩ | ⟨hsize, -, he⟩ | ⟨hsize, -, he⟩ := sendStep_cases a s <;> rw [he]
  · rw [if_neg (by omega)]
    exact .nil h
  · rw [if_pos hsize]
    exact hstore _ rfl rfl
  · rw [if_pos hsize]
    exact hstore _ rfl rfl

/-- The receive step goes on with an open socket only. -/
theorem receiveStep_open (hopen : s.socketOpen = true) (hgo : (receiveStep a s).2.2 = true) :
    (receiveStep a s).1.socketOpen = true := by
  obtain ⟨-, -, he⟩ | ⟨-, -, -, he⟩ | ⟨-, -, he⟩ | ⟨-, -, he⟩ | ⟨-, -, he⟩ | ⟨-, -, he⟩ :=
    receiveStep_cases a s <;> rw [he] at hgo ⊢ <;> first | exact hopen | simp at hgo

theorem follows_serverLoop (h : Holds c i s) :
    Follows c i (serverLoopClock a s) (serverLoop a s).1 := by
  unfold serverLoopClock serverLoop
  cases a.sr with
  | established =>
    have hopen := openSocket_socketOpen a s
    have h₁ := follows_openSocket a h
    have h₂ := h₁.append (follows_receiveStep a h₁.holds hopen)
    simp only
    split
    · next hgo => exact h₂.append (follows_sendStep a h₂.holds (receiveStep_open a hopen hgo))
    · simpa using h₂
  | closeWait => exact (Follows.nil h).of_closed rfl
  | closed =>
    simp only
    split
    · exact (Follows.nil h).of_closed rfl
    · exact .nil h
  | init => exact (Follows.nil h).congr rfl fun f => by cases f <;> rfl
  | other => exact .nil h

theorem follows_heartbeat (h : Holds c i s) (hopen : s.socketOpen = true) :
    Follows c i (heartbeatClock a s) s := by
  unfold heartbeatClock
  split
  · refine ⟨⟨fun k v hv => ?_, trivial⟩, fun _ f => ?_⟩
    · simp only [Output.subtracts, Option.ite_none_right_eq_some, Option.some.injEq] at hv
      obtain ⟨rfl, rfl⟩ := hv
      exact h hopen .send
    · simpa [clockLog, Output.stores] using h hopen f
  · exact .nil h

theorem buildFrame_socketOpen (m : Message) (s : SocketData) :
    (buildFrame m s).socketOpen = s.socketOpen := by
  unfold buildFrame
  split
  · split <;> rfl
  · rfl

theorem buildFrame_timestamp (m : Message) (s : SocketData) (f : Timestamp) :
    (buildFrame m s).timestamp f = s.timestamp f := by
  unfold buildFrame
  split
  · split <;> cases f <;> rfl
  · rfl

theorem follows_serverBody (m : Message) (h : Holds c i s) :
    Follows c i (serverBodyClock m a s) (serverBody m a s).1 := by
  have hfill : Follows c i (if s.socketOpen then heartbeatClock a (buildFrame m s) else [])
      (fillSendBuffer m a s) := by
    split
    · next hopen =>
      have hb : Holds c i (buildFrame m s) := fun _ f => by
        rw [buildFrame_timestamp]
        exact h hopen f
      refine (follows_heartbeat a hb (by rw [buildFrame_socketOpen, hopen])).congr ?_ ?_
      · simp [buildFrame_socketOpen]
      · intro f
        rw [buildFrame_timestamp]
        cases f <;> simp [SocketData.timestamp]
    · next hclosed => exact (Follows.nil h).of_closed (by simpa using hclosed)
  have hloop : Follows c i (serverBodyClock m a s) (serverLoop a (fillSendBuffer m a s)).1 :=
    hfill.append (follows_serverLoop a hfill.holds)
  rw [serverBody_fst]
  split
  · exact hloop.congr (by simp) fun f => by cases f <;> simp [SocketData.timestamp]
  · exact hloop

end

/-! ## The task -/

/-- Sockets that have been initialised since the last wait. -/
def TaskPoint.Started : TaskPoint → Fin listeningSocketCount → Prop
  | .waiting, _ => False
  | .starting i, j => j < i
  | _, _ => True

theorem started_nextSocket_starting {i j : Fin listeningSocketCount}
    (h : (nextSocket i .starting).Started j) : j = i ∨ j < i := by
  unfold nextSocket at h
  split at h
  · have hlt : j.val < i.val + 1 := h
    rcases Nat.lt_or_eq_of_le (Nat.le_of_lt_succ hlt) with hj | hj
    · exact Or.inr hj
    · exact Or.inl (Fin.ext hj)
  · next hlast =>
    have hj := j.isLt
    rcases Nat.lt_or_eq_of_le (show j.val ≤ i.val by omega) with hlt | heq
    · exact Or.inr hlt
    · exact Or.inl (Fin.ext heq)

/-- **The invariant**: the log so far only reads what is there, and says
what the timestamps of the open sockets are. -/
structure Logged (t : TaskState) (log : List Output) : Prop where
  reads : Reads Output.stores Output.subtracts (fun _ => none) log
  holds : ∀ i, t.point.Started i →
    Holds (held Output.stores (fun _ => none) log) i (t.sockets i)

/-- Outputs that do not use the clock. -/
theorem Logged.append_quiet {t : TaskState} {log outs : List Output} (h : Logged t log)
    (hquiet : ∀ o ∈ outs, ∀ i u, o ≠ .clock i u) : Logged t (log ++ outs) := by
  have hnone : ∀ o ∈ outs, ∀ k, o.stores k = none ∧ o.subtracts k = none := by
    intro o ho k
    cases o with
    | call _ => exact ⟨rfl, rfl⟩
    | queued _ => exact ⟨rfl, rfl⟩
    | clock i u => exact absurd rfl (hquiet _ ho i u)
  refine ⟨(reads_append _ _).mpr ⟨h.reads, reads_of_not_read fun o ho k => (hnone o ho k).2⟩, ?_⟩
  intro i hi hopen f
  rw [held_append, held_of_not_written fun o ho => (hnone o ho _).1]
  exact h.holds i hi hopen f

/-- A step for socket `i` that uses the clock as in `us`. -/
theorem Logged.append_clock {t : TaskState} {log : List Output} {i : Fin listeningSocketCount}
    {s : SocketData} {us : List ClockUse} {point : TaskPoint} (h : Logged t log)
    (hus : Follows (held Output.stores (fun _ => none) log) i us s)
    (hstarted : ∀ j, point.Started j → j = i ∨ t.point.Started j) :
    Logged ⟨point, Function.update t.sockets i s⟩ (log ++ clockLog i us) := by
  refine ⟨(reads_append _ _).mpr ⟨h.reads, hus.reads⟩, fun j hj hopen f => ?_⟩
  rw [held_append]
  by_cases hji : j = i
  · subst hji
    simp only [Function.update_self] at hopen ⊢
    exact hus.holds hopen f
  · simp only [ne_eq, hji, not_false_eq_true, Function.update_of_ne] at hopen ⊢
    have hother : ∀ o ∈ clockLog i us, o.stores (j, f) = none := by
      intro o ho
      obtain ⟨u, -, rfl⟩ := List.mem_map.mp ho
      cases u <;> simp [Output.stores, hji]
    rw [held_of_not_written hother]
    exact h.holds j ((hstarted j hj).resolve_left hji) hopen f

/-- **Step lemma.** -/
theorem Logged.step {t : TaskState} {log : List Output} (h : Logged t log) (e : Env) :
    Logged (serverStep t e).1 (log ++ (serverStep t e).2) := by
  obtain ⟨point, sockets⟩ := t
  cases point with
  | waiting =>
    simp only [serverStep, List.append_nil]
    refine ⟨h.reads, fun i hi => ?_⟩
    simp only at hi
    split at hi
    · exact absurd hi (Nat.not_lt_zero _)
    · exact hi.elim
  | starting i =>
    have hclosed : Holds (held Output.stores (fun _ => none) log) i (resetSocket i (sockets i)) :=
      fun hopen => by simp [resetSocket] at hopen
    simp only [serverStep, ← List.append_assoc]
    refine Logged.append_quiet ?_ (by simp)
    exact h.append_clock (follows_serverLoop e.answers hclosed)
      fun j hj => started_nextSocket_starting hj
  | head =>
    simp only [serverStep, List.append_nil]
    refine ⟨h.reads, fun i hi => ?_⟩
    exact h.holds i trivial
  | taking =>
    unfold serverStep
    simp only
    split <;> simp only [List.append_nil] <;> exact ⟨h.reads, fun i _ => h.holds i trivial⟩
  | body m i =>
    simp only [serverStep, ← List.append_assoc]
    refine Logged.append_quiet (Logged.append_quiet ?_ (by simp)) (by simp)
    exact h.append_clock (follows_serverBody e.answers m (h.holds i trivial))
      fun j _ => Or.inr trivial

/-- **Run lemma.** -/
theorem logged_run (s₀ : Fin listeningSocketCount → SocketData) (es : List Env) :
    Logged ((task s₀).run es) ((task s₀).trace es) := by
  induction es using List.reverseRecOn with
  | nil => exact ⟨trivial, fun i hi => absurd hi (by simp [task, TaskPoint.Started])⟩
  | append_singleton es e ih =>
    rw [Mealy.run_concat, Mealy.trace_concat]
    exact ih.step e

/-- **No timestamp is subtracted before it was stored.** -/
theorem stored_before_subtracted {s₀ : Fin listeningSocketCount → SocketData} {es : List Env}
    {p q : List Output} {i : Fin listeningSocketCount} {f : Timestamp} {now last : Nat}
    (h : (task s₀).trace es = p ++ .clock i (.subtract f now last) :: q) :
    .clock i (.store f last) ∈ p := by
  have hreads := (logged_run s₀ es).reads
  rw [h] at hreads
  obtain ⟨o, ho, hstores⟩ := hreads.written (k := (i, f)) (v := last) (by simp [Output.subtracts])
  cases o with
  | call _ => simp [Output.stores] at hstores
  | queued _ => simp [Output.stores] at hstores
  | clock j u =>
    cases u with
    | subtract _ _ _ => simp [Output.stores] at hstores
    | store g t =>
      simp only [Output.stores, Option.ite_none_right_eq_some, Option.some.injEq,
        Prod.mk.injEq] at hstores
      obtain ⟨⟨rfl, rfl⟩, rfl⟩ := hstores
      exact ho

/-! ## The readings -/

theorem timeUs64_lt (t : Nat) : timeUs64 t < 2 ^ 64 := Nat.mod_lt _ (by decide)

theorem reading_serverLoopClock {a : Answers} {s : SocketData} {u : ClockUse}
    (h : u ∈ serverLoopClock a s) : u.reading < 2 ^ 64 := by
  have hopen : ∀ u ∈ openSocketClock a s, u.reading < 2 ^ 64 := by
    unfold openSocketClock
    split
    · exact fun u hu => absurd hu List.not_mem_nil
    · exact List.forall_mem_cons.mpr ⟨timeUs64_lt _, List.forall_mem_singleton.mpr (timeUs64_lt _)⟩
  have hreceive : ∀ s', ∀ u ∈ receiveStepClock a s', u.reading < 2 ^ 64 := by
    intro s'
    unfold receiveStepClock
    split
    · split
      · exact fun u hu => absurd hu List.not_mem_nil
      · exact List.forall_mem_singleton.mpr (timeUs64_lt _)
    · exact List.forall_mem_singleton.mpr (timeUs64_lt _)
  have hsend : ∀ s', ∀ u ∈ sendStepClock a s', u.reading < 2 ^ 64 := by
    intro s'
    unfold sendStepClock
    split
    · exact List.forall_mem_singleton.mpr (timeUs64_lt _)
    · exact fun u hu => absurd hu List.not_mem_nil
  unfold serverLoopClock at h
  split at h
  · simp only [List.mem_append] at h
    rcases h with (h | h) | h
    · exact hopen u h
    · exact hreceive _ u h
    · split at h
      · exact hsend _ u h
      · simp at h
  · simp at h

theorem reading_serverBodyClock {m : Message} {a : Answers} {s : SocketData} {u : ClockUse}
    (h : u ∈ serverBodyClock m a s) : u.reading < 2 ^ 64 := by
  unfold serverBodyClock heartbeatClock at h
  rcases List.mem_append.mp h with h | h
  · split at h
    · split at h
      · rw [List.mem_singleton.mp h]
        exact timeUs64_lt _
      · simp at h
    · simp at h
  · exact reading_serverLoopClock h

/-- Every reading is a 64-bit number. -/
theorem reading_lt {s₀ : Fin listeningSocketCount → SocketData} {es : List Env}
    {i : Fin listeningSocketCount} {u : ClockUse} (h : .clock i u ∈ (task s₀).trace es) :
    u.reading < 2 ^ 64 := by
  induction es using List.reverseRecOn with
  | nil => simp at h
  | append_singleton es e ih =>
    rw [Mealy.trace_concat] at h
    rcases List.mem_append.mp h with h | h
    · exact ih h
    · change .clock i u ∈ (serverStep _ e).2 at h
      unfold serverStep at h
      split at h
      · simp at h
      · obtain ⟨hu, -⟩ : _ ∧ _ := by simpa using h
        exact reading_serverLoopClock hu
      · simp at h
      · split at h <;> simp at h
      · obtain ⟨hu, -⟩ : _ ∧ _ := by simpa using h
        exact reading_serverBodyClock hu

end VentControl.Server
