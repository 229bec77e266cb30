/-
VentControl.Ventcontrol.RelayTheorems — what the three outputs do over a
whole run of the fan task.

Two results.

1. `relay_interlock`. The relays of speeds 2 and 3 are never on together,
   at any instant, and whenever one is switched on the other has been off
   for `RELAIS_SWITCH_DELAY_MS` without a break. The argument is local to
   one branch of one turn (`turn_guarded`): a switch-on always comes
   directly after the other relay's switch-off and the delay. `Guarded`
   carries that over any number of turns, and `heldFor_of_guarded` reads
   it as time. Nothing is assumed about the messages.

2. `reports_truthful_iff`. Every message put on `send_queue` describes the
   outputs at that moment, in every run in which speed 0 is never reached
   from speed 2 or 3, and in no other. Line 100 has a branch for each of
   the speeds 1, 2 and 3 and none for 0, so a fan that is told to stop
   from speed 2 or 3 keeps running and is reported as stopped.
   `StopsUnswitched` is that step, read off the state before it.
-/
import VentControl.Ventcontrol.Task
import VentControl.Lib.Timed

namespace VentControl.Ventcontrol

open Runs Timed

/-! ## The interlock -/

/-- What comes directly before the switch-on of one speed relay: the
other one goes off, and the switch delay passes. -/
def switchGuard (other : Pin) : List Action :=
  [.gpioPut other false, .vTaskDelay (relaisSwitchDelayMs / portTickPeriodMs)]

theorem message_guarded (g : List Action) (s : Locals) (m : Option Message) (p : Pin)
    (hp : p ≠ .relVakantie) :
    Guarded g (.gpioPut p true) (ventcontrolMessage s m).2 := by
  apply Guarded.of_not_mem
  rcases m with _ | ⟨c, v, ty⟩
  · simp
  · cases ty <;> simp [ventcontrolMessage, hp]
    split <;> simp

theorem switch_guarded_2 (w : Int) (m : Message) :
    Guarded (switchGuard .relSpeed3) (.gpioPut .relSpeed2 true)
      (switchRelays w ++ [.xQueueSend m]) := by
  unfold switchRelays
  split
  · exact Guarded.of_not_mem (by simp)
  · split
    · exact Guarded.intro (a := []) (b := [Action.xQueueSend m]) (by simp)
        (by simp [switchGuard]) (by simp)
    · split
      · exact Guarded.of_not_mem (by simp)
      · exact Guarded.of_not_mem (by simp)

theorem switch_guarded_3 (w : Int) (m : Message) :
    Guarded (switchGuard .relSpeed2) (.gpioPut .relSpeed3 true)
      (switchRelays w ++ [.xQueueSend m]) := by
  unfold switchRelays
  split
  · exact Guarded.of_not_mem (by simp)
  · split
    · exact Guarded.of_not_mem (by simp)
    · split
      · exact Guarded.intro (a := []) (b := [Action.xQueueSend m]) (by simp)
          (by simp [switchGuard]) (by simp)
      · exact Guarded.of_not_mem (by simp)

/-- One turn switches a speed relay on only behind its guard. -/
theorem turn_guarded {other p : Pin} (hp : p ≠ .relVakantie)
    (hsw : ∀ w m, Guarded (switchGuard other) (.gpioPut p true)
      (switchRelays w ++ [.xQueueSend m])) (s : Locals) (i : Turn) :
    Guarded (switchGuard other) (.gpioPut p true) (ventcontrolTurn s i).2 := by
  rw [ventcontrolTurn_snd]
  refine (message_guarded _ _ _ _ hp).append ?_
  unfold ventcontrolBoost
  simp only
  split
  · exact hsw _ _
  · exact Guarded.nil _ _

theorem traceFrom_guarded {g : List Action} {e : Action}
    (hturn : ∀ s i, Guarded g e (ventcontrolTurn s i).2) (s : Locals) (turns : List Turn) :
    Guarded g e (task.traceFrom s turns) := by
  induction turns generalizing s with
  | nil => exact Guarded.nil g e
  | cons i turns ih => exact (hturn s i).append (ih _)

theorem actions_guarded_2 (turns : List Turn) :
    Guarded (switchGuard .relSpeed3) (.gpioPut .relSpeed2 true) (actions turns) :=
  Guarded.append (Guarded.of_not_mem (by simp [prologue]))
    (traceFrom_guarded (turn_guarded (by simp) switch_guarded_2) _ _)

theorem actions_guarded_3 (turns : List Turn) :
    Guarded (switchGuard .relSpeed2) (.gpioPut .relSpeed3 true) (actions turns) :=
  Guarded.append (Guarded.of_not_mem (by simp [prologue]))
    (traceFrom_guarded (turn_guarded (by simp) switch_guarded_3) _ _)

/-- Both speed relays are on. -/
def Relays.Both (r : Relays) : Prop := r.speed2 = true ∧ r.speed3 = true

/-- A list of actions in which both speed relays are switched on only
behind their guards never has both on. -/
theorem not_both_of_guarded {acts : List Action}
    (h2 : Guarded (switchGuard .relSpeed3) (.gpioPut .relSpeed2 true) acts)
    (h3 : Guarded (switchGuard .relSpeed2) (.gpioPut .relSpeed3 true) acts) :
    ∀ pre, pre <+: acts → ¬ (Relays.init.after pre).Both := by
  intro pre
  induction pre using List.reverseRecOn with
  | nil => simp [Relays.Both, Relays.init]
  | append_singleton pre a ih =>
    intro hpre hboth
    have hprev := ih ((List.prefix_append pre [a]).trans hpre)
    obtain ⟨post, hpost⟩ := hpre
    have hacts : acts = pre ++ a :: post := by simp [← hpost]
    rw [Relays.after_append, Relays.after_cons, Relays.after_nil] at hboth
    -- only a switch-on can turn "not both" into "both", and its guard has
    -- just switched the other relay off
    rcases a with ⟨p, on⟩ | n | m
    · rcases p with _ | _ | _ <;> rcases on with _ | _
      · simp [Relays.Both, Relays.apply] at hboth
      · obtain ⟨c, rfl⟩ := (hacts ▸ h2).split
        simp [Relays.Both, Relays.apply, Relays.after_append, switchGuard] at hboth
      · simp [Relays.Both, Relays.apply] at hboth
      · obtain ⟨c, rfl⟩ := (hacts ▸ h3).split
        simp [Relays.Both, Relays.apply, Relays.after_append, switchGuard] at hboth
      · exact hprev hboth
      · exact hprev hboth
    · exact hprev hboth
    · exact hprev hboth

theorem after_eq_relays (r : Relays) (tr : List (Nat × Action)) :
    Timed.after Relays.apply r tr = r.after (tr.map Prod.snd) := by
  simp [Timed.after, Relays.after, List.foldl_map]

/-- A switch-on behind its guard comes after the other relay was off for
the switch delay. -/
theorem heldFor_of_switchGuard {P : Relays → Prop} {other : Pin} {e : Action}
    {now t : Nat} {pre post : List (Nat × Action)}
    (hst : StampsFrom Action.ticks now (pre ++ (t, e) :: post))
    (hg : Guarded (switchGuard other) e ((pre ++ (t, e) :: post).map Prod.snd))
    (hoff : ∀ r : Relays, P (r.apply (.gpioPut other false)))
    (hdelay : ∀ (r : Relays) (n : Nat), P r → P (r.apply (.vTaskDelay n))) :
    HeldFor Relays.apply Relays.init P (relaisSwitchDelayMs / portTickPeriodMs) pre t := by
  have h := heldFor_of_guarded Relays.apply Relays.init P hst hg hoff
    (fun r x hx hr => by
      rw [List.mem_singleton.mp hx]
      exact hdelay r _ hr)
  simpa [Action.ticks] using h

/-- **The relay interlock.** For every sequence of messages, boost events
and timeouts, and every way the actions can fall in time: at no instant
are both speed relays on, and a speed relay is switched on only when the
other has been off for the switch delay (in ticks) without a break. -/
theorem relay_interlock (turns : List Turn) (tr : List (Nat × Action))
    (htr : tr.map Prod.snd = actions turns) (hst : StampsFrom Action.ticks 0 tr) :
    (∀ pre, pre <+: tr → ¬ (Timed.after Relays.apply Relays.init pre).Both) ∧
    (∀ pre t post, tr = pre ++ (t, .gpioPut .relSpeed2 true) :: post →
      HeldFor Relays.apply Relays.init (fun r => r.speed3 = false)
        (relaisSwitchDelayMs / portTickPeriodMs) pre t) ∧
    (∀ pre t post, tr = pre ++ (t, .gpioPut .relSpeed3 true) :: post →
      HeldFor Relays.apply Relays.init (fun r => r.speed2 = false)
        (relaisSwitchDelayMs / portTickPeriodMs) pre t) := by
  have h2 := actions_guarded_2 turns
  have h3 := actions_guarded_3 turns
  rw [← htr] at h2 h3
  refine ⟨?_, ?_, ?_⟩
  · intro pre hpre
    rw [after_eq_relays]
    exact not_both_of_guarded h2 h3 _ (hpre.map Prod.snd)
  · rintro pre t post rfl
    exact heldFor_of_switchGuard (P := fun r => r.speed3 = false) hst h2
      (fun _ => rfl) (fun _ _ => id)
  · rintro pre t post rfl
    exact heldFor_of_switchGuard (P := fun r => r.speed2 = false) hst h3
      (fun _ => rfl) (fun _ _ => id)

/-- A stamped run: the user asks for speed 3, and the relay of speed 3 goes
on 500 ticks after the relay of speed 2 went off. -/
def switchRun : List (Nat × Action) :=
  [(0, .gpioPut .relSpeed2 false), (0, .gpioPut .relSpeed3 false),
   (0, .gpioPut .relVakantie false), (10, .gpioPut .relSpeed2 false),
   (10, .vTaskDelay 500), (510, .gpioPut .relSpeed3 true),
   (510, .xQueueSend ⟨-1, 3, .currentSpeeed⟩)]

theorem relay_interlock_switchRun :
    HeldFor Relays.apply Relays.init (fun r => r.speed2 = false) 500 (switchRun.take 5) 510 :=
  (relay_interlock [⟨some ⟨2, 3, .setSpeed⟩, none⟩] switchRun (by decide)
    (by simp [switchRun, StampsFrom, Action.ticks])).2.2 (switchRun.take 5) 510
      [(510, .xQueueSend ⟨-1, 3, .currentSpeeed⟩)] (by decide)

/-! ## What the messages say about the outputs -/

/-- A message describes the outputs: a speed of 3 or 2 is that relay alone,
a speed of 1 or 0 neither, and vakantie is 1 exactly when its relay is on. -/
def Describes (r : Relays) (m : Message) : Prop :=
  match m.messageType with
  | .currentSpeeed =>
    (m.value = 3 → r.speed3 = true ∧ r.speed2 = false) ∧
    (m.value = 2 → r.speed2 = true ∧ r.speed3 = false) ∧
    (m.value = 1 ∨ m.value = 0 → r.speed2 = false ∧ r.speed3 = false)
  | .currentVakantie => m.value = 1 ↔ r.vakantie = true
  | _ => True

/-- Every message in a list of actions describes the outputs at the moment
it is put on the queue. -/
def SendsDescribe (r : Relays) (acts : List Action) : Prop :=
  EachStep (fun pre a => ∀ m, a = .xQueueSend m → Describes (r.after pre) m) acts

/-- The speed relays are the function of `actualSpeed` that they should
be. -/
def SpeedShown (r : Relays) (s : Locals) : Prop :=
  r.speed2 = decide (s.actualSpeed = 2) ∧ r.speed3 = decide (s.actualSpeed = 3)

/-- The reported state is the real state, throughout a run: every message
describes the outputs when it is sent, and at every loop head the speed
relays are the function of `actualSpeed`. -/
def Truthful (turns : List Turn) : Prop :=
  SendsDescribe Relays.init (actions turns) ∧
  ∀ h, h <+: turns → SpeedShown (Relays.init.after (actions h)) (task.run h)

/-- The step that goes wrong: the fan runs at speed 2 or 3, a client asks
for speed 0 for the first time, and no boost event comes in the same
turn. -/
def StopsUnswitched (s : Locals) (i : Turn) : Prop :=
  (∃ m, i.message = some m ∧ m.messageType = .setSpeed ∧ m.value = 0) ∧
  s.requestedSpeed ≠ 0 ∧ i.boost = none ∧ (s.actualSpeed = 2 ∨ s.actualSpeed = 3)

/-- The messages of the run are ones the parser can produce. -/
def FromClients (turns : List Turn) : Prop :=
  ∀ i ∈ turns, ∀ m, i.message = some m → m.IsCommand

theorem SendsDescribe.nil (r : Relays) : SendsDescribe r [] := EachStep.nil _

theorem SendsDescribe.cons_iff {r : Relays} {a : Action} {acts : List Action} :
    SendsDescribe r (a :: acts) ↔
      (∀ m, a = .xQueueSend m → Describes r m) ∧ SendsDescribe (r.apply a) acts :=
  EachStep.cons_iff

theorem SendsDescribe.append_iff {r : Relays} {as bs : List Action} :
    SendsDescribe r (as ++ bs) ↔ SendsDescribe r as ∧ SendsDescribe (r.after as) bs := by
  unfold SendsDescribe
  rw [EachStep.append_iff]
  simp only [Relays.after_append]

/-! ### The loop invariant -/

/-- What holds at every loop head as long as no step stops the fan
unswitched: speeds are in range, the outputs are what the locals say, and
after the first turn the fan runs at the wanted speed. -/
structure HeadInv (s : Locals) (r : Relays) : Prop where
  shown : SpeedShown r s
  vakantie : r.vakantie = s.currentVakantie
  actual : s.actualSpeed = 0 ∨ s.actualSpeed = wantedSpeed s
  requested : 0 ≤ s.requestedSpeed ∧ s.requestedSpeed ≤ 3
  boost : 0 ≤ s.boostSpeed ∧ s.boostSpeed ≤ 3

theorem headInv_start : HeadInv .start (Relays.init.after prologue) := by
  refine ⟨⟨rfl, rfl⟩, rfl, Or.inl rfl, ?_, ?_⟩ <;> decide

/-- What a client message leaves of the invariant for the second half of
the turn; the actions it causes describe the outputs. -/
theorem HeadInv.message {s : Locals} {r : Relays} (h : HeadInv s r) {m : Option Message}
    (hm : ∀ m', m = some m' → m'.IsCommand) :
    let s' := (ventcontrolMessage s m).1
    let acts := (ventcontrolMessage s m).2
    SendsDescribe r acts ∧ SpeedShown (r.after acts) s' ∧
      (r.after acts).vakantie = s'.currentVakantie ∧
      (0 ≤ s'.requestedSpeed ∧ s'.requestedSpeed ≤ 3) ∧
      (0 ≤ s'.boostSpeed ∧ s'.boostSpeed ≤ 3) := by
  obtain ⟨hshown, hvak, hact, hreq, hboost⟩ := h
  rcases m with _ | ⟨c, v, ty⟩
  · exact ⟨SendsDescribe.nil r, hshown, hvak, hreq, hboost⟩
  have hcmd := hm _ rfl
  cases ty with
  | setSpeed =>
    have hv : 0 ≤ v ∧ v ≤ 3 := by simpa [Message.IsCommand] using hcmd
    simp only [ventcontrolMessage]
    split
    · exact ⟨SendsDescribe.nil r, hshown, hvak, hv, hv⟩
    · exact ⟨SendsDescribe.nil r, hshown, hvak, hreq, hboost⟩
  | setVakantie =>
    refine ⟨?_, hshown, rfl, hreq, hboost⟩
    simp only [ventcontrolMessage, SendsDescribe.cons_iff]
    refine ⟨by simp, ?_, SendsDescribe.nil _⟩
    rintro m' ⟨rfl⟩
    by_cases hv : 0 < v <;> simp [Describes, boolInt, Relays.apply, hv]
  | getStatus =>
    refine ⟨?_, hshown, hvak, hreq, hboost⟩
    simp only [ventcontrolMessage, SendsDescribe.cons_iff]
    refine ⟨?_, ?_, SendsDescribe.nil _⟩
    · rintro m' ⟨rfl⟩
      obtain ⟨h2, h3⟩ := hshown
      simp only [Describes, h2, h3]
      grind
    · rintro m' ⟨rfl⟩
      cases hc : s.currentVakantie <;> simp [Describes, boolInt, Relays.apply, hvak, hc]
  | _ => simp [Message.IsCommand] at hcmd

/-- The relays after a switch show the wanted speed, unless that is 0 and
a relay was on: line 100 has no branch for 0. -/
theorem switchRelays_shown {s : Locals} {r : Relays} {w : Int} (hshown : SpeedShown r s)
    (hw : 0 ≤ w ∧ w ≤ 3) (hstop : ¬ (w = 0 ∧ (s.actualSpeed = 2 ∨ s.actualSpeed = 3))) :
    SpeedShown (r.after (switchRelays w)) { s with actualSpeed := w } ∧
      (r.after (switchRelays w)).vakantie = r.vakantie := by
  obtain ⟨h2, h3⟩ := hshown
  have hcases : w = 0 ∨ w = 1 ∨ w = 2 ∨ w = 3 := by omega
  rcases hcases with rfl | rfl | rfl | rfl
  · have hne : s.actualSpeed ≠ 2 ∧ s.actualSpeed ≠ 3 := by omega
    simp [switchRelays, SpeedShown, h2, h3, hne]
  all_goals simp [switchRelays, SpeedShown, Relays.apply]

/-- A switch puts no message on the queue, and its broadcast describes the
relays that show the wanted speed. -/
theorem switch_describes {s : Locals} {r : Relays} {w : Int}
    (hshown : SpeedShown (r.after (switchRelays w)) { s with actualSpeed := w }) :
    SendsDescribe r (switchRelays w ++ [.xQueueSend (speedBroadcast w)]) := by
  rw [SendsDescribe.append_iff]
  constructor
  · intro pre a t he m hm
    subst hm
    -- `switchRelays` only writes outputs and waits
    have hmem : Action.xQueueSend m ∈ switchRelays w := by rw [he]; simp
    unfold switchRelays at hmem
    split at hmem
    · simp at hmem
    · split at hmem
      · simp at hmem
      · split at hmem <;> simp at hmem
  · refine SendsDescribe.cons_iff.mpr ⟨?_, SendsDescribe.nil _⟩
    rintro m ⟨rfl⟩
    obtain ⟨h2, h3⟩ := hshown
    simp only at h2 h3
    simp only [Describes, speedBroadcast, h2, h3]
    grind

/-- `StopsUnswitched` is exactly the turn that wants speed 0 while a speed
relay is on. -/
theorem HeadInv.stops_iff {s : Locals} {r : Relays} (h : HeadInv s r) {i : Turn}
    (hm : ∀ m, i.message = some m → m.IsCommand) :
    (wantedSpeed (takeBoost (ventcontrolMessage s i.message).1 i.boost) = 0 ∧
      (s.actualSpeed = 2 ∨ s.actualSpeed = 3)) ↔ StopsUnswitched s i := by
  have hwant := h.actual
  have hreq := h.requested
  have hboost := h.boost
  obtain ⟨m, b⟩ := i
  rw [wantedSpeed_eq_max] at *
  simp only [StopsUnswitched]
  cases b with
  | some b =>
    -- a boost event makes `boostSpeed` 1 or 2
    have := takeBoost_some_range (ventcontrolMessage s m).1 b
    constructor
    · rintro ⟨h0, -⟩; omega
    · rintro ⟨-, -, hb, -⟩; cases hb
  | none =>
    simp only [takeBoost, true_and]
    rcases m with _ | ⟨c, v, ty⟩
    · constructor
      · rintro ⟨h0, h23⟩; simp only [ventcontrolMessage_none] at h0; omega
      · rintro ⟨⟨m, hm', -⟩, -⟩; cases hm'
    · have hcmd := hm _ rfl
      cases ty with
      | setSpeed =>
        have hv : 0 ≤ v ∧ v ≤ 3 := by simpa [Message.IsCommand] using hcmd
        simp only [ventcontrolMessage, Option.some.injEq, exists_eq_left', true_and]
        split <;> simp only <;> omega
      | setVakantie | getStatus =>
        simp only [ventcontrolMessage, Option.some.injEq, exists_eq_left']
        constructor
        · rintro ⟨h0, h23⟩; omega
        · rintro ⟨⟨hty, -⟩, -⟩; cases hty
      | _ => simp [Message.IsCommand] at hcmd

/-- One turn that does not stop the fan unswitched keeps the invariant, and
its messages describe the outputs. -/
theorem HeadInv.turn {s : Locals} {r : Relays} (h : HeadInv s r) {i : Turn}
    (hm : ∀ m, i.message = some m → m.IsCommand) (hok : ¬ StopsUnswitched s i) :
    SendsDescribe r (ventcontrolTurn s i).2 ∧
      HeadInv (ventcontrolTurn s i).1 (r.after (ventcontrolTurn s i).2) := by
  rw [← h.stops_iff hm] at hok
  obtain ⟨hsend, hshown, hvak, hreq, hboost⟩ := h.message hm
  rw [ventcontrolTurn_fst, ventcontrolTurn_snd, SendsDescribe.append_iff, Relays.after_append]
  set s₁ := (ventcontrolMessage s i.message).1 with hs₁
  set r₁ := r.after (ventcontrolMessage s i.message).2
  have hact : s₁.actualSpeed = s.actualSpeed := by simp [hs₁]
  have hboost' : 0 ≤ (takeBoost s₁ i.boost).boostSpeed ∧ (takeBoost s₁ i.boost).boostSpeed ≤ 3 := by
    rcases i.boost with _ | b
    · exact hboost
    · have := takeBoost_some_range s₁ b
      omega
  have hw : 0 ≤ wantedSpeed (takeBoost s₁ i.boost) ∧ wantedSpeed (takeBoost s₁ i.boost) ≤ 3 := by
    rw [wantedSpeed_eq_max, takeBoost_requestedSpeed]
    omega
  have hsame :
      wantedSpeed (ventcontrolBoost s₁ i.boost).1 = wantedSpeed (takeBoost s₁ i.boost) := by
    simp [wantedSpeed_eq_max]
  by_cases hne : wantedSpeed (takeBoost s₁ i.boost) ≠ (takeBoost s₁ i.boost).actualSpeed
  · have hsw := switchRelays_shown hshown hw (by rw [hact]; exact hok)
    have hboostEq : ventcontrolBoost s₁ i.boost =
        ({ takeBoost s₁ i.boost with actualSpeed := wantedSpeed (takeBoost s₁ i.boost) },
          switchRelays (wantedSpeed (takeBoost s₁ i.boost)) ++
            [.xQueueSend (speedBroadcast (wantedSpeed (takeBoost s₁ i.boost)))]) := by
      simp only [ventcontrolBoost, if_pos hne]
    have hrel : r₁.after (ventcontrolBoost s₁ i.boost).2 =
        r₁.after (switchRelays (wantedSpeed (takeBoost s₁ i.boost))) := by
      rw [hboostEq, Relays.after_append]
      rfl
    refine ⟨⟨hsend, ?_⟩, ⟨?_, ?_, ?_, ?_, ?_⟩⟩
    · rw [hboostEq]
      exact switch_describes hsw.1
    · rw [hrel, hboostEq]
      exact hsw.1
    · rw [hrel, hsw.2, hvak]
      simp
    · rw [hsame, ventcontrolBoost_actualSpeed]
      exact Or.inr rfl
    · simpa using hreq
    · simpa using hboost'
  · have hboostEq : ventcontrolBoost s₁ i.boost = (takeBoost s₁ i.boost, []) := by
      simp only [ventcontrolBoost, if_neg hne]
    rw [hboostEq]
    refine ⟨⟨hsend, SendsDescribe.nil _⟩, ⟨?_, ?_, ?_, ?_, hboost'⟩⟩
    · simpa [SpeedShown] using hshown
    · simpa using hvak
    · exact Or.inr (not_not.mp hne).symm
    · simpa using hreq

/-- A turn after which the outputs are what the locals say does not stop the
fan unswitched: the relay of the old speed would still be on. -/
theorem HeadInv.not_stops {s : Locals} {r : Relays} (h : HeadInv s r) {i : Turn}
    (hm : ∀ m, i.message = some m → m.IsCommand)
    (hafter : SpeedShown (r.after (ventcontrolTurn s i).2) (ventcontrolTurn s i).1) :
    ¬ StopsUnswitched s i := by
  intro hstop
  have hbad := (h.stops_iff hm).mpr hstop
  -- the turn wants 0, so no relay moves
  have hrel : r.after (ventcontrolTurn s i).2 = r.after (ventcontrolMessage s i.message).2 := by
    rw [ventcontrolTurn_snd, Relays.after_append]
    simp only [ventcontrolBoost, hbad.1]
    split <;> simp [switchRelays, Relays.apply]
  have hzero : (ventcontrolTurn s i).1.actualSpeed = 0 := by
    rw [ventcontrolTurn_fst]
    exact (ventcontrolBoost_actualSpeed _ _).trans hbad.1
  obtain ⟨h2, h3⟩ := hafter
  obtain ⟨h2', h3'⟩ := (h.message hm).2.1
  rw [hrel, h2', hzero, ventcontrolMessage_actualSpeed] at h2
  rw [hrel, h3', hzero, ventcontrolMessage_actualSpeed] at h3
  simp at h2 h3
  omega

/-- A run in which no step stops the fan unswitched keeps the invariant at
every loop head and sends only messages that describe the outputs. -/
theorem headInv_run {turns : List Turn} (hc : FromClients turns)
    (hok : task.Along (fun s i => ¬ StopsUnswitched s i) turns) :
    SendsDescribe Relays.init (actions turns) ∧
      HeadInv (task.run turns) (Relays.init.after (actions turns)) := by
  have hgood : EachStep (fun h i => ¬ StopsUnswitched (task.run h) i ∧
      ∀ m, i.message = some m → m.IsCommand) turns := fun h i t he =>
    ⟨hok h i t he, hc i (by simp [he])⟩
  refine EachStep.induct (I := fun h => SendsDescribe Relays.init (actions h) ∧
    HeadInv (task.run h) (Relays.init.after (actions h))) ?_ ?_ turns hgood
  · refine ⟨?_, headInv_start⟩
    simp only [actions, Mealy.trace_nil, prologue, List.append_nil, SendsDescribe.cons_iff]
    simp [SendsDescribe.nil]
  · rintro h i ⟨hsend, hinv⟩ ⟨hstop, hm⟩
    obtain ⟨hsend', hinv'⟩ := hinv.turn hm hstop
    rw [run_concat, actions_concat, SendsDescribe.append_iff, Relays.after_append]
    exact ⟨⟨hsend, hsend'⟩, hinv'⟩

/-- **The reported state is the real state** in exactly the runs that never
go to speed 0 from speed 2 or 3. -/
theorem reports_truthful_iff (turns : List Turn) (hc : FromClients turns) :
    Truthful turns ↔ task.Along (fun s i => ¬ StopsUnswitched s i) turns := by
  constructor
  · rintro ⟨-, hhead⟩
    -- induction on the run: up to the first bad step the invariant holds
    have key : ∀ h, h <+: turns → task.Along (fun s i => ¬ StopsUnswitched s i) h := by
      intro h
      induction h using List.reverseRecOn with
      | nil => exact fun _ => EachStep.nil _
      | append_singleton h i ih =>
        intro hpre
        have hpre' : h <+: turns := (List.prefix_append h [i]).trans hpre
        refine EachStep.concat_iff.mpr ⟨ih hpre', fun hstop => ?_⟩
        have hch : FromClients h := fun j hj => hc j (hpre'.subset hj)
        have hinv := (headInv_run hch (ih hpre')).2
        have hafter := hhead (h ++ [i]) hpre
        rw [run_concat, actions_concat, Relays.after_append] at hafter
        exact hinv.not_stops (hc i (hpre.subset (by simp))) hafter hstop
    exact key turns List.prefix_rfl
  · intro hok
    refine ⟨(headInv_run hc hok).1, ?_⟩
    rintro h ⟨t, rfl⟩
    have hch : FromClients h := fun j hj => hc j (by simp [hj])
    exact (headInv_run hch (EachStep.of_append hok)).2.shown

/-- It holds of a run that asks for speed 3 and then for speed 1. -/
theorem reports_truthful_three_one :
    Truthful [⟨some ⟨2, 3, .setSpeed⟩, none⟩, ⟨some ⟨2, 1, .setSpeed⟩, none⟩] :=
  (reports_truthful_iff _ (by simp [FromClients, Message.IsCommand])).mpr (by
    refine EachStep.cons_iff.mpr ⟨?_, EachStep.cons_iff.mpr ⟨?_, EachStep.nil _⟩⟩ <;>
      simp [StopsUnswitched])

/-- Speed 3, then speed 0: no relay moves on the second command, and the
message that says 0 is sent while the relay of speed 3 is on. -/
def threeZero : List Turn :=
  [⟨some ⟨2, 3, .setSpeed⟩, none⟩, ⟨some ⟨2, 0, .setSpeed⟩, none⟩]

theorem reports_not_truthful_threeZero :
    FromClients threeZero ∧ ¬ SendsDescribe Relays.init (actions threeZero) ∧
      ¬ Truthful threeZero := by
  have hsend : ¬ SendsDescribe Relays.init (actions threeZero) := by
    intro h
    have h0 := h ((actions threeZero).take 7) (.xQueueSend (speedBroadcast 0)) [] (by decide)
      _ rfl
    revert h0
    simp only [Describes, speedBroadcast]
    decide
  exact ⟨by simp [threeZero, FromClients, Message.IsCommand], hsend, fun h => hsend h.1⟩

end VentControl.Ventcontrol
