/-
VentControl.System.WakeupTheorems — the hand-over from `dhcp_task` to the
server: the flag `server_run` and the tokens of `ip_assigned_sem`.

No wake-up is lost (`no_lost_wakeup`): the server goes to its wait only
after it has read `server_run` as false, and `dhcp_task` gives a token
whenever it has set it.

But tokens can be left over. `DHCP_FAILED` clears the flag of
`dhcp_task` and leaves the server running, so the next lease gives a token
to a server that does not wait (`stale_token`); and a link that is lost
before the server has taken its token leaves that token behind. Without
either (`Timely`) a token is there only between the lease and the start of
the server (`no_stale_token`).
-/
import VentControl.System.Firmware

namespace VentControl.System.Firmware

open Runs VentControl.Server
open VentControl.System.Clients (PortId ServerAt freshSockets quiet)

/-! ## The hand-over -/

/-- The server is at its wait, or has decided to go there. -/
def ServerWaits : ServerAt → Prop
  | .waiting => True
  | _ => False

/-- The server is in its serving loop. -/
def ServerServes : ServerAt → Prop
  | .waiting => False
  | .starting _ => False
  | _ => True

instance (at' : ServerAt) : Decidable (ServerWaits at') := by
  unfold ServerWaits
  split <;> infer_instance

instance (at' : ServerAt) : Decidable (ServerServes at') := by
  unfold ServerServes
  split <;> infer_instance

/-- The server sleeps: it waits and there is no token. -/
def State.Asleep (s : State) : Prop :=
  ServerWaits s.clients.server ∧ s.clients.ipAssignedSem = 0

/-- There is a lease, and the server has been told so: `dhcp_task` is
neither on its way from the lease to the end of the hand-over nor in its
wait for the link. -/
def State.LeaseAnnounced (s : State) : Prop :=
  s.dhcp.dhcpGetIpFlag = true ∧ s.dhcp.point ≠ .announce ∧ s.dhcp.point ≠ .give ∧
    s.dhcp.point ≠ .waitLink

/-! ## What the steps do to it -/

/-- **All a step of the server can do**: it sleeps on, or takes a token and
starts, or reads `server_run` as false and goes to its wait, or is busy
elsewhere. -/
theorem serverStep_handover (s : Clients.State) (a : Answers) (stack : Message) :
    (s.serverStep a stack).1.serverRun = s.serverRun ∧
    ((s.server = .waiting ∧ s.ipAssignedSem = 0 ∧ (s.serverStep a stack).1 = s) ∨
     (s.server = .waiting ∧ 0 < s.ipAssignedSem ∧
        (s.serverStep a stack).1.server = .starting 0 ∧
        (s.serverStep a stack).1.ipAssignedSem = s.ipAssignedSem - 1) ∨
     (s.server = .head ∧ s.serverRun = false ∧ (s.serverStep a stack).1.server = .waiting ∧
        (s.serverStep a stack).1.ipAssignedSem = s.ipAssignedSem) ∨
     (¬ ServerWaits s.server ∧ ¬ ServerWaits (s.serverStep a stack).1.server ∧
        (s.serverStep a stack).1.ipAssignedSem = s.ipAssignedSem)) := by
  have hnext : ∀ i next, (∀ j, ¬ ServerWaits (next j)) →
      ¬ ServerWaits (Clients.nextPort i next) := by
    intro i next hbusy
    unfold Clients.nextPort
    split
    · exact hbusy _
    · exact id
  cases hat : s.server with
  | waiting =>
    by_cases hsem : s.ipAssignedSem > 0
    · refine ⟨by simp [Clients.State.serverStep, hat, hsem], Or.inr (Or.inl ?_)⟩
      simp [Clients.State.serverStep, hat, hsem]
    · refine ⟨by simp [Clients.State.serverStep, hat, hsem], Or.inl ?_⟩
      simp [Clients.State.serverStep, hat, hsem]
      omega
  | starting i =>
    rw [Clients.serverStep_starting a stack hat]
    exact ⟨rfl, Or.inr (Or.inr (Or.inr ⟨id, hnext i _ fun _ => id, rfl⟩))⟩
  | head =>
    by_cases hrun : s.serverRun = true
    · refine ⟨by simp [Clients.State.serverStep, hat], Or.inr (Or.inr (Or.inr ?_))⟩
      simp [Clients.State.serverStep, hat, hrun, ServerWaits]
    · refine ⟨by simp [Clients.State.serverStep, hat], Or.inr (Or.inr (Or.inl ?_))⟩
      simpa [Clients.State.serverStep, hat] using hrun
  | taking =>
    cases hq : s.sendQueue with
    | nil =>
      rw [Clients.serverStep_taking_nil a stack hat hq]
      exact ⟨rfl, Or.inr (Or.inr (Or.inr ⟨id, id, rfl⟩))⟩
    | cons r q =>
      rw [Clients.serverStep_taking_cons a stack hat hq]
      exact ⟨rfl, Or.inr (Or.inr (Or.inr ⟨id, id, rfl⟩))⟩
  | body r i =>
    rw [Clients.serverStep_body a stack hat]
    exact ⟨rfl, Or.inr (Or.inr (Or.inr ⟨id, hnext i _ fun _ => id, rfl⟩))⟩

/-- The other tasks have no part in the hand-over. -/
theorem ventStep_handover (s : State) :
    s.ventStep.dhcp = s.dhcp ∧ s.ventStep.clients.serverRun = s.clients.serverRun ∧
      s.ventStep.clients.ipAssignedSem = s.clients.ipAssignedSem ∧
      s.ventStep.clients.server = s.clients.server := by
  have hclients : ∀ b, (s.clients.ventStep b).serverRun = s.clients.serverRun ∧
      (s.clients.ventStep b).ipAssignedSem = s.clients.ipAssignedSem ∧
      (s.clients.ventStep b).server = s.clients.server := by
    intro b
    obtain ⟨m, rest, -, h⟩ | ⟨act, rest, -, -, h⟩ | ⟨-, -, h⟩ | ⟨m, -, -, h⟩ :=
      Clients.ventStep_cases s.clients b <;> rw [h] <;> exact ⟨rfl, rfl, rfl⟩
  unfold State.ventStep
  split
  · exact ⟨rfl, hclients _⟩
  · exact ⟨rfl, hclients _⟩

theorem sample_handover (s : State) (samples : Input.Samples) :
    (s.sample samples).dhcp = s.dhcp ∧ (s.sample samples).clients = s.clients := by
  unfold State.sample
  split <;> exact ⟨rfl, rfl⟩

theorem inputSend_handover (s : State) :
    s.inputSend.dhcp = s.dhcp ∧ s.inputSend.clients = s.clients := by
  unfold State.inputSend
  split <;> exact ⟨rfl, rfl⟩

/-- **Step rule**: what the steps of `dhcp_task` and of the server keep of
the hand-over, every step keeps. -/
theorem handover_step {P : Dhcp.Locals → Dhcp.ServerData → ServerAt → Prop} {s : State} {l : Label}
    (h : P s.dhcp s.serverData s.clients.server)
    (hdhcp : ∀ i, l = .dhcp i →
      P (s.step l).1.dhcp (s.step l).1.serverData (s.step l).1.clients.server)
    (hserver : ∀ a stack, l = .server a stack →
      P (s.step l).1.dhcp (s.step l).1.serverData (s.step l).1.clients.server) :
    P (s.step l).1.dhcp (s.step l).1.serverData (s.step l).1.clients.server := by
  cases l with
  | dhcp i => exact hdhcp i rfl
  | server a stack => exact hserver a stack rfl
  | vent =>
    obtain ⟨hsame, hrun, hsem, hat⟩ := ventStep_handover s
    simp only [State.step, State.serverData, hsame, hrun, hsem, hat]
    exact h
  | sample samples =>
    obtain ⟨hsame, hclients⟩ := sample_handover s samples
    simp only [State.step, State.serverData, hsame, hclients]
    exact h
  | inputSend =>
    obtain ⟨hsame, hclients⟩ := inputSend_handover s
    simp only [State.step, State.serverData, hsame, hclients]
    exact h

/-! ## No wake-up is lost -/

/-- **The invariant**: a server that is to run is awake, or about to be
woken; and it is to run while there is a lease. -/
structure Awake (l : Dhcp.Locals) (d : Dhcp.ServerData) (server : ServerAt) : Prop where
  awake : d.serverRun = true → l.point = .give ∨ ¬ ServerWaits server ∨ 0 < d.ipAssignedSem
  lease : l.dhcpGetIpFlag = true →
    l.point = .announce ∨ l.point = .waitLink ∨ d.serverRun = true
  start : l.point = .start → l.dhcpGetIpFlag = false

/-- A step of `dhcp_task`. -/
theorem Awake.dhcpStep {l : Dhcp.Locals} {d : Dhcp.ServerData} {server : ServerAt}
    (h : Awake l d server) (i : Dhcp.Input) :
    Awake (Dhcp.dhcpStep l d i).1 (Dhcp.dhcpStep l d i).2.1 server := by
  cases Dhcp.dhcpStep_handover l d i with
  | stop _ hto hdata =>
    exact ⟨fun hrun => by simp [hdata] at hrun, fun _ => Or.inr (Or.inl hto),
      fun hs => by simp [hto] at hs⟩
  | run _ hto hdata =>
    exact ⟨fun _ => Or.inl hto, fun _ => Or.inr (Or.inr (by simp [hdata])),
      fun hs => by simp [hto] at hs⟩
  | give hfrom hto hdata hflag =>
    have hpos := Dhcp.xSemaphoreGive_pos d
    refine ⟨fun _ => Or.inr (Or.inr (hdata ▸ hpos)), fun hset => ?_, fun hs => by simp [hto] at hs⟩
    rcases h.lease (hflag ▸ hset) with hp | hp | hrun
    · simp [hfrom] at hp
    · simp [hfrom] at hp
    · exact Or.inr (Or.inr (by simpa [hdata] using hrun))
  | quiet hgive hannounce hto hdata hflag =>
    rw [hdata]
    refine ⟨fun hrun => Or.inr ((h.awake hrun).resolve_left hgive), fun hset => ?_,
      fun hs => absurd hs hto.2⟩
    rcases hflag hset with hnext | ⟨hset₀, hwait⟩
    · exact Or.inl hnext
    · rcases h.lease hset₀ with hp | hp | hrun
      · exact absurd hp hannounce
      · exact Or.inr (Or.inl (hwait hp))
      · exact Or.inr (Or.inr hrun)

/-- A step of the server. -/
theorem Awake.serverStep {l : Dhcp.Locals} {s : Clients.State}
    (h : Awake l ⟨s.serverRun, s.ipAssignedSem⟩ s.server) (a : Answers) (stack : Message) :
    Awake l ⟨(s.serverStep a stack).1.serverRun, (s.serverStep a stack).1.ipAssignedSem⟩
      (s.serverStep a stack).1.server := by
  obtain ⟨hrun, hcases⟩ := serverStep_handover s a stack
  rw [hrun]
  refine ⟨fun hr => ?_, h.lease, h.start⟩
  rcases hcases with ⟨-, -, hsame⟩ | ⟨-, -, hstarts, -⟩ | ⟨-, hstopped, -⟩ | ⟨-, hbusy, -⟩
  · rw [hsame]
    exact h.awake hr
  · exact Or.inr (Or.inl (by simp [hstarts, ServerWaits]))
  · simp [hstopped] at hr
  · exact Or.inr (Or.inl hbusy)

/-- **Step lemma.** -/
theorem Awake.step {s : State} (h : Awake s.dhcp s.serverData s.clients.server) (l : Label) :
    Awake (s.step l).1.dhcp (s.step l).1.serverData (s.step l).1.clients.server := by
  refine handover_step h (fun i he => ?_) fun a stack he => ?_
  · subst he
    exact h.dhcpStep i
  · subst he
    exact h.serverStep a stack

/-- **Run lemma.** -/
theorem awake_run (s₀ : PortId → SocketData) (ls : List Label) :
    Awake ((system s₀).run ls).dhcp ((system s₀).run ls).serverData
      ((system s₀).run ls).clients.server := by
  refine (system s₀).run_inv (fun _ _ => True)
    (I := fun s : State => Awake s.dhcp s.serverData s.clients.server) ?_
    (fun s l h _ => h.step l) ls fun _ _ _ _ => trivial
  constructor <;> simp [system, State.start, State.serverData, Clients.State.start,
    Dhcp.Locals.init]

/-- **No wake-up is lost.** Wherever in a run the server sleeps, either it
is not to run or `dhcp_task` is about to wake it; and no lease that was
announced is in force. -/
theorem no_lost_wakeup (s₀ : PortId → SocketData) (ls : List Label)
    (hasleep : ((system s₀).run ls).Asleep) :
    (((system s₀).run ls).clients.serverRun = false ∨
      ((system s₀).run ls).dhcp.point = .give) ∧
    ¬ ((system s₀).run ls).LeaseAnnounced := by
  obtain ⟨hwaits, hsem⟩ := hasleep
  have h := awake_run s₀ ls
  have hgive : ((system s₀).run ls).clients.serverRun = true →
      ((system s₀).run ls).dhcp.point = .give := by
    intro hrun
    rcases h.awake hrun with hp | hbusy | hpos
    · exact hp
    · exact absurd hwaits hbusy
    · exact absurd hsem (Nat.pos_iff_ne_zero.mp hpos)
  refine ⟨?_, fun ⟨hflag, hnot, hnotGive, hnotWait⟩ => ?_⟩
  · rcases Bool.eq_false_or_eq_true ((system s₀).run ls).clients.serverRun with hrun | hrun
    · exact Or.inr (hgive hrun)
    · exact Or.inl hrun
  · rcases h.lease hflag with hp | hp | hrun
    · exact hnot hp
    · exact hnotWait hp
    · exact hnotGive (hgive hrun)

/-- Steps of `dhcp_task` with the link up. -/
def dhcpSteps (n : Nat) (result : Dhcp.DhcpRun) : List Label :=
  List.replicate n (.dhcp ⟨.on, result⟩)

/-- The first lease, up to `xSemaphoreGive`. -/
def firstLease : List Label := dhcpSteps 1 .other ++ dhcpSteps 3 .ipLeased

theorem no_lost_wakeup_firstLease :
    (((system freshSockets).run firstLease).clients.serverRun = false ∨
      ((system freshSockets).run firstLease).dhcp.point = .give) ∧
    ¬ ((system freshSockets).run firstLease).LeaseAnnounced :=
  no_lost_wakeup freshSockets firstLease ⟨trivial, by decide⟩

/-! ## Stale tokens -/

/-- No token is left over: there is at most one, none while the server
serves with a lease that is not just being announced, and a token that the
server can take announces a lease that is in force. -/
structure NoStaleToken (s : State) : Prop where
  one : s.clients.ipAssignedSem ≤ 1
  serving : ServerServes s.clients.server → s.dhcp.point = .top →
    s.clients.serverRun = true → s.clients.ipAssignedSem = 0
  fresh : ServerWaits s.clients.server → 0 < s.clients.ipAssignedSem →
    s.clients.serverRun = true

/-- A token is given only to a server that waits for it, and the server is
told to stop only after it has taken its token. -/
def Timely (s : State) : Label → Prop
  | .dhcp _ =>
    (s.dhcp.point = .give → ServerWaits s.clients.server ∧ s.clients.ipAssignedSem = 0) ∧
      (s.dhcp.point = .linkOff → s.clients.ipAssignedSem = 0)
  | _ => True

instance (s : State) (l : Label) : Decidable (Timely s l) := by
  unfold Timely
  split <;> infer_instance

/-- **The invariant**: a token is there only between the lease and the
start of the server. -/
structure Handed (l : Dhcp.Locals) (d : Dhcp.ServerData) (server : ServerAt) : Prop where
  one : d.ipAssignedSem ≤ 1
  token : 0 < d.ipAssignedSem → ServerWaits server ∧ d.serverRun = true
  give : l.point = .give → d.serverRun = true

/-- A timely step of `dhcp_task`. -/
theorem Handed.dhcpStep {l : Dhcp.Locals} {d : Dhcp.ServerData} {server : ServerAt}
    (h : Handed l d server)
    (hgive : l.point = .give → ServerWaits server ∧ d.ipAssignedSem = 0)
    (hoff : l.point = .linkOff → d.ipAssignedSem = 0) (i : Dhcp.Input) :
    Handed (Dhcp.dhcpStep l d i).1 (Dhcp.dhcpStep l d i).2.1 server := by
  obtain ⟨hone, htoken, hrun⟩ := h
  cases Dhcp.dhcpStep_handover l d i with
  | stop hfrom hto hdata =>
    -- the server is told to stop after it has taken its token
    have hnone := hoff hfrom
    rw [hdata]
    exact ⟨hone, fun hpos => absurd hpos (by simp [hnone]), fun hp => by simp [hto] at hp⟩
  | run hfrom hto hdata =>
    rw [hdata]
    exact ⟨hone, fun hpos => ⟨(htoken hpos).1, rfl⟩, fun _ => rfl⟩
  | give hfrom hto hdata hflag =>
    obtain ⟨hwaits, hnone⟩ := hgive hfrom
    have hle := Dhcp.xSemaphoreGive_le d
    rw [hdata]
    refine ⟨by omega, fun _ => ⟨hwaits, ?_⟩, fun hp => by simp [hto] at hp⟩
    simpa using hrun hfrom
  | quiet _ _ hto hdata _ =>
    rw [hdata]
    exact ⟨hone, htoken, fun hp => absurd hp hto.1⟩

/-- A step of the server. -/
theorem Handed.serverStep {l : Dhcp.Locals} {s : Clients.State}
    (h : Handed l ⟨s.serverRun, s.ipAssignedSem⟩ s.server) (a : Answers) (stack : Message) :
    Handed l ⟨(s.serverStep a stack).1.serverRun, (s.serverStep a stack).1.ipAssignedSem⟩
      (s.serverStep a stack).1.server := by
  obtain ⟨hone, htoken, hgive⟩ := h
  simp only at hone htoken hgive
  obtain ⟨hrun, ⟨-, -, hsame⟩ | ⟨-, -, -, hsem⟩ | ⟨hat, -, -, hsem⟩ | ⟨hbusy, -, hsem⟩⟩ :=
    serverStep_handover s a stack
  · rw [hsame]
    exact ⟨hone, htoken, hgive⟩
  · -- the token is taken
    rw [hrun, hsem]
    exact ⟨by simp only; omega, fun hpos => absurd hpos (by simp only; omega), hgive⟩
  · rw [hrun, hsem]
    refine ⟨hone, fun hpos => absurd (htoken hpos).1 ?_, hgive⟩
    simp [hat, ServerWaits]
  · rw [hrun, hsem]
    exact ⟨hone, fun hpos => absurd (htoken hpos).1 hbusy, hgive⟩

/-- **Step lemma.** -/
theorem Handed.step {s : State} (h : Handed s.dhcp s.serverData s.clients.server) {l : Label}
    (hl : Timely s l) :
    Handed (s.step l).1.dhcp (s.step l).1.serverData (s.step l).1.clients.server := by
  refine handover_step h (fun i he => ?_) fun a stack he => ?_
  · subst he
    exact h.dhcpStep hl.1 hl.2 i
  · subst he
    exact h.serverStep a stack

/-- **No token is stale** in a run whose steps are timely. -/
theorem no_stale_token (s₀ : PortId → SocketData) (ls : List Label)
    (h : (system s₀).Along Timely ls) : NoStaleToken ((system s₀).run ls) := by
  have hrun : Handed ((system s₀).run ls).dhcp ((system s₀).run ls).serverData
      ((system s₀).run ls).clients.server := by
    refine (system s₀).run_inv Timely
      (I := fun s : State => Handed s.dhcp s.serverData s.clients.server) ?_
      (fun s l h hl => h.step hl) ls h
    constructor <;> simp [system, State.start, State.serverData, Clients.State.start,
      Dhcp.Locals.init]
  refine ⟨hrun.one, fun hserves _ _ => ?_, fun _ hpos => (hrun.token hpos).2⟩
  rcases Nat.eq_zero_or_pos ((system s₀).run ls).clients.ipAssignedSem with hnone | hpos
  · exact hnone
  · have hwaits := (hrun.token hpos).1
    cases hat : ((system s₀).run ls).clients.server <;> simp_all [ServerWaits, ServerServes]

/-- The server takes its token and starts to serve. -/
def serverStarts : List Label := List.replicate 6 (.server (.status .init 0 0) noMessage)

/-- The first lease, and the server serves. -/
def firstPeriod : List Label := firstLease ++ dhcpSteps 2 .ipLeased ++ serverStarts

/-- Then one DHCP_FAILED, and the next lease. -/
def staleRun : List Label := firstPeriod ++ dhcpSteps 3 .failed ++ dhcpSteps 5 .ipLeased

theorem no_stale_token_firstPeriod : NoStaleToken ((system freshSockets).run firstPeriod) :=
  no_stale_token freshSockets firstPeriod (by decide +kernel)

/-- The server serves, and there is a token for it. -/
theorem stale_token : ¬ NoStaleToken ((system freshSockets).run staleRun) := by
  intro h
  have hnone := h.serving (by decide +kernel) (by decide +kernel) (by decide +kernel)
  revert hnone
  decide +kernel

end VentControl.System.Firmware
