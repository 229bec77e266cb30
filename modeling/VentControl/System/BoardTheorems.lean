/-
VentControl.System.BoardTheorems — in which order the chip is set up and
used.

The server never looks at the address it serves on, and `dhcp_task` never
looks at `g_net_info`. That no socket is opened before the chip has an
address is the work of three tasks and of the DHCP library, which assigns
a lease before it reports one (`LeaseAssigned`): the report sets off the
announcement, the announcement gives the semaphore, and the server waits
for it (`chip_configured_first`).

With it goes what is written: the MAC address is that of the board from the
first write to the last, and no address but that of a lease is ever given
to the chip, so never the one that `g_net_info` is declared with.
-/
import VentControl.System.Board
import VentControl.System.StartTheorems

namespace VentControl.System.Board

open Runs VentControl.Server
open VentControl.System.Clients (PortId)

/-! ## What is written -/

/-- The MAC address of a board. -/
def boardMac (id : BoardId) : Vector UInt8 6 := (setMac id gNetInfo).mac

/-- The network information of a lease. -/
def Lease.info (l : Lease) (mac : Vector UInt8 6) : NetInfo :=
  ⟨mac, l.ip, l.sn, l.gw, l.dns, .dhcp⟩

/-- Some network information was written. -/
def Configured (ws : List Write) : Prop := ∃ info, .setNetInfo info ∈ ws

theorem configured_iff {ws : List Write} :
    Configured ws ↔ (ws.any fun | .setNetInfo _ => true | _ => false) = true := by
  rw [List.any_eq_true]
  constructor
  · rintro ⟨info, hinfo⟩
    exact ⟨_, hinfo, rfl⟩
  · rintro ⟨w, hw, his⟩
    cases w with
    | setNetInfo info => exact ⟨info, hw⟩
    | _ => simp at his

instance (ws : List Write) : Decidable (Configured ws) := decidable_of_iff _ configured_iff.symm

theorem Configured.append {ws : List Write} (h : Configured ws) (ws' : List Write) :
    Configured (ws ++ ws') := by
  obtain ⟨info, hinfo⟩ := h
  exact ⟨info, List.mem_append_left _ hinfo⟩

/-- What may be written after the writes `before`, when `given` are the leases
of the DHCP library. -/
def Allowed (id : BoardId) (given : List Lease) (before : List Write) : Write → Prop
  | .initWizchip _ _ => True
  | .setSHAR mac => mac = boardMac id
  | .setNetInfo info =>
    .setSHAR (boardMac id) ∈ before ∧ ∃ l ∈ given, info = l.info (boardMac id)
  | .server _ => Configured before

/-- The leases of a run. -/
def leasesOf (ls : List Label) : List Lease :=
  ls.flatMap fun
    | .boot _ => []
    | .task _ leases => leases

/-- The DHCP library reports a lease only after it has assigned one, in the
same call of `DHCP_run` or in an earlier one. -/
def LeaseAssigned (id : BoardId) (s₀ : PortId → SocketData) (h : List Label) : Label → Prop
  | .task (.dhcp i) leases =>
    i.result = .ipLeased → leases ≠ [] ∨ Configured ((board id s₀).trace h)
  | _ => True

instance (id : BoardId) (s₀ : PortId → SocketData) (h : List Label) :
    (l : Label) → Decidable (LeaseAssigned id s₀ h l)
  | .task (.dhcp i) leases => inferInstanceAs (Decidable
      (i.result = .ipLeased → leases ≠ [] ∨ Configured ((board id s₀).trace h)))
  | .task (.server _ _) _ => inferInstanceAs (Decidable True)
  | .task .vent _ => inferInstanceAs (Decidable True)
  | .task (.sample _) _ => inferInstanceAs (Decidable True)
  | .task .inputSend _ => inferInstanceAs (Decidable True)
  | .boot _ => inferInstanceAs (Decidable True)

/-! ## Leases -/

theorem mac_assignAll (info : NetInfo) (leases : List Lease) :
    (assignAll info leases).1.mac = info.mac := by
  induction leases generalizing info with
  | nil => rfl
  | cons l leases ih =>
    simp only [assignAll]
    rw [ih]
    rfl

/-- Every lease that is assigned is written, with the MAC address there is. -/
theorem mem_assignAll {info : NetInfo} {leases : List Lease} {w : Write}
    (h : w ∈ (assignAll info leases).2) : ∃ l ∈ leases, w = .setNetInfo (l.info info.mac) := by
  induction leases generalizing info with
  | nil => simp [assignAll] at h
  | cons l leases ih =>
    simp only [assignAll] at h
    rcases List.mem_append.mp h with h | h
    · exact ⟨l, by simp, List.mem_singleton.mp h⟩
    · obtain ⟨l', hl', rfl⟩ := ih h
      exact ⟨l', by simp [hl'], rfl⟩

theorem configured_assignAll (info : NetInfo) {leases : List Lease} (h : leases ≠ []) :
    Configured (assignAll info leases).2 := by
  cases leases with
  | nil => exact absurd rfl h
  | cons l leases =>
    simp only [assignAll]
    exact Configured.append ⟨_, List.mem_singleton.mpr rfl⟩ _

/-! ## The invariant -/

/-- After a run: what was written was allowed; the MAC address is that of the
board once the board's id was read, and it is written before the tasks run;
and if `dhcp_task` has found a lease, one was written. -/
structure Ordered (id : BoardId) (given : List Lease) (s₀ : PortId → SocketData)
    (ls : List Label) : Prop where
  allowed : EachStep (Allowed id given) ((board id s₀).trace ls)
  untouched : ((board id s₀).run ls).point = .boardId → ((board id s₀).run ls).netInfo = gNetInfo
  mac : ((board id s₀).run ls).point ≠ .boardId → ((board id s₀).run ls).netInfo.mac = boardMac id
  shar : ((board id s₀).run ls).point = .running →
    .setSHAR (boardMac id) ∈ (board id s₀).trace ls
  leased : .leased ∈ (Firmware.observed Firmware.life s₀).trace ((tasks id s₀).trace ls) →
    Configured ((board id s₀).trace ls)

theorem ordered_start (id : BoardId) (given : List Lease) (s₀ : PortId → SocketData) :
    Ordered id given s₀ [] where
  allowed := EachStep.nil _
  untouched := fun _ => rfl
  mac := fun h => absurd rfl h
  shar := fun h => by cases h
  leased := fun h => by cases h

/-- Writes that are allowed at once, and go on being allowed, are allowed one
after the other. -/
theorem eachStep_writes {good : List Write → Write → Prop} {before ws : List Write}
    (hbefore : EachStep good before) (hws : ∀ w ∈ ws, ∀ h, good (before ++ h) w) :
    EachStep good (before ++ ws) := by
  refine EachStep.append_iff.mpr ⟨hbefore, fun h w rest he => hws w ?_ h⟩
  rw [he]
  simp

/-- **All a step of `main` can do**: it reads the board's id; it writes the MAC
address and starts the scheduler; or it goes on with bringing up the chip,
or stays where it is. -/
theorem bootStep_cases (id : BoardId) (b : State) (i : ChipInput) :
    (b.point = .boardId ∧
      b.bootStep id i =
        ({ b with netInfo := setMac id b.netInfo, point := .initWizchip }, [])) ∨
    (b.point = .shar ∧
      b.bootStep id i = ({ b with point := .running }, [.setSHAR b.netInfo.mac])) ∨
    (b.point ≠ .boardId ∧ ∃ p ws, b.bootStep id i = ({ b with point := p }, ws) ∧
      p ≠ .boardId ∧ (p = .running → b.point = .running) ∧
      ∀ w ∈ ws, w = .initWizchip memsize memsize) := by
  obtain ⟨point, info, firmware⟩ := b
  cases point with
  | boardId => exact Or.inl ⟨rfl, rfl⟩
  | shar => exact Or.inr (Or.inl ⟨rfl, rfl⟩)
  | initWizchip =>
    refine Or.inr (Or.inr ⟨by simp, if i.initRet = -1 then .check else .phyLink, _, rfl, ?_, ?_,
      by simp⟩)
    all_goals split <;> simp
  | phyLink =>
    refine Or.inr (Or.inr ⟨by simp, if i.phyRet = -1 then .check else
      if i.temp = .off then .phyLink else .check, _, rfl, ?_, ?_, by simp⟩)
    all_goals split_ifs <;> simp
  | check =>
    refine Or.inr (Or.inr ⟨by simp, if i.version ≠ w5500Version then .halted else .shar, _, rfl,
      ?_, ?_, by simp⟩)
    all_goals split <;> simp
  | running =>
    exact Or.inr (Or.inr ⟨by simp, .running, [], rfl, by simp, fun _ => rfl, by simp⟩)
  | halted => exact Or.inr (Or.inr ⟨by simp, .halted, [], rfl, by simp, by simp, by simp⟩)

section Steps

variable {id : BoardId} {given : List Lease} {s₀ : PortId → SocketData} {ls : List Label}

/-- A step of `main`. -/
theorem Ordered.boot (h : Ordered id given s₀ ls) (i : ChipInput) :
    Ordered id given s₀ (ls ++ [.boot i]) := by
  set b := (board id s₀).run ls with hb
  have hrun : (board id s₀).run (ls ++ [.boot i]) = (b.bootStep id i).1 := Mealy.run_concat ..
  have htrace : (board id s₀).trace (ls ++ [.boot i]) =
      (board id s₀).trace ls ++ (b.bootStep id i).2 := Mealy.trace_concat ..
  have hleased : .leased ∈ (Firmware.observed Firmware.life s₀).trace
      ((tasks id s₀).trace (ls ++ [.boot i])) →
      Configured ((board id s₀).trace (ls ++ [.boot i])) := by
    rw [htrace, Mealy.trace_concat]
    intro hl
    exact (h.leased (by simpa [tasks, tasksOf] using hl)).append _
  obtain ⟨hat, hs⟩ | ⟨hat, hs⟩ | ⟨hne, p, ws, hs, hp, hrunning, hws⟩ := bootStep_cases id b i <;>
    rw [hs] at hrun htrace
  · have hinfo : b.netInfo = gNetInfo := h.untouched hat
    exact {
      allowed := by
        rw [htrace, List.append_nil]
        exact h.allowed
      untouched := by
        intro hp
        rw [hrun] at hp
        cases hp
      mac := by
        intro _
        rw [hrun, hinfo]
        rfl
      shar := by
        intro hp
        rw [hrun] at hp
        cases hp
      leased := hleased }
  · have hmac : b.netInfo.mac = boardMac id := h.mac (by rw [← hb, hat]; decide)
    exact {
      allowed := by
        rw [htrace]
        apply eachStep_writes h.allowed
        intro w hw before
        rw [List.mem_singleton.mp hw]
        exact hmac
      untouched := by
        intro hp
        rw [hrun] at hp
        cases hp
      mac := by
        intro _
        rw [hrun]
        exact hmac
      shar := by
        intro _
        rw [htrace, hmac]
        simp
      leased := hleased }
  · exact {
      allowed := by
        rw [htrace]
        apply eachStep_writes h.allowed
        intro w hw before
        rw [hws w hw]
        trivial
      untouched := by
        intro hp'
        rw [hrun] at hp'
        exact absurd hp' hp
      mac := by
        intro _
        rw [hrun]
        exact h.mac hne
      shar := by
        intro hp'
        rw [hrun] at hp'
        rw [htrace]
        exact List.mem_append_left _ (h.shar (hrunning hp'))
      leased := hleased }

/-- The step of a task, when the scheduler runs. -/
theorem taskStep_running {b : State} (hrun : b.point = .running) (l : Firmware.Label)
    (leases : List Lease) :
    b.taskStep l leases =
      let assigned := assignAll b.netInfo (if CallsDhcpRun b.firmware l then leases else [])
      ({ b with netInfo := assigned.1, firmware := (b.firmware.step l).1 },
        assigned.2 ++ (b.firmware.step l).2.map .server) := by
  rw [State.taskStep, if_pos hrun]
  by_cases hcalls : CallsDhcpRun b.firmware l
  · simp only [if_pos hcalls]
  · simp only [if_neg hcalls, assignAll]

/-- The lease that `dhcp_task` finds in a step is a report of the library. -/
theorem report_of_life {s : Firmware.State} {l : Firmware.Label}
    (h : .leased ∈ Firmware.life s l) :
    ∃ i, l = .dhcp i ∧ i.result = .ipLeased ∧ CallsDhcpRun s l := by
  cases l with
  | dhcp i =>
    have hnew : Firmware.newLease s.dhcp i = true := by
      by_contra hold
      simp [Firmware.life, hold] at h
    have hboth : s.dhcp.point = .run ∧ s.dhcp.dhcpGetIpFlag = false ∧ i.result = .ipLeased := by
      simpa [Firmware.newLease] using hnew
    exact ⟨i, rfl, hboth.2.2, hboth.1⟩
  | server a stack =>
    simp only [Firmware.life] at h
    split at h <;> simp at h
  | _ => simp [Firmware.life] at h

/-- What the server calls, it calls after a lease was found. -/
theorem leased_of_step {l : Firmware.Label} {c : Call} {ts : List Firmware.Label}
    (hc : c ∈ (((Firmware.system s₀).run ts).step l).2) :
    .leased ∈ (Firmware.observed Firmware.life s₀).trace ts := by
  have hcalls : (Firmware.system s₀).trace (ts ++ [l]) ≠ [] := by
    rw [Mealy.trace_concat]
    exact List.append_ne_nil_of_right_ne_nil _ (List.ne_nil_of_mem hc)
  have hleased := Firmware.leased_of_calls s₀ hcalls
  rw [Mealy.trace_concat] at hleased
  refine (List.mem_append.mp hleased).elim id fun hlife => ?_
  -- a step of `dhcp_task` calls nothing
  obtain ⟨i, rfl, -⟩ := report_of_life hlife
  simp [Firmware.State.step] at hc

/-- A step of a task. -/
theorem Ordered.task (h : Ordered id given s₀ ls) {l : Firmware.Label} {leases : List Lease}
    (hgiven : leases ⊆ given) (hlib : LeaseAssigned id s₀ ls (.task l leases)) :
    Ordered id given s₀ (ls ++ [.task l leases]) := by
  set b := (board id s₀).run ls with hb
  have hrun : (board id s₀).run (ls ++ [.task l leases]) = (b.taskStep l leases).1 :=
    Mealy.run_concat ..
  have htrace : (board id s₀).trace (ls ++ [.task l leases]) =
      (board id s₀).trace ls ++ (b.taskStep l leases).2 := Mealy.trace_concat ..
  have htasks : (tasks id s₀).trace (ls ++ [.task l leases]) =
      (tasks id s₀).trace ls ++ tasksOf b (.task l leases) := by
    rw [Mealy.trace_concat, tasks_run]
    rfl
  by_cases hrunning : b.point = .running
  · have hfirmware : b.firmware = _ := (board_firmware id s₀ ls).1
    have hmac : b.netInfo.mac = boardMac id := h.mac (by rw [← hb, hrunning]; decide)
    have hshar := h.shar hrunning
    rw [taskStep_running hrunning] at hrun htrace
    rw [tasksOf, if_pos hrunning] at htasks
    set assigned := assignAll b.netInfo (if CallsDhcpRun b.firmware l then leases else [])
      with hassigned
    exact {
      allowed := by
        rw [htrace]
        apply eachStep_writes h.allowed
        intro w hw before
        rcases List.mem_append.mp hw with hw | hw
        · -- a lease of the library
          obtain ⟨lease, hlease, rfl⟩ := mem_assignAll hw
          have hmem : lease ∈ leases := by
            split at hlease
            · exact hlease
            · simp at hlease
          exact ⟨List.mem_append_left _ hshar, lease, hgiven hmem, by rw [hmac]⟩
        · -- a call of the server
          obtain ⟨c, hc, rfl⟩ := List.mem_map.mp hw
          rw [hfirmware] at hc
          exact (h.leased (leased_of_step hc)).append _
      untouched := by
        intro hp
        rw [hrun] at hp
        exact absurd (hrunning.symm.trans hp) (by decide)
      mac := by
        intro _
        rw [hrun]
        exact (mac_assignAll _ _).trans hmac
      shar := by
        intro _
        rw [htrace]
        exact List.mem_append_left _ hshar
      leased := by
        intro hl
        rw [htrace]
        rw [htasks, Mealy.trace_concat, Firmware.observed_run, ← hfirmware] at hl
        rcases List.mem_append.mp hl with hl | hl
        · exact (h.leased hl).append _
        · obtain ⟨i, rfl, hresult, hcalls⟩ := report_of_life hl
          rcases hlib hresult with hne | hconf
          · obtain ⟨info, hinfo⟩ := configured_assignAll b.netInfo hne
            rw [hassigned, if_pos hcalls]
            exact ⟨info, List.mem_append_right _ (List.mem_append_left _ hinfo)⟩
          · exact hconf.append _ }
  · have hnone : b.taskStep l leases = (b, []) := if_neg hrunning
    rw [hnone] at hrun htrace
    rw [tasksOf, if_neg hrunning, List.append_nil] at htasks
    rw [List.append_nil] at htrace
    exact {
      allowed := by
        rw [htrace]
        exact h.allowed
      untouched := by
        rw [hrun]
        exact h.untouched
      mac := by
        rw [hrun]
        exact h.mac
      shar := by
        rw [hrun, htrace]
        exact h.shar
      leased := by
        rw [htasks, htrace]
        exact h.leased }

end Steps

/-! ## Runs -/

theorem ordered_run {id : BoardId} {given : List Lease} {s₀ : PortId → SocketData}
    {ls : List Label} (hgiven : leasesOf ls ⊆ given)
    (hlib : EachStep (LeaseAssigned id s₀) ls) : Ordered id given s₀ ls := by
  induction ls using List.reverseRecOn with
  | nil => exact ordered_start id given s₀
  | append_singleton ls l ih =>
    obtain ⟨hls, hl⟩ := EachStep.concat_iff.mp hlib
    rw [leasesOf, List.flatMap_append] at hgiven
    have hold := ih (List.append_subset.mp hgiven).1 hls
    cases l with
    | boot i => exact hold.boot i
    | task l leases =>
      have hnew : leases ⊆ given := by simpa using (List.append_subset.mp hgiven).2
      exact hold.task hnew hl

/-- The tasks only run on the right chip. -/
theorem version_of_running (id : BoardId) (s₀ : PortId → SocketData) (ls : List Label)
    (h : ((board id s₀).run ls).point = .shar ∨ ((board id s₀).run ls).point = .running) :
    ∃ i, .boot i ∈ ls ∧ i.version = w5500Version := by
  induction ls using List.reverseRecOn with
  | nil => rcases h with h | h <;> cases h
  | append_singleton ls l ih =>
    have hold : ((board id s₀).run ls).point = .shar ∨ ((board id s₀).run ls).point = .running →
        ∃ i, .boot i ∈ ls ++ [l] ∧ i.version = w5500Version := fun hp => by
      obtain ⟨i, hi, hversion⟩ := ih hp
      exact ⟨i, List.mem_append_left _ hi, hversion⟩
    rw [Mealy.run_concat] at h
    set b := (board id s₀).run ls
    cases l with
    | task l leases =>
      have hkeep : (b.taskStep l leases).1.point = b.point := by
        unfold State.taskStep
        split <;> rfl
      exact hold (hkeep ▸ h)
    | boot i =>
      replace h : (b.bootStep id i).1.point = .shar ∨ (b.bootStep id i).1.point = .running := h
      cases hat : b.point with
      | shar => exact hold (Or.inl hat)
      | running => exact hold (Or.inr hat)
      | check =>
        by_cases hversion : i.version = w5500Version
        · exact ⟨i, by simp, hversion⟩
        · simp [State.bootStep, hat, hversion] at h
      | phyLink =>
        simp only [State.bootStep, hat] at h
        split_ifs at h <;> simp at h
      | initWizchip =>
        simp only [State.bootStep, hat] at h
        split_ifs at h <;> simp at h
      | _ => simp [State.bootStep, hat] at h

/-- **The chip is configured before it is used.** In every run of the board
in which the DHCP library assigns a lease before it reports one, and for
every order of the tasks: the server calls nothing of the chip before
network information was written; that is always the one of a lease that the
library assigned, with the MAC address of the board, which is written
before it; no other MAC address is ever written; and the tasks only run if
the chip has answered with its version. -/
theorem chip_configured_first (id : BoardId) (s₀ : PortId → SocketData) (ls : List Label)
    (hlib : EachStep (LeaseAssigned id s₀) ls) :
    EachStep (Allowed id (leasesOf ls)) ((board id s₀).trace ls) ∧
      (((board id s₀).run ls).point = .running →
        ∃ i, .boot i ∈ ls ∧ i.version = w5500Version) :=
  ⟨(ordered_run (List.Subset.refl _) hlib).allowed,
    fun hrunning => version_of_running id s₀ ls (Or.inr hrunning)⟩

/-- The chip comes up, and a lease is assigned in every call of `DHCP_run`,
until the server serves. -/
def firstLease : List Label :=
  List.replicate 5 (.boot ⟨0, 0, .on, w5500Version⟩) ++ Firmware.firstPeriod.map fun l =>
    .task l [⟨#v[10, 0, 0, 7], #v[10, 0, 0, 1], #v[255, 255, 0, 0], #v[10, 0, 0, 1]⟩]

theorem chip_configured_first_firstLease :
    EachStep (Allowed #v[1, 2, 3, 4, 5, 6, 7, 8] (leasesOf firstLease))
      ((board #v[1, 2, 3, 4, 5, 6, 7, 8] Clients.freshSockets).trace firstLease) :=
  (chip_configured_first _ Clients.freshSockets firstLease (by decide +kernel)).1

end VentControl.System.Board
