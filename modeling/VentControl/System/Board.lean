/-
VentControl.System.Board — the board from reset on: `main`, and the
functions of `w5x00_spi.c` that it and `dhcp_task` call.

`main` brings the chip up before it creates the queues and the tasks. What
the chip answers is an input of the step that asks. `wizchip_initialize`
returns in three ways (the chip cannot be initialised, the link status
cannot be read, or the link is on), and `main` does not tell them apart;
`wizchip_check` does not return unless the version is right. Then the tasks
run: they are those of `System.Firmware`, from its first state, which is
what `main` creates.

`wizchip_dhcp_assign` is called by `DHCP_run`, for each lease that the
library assigns; so the leases are an input of a step of `dhcp_task`. They
are written to `g_net_info`, and with it to the chip.

What is written to the chip is the output: `Write`. The clock, the pins of
the SPI bus, the critical sections and the timer are set up by code that is
not in the repository, and are not modelled; nor is what is printed.

`board_firmware` is what makes every result about the tasks one about the
board.
-/
import VentControl.System.Firmware

namespace VentControl.System.Board

open Runs VentControl.Server

/-! ## Network information -/

/-- `NETINFO_STATIC` and `NETINFO_DHCP`. -/
inductive DhcpMode
  | static
  | dhcp
  deriving DecidableEq, Repr

/-- `wiz_NetInfo`. -/
structure NetInfo where
  mac : Vector UInt8 6
  ip : Vector UInt8 4
  sn : Vector UInt8 4
  gw : Vector UInt8 4
  dns : Vector UInt8 4
  dhcp : DhcpMode
  deriving DecidableEq, Repr

/-- `g_net_info`, as it is declared. -/
def gNetInfo : NetInfo where
  mac := #v[0x12, 0x00, 0x00, 0x00, 0x00, 0x00]
  ip := #v[192, 168, 11, 2]
  sn := #v[255, 255, 255, 0]
  gw := #v[192, 168, 11, 1]
  dns := #v[8, 8, 8, 8]
  dhcp := .dhcp

/-- `pico_unique_board_id_t`. -/
abbrev BoardId : Type := Vector UInt8 8

/-- Lines 124 to 127 of `main.c`: the board's id in the MAC address. -/
def setMac (id : BoardId) (info : NetInfo) : NetInfo :=
  { info with mac := (((info.mac.set 1 id[0]).set 2 id[1]).set 3 id[2]).set 4 id[3] }

/-- What `getIPfromDHCP` and its siblings return. -/
structure Lease where
  ip : Vector UInt8 4
  gw : Vector UInt8 4
  sn : Vector UInt8 4
  dns : Vector UInt8 4
  deriving DecidableEq, Repr

/-- What is written to the chip: the sizes of its buffers, its MAC address,
its network information, and the calls of the server. -/
inductive Write
  | initWizchip (tx rx : List UInt8)
  | setSHAR (mac : Vector UInt8 6)
  | setNetInfo (info : NetInfo)
  | server (c : Call)
  deriving DecidableEq

/-- `network_initialize`. -/
def networkInitialize (info : NetInfo) : List Write := [.setNetInfo info]

/-- `wizchip_dhcp_assign`. -/
def wizchipDhcpAssign (info : NetInfo) (l : Lease) : NetInfo × List Write :=
  let info := { info with ip := l.ip, gw := l.gw, sn := l.sn, dns := l.dns, dhcp := .dhcp }
  (info, networkInitialize info)

/-- A call of `DHCP_run` that assigns some leases. -/
def assignAll (info : NetInfo) : List Lease → NetInfo × List Write
  | [] => (info, [])
  | l :: ls =>
    let (info₁, ws) := wizchipDhcpAssign info l
    let (info₂, ws') := assignAll info₁ ls
    (info₂, ws ++ ws')

/-! ## The board -/

/-- Where `main` is: before the board's id is read; in `wizchip_initialize`
at the initialisation of the chip, or at the link; in `wizchip_check`; at
`setSHAR`; the scheduler runs; or it hangs in `wizchip_check`. -/
inductive Point
  | boardId
  | initWizchip
  | phyLink
  | check
  | shar
  | running
  | halted
  deriving DecidableEq, Repr

/-- What the chip answers while it is brought up: the results of the two
calls of `ctlwizchip`, the link status that the second stores, and the
version. -/
structure ChipInput where
  initRet : Int
  phyRet : Int
  temp : Dhcp.PhyLink
  version : UInt8
  deriving DecidableEq, Repr

/-- `main`, `g_net_info`, and the tasks. -/
structure State where
  point : Point
  netInfo : NetInfo
  firmware : Firmware.State

/-- A step of `main` before the scheduler runs, or of a task; the leases are
those that `DHCP_run` assigns if the step calls it. -/
inductive Label
  | boot (i : ChipInput)
  | task (l : Firmware.Label) (leases : List Lease)

/-- `memsize` of `wizchip_initialize`, for the W5500. -/
def memsize : List UInt8 := [2, 2, 2, 2, 2, 2, 2, 2]

/-- The version of the W5500. -/
def w5500Version : UInt8 := 0x04

/-- The next step of `main`. -/
def State.bootStep (id : BoardId) (b : State) (i : ChipInput) : State × List Write :=
  match b.point with
  | .boardId => ({ b with netInfo := setMac id b.netInfo, point := .initWizchip }, [])
  | .initWizchip =>
    -- " W5x00 initialized fail": `main` goes on
    ({ b with point := if i.initRet = -1 then .check else .phyLink },
      [.initWizchip memsize memsize])
  | .phyLink =>
    -- " Unknown PHY link status": `main` goes on
    ({ b with
        point := if i.phyRet = -1 then .check else if i.temp = .off then .phyLink else .check },
      [])
  | .check => ({ b with point := if i.version ≠ w5500Version then .halted else .shar }, [])
  | .shar => ({ b with point := .running }, [.setSHAR b.netInfo.mac])
  | .running => (b, [])
  | .halted => (b, [])

/-- The step is the one that calls `DHCP_run`. -/
def CallsDhcpRun (s : Firmware.State) : Firmware.Label → Prop
  | .dhcp _ => s.dhcp.point = .run
  | _ => False

instance (s : Firmware.State) : (l : Firmware.Label) → Decidable (CallsDhcpRun s l)
  | .dhcp _ => inferInstanceAs (Decidable (s.dhcp.point = .run))
  | .server _ _ => inferInstanceAs (Decidable False)
  | .vent => inferInstanceAs (Decidable False)
  | .sample _ => inferInstanceAs (Decidable False)
  | .inputSend => inferInstanceAs (Decidable False)

/-- The next step of a task. -/
def State.taskStep (b : State) (l : Firmware.Label) (leases : List Lease) : State × List Write :=
  if b.point = .running then
    let (info, ws) :=
      if CallsDhcpRun b.firmware l then assignAll b.netInfo leases else (b.netInfo, [])
    ({ b with netInfo := info, firmware := (b.firmware.step l).1 },
      ws ++ (b.firmware.step l).2.map .server)
  else (b, [])

/-- One step. -/
def State.step (id : BoardId) (b : State) : Label → State × List Write
  | .boot i => b.bootStep id i
  | .task l leases => b.taskStep l leases

/-- The board as a machine, with any memory for the sockets. -/
def board (id : BoardId) (s₀ : Clients.PortId → SocketData) : Mealy State Label Write where
  init := ⟨.boardId, gNetInfo, .start s₀⟩
  step := State.step id

/-! ## What the tasks do -/

/-- The calls of the server among what is written. -/
def callsOf (ws : List Write) : List Call :=
  ws.filterMap fun
    | .server c => some c
    | _ => none

theorem callsOf_append (ws ws' : List Write) : callsOf (ws ++ ws') = callsOf ws ++ callsOf ws' :=
  List.filterMap_append

theorem callsOf_server (cs : List Call) : callsOf (cs.map .server) = cs := by
  simp [callsOf, List.filterMap_map]

/-- Assigning leases calls nothing of the sockets. -/
theorem callsOf_assignAll (info : NetInfo) (ls : List Lease) :
    callsOf (assignAll info ls).2 = [] := by
  induction ls generalizing info with
  | nil => rfl
  | cons l ls ih =>
    simp only [assignAll, callsOf_append, ih, List.append_nil]
    rfl

/-- The steps of the tasks in a run of the board: those after the scheduler
was started. -/
def tasksOf (b : State) : Label → List Firmware.Label
  | .boot _ => []
  | .task l _ => if b.point = .running then [l] else []

/-- The board, with the steps of its tasks as its outputs. -/
def tasks (id : BoardId) (s₀ : Clients.PortId → SocketData) :
    Mealy State Label Firmware.Label where
  init := (board id s₀).init
  step b l := ((b.step id l).1, tasksOf b l)

theorem tasks_run (id : BoardId) (s₀ : Clients.PortId → SocketData) (ls : List Label) :
    (tasks id s₀).run ls = (board id s₀).run ls := by
  induction ls using List.reverseRecOn with
  | nil => rfl
  | append_singleton ls l ih =>
    rw [Mealy.run_concat, Mealy.run_concat, ih]
    rfl

/-- **The board runs the firmware**: the tasks make a run of
`System.Firmware` from its first state, with the calls that the server makes
there. -/
theorem board_firmware (id : BoardId) (s₀ : Clients.PortId → SocketData) (ls : List Label) :
    ((board id s₀).run ls).firmware = (Firmware.system s₀).run ((tasks id s₀).trace ls) ∧
      callsOf ((board id s₀).trace ls) = (Firmware.system s₀).trace ((tasks id s₀).trace ls) := by
  induction ls using List.reverseRecOn with
  | nil => exact ⟨rfl, rfl⟩
  | append_singleton ls l ih =>
    rw [Mealy.run_concat, Mealy.trace_concat, Mealy.trace_concat, callsOf_append, ih.2, tasks_run]
    set b := (board id s₀).run ls with hb
    cases l with
    | boot i =>
      have hkeep : (b.bootStep id i).1.firmware = b.firmware ∧ callsOf (b.bootStep id i).2 = [] := by
        unfold State.bootStep
        split <;> exact ⟨rfl, rfl⟩
      show (b.bootStep id i).1.firmware = _ ∧ _ ++ callsOf (b.bootStep id i).2 = _
      rw [hkeep.1, hkeep.2, ih.1]
      simp [tasks, tasksOf]
    | task l leases =>
      show (b.taskStep l leases).1.firmware = _ ∧ _ ++ callsOf (b.taskStep l leases).2 = _
      by_cases hrun : b.point = .running
      · have hcalls : callsOf (b.taskStep l leases).2 = (b.firmware.step l).2 := by
          simp only [State.taskStep, hrun, if_true]
          split <;> simp [callsOf_append, callsOf_server, callsOf_assignAll]
        have hstep : (b.taskStep l leases).1.firmware = (b.firmware.step l).1 := by
          simp [State.taskStep, hrun]
        have htask : ((tasks id s₀).step b (.task l leases)).2 = [l] := if_pos hrun
        rw [hcalls, hstep, htask, Mealy.run_concat, Mealy.trace_concat, ← ih.1]
        exact ⟨rfl, rfl⟩
      · have htask : ((tasks id s₀).step b (.task l leases)).2 = [] := if_neg hrun
        have hnone : b.taskStep l leases = (b, []) := if_neg hrun
        rw [htask, hnone, List.append_nil]
        exact ⟨ih.1, by simp [callsOf]⟩

end VentControl.System.Board
