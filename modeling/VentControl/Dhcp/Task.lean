/-
VentControl.Dhcp.Task — `main.c`: the task that watches the link, asks
for an IP address, and starts and stops the server.

`dhcp_task` shares `server_run` and `ip_assigned_sem` with the server, so
it is cut into steps that touch these at most once: `Point` is where the
task is, `dhcpStep` what it does next. `wizphy_getphylink` and `DHCP_run`
are not in the repository; what they return is an input of the step that
calls them. A call of `DHCP_run` that finds an address conflict calls
`wizchip_dhcp_conflict`, which does not return.

A step emits an `Event` for each of the three results that the task
reacts to; `Handover` is what it does to the shared data. `DHCP_init`,
`DHCP_stop` and the delays have no effect on what is modelled here. The
branch for a static address is not taken: the address is configured as
`NETINFO_DHCP`.
-/
import VentControl.Types
import VentControl.Lib.Run

namespace VentControl.Dhcp

open Runs

/-! ## Constants -/

/-- `DHCP_RETRY_COUNT`. -/
def dhcpRetryCount : Nat := 5

/-- The largest count of `ip_assigned_sem`. -/
def ipAssignedMax : Nat := 0x7fffffff

/-! ## Data -/

/-- What `wizphy_getphylink` returns. -/
inductive PhyLink
  | off
  | on
  deriving DecidableEq, Repr

/-- How a call of `DHCP_run` ends: with one of the two results the task
tells apart, with another one, or not at all. -/
inductive DhcpRun
  | ipLeased
  | failed
  | other
  | conflict
  deriving DecidableEq, Repr

/-- The fields of `server_data_t` that the task writes. -/
structure ServerData where
  serverRun : Bool
  ipAssignedSem : Nat
  deriving DecidableEq, Repr

/-- `xSemaphoreGive`. -/
def ServerData.xSemaphoreGive (d : ServerData) : ServerData :=
  if d.ipAssignedSem < ipAssignedMax then { d with ipAssignedSem := d.ipAssignedSem + 1 } else d

@[simp] theorem xSemaphoreGive_serverRun (d : ServerData) :
    d.xSemaphoreGive.serverRun = d.serverRun := by
  unfold ServerData.xSemaphoreGive
  split <;> rfl

/-- A give leaves a token, also when the semaphore was full. -/
theorem xSemaphoreGive_pos (d : ServerData) : 0 < d.xSemaphoreGive.ipAssignedSem := by
  unfold ServerData.xSemaphoreGive
  split
  · exact Nat.succ_pos _
  · next hfull =>
    simp only [ipAssignedMax] at hfull
    omega

/-- A give leaves one token more, if that. -/
theorem xSemaphoreGive_le (d : ServerData) :
    d.xSemaphoreGive.ipAssignedSem ≤ d.ipAssignedSem + 1 := by
  unfold ServerData.xSemaphoreGive
  split <;> simp

/-- Where `dhcp_task` is: at its first `wizchip_dhcp_init`; at the top of
the loop, about to look at the link; about to clear `server_run`; waiting
for the link; about to call `DHCP_run`; about to set `server_run`; about
to give the semaphore; about to look at `dhcp_retry`; in the loop after
`DHCP failed`; in `wizchip_dhcp_conflict`. -/
inductive Point
  | start
  | top
  | linkOff
  | waitLink
  | run
  | announce
  | give
  | check
  | gaveUp
  | conflict
  deriving DecidableEq, Repr

/-- The locals of `dhcp_task`, with `g_dhcp_get_ip_flag`, which is only
ever 0 or 1. -/
structure Locals where
  point : Point
  dhcpRetry : Nat
  dhcpGetIpFlag : Bool
  deriving DecidableEq, Repr

/-- What the task learns: a lease, a failure, or that the link is off. -/
inductive Event
  | leased
  | failed
  | linkLost
  deriving DecidableEq, Repr

/-- What the calls of one step return. -/
structure Input where
  link : PhyLink
  result : DhcpRun
  deriving DecidableEq, Repr

/-! ## The steps -/

/-- The start of the scheduler. -/
def Locals.init : Locals where
  point := .start
  dhcpRetry := 0
  dhcpGetIpFlag := false

/-- `wizchip_dhcp_init`. -/
def wizchipDhcpInit (l : Locals) : Locals := { l with dhcpGetIpFlag := false }

/-- Lines 221 to 246: what `DHCP_run` returned. -/
def handleResult (l : Locals) : DhcpRun → Locals × List Event
  | .ipLeased =>
    if l.dhcpGetIpFlag = false then
      ({ l with dhcpRetry := 0, dhcpGetIpFlag := true, point := .announce }, [.leased])
    else ({ l with point := .check }, [.leased])
  | .failed =>
    ({ l with dhcpGetIpFlag := false, dhcpRetry := l.dhcpRetry + 1, point := .check }, [.failed])
  | .other => ({ l with point := .check }, [])
  | .conflict => ({ l with point := .conflict }, [])

/-- The next step of `dhcp_task`. -/
def dhcpStep (l : Locals) (d : ServerData) (i : Input) : Locals × ServerData × List Event :=
  match l.point with
  | .start => ({ wizchipDhcpInit l with point := .top }, d, [])
  | .top =>
    if i.link = .off then ({ l with point := .linkOff }, d, [.linkLost])
    else ({ l with point := .run }, d, [])
  | .linkOff => ({ l with point := .waitLink }, { d with serverRun := false }, [])
  | .waitLink =>
    if i.link = .on then ({ wizchipDhcpInit l with dhcpRetry := 0, point := .run }, d, [])
    else (l, d, [])
  | .run => ((handleResult l i.result).1, d, (handleResult l i.result).2)
  | .announce => ({ l with point := .give }, { d with serverRun := true }, [])
  | .give => ({ l with point := .check }, d.xSemaphoreGive, [])
  | .check =>
    ({ l with point := if l.dhcpRetry > dhcpRetryCount then .gaveUp else .top }, d, [])
  | .gaveUp => (l, d, [])
  | .conflict => (l, d, [])

/-- What one step does to the data it shares with the server: it clears
`server_run`, or sets it, or gives the semaphore, or does none of these. In
that case a flag that is set then was set before, or the lease is announced
next. -/
inductive Handover (l l' : Locals) (d d' : ServerData) : Prop
  | stop (hfrom : l.point = .linkOff) (hto : l'.point = .waitLink)
      (hdata : d' = { d with serverRun := false })
  | run (hfrom : l.point = .announce) (hto : l'.point = .give)
      (hdata : d' = { d with serverRun := true })
  | give (hfrom : l.point = .give) (hto : l'.point = .check) (hdata : d' = d.xSemaphoreGive)
      (hflag : l'.dhcpGetIpFlag = l.dhcpGetIpFlag)
  | quiet (hgive : l.point ≠ .give) (hannounce : l.point ≠ .announce)
      (hto : l'.point ≠ .give ∧ l'.point ≠ .start) (hdata : d' = d)
      (hflag : l'.dhcpGetIpFlag = true → l'.point = .announce ∨
        (l.dhcpGetIpFlag = true ∧ (l.point = .waitLink → l'.point = .waitLink)))

/-- **All one step can do** to the shared data. -/
theorem dhcpStep_handover (l : Locals) (d : ServerData) (i : Input) :
    Handover l (dhcpStep l d i).1 d (dhcpStep l d i).2.1 := by
  obtain ⟨point, retry, flag⟩ := l
  cases point with
  | linkOff => exact .stop rfl rfl rfl
  | announce => exact .run rfl rfl rfl
  | give => exact .give rfl rfl rfl rfl
  | start => exact .quiet nofun nofun ⟨nofun, nofun⟩ rfl nofun
  | top =>
    simp only [dhcpStep]
    split
    · exact .quiet nofun nofun ⟨nofun, nofun⟩ rfl fun hset => Or.inr ⟨hset, nofun⟩
    · exact .quiet nofun nofun ⟨nofun, nofun⟩ rfl fun hset => Or.inr ⟨hset, nofun⟩
  | waitLink =>
    simp only [dhcpStep]
    split
    · exact .quiet nofun nofun ⟨nofun, nofun⟩ rfl nofun
    · exact .quiet nofun nofun ⟨nofun, nofun⟩ rfl fun hset => Or.inr ⟨hset, fun _ => rfl⟩
  | run =>
    -- only a lease sets the flag
    simp only [dhcpStep]
    cases i.result with
    | ipLeased =>
      simp only [handleResult]
      split
      · exact .quiet nofun nofun ⟨nofun, nofun⟩ rfl fun _ => Or.inl rfl
      · exact .quiet nofun nofun ⟨nofun, nofun⟩ rfl fun hset => Or.inr ⟨hset, nofun⟩
    | failed => exact .quiet nofun nofun ⟨nofun, nofun⟩ rfl nofun
    | other => exact .quiet nofun nofun ⟨nofun, nofun⟩ rfl fun hset => Or.inr ⟨hset, nofun⟩
    | conflict => exact .quiet nofun nofun ⟨nofun, nofun⟩ rfl fun hset => Or.inr ⟨hset, nofun⟩
  | check =>
    simp only [dhcpStep]
    split
    · exact .quiet nofun nofun ⟨nofun, nofun⟩ rfl fun hset => Or.inr ⟨hset, nofun⟩
    · exact .quiet nofun nofun ⟨nofun, nofun⟩ rfl fun hset => Or.inr ⟨hset, nofun⟩
  | gaveUp => exact .quiet nofun nofun ⟨nofun, nofun⟩ rfl fun hset => Or.inr ⟨hset, nofun⟩
  | conflict => exact .quiet nofun nofun ⟨nofun, nofun⟩ rfl fun hset => Or.inr ⟨hset, nofun⟩

/-- The task and the data it writes. -/
structure State where
  locals : Locals
  serverData : ServerData
  deriving DecidableEq, Repr

/-- `dhcp_task` as a machine. It reads nothing that another task writes. -/
def task : Mealy State Input Event where
  init := ⟨.init, ⟨false, 0⟩⟩
  step s i :=
    let (l, d, es) := dhcpStep s.locals s.serverData i
    (⟨l, d⟩, es)

/-- The task is at the top of its loop, or in its last one. -/
def Locals.AtRest (l : Locals) : Prop := l.point = .top ∨ l.point = .gaveUp

instance (l : Locals) : Decidable l.AtRest := by
  unfold Locals.AtRest
  infer_instance

end VentControl.Dhcp
