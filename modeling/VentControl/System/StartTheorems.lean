/-
VentControl.System.StartTheorems — the server only starts on a lease.

The server starts when it takes a token of `ip_assigned_sem`, and
`dhcp_task` gives one for each lease it finds new. `starts_on_leases`
counts both over a run: at every moment the server has started at most as
often as a new lease was found, and before the first one it has called
nothing of the chip at all.

What is owed in between is the potential of `Mealy.trace_count_le_count`:
the tokens, and one more while the lease is being announced. That the
count is not exact is the stale token of `System.WakeupTheorems`; a token
too many is never made up for by one that nobody gave.
-/
import VentControl.Lib.Budget
import VentControl.System.Ledger
import VentControl.System.WakeupTheorems

namespace VentControl.System.Firmware

open Runs VentControl.Server VentControl.Ventcontrol
open VentControl.System.Clients (PortId ServerAt)

/-! ## Leases and starts -/

/-- A new lease is found, or the server starts. -/
inductive Life
  | leased
  | started
  deriving DecidableEq, Repr

/-- `DHCP_run` returns a lease while `g_dhcp_get_ip_flag` is 0. -/
def newLease (l : Dhcp.Locals) (i : Dhcp.Input) : Bool :=
  l.point = .run ∧ l.dhcpGetIpFlag = false ∧ i.result = .ipLeased

/-- What a step does to the life of the server. -/
def life (s : State) : Label → List Life
  | .dhcp i => if newLease s.dhcp i then [.leased] else []
  | .server _ _ =>
    if ServerWaits s.clients.server ∧ 0 < s.clients.ipAssignedSem then [.started] else []
  | _ => []

/-- A lease is being announced, and its token is not given yet. -/
def announcing : Dhcp.Point → Nat
  | .announce => 1
  | .give => 1
  | _ => 0

/-- The starts that are owed. -/
def owed (s : State) : Nat := s.clients.ipAssignedSem + announcing s.dhcp.point

/-- A step of `dhcp_task`: only a new lease owes a start. -/
theorem owed_dhcpStep (l : Dhcp.Locals) (d : Dhcp.ServerData) (i : Dhcp.Input) :
    (Dhcp.dhcpStep l d i).2.1.ipAssignedSem + announcing (Dhcp.dhcpStep l d i).1.point ≤
      d.ipAssignedSem + announcing l.point + if newLease l i then 1 else 0 := by
  obtain ⟨point, retry, flag⟩ := l
  obtain ⟨link, result⟩ := i
  cases point with
  | give =>
    have hgive := Dhcp.xSemaphoreGive_le d
    simpa [Dhcp.dhcpStep, announcing, newLease] using hgive
  | run =>
    cases result with
    | ipLeased => cases flag <;> simp [Dhcp.dhcpStep, Dhcp.handleResult, announcing, newLease]
    | _ => simp [Dhcp.dhcpStep, Dhcp.handleResult, announcing, newLease]
  | top =>
    simp only [Dhcp.dhcpStep]
    split <;> simp [announcing]
  | waitLink =>
    simp only [Dhcp.dhcpStep]
    split <;> simp [announcing]
  | check =>
    simp only [Dhcp.dhcpStep]
    split <;> simp [announcing]
  | _ => simp [Dhcp.dhcpStep, announcing]

/-- **Step lemma**: a start is paid for, and only a new lease adds to what is
owed. -/
theorem owed_step (s : State) (l : Label) :
    owed (s.step l).1 + (life s l).count .started ≤ owed s + (life s l).count .leased := by
  cases l with
  | dhcp i =>
    have h := owed_dhcpStep s.dhcp s.serverData i
    show (Dhcp.dhcpStep s.dhcp s.serverData i).2.1.ipAssignedSem +
      announcing (Dhcp.dhcpStep s.dhcp s.serverData i).1.point + (life s (.dhcp i)).count .started ≤
        s.clients.ipAssignedSem + announcing s.dhcp.point + (life s (.dhcp i)).count .leased
    cases hnew : newLease s.dhcp i with
    | true => simpa [life, hnew, State.serverData] using h
    | false => simpa [life, hnew, State.serverData] using h
  | server a stack =>
    obtain ⟨-, hcases⟩ := serverStep_handover s.clients a stack
    show (s.clients.serverStep a stack).1.ipAssignedSem + announcing s.dhcp.point + _ ≤ owed s + _
    rw [owed, life]
    rcases hcases with ⟨hat, hnone, hs⟩ | ⟨hat, hsome, -, hs⟩ | ⟨hat, -, -, hs⟩ | ⟨hbusy, -, hs⟩
    · simp [hs, hnone]
    · have hstart : ServerWaits s.clients.server := by rw [hat]; trivial
      have hone : [Life.started].count .started = 1 := rfl
      rw [hs, if_pos ⟨hstart, hsome⟩, hone]
      omega
    · simp [hs, hat, ServerWaits]
    · simp [hs, hbusy]
  | vent =>
    obtain ⟨hdhcp, -, hsem, -⟩ := ventStep_handover s
    simp [State.step, owed, life, hdhcp, hsem]
  | sample samples =>
    obtain ⟨hdhcp, hclients⟩ := sample_handover s samples
    simp [State.step, owed, life, hdhcp, hclients]
  | inputSend =>
    obtain ⟨hdhcp, hclients⟩ := inputSend_handover s
    simp [State.step, owed, life, hdhcp, hclients]

/-! ## Before the first start -/

/-- The server has started, or it still waits and has called nothing. -/
theorem started_or_silent (s₀ : PortId → SocketData) (ls : List Label) :
    .started ∈ (observed life s₀).trace ls ∨
      (ServerWaits ((system s₀).run ls).clients.server ∧ (system s₀).trace ls = []) := by
  induction ls using List.reverseRecOn with
  | nil => exact Or.inr ⟨trivial, rfl⟩
  | append_singleton ls l ih =>
    rw [Mealy.trace_concat, Mealy.trace_concat, Mealy.run_concat, observed_run]
    rcases ih with hstarted | ⟨hwaits, hsilent⟩
    · exact Or.inl (List.mem_append_left _ hstarted)
    · set s := (system s₀).run ls
      show _ ∨ ServerWaits (s.step l).1.clients.server ∧ _
      rw [hsilent]
      cases l with
      | dhcp i => exact Or.inr ⟨hwaits, rfl⟩
      | vent => exact Or.inr ⟨by rw [State.step, (ventStep_handover s).2.2.2]; exact hwaits, rfl⟩
      | sample samples =>
        exact Or.inr ⟨by rw [State.step, (sample_handover s samples).2]; exact hwaits, rfl⟩
      | inputSend =>
        exact Or.inr ⟨by rw [State.step, (inputSend_handover s).2]; exact hwaits, rfl⟩
      | server a stack =>
        have hcalls : serverCalls s.clients a = [] := by
          unfold serverCalls
          cases hat : s.clients.server with
          | waiting => rfl
          | head => rfl
          | taking => rfl
          | starting i =>
            rw [hat] at hwaits
            exact hwaits.elim
          | body r i =>
            rw [hat] at hwaits
            exact hwaits.elim
        rcases (serverStep_handover s.clients a stack).2 with ⟨-, -, hs⟩ | ⟨-, hsome, -⟩ |
          ⟨hat, -⟩ | ⟨hbusy, -⟩
        · refine Or.inr ⟨?_, hcalls⟩
          show ServerWaits (s.clients.serverStep a stack).1.server
          rw [hs]
          exact hwaits
        · refine Or.inl (List.mem_append_right _ ?_)
          show _ ∈ life s (.server a stack)
          rw [life, if_pos ⟨hwaits, hsome⟩]
          exact List.mem_singleton.mpr rfl
        · rw [hat] at hwaits
          exact hwaits.elim
        · exact absurd hwaits hbusy

/-! ## Runs -/

/-- If anything of the chip was called, a lease was found. -/
theorem leased_of_calls (s₀ : PortId → SocketData) {ls : List Label}
    (hcalls : (system s₀).trace ls ≠ []) : .leased ∈ (observed life s₀).trace ls := by
  have hcount := Mealy.trace_count_le_count (M := observed life s₀) owed .started .leased rfl
    owed_step ls
  rcases started_or_silent s₀ ls with hstarted | ⟨-, hsilent⟩
  · have hpos := List.count_pos_iff.mpr hstarted
    exact List.count_pos_iff.mp (by omega)
  · exact absurd hsilent hcalls

/-- **The server only starts on a lease.** In every run it has started at most
as often as a new lease was found; and if anything of the chip was called,
a lease was found. -/
theorem starts_on_leases (s₀ : PortId → SocketData) (ls : List Label) :
    ((observed life s₀).trace ls).count .started ≤ ((observed life s₀).trace ls).count .leased ∧
      ((system s₀).trace ls ≠ [] → .leased ∈ (observed life s₀).trace ls) := by
  have hcount := Mealy.trace_count_le_count (M := observed life s₀) owed .started .leased rfl
    owed_step ls
  exact ⟨by omega, leased_of_calls s₀⟩

end VentControl.System.Firmware
