/-
VentControl.Dhcp.Timer — the clock of the DHCP library: `main.c` and
`timer.c`.

A hardware timer calls `wizchip_1ms_timer_callback` every millisecond,
which calls `repeating_timer_callback`. That counts the milliseconds in
`g_msec_cnt` and is to call `DHCP_time_handler` once in a second. But the
count is compared after it was incremented, with `1000 - 1`: a second has
999 milliseconds (`handlerCalls_eq`), and the clock runs ahead of the time
without bound (`handlerCalls_ahead`).

`wizchip_1ms_timer_callback` has no `return`, although it is declared to
return a `bool`. What the timer of the SDK does with that is not in the
repository; here the callback is called as often as it is called.
-/
import VentControl.Lib.Divider
import Mathlib.Algebra.GroupWithZero.Nat
import Mathlib.Data.List.Forall2

namespace VentControl.Dhcp

open Runs Divider

/-! ## The callbacks -/

/-- What the callback calls. -/
inductive TimerCall
  | dhcpTimeHandler
  deriving DecidableEq, Repr

/-- `repeating_timer_callback`, with the value of `g_msec_cnt`, which is a
`uint32_t`. -/
def repeatingTimerCallback (msecCnt : Nat) : Nat × List TimerCall :=
  let msecCnt := (msecCnt + 1) % 2 ^ 32
  if msecCnt ≥ 1000 - 1 then (0, [.dhcpTimeHandler]) else (msecCnt, [])

/-- `wizchip_1ms_timer_callback`, with what `callback_ptr` points to. -/
def wizchip1msTimerCallback (callbackPtr : Option (Nat → Nat × List TimerCall)) (msecCnt : Nat) :
    Nat × List TimerCall :=
  match callbackPtr with
  | some callback => callback msecCnt
  | none => (msecCnt, [])

/-- The timer after `wizchip_1ms_timer_initialize` in `main`. -/
def timer : Mealy Nat Unit TimerCall where
  init := 0
  step msecCnt _ := wizchip1msTimerCallback (some repeatingTimerCallback) msecCnt

/-- How often `DHCP_time_handler` was called in the first `n` calls of the
callback. -/
def handlerCalls (n : Nat) : Nat := (timer.trace (List.replicate n ())).count .dhcpTimeHandler

/-! ## The clock -/

/-- Below 999 the callback divides by 999: the count does not wrap. -/
theorem repeatingTimerCallback_eq {c : Nat} (hc : c < 999) (tick : Unit) :
    repeatingTimerCallback c = (divider 999 TimerCall.dhcpTimeHandler).step c tick := by
  have hcount : (c + 1) % 2 ^ 32 = c + 1 := Nat.mod_eq_of_lt (by omega)
  simp only [repeatingTimerCallback, hcount]
  rfl

/-- The timer is a divider by 999. -/
theorem timer_trace (ticks : List Unit) :
    timer.trace ticks = (divider 999 TimerCall.dhcpTimeHandler).trace ticks := by
  have hstep : ∀ c c' t t', (c = c' ∧ c < 999) → t = t' →
      (((divider 999 TimerCall.dhcpTimeHandler).step c t).1 = (timer.step c' t').1 ∧
        ((divider 999 TimerCall.dhcpTimeHandler).step c t).1 < 999) ∧
      (timer.step c' t').2 = ((divider 999 TimerCall.dhcpTimeHandler).step c t).2 := by
    rintro c _ t _ ⟨rfl, hc⟩ rfl
    have hsame : timer.step c t = (divider 999 TimerCall.dhcpTimeHandler).step c t :=
      repeatingTimerCallback_eq hc t
    rw [hsame]
    exact ⟨⟨rfl, divider_step_lt (by decide) _ c t⟩, rfl⟩
  exact (Mealy.traceFrom_eq_of_related (A := Eq) (R := fun c c' => c = c' ∧ c < 999) hstep
    (List.forall₂_refl ticks) ⟨rfl, by decide⟩).2

/-- A second of the DHCP clock has 999 milliseconds. -/
theorem handlerCalls_eq (n : Nat) : handlerCalls n = n / 999 := by
  have htrace : timer.trace (List.replicate n ()) =
      List.replicate (n / 999) TimerCall.dhcpTimeHandler := by
    rw [timer_trace, Mealy.trace, divider_traceFrom _ _ (by decide)]
    simp [divider]
  rw [handlerCalls, htrace, List.count_replicate_self]

/-- By how many seconds the DHCP clock is ahead after `n` milliseconds. -/
theorem handlerCalls_ahead (n : Nat) :
    handlerCalls n = n / 1000 + (n / 1000 + n % 1000) / 999 := by
  rw [handlerCalls_eq]
  exact div_eq_div_succ_add (by decide) n

/-- **The DHCP clock ticks once per second** exactly as long as the seconds
and the milliseconds of the time are together fewer than 999. -/
theorem dhcp_clock_iff (n : Nat) : handlerCalls n = n / 1000 ↔ n / 1000 + n % 1000 < 999 := by
  rw [handlerCalls_eq]
  exact div_eq_div_succ_iff (by decide) n

/-- The first tick comes after 999 milliseconds. -/
theorem dhcp_clock_early : handlerCalls 999 = 1 ∧ 999 / 1000 = 0 := by
  rw [handlerCalls_eq]
  decide

end VentControl.Dhcp
