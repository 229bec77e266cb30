/-
VentControl.Dhcp.RetryTheorems — when `dhcp_task` gives up.

The specification looks at what the iterations of the outer loop have
seen: that the link was off, and what each `DHCP_run` returned. `failures`
counts the `DHCP_FAILED` since the task started, the link was off or a
lease was returned. The task gives up at the end of an iteration exactly
when its own `DHCP_run` was the sixth of these (`gives_up_iff`).

`dhcp_retry` is that count, although a lease only clears it when
`g_dhcp_get_ip_flag` is 0: while the flag is set nothing has failed since
the last lease (`Retries.flag`).
-/
import Mathlib.Data.List.DropRight
import VentControl.Dhcp.Task

namespace VentControl.Dhcp

open Runs

/-! ## The specification -/

/-- What an iteration of the outer loop sees. -/
inductive Seen
  | linkOff
  | ran (result : DhcpRun)
  deriving DecidableEq, Repr

/-- What a step sees: the link at the top of the loop, and what `DHCP_run`
returns. -/
def Locals.sees (l : Locals) (i : Input) : List Seen :=
  match l.point with
  | .top => if i.link = .off then [.linkOff] else []
  | .run => [.ran i.result]
  | _ => []

/-- `dhcp_task`, with what it sees as its outputs. -/
def observed : Mealy State Input Seen where
  init := task.init
  step s i := ((task.step s i).1, s.locals.sees i)

theorem observed_run (is : List Input) : observed.run is = task.run is := by
  induction is using List.reverseRecOn with
  | nil => rfl
  | append_singleton is i ih =>
    rw [Mealy.run_concat, Mealy.run_concat, ih]
    rfl

/-- From here failures are counted anew. -/
def Seen.restarts : Seen → Bool
  | .linkOff => true
  | .ran .ipLeased => true
  | _ => false

/-- How many `DHCP_FAILED` there were since the task started, the link was
off or a lease was returned, whichever was last. -/
def failures (seen : List Seen) : Nat :=
  (seen.rtakeWhile fun o => !o.restarts).count (.ran .failed)

/-- The step parks the task in the loop after `DHCP failed`. -/
def Parks (s : State) (i : Input) : Prop :=
  s.locals.point ≠ .gaveUp ∧ (task.step s i).1.locals.point = .gaveUp

@[simp] theorem failures_nil : failures [] = 0 := rfl

theorem failures_restart {seen : List Seen} {o : Seen} (ho : o.restarts = true) :
    failures (seen ++ [o]) = 0 := by
  rw [failures, List.rtakeWhile_concat_neg]
  · rfl
  · simp [ho]

theorem failures_concat {seen : List Seen} {o : Seen} (ho : o.restarts = false) :
    failures (seen ++ [o]) = failures seen + if o = .ran .failed then 1 else 0 := by
  rw [failures, List.rtakeWhile_concat_pos _ _ _ (by simp [ho]), List.count_append,
    List.count_singleton, ← failures]
  simp

/-! ## The invariant -/

/-- `dhcp_retry` is the number of failures, but for the time without a link.
Only at the end of an iteration can there be too many, and then it is its
own `DHCP_run` that failed. -/
structure Retries (s : State) (seen : List Seen) : Prop where
  count : s.locals.point ≠ .linkOff → s.locals.point ≠ .waitLink →
    s.locals.dhcpRetry = failures seen
  lost : s.locals.point = .linkOff ∨ s.locals.point = .waitLink → failures seen = 0
  flag : s.locals.dhcpGetIpFlag = true → failures seen = 0
  few : s.locals.point ≠ .check → s.locals.point ≠ .gaveUp → failures seen ≤ dhcpRetryCount
  last : s.locals.point = .check → dhcpRetryCount < failures seen →
    failures seen = dhcpRetryCount + 1 ∧ seen.getLast? = some (.ran .failed)

theorem retries_init : Retries task.init [] := by
  constructor <;> simp [task, Locals.init]

section Few

variable {p : Point} {retry : Nat} {flag : Bool} {d : ServerData} {seen : List Seen}

/-- Where there is a link and the failures are few nothing else is to be
known. -/
theorem retries_few (hoff : p ≠ .linkOff) (hwait : p ≠ .waitLink) (hcount : retry = failures seen)
    (hflag : flag = true → failures seen = 0) (hfew : failures seen ≤ dhcpRetryCount) :
    Retries ⟨⟨p, retry, flag⟩, d⟩ seen where
  count := fun _ _ => hcount
  lost := fun hp => hp.elim (fun h => absurd h hoff) (fun h => absurd h hwait)
  flag := hflag
  few := fun _ _ => hfew
  last := fun _ hmany => absurd hfew (Nat.not_le_of_gt hmany)

/-- Without a link there is nothing to count. -/
theorem retries_lost (hp : p = .linkOff ∨ p = .waitLink) (hnone : failures seen = 0) :
    Retries ⟨⟨p, retry, flag⟩, d⟩ seen where
  count := fun hoff hwait => absurd hp (by simp_all)
  lost := fun _ => hnone
  flag := fun _ => hnone
  few := fun _ _ => hnone ▸ Nat.zero_le _
  last := fun _ hmany => by omega

end Few

/-- What `DHCP_run` returned is counted. -/
theorem Retries.handleResult {l : Locals} {d : ServerData} {seen : List Seen}
    (h : Retries ⟨l, d⟩ seen) (hrun : l.point = .run) (result : DhcpRun) :
    Retries ⟨(handleResult l result).1, d⟩ (seen ++ [.ran result]) := by
  have hcount : l.dhcpRetry = failures seen := h.count (by simp [hrun]) (by simp [hrun])
  have hfew : failures seen ≤ dhcpRetryCount := h.few (by simp [hrun]) (by simp [hrun])
  cases result with
  | ipLeased =>
    have hzero : failures (seen ++ [.ran .ipLeased]) = 0 := failures_restart rfl
    simp only [Dhcp.handleResult]
    split
    · exact retries_few (by simp) (by simp) hzero.symm (fun _ => hzero) (hzero ▸ Nat.zero_le _)
    · next hset =>
      -- `dhcp_retry` is not cleared, but it is 0
      have hnone : failures seen = 0 := h.flag (by simpa using hset)
      exact retries_few (by simp) (by simp) (hcount.trans (hnone.trans hzero.symm))
        (fun _ => hzero) (hzero ▸ Nat.zero_le _)
  | failed =>
    have hone : failures (seen ++ [.ran .failed]) = failures seen + 1 := failures_concat rfl
    exact {
      count := fun _ _ => by rw [hone, ← hcount]; rfl
      lost := fun hp => by simp [Dhcp.handleResult] at hp
      flag := fun hset => by simp [Dhcp.handleResult] at hset
      few := fun hcheck _ => absurd rfl hcheck
      last := fun _ hmany => ⟨by omega, by simp⟩ }
  | other =>
    have hsame : failures (seen ++ [.ran .other]) = failures seen := failures_concat rfl
    refine retries_few (by simp) (by simp) (hcount.trans hsame.symm) (fun hset => ?_)
      (hsame ▸ hfew)
    rw [hsame]
    exact h.flag hset
  | conflict =>
    have hsame : failures (seen ++ [.ran .conflict]) = failures seen := failures_concat rfl
    refine retries_few (by simp) (by simp) (hcount.trans hsame.symm) (fun hset => ?_)
      (hsame ▸ hfew)
    rw [hsame]
    exact h.flag hset

/-- **Step lemma.** -/
theorem Retries.step {s : State} {seen : List Seen} (h : Retries s seen) (i : Input) :
    Retries (task.step s i).1 (seen ++ s.locals.sees i) := by
  obtain ⟨⟨point, retry, flag⟩, d⟩ := s
  -- a step that sees nothing
  have hquiet : ∀ {s'}, Retries s' seen → Retries s' (seen ++ []) := fun hs' => by
    rwa [List.append_nil]
  cases point with
  | start =>
    exact hquiet (retries_few (by simp) (by simp) (h.count (by simp) (by simp))
      (fun hset => by simp [wizchipDhcpInit] at hset) (h.few (by simp) (by simp)))
  | top =>
    simp only [task, dhcpStep, Locals.sees]
    split
    · exact retries_lost (Or.inl rfl) (failures_restart rfl)
    · exact hquiet (retries_few (by simp) (by simp) (h.count (by simp) (by simp)) h.flag
        (h.few (by simp) (by simp)))
  | linkOff => exact hquiet (retries_lost (Or.inr rfl) (h.lost (Or.inl rfl)))
  | waitLink =>
    have hnone := h.lost (Or.inr rfl)
    simp only [task, dhcpStep, Locals.sees]
    split
    · exact hquiet (retries_few (by simp) (by simp) hnone.symm (fun _ => hnone)
        (hnone ▸ Nat.zero_le _))
    · exact hquiet h
  | run => exact h.handleResult rfl i.result
  | announce =>
    exact hquiet (retries_few (by simp) (by simp) (h.count (by simp) (by simp)) h.flag
      (h.few (by simp) (by simp)))
  | give =>
    exact hquiet (retries_few (by simp) (by simp) (h.count (by simp) (by simp)) h.flag
      (h.few (by simp) (by simp)))
  | check =>
    have hcount : retry = failures seen := h.count (by simp) (by simp)
    simp only [task, dhcpStep, Locals.sees]
    split
    · exact hquiet {
        count := fun _ _ => hcount
        lost := fun hp => by simp at hp
        flag := h.flag
        few := fun _ hgave => absurd rfl hgave
        last := fun hp => by simp at hp }
    · next hfew =>
      exact hquiet (retries_few (by simp) (by simp) hcount h.flag (by omega))
  | gaveUp => exact hquiet h
  | conflict => exact hquiet h

/-- **Run lemma.** -/
theorem retries_run (is : List Input) : Retries (task.run is) (observed.trace is) := by
  induction is using List.reverseRecOn with
  | nil => exact retries_init
  | append_singleton is i ih =>
    rw [Mealy.run_concat, Mealy.trace_concat, observed_run]
    exact ih.step i

/-! ## Giving up -/

/-- The task parks at the end of an iteration only. -/
theorem parks_iff (s : State) (i : Input) :
    Parks s i ↔ s.locals.point = .check ∧ dhcpRetryCount < s.locals.dhcpRetry := by
  obtain ⟨⟨point, retry, flag⟩, d⟩ := s
  cases point with
  | check =>
    simp only [Parks, task, dhcpStep]
    split
    · next hmany => exact iff_of_true ⟨by simp, rfl⟩ ⟨trivial, hmany⟩
    · next hfew => exact iff_of_false (by simp) fun hmany => hfew hmany.2
  | run =>
    -- `DHCP_run` can stop the task, but not park it
    refine iff_of_false ?_ (by simp)
    simp only [Parks, task, dhcpStep, handleResult]
    cases i.result with
    | ipLeased => simp only; split <;> simp
    | _ => simp
  | top =>
    simp only [Parks, task, dhcpStep]
    split <;> simp
  | waitLink =>
    simp only [Parks, task, dhcpStep]
    split <;> simp
  | _ => simp [Parks, task, dhcpStep]

/-- **`dhcp_task` gives up** in a step of a run exactly when the step ends
an iteration, whose `DHCP_run` is the last thing that was seen and returned
`DHCP_FAILED`, for the sixth time since the start of the task, a link that
was off, or a lease. -/
theorem gives_up_iff (is : List Input) (i : Input) :
    Parks (task.run is) i ↔ (task.run is).locals.point = .check ∧
      (observed.trace is).getLast? = some (.ran .failed) ∧
      failures (observed.trace is) = dhcpRetryCount + 1 := by
  have h := retries_run is
  rw [parks_iff]
  refine and_congr_right fun hcheck => ?_
  have hcount := h.count (by simp [hcheck]) (by simp [hcheck])
  rw [hcount]
  constructor
  · intro hmany
    exact (h.last hcheck hmany).symm
  · rintro ⟨-, hsix⟩
    omega

end VentControl.Dhcp
