/-
VentControl.Dhcp.LeaseTheorems — `server_run` against the events that
`dhcp_task` has seen.

The server should run exactly while there is a lease: while the last of
the events lease, failure and link loss is a lease. `RunsWithLease` says
so of a task at rest, for `server_run` and for `g_dhcp_get_ip_flag`.

The flag follows the events, but only a link loss clears `server_run`: the
branch for `DHCP_FAILED` clears the flag alone. So `server_run` says that
there was a lease since the last link loss (`LeasedSince`), and
`runsWithLease_iff` names the histories in which the two differ: the last
event is a failure that ended a lease. The task gives up after six such
failures, and then the server runs for good.
-/
import VentControl.Dhcp.Task

namespace VentControl.Dhcp

open Runs

/-! ## The specification -/

/-- At rest, the flag and `server_run` are set exactly when the last event
is a lease; so `server_run` is not set once the task has given up. -/
structure RunsWithLease (s : State) (events : List Event) : Prop where
  serverRun : s.serverData.serverRun = true ↔ s.locals.dhcpGetIpFlag = true
  flag : s.locals.dhcpGetIpFlag = true ↔ events.getLast? = some .leased
  gaveUp : s.locals.point = .gaveUp → s.serverData.serverRun = false

/-- There was a lease since the last link loss. -/
def LeasedSince (events : List Event) : Prop :=
  ∃ p q, events = p ++ .leased :: q ∧ .linkLost ∉ q

/-- The last event is a failure that ended a lease: the link was up since. -/
def LeaseFailed (events : List Event) : Prop :=
  events.getLast? = some .failed ∧ LeasedSince events

theorem not_leasedSince_nil : ¬ LeasedSince [] := by
  rintro ⟨p, q, he, -⟩
  simp at he

theorem leasedSince_concat {events : List Event} {e : Event} :
    LeasedSince (events ++ [e]) ↔ e = .leased ∨ (e ≠ .linkLost ∧ LeasedSince events) := by
  constructor
  · rintro ⟨p, q, he, hq⟩
    rcases split_concat he with ⟨-, hlast, -⟩ | ⟨q', rfl, he'⟩
    · exact Or.inl hlast.symm
    · simp only [List.mem_append, List.mem_singleton, not_or] at hq
      exact Or.inr ⟨Ne.symm hq.2, p, q', he', hq.1⟩
  · rintro (rfl | ⟨hne, p, q, rfl, hq⟩)
    · exact ⟨events, [], rfl, by simp⟩
    · exact ⟨p, q ++ [e], by simp, by simp [hq, Ne.symm hne]⟩

theorem leasedSince_of_leased {events : List Event} (h : events.getLast? = some .leased) :
    LeasedSince events := by
  obtain ⟨p, rfl⟩ := List.getLast?_eq_some_iff.mp h
  exact leasedSince_concat.mpr (Or.inl rfl)

theorem not_leasedSince_of_linkLost {events : List Event} (h : events.getLast? = some .linkLost) :
    ¬ LeasedSince events := by
  obtain ⟨p, rfl⟩ := List.getLast?_eq_some_iff.mp h
  simp [leasedSince_concat]

/-! ## The invariant -/

/-- What the task knows, at each point. Between a link loss and the next
`wizchip_dhcp_init` the flag is stale, and `server_run` lags behind the
events where the task is about to write it. -/
structure Knows (s : State) (events : List Event) : Prop where
  start : s.locals.point = .start → events = []
  flag : s.locals.point ≠ .linkOff → s.locals.point ≠ .waitLink →
    (s.locals.dhcpGetIpFlag = true ↔ events.getLast? = some .leased)
  lost : s.locals.point = .linkOff ∨ s.locals.point = .waitLink →
    events.getLast? = some .linkLost
  serverRun : s.locals.point ≠ .linkOff → s.locals.point ≠ .announce →
    (s.serverData.serverRun = true ↔ LeasedSince events)
  announces : s.locals.point = .announce → LeasedSince events
  retries : s.locals.point ≠ .check → s.locals.point ≠ .gaveUp →
    s.locals.dhcpRetry ≤ dhcpRetryCount
  retry : s.locals.dhcpRetry ≤ dhcpRetryCount ∨ events.getLast? = some .failed
  gaveUp : s.locals.point = .gaveUp → events.getLast? = some .failed

theorem knows_init : Knows task.init [] := by
  constructor <;> simp [task, Locals.init, not_leasedSince_nil]

/-- Where the flag and `server_run` say what the events say, once the task
has started. -/
def Point.Ordinary (p : Point) : Prop :=
  p ≠ .start ∧ p ≠ .linkOff ∧ p ≠ .waitLink ∧ p ≠ .announce

instance (p : Point) : Decidable p.Ordinary := by
  unfold Point.Ordinary
  infer_instance

theorem Knows.ordinary {s : State} {events : List Event} (h : Knows s events)
    (hp : s.locals.point.Ordinary) :
    (s.locals.dhcpGetIpFlag = true ↔ events.getLast? = some .leased) ∧
      (s.serverData.serverRun = true ↔ LeasedSince events) :=
  ⟨h.flag hp.2.1 hp.2.2.1, h.serverRun hp.2.1 hp.2.2.2⟩

section Ordinary

variable {p : Point} {retry : Nat} {flag : Bool} {d : ServerData} {events : List Event}

/-- At an ordinary point nothing else is to be known but the retries: there
were few, or the last event is a failure that is counted or was one too
many. -/
theorem knows_ordinary (hp : p.Ordinary)
    (hflag : flag = true ↔ events.getLast? = some .leased)
    (hserver : d.serverRun = true ↔ LeasedSince events)
    (hretry : retry ≤ dhcpRetryCount ∧ p ≠ .gaveUp ∨
      events.getLast? = some .failed ∧ (p = .check ∨ p = .gaveUp)) :
    Knows ⟨⟨p, retry, flag⟩, d⟩ events where
  start := fun hs => absurd hs hp.1
  flag := fun _ _ => hflag
  lost := fun hl => hl.elim (fun hoff => absurd hoff hp.2.1) (fun hwait => absurd hwait hp.2.2.1)
  serverRun := fun _ _ => hserver
  announces := fun ha => absurd ha hp.2.2.2
  retries := fun hcheck hgave =>
    hretry.elim (fun hfew => hfew.1) (fun hlast => absurd hlast.2 (by simp_all))
  retry := hretry.imp (fun hfew => hfew.1) (fun hlast => hlast.1)
  gaveUp := fun hgave => hretry.elim (fun hfew => absurd hgave hfew.2) (fun hlast => hlast.1)

theorem knows_few (hp : p.Ordinary) (hgave : p ≠ .gaveUp) (hfew : retry ≤ dhcpRetryCount)
    (hknown : (flag = true ↔ events.getLast? = some .leased) ∧
      (d.serverRun = true ↔ LeasedSince events)) :
    Knows ⟨⟨p, retry, flag⟩, d⟩ events :=
  knows_ordinary hp hknown.1 hknown.2 (Or.inl ⟨hfew, hgave⟩)

/-- Without a link the last event says so, and `server_run` is cleared before
the task waits. -/
theorem knows_lost (hp : p = .linkOff ∨ p = .waitLink ∧ d.serverRun = false)
    (hlast : events.getLast? = some .linkLost) (hfew : retry ≤ dhcpRetryCount) :
    Knows ⟨⟨p, retry, flag⟩, d⟩ events := by
  have hpoint : p = .linkOff ∨ p = .waitLink := hp.imp_right And.left
  exact {
    start := fun hs => by simp_all
    flag := fun hoff hwait => absurd hpoint (by simp_all)
    lost := fun _ => hlast
    serverRun := fun hoff _ => by
      rw [(hp.resolve_left hoff).2]
      exact iff_of_false Bool.false_ne_true (not_leasedSince_of_linkLost hlast)
    announces := fun ha => by simp_all
    retries := fun _ _ => hfew
    retry := Or.inl hfew
    gaveUp := fun hg => by simp_all }

end Ordinary

/-- What `DHCP_run` returned is an event, and the task knows it. -/
theorem Knows.handleResult {l : Locals} {d : ServerData} {events : List Event}
    (h : Knows ⟨l, d⟩ events) (hrun : l.point = .run) (result : DhcpRun) :
    Knows ⟨(handleResult l result).1, d⟩ (events ++ (handleResult l result).2) := by
  have hfew : l.dhcpRetry ≤ dhcpRetryCount := h.retries (by simp [hrun]) (by simp [hrun])
  have hknown := h.ordinary (show l.point.Ordinary by rw [hrun]; decide)
  cases result with
  | ipLeased =>
    by_cases hold : l.dhcpGetIpFlag = false
    · -- `server_run` is set by the step after this one
      rw [Dhcp.handleResult, if_pos hold]
      exact {
        start := fun hs => by cases hs
        flag := fun _ _ => by simp
        lost := fun hl => by simp at hl
        serverRun := fun _ hne => absurd rfl hne
        announces := fun _ => leasedSince_concat.mpr (Or.inl rfl)
        retries := fun _ _ => Nat.zero_le _
        retry := Or.inl (Nat.zero_le _)
        gaveUp := fun hg => by cases hg }
    · -- the address was leased before: nothing is announced
      rw [Dhcp.handleResult, if_neg hold]
      have hset : l.dhcpGetIpFlag = true := by simpa using hold
      have hsince : LeasedSince events := leasedSince_of_leased (hknown.1.mp hset)
      refine knows_few (by decide) (by decide) hfew ⟨by simp [hset], ?_⟩
      rw [hknown.2, leasedSince_concat]
      simp [hsince]
  | failed =>
    simp only [Dhcp.handleResult]
    refine knows_ordinary (by decide) (by simp) ?_ (Or.inr ⟨by simp, Or.inl rfl⟩)
    rw [hknown.2, leasedSince_concat]
    simp
  | other =>
    rw [Dhcp.handleResult, List.append_nil]
    exact knows_few (by decide) (by decide) hfew hknown
  | conflict =>
    rw [Dhcp.handleResult, List.append_nil]
    exact knows_few (by decide) (by decide) hfew hknown

/-- **Step lemma**: one step keeps what the task knows. -/
theorem Knows.step {s : State} {events : List Event} (h : Knows s events) (i : Input) :
    Knows (task.step s i).1 (events ++ (task.step s i).2) := by
  obtain ⟨⟨point, retry, flag⟩, d⟩ := s
  -- a step that emits nothing goes on with the same events
  have hquiet : ∀ {s'}, Knows s' events → Knows s' (events ++ []) := fun hs' => by
    rwa [List.append_nil]
  cases point with
  | start =>
    have hnil : events = [] := h.start rfl
    have hserver := h.serverRun (by simp) (by simp)
    refine hquiet (knows_few (by decide) (by decide) (h.retries (by simp) (by simp)) ⟨?_, hserver⟩)
    simp [hnil, wizchipDhcpInit]
  | top =>
    have hfew : retry ≤ dhcpRetryCount := h.retries (by simp) (by simp)
    have hknown := h.ordinary (show Point.top.Ordinary by decide)
    simp only [task, dhcpStep]
    split
    · exact knows_lost (Or.inl rfl) (by simp) hfew
    · exact hquiet (knows_few (by decide) (by decide) hfew hknown)
  | linkOff =>
    have hlast := h.lost (Or.inl rfl)
    have hfew : retry ≤ dhcpRetryCount := h.retries (by simp) (by simp)
    exact hquiet (knows_lost (Or.inr ⟨rfl, rfl⟩) hlast hfew)
  | waitLink =>
    have hlast := h.lost (Or.inr rfl)
    have hserver := h.serverRun (by simp) (by simp)
    simp only [task, dhcpStep]
    split
    · refine hquiet (knows_few (by decide) (by decide) (Nat.zero_le _) ⟨?_, hserver⟩)
      simp [hlast, wizchipDhcpInit]
    · exact hquiet h
  | run => exact h.handleResult rfl i.result
  | announce =>
    have hflag := h.flag (by simp) (by simp)
    have hsince := h.announces rfl
    exact hquiet (knows_few (by decide) (by decide) (h.retries (by simp) (by simp))
      ⟨hflag, by simp [hsince]⟩)
  | give =>
    have hfew : retry ≤ dhcpRetryCount := h.retries (by simp) (by simp)
    obtain ⟨hflag, hserver⟩ := h.ordinary (show Point.give.Ordinary by decide)
    exact hquiet (knows_few (by decide) (by decide) hfew ⟨hflag, by simpa using hserver⟩)
  | check =>
    have hknown := h.ordinary (show Point.check.Ordinary by decide)
    refine hquiet ?_
    simp only [task, dhcpStep]
    split
    · next hmany =>
      have hfailed : events.getLast? = some .failed :=
        h.retry.resolve_left (Nat.not_le_of_gt hmany)
      exact knows_ordinary (by decide) hknown.1 hknown.2 (Or.inr ⟨hfailed, Or.inr rfl⟩)
    · next hfew => exact knows_few (by decide) (by decide) (Nat.le_of_not_gt hfew) hknown
  | gaveUp => exact hquiet h
  | conflict => exact hquiet h

/-- **Run lemma**: what the task knows after every run. -/
theorem knows_run (is : List Input) : Knows (task.run is) (task.trace is) := by
  induction is using List.reverseRecOn with
  | nil => exact knows_init
  | append_singleton is i ih =>
    rw [Mealy.run_concat, Mealy.trace_concat]
    exact ih.step i

/-! ## The server runs with a lease -/

/-- A task at rest knows whether there is a lease, but `server_run` says
only that there was one since the last link loss. -/
theorem serverRun_of_rest (is : List Input) (hrest : (task.run is).locals.AtRest) :
    ((task.run is).locals.dhcpGetIpFlag = true ↔ (task.trace is).getLast? = some .leased) ∧
      ((task.run is).serverData.serverRun = true ↔ LeasedSince (task.trace is)) ∧
      ((task.run is).locals.point = .gaveUp → (task.trace is).getLast? = some .failed) := by
  have h := knows_run is
  have hpoints : (task.run is).locals.point ≠ .linkOff ∧ (task.run is).locals.point ≠ .waitLink ∧
      (task.run is).locals.point ≠ .announce := by
    rcases hrest with hp | hp <;> simp [hp]
  exact ⟨h.flag hpoints.1 hpoints.2.1, h.serverRun hpoints.1 hpoints.2.2, h.gaveUp⟩

/-- A lease since the last link loss is the last event, or something that
is neither a lease nor a link loss came after it. -/
theorem LeasedSince.last {events : List Event} (h : LeasedSince events) :
    events.getLast? = some .leased ∨ events.getLast? = some .failed := by
  obtain ⟨p, q, rfl, hq⟩ := h
  rcases List.eq_nil_or_concat q with rfl | ⟨q', e, rfl⟩
  · exact Or.inl (by simp)
  · have he : p ++ .leased :: q'.concat e = (p ++ .leased :: q') ++ [e] := by simp
    rw [he, List.getLast?_concat]
    cases e with
    | leased => exact Or.inl rfl
    | failed => exact Or.inr rfl
    | linkLost => simp at hq

/-- **The server runs with a lease**, in every run that leaves the task at
rest, exactly when the last event is not a failure that ended a lease. -/
theorem runsWithLease_iff (is : List Input) (hrest : (task.run is).locals.AtRest) :
    RunsWithLease (task.run is) (task.trace is) ↔ ¬ LeaseFailed (task.trace is) := by
  obtain ⟨hflag, hserver, hgaveUp⟩ := serverRun_of_rest is hrest
  constructor
  · rintro ⟨hrun, hlast, -⟩ ⟨hfailed, hsince⟩
    have hleased := hlast.mp (hrun.mp (hserver.mpr hsince))
    simp [hfailed] at hleased
  · intro hok
    have hsame : (task.trace is).getLast? = some .leased ↔ LeasedSince (task.trace is) := by
      refine ⟨leasedSince_of_leased, fun hsince => ?_⟩
      rcases hsince.last with hlast | hfailed
      · exact hlast
      · exact absurd ⟨hfailed, hsince⟩ hok
    refine ⟨by rw [hserver, hflag, hsame], hflag, fun hpoint => ?_⟩
    have hfailed := hgaveUp hpoint
    have hnot : ¬ LeasedSince (task.trace is) := fun hsince => hok ⟨hfailed, hsince⟩
    simpa [← hserver] using hnot

/-- The steps of an iteration with the link up, in which `DHCP_run` returns
`result`, up to the check of `dhcp_retry`. -/
def iteration (result : DhcpRun) : List Input :=
  List.replicate (if result = .ipLeased then 5 else 3) ⟨.on, result⟩

/-- A lease, and then six failures. -/
def leaseAndGiveUp : List Input :=
  ⟨.on, .other⟩ :: (.ipLeased :: List.replicate 6 .failed).flatMap iteration

theorem runsWithLease_iff_leased :
    RunsWithLease (task.run (⟨.on, .other⟩ :: iteration .ipLeased))
      (task.trace (⟨.on, .other⟩ :: iteration .ipLeased)) :=
  (runsWithLease_iff _ (by decide)).mpr (by
    rintro ⟨hfailed, -⟩
    revert hfailed
    decide)

/-- After a lease and six failures the task has given up, and the server
still runs. -/
theorem runs_without_lease :
    (task.run leaseAndGiveUp).locals.point = .gaveUp ∧
      (task.run leaseAndGiveUp).serverData.serverRun = true ∧
      ¬ RunsWithLease (task.run leaseAndGiveUp) (task.trace leaseAndGiveUp) := by
  refine ⟨by decide, by decide, fun h => ?_⟩
  have hstopped := h.gaveUp (by decide)
  revert hstopped
  decide

end VentControl.Dhcp
