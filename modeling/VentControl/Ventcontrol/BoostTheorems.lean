/-
VentControl.Ventcontrol.BoostTheorems — the speed arbitration against a
specification that knows two things: the speed the user asked for, and
whether boost is engaged.

The specification reads both off the history of turns. The task keeps no
such flag: `boostSpeed` is overwritten by boost events (with 2 or 1) and
by commands (with the requested speed), and the larger of the two speeds
wins. `boostSpeed_run` says what the variable holds in terms of the
history, and `boost_ends_where_it_began_iff` compares the two: they agree
unless the last boost event switched boost off, no command changed the
speed since, and the requested speed is below `NORMAL_SPEED`. Then the
fan runs at `NORMAL_SPEED` although the user asked for 0.

A command resets the boost only if it changes the requested speed; one
that repeats it is ignored (`speed_command`).
-/
import VentControl.Ventcontrol.Task

namespace VentControl.Ventcontrol

open Runs

/-! ## The specification -/

/-- The requested speed after a turn: the value of its `MSG_SET_SPEED`, if
it took one. -/
def requestAfter (r : Int) (i : Turn) : Int :=
  match i.message with
  | some ⟨_, v, .setSpeed⟩ => v
  | _ => r

/-- The value of the last `MSG_SET_SPEED` taken, 1 if none was. -/
def requestedSpeedOf (h : List Turn) : Int := h.foldl requestAfter 1

/-- The turn takes a `MSG_SET_SPEED` with a value different from the speed
requested so far. -/
def ChangesSpeed (h : List Turn) (i : Turn) : Prop :=
  ∃ m, i.message = some m ∧ m.messageType = .setSpeed ∧ m.value ≠ requestedSpeedOf h

/-- The last boost event taken was `b`, and no command changed the speed in
a later turn. -/
def LastBoost (b : Bool) (h : List Turn) : Prop :=
  ∃ p i q, h = p ++ i :: q ∧ i.boost = some b ∧ (∀ j ∈ q, j.boost = none) ∧
    EachStep (fun q' j => ¬ ChangesSpeed (p ++ i :: q') j) q

/-- Boost is engaged. -/
def Engaged (h : List Turn) : Prop := LastBoost true h

/-- Boost was switched off, and no command changed the speed since. -/
def Released (h : List Turn) : Prop := LastBoost false h

/-- The speed of the fan after a run is the one the specification asks
for. -/
def AsSpecified (h : List Turn) : Prop :=
  (Engaged h → (task.run h).actualSpeed = max boostSpeedOn (requestedSpeedOf h)) ∧
  (¬ Engaged h → (task.run h).actualSpeed = requestedSpeedOf h)

/-! ## The specification, one turn at a time -/

theorem requestedSpeedOf_concat (h : List Turn) (i : Turn) :
    requestedSpeedOf (h ++ [i]) = requestAfter (requestedSpeedOf h) i := by
  simp [requestedSpeedOf]

theorem LastBoost.nil (b : Bool) : ¬ LastBoost b [] := by
  rintro ⟨p, i, q, he, -⟩
  simp at he

/-- A boost event decides; without one the last event keeps its say unless
the turn changes the speed. -/
theorem LastBoost.concat_iff {b : Bool} {h : List Turn} {i : Turn} :
    LastBoost b (h ++ [i]) ↔
      i.boost = some b ∨ (i.boost = none ∧ LastBoost b h ∧ ¬ ChangesSpeed h i) := by
  constructor
  · rintro ⟨p, j, q, he, hj, hq, hstep⟩
    rcases List.eq_nil_or_concat q with rfl | ⟨q, k, rfl⟩
    · obtain ⟨-, hij⟩ := List.append_inj' he rfl
      simp only [List.cons.injEq, and_true] at hij
      exact Or.inl (hij ▸ hj)
    · rw [List.concat_eq_append] at he hq hstep
      have he' : h ++ [i] = (p ++ j :: q) ++ [k] := by simpa using he
      obtain ⟨rfl, hik⟩ := List.append_inj' he' rfl
      simp only [List.cons.injEq, and_true] at hik
      subst hik
      obtain ⟨hstep, hlast⟩ := EachStep.concat_iff.mp hstep
      exact Or.inr ⟨hq i (by simp), ⟨p, j, q, rfl, hj, fun k hk => hq k (by simp [hk]), hstep⟩,
        hlast⟩
  · rintro (hb | ⟨hnone, ⟨p, j, q, rfl, hj, hq, hstep⟩, hkeep⟩)
    · exact ⟨h, i, [], rfl, hb, by simp, EachStep.nil _⟩
    · refine ⟨p, j, q ++ [i], by simp, hj, ?_, EachStep.concat_iff.mpr ⟨hstep, hkeep⟩⟩
      intro k hk
      rcases List.mem_append.mp hk with hk | hk
      · exact hq k hk
      · rw [List.mem_singleton.mp hk]
        exact hnone

/-- Boost is not engaged and released at once. -/
theorem not_engaged_and_released (h : List Turn) : ¬ (Engaged h ∧ Released h) := by
  induction h using List.reverseRecOn with
  | nil => exact fun he => LastBoost.nil _ he.1
  | append_singleton h i ih =>
    rintro ⟨he, hr⟩
    rcases LastBoost.concat_iff.mp he with h1 | ⟨h1, h1', -⟩ <;>
      rcases LastBoost.concat_iff.mp hr with h2 | ⟨h2, h2', -⟩
    · simp [h1] at h2
    · simp [h1] at h2
    · simp [h1] at h2
    · exact ih ⟨h1', h2'⟩

/-! ## What the task's variables hold -/

/-- The first half of a turn: a command that changes the speed sets both
variables, anything else neither. -/
theorem ventcontrolMessage_request (s : Locals) (i : Turn) :
    (ventcontrolMessage s i.message).1.requestedSpeed = requestAfter s.requestedSpeed i := by
  obtain ⟨m, b⟩ := i
  rcases m with _ | ⟨c, v, ty⟩
  · rfl
  · cases ty <;> try rfl
    simp only [ventcontrolMessage, requestAfter]
    split
    · rfl
    · next h => exact not_not.mp h

theorem ventcontrolMessage_boostSpeed_of_changes {s : Locals} {h : List Turn} {i : Turn}
    (hs : s.requestedSpeed = requestedSpeedOf h) (hc : ChangesSpeed h i) :
    (ventcontrolMessage s i.message).1.boostSpeed = requestAfter s.requestedSpeed i := by
  obtain ⟨m, b⟩ := i
  obtain ⟨⟨c, v, ty⟩, hm, hty, hv⟩ := hc
  simp only at hm hty hv
  subst hm hty
  have hne : s.requestedSpeed ≠ v := fun he => hv (by rw [← hs, he])
  simp [ventcontrolMessage, requestAfter, hne]

theorem ventcontrolMessage_of_not_changes {s : Locals} {h : List Turn} {i : Turn}
    (hs : s.requestedSpeed = requestedSpeedOf h) (hc : ¬ ChangesSpeed h i) :
    (ventcontrolMessage s i.message).1.boostSpeed = s.boostSpeed ∧
      requestAfter s.requestedSpeed i = s.requestedSpeed := by
  obtain ⟨m, b⟩ := i
  rcases m with _ | ⟨c, v, ty⟩
  · exact ⟨rfl, rfl⟩
  · cases ty <;> try exact ⟨rfl, rfl⟩
    have hv : v = s.requestedSpeed := by
      by_contra hne
      exact hc ⟨⟨c, v, .setSpeed⟩, rfl, rfl, by rwa [← hs]⟩
    subst hv
    simp [ventcontrolMessage, requestAfter]

theorem requestedSpeed_run (h : List Turn) :
    (task.run h).requestedSpeed = requestedSpeedOf h := by
  induction h using List.reverseRecOn with
  | nil => rfl
  | append_singleton h i ih =>
    rw [run_concat, ventcontrolTurn_fst, ventcontrolBoost_requestedSpeed,
      ventcontrolMessage_request, ih, requestedSpeedOf_concat]

/-- `boostSpeed` in terms of the history: the boost level of the last boost
event, or the requested speed once a command has changed that. -/
theorem boostSpeed_run (h : List Turn) :
    (Engaged h → (task.run h).boostSpeed = boostSpeedOn) ∧
    (Released h → (task.run h).boostSpeed = normalSpeed) ∧
    (¬ Engaged h → ¬ Released h → (task.run h).boostSpeed = requestedSpeedOf h) := by
  induction h using List.reverseRecOn with
  | nil =>
    exact ⟨fun he => absurd he (LastBoost.nil _), fun he => absurd he (LastBoost.nil _),
      fun _ _ => rfl⟩
  | append_singleton h i ih =>
    obtain ⟨ihE, ihR, ihN⟩ := ih
    have hreq := requestedSpeed_run h
    rw [run_concat, ventcontrolTurn_fst, ventcontrolBoost_boostSpeed, requestedSpeedOf_concat,
      ← hreq]
    simp only [Engaged, Released, LastBoost.concat_iff] at ihE ihR ihN ⊢
    cases hb : i.boost with
    | some b => cases b <;> simp [takeBoost]
    | none =>
      by_cases hc : ChangesSpeed h i
      · have hset := ventcontrolMessage_boostSpeed_of_changes hreq hc
        simpa [takeBoost, hc] using hset
      · obtain ⟨hkeep, hsame⟩ := ventcontrolMessage_of_not_changes hreq hc
        rw [hsame, hreq]
        simpa [takeBoost, hc, hkeep] using ⟨ihE, ihR, ihN⟩

/-- After every turn the fan runs at the larger of the two speeds. -/
theorem actualSpeed_run (h : List Turn) (i : Turn) :
    (task.run (h ++ [i])).actualSpeed =
      max (task.run (h ++ [i])).boostSpeed (requestedSpeedOf (h ++ [i])) := by
  rw [← requestedSpeed_run, run_concat, ventcontrolTurn_fst, ventcontrolBoost_actualSpeed,
    wantedSpeed_eq_max, ventcontrolBoost_boostSpeed, ventcontrolBoost_requestedSpeed,
    takeBoost_requestedSpeed]

/-- **Boost ends where it began**, after every turn of every run, except
when boost was switched off, no command changed the speed since, and the
requested speed is below `NORMAL_SPEED`. -/
theorem boost_ends_where_it_began_iff (h : List Turn) (i : Turn) :
    AsSpecified (h ++ [i]) ↔
      ¬ (Released (h ++ [i]) ∧ requestedSpeedOf (h ++ [i]) < normalSpeed) := by
  obtain ⟨hE, hR, hN⟩ := boostSpeed_run (h ++ [i])
  have hact := actualSpeed_run h i
  unfold AsSpecified
  by_cases he : Engaged (h ++ [i])
  · have hr : ¬ Released (h ++ [i]) := fun hr => not_engaged_and_released _ ⟨he, hr⟩
    simp [he, hr, hact, hE he]
  · by_cases hr : Released (h ++ [i])
    · have hboost := hR hr
      simp only [he, hr, hact, hboost, false_implies, true_implies, not_false_eq_true, true_and]
      omega
    · have hboost := hN he hr
      simp [he, hr, hact, hboost]

/-- The user asks for 0, boost goes on and off again: the fan ends at 1. -/
def zeroOnOff : List Turn :=
  [⟨some ⟨2, 0, .setSpeed⟩, none⟩, ⟨none, some true⟩, ⟨none, some false⟩]

theorem boost_ends_elsewhere_zeroOnOff :
    requestedSpeedOf zeroOnOff = 0 ∧ (task.run zeroOnOff).actualSpeed = 1 ∧
      ¬ AsSpecified zeroOnOff := by
  refine ⟨by decide, by decide, fun h => ?_⟩
  have hoff : ¬ Engaged zeroOnOff := by
    rw [show zeroOnOff = zeroOnOff.take 2 ++ [⟨none, some false⟩] from rfl, Engaged,
      LastBoost.concat_iff]
    simp
  have hbad := h.2 hoff
  revert hbad
  decide

/-! ## The last boost event -/

/-- The last boost event taken in a run. -/
def lastEvent (h : List Turn) : Option Bool := (h.filterMap Turn.boost).getLast?

/-- A command changed the speed in a turn after the one that took the last
boost-on event. -/
def ChangedSinceOn (h : List Turn) : Prop :=
  ∃ p i q, h = p ++ i :: q ∧ i.boost = some true ∧ (∀ j ∈ q, j.boost ≠ some true) ∧
    ∃ q₁ j q₂, q = q₁ ++ j :: q₂ ∧ ChangesSpeed (p ++ i :: q₁) j

theorem lastEvent_concat (h : List Turn) (i : Turn) :
    lastEvent (h ++ [i]) = i.boost.or (lastEvent h) := by
  rcases hb : i.boost with _ | b <;> simp [lastEvent, hb]

theorem LastBoost.lastEvent {b : Bool} {h : List Turn} (hl : LastBoost b h) :
    lastEvent h = some b := by
  induction h using List.reverseRecOn with
  | nil => exact absurd hl (LastBoost.nil b)
  | append_singleton h i ih =>
    rw [lastEvent_concat]
    rcases LastBoost.concat_iff.mp hl with hb | ⟨hb, hl', -⟩
    · simp [hb]
    · simp [hb, ih hl']

/-- When the last event was on, boost is engaged or a command changed the
speed since, and not both. -/
theorem engaged_iff_of_lastEvent {h : List Turn} (hl : lastEvent h = some true) :
    Engaged h ↔ ¬ ChangedSinceOn h := by
  constructor
  · rintro ⟨p, i, q, he, hi, hq, hstep⟩ ⟨p', i', q', he', hi', hq', q₁, j, q₂, hqs, hch⟩
    have hq'' : ∀ j ∈ q, j.boost ≠ some true := fun j hj => by simp [hq j hj]
    obtain ⟨rfl, rfl, rfl⟩ :=
      split_last_unique (P := fun j : Turn => j.boost = some true) he he' hi hi' hq'' hq'
    exact hstep q₁ j q₂ hqs hch
  · intro hno
    have hex : ∃ i ∈ h, i.boost ≠ none := by
      obtain ⟨i, hi, hb⟩ := List.mem_filterMap.mp (List.mem_of_getLast? hl)
      exact ⟨i, hi, by simp [hb]⟩
    obtain ⟨p, i, q, rfl, hi, hq⟩ := exists_split_last hex
    have hq' : ∀ j ∈ q, j.boost = none := fun j hj => not_not.mp (hq j hj)
    have hfq : q.filterMap Turn.boost = [] := List.filterMap_eq_nil_iff.mpr hq'
    obtain ⟨b, hb⟩ := Option.ne_none_iff_exists'.mp hi
    have hib : i.boost = some true := by
      rw [hb]
      simpa [lastEvent, List.filterMap_append, hb, hfq] using hl
    refine ⟨p, i, q, rfl, hib, hq', fun q₁ j q₂ hqs hch => hno ?_⟩
    exact ⟨p, i, q, rfl, hib, fun j hj => by simp [hq' j hj], q₁, j, q₂, hqs, hch⟩

/-- The speed of the fan after a run of at least one turn, by the last
boost event and what the clients did since. -/
theorem actualSpeed_of_lastEvent {h : List Turn} (hne : h ≠ []) :
    (lastEvent h = some true → ¬ ChangedSinceOn h →
      (task.run h).actualSpeed = max 2 (requestedSpeedOf h)) ∧
    (lastEvent h = some true → ChangedSinceOn h →
      (task.run h).actualSpeed = requestedSpeedOf h) ∧
    (lastEvent h ≠ some true →
      requestedSpeedOf h ≤ (task.run h).actualSpeed ∧
      (task.run h).actualSpeed ≤ max 1 (requestedSpeedOf h)) := by
  obtain ⟨hE, hR, hN⟩ := boostSpeed_run h
  have hact : (task.run h).actualSpeed = max (task.run h).boostSpeed (requestedSpeedOf h) := by
    rcases List.eq_nil_or_concat h with rfl | ⟨h, i, rfl⟩
    · exact absurd rfl hne
    · rw [List.concat_eq_append]
      exact actualSpeed_run h i
  refine ⟨fun hl hno => ?_, fun hl hch => ?_, fun hl => ?_⟩
  · have he := (engaged_iff_of_lastEvent hl).mpr hno
    rw [hact, hE he]
    rfl
  · have he : ¬ Engaged h := fun he => (engaged_iff_of_lastEvent hl).mp he hch
    have hr : ¬ Released h := fun hr => by simp [hr.lastEvent] at hl
    rw [hact, hN he hr]
    omega
  · have he : ¬ Engaged h := fun he => hl he.lastEvent
    by_cases hr : Released h
    · rw [hact, hR hr, normalSpeed]
      omega
    · rw [hact, hN he hr]
      omega

/-! ## A speed command -/

/-- A turn that takes a `MSG_SET_SPEED` and no boost event. -/
def speedCommand (client v : Int) : Turn := ⟨some ⟨client, v, .setSpeed⟩, none⟩

theorem run_speedCommand (h : List Turn) (client v : Int) :
    task.run (h ++ [speedCommand client v]) =
      (ventcontrolBoost
        (ventcontrolMessage (task.run h) (some ⟨client, v, .setSpeed⟩)).1 none).1 := by
  rw [run_concat, ventcontrolTurn_fst]
  rfl

/-- **A speed command** is the requested speed after its turn. If it changes
that, it is the speed of the fan too, whatever the boost was; if it repeats
it, the turn is one without a message. -/
theorem speed_command (h : List Turn) (client v : Int) :
    (task.run (h ++ [speedCommand client v])).requestedSpeed = v ∧
    ((task.run h).requestedSpeed ≠ v →
      (task.run (h ++ [speedCommand client v])).actualSpeed = v) ∧
    ((task.run h).requestedSpeed = v →
      task.run (h ++ [speedCommand client v]) = task.run (h ++ [⟨none, none⟩])) := by
  rw [run_speedCommand]
  refine ⟨?_, fun hne => ?_, fun heq => ?_⟩
  · rw [ventcontrolBoost_requestedSpeed]
    exact ventcontrolMessage_request (task.run h) (speedCommand client v)
  · -- both speeds are the command's
    rw [ventcontrolBoost_actualSpeed, wantedSpeed_eq_max]
    simp [ventcontrolMessage, hne, takeBoost]
  · have hkeep : ventcontrolMessage (task.run h) (some ⟨client, v, .setSpeed⟩) =
        (task.run h, []) := by
      simp [ventcontrolMessage, heq]
    rw [hkeep, run_concat, ventcontrolTurn_fst]
    rfl

/-- Boost goes on, and then the user asks for 1, which is the requested speed
from the start: the fan stays at 2. -/
theorem speed_command_repeated :
    (task.run [⟨none, some true⟩, speedCommand 2 1]).requestedSpeed = 1 ∧
      (task.run [⟨none, some true⟩, speedCommand 2 1]).actualSpeed ≠ 1 := by
  decide

end VentControl.Ventcontrol
