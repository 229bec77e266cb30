/-
VentControl.Lib.Timed — event sequences stamped with a clock, and the
output they drive.

A controller emits events. Some take effect at once (an output is
written), some only pass time (a delay). `Timed dur now tr` says that the
stamps of `tr` are a possible clock reading of its events: none is before
`now`, and after an event `e` at time `t` the next one is at `t + dur e`
or later. Nothing bounds the stamps from above: the controller may be
held up anywhere.

The output is a fold over the events, so it is piecewise constant and
"at every instant" means "after every beginning of the trace".
`HeldFor P d pre t` says that the output had property `P` from some event
at least `d` time units before `t` to the end of `pre`, without a break.

`Guarded g e l` is the untimed shape such results rest on: each `e` in
`l` comes directly after the events `g`. It is closed under
concatenation, so it is checked one iteration of a control loop at a
time, and `heldFor_of_guarded` turns it into a statement about time.
-/
import Mathlib.Algebra.GroupWithZero.Nat
import Mathlib.Data.List.Basic

namespace Timed

variable {ε τ : Type*}

/-! ## Guarded events -/

/-- Each `e` in `l` comes directly after the events `g`. -/
def Guarded (g : List ε) (e : ε) (l : List ε) : Prop :=
  ∀ pre post, l = pre ++ e :: post → g <:+ pre

theorem Guarded.nil (g : List ε) (e : ε) : Guarded g e [] := by
  intro pre post h
  simp at h

/-- A list without `e` is guarded. -/
theorem Guarded.of_not_mem {g : List ε} {e : ε} {l : List ε} (h : e ∉ l) :
    Guarded g e l := by
  rintro pre post rfl
  exact absurd (by simp) h

/-- The guard followed by its event, in a list that has the event nowhere
else. -/
theorem Guarded.intro {a b g : List ε} {e : ε} (ha : e ∉ a) (hg : e ∉ g) (hb : e ∉ b) :
    Guarded g e (a ++ g ++ e :: b) := by
  intro pre post h
  rcases List.append_eq_append_iff.mp h with ⟨c, hpre, hc⟩ | ⟨c, hag, hc⟩
  · cases c with
    | nil =>
      rw [List.append_nil] at hpre
      exact ⟨a, hpre.symm⟩
    | cons x c =>
      -- then `post` reaches into `b`, so `b` would hold a second `e`
      simp only [List.cons_append, List.cons.injEq] at hc
      exact absurd (hc.2 ▸ by simp) hb
  · cases c with
    | nil =>
      rw [List.append_nil] at hag
      exact ⟨a, hag⟩
    | cons x c =>
      simp only [List.cons_append, List.cons.injEq] at hc
      have hmem : e ∈ a ++ g := by rw [hag, hc.1]; simp
      rcases List.mem_append.mp hmem with h' | h'
      · exact absurd h' ha
      · exact absurd h' hg

theorem Guarded.append {g : List ε} {e : ε} {l₁ l₂ : List ε}
    (h₁ : Guarded g e l₁) (h₂ : Guarded g e l₂) : Guarded g e (l₁ ++ l₂) := by
  intro pre post h
  rcases List.append_eq_append_iff.mp h with ⟨c, rfl, hc⟩ | ⟨c, hl, hc⟩
  · exact (h₂ c post hc).trans (List.suffix_append l₁ c)
  · cases c with
    | nil =>
      have hg : g <:+ [] := h₂ [] post (by simpa using hc.symm)
      rw [List.suffix_nil.mp hg]
      exact List.nil_suffix
    | cons x c =>
      simp only [List.cons_append, List.cons.injEq] at hc
      exact h₁ pre c (by rw [hl, hc.1])

/-- The beginning of a guarded list is guarded. -/
theorem Guarded.beginning {g : List ε} {e : ε} {l₁ l₂ : List ε} (h : Guarded g e l₂)
    (hl : l₁ <+: l₂) : Guarded g e l₁ := by
  obtain ⟨t, rfl⟩ := hl
  intro pre post he
  exact h pre (post ++ t) (by simp [he])

/-- Where a guarded event stands, the trace up to it ends with the guard. -/
theorem Guarded.split {g : List ε} {e : ε} {pre post : List ε}
    (h : Guarded g e (pre ++ e :: post)) : ∃ a, pre = a ++ g := by
  obtain ⟨a, ha⟩ := h pre post rfl
  exact ⟨a, ha.symm⟩

/-! ## Stamped traces -/

/-- The stamps of a trace are a possible clock reading, starting at
`now`; `dur e` is the least time from `e` to the next event. -/
def StampsFrom (dur : ε → Nat) : Nat → List (Nat × ε) → Prop
  | _, [] => True
  | now, (t, e) :: rest => now ≤ t ∧ StampsFrom dur (t + dur e) rest

theorem StampsFrom.le_of_append {dur : ε → Nat} {now t : Nat} {e : ε}
    {mid post : List (Nat × ε)} (h : StampsFrom dur now (mid ++ (t, e) :: post)) :
    now + (mid.map fun x => dur x.2).sum ≤ t := by
  induction mid generalizing now with
  | nil => simpa using h.1
  | cons x mid ih =>
    obtain ⟨hx, hrest⟩ := h
    have := ih hrest
    simp only [List.map_cons, List.sum_cons]
    omega

theorem StampsFrom.suffix {dur : ε → Nat} {now : Nat} {pre post : List (Nat × ε)}
    (h : StampsFrom dur now (pre ++ post)) : ∃ now', StampsFrom dur now' post := by
  induction pre generalizing now with
  | nil => exact ⟨now, h⟩
  | cons x pre ih => exact ih h.2

/-- **Gap**: between two events of a stamped trace lies at least the
duration of the first and of everything in between. -/
theorem StampsFrom.gap {dur : ε → Nat} {now t₀ t : Nat} {e₀ e : ε}
    {a mid post : List (Nat × ε)}
    (h : StampsFrom dur now (a ++ (t₀, e₀) :: (mid ++ (t, e) :: post))) :
    t₀ + dur e₀ + (mid.map fun x => dur x.2).sum ≤ t := by
  obtain ⟨now', h'⟩ := h.suffix
  exact h'.2.le_of_append

/-! ## The output over time -/

/-- The output after a trace. -/
def after (apply : τ → ε → τ) (s : τ) (tr : List (Nat × ε)) : τ :=
  tr.foldl (fun s x => apply s x.2) s

theorem after_append (apply : τ → ε → τ) (s : τ) (a b : List (Nat × ε)) :
    after apply s (a ++ b) = after apply (after apply s a) b := by
  simp [after]

@[simp] theorem after_nil (apply : τ → ε → τ) (s : τ) : after apply s [] = s := rfl

@[simp] theorem after_cons (apply : τ → ε → τ) (s : τ) (x : Nat × ε)
    (tr : List (Nat × ε)) :
    after apply s (x :: tr) = after apply (apply s x.2) tr := rfl

/-- The output has had property `P` without a break from some event at
least `d` before `t` to the end of the trace `pre`. -/
def HeldFor (apply : τ → ε → τ) (s : τ) (P : τ → Prop) (d : Nat)
    (pre : List (Nat × ε)) (t : Nat) : Prop :=
  ∃ a x b, pre = a ++ x :: b ∧ x.1 + d ≤ t ∧
    ∀ b', b' <+: b → P (after apply s (a ++ x :: b'))

/-- A guard that establishes `P` and then only passes time has held `P`
for the time it passes when its event comes. -/
theorem heldFor_of_guarded (apply : τ → ε → τ) (s : τ) (P : τ → Prop)
    {dur : ε → Nat} {e₀ e : ε} {mid : List ε} {now t : Nat} {pre post : List (Nat × ε)}
    (hst : StampsFrom dur now (pre ++ (t, e) :: post))
    (hg : Guarded (e₀ :: mid) e ((pre ++ (t, e) :: post).map Prod.snd))
    (hset : ∀ s', P (apply s' e₀)) (hkeep : ∀ s', ∀ x ∈ mid, P s' → P (apply s' x)) :
    HeldFor apply s P (dur e₀ + (mid.map dur).sum) pre t := by
  rw [List.map_append, List.map_cons] at hg
  obtain ⟨a, ha⟩ := hg.split
  obtain ⟨pa, pb, hpre, hpa, hpb⟩ := List.map_eq_append_iff.mp ha
  obtain ⟨x, pm, hpm, hx, hmid⟩ := List.map_eq_cons_iff.mp hpb
  subst hpre hpm
  refine ⟨pa, x, pm, rfl, ?_, ?_⟩
  · have hst' : StampsFrom dur now (pa ++ (x.1, x.2) :: (pm ++ (t, e) :: post)) := by
      simpa using hst
    have hgap := hst'.gap
    have hsum : (pm.map fun y => dur y.2).sum = (mid.map dur).sum := by
      rw [← hmid, List.map_map]
      rfl
    rw [hx, hsum] at hgap
    omega
  · intro b' hb'
    rw [after_append, after_cons, hx]
    have hb'mid : ∀ y ∈ b', y.2 ∈ mid := fun y hy => by
      rw [← hmid]
      exact List.mem_map_of_mem (hb'.subset hy)
    -- `P` holds from `e₀` on; the events of `b'` are events of `mid`
    have key : ∀ (c : List (Nat × ε)) (s' : τ), P s' → (∀ y ∈ c, y.2 ∈ mid) →
        P (after apply s' c) := by
      intro c
      induction c with
      | nil => exact fun s' hs' _ => hs'
      | cons y c ih =>
        intro s' hs' hc
        exact ih _ (hkeep s' y.2 (hc y (by simp)) hs') fun z hz => hc z (by simp [hz])
    exact key b' _ (hset _) hb'mid

end Timed
