/-
VentControl.Lib.Run — runs of a deterministic machine, and the
induction rules every result about runs is assembled from.

A `Mealy` machine makes one step for each input and may emit outputs on
the way. A run is a list of inputs: `runFrom` gives the state it ends in
and `traceFrom` the outputs it emitted, in order.

Conditions on a run are conditions on its steps. `EachStep good is` says
that every step of the run `is` meets `good`, which sees the inputs that
came before the step and the step's own input; with `good` reading the
machine's state after those inputs this is "every step meets the
condition in the state it is taken in".

* `EachStep.induct` — an invariant of the input history that good steps
  preserve holds at the end of every good run.
* `Mealy.run_inv` — the same for an invariant of the machine's state.
* `Mealy.along_of_inv` — what good steps have under an invariant, every
  step of a good run has.
* `Mealy.trace_forall` — outputs that every good step emits only with a
  property have it wherever they stand in the trace.
* `Mealy.traceFrom_eq_of_related` — two runs that a relation between their
  states keeps in step have the same trace.
-/
import Mathlib.Data.List.Basic
import Mathlib.Data.List.Induction

namespace Runs

variable {σ ι ω : Type*}

/-! ## Conditions on the steps of a run -/

/-- An element of a list that is one longer is the last one, or stands in
the shorter list. -/
theorem split_concat {h p q : List ι} {i j : ι} (he : h ++ [j] = p ++ i :: q) :
    (p = h ∧ i = j ∧ q = []) ∨ ∃ q', q = q' ++ [j] ∧ h = p ++ i :: q' := by
  rcases List.eq_nil_or_concat q with rfl | ⟨q', k, rfl⟩
  · obtain ⟨rfl, hij⟩ := List.append_inj' he rfl
    simp only [List.cons.injEq, and_true] at hij
    exact Or.inl ⟨rfl, hij.symm, rfl⟩
  · have he' : h ++ [j] = (p ++ i :: q') ++ [k] := by simpa using he
    obtain ⟨hpre, hk⟩ := List.append_inj' he' rfl
    exact Or.inr ⟨q', by rw [hk, List.concat_eq_append], hpre⟩

/-- Every step of the run meets `good`: the step's input, after the
inputs before it. -/
def EachStep (good : List ι → ι → Prop) (is : List ι) : Prop :=
  ∀ h i t, is = h ++ i :: t → good h i

theorem EachStep.nil (good : List ι → ι → Prop) : EachStep good [] := by
  intro h i t he
  simp at he

/-- A run one step longer is good when the shorter run is and the last
step is. -/
theorem EachStep.concat_iff {good : List ι → ι → Prop} {is : List ι} {i : ι} :
    EachStep good (is ++ [i]) ↔ EachStep good is ∧ good is i := by
  constructor
  · intro hg
    refine ⟨fun h j t he => hg h j (t ++ [i]) (by simp [he]), hg is i [] rfl⟩
  · rintro ⟨his, hi⟩ h j t he
    rcases split_concat he with ⟨rfl, rfl, -⟩ | ⟨t', -, he'⟩
    · exact hi
    · exact his h j t' he'

/-- The first step sees no inputs before it. -/
theorem EachStep.cons_iff {good : List ι → ι → Prop} {i : ι} {is : List ι} :
    EachStep good (i :: is) ↔ good [] i ∧ EachStep (fun h j => good (i :: h) j) is := by
  constructor
  · intro hg
    exact ⟨hg [] i is rfl, fun h j t he => hg (i :: h) j t (by simp [he])⟩
  · rintro ⟨hi, his⟩ h j t he
    cases h with
    | nil =>
      simp only [List.nil_append, List.cons.injEq] at he
      exact he.1 ▸ hi
    | cons k h =>
      simp only [List.cons_append, List.cons.injEq] at he
      exact he.1 ▸ his h j t he.2

theorem EachStep.append_iff {good : List ι → ι → Prop} {is js : List ι} :
    EachStep good (is ++ js) ↔
      EachStep good is ∧ EachStep (fun h j => good (is ++ h) j) js := by
  induction is generalizing good with
  | nil => simp [EachStep.nil]
  | cons i is ih => simp [EachStep.cons_iff, ih, and_assoc]

/-- The steps of the beginning of a good run are good. -/
theorem EachStep.of_append {good : List ι → ι → Prop} {is js : List ι}
    (hg : EachStep good (is ++ js)) : EachStep good is :=
  fun h i t he => hg h i (t ++ js) (by simp [he])

/-- A condition on what each step leads to is one on every beginning of the
run. -/
theorem EachStep.iff_of_beginnings {P : List ι → Prop} (h0 : P []) {is : List ι} :
    EachStep (fun h i => P (h ++ [i])) is ↔ ∀ h, h <+: is → P h := by
  constructor
  · rintro hg h ⟨t, rfl⟩
    rcases List.eq_nil_or_concat h with rfl | ⟨h, i, rfl⟩
    · exact h0
    · rw [List.concat_eq_append]
      exact hg h i t (by simp)
  · intro hP h i t he
    exact hP (h ++ [i]) ⟨t, by simp [he]⟩

/-- **Run induction**: what holds before the first step and is carried
over every good step holds after every good run. -/
theorem EachStep.induct {good : List ι → ι → Prop} {I : List ι → Prop}
    (h0 : I []) (hstep : ∀ h i, I h → good h i → I (h ++ [i])) :
    ∀ is, EachStep good is → I is := by
  intro is
  induction is using List.reverseRecOn with
  | nil => exact fun _ => h0
  | append_singleton is i ih =>
    intro hg
    obtain ⟨his, hi⟩ := EachStep.concat_iff.mp hg
    exact hstep is i (ih his) hi

/-- **Two conditions on a run agree** when they agree on every step taken
under an invariant that the second carries along. -/
theorem EachStep.iff_of_inv {good good' : List ι → ι → Prop} {I : List ι → Prop} (h0 : I [])
    (hiff : ∀ h i, I h → (good h i ↔ good' h i))
    (hkeep : ∀ h i, I h → good' h i → I (h ++ [i])) (is : List ι) :
    EachStep good is ↔ EachStep good' is := by
  -- the invariant holds up to the first step that fails, if there is one
  induction is using List.reverseRecOn with
  | nil => simp [EachStep.nil]
  | append_singleton is i ih =>
    rw [EachStep.concat_iff, EachStep.concat_iff, ih]
    refine and_congr_right fun hg => ?_
    exact hiff is i (EachStep.induct h0 hkeep is hg)

/-- A condition that can be decided for each step can be decided for a
run. -/
instance EachStep.decidable (good : List ι → ι → Prop) [h : ∀ h i, Decidable (good h i)] :
    (is : List ι) → Decidable (EachStep good is)
  | [] => isTrue (EachStep.nil good)
  | i :: is =>
    have := EachStep.decidable (fun h j => good (i :: h) j) is
    decidable_of_iff _ EachStep.cons_iff.symm

/-! ## The last element with a property -/

/-- There is only one last element with a property. -/
theorem split_last_unique {P : ι → Prop} {h p p' q q' : List ι} {i i' : ι}
    (he : h = p ++ i :: q) (he' : h = p' ++ i' :: q') (hi : P i) (hi' : P i')
    (hq : ∀ j ∈ q, ¬ P j) (hq' : ∀ j ∈ q', ¬ P j) : p = p' ∧ i = i' ∧ q = q' := by
  subst he
  rcases List.append_eq_append_iff.mp he' with ⟨c, rfl, hc⟩ | ⟨c, rfl, hc⟩
  · cases c with
    | nil => simpa using hc
    | cons x c =>
      simp only [List.cons_append, List.cons.injEq] at hc
      exact absurd hi' (hq i' (by simp [hc.2]))
  · cases c with
    | nil => simpa [eq_comm] using hc
    | cons x c =>
      simp only [List.cons_append, List.cons.injEq] at hc
      exact absurd hi (hq' i (by simp [hc.2]))

/-- A list that has an element with a property has a last one. -/
theorem exists_split_last {P : ι → Prop} {h : List ι} (hex : ∃ i ∈ h, P i) :
    ∃ p i q, h = p ++ i :: q ∧ P i ∧ ∀ j ∈ q, ¬ P j := by
  induction h using List.reverseRecOn with
  | nil => simp at hex
  | append_singleton h k ih =>
    by_cases hk : P k
    · exact ⟨h, k, [], rfl, hk, by simp⟩
    · have hex' : ∃ i ∈ h, P i := by
        obtain ⟨i, hi, hPi⟩ := hex
        rcases List.mem_append.mp hi with hi | hi
        · exact ⟨i, hi, hPi⟩
        · exact absurd (List.mem_singleton.mp hi ▸ hPi) hk
      obtain ⟨p, i, q, rfl, hi, hq⟩ := ih hex'
      refine ⟨p, i, q ++ [k], by simp, hi, fun j hj => ?_⟩
      rcases List.mem_append.mp hj with hj | hj
      · exact hq j hj
      · rw [List.mem_singleton.mp hj]
        exact hk

/-! ## Machines -/

/-- A deterministic machine: one input makes one step, which may emit
outputs. -/
structure Mealy (σ ι ω : Type*) where
  init : σ
  step : σ → ι → σ × List ω

namespace Mealy

variable (M : Mealy σ ι ω)

/-- The state after a list of inputs. -/
def runFrom : σ → List ι → σ
  | s, [] => s
  | s, i :: is => runFrom (M.step s i).1 is

/-- The outputs a list of inputs makes the machine emit, in order. -/
def traceFrom : σ → List ι → List ω
  | _, [] => []
  | s, i :: is => (M.step s i).2 ++ traceFrom (M.step s i).1 is

/-- The run from the initial state. -/
def run (is : List ι) : σ := M.runFrom M.init is

/-- The trace from the initial state. -/
def trace (is : List ι) : List ω := M.traceFrom M.init is

@[simp] theorem runFrom_nil (s : σ) : M.runFrom s [] = s := rfl

@[simp] theorem runFrom_cons (s : σ) (i : ι) (is : List ι) :
    M.runFrom s (i :: is) = M.runFrom (M.step s i).1 is := rfl

@[simp] theorem traceFrom_nil (s : σ) : M.traceFrom s [] = [] := rfl

@[simp] theorem traceFrom_cons (s : σ) (i : ι) (is : List ι) :
    M.traceFrom s (i :: is) = (M.step s i).2 ++ M.traceFrom (M.step s i).1 is := rfl

theorem runFrom_append (s : σ) (is js : List ι) :
    M.runFrom s (is ++ js) = M.runFrom (M.runFrom s is) js := by
  induction is generalizing s with
  | nil => rfl
  | cons i is ih => exact ih _

theorem traceFrom_append (s : σ) (is js : List ι) :
    M.traceFrom s (is ++ js) = M.traceFrom s is ++ M.traceFrom (M.runFrom s is) js := by
  induction is generalizing s with
  | nil => rfl
  | cons i is ih => simp [ih, List.append_assoc]

theorem traceFrom_concat (s : σ) (is : List ι) (i : ι) :
    M.traceFrom s (is ++ [i]) = M.traceFrom s is ++ (M.step (M.runFrom s is) i).2 := by
  rw [traceFrom_append, traceFrom_cons, traceFrom_nil, List.append_nil]

@[simp] theorem run_nil : M.run [] = M.init := rfl

@[simp] theorem trace_nil : M.trace [] = [] := rfl

/-- A run goes on from the state its beginning ends in. -/
theorem run_append (is js : List ι) : M.run (is ++ js) = M.runFrom (M.run is) js :=
  M.runFrom_append M.init is js

/-- One step more ends in the step's state. -/
theorem run_concat (is : List ι) (i : ι) :
    M.run (is ++ [i]) = (M.step (M.run is) i).1 := by
  simp [run, runFrom_append]

/-- One step more emits the step's outputs at the end. -/
theorem trace_concat (is : List ι) (i : ι) :
    M.trace (is ++ [i]) = M.trace is ++ (M.step (M.run is) i).2 :=
  M.traceFrom_concat M.init is i

/-- Every step of the run meets `good` in the state it is taken in. -/
def Along (good : σ → ι → Prop) (is : List ι) : Prop :=
  EachStep (fun h i => good (M.run h) i) is

instance (good : σ → ι → Prop) [∀ s i, Decidable (good s i)] (is : List ι) :
    Decidable (M.Along good is) :=
  inferInstanceAs (Decidable (EachStep _ is))

/-- **Invariant rule**: a state property that holds initially and is
preserved by good steps holds at the end of every good run. -/
theorem run_inv (good : σ → ι → Prop) {I : σ → Prop} (h0 : I M.init)
    (hstep : ∀ s i, I s → good s i → I (M.step s i).1) :
    ∀ is, M.Along good is → I (M.run is) :=
  EachStep.induct h0 fun h i hI hg => by
    rw [run_concat]
    exact hstep _ _ hI hg

/-- **Step rule**: under an invariant, what every good step has, every step
of a good run has. -/
theorem along_of_inv {good P : σ → ι → Prop} {I : σ → Prop} (h0 : I M.init)
    (hstep : ∀ s i, I s → good s i → I (M.step s i).1) (hP : ∀ s i, I s → good s i → P s i) :
    ∀ is, M.Along good is → M.Along P is := by
  intro is hg h i t he
  subst he
  exact hP _ _ (M.run_inv good h0 hstep h hg.of_append) (hg h i t rfl)

/-- **Output rule**: under an invariant, a property of every output that
a good step can emit is a property of every output of a good run. -/
theorem trace_forall (good : σ → ι → Prop) {I : σ → Prop} {P : ω → Prop}
    (h0 : I M.init) (hstep : ∀ s i, I s → good s i → I (M.step s i).1)
    (hout : ∀ s i, I s → good s i → ∀ o ∈ (M.step s i).2, P o) :
    ∀ is, M.Along good is → ∀ o ∈ M.trace is, P o := by
  intro is hg
  have key : I (M.run is) ∧ ∀ o ∈ M.trace is, P o := by
    refine EachStep.induct (I := fun h => I (M.run h) ∧ ∀ o ∈ M.trace h, P o)
      ⟨h0, by simp⟩ ?_ is hg
    rintro h i ⟨hI, hP⟩ hgi
    rw [run_concat, trace_concat]
    refine ⟨hstep _ _ hI hgi, fun o ho => ?_⟩
    rcases List.mem_append.mp ho with ho | ho
    · exact hP o ho
    · exact hout _ _ hI hgi o ho
  exact key.2

/-- **Two-run rule**: a relation between the states of two machines that
is kept by related inputs, which also emit the same, makes the traces of
related runs the same. -/
theorem traceFrom_eq_of_related {M M' : Mealy σ ι ω} {A : ι → ι → Prop} {R : σ → σ → Prop}
    (hstep : ∀ s s' i i', R s s' → A i i' →
      R (M.step s i).1 (M'.step s' i').1 ∧ (M'.step s' i').2 = (M.step s i).2)
    {is is' : List ι} (his : List.Forall₂ A is is') {s s' : σ} (hs : R s s') :
    R (M.runFrom s is) (M'.runFrom s' is') ∧ M'.traceFrom s' is' = M.traceFrom s is := by
  induction his generalizing s s' with
  | nil => exact ⟨hs, rfl⟩
  | cons hi _ ih =>
    obtain ⟨hs₁, hout⟩ := hstep _ _ _ _ hs hi
    obtain ⟨hrun, htrace⟩ := ih hs₁
    exact ⟨hrun, by rw [traceFrom_cons, traceFrom_cons, hout, htrace]⟩

end Mealy

end Runs
