/-
VentControl.Lib.Budget — how often a machine can emit an output in a
stretch of a run.

Every emission is paid for with a token out of a finite budget. A token
that was spent stays spent, so there are at most as many emissions as
there are tokens (`Mealy.traceFrom_count_le_card`). What it means for a
token to be spent is said of the inputs of the stretch so far.

`Mealy.traceFrom_length_le_mul` carries a bound on short stretches over to
long ones.

`Mealy.trace_count_le_count` is for a budget that grows: what is spent was
earned before, and a potential says what is left.
-/
import VentControl.Lib.Run
import Mathlib.Data.Fintype.Card

namespace Runs

namespace Mealy

variable {σ ι ω τ : Type*} {M : Mealy σ ι ω}

section

variable [DecidableEq ω] [Fintype τ] {s : σ} {o : ω} {w : List ι}

/-- **Budget rule**: when every step that emits `o` spends a token, and no
step gives one back, `o` is emitted no more often than there are tokens. -/
theorem traceFrom_count_le_card (spent : List ι → τ → Prop)
    (hkeep : ∀ v x, v ++ [x] <+: w → ∀ t, spent v t → spent (v ++ [x]) t)
    (hpay : ∀ v x, v ++ [x] <+: w → (M.step (M.runFrom s v) x).2.count o = 0 ∨
      ((M.step (M.runFrom s v) x).2.count o = 1 ∧ ∃ t, ¬ spent v t ∧ spent (v ++ [x]) t)) :
    (M.traceFrom s w).count o ≤ Fintype.card τ := by
  classical
  have key : ∀ v, v <+: w →
      (M.traceFrom s v).count o ≤ (Finset.univ.filter (spent v)).card := by
    intro v
    induction v using List.reverseRecOn with
    | nil => exact fun _ => Nat.zero_le _
    | append_singleton v x ih =>
      intro hv
      have hcount := ih ((List.prefix_append v [x]).trans hv)
      have hsub : Finset.univ.filter (spent v) ⊆ Finset.univ.filter (spent (v ++ [x])) :=
        Finset.monotone_filter_right _ fun t _ => hkeep v x hv t
      rw [traceFrom_concat, List.count_append]
      rcases hpay v x hv with hnone | ⟨hone, t, hfree, hspent⟩
      · rw [hnone, Nat.add_zero]
        exact hcount.trans (Finset.card_le_card hsub)
      · -- the token is new
        have hlt : (Finset.univ.filter (spent v)).card <
            (Finset.univ.filter (spent (v ++ [x]))).card := by
          refine Finset.card_lt_card (Finset.ssubset_iff_subset_ne.mpr ⟨hsub, fun heq => ?_⟩)
          have hmem : t ∈ Finset.univ.filter (spent v) := by simp [heq, hspent]
          exact hfree (Finset.mem_filter.mp hmem).2
        rw [hone]
        omega
  exact (key w (List.prefix_refl w)).trans (Finset.card_le_univ _)

end

/-- What at most `len` inputs in a row can emit bounds what longer
stretches can. -/
theorem traceFrom_length_le_mul {len most : Nat}
    (hshort : ∀ h w : List ι, w.length ≤ len → (M.traceFrom (M.run h) w).length ≤ most)
    (n : Nat) (h w : List ι) (hw : w.length ≤ n * len) :
    (M.traceFrom (M.run h) w).length ≤ n * most := by
  induction n generalizing h w with
  | zero =>
    have hnil : w = [] := List.length_eq_zero_iff.mp (by simpa using hw)
    simp [hnil]
  | succ n ih =>
    have hfirst := hshort h (w.take len) (List.length_take_le len w)
    have hrest := ih (h ++ w.take len) (w.drop len) (by
      rw [Nat.succ_mul] at hw
      simp only [List.length_drop]
      omega)
    rw [← List.take_append_drop len w, traceFrom_append, List.length_append, ← run_append,
      Nat.succ_mul]
    omega

/-- **Credit rule**: when every step that emits `spend` pays for it out of a
potential, to which only steps that emit `earn` add, no more is spent than
was earned. -/
theorem trace_count_le_count [DecidableEq ω] (potential : σ → Nat) (spend earn : ω)
    (hinit : potential M.init = 0)
    (hstep : ∀ s x, potential (M.step s x).1 + (M.step s x).2.count spend ≤
      potential s + (M.step s x).2.count earn) (w : List ι) :
    potential (M.run w) + (M.trace w).count spend ≤ (M.trace w).count earn := by
  induction w using List.reverseRecOn with
  | nil => simp [hinit]
  | append_singleton w x ih =>
    have hx := hstep (M.run w) x
    rw [run_concat, trace_concat, List.count_append, List.count_append]
    omega

end Mealy

end Runs
