/-
VentControl.Lib.Cells — logs of the accesses to named cells whose first
contents are unknown.

An entry of a log may write a value into a cell, and may read one from it:
`writes e k` and `reads e k` are the values. `held` is what the cells are
known to hold after a log. `Reads` says that each read of the log returns
what its cell is known to hold; then the value was written, by an entry
that stands before the read (`Reads.written`).

Both go through a log piece by piece (`held_append`, `reads_append`), so
the log of a program is checked one function at a time.
-/
import Mathlib.Data.List.Basic

namespace Cells

variable {ε κ ν : Type*} {writes reads : ε → κ → Option ν} {c : κ → Option ν}

/-- What the cells hold after a log, where that is known. -/
def held (writes : ε → κ → Option ν) (c : κ → Option ν) (log : List ε) : κ → Option ν :=
  log.foldl (fun c e k => (writes e k).or (c k)) c

/-- Every read returns what its cell is known to hold. -/
def Reads (writes reads : ε → κ → Option ν) : (κ → Option ν) → List ε → Prop
  | _, [] => True
  | c, e :: log =>
    (∀ k v, reads e k = some v → c k = some v) ∧
      Reads writes reads (fun k => (writes e k).or (c k)) log

@[simp] theorem held_nil : held writes c [] = c := rfl

@[simp] theorem held_cons (e : ε) (log : List ε) :
    held writes c (e :: log) = held writes (fun k => (writes e k).or (c k)) log := rfl

theorem held_append (log log' : List ε) :
    held writes c (log ++ log') = held writes (held writes c log) log' :=
  List.foldl_append

theorem reads_append (log log' : List ε) :
    Reads writes reads c (log ++ log') ↔
      Reads writes reads c log ∧ Reads writes reads (held writes c log) log' := by
  induction log generalizing c with
  | nil => simp [Reads]
  | cons e log ih => simp only [List.cons_append, Reads, held_cons, ih, and_assoc]

/-- A log that never writes a cell leaves it as it was. -/
theorem held_of_not_written {k : κ} {log : List ε} (h : ∀ e ∈ log, writes e k = none) :
    held writes c log k = c k := by
  induction log generalizing c with
  | nil => rfl
  | cons e log ih =>
    rw [held_cons, ih fun e' he' => h e' (List.mem_cons_of_mem _ he'), h e List.mem_cons_self]
    rfl

/-- What a cell holds was in it before, or was written. -/
theorem written_of_held {k : κ} {v : ν} {log : List ε} (h : held writes c log k = some v) :
    c k = some v ∨ ∃ e ∈ log, writes e k = some v := by
  induction log generalizing c with
  | nil => exact Or.inl h
  | cons e log ih =>
    rcases ih h with hc | ⟨e', he', hv⟩
    · cases hw : writes e k with
      | none => exact Or.inl (by simpa [hw] using hc)
      | some w => exact Or.inr ⟨e, List.mem_cons_self, by simpa [hw] using hc⟩
    · exact Or.inr ⟨e', List.mem_cons_of_mem _ he', hv⟩

/-- A log without reads. -/
theorem reads_of_not_read {log : List ε} (h : ∀ e ∈ log, ∀ k, reads e k = none) :
    Reads writes reads c log := by
  induction log generalizing c with
  | nil => exact trivial
  | cons e log ih =>
    refine ⟨fun k v hv => ?_, ih fun e' he' => h e' (List.mem_cons_of_mem _ he')⟩
    simp [h e List.mem_cons_self] at hv

/-- **No read comes before its write**: with nothing known at first, the
value of a read was written by an earlier entry. -/
theorem Reads.written {p q : List ε} {e : ε} {k : κ} {v : ν}
    (h : Reads writes reads (fun _ => none) (p ++ e :: q)) (he : reads e k = some v) :
    ∃ e' ∈ p, writes e' k = some v := by
  obtain ⟨-, hread, -⟩ := (reads_append p (e :: q)).mp h
  rcases written_of_held (hread k v he) with hnone | hex
  · simp at hnone
  · exact hex

end Cells
