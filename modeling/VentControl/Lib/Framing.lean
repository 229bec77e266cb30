/-
VentControl.Lib.Framing — a stream cut into frames at a delimiter.

`parse d t s` reads the stream `s` after the unterminated bytes `t`: it
gives the frames that end in `s`, each without its delimiter, and the
bytes that are left unterminated. `frames` and `tail` are its two halves
from a fresh start.

`parse_append` is what a receiver of a stream in pieces has to get right:
reading on with the tail of the first piece is reading the whole stream.
`parse_eq_splitOn` ties `parse` to the library's `List.splitOn`.

`reader` is such a receiver. Whatever pieces a stream of whole frames comes
in, it gives the frames (`reader_of_frames`).
-/
import Mathlib.Data.List.Basic
import VentControl.Lib.Run

namespace Framing

variable {α : Type*} [DecidableEq α] (d : α)

/-- The frames that end in the stream, and what is left unterminated. -/
def parse : List α → List α → List (List α) × List α
  | t, [] => ([], t)
  | t, b :: s => if b = d then (t :: (parse [] s).1, (parse [] s).2) else parse (t ++ [b]) s

/-- The complete frames of a stream. -/
def frames (s : List α) : List (List α) := (parse d [] s).1

/-- The unterminated end of a stream. -/
def tail (s : List α) : List α := (parse d [] s).2

@[simp] theorem parse_nil (t : List α) : parse d t [] = ([], t) := rfl

@[simp] theorem frames_nil : frames d ([] : List α) = [] := rfl

@[simp] theorem tail_nil : tail d ([] : List α) = [] := rfl

/-- **Reading on**: a stream in two pieces is the first piece, then the
second after the tail of the first. -/
theorem parse_append (t a b : List α) :
    parse d t (a ++ b) =
      ((parse d t a).1 ++ (parse d (parse d t a).2 b).1, (parse d (parse d t a).2 b).2) := by
  induction a generalizing t with
  | nil => rfl
  | cons x a ih =>
    by_cases hx : x = d
    · simp [parse, hx, ih]
    · simp [parse, hx, ih]

theorem frames_append (a b : List α) :
    frames d (a ++ b) = frames d a ++ (parse d (tail d a) b).1 := by
  rw [frames, parse_append]
  rfl

/-- A piece without the delimiter only lengthens the tail. -/
theorem parse_of_not_mem {t s : List α} (hs : d ∉ s) : parse d t s = ([], t ++ s) := by
  induction s generalizing t with
  | nil => simp
  | cons x s ih =>
    have hx : x ≠ d := fun h => hs (by simp [h])
    have hs' : d ∉ s := fun h => hs (by simp [h])
    simp [parse, hx, ih hs']

/-- A piece that starts with the end of a frame ends that frame. -/
theorem parse_frame {t f rest : List α} (hf : d ∉ f) :
    parse d t (f ++ d :: rest) = ((t ++ f) :: frames d rest, tail d rest) := by
  rw [parse_append, parse_of_not_mem d hf]
  simp [parse, frames, tail]

/-- A stream is its first frame, the delimiter and the rest, or it has no
delimiter. -/
theorem cut_cases (s : List α) :
    d ∉ s ∨ ∃ f rest, s = f ++ d :: rest ∧ d ∉ f := by
  by_cases h : d ∈ s
  · obtain ⟨f, rest, rfl, hf⟩ := List.eq_append_cons_of_mem h
    exact Or.inr ⟨f, rest, rfl, hf⟩
  · exact Or.inl h

omit [DecidableEq α] in
/-- There is only one first delimiter. -/
theorem cut_unique {d : α} {p q f r : List α} (he : p ++ d :: q = f ++ d :: r) (hp : d ∉ p)
    (hf : d ∉ f) : p = f ∧ q = r := by
  rcases List.append_eq_append_iff.mp he with ⟨w, rfl, hw⟩ | ⟨w, rfl, hw⟩
  · cases w with
    | nil => simpa using hw
    | cons x w =>
      simp only [List.cons_append, List.cons.injEq] at hw
      exact absurd (show d ∈ p ++ x :: w from by simp [hw.1]) hf
  · cases w with
    | nil => simpa [eq_comm] using hw
    | cons x w =>
      simp only [List.cons_append, List.cons.injEq] at hw
      exact absurd (show d ∈ f ++ x :: w from by simp [hw.1]) hp

/-- `parse` from a fresh start is `List.splitOn`. -/
theorem parse_eq_splitOn (s : List α) : frames d s ++ [tail d s] = s.splitOn d := by
  have key : ∀ (s t : List α),
      (parse d t s).1 ++ [(parse d t s).2] = s.splitOnPPrepend (· == d) t.reverse := by
    intro s
    induction s with
    | nil => simp
    | cons x s ih =>
      intro t
      by_cases hx : x = d
      · have := ih []
        simp_all [parse, List.splitOnPPrepend_cons_pos]
      · rw [List.splitOnPPrepend_cons_neg (by simpa using hx), ← List.reverse_concat, ← ih]
        simp [parse, hx]
  simpa [List.splitOn, frames, tail] using key s []

/-! ## Reading in pieces -/

open Runs

/-- A receiver that gives each frame as it is complete, and keeps what is
unterminated. -/
def reader : Mealy (List α) (List α) (List α) where
  init := []
  step t piece := ((parse d t piece).2, (parse d t piece).1)

/-- **The pieces do not matter**: the receiver gives the frames of the whole
stream. -/
theorem reader_eq_parse (pieces : List (List α)) :
    (reader d).run pieces = tail d pieces.flatten ∧
      (reader d).trace pieces = frames d pieces.flatten := by
  induction pieces using List.reverseRecOn with
  | nil => exact ⟨rfl, rfl⟩
  | append_singleton pieces piece ih =>
    rw [Mealy.run_concat, Mealy.trace_concat, ih.1, ih.2]
    simp [reader, frames, tail, parse_append]

/-- Whole frames, each with its delimiter, are cut where they end. -/
theorem parse_of_frames {fs : List (List α)} (hfs : ∀ f ∈ fs, d ∉ f) :
    parse d [] (fs.flatMap (· ++ [d])) = (fs, []) := by
  induction fs with
  | nil => rfl
  | cons f fs ih =>
    have ih := ih fun f hf => hfs f (by simp [hf])
    rw [List.flatMap_cons, List.append_assoc, List.singleton_append,
      parse_frame d (hfs f (by simp)), frames, tail, ih, List.nil_append]

/-- **Whole frames are received as they were sent**, in any pieces. -/
theorem reader_of_frames {fs pieces : List (List α)} (hfs : ∀ f ∈ fs, d ∉ f)
    (hpieces : pieces.flatten = fs.flatMap (· ++ [d])) :
    (reader d).run pieces = [] ∧ (reader d).trace pieces = fs := by
  obtain ⟨hrun, htrace⟩ := reader_eq_parse d pieces
  rw [hrun, htrace, hpieces, tail, frames, parse_of_frames d hfs]
  exact ⟨rfl, rfl⟩

end Framing
