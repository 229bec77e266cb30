/-
VentControl.Lib.Refresh — telling others a value that changes.

A sender tells a value in messages that a queue delays, so a message can be
overtaken by a change. Every change is told to all receivers in a refresh;
other messages may be for one receiver only, and may be lost.

`Heard up q` is what a receiver needs to know: what it heard last is up to
date (`up`), or a refresh is still on its way in `q`. `Settles now refresh
q` says it of every message in the queue: it is up to date (`now`), or a
refresh follows it. The lemmas are the ways a queue changes: a message is
appended that is up to date, a refresh is appended, a message that is no
refresh goes missing, a receiver hears the oldest message or passes it by.
`heard_nil` is the end: with nothing on its way, what was heard last is up
to date.
-/
import Mathlib.Data.List.Basic

namespace Refresh

variable {α : Type*} {now now' refresh : α → Prop} {up up' : Prop}

/-- What was heard last is up to date, or a refresh is on its way. -/
def Heard (refresh : α → Prop) (up : Prop) (q : List α) : Prop := up ∨ ∃ b ∈ q, refresh b

/-- Every message is up to date or is followed by a refresh. -/
def Settles (now refresh : α → Prop) : List α → Prop
  | [] => True
  | m :: q => Heard refresh (now m) q ∧ Settles now refresh q

@[simp] theorem heard_nil : Heard refresh up ([] : List α) ↔ up := by
  simp [Heard]

/-- Whatever comes after. -/
theorem Heard.append {q : List α} (h : Heard refresh up q) (q' : List α) :
    Heard refresh up (q ++ q') := by
  rcases h with h | ⟨b, hb, hr⟩
  · exact Or.inl h
  · exact Or.inr ⟨b, by simp [hb], hr⟩

/-- A refresh on its way is enough, whatever was heard. -/
theorem heard_append_refresh {b : α} (hr : refresh b) (q : List α) :
    Heard refresh up (q ++ [b]) :=
  Or.inr ⟨b, by simp, hr⟩

/-- A message that is no refresh can go missing. -/
theorem Heard.drop {p q : List α} {m : α} (hm : ¬ refresh m) (h : Heard refresh up (p ++ m :: q)) :
    Heard refresh up (p ++ q) := by
  rcases h with h | ⟨b, hb, hr⟩
  · exact Or.inl h
  · refine Or.inr ⟨b, ?_, hr⟩
    have hne : b ≠ m := fun he => hm (he ▸ hr)
    simpa [hne] using hb

theorem Settles.tail {m : α} {q : List α} (h : Settles now refresh (m :: q)) :
    Settles now refresh q := h.2

/-- A message that is heard is up to date, or a refresh follows. -/
theorem Settles.heard {m : α} {q : List α} (h : Settles now refresh (m :: q)) :
    Heard refresh (now m) q := h.1

/-- Messages that are up to date are appended. -/
theorem Settles.append {q q' : List α} (h : Settles now refresh q) (hq' : ∀ m ∈ q', now m) :
    Settles now refresh (q ++ q') := by
  induction q with
  | nil =>
    induction q' with
    | nil => trivial
    | cons m q' ih =>
      exact ⟨Or.inl (hq' m (by simp)), ih fun x hx => hq' x (by simp [hx])⟩
  | cons m q ih => exact ⟨h.1.append q', ih h.2⟩

/-- A refresh that is up to date settles any queue. -/
theorem settles_append_refresh {b : α} (hb : now b) (hr : refresh b) (q : List α) :
    Settles now refresh (q ++ [b]) := by
  induction q with
  | nil => exact ⟨Or.inl hb, trivial⟩
  | cons m q ih => exact ⟨heard_append_refresh hr q, ih⟩

/-- A message that is no refresh can go missing. -/
theorem Settles.drop {p q : List α} {m : α} (hm : ¬ refresh m)
    (h : Settles now refresh (p ++ m :: q)) : Settles now refresh (p ++ q) := by
  induction p with
  | nil => exact h.2
  | cons x p ih => exact ⟨h.1.drop hm, ih h.2⟩

end Refresh
