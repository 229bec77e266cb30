/-
VentControl.Lib.Fifo — a FIFO of bounded capacity between two tasks.

A queue is the list of what it holds, oldest first. `send` appends when
there is room and loses the element when there is none (the sender gave
up waiting); `receive` takes the oldest element, or finds nothing. A
sender or receiver that waits is one that steps later.
-/
import Mathlib.Data.List.Basic

namespace Fifo

variable {α : Type*}

/-- Append if there is room. -/
def send (capacity : Nat) (q : List α) (x : α) : List α :=
  if q.length < capacity then q ++ [x] else q

/-- The oldest element, if there is one, and what is left. -/
def receive (q : List α) : Option α × List α := (q.head?, q.tail)

@[simp] theorem send_of_lt {capacity : Nat} {q : List α} {x : α} (h : q.length < capacity) :
    send capacity q x = q ++ [x] := if_pos h

@[simp] theorem send_of_le {capacity : Nat} {q : List α} {x : α} (h : capacity ≤ q.length) :
    send capacity q x = q := if_neg (Nat.not_lt.mpr h)

/-- A send loses its element or appends it, nothing else. -/
theorem send_cases (capacity : Nat) (q : List α) (x : α) :
    send capacity q x = q ++ [x] ∨ send capacity q x = q := by
  unfold send
  split
  · exact Or.inl rfl
  · exact Or.inr rfl

/-- Whatever every element of a queue has, and the element sent, every
element has after the send. -/
theorem forall_send {capacity : Nat} {q : List α} {x : α} {P : α → Prop}
    (hq : ∀ y ∈ q, P y) (hx : P x) : ∀ y ∈ send capacity q x, P y := by
  intro y hy
  rcases send_cases capacity q x with h | h <;> rw [h] at hy
  · rcases List.mem_append.mp hy with hy | hy
    · exact hq y hy
    · rw [List.mem_singleton.mp hy]
      exact hx
  · exact hq y hy

/-- The same for a list of elements sent one after the other. -/
theorem forall_foldl_send {capacity : Nat} {P : α → Prop} (xs : List α) {q : List α}
    (hq : ∀ y ∈ q, P y) (hxs : ∀ x ∈ xs, P x) : ∀ y ∈ xs.foldl (send capacity) q, P y := by
  induction xs generalizing q with
  | nil => exact hq
  | cons x xs ih =>
    exact ih (forall_send hq (hxs x (by simp))) fun y hy => hxs y (by simp [hy])

/-- Elements for which there is room are all kept. -/
theorem foldl_send_of_le {capacity : Nat} (xs : List α) {q : List α}
    (h : q.length + xs.length ≤ capacity) : xs.foldl (send capacity) q = q ++ xs := by
  induction xs generalizing q with
  | nil => simp
  | cons x xs ih =>
    rw [List.length_cons] at h
    have hroom : send capacity q x = q ++ [x] := send_of_lt (by omega)
    have hrest : (q ++ [x]).length + xs.length ≤ capacity := by
      simp only [List.length_append, List.length_singleton]
      omega
    rw [List.foldl_cons, hroom, ih hrest, List.append_assoc, List.singleton_append]

@[simp] theorem receive_nil : receive ([] : List α) = (none, []) := rfl

@[simp] theorem receive_cons (x : α) (q : List α) : receive (x :: q) = (some x, q) := rfl

/-- What a queue keeps of elements sent one after the other: those there is
room for, which are the first ones. -/
def kept (capacity : Nat) (q xs : List α) : List α := xs.take (capacity - q.length)

theorem kept_sublist (capacity : Nat) (q xs : List α) : (kept capacity q xs).Sublist xs :=
  List.take_sublist _ _

theorem kept_map {β : Type*} (f : α → β) (capacity : Nat) (q xs : List α) :
    (kept capacity q xs).map f = kept capacity (q.map f) (xs.map f) := by
  simp [kept, List.map_take]

/-- **Sends one after the other** append what is kept. -/
theorem foldl_send (capacity : Nat) (q xs : List α) :
    xs.foldl (send capacity) q = q ++ kept capacity q xs := by
  induction xs generalizing q with
  | nil => simp [kept]
  | cons x xs ih =>
    rw [List.foldl_cons, ih]
    rcases Nat.lt_or_ge q.length capacity with hlt | hge
    · have hroom : capacity - q.length = capacity - (q.length + 1) + 1 := by omega
      rw [send_of_lt hlt]
      simp [kept, hroom]
    · have hfull : capacity - q.length = 0 := by omega
      rw [send_of_le hge]
      simp [kept, hfull]

theorem send_eq (capacity : Nat) (q : List α) (x : α) :
    send capacity q x = q ++ kept capacity q [x] :=
  foldl_send capacity q [x]

/-- A receive loses nothing: what it took, followed by what is left, is
what the queue held. -/
theorem receive_append (q : List α) : (receive q).1.toList ++ (receive q).2 = q := by
  cases q <;> rfl

end Fifo
