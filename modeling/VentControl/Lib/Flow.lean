/-
VentControl.Lib.Flow — when a bounded FIFO loses an element, seen from the
outside.

The two ends of a queue only put and get; `Op` is one of these, and a list
of them is all that happened at the queue, in order. What the queue holds
and what it accepted follow from it.

`lossless_iff` says from the puts and gets alone whether anything was
lost: nothing was, exactly if in every stretch of the list there are at
most `capacity` more puts than gets. A get that finds nothing is wasted,
so the stretches matter and not only the beginnings: the stretch that
decides is the one since the queue was last found empty (`exists_busy`).
For the same reason it does not matter whether the gets that find nothing
are counted (`lossless_iff_found`): in the stretch that decides there are
none.
-/
import VentControl.Lib.Fifo
import VentControl.Lib.Run

namespace Fifo

open Runs

variable {α : Type*}

/-! ## Puts and gets -/

/-- What is done to a queue. -/
inductive Op (α : Type*)
  | put (x : α)
  | get

/-- The elements put. -/
def puts (ops : List (Op α)) : List α :=
  ops.filterMap fun
    | .put x => some x
    | .get => none

/-- The number of gets. -/
def gets (ops : List (Op α)) : Nat :=
  ops.countP fun
    | .put _ => false
    | .get => true

/-- The queue after an operation. -/
def Op.apply (capacity : Nat) (q : List α) : Op α → List α
  | .put x => send capacity q x
  | .get => (receive q).2

/-- The queue after a list of operations. -/
def after (capacity : Nat) (q : List α) (ops : List (Op α)) : List α :=
  ops.foldl (Op.apply capacity) q

/-- The number of gets that find an element, from a queue `q` on. -/
def found (capacity : Nat) : List α → List (Op α) → Nat
  | _, [] => 0
  | q, .put x :: ops => found capacity (send capacity q x) ops
  | q, .get :: ops => min 1 q.length + found capacity q.tail ops

/-- The elements accepted. -/
def accepted (capacity : Nat) : List α → List (Op α) → List α
  | _, [] => []
  | q, .put x :: ops => kept capacity q [x] ++ accepted capacity (send capacity q x) ops
  | q, .get :: ops => accepted capacity q.tail ops

@[simp] theorem puts_nil : puts ([] : List (Op α)) = [] := rfl

@[simp] theorem gets_nil : gets ([] : List (Op α)) = 0 := rfl

@[simp] theorem puts_append (as bs : List (Op α)) : puts (as ++ bs) = puts as ++ puts bs :=
  List.filterMap_append

@[simp] theorem gets_append (as bs : List (Op α)) : gets (as ++ bs) = gets as + gets bs :=
  List.countP_append

@[simp] theorem puts_put (x : α) : puts [Op.put x] = [x] := rfl

@[simp] theorem gets_put (x : α) : gets [Op.put x] = 0 := rfl

@[simp] theorem puts_get : puts [(Op.get : Op α)] = [] := rfl

@[simp] theorem gets_get : gets [(Op.get : Op α)] = 1 := rfl

@[simp] theorem puts_map_put (xs : List α) : puts (xs.map Op.put) = xs := by
  simp [puts, List.filterMap_map]

theorem after_append (capacity : Nat) (q : List α) (as bs : List (Op α)) :
    after capacity q (as ++ bs) = after capacity (after capacity q as) bs :=
  List.foldl_append

theorem after_map_put (capacity : Nat) (q xs : List α) :
    after capacity q (xs.map Op.put) = xs.foldl (send capacity) q := by
  rw [after, List.foldl_map]
  rfl

theorem accepted_append (capacity : Nat) (q : List α) (as bs : List (Op α)) :
    accepted capacity q (as ++ bs) =
      accepted capacity q as ++ accepted capacity (after capacity q as) bs := by
  induction as generalizing q with
  | nil => rfl
  | cons a as ih =>
    cases a with
    | put x => simp only [List.cons_append, accepted, ih, List.append_assoc]; rfl
    | get => simp only [List.cons_append, accepted, ih]; rfl

/-- Of elements put one after the other the first ones are accepted. -/
theorem accepted_map_put (capacity : Nat) (q xs : List α) :
    accepted capacity q (xs.map Op.put) = kept capacity q xs := by
  induction xs generalizing q with
  | nil => simp [accepted, kept]
  | cons x xs ih =>
    have hsend : send capacity q x ++ kept capacity (send capacity q x) xs =
        q ++ kept capacity q (x :: xs) := by
      rw [← foldl_send, ← foldl_send, List.foldl_cons]
    rw [send_eq, List.append_assoc] at hsend
    rw [List.map_cons, accepted, ih, send_eq]
    exact List.append_cancel_left hsend

/-! ## Losses -/

theorem kept_of_lt {capacity : Nat} {q : List α} {x : α} (h : q.length < capacity) :
    kept capacity q [x] = [x] :=
  List.append_cancel_left ((send_eq capacity q x).symm.trans (send_of_lt h))

theorem kept_of_le {capacity : Nat} {q : List α} {x : α} (h : capacity ≤ q.length) :
    kept capacity q [x] = [] := by
  rw [kept, Nat.sub_eq_zero_of_le h, List.take_zero]

/-- Every put finds room. -/
def Lossless (capacity : Nat) (ops : List (Op α)) : Prop :=
  EachStep (fun before op => ∀ x, op = Op.put x → (after capacity [] before).length < capacity) ops

theorem accepted_sublist (capacity : Nat) (q : List α) (ops : List (Op α)) :
    (accepted capacity q ops).Sublist (puts ops) := by
  induction ops generalizing q with
  | nil => exact List.Sublist.refl _
  | cons a ops ih =>
    cases a with
    | put x => exact (kept_sublist capacity q [x]).append (ih _)
    | get => exact ih _

/-- All that was put was accepted exactly if every put found room. -/
theorem accepted_eq_puts_iff (capacity : Nat) (ops : List (Op α)) :
    accepted capacity [] ops = puts ops ↔ Lossless capacity ops := by
  induction ops using List.reverseRecOn with
  | nil => exact iff_of_true rfl (EachStep.nil _)
  | append_singleton ops a ih =>
    rw [Lossless, EachStep.concat_iff, accepted_append, puts_append]
    show _ ↔ Lossless capacity ops ∧ _
    rw [← ih]
    cases a with
    | get => simp [accepted]
    | put x =>
      simp only [accepted, puts_put, List.append_nil, Op.put.injEq]
      rcases Nat.lt_or_ge (after capacity [] ops).length capacity with hlt | hge
      · rw [kept_of_lt hlt]
        simp [hlt]
      · -- one element fewer was accepted
        have hlen := (accepted_sublist capacity [] ops).length_le
        rw [kept_of_le hge, List.append_nil]
        refine iff_of_false (fun h => ?_) fun h => absurd (h.2 x rfl) (Nat.not_lt.mpr hge)
        have := congrArg List.length h
        simp only [List.length_append, List.length_singleton] at this
        omega

/-! ## The stretches -/

theorem length_after_le {capacity : Nat} {q : List α} (hq : q.length ≤ capacity)
    (ops : List (Op α)) : (after capacity q ops).length ≤ capacity := by
  induction ops generalizing q with
  | nil => exact hq
  | cons a ops ih =>
    refine ih ?_
    cases a with
    | put x =>
      rcases Nat.lt_or_ge q.length capacity with hlt | hge
      · rw [Op.apply, send_of_lt hlt, List.length_append, List.length_singleton]
        omega
      · rw [Op.apply, send_of_le hge]
        exact hq
    | get =>
      rw [Op.apply, receive, List.length_tail]
      omega

/-- **What goes in comes out or stays**: the elements accepted are those found
and those left. -/
theorem length_after_add_found (capacity : Nat) (q : List α) (ops : List (Op α)) :
    (after capacity q ops).length + found capacity q ops =
      q.length + (accepted capacity q ops).length := by
  induction ops generalizing q with
  | nil => rfl
  | cons a ops ih =>
    cases a with
    | put x =>
      have hsend : (send capacity q x).length = q.length + (kept capacity q [x]).length := by
        rw [send_eq, List.length_append]
      simp only [found, accepted, List.length_append]
      have := ih (send capacity q x)
      simp only [after, List.foldl_cons, Op.apply] at this ⊢
      omega
    | get =>
      simp only [found, accepted]
      have := ih q.tail
      simp only [after, List.foldl_cons, Op.apply, receive, List.length_tail] at this ⊢
      omega

theorem found_le_gets (capacity : Nat) (q : List α) (ops : List (Op α)) :
    found capacity q ops ≤ gets ops := by
  induction ops generalizing q with
  | nil => exact Nat.le_refl 0
  | cons a ops ih =>
    rw [← List.singleton_append, gets_append]
    cases a with
    | put x =>
      rw [gets_put, Nat.zero_add]
      exact ih (send capacity q x)
    | get =>
      rw [gets_get]
      exact Nat.add_le_add (Nat.min_le_left 1 _) (ih q.tail)

/-- Where nothing is lost, a stretch puts at most `capacity` more than its
gets find. -/
theorem puts_le_found {capacity : Nat} {as w bs : List (Op α)}
    (h : accepted capacity [] (as ++ w ++ bs) = puts (as ++ w ++ bs)) :
    (puts w).length ≤ capacity + found capacity (after capacity [] as) w := by
  -- each of the three parts accepts at most what it puts
  have hall := congrArg List.length h
  simp only [accepted_append, puts_append, List.length_append] at hall
  have has := (accepted_sublist capacity [] as).length_le
  have hw := (accepted_sublist capacity (after capacity [] as) w).length_le
  have hbs := (accepted_sublist capacity (after capacity [] (as ++ w)) bs).length_le
  have hbalance := length_after_add_found capacity (after capacity [] as) w
  have hle := length_after_le (length_after_le (q := ([] : List α)) (Nat.zero_le capacity) as) w
  omega

/-- **The busy period**: without losses, what the queue holds is what was put
and not got in the stretch since it was last found empty. -/
theorem exists_busy {capacity : Nat} {ops : List (Op α)} (h : Lossless capacity ops) :
    ∃ as w, ops = as ++ w ∧ (after capacity [] ops).length + gets w = (puts w).length := by
  induction ops using List.reverseRecOn with
  | nil => exact ⟨[], [], rfl, rfl⟩
  | append_singleton ops a ih =>
    obtain ⟨hops, ha⟩ := EachStep.concat_iff.mp h
    obtain ⟨as, w, rfl, hbusy⟩ := ih hops
    rw [after_append]
    cases a with
    | put x =>
      refine ⟨as, w ++ [Op.put x], by simp, ?_⟩
      have hroom := ha x rfl
      simp only [after, List.foldl_cons, List.foldl_nil, Op.apply] at hroom hbusy ⊢
      rw [send_of_lt hroom]
      simp only [puts_append, puts_put, gets_append, gets_put, List.length_append,
        List.length_singleton]
      omega
    | get =>
      cases hq : after capacity [] (as ++ w) with
      | nil =>
        -- found empty: the stretch begins here
        exact ⟨as ++ w ++ [Op.get], [], by simp, rfl⟩
      | cons x q =>
        refine ⟨as, w ++ [Op.get], by simp, ?_⟩
        rw [hq] at hbusy
        simp only [after, List.foldl_cons, List.foldl_nil, Op.apply, receive, List.tail_cons,
          puts_append, puts_get, gets_append, gets_get, List.append_nil, List.length_cons]
          at hbusy ⊢
        omega

/-- **Nothing is lost** exactly if every stretch has at most `capacity` more
puts than gets. -/
theorem lossless_iff (capacity : Nat) (ops : List (Op α)) :
    accepted capacity [] ops = puts ops ↔
      ∀ w, w <:+: ops → (puts w).length ≤ capacity + gets w := by
  constructor
  · intro h w hw
    obtain ⟨as, bs, rfl⟩ := hw
    exact Nat.le_trans (puts_le_found h) (Nat.add_le_add_left (found_le_gets _ _ _) _)
  · intro h
    rw [accepted_eq_puts_iff]
    induction ops using List.reverseRecOn with
    | nil => exact EachStep.nil _
    | append_singleton ops a ih =>
      have hops : Lossless capacity ops :=
        ih fun w hw => h w (hw.trans (List.prefix_append _ _).isInfix)
      refine EachStep.concat_iff.mpr ⟨hops, fun x hx => ?_⟩
      subst hx
      -- the stretch since the queue was last empty, and this put
      obtain ⟨as, w, rfl, hbusy⟩ := exists_busy hops
      have hw := h (w ++ [Op.put x]) ⟨as, [], by simp⟩
      simp only [puts_append, puts_put, gets_append, gets_put, List.length_append,
        List.length_singleton] at hw
      omega

/-- In every stretch the puts are at most `capacity` more than the gets that
find an element. -/
def FindsKeepUp (capacity : Nat) (ops : List (Op α)) : Prop :=
  ∀ as w bs, ops = as ++ w ++ bs →
    (puts w).length ≤ capacity + found capacity (after capacity [] as) w

/-- The same with the gets that find an element. -/
theorem lossless_iff_found (capacity : Nat) (ops : List (Op α)) :
    accepted capacity [] ops = puts ops ↔ FindsKeepUp capacity ops := by
  constructor
  · rintro h as w bs rfl
    exact puts_le_found h
  · intro h
    rw [lossless_iff]
    rintro w ⟨as, bs, hops⟩
    exact Nat.le_trans (h as w bs hops.symm) (Nat.add_le_add_left (found_le_gets _ _ _) _)

end Fifo
