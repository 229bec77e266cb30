/-
VentControl.Lib.CStruct — the members of a C struct, and what a write into
memory does to them.

A member stands at the first offset behind the one before it that its
alignment allows; `offsets` are these. What lies between two members is
padding, which belongs to none of them.

Memory is a list of bytes, and a write into it is `CString.storeAt`. A
`Span` is a range of it. A write changes a span in the bytes that fall
into it, as a write into an array of that size would (`Span.read_storeAt`),
and leaves alone every span that it does not meet
(`Span.read_storeAt_apart`). So a model that keeps the members apart, and
forgets what a write does behind the end of the member it is meant for, is
right exactly as far as those bytes are padding.
-/
import VentControl.Lib.CString

namespace CStruct

open CString

/-! ## Offsets -/

/-- What a type takes in memory. -/
structure TypeLayout where
  size : Nat
  align : Nat
  deriving DecidableEq, Repr

/-- The first multiple of `align` from `n` on. -/
def roundUp (n align : Nat) : Nat := (n + align - 1) / align * align

/-- The offsets of the members of a struct, from the first free byte `n`
on. -/
def offsets : Nat → List TypeLayout → List Nat
  | _, [] => []
  | n, t :: ts => roundUp n t.align :: offsets (roundUp n t.align + t.size) ts

/-! ## Spans -/

/-- A range of memory. -/
structure Span where
  start : Nat
  size : Nat
  deriving DecidableEq, Repr

/-- The bytes in it. -/
def Span.read (x : Span) (mem : List UInt8) : List UInt8 := (mem.drop x.start).take x.size

/-- The span has no byte among the `n` from `off` on. -/
def Span.Apart (x : Span) (off n : Nat) : Prop := x.start + x.size ≤ off ∨ off + n ≤ x.start

theorem Span.length_read {x : Span} {mem : List UInt8} (h : x.start + x.size ≤ mem.length) :
    (x.read mem).length = x.size := by
  rw [Span.read, List.length_take, List.length_drop]
  omega

theorem Span.getElem?_read (x : Span) (mem : List UInt8) (i : Nat) :
    (x.read mem)[i]? = if i < x.size then mem[x.start + i]? else none := by
  rw [Span.read, List.getElem?_take, List.getElem?_drop]

/-- A span that the write does not meet stays as it was. -/
theorem Span.read_storeAt_apart {x : Span} {mem data : List UInt8} {off : Nat}
    (h : x.Apart off data.length) : x.read (storeAt mem off data) = x.read mem := by
  refine List.ext_getElem? fun i => ?_
  rw [x.getElem?_read, x.getElem?_read]
  split
  · next hi =>
    rw [getElem?_storeAt, if_neg]
    rcases h with h | h <;> omega
  · rfl

/-- Of a write that begins in the span, what falls into the span is stored as
in an array of its own. -/
theorem Span.read_storeAt {x : Span} {mem : List UInt8} (hx : x.start + x.size ≤ mem.length)
    (k : Nat) (data : List UInt8) :
    x.read (storeAt mem (x.start + k) data) = storeAt (x.read mem) k data := by
  refine List.ext_getElem? fun i => ?_
  rw [x.getElem?_read, getElem?_storeAt, getElem?_storeAt, Span.length_read hx,
    x.getElem?_read]
  by_cases hi : i < x.size
  · have hlt : x.start + i < mem.length := by omega
    by_cases hk : k ≤ i ∧ i < k + data.length
    · rw [if_pos hi, if_pos (by omega), if_pos (by omega), Nat.add_sub_add_left]
    · rw [if_pos hi, if_neg (by omega), if_neg (by omega), if_pos hi]
  · rw [if_neg hi, if_neg (by omega), if_neg hi]

end CStruct
