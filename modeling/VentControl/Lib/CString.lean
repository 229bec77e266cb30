/-
VentControl.Lib.CString — byte arrays of fixed size, NUL-terminated
strings in them, and the calls of the C library that work on the two.

An array is the list of its bytes. `storeAt` writes into it and never
changes its size: what would fall behind the end is not stored. Such a
write is undefined in C; a model that has to rule it out keeps a record of
the accesses.

`strnstr` is the search for a one-character needle: the first occurrence
among the first `n` bytes, if no NUL stands before it. `cstr` is the
string an array holds. `cstr_storeAt_nul` is what a parser relies on that
writes a NUL over the delimiter it found: the array now holds exactly the
bytes before it.

`formatD` prints a number as `%d` does, and `scanD` reads it back.
-/
import Mathlib.Data.List.Basic

namespace CString

/-- The bytes of a text. -/
def ascii (text : List Char) : List UInt8 := text.map fun c => c.toNat.toUInt8

/-! ## Writing into an array -/

/-- Write `data` at `off`; bytes behind the end of the array are not
stored. -/
def storeAt (array : List UInt8) (off : Nat) (data : List UInt8) : List UInt8 :=
  array.take off ++ data.take (array.length - off) ++ array.drop (off + data.length)

@[simp] theorem length_storeAt (array : List UInt8) (off : Nat) (data : List UInt8) :
    (storeAt array off data).length = array.length := by
  simp only [storeAt, List.length_append, List.length_take, List.length_drop]
  omega

/-- The bytes of an array after a write. -/
theorem getElem?_storeAt (array : List UInt8) (off : Nat) (data : List UInt8) (i : Nat) :
    (storeAt array off data)[i]? =
      if off ≤ i ∧ i < off + data.length ∧ i < array.length then data[i - off]?
      else array[i]? := by
  rcases Nat.lt_or_ge i array.length with hi | hi
  · simp only [storeAt, List.append_assoc, List.getElem?_append, List.length_take,
      List.getElem?_take, List.getElem?_drop]
    by_cases hbefore : i < off
    · rw [if_pos (by omega), if_pos hbefore, if_neg (by omega)]
    · rw [if_neg (by omega), Nat.min_eq_left (by omega)]
      by_cases hdata : i < off + data.length
      · rw [if_pos (by omega), if_pos (by omega), if_pos (by omega)]
      · have hrest : off + data.length + (i - off - min (array.length - off) data.length) = i := by
          omega
        rw [if_neg (by omega), if_neg (by omega), hrest]
  · rw [if_neg (by omega), List.getElem?_eq_none (by simpa using hi),
      List.getElem?_eq_none hi]

/-- A write at the front leaves the data, then the old bytes behind it. -/
theorem storeAt_zero {array data : List UInt8} (h : data.length ≤ array.length) :
    storeAt array 0 data = data ++ array.drop data.length := by
  simp [storeAt, List.take_of_length_le h]

/-- `memset` to 0 of everything from `off` on. -/
theorem storeAt_zeros {array : List UInt8} {off n : Nat} (hn : array.length ≤ off + n) :
    storeAt array off (List.replicate n 0) =
      array.take off ++ List.replicate (array.length - off) 0 := by
  have hmin : min (array.length - off) n = array.length - off := by omega
  simp [storeAt, List.drop_eq_nil_of_le hn, hmin]

/-! ## Strings -/

/-- The string an array holds: its bytes up to the first NUL. -/
def cstr (array : List UInt8) : List UInt8 := array.takeWhile (· ≠ 0)

/-- `strcmp(array, text) == 0`. -/
def strEq (array : List UInt8) (text : List Char) : Bool := cstr array == ascii text

/-- The first `c` of a list, if no NUL stands before it. -/
def findBeforeNul (c : UInt8) : List UInt8 → Option Nat
  | [] => none
  | b :: rest =>
    if b = c then some 0
    else if b = 0 then none
    else (findBeforeNul c rest).map (· + 1)

/-- `strnstr(array, "c", n)`. -/
def strnstr (c : UInt8) (array : List UInt8) (n : Nat) : Option Nat :=
  findBeforeNul c (array.take n)

/-- What a hit says: the bytes before it are neither the needle nor NUL. -/
theorem findBeforeNul_eq_some_iff {c : UInt8} {l : List UInt8} {k : Nat} :
    findBeforeNul c l = some k ↔
      ∃ p q, l = p ++ c :: q ∧ p.length = k ∧ c ∉ p ∧ 0 ∉ p := by
  induction l generalizing k with
  | nil => simp [findBeforeNul]
  | cons b l ih =>
    by_cases hc : b = c
    · subst hc
      simp only [findBeforeNul, if_true, Option.some.injEq]
      constructor
      · rintro rfl
        exact ⟨[], l, rfl, rfl, by simp, by simp⟩
      · rintro ⟨p, q, hp, hk, hmem, -⟩
        cases p with
        | nil => simpa using hk
        | cons x p =>
          simp only [List.cons_append, List.cons.injEq] at hp
          exact absurd (by simp [hp.1]) hmem
    · by_cases h0 : b = 0
      · subst h0
        simp only [findBeforeNul, hc, if_false, if_true, reduceCtorEq, false_iff]
        rintro ⟨p, q, hp, -, -, h0⟩
        cases p with
        | nil =>
          simp only [List.nil_append, List.cons.injEq] at hp
          exact hc hp.1
        | cons x p =>
          simp only [List.cons_append, List.cons.injEq] at hp
          exact h0 (by simp [hp.1])
      · simp only [findBeforeNul, hc, h0, if_false, Option.map_eq_some_iff, ih]
        constructor
        · rintro ⟨k', ⟨p, q, rfl, rfl, hpc, hp0⟩, rfl⟩
          exact ⟨b :: p, q, rfl, rfl, by simp [hpc, Ne.symm hc], by simp [hp0, Ne.symm h0]⟩
        · rintro ⟨p, q, hp, hk, hpc, hp0⟩
          cases p with
          | nil =>
            simp only [List.nil_append, List.cons.injEq] at hp
            exact absurd hp.1 hc
          | cons x p =>
            simp only [List.cons_append, List.cons.injEq] at hp
            obtain ⟨rfl, rfl⟩ := hp
            refine ⟨p.length, ⟨p, q, rfl, rfl, ?_, ?_⟩, by simpa using hk⟩
            · exact fun h => hpc (by simp [h])
            · exact fun h => hp0 (by simp [h])

/-- A miss: no needle at all, or a NUL before the first. -/
theorem findBeforeNul_eq_none_iff {c : UInt8} {l : List UInt8} :
    findBeforeNul c l = none ↔ ∀ p q, l = p ++ c :: q → c ∉ p → 0 ∈ p := by
  rw [← Option.not_isSome_iff_eq_none, Option.isSome_iff_exists]
  simp only [findBeforeNul_eq_some_iff]
  grind

/-- A list without NUL and without needle, followed by the needle, is found
at its end. -/
theorem findBeforeNul_append {c : UInt8} {p q : List UInt8} (hc : c ∉ p) (h0 : 0 ∉ p) :
    findBeforeNul c (p ++ c :: q) = some p.length :=
  findBeforeNul_eq_some_iff.mpr ⟨p, q, rfl, rfl, hc, h0⟩

/-- A NUL at the end of a list changes no search in it. -/
theorem findBeforeNul_concat_nul {c : UInt8} (hc : c ≠ 0) (l : List UInt8) :
    findBeforeNul c (l ++ [0]) = findBeforeNul c l := by
  induction l with
  | nil => simp [findBeforeNul, Ne.symm hc]
  | cons b l ih => simp only [List.cons_append, findBeforeNul, ih]

/-- A search that goes one byte beyond an array finds what it finds in the
array, if that byte is NUL. -/
theorem strnstr_beyond {c : UInt8} (hc : c ≠ 0) {mem array : List UInt8}
    (harray : mem.take array.length = array) {n : Nat}
    (hn : n ≤ array.length ∨ n = array.length + 1 ∧ mem[array.length]? = some 0) :
    strnstr c mem n = strnstr c array n := by
  rcases hn with hle | ⟨rfl, hnul⟩
  · have htake : mem.take n = array.take n := by
      have htwice := congrArg (List.take n) harray
      rwa [List.take_take, Nat.min_eq_left hle] at htwice
    rw [strnstr, htake, strnstr]
  · have htake : mem.take (array.length + 1) = array ++ [0] := by
      rw [List.take_add_one, harray, hnul, Option.toList_some]
    rw [strnstr, htake, findBeforeNul_concat_nul hc, strnstr,
      List.take_of_length_le (Nat.le_succ _)]

/-- A NUL written over position `k` of bytes without one makes the array
hold exactly the bytes before it. -/
theorem cstr_storeAt_nul {p q : List UInt8} (b : UInt8) (h0 : 0 ∉ p) :
    cstr (storeAt (p ++ b :: q) p.length [0]) = p := by
  have hst : storeAt (p ++ b :: q) p.length [0] = p ++ 0 :: q := by
    simp [storeAt]
  rw [hst, cstr, List.takeWhile_append_of_pos]
  · simp
  · intro x hx
    simpa using fun he : x = 0 => h0 (he ▸ hx)

/-! ## Printing -/

/-- `%d`. -/
def formatD (v : Int) : List UInt8 :=
  (if v < 0 then ascii ['-'] else []) ++ ascii (Nat.toDigits 10 v.natAbs)

/-! ## Reading what was printed -/

/-- The characters of some bytes. -/
def chars (bytes : List UInt8) : List Char := bytes.map fun b => Char.ofNat b.toNat

theorem chars_ascii {text : List Char} (h : ∀ c ∈ text, c.toNat < 256) :
    chars (ascii text) = text := by
  induction text with
  | nil => rfl
  | cons c text ih =>
    have hhead : Char.ofNat c.toNat.toUInt8.toNat = c := by
      rw [UInt8.toNat_ofNat', Nat.mod_eq_of_lt (h c (by simp)), Char.ofNat_toNat]
    have htail : chars (ascii text) = text := ih fun c hc => h c (by simp [hc])
    show Char.ofNat c.toNat.toUInt8.toNat :: chars (ascii text) = c :: text
    rw [hhead, htail]

/-- The number that some digits stand for. -/
def scanDigits (bytes : List UInt8) : Option Nat :=
  if bytes ≠ [] ∧ (chars bytes).all Char.isDigit then
    some (Nat.ofDigitChars 10 (chars bytes) 0)
  else none

/-- The number that `%d` printed. -/
def scanD (bytes : List UInt8) : Option Int :=
  if bytes.head? = some 45 then (scanDigits bytes.tail).map fun n : Nat => -(n : Int)
  else (scanDigits bytes).map fun n : Nat => (n : Int)

theorem toNat_of_isDigit {c : Char} (h : c.isDigit = true) : 48 ≤ c.toNat ∧ c.toNat ≤ 57 := by
  simpa [Char.isDigit, UInt32.le_iff_toNat_le] using h

/-- The bytes of a digit string. -/
theorem mem_digits {n : Nat} {b : UInt8} (h : b ∈ ascii (Nat.toDigits 10 n)) :
    48 ≤ b.toNat ∧ b.toNat ≤ 57 := by
  obtain ⟨c, hc, rfl⟩ := List.mem_map.mp h
  have hdigit := toNat_of_isDigit (Nat.isDigit_of_mem_toDigits (by decide) (by decide) hc)
  rw [UInt8.toNat_ofNat', Nat.mod_eq_of_lt (by omega)]
  exact hdigit

theorem scanDigits_digits (n : Nat) : scanDigits (ascii (Nat.toDigits 10 n)) = some n := by
  have hdigit : ∀ c ∈ Nat.toDigits 10 n, c.isDigit = true := fun c hc =>
    Nat.isDigit_of_mem_toDigits (by decide) (by decide) hc
  have hchars : chars (ascii (Nat.toDigits 10 n)) = Nat.toDigits 10 n :=
    chars_ascii fun c hc => by have := toNat_of_isDigit (hdigit c hc); omega
  rw [scanDigits, hchars, Nat.ofDigitChars_ten_toDigits, if_pos]
  refine ⟨fun hnil => ?_, by simpa using hdigit⟩
  exact absurd (List.map_eq_nil_iff.mp hnil) Nat.toDigits_ne_nil

/-- **What `%d` prints is read back.** -/
theorem scanD_formatD (v : Int) : scanD (formatD v) = some v := by
  by_cases hv : v < 0
  · have hminus : formatD v = 45 :: ascii (Nat.toDigits 10 v.natAbs) := by
      rw [formatD, if_pos hv]
      rfl
    rw [hminus, scanD, List.head?_cons, if_pos rfl, List.tail_cons, scanDigits_digits,
      Option.map_some, show -(v.natAbs : Int) = v by omega]
  · have hplus : formatD v = ascii (Nat.toDigits 10 v.natAbs) := by
      rw [formatD, if_neg hv, List.nil_append]
    have hhead : (ascii (Nat.toDigits 10 v.natAbs)).head? ≠ some 45 := fun h => by
      have := mem_digits (List.mem_of_head? h)
      simp at this
    rw [hplus, scanD, if_neg hhead, scanDigits_digits, Option.map_some,
      show (v.natAbs : Int) = v by omega]

/-- `%d` prints digits and a minus sign. -/
theorem mem_formatD {v : Int} {b : UInt8} (h : b ∈ formatD v) :
    b.toNat = 45 ∨ 48 ≤ b.toNat ∧ b.toNat ≤ 57 := by
  rcases List.mem_append.mp h with h | h
  · split at h
    · obtain rfl : b = 45 := by simpa [ascii] using h
      exact Or.inl rfl
    · simp at h
  · exact Or.inr (mem_digits h)

end CString
