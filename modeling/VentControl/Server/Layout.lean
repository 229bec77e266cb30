/-
VentControl.Server.Layout — `socket_data` in memory: what `memset` and
`recv` write behind `receive_buffer`.

`Server.Socket` keeps the fields of a socket apart and forgets what is
written behind the end of a buffer. In memory the fields stand one behind
the other, each at the next offset that its alignment allows. Behind the
128 bytes of `receive_buffer` comes one byte of padding, then
`receive_size`, `send_buffer` and the rest, then the next socket.

So a write that starts in `receive_buffer` may reach one byte behind it
and no further. For the reads of `server_loop` this is
`SocketData.ReadsInside`: under it the model is right about the buffer,
and every other field of every socket keeps its bytes
(`SocketData.ReadsInside.memory`). `receive_size` can then be one more
than the buffer has bytes. The byte that the parser searches beyond the
end is the padding, which `memset` has just cleared, so the search ends as
it does in the model (`SocketData.ReadsInside.search`).
-/
import VentControl.Lib.CStruct
import VentControl.Server.SocketTheorems

namespace VentControl.Server

open CString CStruct

/-! ## The fields of `socket_data_t` -/

/-- The members of `socket_data_t`. -/
inductive Member
  | socketId
  | listeningPort
  | socketOpen
  | receiveBuffer
  | receiveSize
  | sendBuffer
  | sendSize
  | lastCommandReceived
  | lastCommandSend
  deriving DecidableEq, Repr

/-- The members, in the order of the source. -/
def members : List Member :=
  [.socketId, .listeningPort, .socketOpen, .receiveBuffer, .receiveSize, .sendBuffer, .sendSize,
    .lastCommandReceived, .lastCommandSend]

/-- The types of the members. An unsigned integer is aligned to its size. -/
def Member.layout : Member → TypeLayout
  | .socketId => ⟨1, 1⟩
  | .listeningPort => ⟨2, 2⟩
  | .socketOpen => ⟨1, 1⟩
  | .receiveBuffer => ⟨bufferSize, 1⟩
  | .receiveSize => ⟨2, 2⟩
  | .sendBuffer => ⟨bufferSize, 1⟩
  | .sendSize => ⟨2, 2⟩
  | .lastCommandReceived => ⟨8, 8⟩
  | .lastCommandSend => ⟨8, 8⟩

/-- `offsetof(socket_data_t, m)`. -/
def Member.offset (m : Member) : Nat :=
  (offsets 0 (members.map Member.layout)).getD (members.idxOf m) 0

/-- `sizeof(socket_data_t)`. -/
def socketDataSize : Nat :=
  roundUp (Member.lastCommandSend.offset + Member.lastCommandSend.layout.size) 8

example : members.map Member.offset = [0, 2, 4, 5, 134, 136, 264, 272, 280] := by decide

@[simp] theorem socketDataSize_eq : socketDataSize = 288 := by decide

/-- A member of `socket_data[i]`. -/
def Member.span (m : Member) (i : Fin listeningSocketCount) : Span :=
  ⟨i * socketDataSize + m.offset, m.layout.size⟩

/-- Where `socket_data[i].receive_buffer` starts. -/
def receiveBufferAt (i : Fin listeningSocketCount) : Nat := (Member.receiveBuffer.span i).start

theorem receiveBufferAt_eq (i : Fin listeningSocketCount) : receiveBufferAt i = i * 288 + 5 := by
  have hoffset : Member.receiveBuffer.offset = 5 := by decide
  simp only [receiveBufferAt, Member.span, socketDataSize_eq, hoffset]

/-- A member stands before the buffer, or behind it and a byte of padding, or
is the buffer. -/
theorem member_side (m : Member) :
    m = .receiveBuffer ∨ m.offset + m.layout.size ≤ 5 ∨
      5 + bufferSize + 1 ≤ m.offset ∧ m.offset + m.layout.size ≤ 288 := by
  cases m <;> decide

/-- What is written at most one byte past the end of a `receive_buffer` meets
no other member of any socket. -/
theorem span_apart {i j : Fin listeningSocketCount} {m : Member}
    (hother : ¬ (j = i ∧ m = .receiveBuffer)) {k n : Nat} (hend : k + n ≤ bufferSize + 1) :
    (m.span j).Apart (receiveBufferAt i + k) n := by
  have hlen : bufferSize = 128 := rfl
  have hfits : m.offset + m.layout.size ≤ 288 := by cases m <;> decide
  simp only [Span.Apart, receiveBufferAt_eq, Member.span, socketDataSize_eq]
  by_cases hj : j = i
  · have hside := (member_side m).resolve_left fun hm => hother ⟨hj, hm⟩
    subst hj
    omega
  · -- another socket
    have hval := Fin.val_ne_of_ne hj
    omega

/-! ## Memory -/

/-- The memory of `socket_data`. -/
@[ext] structure Memory where
  bytes : List UInt8
  size_eq : bytes.length = listeningSocketCount * socketDataSize

/-- Write into it. -/
def Memory.store (mem : Memory) (off : Nat) (data : List UInt8) : Memory :=
  ⟨storeAt mem.bytes off data, by rw [length_storeAt, mem.size_eq]⟩

/-- The bytes of a member. -/
def Memory.read (mem : Memory) (i : Fin listeningSocketCount) (m : Member) : List UInt8 :=
  (m.span i).read mem.bytes

/-- Lines 154 to 156 on socket `i`: `memset`, then `recv` of `data`. -/
def Memory.receive (mem : Memory) (i : Fin listeningSocketCount) (receiveSize : Nat)
    (data : List UInt8) : Memory :=
  (mem.store (receiveBufferAt i + receiveSize) (List.replicate bufferSize 0)).store
    (receiveBufferAt i) data

/-- A buffer and the padding behind it are inside the memory. -/
theorem receiveBufferAt_lt (i : Fin listeningSocketCount) :
    receiveBufferAt i + bufferSize < listeningSocketCount * socketDataSize := by
  have hlen : bufferSize = 128 := rfl
  have hi := i.isLt
  rw [receiveBufferAt_eq, socketDataSize_eq]
  omega

/-- A write that starts in a `receive_buffer` does to it what the model's
write does. -/
theorem Memory.read_store_receiveBuffer {mem : Memory} {i : Fin listeningSocketCount}
    {b : Buffer} (hb : mem.read i .receiveBuffer = b.bytes) {off k : Nat}
    (hoff : off = receiveBufferAt i + k) (data : List UInt8) :
    (mem.store off data).read i .receiveBuffer = (b.store k data).bytes := by
  have hle := receiveBufferAt_lt i
  rw [← mem.size_eq] at hle
  subst hoff
  exact (Span.read_storeAt (Nat.le_of_lt hle) k data).trans (congrArg (storeAt · k data) hb)

/-- A write that reaches at most one byte past it leaves the other members
alone. -/
theorem Memory.read_store_other {mem : Memory} {i j : Fin listeningSocketCount} {m : Member}
    (hother : ¬ (j = i ∧ m = .receiveBuffer)) {off k : Nat} (hoff : off = receiveBufferAt i + k)
    {data : List UInt8} (hend : k + data.length ≤ bufferSize + 1) :
    (mem.store off data).read j m = mem.read j m := by
  subst hoff
  exact Span.read_storeAt_apart (span_apart hother hend)

section Receive

variable {mem : Memory} {i : Fin listeningSocketCount} {s : SocketData} {a : Answers}

/-- **The reads of `server_loop` in memory.** When they stay inside, and
`recv` stores no more than it is asked for, the buffer holds what it does
in the model, and every other field of every socket is as it was. -/
theorem SocketData.ReadsInside.memory (h : s.ReadsInside a) (hsr : a.sr = .established)
    (hrx : a.rxRsr > 0) (hrecv : a.recv.data.length ≤ a.rxRsr)
    (hbuffer : mem.read i .receiveBuffer = s.receiveBuffer.bytes) :
    (mem.receive i s.receiveSize a.recv.data).read i .receiveBuffer = (s.read a).bytes ∧
    ∀ j m, ¬ (j = i ∧ m = .receiveBuffer) →
      (mem.receive i s.receiveSize a.recv.data).read j m = mem.read j m := by
  obtain ⟨hone, hfits⟩ := h hsr hrx
  have hset : s.receiveSize + (List.replicate bufferSize (0 : UInt8)).length ≤ bufferSize + 1 := by
    rw [List.length_replicate]
    omega
  have hdata : 0 + a.recv.data.length ≤ bufferSize + 1 := by omega
  have hfront : receiveBufferAt i = receiveBufferAt i + 0 := (Nat.add_zero _).symm
  refine ⟨?_, fun j m hother => ?_⟩
  · have hcleared := Memory.read_store_receiveBuffer (k := s.receiveSize) hbuffer rfl
      (List.replicate bufferSize 0)
    exact Memory.read_store_receiveBuffer hcleared hfront a.recv.data
  · have hcleared : (mem.store _ (List.replicate bufferSize 0)).read j m = mem.read j m :=
      Memory.read_store_other hother rfl hset
    exact (Memory.read_store_other hother hfront hdata).trans hcleared

/-- Not so with four bytes waiting: `memset` clears `receive_size` and the
first byte of `send_buffer`. -/
example :
    let mem : Memory := ⟨List.replicate 1152 1, by decide +kernel⟩
    (mem.receive 0 4 [hash]).read 0 .receiveSize = [0, 0] ∧
      ((mem.receive 0 4 [hash]).read 0 .sendBuffer).take 2 = [0, 1] := by
  decide +kernel

/-- **The search of the parser in memory.** After such a read the parser
searches at most one byte beyond the buffer, and finds what it finds in the
model. -/
theorem SocketData.ReadsInside.search (h : s.ReadsInside a) (hsr : a.sr = .established)
    (hrx : a.rxRsr > 0) (hrecv : a.recv.data.length ≤ a.rxRsr)
    (hbuffer : mem.read i .receiveBuffer = s.receiveBuffer.bytes) {n : Nat}
    (hn : n ≤ s.receiveSize + a.rxRsr) :
    strnstr hash
        ((mem.receive i s.receiveSize a.recv.data).bytes.drop (receiveBufferAt i)) n =
      strnstr hash (s.read a).bytes n := by
  have hread := (h.memory hsr hrx hrecv hbuffer).1
  obtain ⟨hone, hfits⟩ := h hsr hrx
  have hsize := (s.read a).size_eq
  refine strnstr_beyond (by decide) (by rw [hsize]; exact hread) ?_
  rw [hsize]
  rcases Nat.lt_or_ge bufferSize n with hbeyond | hinside
  · -- one byte waited, and the padding behind the buffer was cleared
    refine Or.inr ⟨by omega, ?_⟩
    have hmem := receiveBufferAt_lt i
    rw [← mem.size_eq] at hmem
    have hbyte : ((mem.store (receiveBufferAt i + s.receiveSize)
        (List.replicate bufferSize 0)).bytes)[receiveBufferAt i + bufferSize]? = some 0 := by
      rw [Memory.store, getElem?_storeAt, List.length_replicate, if_pos (by omega),
        List.getElem?_replicate, if_pos (by omega)]
    rw [List.getElem?_drop, Memory.receive, Memory.store, getElem?_storeAt, if_neg (by omega)]
    exact hbyte
  · exact Or.inl hinside

end Receive

end VentControl.Server
