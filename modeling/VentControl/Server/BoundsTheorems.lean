/-
VentControl.Server.BoundsTheorems — the receive buffer under arbitrary
sequences of calls.

`ReceiveSide` runs `server_loop` and `handle_receive_bufffer` on one
socket, in any order, beside the list of the bytes that were received and
not processed yet. A step is right (`ReceiveSide.Right`) when what it
writes and searches stays inside the buffer, and afterwards
`receive_size` counts the unprocessed bytes and they stand at the front.

Not every step is. `memset` clears `BUFFER_SIZE` bytes from
`receive_size` on, so it leaves the buffer unless that is 0; `recv` is
asked for all the chip has, which may be more than the buffer holds; and
the parser forgets what follows the `'#'` it found, or after `VAK1`
counts one byte that nobody sent. `receive_bounds_iff` says that these
are all the ways to go wrong.
-/
import VentControl.Lib.Run
import VentControl.Lib.Framing
import VentControl.Server.SocketTheorems

namespace VentControl.Server

open Runs Framing CString

/-! ## The calls on one socket -/

/-- A call on the socket. -/
inductive ReceiveOp
  | serverLoop (a : Answers)
  | handleReceiveBufffer (message : Message)

/-- What a call does to `receive_buffer`: it writes a range of it, or
searches a part at its front. -/
inductive Access
  | write (off len : Nat)
  | search (len : Nat)
  deriving DecidableEq, Repr

def Access.InBounds : Access → Prop
  | .write off len => off + len ≤ bufferSize
  | .search len => len ≤ bufferSize

instance (x : Access) : Decidable x.InBounds := by
  cases x <;> unfold Access.InBounds <;> infer_instance

/-- The write of a call to the C library or the chip. -/
def Call.write : Call → Option Access
  | .memset off len => some (.write off len)
  | .recv off len => some (.write off len)
  | _ => none

/-- The socket, and the bytes received on it that are not processed yet. -/
structure ReceiveSide where
  socket : SocketData
  unprocessed : List UInt8

/-- The unprocessed bytes after `server_loop`: what is received is added,
and a new round of listening forgets what is left. -/
def unprocessedLoop (a : Answers) (u : List UInt8) : List UInt8 :=
  match a.sr with
  | .established => if a.rxRsr > 0 then u ++ a.recv.data else u
  | .init => []
  | _ => u

/-- The unprocessed bytes after `handle_receive_bufffer`: a frame that was
found is processed, with its `'#'`. -/
def unprocessedHandle (s : SocketData) (u : List UInt8) : List UInt8 :=
  match strnstr hash s.receiveBuffer.bytes s.receiveSize with
  | some k => u.drop (k + 1)
  | none => u

/-- One call. -/
def ReceiveSide.step (r : ReceiveSide) : ReceiveOp → ReceiveSide × List Access
  | .serverLoop a =>
    (⟨(serverLoop a r.socket).1, unprocessedLoop a r.unprocessed⟩,
      (serverLoop a r.socket).2.filterMap Call.write)
  | .handleReceiveBufffer message =>
    (⟨(handleReceiveBufffer r.socket message).2.1, unprocessedHandle r.socket r.unprocessed⟩,
      [.search r.socket.receiveSize])

/-- The calls on a socket that `server_task` has initialised. -/
def receiveSide (s₀ : SocketData) : Mealy ReceiveSide ReceiveOp Access where
  init := ⟨{ s₀ with receiveSize := 0 }, []⟩
  step := ReceiveSide.step

/-- `receive_size` is the number of unprocessed bytes, which are at the
front of the buffer. -/
structure ReceiveSide.Counted (r : ReceiveSide) : Prop where
  size : r.socket.receiveSize = r.unprocessed.length
  bound : r.socket.receiveSize ≤ bufferSize
  front : r.socket.front = r.unprocessed

/-- The call stays inside the buffer and keeps count of the bytes. -/
structure ReceiveSide.Right (r : ReceiveSide) (op : ReceiveOp) : Prop where
  inBounds : ∀ x ∈ (r.step op).2, x.InBounds
  counted : (r.step op).1.Counted

/-- The bytes after the `'#'` of the first frame that the parser counts
right: none, and the first of its own text after `VAK1`. -/
def countedRest (f : List UInt8) : List UInt8 :=
  if f = ascii ['V', 'A', 'K', '1'] then ascii ['V'] else []

/-- The condition on a call. When there are bytes to read, nothing waits in
the buffer, and `recv` gives none of them or all, and they fit into it.
When the parser finds a frame, what follows it is `countedRest`. -/
def ReceiveSide.Fits (r : ReceiveSide) : ReceiveOp → Prop
  | .serverLoop a =>
    a.sr = .established → a.rxRsr > 0 →
      r.socket.receiveSize = 0 ∧
        (a.recv.ret ≤ 0 ∨ a.recv.ret = a.rxRsr ∧ a.rxRsr ≤ bufferSize)
  | .handleReceiveBufffer _ =>
    ∀ f rest, r.socket.front = f ++ hash :: rest → hash ∉ f → 0 ∉ f → rest = countedRest f

/-! ## `server_loop` -/

theorem serverLoop_writes (a : Answers) (s : SocketData) :
    (serverLoop a s).2.filterMap Call.write =
      if a.sr = .established ∧ a.rxRsr > 0 then
        [.write s.receiveSize bufferSize, .write 0 a.recv.data.length]
      else [] := by
  have hsend : ∀ s, (sendStep a s).2.filterMap Call.write = [] := by
    intro s
    obtain ⟨-, h⟩ | ⟨-, -, h⟩ | ⟨-, -, h⟩ := sendStep_cases a s <;> simp [h, Call.write]
  unfold serverLoop
  split
  · next hsr =>
    obtain ⟨hrx, -, h⟩ | ⟨hrx, -, -, h⟩ | ⟨hrx, -, h⟩ | ⟨hrx, -, h⟩ | ⟨hrx, -, h⟩ | ⟨hrx, -, h⟩ :=
        receiveStep_cases a (openSocket a s) <;>
      simp [h, hsr, hrx, hsend, Call.write, SocketData.readCalls]
  · next hsr => simp [hsr, Call.write]
  · next hsr => split <;> simp [hsr, Call.write]
  · next hsr => simp [hsr, Call.write]
  · next hsr => simp [hsr]

theorem addU16_zero {n : Nat} (h : n ≤ bufferSize) : addU16 0 n = n := by
  have hsize : bufferSize = 128 := rfl
  rw [addU16, Nat.zero_add, Nat.mod_eq_of_lt (by omega)]

/-- The bytes `recv` stores are as many as it returns. -/
theorem RecvResult.length_data (r : RecvResult) : (r.data.length : Int) = max r.ret 0 := by
  cases r with
  | stored data => simp [RecvResult.data, RecvResult.ret]
  | error code =>
    simp only [RecvResult.data, RecvResult.ret, List.length_nil]
    omega

/-- What stands in the buffer after a piece was read that fits into it. -/
theorem read_take {s : SocketData} {a : Answers} (hlen : a.recv.data.length ≤ bufferSize) :
    (s.read a).bytes.take a.recv.data.length = a.recv.data := by
  show (storeAt _ 0 a.recv.data).take _ = _
  rw [storeAt_zero (by rw [Buffer.size_eq]; exact hlen), List.take_left]

/-- The step when there are bytes to read. -/
theorem ReceiveSide.step_read (r : ReceiveSide) {a : Answers} (hsr : a.sr = .established)
    (hrx : a.rxRsr > 0) :
    (r.step (.serverLoop a)).2 =
        [.write r.socket.receiveSize bufferSize, .write 0 a.recv.data.length] ∧
      (r.step (.serverLoop a)).1.unprocessed = r.unprocessed ++ a.recv.data := by
  constructor
  · show (serverLoop a r.socket).2.filterMap Call.write = _
    rw [serverLoop_writes, if_pos ⟨hsr, hrx⟩]
  · simp [ReceiveSide.step, unprocessedLoop, hsr, hrx]

/-- A right count stays right exactly when the bytes to read fit. -/
theorem ReceiveSide.Counted.read_right_iff {r : ReceiveSide} (hc : r.Counted) {a : Answers}
    (hsr : a.sr = .established) (hrx : a.rxRsr > 0)
    (hbuf : (serverLoop a r.socket).1.receiveBuffer = r.socket.read a)
    (hsize : (serverLoop a r.socket).1.receiveSize =
      if a.recv.ret = a.rxRsr then addU16 r.socket.receiveSize a.rxRsr
      else r.socket.receiveSize) :
    r.Right (.serverLoop a) ↔ r.Fits (.serverLoop a) := by
  have hdata := a.recv.length_data
  obtain ⟨hout, hun⟩ := r.step_read hsr hrx
  constructor
  · intro hright _ _
    have hwrites := hright.inBounds
    rw [hout] at hwrites
    have hset : r.socket.receiveSize + bufferSize ≤ bufferSize :=
      hwrites (.write r.socket.receiveSize bufferSize) (by simp)
    have hrecv : 0 + a.recv.data.length ≤ bufferSize :=
      hwrites (.write 0 a.recv.data.length) (by simp)
    have hcount : (serverLoop a r.socket).1.receiveSize = _ := hright.counted.size
    rw [hun, List.length_append, ← hc.size, hsize] at hcount
    refine ⟨by omega, ?_⟩
    by_cases hret : a.recv.ret = a.rxRsr
    · exact Or.inr ⟨hret, by omega⟩
    · rw [if_neg hret] at hcount
      exact Or.inl (by omega)
  · intro hfits
    obtain ⟨h0, hret⟩ := hfits hsr hrx
    have hnil : r.unprocessed = [] := List.length_eq_zero_iff.mp (by rw [← hc.size, h0])
    have hlen : a.recv.data.length ≤ bufferSize := by omega
    have hsize' : (serverLoop a r.socket).1.receiveSize = a.recv.data.length := by
      rw [hsize, h0]
      rcases hret with hle | ⟨heq, hfit⟩
      · rw [if_neg (by omega)]
        omega
      · rw [if_pos heq, addU16_zero hfit]
        omega
    rw [hnil, List.nil_append] at hun
    refine ⟨?_, ⟨hsize'.trans (by rw [hun]), Nat.le_trans (Nat.le_of_eq hsize') hlen, ?_⟩⟩
    · rw [hout, h0]
      simpa [Access.InBounds] using hlen
    · rw [hun]
      exact (SocketData.front_eq hbuf hsize').trans (read_take hlen)

/-- A call that reads nothing writes nothing. -/
theorem ReceiveSide.step_writes_nil (r : ReceiveSide) {a : Answers}
    (hno : ¬ (a.sr = .established ∧ a.rxRsr > 0)) : (r.step (.serverLoop a)).2 = [] := by
  show (serverLoop a r.socket).2.filterMap Call.write = _
  rw [serverLoop_writes, if_neg hno]

/-- A right count stays right, and inside the buffer, in `server_loop`
exactly when the bytes to read fit. -/
theorem ReceiveSide.Counted.serverLoop_right_iff {r : ReceiveSide} (hc : r.Counted) (a : Answers) :
    r.Right (.serverLoop a) ↔ r.Fits (.serverLoop a) := by
  obtain ⟨hsr, hrx, hbuf, hsize⟩ | ⟨hsr, hbuf, hsize⟩ | ⟨hsr, hno, hbuf, hsize⟩ :=
    serverLoop_receive a r.socket
  · exact hc.read_right_iff hsr hrx hbuf hsize
  · -- a new round of listening
    have hno : ¬ (a.sr = .established ∧ a.rxRsr > 0) := by simp [hsr]
    have hun : (r.step (.serverLoop a)).1.unprocessed = [] := by
      simp [ReceiveSide.step, unprocessedLoop, hsr]
    have hbound : (serverLoop a r.socket).1.receiveSize ≤ bufferSize := by
      rw [hsize]
      exact Nat.zero_le _
    refine iff_of_true ⟨by simp [r.step_writes_nil hno], ⟨?_, hbound, ?_⟩⟩
      fun hest hpos => absurd ⟨hest, hpos⟩ hno
    · rw [hun]
      exact hsize
    · rw [hun]
      exact SocketData.front_eq hbuf hsize
  · -- nothing is read
    have hun : (r.step (.serverLoop a)).1.unprocessed = r.unprocessed := by
      show unprocessedLoop a r.unprocessed = r.unprocessed
      unfold unprocessedLoop
      split
      · next hest => rw [if_neg (fun h => hno ⟨hest, h⟩)]
      · next hinit => exact absurd hinit hsr
      · rfl
    have hbound : (serverLoop a r.socket).1.receiveSize ≤ bufferSize := by
      rw [hsize]
      exact hc.bound
    refine iff_of_true ⟨by simp [r.step_writes_nil hno], ⟨?_, hbound, ?_⟩⟩
      fun hest hpos => absurd ⟨hest, hpos⟩ hno
    · rw [hun]
      exact hsize.trans hc.size
    · rw [hun]
      exact (SocketData.front_eq hbuf hsize).trans hc.front

/-! ## `handle_receive_bufffer` -/

/-- The parser leaves as many bytes as `countedRest` has. -/
theorem took_receiveSize (s : SocketData) (f : List UInt8) :
    (s.took f).receiveSize = (countedRest f).length := by
  have hcommand : ∀ c ∈ commands, c.receiveSize = (countedRest (ascii c.text)).length := by decide
  show ((lookup f).map Command.receiveSize).getD 0 = _
  cases hl : lookup f with
  | none =>
    have hne : f ≠ ascii ['V', 'A', 'K', '1'] := by
      rintro rfl
      exact absurd hl (by decide)
    simp [countedRest, hne]
  | some c =>
    obtain ⟨hmem, rfl⟩ := lookup_mem hl
    exact hcommand c hmem

theorem take_countedRest (f : List UInt8) : f.take (countedRest f).length = countedRest f := by
  unfold countedRest
  split
  · next h =>
    rw [h]
    rfl
  · rfl

/-- A right count stays right in `handle_receive_bufffer` exactly when the
frame it finds is followed by what it leaves. -/
theorem ReceiveSide.Counted.handle_right_iff {r : ReceiveSide} (hc : r.Counted)
    (message : Message) :
    r.Right (.handleReceiveBufffer message) ↔ r.Fits (.handleReceiveBufffer message) := by
  have hin : ∀ x ∈ (r.step (.handleReceiveBufffer message)).2, x.InBounds := by
    intro x hx
    rw [List.mem_singleton.mp hx]
    exact hc.bound
  rcases front_cases r.socket with hmiss | ⟨f, rest, hfront, hf, h0⟩
  · -- nothing is found, nothing changes
    have hfind : strnstr hash r.socket.receiveBuffer.bytes r.socket.receiveSize = none :=
      findBeforeNul_eq_none_iff.mpr hmiss
    have hstep : (r.step (.handleReceiveBufffer message)).1 = r := by
      simp [ReceiveSide.step, unprocessedHandle, hfind, handleReceiveBufffer_missed message hmiss]
    refine iff_of_true ⟨hin, by rw [hstep]; exact hc⟩ ?_
    intro f rest hfront hf h0
    exact absurd (hmiss f rest hfront hf) h0
  · have hfind : strnstr hash r.socket.receiveBuffer.bytes r.socket.receiveSize =
        some f.length := by
      rw [strnstr, ← SocketData.front, hfront]
      exact findBeforeNul_append hf h0
    have hsocket : (r.step (.handleReceiveBufffer message)).1.socket = r.socket.took f := by
      simp [ReceiveSide.step, handleReceiveBufffer_found message hfront hf h0]
    have hun : (r.step (.handleReceiveBufffer message)).1.unprocessed = rest := by
      simp [ReceiveSide.step, unprocessedHandle, hfind, ← hc.front, hfront]
    have htook : (r.socket.took f).front = countedRest f := by
      rw [front_took hfront, took_receiveSize, take_countedRest]
    constructor
    · intro hright f' rest' hfront' hf' _
      obtain ⟨rfl, rfl⟩ := cut_unique (hfront'.symm.trans hfront) hf' hf
      have := hright.counted.front
      rwa [hsocket, hun, htook, eq_comm] at this
    · intro hfits
      have hrest : rest = countedRest f := hfits f rest hfront hf h0
      have hlen : (countedRest f).length ≤ 1 := by
        unfold countedRest
        split <;> simp [ascii]
      refine ⟨hin, ⟨?_, ?_, ?_⟩⟩
      · rw [hsocket, hun, took_receiveSize, hrest]
      · rw [hsocket, took_receiveSize]
        exact Nat.le_trans hlen (by decide)
      · rw [hsocket, hun, htook, hrest]

/-! ## Runs -/

/-- **Receive buffer bounds**: every call of a run stays inside the buffer
and keeps count of the unprocessed bytes, exactly when every call meets
`ReceiveSide.Fits` in the state it is made in. -/
theorem receive_bounds_iff (s₀ : SocketData) (ops : List ReceiveOp) :
    (receiveSide s₀).Along ReceiveSide.Right ops ↔ (receiveSide s₀).Along ReceiveSide.Fits ops := by
  have hstart : ((receiveSide s₀).run []).Counted := ⟨rfl, Nat.zero_le _, rfl⟩
  have hiff : ∀ r op, ReceiveSide.Counted r →
      (ReceiveSide.Right r op ↔ ReceiveSide.Fits r op) := by
    intro r op hc
    cases op with
    | serverLoop a => exact hc.serverLoop_right_iff a
    | handleReceiveBufffer message => exact hc.handle_right_iff message
  refine EachStep.iff_of_inv (I := fun h => ((receiveSide s₀).run h).Counted) hstart
    (fun h op hc => hiff _ op hc) ?_ ops
  intro h op hc hfits
  rw [Mealy.run_concat]
  exact ((hiff _ op hc).mpr hfits).counted

/-- A command in two pieces, with a look at the buffer in between. -/
def splitCommand : List ReceiveOp :=
  [.serverLoop (arrival (ascii ['G', 'E'])), .handleReceiveBufffer noMessage,
    .serverLoop (arrival (ascii ['T', '#']))]

/-- The second piece of a command clears two bytes behind the buffer, and a
piece of 129 bytes is one byte too long for it. -/
theorem receive_bounds_fails :
    ¬ (receiveSide SocketData.fresh).Along ReceiveSide.Right splitCommand ∧
    ¬ (receiveSide SocketData.fresh).Along ReceiveSide.Right
      [.serverLoop (arrival (List.replicate 129 65))] := by
  constructor
  · intro h
    have hright := h (splitCommand.take 2) (.serverLoop (arrival (ascii ['T', '#']))) [] rfl
    have hwrite := hright.inBounds (.write 2 bufferSize) (by decide +kernel)
    exact absurd hwrite (by decide)
  · intro h
    have hwrite := (h [] (.serverLoop (arrival (List.replicate 129 65))) [] rfl).inBounds
      (.write 0 129) (by decide +kernel)
    exact absurd hwrite (by decide)

end VentControl.Server
