/-
VentControl.Server.LineTheorems — clients that send whole lines.

`FramingTheorems` has what the server makes of one undisturbed connection,
for pieces that agree with the reference. Here the connections come and go
as they like, and a piece may hold anything after its first frame: all
that is asked of the clients is that every piece the server reads contains
the end of a frame (`Whole`), and of the chip that a connection comes up
only after `listen`.

Then nothing is left over from one piece to the next, and a body does what
the first frame of its piece says, and nothing else (`Clean.body`). What
follows that frame is never looked at.
-/
import VentControl.Server.CloseTheorems
import VentControl.Server.Connection
import VentControl.Server.Task

namespace VentControl.Server

open Framing CString

/-! ## Pieces -/

/-- The piece fits into the buffer and contains the end of a frame, with no
NUL before it. -/
def Whole (piece : List UInt8) : Prop :=
  piece.length ≤ bufferSize ∧ (findBeforeNul hash piece).isSome

instance (piece : List UInt8) : Decidable (Whole piece) := by
  unfold Whole
  infer_instance

theorem Whole.cut {piece : List UInt8} (h : Whole piece) :
    ∃ f rest, piece = f ++ hash :: rest ∧ hash ∉ f ∧ 0 ∉ f := by
  obtain ⟨k, hk⟩ := Option.isSome_iff_exists.mp h.2
  obtain ⟨f, rest, hcut, -, hf, h0⟩ := findBeforeNul_eq_some_iff.mp hk
  exact ⟨f, rest, hcut, hf, h0⟩

/-- The command at the front of a piece, if there is one. -/
def commandIn (sn : Nat) (piece : List UInt8) : Option Message :=
  (frames hash piece).head?.bind (frameMessage sn)

theorem commandIn_cut (sn : Nat) {f : List UInt8} (hf : hash ∉ f) (rest : List UInt8) :
    commandIn sn (f ++ hash :: rest) = frameMessage sn f := by
  rw [commandIn, frames, parse_frame hash hf]
  rfl

/-- The piece that a body reads, if the socket is still open when it comes
to the parser. -/
def pieceRead (m : Message) (a : Answers) (s : SocketData) : Option (List UInt8) :=
  if a.sr = .established ∧ a.rxRsr > 0 ∧ a.recv.ret = a.rxRsr ∧
      (serverBody m a s).1.socketOpen = true then
    some a.recv.data
  else none

/-- What is asked of the chip and the clients in a body. -/
def LineByLine (l : Link) (a : Answers) : Prop :=
  a.sr = .established → (l.live || l.listening) = true ∧
    (a.rxRsr > 0 → a.recv.ret ≤ 0 ∨ a.recv.ret = a.rxRsr ∧ Whole a.recv.data)

instance (l : Link) (a : Answers) : Decidable (LineByLine l a) := by
  unfold LineByLine
  infer_instance

/-! ## Nothing is left over -/

/-- Where the parser can run, or a connection can be up, it finds no frame;
and a connection finds at most the byte that `VAK1` leaves. -/
structure Clean (s : SocketData) (l : Link) : Prop where
  noFrame : s.socketOpen = true ∨ (l.live || l.listening) = true → s.NoFrame
  size : (l.live || l.listening) = true → s.receiveSize ≤ 1

theorem clean_of_receiveSize {s : SocketData} (h : s.receiveSize = 0) (l : Link) : Clean s l :=
  ⟨fun _ => noFrame_of_receiveSize h, fun _ => by omega⟩

theorem NoFrame.congr {s s' : SocketData} (h : s.NoFrame)
    (hbuf : s'.receiveBuffer = s.receiveBuffer) (hsize : s'.receiveSize = s.receiveSize) :
    s'.NoFrame := by
  intro p q hpq
  exact h p q (by rwa [SocketData.front, hbuf, hsize] at hpq)

/-- Clearing the buffer from `receive_size` on leaves the front. -/
theorem take_store_zeros (b : Buffer) (n : Nat) :
    (b.store n (List.replicate bufferSize 0)).bytes.take n = b.bytes.take n := by
  show (storeAt b.bytes n (List.replicate bufferSize 0)).take n = _
  rw [storeAt_zeros (by rw [b.size_eq]; omega)]
  rcases Nat.le_total n b.bytes.length with hn | hn
  · rw [List.take_append_of_le_length (by simp [hn]), List.take_take, Nat.min_self]
  · rw [Nat.sub_eq_zero_of_le hn, List.replicate_zero, List.append_nil, List.take_take,
      Nat.min_self]

/-- A `recv` that stores nothing leaves the front. -/
theorem front_read_nil {s : SocketData} {a : Answers} (h : a.recv.ret = 0) :
    (s.read a).bytes.take s.receiveSize = s.front := by
  have hnil : a.recv.data = [] := by
    cases hr : a.recv with
    | stored data =>
      rw [hr] at h
      simpa [RecvResult.ret, RecvResult.data] using h
    | error code => rfl
  have hstore : ∀ b : Buffer, b.store 0 [] = b := fun b => by
    apply Buffer.ext
    simp [Buffer.store, storeAt]
  rw [SocketData.read, hnil, hstore, take_store_zeros]
  rfl

section Body

variable {s : SocketData} {l : Link} {m : Message} {a : Answers}

/-- A connection that is open after `server_loop` read all there was, or was
busy, or found nothing to read. -/
theorem recv_of_open (hl : LineByLine l a) (hsr : a.sr = .established) (hrx : a.rxRsr > 0)
    (hopen : (serverLoop a (fillSendBuffer m a s)).1.socketOpen = true) :
    a.recv.ret = 0 ∨ a.recv.ret = a.rxRsr ∧ Whole a.recv.data := by
  have hret : a.recv.ret = 0 ∨ 0 < a.recv.ret := by
    cases serverLoop_established (s := fillSendBuffer m a s) hsr with
    | busy _ h => exact Or.inl h
    | idle hon => exact Or.inr (hon hrx)
    | sent hon => exact Or.inr (hon hrx)
    | dropped _ _ _ hclosed => simp [hclosed] at hopen
    | failed _ _ _ hclosed => simp [hclosed] at hopen
  rcases (hl hsr).2 hrx with hle | hwhole
  · omega
  · exact Or.inr hwhole

/-- A body that reads no piece hands nothing to the parser. -/
theorem Clean.idle (h : Clean s l) (hl : LineByLine l a) (hnone : pieceRead m a s = none)
    (hopen : (serverLoop a (fillSendBuffer m a s)).1.socketOpen = true) :
    (serverLoop a (fillSendBuffer m a s)).1.NoFrame ∧
      ((serverLoop a (fillSendBuffer m a s)).1.receiveSize = 0 ∨
        (serverLoop a (fillSendBuffer m a s)).1.receiveSize = s.receiveSize) := by
  obtain ⟨hsr, hrx, hbuf, hsize⟩ | ⟨-, -, hzero⟩ | ⟨-, hno, hbuf, hsize⟩ :=
    serverLoop_receive a (fillSendBuffer m a s)
  · -- `recv` was busy, or the piece would have been read
    have hret : a.recv.ret = 0 := by
      rcases recv_of_open hl hsr hrx hopen with hret | ⟨hret, -⟩
      · exact hret
      · rw [pieceRead, if_pos ⟨hsr, hrx, hret, by rwa [serverBody_socketOpen]⟩] at hnone
        exact absurd hnone (by simp)
    have hsize' : (serverLoop a (fillSendBuffer m a s)).1.receiveSize = s.receiveSize := by
      rw [hsize, if_neg (by omega), fillSendBuffer_receiveSize]
    have hfront : (serverLoop a (fillSendBuffer m a s)).1.front = s.front := by
      rw [SocketData.front, hsize', hbuf, ← front_read_nil (s := s) hret]
      simp [SocketData.read]
    refine ⟨fun p q hpq => ?_, Or.inr hsize'⟩
    exact h.noFrame (Or.inr (hl hsr).1) p q (hfront ▸ hpq)
  · exact ⟨noFrame_of_receiveSize hzero, Or.inl hzero⟩
  · rw [fillSendBuffer_receiveBuffer] at hbuf
    rw [fillSendBuffer_receiveSize] at hsize
    refine ⟨?_, Or.inr hsize⟩
    have hwas : s.socketOpen = true ∨ (l.live || l.listening) = true := by
      cases hsr : a.sr with
      | established => exact Or.inr (hl hsr).1
      | closeWait => simp [serverLoop, hsr] at hopen
      | closed =>
        simp only [serverLoop, hsr] at hopen
        split at hopen
        · simp at hopen
        · exact Or.inl (by simpa using hopen)
      | init => simp only [serverLoop, hsr, fillSendBuffer_socketOpen] at hopen; exact Or.inl hopen
      | other => simp only [serverLoop, hsr, fillSendBuffer_socketOpen] at hopen; exact Or.inl hopen
    exact NoFrame.congr (h.noFrame hwas) hbuf hsize

/-- **A body does what the first frame of its piece says.** -/
theorem Clean.messages (h : Clean s l) (hl : LineByLine l a) :
    (serverBody m a s).2.2 = (pieceRead m a s).toList.filterMap (commandIn s.socketId) ∧
      ((serverBody m a s).1.socketOpen = true → (l.live || l.listening) = true →
        (serverBody m a s).1.receiveSize ≤ 1) := by
  by_cases hread : a.sr = .established ∧ a.rxRsr > 0 ∧ a.recv.ret = a.rxRsr ∧
      (serverBody m a s).1.socketOpen = true
  · -- a piece is read, and its first frame is taken
    obtain ⟨hsr, hrx, hret, hopen⟩ := hread
    have hwhole : Whole a.recv.data := by
      rcases recv_of_open (s := s) (m := m) hl hsr hrx (by rwa [← serverBody_socketOpen]) with
        hbusy | ⟨-, hwhole⟩
      · omega
      · exact hwhole
    have hup : (l.live || l.listening) = true := (hl hsr).1
    obtain ⟨f, rest, hcut, hf, h0⟩ := hwhole.cut
    have hchunk : (Body.mk m a).chunk = a.recv.data := if_pos hrx
    have hrsr : a.rxRsr = a.recv.data.length := by
      cases hr : a.recv with
      | stored data =>
        rw [hr] at hret
        simp only [RecvResult.ret] at hret
        simp only [RecvResult.data]
        omega
      | error code =>
        rw [hr] at hret
        simp only [RecvResult.ret] at hret
        omega
    have hstreams : Streams s ⟨m, a⟩ := ⟨hsr, fun _ => hret, hrsr ▸ hwhole.1, hopen⟩
    obtain ⟨z, -, hfront⟩ := hstreams.front (by rw [hchunk, hcut]; simp) (h.size hup)
    have hfront' : (serverLoop a (fillSendBuffer m a s)).1.front = f ++ hash :: (rest ++ z) := by
      rw [hfront, hchunk, hcut]
      simp
    have hdrain := drainReceive_found a.receivedMessage hfront' hf h0
    have hpiece : pieceRead m a s = some a.recv.data := if_pos ⟨hsr, hrx, hret, hopen⟩
    obtain ⟨hms, hfst⟩ := hstreams.messages
    constructor
    · rw [hms, hdrain, hpiece, serverLoop_socketId, fillSendBuffer_socketId,
        ← frameMessage_eq_lookup, hcut]
      have hcommand := commandIn_cut s.socketId hf rest
      cases hfm : frameMessage s.socketId f <;> simp [hcommand, hfm]
    · intro _ _
      rw [hfst, hdrain]
      exact took_receiveSize_le _ f
  · -- no piece is read, and the parser finds nothing
    have hnone : pieceRead m a s = none := if_neg hread
    rw [hnone, serverBody_messages, serverBody_fst]
    by_cases hopen : (serverLoop a (fillSendBuffer m a s)).1.socketOpen = true
    · obtain ⟨hmiss, hsize⟩ := h.idle hl hnone hopen
      rw [if_pos hopen, if_pos hopen, drainReceive_missed _ hmiss]
      refine ⟨rfl, fun _ hup => ?_⟩
      have := h.size hup
      show (serverLoop a (fillSendBuffer m a s)).1.receiveSize ≤ 1
      omega
    · rw [if_neg hopen, if_neg hopen]
      exact ⟨rfl, fun ho => absurd ho hopen⟩

/-- **Step lemma**: a body leaves nothing over. -/
theorem Clean.body (h : Clean s l) (hl : LineByLine l a) :
    Clean (serverBody m a s).1 (l.after a.sr (serverBody m a s).2.1) := by
  have hdrained : (serverBody m a s).1.socketOpen = true → (serverBody m a s).1.NoFrame := by
    intro hopen
    rw [serverBody_fst, if_pos (by rwa [← serverBody_socketOpen])]
    exact noFrame_drainReceive _ _
  -- a socket that still listens was not touched
  have hlisten : (l.after a.sr (serverBody m a s).2.1).listening = true →
      (serverBody m a s).1.NoFrame ∧ (serverBody m a s).1.receiveSize ≤ 1 := by
    intro hlist
    obtain ⟨-, hzero⟩ | ⟨hwas, hs⟩ := serverBody_listening hlist
    · exact ⟨noFrame_of_receiveSize hzero, by omega⟩
    · have hup : (l.live || l.listening) = true := by simp [hwas]
      have hno : (fillSendBuffer m a s).NoFrame :=
        NoFrame.congr (h.noFrame (Or.inr hup)) (by simp) (by simp)
      have hsize := h.size hup
      rw [hs]
      split
      · rw [drainReceive_missed _ hno]
        exact ⟨hno, by simpa using hsize⟩
      · exact ⟨h.noFrame (Or.inr hup), hsize⟩
  have hlive : (l.after a.sr (serverBody m a s).2.1).live = true →
      (serverBody m a s).1.NoFrame ∧ (serverBody m a s).1.receiveSize ≤ 1 := by
    intro hl'
    obtain ⟨-, hup, hopen⟩ := serverBody_live hl'
    exact ⟨hdrained hopen, (h.messages hl).2 hopen hup⟩
  have hboth : ((l.after a.sr (serverBody m a s).2.1).live ||
      (l.after a.sr (serverBody m a s).2.1).listening) = true →
      (serverBody m a s).1.NoFrame ∧ (serverBody m a s).1.receiveSize ≤ 1 := fun hup =>
    (Bool.or_eq_true_iff.mp hup).elim hlive hlisten
  exact ⟨fun hcase => hcase.elim hdrained fun hup => (hboth hup).1, fun hup => (hboth hup).2⟩

end Body

/-- The initialisation leaves an empty buffer, if no connection is up so
early. -/
theorem clean_initSocket (i : Nat) {a : Answers} (hsr : a.sr ≠ .established) (s : SocketData)
    (l : Link) : Clean (initSocket i a s).1 l := by
  refine clean_of_receiveSize ?_ l
  obtain ⟨hest, -⟩ | ⟨-, -, hzero⟩ | ⟨-, -, -, hsize⟩ := serverLoop_receive a (resetSocket i s)
  · exact absurd hest hsr
  · exact hzero
  · exact hsize

end VentControl.Server
