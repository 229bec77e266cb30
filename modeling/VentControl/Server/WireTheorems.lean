/-
VentControl.Server.WireTheorems — the bytes on a connection, read back.

`server_task` prints what it has for a client as a letter, the value in
decimal and a `#`, and the heartbeat as `HB#`. One frame follows the other
on the connection, and TCP delivers the bytes in any pieces. Here is what a
client can make of them: it cuts what arrives at every `#` and keeps the
rest for later (`Framing.reader`), and reads each text by its first letter
(`readText`).

`wire_round_trip` is that this always works: no number contains a `#`, no
two messages share a text, and the heartbeat is none of them.
-/
import VentControl.Lib.Framing
import VentControl.Server.Connection

namespace VentControl.Server

open Runs CString

/-! ## Texts -/

/-- What a frame says. -/
inductive Report
  | speed (value : Int)
  | vakantie (value : Int)
  | remaining (value : Int)
  | heartbeat
  deriving DecidableEq, Repr

/-- Its text, without the `#`. -/
def Report.text : Report → List UInt8
  | .speed v => ascii ['S'] ++ formatD v
  | .vakantie v => ascii ['V'] ++ formatD v
  | .remaining v => ascii ['T'] ++ formatD v
  | .heartbeat => ascii ['H', 'B']

/-- The frame. -/
def Report.frame (r : Report) : List UInt8 := r.text ++ [hash]

/-- What a message says to a client. -/
def reportOf (m : Message) : Option Report :=
  match m.messageType with
  | .currentSpeeed => some (.speed m.value)
  | .currentVakantie => some (.vakantie m.value)
  | .remainingTime => some (.remaining m.value)
  | _ => none

/-- The frames of the source are those of the reports. -/
theorem frameOf_eq (m : Message) : frameOf m = (reportOf m).map Report.frame := by
  obtain ⟨client, value, messageType⟩ := m
  cases messageType <;> rfl

theorem frame_heartbeat : Report.heartbeat.frame = heartbeatFrame := rfl

/-- The text of a number after its letter. -/
def readValue (letter : UInt8) (value : Int) : Option Report :=
  if letter = 83 then some (.speed value)
  else if letter = 86 then some (.vakantie value)
  else if letter = 84 then some (.remaining value)
  else none

/-- How a client reads a text. -/
def readText (text : List UInt8) : Option Report :=
  if text = ascii ['H', 'B'] then some .heartbeat
  else
    match text with
    | [] => none
    | letter :: digits => (scanD digits).bind (readValue letter)

/-- A letter and a number are no heartbeat. -/
theorem readText_value {letter : UInt8} (hletter : letter ≠ 72) (v : Int) :
    readText (letter :: formatD v) = readValue letter v := by
  have hne : letter :: formatD v ≠ ascii ['H', 'B'] := fun h =>
    hletter (List.cons.inj h).1
  rw [readText, if_neg hne]
  show (scanD (formatD v)).bind (readValue letter) = _
  rw [scanD_formatD, Option.bind_some]

/-- **A text is read as what it says.** -/
theorem readText_text (r : Report) : readText r.text = some r := by
  cases r with
  | speed v => exact readText_value (by decide) v
  | vakantie v => exact readText_value (by decide) v
  | remaining v => exact readText_value (by decide) v
  | heartbeat => rfl

/-- No text contains the end character. -/
theorem hash_not_mem_text (r : Report) : hash ∉ r.text := by
  have hnumber : ∀ (letter : Char) (v : Int), hash ∉ ascii [letter] →
      hash ∉ ascii [letter] ++ formatD v := by
    intro letter v hletter h
    rcases List.mem_append.mp h with h | h
    · exact hletter h
    · have := mem_formatD h
      simp [hash] at this
  cases r with
  | speed v => exact hnumber 'S' v (by decide)
  | vakantie v => exact hnumber 'V' v (by decide)
  | remaining v => exact hnumber 'T' v (by decide)
  | heartbeat => decide

/-- Different reports have different frames. -/
theorem frame_injective : Function.Injective Report.frame := by
  intro r r' h
  have htext : r.text = r'.text := List.append_cancel_right h
  have hread : readText r.text = readText r'.text := congrArg readText htext
  rw [readText_text, readText_text] at hread
  exact Option.some.inj hread

/-! ## Streams -/

/-- What a client reads from the pieces that arrive. -/
def clientReads (pieces : List (List UInt8)) : List (Option Report) :=
  ((Framing.reader hash).trace pieces).map readText

/-- A client reads the reports whose frames were sent, and is left with
nothing. -/
theorem clientReads_of_frames {rs : List Report} {pieces : List (List UInt8)}
    (h : pieces.flatten = (rs.map Report.frame).flatten) :
    clientReads pieces = rs.map some ∧ (Framing.reader hash).run pieces = [] := by
  have hframes : pieces.flatten = (rs.map Report.text).flatMap (· ++ [hash]) := by
    rw [h, List.flatMap_def, List.map_map]
    rfl
  have hclean : ∀ f ∈ rs.map Report.text, hash ∉ f := by
    intro f hf
    obtain ⟨r, -, rfl⟩ := List.mem_map.mp hf
    exact hash_not_mem_text r
  obtain ⟨hrun, htrace⟩ := Framing.reader_of_frames hash hclean hframes
  refine ⟨?_, hrun⟩
  rw [clientReads, htrace, List.map_map]
  exact List.map_congr_left fun r _ => readText_text r

/-- **The wire format loses nothing.** For any messages, with any values,
and however the bytes of their frames are cut into pieces: a client reads
exactly what they say, in order, and no byte is left over. -/
theorem wire_round_trip (ms : List Message) (pieces : List (List UInt8))
    (h : pieces.flatten = (ms.filterMap frameOf).flatten) :
    clientReads pieces = (ms.filterMap reportOf).map some ∧
      (Framing.reader hash).run pieces = [] := by
  have hframes : ms.filterMap frameOf = (ms.filterMap reportOf).map Report.frame := by
    rw [List.map_filterMap]
    exact congrArg (List.filterMap · ms) (funext frameOf_eq)
  exact clientReads_of_frames (hframes ▸ h)

/-- A negative value, cut after its sign. -/
theorem wire_round_trip_negative :
    clientReads [ascii ['S', '2', '#', 'T', '-'], ascii ['1', '#']] =
      [some (.speed 2), some (.remaining (-1))] ∧
    (Framing.reader hash).run [ascii ['S', '2', '#', 'T', '-'], ascii ['1', '#']] = [] :=
  wire_round_trip [⟨2, 2, .currentSpeeed⟩, ⟨2, -1, .remainingTime⟩] _ (by decide)

end VentControl.Server
