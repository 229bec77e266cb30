/-
VentControl.Server.ParserTheorems — what `handle_receive_bufffer` accepts.

`grammar` is the language: eight texts, with the type and the value each
stands for. The parser accepts a receive buffer exactly when its received
bytes start with one of them and a `'#'`, and what it writes into the
message is what the grammar says. The code gets there with a search that
stops at a NUL, a NUL written over the `'#'`, and comparisons that read on
to the first NUL of the buffer, wherever that is; `matchCommand_store` is
the reason why the bytes behind the `'#'` play no part.
-/
import VentControl.Lib.Framing
import VentControl.Server.SocketTheorems

namespace VentControl.Server

open Framing CString

/-- The commands of a client, with what each says. -/
def grammar : List (List Char × MessageType × Int) :=
  [(['G', 'E', 'T'], .getStatus, 0),
   (['S', 'E', 'T', '0'], .setSpeed, 0),
   (['S', 'E', 'T', '1'], .setSpeed, 1),
   (['S', 'E', 'T', '2'], .setSpeed, 2),
   (['S', 'E', 'T', '3'], .setSpeed, 3),
   (['V', 'A', 'K', '0'], .setVakantie, 0),
   (['V', 'A', 'K', '1'], .setVakantie, 1),
   (['H', 'B'], .keepalive, 0)]

/-- The received bytes start with the text and a `'#'`. -/
def SocketData.StartsWith (s : SocketData) (text : List Char) : Prop :=
  ascii text ++ [hash] <+: s.front

/-- No text of the grammar has a `'#'` or a NUL in it. -/
theorem grammar_plain : ∀ g ∈ grammar, hash ∉ ascii g.1 ∧ 0 ∉ ascii g.1 := by
  decide

/-- The parser looks up each text of the grammar as what it says, -/
theorem lookup_grammar : ∀ g ∈ grammar,
    (lookup (ascii g.1)).map (fun c => (c.messageType, c.value)) = some g.2 := by
  decide

/-- and it looks up no other text. -/
theorem mem_grammar_of_lookup {f : List UInt8} {c : Command} (h : lookup f = some c) :
    ∃ g ∈ grammar, ascii g.1 = f := by
  have hcommands : ∀ c ∈ commands, ∃ g ∈ grammar, ascii g.1 = ascii c.text := by decide
  obtain ⟨hmem, rfl⟩ := lookup_mem h
  exact hcommands c hmem

/-- A buffer that starts with a text of the grammar is a hit of the parser. -/
theorem SocketData.StartsWith.front {s : SocketData} {text : List Char} (h : s.StartsWith text) :
    ∃ rest, s.front = ascii text ++ hash :: rest := by
  obtain ⟨rest, hrest⟩ := h
  exact ⟨rest, by rw [← hrest]; simp⟩

/-- What the parser does with it: the message is the one the grammar says. -/
theorem handleReceiveBufffer_of_startsWith {s : SocketData} {g : List Char × MessageType × Int}
    (hg : g ∈ grammar) (h : s.StartsWith g.1) (message : Message) :
    (handleReceiveBufffer s message).1 = true ∧
      (handleReceiveBufffer s message).2.2 = ⟨s.socketId, g.2.2, g.2.1⟩ := by
  obtain ⟨rest, hfront⟩ := h.front
  obtain ⟨hf, h0⟩ := grammar_plain g hg
  obtain ⟨c, hc, hsays⟩ := Option.map_eq_some_iff.mp (lookup_grammar g hg)
  rw [handleReceiveBufffer_found message hfront hf h0, hc, ← hsays]
  exact ⟨rfl, rfl⟩

/-- **The parser accepts its grammar and nothing else**, for every content
of the buffer and every count: it finds a command exactly when the received
bytes start with one, which then decides the message; and it leaves the
message alone when it finds none. -/
theorem parser_accepts_grammar (s : SocketData) (message : Message) :
    ((handleReceiveBufffer s message).1 = true ↔ ∃ g ∈ grammar, s.StartsWith g.1) ∧
    (∀ g ∈ grammar, s.StartsWith g.1 →
      (handleReceiveBufffer s message).2.2 = ⟨s.socketId, g.2.2, g.2.1⟩) ∧
    ((handleReceiveBufffer s message).1 = false →
      (handleReceiveBufffer s message).2.2 = message) := by
  refine ⟨⟨fun h => ?_, fun ⟨g, hg, hs⟩ => (handleReceiveBufffer_of_startsWith hg hs message).1⟩,
    fun g hg hs => (handleReceiveBufffer_of_startsWith hg hs message).2, fun h => ?_⟩
  · rcases front_cases s with hmiss | ⟨f, rest, hfront, hf, h0⟩
    · simp [handleReceiveBufffer_missed message hmiss] at h
    · rw [handleReceiveBufffer_found message hfront hf h0] at h
      obtain ⟨c, hc⟩ := Option.isSome_iff_exists.mp h
      obtain ⟨g, hg, hgf⟩ := mem_grammar_of_lookup hc
      exact ⟨g, hg, rest, by rw [hfront, hgf]; simp⟩
  · rcases front_cases s with hmiss | ⟨f, rest, hfront, hf, h0⟩
    · rw [handleReceiveBufffer_missed message hmiss]
    · rw [handleReceiveBufffer_found message hfront hf h0] at h ⊢
      rw [Option.isSome_eq_false_iff, Option.isNone_iff_eq_none] at h
      rw [h]
      rfl

end VentControl.Server
