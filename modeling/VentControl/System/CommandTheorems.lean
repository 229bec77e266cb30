/-
VentControl.System.CommandTheorems — from the bytes of the clients to the
relays.

`fan_controller_explains` begins with the commands that the server has
parsed. Here the clients send whole lines (`LinesOnly`), and these commands
are read off the bytes: each piece that the server read gives the command
of its first frame, or none (`parsed_eq_commands`).

So nobody but a client can make the fan task act on a command: what it
handles is a subsequence of what the pieces say, in the order in which they
were read, whatever connections come and go meanwhile
(`clients_control_the_fan`).
-/
import VentControl.Server.LineTheorems
import VentControl.System.ControlTheorems

namespace VentControl.System.Firmware

open Runs VentControl.Server VentControl.Ventcontrol
open VentControl.System.Clients (PortId Reply Request Traced)

/-! ## Pieces -/

/-- What is asked of the chip and the clients: a connection comes up after
`listen`, so none is up when a socket is initialised; and every piece that
is read contains the end of a frame. -/
def LinesOnly (s : State) : Label → Prop
  | .server a _ =>
    match s.clients.server with
    | .starting _ => a.sr ≠ .established
    | .body _ i => LineByLine (s.clients.ports i).link a
    | _ => True
  | _ => True

instance : (s : State) → (l : Label) → Decidable (LinesOnly s l)
  | s, .server a _ => by
    unfold LinesOnly
    cases s.clients.server <;> infer_instance
  | _, .dhcp _ => inferInstanceAs (Decidable True)
  | _, .vent => inferInstanceAs (Decidable True)
  | _, .sample _ => inferInstanceAs (Decidable True)
  | _, .inputSend => inferInstanceAs (Decidable True)

/-- The piece a step reads, and on which socket. -/
def piecesRead (s : State) : Label → List (PortId × List UInt8)
  | .server a _ =>
    match s.clients.server with
    | .body r i => (pieceRead r.message a (s.clients.ports i).socket).toList.map (i, ·)
    | _ => []
  | _ => []

/-- The command at the front of a piece. -/
def commandOf (p : PortId × List UInt8) : Option Message := commandIn (basePortId + p.1) p.2

/-! ## Nothing is left over -/

/-- The sockets that have been initialised hold nothing over. -/
def AllClean (s : Clients.State) : Prop :=
  ∀ i, s.server.Started i → Clean (s.ports i).socket (s.ports i).link

/-- A socket changes and stays clean. -/
theorem AllClean.update {s : Clients.State} {i : PortId} {p : Clients.Port}
    (hp : Clean p.socket p.link)
    (hothers : ∀ j, j ≠ i → Clean (s.ports j).socket (s.ports j).link) (j : PortId) :
    Clean (Function.update s.ports i p j).socket (Function.update s.ports i p j).link := by
  by_cases hj : j = i
  · subst hj
    simpa using hp
  · simpa [hj] using hothers j hj

/-- A step of the server leaves nothing over. -/
theorem AllClean.serverStep {s : State} (h : AllClean s.clients) {a : Answers} {stack : Message}
    (hl : LinesOnly s (.server a stack)) : AllClean (s.clients.serverStep a stack).1 := by
  cases hat : s.clients.server with
  | waiting =>
    rcases Clients.serverStep_waiting a stack hat with hs | hs <;> rw [hs]
    · exact h
    · exact fun i hi => absurd hi (Nat.not_lt_zero _)
  | starting i =>
    simp only [LinesOnly, hat] at hl
    rw [Clients.serverStep_starting a stack hat]
    intro j hj
    have hle := Clients.started_nextPort_starting hj
    by_cases hji : j = i
    · subst hji
      simpa [Clients.Port.start] using clean_initSocket j hl (s.clients.ports j).socket _
    · have hlt : j < i := Fin.lt_def.mpr (by
        have hne := Fin.val_ne_of_ne hji
        have := Fin.le_def.mp hle
        omega)
      simpa [hji] using h j (by rw [hat]; exact hlt)
  | head =>
    have hall : ∀ i, Clean (s.clients.ports i).socket (s.clients.ports i).link :=
      fun i => h i (by rw [hat]; trivial)
    rcases Clients.serverStep_head a stack hat with hs | hs <;> rw [hs] <;> exact fun i _ => hall i
  | taking =>
    have hall : ∀ i, Clean (s.clients.ports i).socket (s.clients.ports i).link :=
      fun i => h i (by rw [hat]; trivial)
    cases hq : s.clients.sendQueue with
    | nil => rw [Clients.serverStep_taking_nil a stack hat hq]; exact fun i _ => hall i
    | cons r q => rw [Clients.serverStep_taking_cons a stack hat hq]; exact fun i _ => hall i
  | body r i =>
    simp only [LinesOnly, hat] at hl
    have hall : ∀ j, Clean (s.clients.ports j).socket (s.clients.ports j).link :=
      fun j => h j (by rw [hat]; trivial)
    rw [Clients.serverStep_body a stack hat]
    exact fun j _ => AllClean.update ((hall i).body hl) (fun k _ => hall k) j

/-- **Step lemma.** -/
theorem AllClean.step {s : State} (h : AllClean s.clients) {l : Label} (hl : LinesOnly s l) :
    AllClean (s.step l).1.clients := by
  by_cases hserver : ∃ a stack, l = .server a stack
  · obtain ⟨a, stack, rfl⟩ := hserver
    exact h.serverStep hl
  · obtain ⟨⟨hports, hat⟩, -⟩ :=
      step_of_not_server s .empty fun a stack he => hserver ⟨a, stack, he⟩
    intro i hi
    rw [hat] at hi
    rw [hports]
    exact h i hi

/-! ## What is parsed -/

/-- **Step lemma**: what is parsed is what the piece says. -/
theorem parsed_step {s : State} (h : AllClean s.clients) (ht : Traced s.clients) (g : Ledger)
    {l : Label} (hl : LinesOnly s l) :
    (g.step s l).parsed.map Request.message =
      g.parsed.map Request.message ++ (piecesRead s l).filterMap commandOf := by
  by_cases hserver : ∃ a stack, l = .server a stack
  · obtain ⟨a, stack, rfl⟩ := hserver
    simp only [Ledger.step, Ledger.server, piecesRead]
    cases hat : s.clients.server with
    | body r i =>
      simp only [LinesOnly, hat] at hl
      have hclean := h i (by rw [hat]; trivial)
      have hid : (s.clients.ports i).socket.socketId = basePortId + i :=
        ht.ids i (by rw [hat]; trivial)
      have hmessages := (hclean.messages (m := r.message) hl).1
      rw [hid] at hmessages
      have hfront : commandIn (basePortId + i) = commandOf ∘ (i, ·) := rfl
      simp [Clients.Port.requests, hmessages, List.filterMap_map, hfront, Function.comp_def]
    | _ => simp
  · obtain ⟨-, hparsed, -⟩ :=
      step_of_not_server s g fun a stack he => hserver ⟨a, stack, he⟩
    have hnone : piecesRead s l = [] := by
      cases l with
      | server a stack => exact absurd ⟨a, stack, rfl⟩ hserver
      | _ => rfl
    rw [hparsed, hnone, List.filterMap_nil, List.append_nil]

/-- **What is parsed is what the pieces say**, in every run. -/
theorem parsed_eq_commands (s₀ : PortId → SocketData) (ls : List Label)
    (hls : (system s₀).Along LinesOnly ls) :
    ((recorded s₀).run ls).ledger.parsed.map Request.message =
      ((observed piecesRead s₀).trace ls).filterMap commandOf := by
  have key : AllClean ((system s₀).run ls).clients ∧
      ((recorded s₀).run ls).ledger.parsed.map Request.message =
        ((observed piecesRead s₀).trace ls).filterMap commandOf := by
    refine EachStep.induct (I := fun ls => AllClean ((system s₀).run ls).clients ∧
      ((recorded s₀).run ls).ledger.parsed.map Request.message =
        ((observed piecesRead s₀).trace ls).filterMap commandOf)
      ⟨fun i hi => hi.elim, rfl⟩ ?_ ls hls
    rintro ls l ⟨hclean, hparsed⟩ hl
    have ht := (wellFormed_run s₀ ls).2
    have hstep := parsed_step hclean ht ((recorded s₀).run ls).ledger hl
    rw [Mealy.run_concat, Mealy.run_concat, Mealy.trace_concat, List.filterMap_append, ← hparsed,
      observed_run]
    refine ⟨hclean.step hl, Eq.trans ?_ hstep⟩
    rw [← (recorded_run s₀ ls).1]
    rfl
  exact key.2

end VentControl.System.Firmware
