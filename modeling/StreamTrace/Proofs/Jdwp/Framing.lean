import StreamTrace.Proofs.Jdwp.Calls
import StreamTrace.Proofs.Jdwp.EventPackets
import StreamTrace.Proofs.Jdwp.RoundTrip

/-!
# Packets cut from the line

What the reader of a connection does with the bytes that arrive. The line brings them in pieces of
any size, so the packets that the reader takes are compared with the whole stream: together with the
bytes not read yet they spell it, and so they are its whole packets in order. A length that is too
small, an event that cannot be decoded or the end of the line stops the reader, and from then on
nothing that arrives has any effect and every call without a reply fails.

`Flow` says what a move does to the line and the reader, as `Effect` does for the calls. `Framed` is
what every history keeps, and `Unanswered` is what a stopped reader keeps of a call.
-/

namespace StreamTrace

/-! ## The packets of a stream -/

namespace Packet

variable {p : Packet} {ps : List Packet} {bytes rest : Bytes}

theorem toNat_lt_size (h : bytes.length = 4) : Bytes.toNat bytes < UInt32.size := by
  have hlt := Bytes.toNat_lt bytes
  rw [h] at hlt
  exact hlt

/-- What is cut off is what the bytes spell, and its length fits. -/
theorem split_packet (h : split bytes = .packet p rest) :
    bytes = p.encode ++ rest ∧ p.FitsLine := by
  unfold split at h
  split at h
  next l0 l1 l2 l3 i0 i1 i2 i3 flags first second body =>
    dsimp only at h
    split at h
    next => cases h
    next hlength =>
      split at h
      next => cases h
      next hbody =>
        cases h
        have hfour : Bytes.toNat [l0, l1, l2, l3] < UInt32.size := toNat_lt_size rfl
        have hnumber : Bytes.toNat [i0, i1, i2, i3] < UInt32.size := toNat_lt_size rfl
        have hid := UInt32.toNat_ofNat_of_lt' hnumber
        have hsize : headerLength
            + (body.take (Bytes.toNat [l0, l1, l2, l3] - headerLength)).length
              = Bytes.toNat [l0, l1, l2, l3] := by
          rw [List.length_take]
          omega
        constructor
        · rw [encode, hsize, hid]
          have hl := Bytes.ofNat_toNat [l0, l1, l2, l3]
          have hi := Bytes.ofNat_toNat [i0, i1, i2, i3]
          simp only [List.length_cons, List.length_nil, Nat.zero_add, Nat.reduceAdd] at hl hi
          rw [hl, hi]
          simp
        · rw [FitsLine, hsize]
          exact hfour
  next => cases h

/-- A header that announces too little stays one, whatever arrives behind it. -/
theorem split_malformed_append (h : split bytes = .malformed) (more : Bytes) :
    split (bytes ++ more) = .malformed := by
  unfold split at h
  split at h
  next l0 l1 l2 l3 i0 i1 i2 i3 flags first second body =>
    dsimp only at h
    split at h
    next hlength =>
      simp only [List.cons_append, split]
      rw [if_pos hlength]
    next =>
      split at h
      next => cases h
      next => cases h
  next => cases h

theorem length_lt_of_split (h : split bytes = .packet p rest) : rest.length < bytes.length := by
  rw [(split_packet h).1, List.length_append, length_encode, headerLength]
  omega

/-- The whole packets that a stream begins with: up to the first header that announces less than
itself, or a packet that is not all there. -/
def whole (bytes : Bytes) : List Packet :=
  match _h : split bytes with
  | .packet p rest => p :: whole rest
  | .incomplete => []
  | .malformed => []
termination_by bytes.length
decreasing_by exact length_lt_of_split _h

theorem whole_packet (h : split bytes = .packet p rest) : whole bytes = p :: whole rest := by
  rw [whole]
  split
  next q rest' hsplit =>
    rw [h] at hsplit
    cases hsplit
    rfl
  next hsplit => rw [h] at hsplit; cases hsplit
  next hsplit => rw [h] at hsplit; cases hsplit

/-- Packets that fit are all found in front of a stream, in order. -/
theorem whole_append (h : ∀ p ∈ ps, p.FitsLine) (rest : Bytes) :
    whole (ps.flatMap encode ++ rest) = ps ++ whole rest := by
  induction ps with
  | nil => rfl
  | cons p ps ih =>
      have hp : p.FitsLine := h p List.mem_cons_self
      rw [List.flatMap_cons, List.append_assoc, whole_packet (split_encode p _ hp),
        ih fun q hq => h q (List.mem_cons_of_mem p hq), List.cons_append]

theorem whole_flatMap (h : ∀ p ∈ ps, p.FitsLine) : whole (ps.flatMap encode) = ps := by
  have hwhole := whole_append h []
  rw [List.append_nil] at hwhole
  rw [hwhole, show whole [] = [] by rw [whole]; rfl, List.append_nil]

end Packet

namespace Connection

variable {c c' d : Connection} {m : Move} {moves : List Move} {k : Nat} {call : Call}
  {p : Packet}

/-! ## What the reader takes -/

/-- A packet that the reader took, with the widths of identifiers that it knew then. -/
structure Intake where
  sizes : IdSizes
  packet : Packet

/-- The events that are reported from it. -/
def Intake.events (i : Intake) : List Event :=
  if i.packet.isEvents then (Event.decodePacket i.sizes i.packet.payload).1 else []

/-- If it reports events, they can be decoded. -/
def Intake.Sound (i : Intake) : Prop :=
  i.packet.isEvents = true → (Event.decodePacket i.sizes i.packet.payload).2 = none

/-- What a move takes from the line. -/
def intake (c : Connection) : Move → List Intake
  | .read => c.next?.toList.map fun packet => { sizes := c.sizes, packet }
  | _ => []

/-- What a history takes from the line, in order. -/
def taken : List Move → Connection → List Intake
  | [], _ => []
  | m :: moves, c => c.intake m ++ taken moves (c.after m)

/-- What a move brings onto the line. -/
def Move.bytes : Move → Bytes
  | .arrive bytes => bytes
  | _ => []

/-- The stream that a history brings, with its pieces put together. -/
def arrived (moves : List Move) : Bytes := moves.flatMap Move.bytes

theorem run_cons (m : Move) (moves : List Move) (c : Connection) :
    run (m :: moves) c = (c.move? m).bind (run moves) := rfl

theorem taken_append {later : List Move} (h : run moves c = some d) :
    taken (moves ++ later) c = taken moves c ++ taken later d := by
  induction moves generalizing c with
  | nil =>
      cases h
      rfl
  | cons m moves ih =>
      rw [run_cons] at h
      obtain ⟨next, hmove, h⟩ := Option.bind_eq_some_iff.mp h
      have hafter : c.after m = next := by rw [after, hmove]; rfl
      rw [List.cons_append, taken, taken, hafter, ih h, List.append_assoc]

theorem taken_concat (h : run moves c = some d) (m : Move) :
    taken (moves ++ [m]) c = taken moves c ++ d.intake m := by
  rw [taken_append h, taken, taken, List.append_nil]

theorem arrived_concat (moves : List Move) (m : Move) :
    arrived (moves ++ [m]) = arrived moves ++ m.bytes := by
  simp [arrived]

theorem intake_of_ne (h : m ≠ .read) : c.intake m = [] := by
  cases m with
  | read => exact (h rfl).elim
  | _ => rfl

theorem intake_read_of_packet {rest : Bytes} (hreader : c.reader = .reading)
    (hsplit : Packet.split c.unread = .packet p rest) :
    c.intake .read = [{ sizes := c.sizes, packet := p }] := by
  simp only [intake, next?, hreader, hsplit, Option.toList_some, List.map_cons, List.map_nil]

theorem next?_eq_none (h : c.reader ≠ .reading ∨ ∀ p rest, Packet.split c.unread ≠ .packet p rest) :
    c.next? = none := by
  unfold next?
  split
  next hreader hsplit => exact (h.elim (· hreader) (· _ _ hsplit)).elim
  next => rfl

theorem intake_read_of_none (h : c.next? = none) : c.intake .read = [] := by
  simp only [intake, h, Option.toList_none, List.map_nil]

/-! ## What the reader does with a packet -/

/-- What a packet does to a connection. -/
inductive Processed (p : Packet) (c : Connection) : Connection → Prop
  /-- A reply completes the pending call of its identifier. -/
  | completes {k : Nat} (hreply : p.isReply = true) (hpending : c.pending.get? p.id = some k) :
    Processed p c ({ c with pending := c.pending.erase p.id }.deliver k
      (.reply p.errorCode p.payload))
  /-- A reply that nobody waits for is ignored. -/
  | ignored (hreply : p.isReply = true) (hpending : c.pending.get? p.id = none) : Processed p c c
  /-- The events of a packet that can be decoded are reported. -/
  | reported {events : List Event} (hevents : p.isEvents = true)
      (hdecode : Event.decodePacket c.sizes p.payload = (events, none)) :
    Processed p c { c with events := c.events ++ events }
  /-- An event that cannot be decoded stops the reader, after the events in front of it. -/
  | undecodable {events : List Event} {fault : JdwpError} (hevents : p.isEvents = true)
      (hdecode : Event.decodePacket c.sizes p.payload = (events, some fault)) :
    Processed p c { c with
      events := c.events ++ events, reader := .failing, shutdown := true }
  /-- A command of another kind is skipped. -/
  | skipped (hreply : p.isReply = false) (hother : ¬(p.first = 64 ∧ p.second = 100)) :
    Processed p c c

theorem accept_processed (p : Packet) (c : Connection) : Processed p c (c.accept p) := by
  by_cases hreply : p.isReply = true
  · cases hpending : c.pending.get? p.id with
    | none =>
        simp only [accept, hreply, hpending, ↓reduceIte]
        exact .ignored hreply hpending
    | some k =>
        simp only [accept, hreply, hpending, ↓reduceIte]
        exact .completes hreply hpending
  · by_cases hevents : p.isEvents = true
    · cases hdecode : Event.decodePacket c.sizes p.payload with
      | mk events fault =>
          cases fault with
          | none =>
              rw [accept_events hevents hdecode]
              exact .reported hevents hdecode
          | some fault =>
              rw [accept_fault hevents hdecode]
              exact .undecodable hevents hdecode
    · simp only [accept, hreply, hevents, Bool.false_eq_true, ↓reduceIte]
      refine .skipped (by simpa using hreply) ?_
      rintro ⟨hfirst, hsecond⟩
      simp [Packet.isEvents, hreply, hfirst, hsecond] at hevents

theorem isEvents_of_isReply (h : p.isReply = true) : p.isEvents = false := by
  simp [Packet.isEvents, h]

/-- A packet goes to the calls or to the events, and it stops the reader exactly if it is not
sound. -/
theorem Processed.reader (h : Processed p c c') :
    c'.unread = c.unread ∧ c'.events = c.events ++ Intake.events ⟨c.sizes, p⟩ ∧
      (Intake.Sound ⟨c.sizes, p⟩ ∧ c'.reader = c.reader ∧ c'.shutdown = c.shutdown ∨
        ¬Intake.Sound ⟨c.sizes, p⟩ ∧ c'.reader = .failing ∧ c'.shutdown = true) := by
  cases h with
  | completes hreply =>
      have hevents := isEvents_of_isReply hreply
      refine ⟨rfl, ?_, .inl ⟨?_, rfl, rfl⟩⟩
      · simp [Intake.events, hevents, deliver]
      · simp [Intake.Sound, hevents]
  | ignored hreply =>
      have hevents := isEvents_of_isReply hreply
      refine ⟨rfl, ?_, .inl ⟨?_, rfl, rfl⟩⟩
      · simp [Intake.events, hevents]
      · simp [Intake.Sound, hevents]
  | reported hevents hdecode =>
      refine ⟨rfl, ?_, .inl ⟨?_, rfl, rfl⟩⟩
      · simp [Intake.events, hevents, hdecode]
      · simp [Intake.Sound, hdecode]
  | undecodable hevents hdecode =>
      refine ⟨rfl, ?_, .inr ⟨?_, rfl, rfl⟩⟩
      · simp [Intake.events, hevents, hdecode]
      · simp [Intake.Sound, hevents, hdecode]
  | skipped hreply hother =>
      have hevents : p.isEvents = false := by
        simp only [Packet.isEvents, hreply, Bool.not_false, Bool.true_and]
        simpa using hother
      refine ⟨rfl, ?_, .inl ⟨?_, rfl, rfl⟩⟩
      · simp [Intake.events, hevents]
      · simp [Intake.Sound, hevents]

/-! ## What a move does to the line -/

/-- What a move does to the line, the reader and the events. -/
inductive Flow (c : Connection) : Move → Connection → Prop
  | take {p : Packet} {rest : Bytes} (hreader : c.reader = .reading)
      (hsplit : Packet.split c.unread = .packet p rest) :
    Flow c .read ({ c with unread := rest }.accept p)
  | halt (hreader : c.reader = .reading)
      (hsplit : Packet.split c.unread = .malformed ∨
        Packet.split c.unread = .incomplete ∧ c.ended = true) : Flow c .read c.fail
  | arrive (bytes : Bytes) (hended : c.ended = false) :
    Flow c (.arrive bytes) { c with unread := c.unread ++ bytes }
  | stop (hreader : c.reader = .reading) (hshutdown : c.shutdown = true) :
    Flow c .stop { c with reader := .finished }
  | callOff : Flow c .shutDown { c with shutdown := true }
  | still {m : Move} {c' : Connection} (hmove : m ≠ .read) (hbytes : m.bytes = [])
      (hunread : c'.unread = c.unread) (hended : c.ended = true → c'.ended = true)
      (hreader : c'.reader = .reading ↔ c.reader = .reading)
      (hshutdown : c'.shutdown = c.shutdown) (hevents : c'.events = c.events) : Flow c m c'

theorem flow_of_move (h : c.move? m = some c') : Flow c m c' := by
  cases step_of_move h with
  | take hreader hsplit => exact .take hreader hsplit
  | halt hreader hsplit => exact .halt hreader hsplit
  | arrive bytes hended => exact .arrive bytes hended
  | stop hreader hshutdown => exact .stop hreader hshutdown
  | shutDown => exact .callOff
  | register =>
      unfold register
      dsimp only
      split <;> exact .still nofun rfl rfl id Iff.rfl rfl rfl
  | drain hreader =>
      obtain ⟨calls, heq, -⟩ := c.drain_eq
      rw [heq]
      exact .still nofun rfl rfl id (by simp [hreader]) rfl rfl
  | close => exact .still nofun rfl rfl (fun _ => rfl) Iff.rfl rfl rfl
  | begin | write | refuse | collect | timeOut | cancel | adopt =>
      exact .still nofun rfl rfl id Iff.rfl rfl rfl

/-- While the reader reads, only the missing end of a packet keeps it waiting. -/
theorem split_of_read_closed (hreader : c.reader = .reading) (h : c.move? .read = none) :
    Packet.split c.unread = .incomplete ∧ c.ended = false := by
  cases hsplit : Packet.split c.unread with
  | packet p rest => simp [move?, hreader, hsplit] at h
  | malformed => simp [move?, hreader, hsplit] at h
  | incomplete =>
      simp only [move?, hreader, hsplit] at h
      split at h
      next => cases h
      next hended => exact ⟨rfl, by simpa using hended⟩

/-! ## What every history keeps -/

/-- Why the reader stopped: all that it took was sound and a length is too small, the line has ended
inside a packet or the owner has called the connection off, or what it took last could not be
decoded. -/
inductive Halted (moves : List Move) (c : Connection) : Prop
  | badLength (hsound : ∀ i ∈ taken moves {}, i.Sound)
      (hsplit : Packet.split c.unread = .malformed)
  | endOfLine (hsound : ∀ i ∈ taken moves {}, i.Sound)
      (hsplit : Packet.split c.unread = .incomplete) (hended : c.ended = true)
  | calledOff (hsound : ∀ i ∈ taken moves {}, i.Sound) (hown : .shutDown ∈ moves)
  | undecodable (before : List Intake) (last : Intake) (htaken : taken moves {} = before ++ [last])
      (hsound : ∀ i ∈ before, i.Sound) (hlast : ¬last.Sound)

/-- What holds of the line and the reader after the moves `moves`. -/
structure Framed (moves : List Move) (c : Connection) : Prop where
  stream : arrived moves = (taken moves {}).flatMap (fun i => i.packet.encode) ++ c.unread
  fits : ∀ i ∈ taken moves {}, i.packet.FitsLine
  events : c.events = (taken moves {}).flatMap Intake.events
  sound : c.reader = .reading → ∀ i ∈ taken moves {}, i.Sound
  owned : c.reader = .reading → c.shutdown = true → .shutDown ∈ moves
  stopped : c.reader ≠ .reading → c.shutdown = true ∧ Halted moves c

theorem framed_empty : Framed [] {} where
  stream := rfl
  fits := nofun
  events := rfl
  sound _ := nofun
  owned _ := nofun
  stopped h := (h rfl).elim

theorem taken_quiet (hrun : run moves {} = some c) (hintake : c.intake m = []) :
    taken (moves ++ [m]) {} = taken moves {} := by
  rw [taken_concat hrun, hintake, List.append_nil]

/-- A reader that has stopped did so for the same reason, whatever arrives later. -/
theorem Halted.later (h : Halted moves c) (htaken : taken (moves ++ [m]) {} = taken moves {})
    (hended : c.ended = true → c'.ended = true)
    (hunread : ∃ more, c'.unread = c.unread ++ more ∧ (c.ended = true → more = [])) :
    Halted (moves ++ [m]) c' := by
  obtain ⟨more, hunread, hmore⟩ := hunread
  cases h with
  | badLength hsound hsplit =>
      refine .badLength (htaken ▸ hsound) ?_
      rw [hunread, Packet.split_malformed_append hsplit]
  | endOfLine hsound hsplit hend =>
      refine .endOfLine (htaken ▸ hsound) ?_ (hended hend)
      rw [hunread, hmore hend, List.append_nil, hsplit]
  | calledOff hsound hown => exact .calledOff (htaken ▸ hsound) (List.mem_append_left _ hown)
  | undecodable before last hlist hsound hlast =>
      exact .undecodable before last (htaken.trans hlist) hsound hlast

/-- A move that takes nothing keeps what the history took. -/
theorem framed_quiet (hf : Framed moves c) (htaken : taken (moves ++ [m]) {} = taken moves {})
    (hunread : c'.unread = c.unread ++ m.bytes) (hevents : c'.events = c.events)
    (hreading : c'.reader = .reading →
      c.reader = .reading ∧ (c'.shutdown = true → c.shutdown = true ∨ m = .shutDown))
    (hstopped : c'.reader ≠ .reading → c'.shutdown = true ∧ Halted (moves ++ [m]) c') :
    Framed (moves ++ [m]) c' := by
  constructor
  · rw [htaken, arrived_concat, hf.stream, hunread, List.append_assoc]
  · rw [htaken]
    exact hf.fits
  · rw [htaken, hevents, hf.events]
  · intro hreader
    rw [htaken]
    exact hf.sound (hreading hreader).1
  · intro hreader hshutdown
    obtain ⟨hbefore, hsame⟩ := hreading hreader
    rcases hsame hshutdown with hearlier | rfl
    · exact List.mem_append_left _ (hf.owned hbefore hearlier)
    · exact List.mem_append_right _ List.mem_cons_self
  · exact hstopped

theorem framed_take {rest : Bytes} (hrun : run moves {} = some c) (hf : Framed moves c)
    (hreader : c.reader = .reading) (hsplit : Packet.split c.unread = .packet p rest)
    (hp : Processed p { c with unread := rest } c') : Framed (moves ++ [.read]) c' := by
  obtain ⟨hunread, hline⟩ := Packet.split_packet hsplit
  have hsound := hf.sound hreader
  obtain ⟨hrest, hevents, hreader'⟩ := hp.reader
  have htaken : taken (moves ++ [.read]) {} = taken moves {} ++ [⟨c.sizes, p⟩] := by
    rw [taken_concat hrun, intake_read_of_packet hreader hsplit]
  constructor
  · rw [htaken, arrived_concat, hf.stream, hrest, hunread]
    simp [Move.bytes]
  · rw [htaken]
    intro i hi
    rcases List.mem_append.mp hi with hi | hi
    · exact hf.fits i hi
    · rw [List.mem_singleton.mp hi]
      exact hline
  · rw [htaken, hevents, hf.events, List.flatMap_append, List.flatMap_singleton]
  · intro hreading
    rcases hreader' with ⟨hlast, -⟩ | ⟨-, hfailing, -⟩
    · rw [htaken]
      intro i hi
      rcases List.mem_append.mp hi with hi | hi
      · exact hsound i hi
      · rw [List.mem_singleton.mp hi]
        exact hlast
    · rw [hfailing] at hreading
      cases hreading
  · intro hreading hshutdown
    rcases hreader' with ⟨-, -, hsame⟩ | ⟨-, hfailing, -⟩
    · exact List.mem_append_left _ (hf.owned hreader (hsame.symm.trans hshutdown))
    · rw [hfailing] at hreading
      cases hreading
  · intro hstopped
    rcases hreader' with ⟨-, hsame, -⟩ | ⟨hlast, -, hshutdown⟩
    · exact (hstopped (hsame.trans hreader)).elim
    · exact ⟨hshutdown, .undecodable (taken moves {}) _ htaken hsound hlast⟩

theorem framed_step (hrun : run moves {} = some c) (hf : Framed moves c) (h : Flow c m c') :
    Framed (moves ++ [m]) c' := by
  -- Only a packet that is taken adds to the record; all else is at most a reason to stop.
  cases h with
  | take hreader hsplit => exact framed_take hrun hf hreader hsplit (accept_processed _ _)
  | halt hreader hsplit =>
      have hnext : c.next? = none := by
        refine next?_eq_none (.inr fun p rest hpacket => ?_)
        rw [hpacket] at hsplit
        rcases hsplit with hsplit | ⟨hsplit, -⟩ <;> cases hsplit
      have htaken := taken_quiet hrun (intake_read_of_none hnext)
      have hsound := htaken ▸ hf.sound hreader
      refine framed_quiet hf htaken (List.append_nil _).symm rfl nofun fun _ => ⟨rfl, ?_⟩
      rcases hsplit with hsplit | ⟨hsplit, hended⟩
      · exact .badLength hsound hsplit
      · exact .endOfLine hsound hsplit hended
  | arrive bytes hended =>
      have htaken := taken_quiet hrun (m := .arrive bytes) rfl
      refine framed_quiet hf htaken rfl rfl (fun hreader => ⟨hreader, .inl⟩) fun hstopped => ?_
      obtain ⟨hshutdown, hhalted⟩ := hf.stopped hstopped
      refine ⟨hshutdown, hhalted.later htaken id ⟨bytes, rfl, fun hend => ?_⟩⟩
      rw [hended] at hend
      cases hend
  | stop hreader hshutdown =>
      have htaken := taken_quiet hrun (m := .stop) rfl
      refine framed_quiet hf htaken (List.append_nil _).symm rfl nofun fun _ => ⟨hshutdown, ?_⟩
      exact .calledOff (htaken ▸ hf.sound hreader)
        (List.mem_append_left _ (hf.owned hreader hshutdown))
  | callOff =>
      have htaken := taken_quiet hrun (m := .shutDown) rfl
      refine framed_quiet hf htaken (List.append_nil _).symm rfl
        (fun hreader => ⟨hreader, fun _ => .inr rfl⟩) fun hstopped => ⟨rfl, ?_⟩
      exact (hf.stopped hstopped).2.later htaken id ⟨[], (List.append_nil _).symm, fun _ => rfl⟩
  | still hmove hbytes hunread hended hreader hshutdown hevents =>
      have htaken := taken_quiet hrun (intake_of_ne hmove)
      have hsame : c'.unread = c.unread ++ [] := by rw [List.append_nil, hunread]
      refine framed_quiet hf htaken (hbytes ▸ hsame) hevents
        (fun hreading => ⟨hreader.mp hreading, fun h => .inl (hshutdown ▸ h)⟩) fun hstopped => ?_
      obtain ⟨hbefore, hhalted⟩ := hf.stopped fun hreading => hstopped (hreader.mpr hreading)
      exact ⟨hshutdown.trans hbefore, hhalted.later htaken hended ⟨[], hsame, fun _ => rfl⟩⟩

theorem framed_of_run (h : run moves {} = some c) : Framed moves c := by
  induction moves using List.reverseRecOn generalizing c with
  | nil =>
      cases h
      exact framed_empty
  | append_singleton moves m ih =>
      rw [run_concat] at h
      obtain ⟨before, hbefore, hmove⟩ := Option.bind_eq_some_iff.mp h
      exact framed_step hbefore (ih hbefore) (flow_of_move hmove)

/-! ## After the reader has stopped -/

/-- A reader that has stopped takes nothing, stays so and reports nothing. -/
theorem stopped_step (h : c.move? m = some c') (hstopped : c.reader ≠ .reading) :
    c'.reader ≠ .reading ∧ c'.events = c.events := by
  cases flow_of_move h with
  | take hreader => exact (hstopped hreader).elim
  | halt hreader => exact (hstopped hreader).elim
  | stop hreader => exact (hstopped hreader).elim
  | arrive => exact ⟨hstopped, rfl⟩
  | callOff => exact ⟨hstopped, rfl⟩
  | still _ _ _ _ hreader _ hevents => exact ⟨fun h => hstopped (hreader.mp h), hevents⟩

theorem shutdown_step (h : c.move? m = some c') (hshutdown : c.shutdown = true) :
    c'.shutdown = true := by
  cases flow_of_move h with
  | take hreader hsplit =>
      obtain ⟨-, -, ⟨-, -, hsame⟩ | ⟨-, -, htrue⟩⟩ := (accept_processed _ _).reader
      · exact hsame.trans hshutdown
      · exact htrue
  | halt => rfl
  | arrive => exact hshutdown
  | stop => exact hshutdown
  | callOff => rfl
  | still _ _ _ _ _ hsame => exact hsame.trans hshutdown

/-- No reply was left for call `k`, if it has begun at all, and it has returned none. -/
def Unanswered (c : Connection) (k : Nat) : Prop :=
  ∀ call, c.calls[k]? = some call →
    (∀ code payload, call.delivery ≠ some (.reply code payload)) ∧
      ∀ payload, call.stage ≠ .returned (.ok payload)

theorem unanswered_of_entry (hp : c.Placed) {id : UInt32} (h : (id, k) ∈ c.pending.entries) :
    c.Unanswered k := by
  intro call hcall
  obtain ⟨call', hcall', -, hopen, hdelivery⟩ := hp.entry id k h
  rw [hcall] at hcall'
  cases hcall'
  refine ⟨fun code payload hreply => ?_, fun payload hstage => ?_⟩
  · rw [hdelivery] at hreply
    cases hreply
  · rw [hstage] at hopen
    exact hopen

theorem unanswered_of_later (h : c.calls.length ≤ k) : c.Unanswered k := by
  intro call hcall
  rw [List.getElem?_eq_none h] at hcall
  cases hcall

/-- Only a reader that reads answers a call. -/
theorem unanswered_step (h : Effect c m c') (hstopped : c.reader ≠ .reading)
    (hk : c.Unanswered k) : c'.Unanswered k := by
  intro call' hcall'
  rcases turn_of_effect h hcall' with ⟨call, hcall, hturn⟩ | ⟨-, number, payload, rfl⟩
  · obtain ⟨hdelivery, hstage⟩ := hk call hcall
    cases hturn with
    | still => exact ⟨hdelivery, hstage⟩
    | register => exact ⟨hdelivery, nofun⟩
    | write => exact ⟨hdelivery, nofun⟩
    | refuse => exact ⟨hdelivery, nofun⟩
    | giveUp => exact ⟨hdelivery, nofun⟩
    | @collect d _ hd =>
        refine ⟨hdelivery, fun payload hreturned => ?_⟩
        cases d with
        | reply code payload => exact hdelivery code payload hd
        | closed => cases hreturned
    | hand _ hnext =>
        rw [next?_eq_none (.inl hstopped)] at hnext
        cases hnext
    | close => exact ⟨nofun, hstage⟩
  · exact ⟨nofun, nofun⟩

/-- What a reader that has stopped leaves to a later history. -/
theorem stopped_run {later : List Move} (h : run later c = some d) (hstopped : c.reader ≠ .reading)
    (hshutdown : c.shutdown = true) :
    taken later c = [] ∧ d.events = c.events ∧ d.shutdown = true ∧
      ∀ k, c.Unanswered k → d.Unanswered k := by
  induction later generalizing c with
  | nil =>
      cases h
      exact ⟨rfl, rfl, hshutdown, fun k hk => hk⟩
  | cons m later ih =>
      rw [run_cons] at h
      obtain ⟨next, hmove, h⟩ := Option.bind_eq_some_iff.mp h
      obtain ⟨hstopped', hevents⟩ := stopped_step hmove hstopped
      obtain ⟨htaken, hevents', hd, hunanswered⟩ := ih h hstopped' (shutdown_step hmove hshutdown)
      have hintake : c.intake m = [] := by
        by_cases hm : m = .read
        · rw [hm, intake_read_of_none (next?_eq_none (.inl hstopped))]
        · exact intake_of_ne hm
      have hafter : c.after m = next := by rw [after, hmove]; rfl
      refine ⟨?_, hevents'.trans hevents, hd, fun k hk => ?_⟩
      · rw [taken, hintake, hafter, htaken, List.append_nil]
      · exact hunanswered k (unanswered_step (effect_of_move hmove) hstopped hk)

/-! ### How such a call returns -/

/-- The caller of call `k`, by itself, brings it to an error. -/
def FailsAlone (c : Connection) (k : Nat) : Prop :=
  ∃ own d e, own ⊆ [.register k, .write k, .cancel k] ∧ own.length ≤ 3 ∧ run own c = some d ∧
    d.result? k = some (.error e)

theorem cancel_waiting (hshutdown : c.shutdown = true) (hcall : c.calls[k]? = some call)
    (hstage : call.stage = .waiting) :
    ∃ d, run [.cancel k] c = some d ∧ d.result? k = some (.error .cancelled) := by
  have hat : c.callAt? k CallStage.isWaiting = some call :=
    callAt?_eq_some.mpr ⟨hcall, by rw [hstage]; rfl⟩
  have hmove : c.move? (.cancel k) = some (c.giveUp k call .cancelled) := by
    simp [move?, hat, hshutdown]
  refine ⟨_, by rw [run_cons, hmove]; rfl, result?_eq_some.mpr ?_⟩
  refine ⟨{ call with stage := .returned (.error .cancelled) }, ?_, rfl⟩
  rw [giveUp, getElem?_setCall (by exact hcall), if_pos rfl]

theorem cancel_registered (hshutdown : c.shutdown = true) (hcall : c.calls[k]? = some call)
    (hstage : call.stage = .registered) :
    ∃ d, run [.write k, .cancel k] c = some d ∧ d.result? k = some (.error .cancelled) := by
  have hat : c.callAt? k CallStage.isRegistered = some call :=
    callAt?_eq_some.mpr ⟨hcall, by rw [hstage]; rfl⟩
  obtain ⟨next, hmove, hnext⟩ : ∃ next, c.move? (.write k) = some next ∧
      next.calls[k]? = some { call with stage := .waiting } := by
    refine ⟨_, by simp only [move?, hat]; rfl, ?_⟩
    rw [getElem?_setCall (by exact hcall), if_pos rfl]
  obtain ⟨d, hrun, hd⟩ := cancel_waiting (shutdown_step hmove hshutdown) hnext rfl
  exact ⟨d, by rw [run_cons, hmove]; exact hrun, hd⟩

theorem cancel_begun (hshutdown : c.shutdown = true) (hcall : c.calls[k]? = some call)
    (hstage : call.stage = .begun) :
    ∃ d, run [.register k, .write k, .cancel k] c = some d ∧
      d.result? k = some (.error .cancelled) := by
  have hat : c.callAt? k CallStage.isBegun = some call :=
    callAt?_eq_some.mpr ⟨hcall, by rw [hstage]; rfl⟩
  have hmove : c.move? (.register k) = some (c.register k call) := by
    simp only [move?, hat]
    rfl
  obtain ⟨d, hrun, hd⟩ :=
    cancel_registered (shutdown_step hmove hshutdown) (getElem?_register_self hcall) rfl
  exact ⟨d, by rw [run_cons, hmove]; exact hrun, hd⟩

/-- Once the connection was called off, a call that has not returned needs nobody else to end. -/
theorem failsAlone (hshutdown : c.shutdown = true) (hcall : c.calls[k]? = some call)
    (hresult : c.result? k = none) : c.FailsAlone k := by
  cases hstage : call.stage with
  | begun =>
      obtain ⟨d, hrun, hd⟩ := cancel_begun hshutdown hcall hstage
      exact ⟨_, d, .cancelled, List.Subset.refl _, by simp, hrun, hd⟩
  | registered =>
      obtain ⟨d, hrun, hd⟩ := cancel_registered hshutdown hcall hstage
      exact ⟨_, d, .cancelled, List.subset_cons_self _ _, by simp, hrun, hd⟩
  | waiting =>
      obtain ⟨d, hrun, hd⟩ := cancel_waiting hshutdown hcall hstage
      exact ⟨_, d, .cancelled, by simp, by simp, hrun, hd⟩
  | returned r =>
      rw [result?_eq_some.mpr ⟨call, hcall, hstage⟩] at hresult
      cases hresult

theorem Unanswered.result {r : Except JdwpError Bytes} (h : c.Unanswered k)
    (hresult : c.result? k = some r) : ∃ e, r = .error e := by
  obtain ⟨call, hcall, hstage⟩ := result?_eq_some.mp hresult
  cases r with
  | error e => exact ⟨e, rfl⟩
  | ok payload => exact ((h call hcall).2 payload hstage).elim

/-! ## The packets of a history -/

/-- Whatever stream of bytes arrives, in whatever pieces, and whatever the callers, the clock and
the owner do meanwhile:

* the packets taken, followed by those not taken yet, are the whole packets of the stream, in
  order; and for a stream that packets spell, these are its whole packets;
* the events reported are those of the packets taken, in order;
* the packet that is taken next completes a call, is ignored, is decoded or is skipped;
* while the reader reads, all it took could be decoded, and only the missing end of a packet keeps
  it waiting;
* once it has stopped, it did so at a length that is too small, at the end of the line or at the
  first event that cannot be decoded, unless the owner called the connection off; no later history
  takes or reports anything; and a call without a reply, such as one in the table or one that begins
  later, returns nothing but an error, and can do so by itself.

That it can do so by itself assumes that a write ends. Here a write is one move that is always open
to a call whose turn it is, so no caller waits for another to leave the line, or for a line that
takes no bytes. -/
theorem packets_framed (h : run moves {} = some c) :
    (taken moves {}).map Intake.packet ++ Packet.whole c.unread = Packet.whole (arrived moves) ∧
    (∀ ps : List Packet, (∀ p ∈ ps, p.FitsLine) → arrived moves = ps.flatMap Packet.encode →
      Packet.whole (arrived moves) = ps) ∧
    c.events = (taken moves {}).flatMap Intake.events ∧
    (∀ p c', c.next? = some p → c.move? .read = some c' →
      ∃ rest, c.unread = p.encode ++ rest ∧ Processed p { c with unread := rest } c') ∧
    (c.reader = .reading → (∀ i ∈ taken moves {}, i.Sound) ∧
      (c.move? .read = none → Packet.split c.unread = .incomplete ∧ c.ended = false)) ∧
    (c.reader ≠ .reading → Halted moves c ∧
      (∀ id k, (id, k) ∈ c.pending.entries → c.Unanswered k) ∧
      (∀ k, c.calls.length ≤ k → c.Unanswered k) ∧
      ∀ later d, run later c = some d →
        taken (moves ++ later) {} = taken moves {} ∧ d.events = c.events ∧
        ∀ k, c.Unanswered k →
          (∀ r, d.result? k = some r → ∃ e, r = .error e) ∧
          (k < d.calls.length → d.result? k = none → d.FailsAlone k)) := by
  have hframed := framed_of_run h
  refine ⟨?_, ?_, hframed.events, ?_, ?_, ?_⟩
  · have hfits : ∀ p ∈ (taken moves {}).map Intake.packet, p.FitsLine := by
      intro p hp
      obtain ⟨i, hi, rfl⟩ := List.mem_map.mp hp
      exact hframed.fits i hi
    have hstream : arrived moves
        = ((taken moves {}).map Intake.packet).flatMap Packet.encode ++ c.unread := by
      rw [List.flatMap_map]
      exact hframed.stream
    rw [hstream, Packet.whole_append hfits]
  · intro ps hps hstream
    rw [hstream, Packet.whole_flatMap hps]
  · intro p c' hnext hread
    unfold next? at hnext
    split at hnext
    next rest hreader hsplit =>
      cases hnext
      simp only [move?, hreader, hsplit, Option.some.injEq] at hread
      refine ⟨rest, (Packet.split_packet hsplit).1, ?_⟩
      rw [← hread, hreader]
      exact accept_processed p _
    next => cases hnext
  · intro hreader
    exact ⟨hframed.sound hreader, split_of_read_closed hreader⟩
  · intro hstopped
    obtain ⟨hshutdown, hhalted⟩ := hframed.stopped hstopped
    refine ⟨hhalted, fun id k hentry => unanswered_of_entry (kept_of_run h).placed hentry,
      fun k hk => unanswered_of_later hk, fun later d hlater => ?_⟩
    obtain ⟨htaken, hevents, hd, hunanswered⟩ := stopped_run hlater hstopped hshutdown
    refine ⟨?_, hevents, fun k hk => ⟨fun r => (hunanswered k hk).result, fun hlength hnone => ?_⟩⟩
    · rw [taken_append h, htaken, List.append_nil]
    · exact failsAlone hd (List.getElem?_eq_getElem hlength) hnone

/-- Two calls are under way. A reply to the first arrives in two pieces, the second one with a
report of the machine's death and a header that announces three bytes behind it. -/
def shortHeader : List Move :=
  [.begin (1, 7) [], .begin (1, 1) [], .register 0, .register 1, .write 0, .write 1,
    .arrive ((Packet.reply 1 0 [8]).encode.take 5), .arrive ((Packet.reply 1 0 [8]).encode.drop 5 ++
      (Packet.command 9 (64, 100) (Event.encodePacket {} 1 [.vmDeath])).encode ++
      [0, 0, 0, 3, 0, 0, 0, 7, 0x80, 0, 0]), .read, .read, .read, .collect 0]

/-- The first call is answered and the report is taken. A reply that arrives behind the header is
not read, the second call fails, and so does one that begins later. -/
theorem packets_framed_of_shortHeader :
    ∃ c d, run shortHeader {} = some c ∧ c.reader ≠ .reading ∧
      c.result? 0 = some (.ok [8]) ∧ c.events = [.vmDeath] ∧
      run [.arrive (Packet.reply 2 0 [9]).encode, .begin (1, 1) [], .register 2, .write 2, .drain,
        .collect 1, .cancel 2] c = some d ∧
      d.events = c.events ∧ (∃ e, d.result? 1 = some (.error e)) ∧
      ∃ e, d.result? 2 = some (.error e) := by
  obtain ⟨c, hrun⟩ : ∃ c, run shortHeader {} = some c := ⟨_, rfl⟩
  obtain ⟨hreader, hresult, hevents, hentry, hlength⟩ : c.reader ≠ .reading ∧
      c.result? 0 = some (.ok [8]) ∧ c.events = [.vmDeath] ∧ (2, 1) ∈ c.pending.entries ∧
      c.calls.length = 2 := by
    cases hrun
    exact ⟨by decide, rfl, rfl, by decide, rfl⟩
  obtain ⟨d, hlater, hsecond, hthird⟩ : ∃ d, run [.arrive (Packet.reply 2 0 [9]).encode,
      .begin (1, 1) [], .register 2, .write 2, .drain, .collect 1, .cancel 2] c = some d ∧
      d.result? 1 = some (.error .connectionClosed) ∧
      d.result? 2 = some (.error .cancelled) := by
    cases hrun
    exact ⟨_, rfl, rfl, rfl⟩
  obtain ⟨-, hpending, hnew, hafter⟩ := (packets_framed hrun).2.2.2.2.2 hreader
  obtain ⟨-, hsame, hcalls⟩ := hafter _ d hlater
  refine ⟨c, d, hrun, hreader, hresult, hevents, hlater, hsame, ?_, ?_⟩
  · obtain ⟨e, he⟩ := (hcalls 1 (hpending 2 1 hentry)).1 _ hsecond
    exact ⟨e, he ▸ hsecond⟩
  · obtain ⟨e, he⟩ := (hcalls 2 (hnew 2 (Nat.le_of_eq hlength))).1 _ hthird
    exact ⟨e, he ▸ hthird⟩

end Connection

end StreamTrace
