import StreamTrace.Jdwp.Connection
import StreamTrace.Proofs.Jdwp.Reading

/-!
# Event packets read back

The reader of a connection takes exactly those events from a packet that were laid out in it, in
order, whatever the widths of identifiers are. An event of a kind that nobody knows ends the packet
and the reading goes on behind it; an event that is cut short ends the connection, after the events
in front of it were reported.
-/

namespace StreamTrace

namespace Event

open Decoder

/-! ## One event -/

/-- What is special to the kind of the event fits its field. -/
def FieldsFit (sizes : IdSizes) : Event → Prop
  | singleStep _ _ l => l.Fits sizes
  | breakpoint _ _ l => l.Fits sizes
  | exception _ _ l thrown caught =>
    l.Fits sizes ∧ thrown < Nat.pow 256 sizes.object ∧
      ∀ m, caught = some m → m.Fits sizes ∧ m ≠ ⟨0, 0, 0, 0⟩
  | methodEntry _ _ l => l.Fits sizes
  | methodExit _ _ l => l.Fits sizes
  | methodExitWithValue _ _ l v => l.Fits sizes ∧ v.Fits sizes
  | classPrepare _ _ _ c signature _ =>
    c < Nat.pow 256 sizes.referenceType ∧ (Utf8.encode signature).length < UInt32.size
  | vmStart _ _ => True
  | vmDeath => True

/-- Everything in the event fits its field. Request numbers have 32 bits and a sign. -/
structure Fits (sizes : IdSizes) (e : Event) : Prop where
  request : ∀ r, e.request? = some r → -2147483648 ≤ r ∧ r < 2147483648
  thread : ∀ t, e.thread? = some t → t < Nat.pow 256 sizes.object
  fields : e.FieldsFit sizes

variable {sizes : IdSizes}

theorem reads_event (hs : sizes.Allowed) {e : Event} (h : e.Fits sizes) :
    Reads (read sizes) (e.encode sizes) (some e) := by
  have hrequest : -2147483648 ≤ e.request?.getD 0 ∧ e.request?.getD 0 < 2147483648 := by
    cases hr : e.request? with
    | none => simp
    | some r => exact h.request r hr
  unfold read encode
  simp only [List.append_assoc]
  refine (reads_u8 e.kind).bind ((reads_i32 hrequest.1 hrequest.2).bind ?_)
  -- The kind decides which layout is read.
  cases e with
  | singleStep r t l =>
      simp +decide only [kind, ↓reduceIte, encodeFields]
      refine (reads_objectId hs (h.thread t rfl)).bind ?_
      exact (reads_location hs h.fields).bind_nil (reads_pure _)
  | breakpoint r t l =>
      simp +decide only [kind, ↓reduceIte, encodeFields]
      refine (reads_objectId hs (h.thread t rfl)).bind ?_
      exact (reads_location hs h.fields).bind_nil (reads_pure _)
  | exception r t l thrown caught =>
      obtain ⟨hl, hthrown, hcaught⟩ := h.fields
      simp +decide only [kind, ↓reduceIte, encodeFields, List.append_assoc]
      refine (reads_objectId hs (h.thread t rfl)).bind ?_
      refine (reads_location hs hl).bind ?_
      rw [← List.append_assoc]
      refine (reads_taggedObjectId hs Tag.object hthrown).bind ?_
      exact (reads_optionalLocation hs hcaught).bind_nil (reads_pure _)
  | methodEntry r t l =>
      simp +decide only [kind, ↓reduceIte, encodeFields]
      refine (reads_objectId hs (h.thread t rfl)).bind ?_
      exact (reads_location hs h.fields).bind_nil (reads_pure _)
  | methodExit r t l =>
      simp +decide only [kind, ↓reduceIte, encodeFields]
      refine (reads_objectId hs (h.thread t rfl)).bind ?_
      exact (reads_location hs h.fields).bind_nil (reads_pure _)
  | methodExitWithValue r t l v =>
      obtain ⟨hl, hv⟩ := h.fields
      simp +decide only [kind, ↓reduceIte, encodeFields, List.append_assoc]
      refine (reads_objectId hs (h.thread t rfl)).bind ?_
      refine (reads_location hs hl).bind ?_
      exact (reads_tagged hs hv).bind_nil (reads_pure _)
  | classPrepare r t typeTag c signature status =>
      obtain ⟨hc, hsignature⟩ := h.fields
      simp +decide only [kind, ↓reduceIte, encodeFields, List.append_assoc]
      refine (reads_objectId hs (h.thread t rfl)).bind ?_
      refine (reads_u8 typeTag).bind ?_
      refine (reads_typeId hs hc).bind ?_
      refine (reads_string hsignature).bind ?_
      exact (reads_u32 status).bind_nil (reads_pure _)
  | vmStart r t =>
      simp +decide only [kind, ↓reduceIte, encodeFields]
      exact (reads_objectId hs (h.thread t rfl)).bind_nil (reads_pure _)
  | vmDeath =>
      simp +decide only [↓reduceIte, encodeFields]
      exact reads_pure _

/-- What is there of an event whose end is missing: not even its kind and its request, or a
beginning of an event. -/
def Truncated (sizes : IdSizes) (short : Bytes) : Prop :=
  short.length < 5 ∨
    ∃ (e : Event) (gone : Bytes), e.Fits sizes ∧ gone ≠ [] ∧ e.encode sizes = short ++ gone

theorem run_u8 (position : Nat) (v : UInt8) (rest : Bytes) :
    u8.run ⟨position, v :: rest⟩ = (.ok v, ⟨position + 1, rest⟩) :=
  (reads_u8 v).whole position rest

theorem read_truncated (hs : sizes.Allowed) {short : Bytes} (h : Truncated sizes short)
    (position : Nat) : ∃ fault s, (read sizes).run ⟨position, short⟩ = (.error fault, s) := by
  rcases h with hshort | ⟨e, gone, he, hgone, hencode⟩
  · cases short with
    | nil =>
        obtain ⟨fault, s, h⟩ := (reads_u8 0).cut position [] [0] rfl (List.cons_ne_nil _ _)
        exact ⟨fault, s, run_bind_error h⟩
    | cons kind short =>
        -- The missing bytes of the request are filled up with zeroes.
        have hfill : (short ++ List.replicate (4 - short.length) 0).length = 4 := by
          simp only [List.length_cons, List.length_append, List.length_replicate] at hshort ⊢
          omega
        have hmissing : List.replicate (4 - short.length) (0 : UInt8) ≠ [] := by
          simp only [List.length_cons] at hshort
          simp only [ne_eq, List.replicate_eq_nil_iff]
          omega
        obtain ⟨fault, s, h⟩ := (reads_i32_bytes hfill).cut (position + 1) short _ rfl hmissing
        exact ⟨fault, s, (run_bind_ok (run_u8 position kind short)).trans (run_bind_error h)⟩
  · exact (reads_event hs he).cut position short gone hencode hgone

/-- An event whose kind is not known is given up after its request was read. -/
theorem read_unknown {kind : UInt8} (hkind : ∀ e : Event, e.kind ≠ kind) {behind : Bytes}
    (hbehind : 4 ≤ behind.length) (position : Nat) :
    ∃ s, (read sizes).run ⟨position, kind :: behind⟩ = (.ok none, s) := by
  have hfour : (behind.take 4).length = 4 := by
    rw [List.length_take, Nat.min_eq_left hbehind]
  have hrequest := (reads_i32_bytes hfour).whole (position + 1) (behind.drop 4)
  rw [List.take_append_drop] at hrequest
  refine ⟨⟨position + 1 + (behind.take 4).length, behind.drop 4⟩, ?_⟩
  rw [read, run_bind_ok (run_u8 position kind behind), run_bind_ok hrequest]
  have hsingleStep : kind ≠ EventKind.singleStep := (hkind (.singleStep 0 0 default)).symm
  have hbreakpoint : kind ≠ EventKind.breakpoint := (hkind (.breakpoint 0 0 default)).symm
  have hexception : kind ≠ EventKind.exception := (hkind (.exception 0 0 default 0 none)).symm
  have hentry : kind ≠ EventKind.methodEntry := (hkind (.methodEntry 0 0 default)).symm
  have hexit : kind ≠ EventKind.methodExit := (hkind (.methodExit 0 0 default)).symm
  have hvalue : kind ≠ EventKind.methodExitWithReturnValue :=
    (hkind (.methodExitWithValue 0 0 default .void)).symm
  have hprepare : kind ≠ EventKind.classPrepare := (hkind (.classPrepare 0 0 0 0 "" 0)).symm
  have hstart : kind ≠ EventKind.vmStart := (hkind (.vmStart 0 0)).symm
  have hdeath : kind ≠ EventKind.vmDeath := (hkind .vmDeath).symm
  simp only [hsingleStep, hbreakpoint, hexception, hentry, hexit, hvalue, hprepare, hstart, hdeath,
    ↓reduceIte]
  rfl

/-! ## The events of a packet -/

theorem readMany_append (hs : sizes.Allowed) {events : List Event}
    (h : ∀ e ∈ events, e.Fits sizes) (left position : Nat) (rest : Bytes) :
    ∃ position', readMany sizes (events.length + left)
        ⟨position, events.flatMap (encode sizes) ++ rest⟩
      = (events ++ (readMany sizes left ⟨position', rest⟩).1,
        (readMany sizes left ⟨position', rest⟩).2) := by
  induction events generalizing position with
  | nil => exact ⟨position, by rw [List.length_nil, Nat.zero_add]; rfl⟩
  | cons e events ih =>
      obtain ⟨position', ih⟩ := ih (fun e he => h e (List.mem_cons_of_mem _ he))
        (position + (e.encode sizes).length)
      refine ⟨position', ?_⟩
      have hread := (reads_event hs (h e List.mem_cons_self)).whole position
        (events.flatMap (encode sizes) ++ rest)
      rw [List.length_cons, Nat.add_right_comm, List.flatMap_cons, List.append_assoc, readMany,
        hread]
      dsimp only
      rw [ih]
      rfl

theorem decodePacket_append (hs : sizes.Allowed) {events : List Event}
    (h : ∀ e ∈ events, e.Fits sizes) (policy : UInt8) {left : Nat}
    (hcount : events.length + left < UInt32.size) (rest : Bytes) :
    ∃ position, decodePacket sizes (Encode.u8 policy ++ Encode.count (events.length + left)
        ++ (events.flatMap (encode sizes) ++ rest))
      = (events ++ (readMany sizes left ⟨position, rest⟩).1,
        (readMany sizes left ⟨position, rest⟩).2) := by
  obtain ⟨position, hmany⟩ := readMany_append hs h left
    (Encode.u8 policy ++ Encode.count (events.length + left)).length rest
  refine ⟨position, ?_⟩
  have hheader := ((reads_u8 policy).bind (k := fun _ => Decoder.count)
    (reads_count hcount)).whole 0 (events.flatMap (encode sizes) ++ rest)
  unfold decodePacket Decoder.input
  dsimp only
  rw [hheader]
  dsimp only
  rw [Nat.zero_add, hmany]

theorem five_le_length_encode (sizes : IdSizes) (e : Event) : 5 ≤ (e.encode sizes).length := by
  have hi32 : (Encode.i32 (e.request?.getD 0)).length = 4 := Bytes.length_ofInt 4 _
  simp only [encode, Encode.u8, List.length_append, hi32, List.length_singleton]
  omega

theorem length_le_flatMap_encode (sizes : IdSizes) (events : List Event) :
    events.length ≤ (events.flatMap (encode sizes)).length := by
  induction events with
  | nil => simp
  | cons e events ih =>
      have := five_le_length_encode sizes e
      simp only [List.length_cons, List.flatMap_cons, List.length_append]
      omega

end Event

/-! ## The reader -/

/-- The length of the packet fits its field. -/
def Packet.FitsLine (p : Packet) : Prop := headerLength + p.payload.length < UInt32.size

instance (p : Packet) : Decidable p.FitsLine := inferInstanceAs (Decidable (_ < _))

/-- A packet from the other side that announces `n` events. -/
def Packet.report (id : UInt32) (policy : UInt8) (n : Nat) (body : Bytes) : Packet :=
  Packet.command id (64, 100) (Encode.u8 policy ++ Encode.count n ++ body)

theorem Packet.isEvents_report (id : UInt32) (policy : UInt8) (n : Nat) (body : Bytes) :
    (Packet.report id policy n body).isEvents = true := by
  show (!((0 : UInt8) &&& Packet.replyFlag != 0) && (64 : UInt8) == 64 && (100 : UInt8) == 100)
    = true
  decide

namespace Connection

variable {c : Connection} {p : Packet} {rest : Bytes} {events : List Event}

theorem read_packet (hreading : c.reader = .reading) (hunread : c.unread = p.encode ++ rest)
    (hline : p.FitsLine) : c.move? .read = some ({ c with unread := rest }.accept p) := by
  simp only [move?, hreading, hunread, Packet.split_encode p rest hline]

theorem isReply_of_isEvents (hp : p.isEvents = true) : p.isReply = false := by
  simp only [Packet.isEvents, Bool.and_eq_true, Bool.not_eq_true'] at hp
  exact hp.1.1

theorem accept_events (hp : p.isEvents = true)
    (h : Event.decodePacket c.sizes p.payload = (events, none)) :
    c.accept p = { c with events := c.events ++ events } := by
  simp only [accept, isReply_of_isEvents hp, hp, h, Bool.false_eq_true, ↓reduceIte]

theorem accept_fault (hp : p.isEvents = true) {fault : JdwpError}
    (h : Event.decodePacket c.sizes p.payload = (events, some fault)) :
    c.accept p = { c with events := c.events ++ events }.fail := by
  simp only [accept, isReply_of_isEvents hp, hp, h, Bool.false_eq_true, ↓reduceIte]

/-- A packet of events is decoded with the widths that it was laid out with. -/
theorem decodePacket_encodePacket {sizes : IdSizes} (hs : sizes.Allowed)
    (h : ∀ e ∈ events, e.Fits sizes) {id : UInt32} {policy : UInt8}
    (hline : (Packet.command id (64, 100) (Event.encodePacket sizes policy events)).FitsLine) :
    Event.decodePacket sizes (Event.encodePacket sizes policy events) = (events, none) := by
  have hcount : events.length + 0 < UInt32.size := by
    have := Event.length_le_flatMap_encode sizes events
    simp only [Packet.FitsLine, Packet.command, Event.encodePacket, Encode.counted,
      List.length_append] at hline
    omega
  obtain ⟨position, hdecode⟩ := Event.decodePacket_append hs h policy hcount []
  rw [List.append_nil, Event.readMany, List.append_nil] at hdecode
  rwa [Event.encodePacket, Encode.counted, ← List.append_assoc]

/-- The reader of a connection hands on exactly the events that a packet lays out, in order. When
an event of an unknown kind follows them, whatever stands behind its kind and its request, the same
events are handed on and the reader goes on with the next packet. When an event follows them whose
end is missing, the same events are handed on and the connection is called off. -/
theorem reports_events (hs : c.sizes.Allowed) (hreading : c.reader = .reading)
    (h : ∀ e ∈ events, e.Fits c.sizes) (id : UInt32) (policy : UInt8) (rest : Bytes) :
    (∀ p, p = Packet.command id (64, 100) (Event.encodePacket c.sizes policy events) →
      p.FitsLine → c.unread = p.encode ++ rest →
      c.move? .read = some { c with unread := rest, events := c.events ++ events }) ∧
    (∀ p n kind behind, (∀ e : Event, e.kind ≠ kind) → 4 ≤ behind.length →
      events.length < n → n < UInt32.size →
      p = Packet.report id policy n (events.flatMap (Event.encode c.sizes) ++ kind :: behind) →
      p.FitsLine → c.unread = p.encode ++ rest →
      c.move? .read = some { c with unread := rest, events := c.events ++ events }) ∧
    ∀ p n short, Event.Truncated c.sizes short → events.length < n → n < UInt32.size →
      p = Packet.report id policy n (events.flatMap (Event.encode c.sizes) ++ short) →
      p.FitsLine → c.unread = p.encode ++ rest →
      c.move? .read = some { c with
        unread := rest, events := c.events ++ events, reader := .failing, shutdown := true } := by
  refine ⟨?_, ?_, ?_⟩
  · intro p hp hline hunread
    have hreport : p.isEvents = true := hp ▸ Packet.isEvents_report id policy events.length _
    rw [read_packet hreading hunread hline]
    refine congrArg some (accept_events hreport ?_)
    subst hp
    exact decodePacket_encodePacket hs h hline
  · intro p n kind behind hkind hbehind hmore hn hp hline hunread
    obtain ⟨left, rfl⟩ : ∃ left, n = events.length + (left + 1) := ⟨n - events.length - 1, by omega⟩
    obtain ⟨position, hdecode⟩ := Event.decodePacket_append hs h policy hn (kind :: behind)
    obtain ⟨s, hread⟩ := @Event.read_unknown c.sizes kind hkind behind hbehind position
    rw [read_packet hreading hunread hline, hp]
    refine congrArg some (accept_events (Packet.isEvents_report ..) (hdecode.trans ?_))
    rw [Event.readMany, hread, List.append_nil]
  · intro p n short hshort hmore hn hp hline hunread
    obtain ⟨left, rfl⟩ : ∃ left, n = events.length + (left + 1) := ⟨n - events.length - 1, by omega⟩
    obtain ⟨position, hdecode⟩ := Event.decodePacket_append hs h policy hn short
    obtain ⟨fault, s, hread⟩ := Event.read_truncated hs hshort position
    rw [read_packet hreading hunread hline, hp]
    rw [Event.readMany, hread, List.append_nil] at hdecode
    exact congrArg some (accept_fault (Packet.isEvents_report ..) hdecode)

/-- An uncaught exception, a method that returns a reference, and the end. -/
def lastEvents : List Event :=
  [.exception (-5) 0x77 ⟨1, 0x100, 0x32, 4⟩ 0x600 none,
    .methodExitWithValue 4 0x77 ⟨2, 0xABCDEF, 0xFFFF, 12⟩ (.object 0x500), .vmDeath]

theorem lastEvents_fit : ∀ e ∈ lastEvents, e.Fits mixedSizes := by
  intro e he
  simp only [lastEvents, List.mem_cons, List.not_mem_nil, or_false] at he
  rcases he with rfl | rfl | rfl
  · exact ⟨fun r hr => (by cases hr; decide), fun t ht => (by cases ht; decide),
      ⟨by decide, by decide⟩, by decide, fun m hm => (by cases hm)⟩
  · exact ⟨fun r hr => (by cases hr; decide), fun t ht => (by cases ht; decide),
      ⟨by decide, by decide⟩, by decide, by decide, by decide⟩
  · exact ⟨fun r hr => (by cases hr), fun t ht => (by cases ht), trivial⟩

/-- The three events are handed on from a packet of their own, from one that goes on with a monitor
event, and from one that breaks off inside a fourth event. -/
theorem reports_events_of_lastEvents :
    move? { sizes := mixedSizes, unread := (Packet.command 9 (64, 100)
        (Event.encodePacket mixedSizes 1 lastEvents)).encode ++ [0, 0] } .read
      = some { sizes := mixedSizes, unread := [0, 0], events := lastEvents } ∧
    move? { sizes := mixedSizes, unread := (Packet.report 9 1 4
        (lastEvents.flatMap (Event.encode mixedSizes) ++ 43 :: [0, 0, 0, 7, 1])).encode ++ [] } .read
      = some { sizes := mixedSizes, events := lastEvents } ∧
    move? { sizes := mixedSizes, unread := (Packet.report 9 1 4
        (lastEvents.flatMap (Event.encode mixedSizes) ++ [2, 0, 0])).encode ++ [] } .read
      = some { sizes := mixedSizes, events := lastEvents, reader := .failing, shutdown := true } := by
  have hs := mixedSizes_allowed
  have hmonitor : ∀ e : Event, e.kind ≠ 43 := fun e => by
    cases e <;> simp +decide only [Event.kind]
  refine ⟨?_, ?_, ?_⟩
  · exact (reports_events (c := { sizes := mixedSizes, unread := _ }) hs rfl lastEvents_fit
      9 1 [0, 0]).1 _ rfl (by decide) rfl
  · exact (reports_events (c := { sizes := mixedSizes, unread := _ }) hs rfl lastEvents_fit
      9 1 []).2.1 _ 4 43 [0, 0, 0, 7, 1] hmonitor (by decide) (by decide) (by decide) rfl
      (by decide) rfl
  · exact (reports_events (c := { sizes := mixedSizes, unread := _ }) hs rfl lastEvents_fit
      9 1 []).2.2 _ 4 [2, 0, 0] (.inl (by decide)) (by decide) (by decide) rfl (by decide) rfl

end Connection

end StreamTrace
