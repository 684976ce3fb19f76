import StreamTrace.Jdwp.CommandDecoding
import StreamTrace.Proofs.Jdwp.Reading

/-!
# Commands read back

The commands that carry values or lists of them: event requests with their conditions, invocations
with their arguments, the values for slots and the value to return. A virtual machine that knows
the number of such a command and the widths of identifiers finds all its arguments in the payload
and nothing behind them, so no two calls of one command are sent as the same bytes.
-/

namespace StreamTrace

/-! ## What fits the fields of a command -/

/-- What the condition speaks of fits its field. -/
def EventModifier.Fits (sizes : IdSizes) : EventModifier → Prop
  | .count _ => True
  | .threadOnly t => t < Nat.pow 256 sizes.object
  | .classOnly c => c < Nat.pow 256 sizes.referenceType
  | .classMatch pattern => (Utf8.encode pattern).length < UInt32.size
  | .locationOnly l => l.Fits sizes
  | .exceptionOnly c _ _ => c < Nat.pow 256 sizes.referenceType
  | .step t _ _ => t < Nat.pow 256 sizes.object

/-- The number of arguments fits its field, and so does each of them. -/
structure Command.ArgumentsFit (sizes : IdSizes) (args : List Value) : Prop where
  count : args.length < UInt32.size
  each : ∀ v ∈ args, v.Fits sizes

namespace Command

/-- A command that carries values or a list, and what it carries fits its fields. -/
inductive Carries (sizes : IdSizes) : Command → Prop where
  | invokeStatic {c : TypeId} {t : ThreadId} {m : MethodId} {args : List Value} {options : UInt32}
      (hc : c < Nat.pow 256 sizes.referenceType) (ht : t < Nat.pow 256 sizes.object)
      (hm : m < Nat.pow 256 sizes.method) (hargs : ArgumentsFit sizes args) :
      Carries sizes (.invokeStatic c t m args options)
  | newInstance {c : TypeId} {t : ThreadId} {m : MethodId} {args : List Value} {options : UInt32}
      (hc : c < Nat.pow 256 sizes.referenceType) (ht : t < Nat.pow 256 sizes.object)
      (hm : m < Nat.pow 256 sizes.method) (hargs : ArgumentsFit sizes args) :
      Carries sizes (.newInstance c t m args options)
  | invokeVirtual {o : ObjectId} {t : ThreadId} {c : TypeId} {m : MethodId} {args : List Value}
      {options : UInt32} (ho : o < Nat.pow 256 sizes.object) (ht : t < Nat.pow 256 sizes.object)
      (hc : c < Nat.pow 256 sizes.referenceType) (hm : m < Nat.pow 256 sizes.method)
      (hargs : ArgumentsFit sizes args) :
      Carries sizes (.invokeVirtual o t c m args options)
  | forceReturn {t : ThreadId} {v : Value} (ht : t < Nat.pow 256 sizes.object)
      (hv : v.Fits sizes) : Carries sizes (.forceReturn t v)
  | setSlots {t : ThreadId} {f : FrameId} {values : List (Nat × Value)}
      (ht : t < Nat.pow 256 sizes.object) (hf : f < Nat.pow 256 sizes.frame)
      (hcount : values.length < UInt32.size)
      (hvalues : ∀ e ∈ values, e.1 < UInt32.size ∧ e.2.Fits sizes) :
      Carries sizes (.setSlots t f values)
  | setRequest {kind policy : UInt8} {modifiers : List EventModifier}
      (hcount : modifiers.length < UInt32.size) (hmodifiers : ∀ m ∈ modifiers, m.Fits sizes) :
      Carries sizes (.setRequest kind policy modifiers)

end Command

/-! ## Reading -/

namespace Decoder

variable {sizes : IdSizes}

theorem reads_modifier (hs : sizes.Allowed) {m : EventModifier} (h : m.Fits sizes) :
    Reads (EventModifier.read sizes) (m.encode sizes) m := by
  unfold EventModifier.read
  -- The number in front decides which layout is read.
  cases m with
  | count n =>
      refine (reads_u8 1).bind ?_
      exact (reads_u32 n).bind_nil (reads_pure _)
  | threadOnly t =>
      refine (reads_u8 3).bind ?_
      exact (reads_objectId hs h).bind_nil (reads_pure _)
  | classOnly c =>
      refine (reads_u8 4).bind ?_
      exact (reads_typeId hs h).bind_nil (reads_pure _)
  | classMatch pattern =>
      refine (reads_u8 5).bind ?_
      exact (reads_string h).bind_nil (reads_pure _)
  | locationOnly l =>
      refine (reads_u8 7).bind ?_
      exact (reads_location hs h).bind_nil (reads_pure _)
  | exceptionOnly c caught uncaught =>
      simp only [EventModifier.encode, List.append_assoc]
      refine (reads_u8 8).bind ?_
      refine (reads_typeId hs h).bind ?_
      refine (reads_bool caught).bind ?_
      exact (reads_bool uncaught).bind_nil (reads_pure _)
  | step t size depth =>
      simp only [EventModifier.encode, List.append_assoc]
      refine (reads_u8 10).bind ?_
      refine (reads_objectId hs h).bind ?_
      refine (reads_u32 size).bind ?_
      exact (reads_u32 depth).bind_nil (reads_pure _)

theorem reads_slot (hs : sizes.Allowed) {e : Nat × Value} (hslot : e.1 < UInt32.size)
    (hv : e.2.Fits sizes) :
    Reads (Command.readSlot sizes) (Encode.count e.1 ++ Encode.tagged sizes e.2) e := by
  unfold Command.readSlot
  refine (reads_count hslot).bind ?_
  exact (reads_tagged hs hv).bind_nil (reads_pure e)

theorem reads_arguments (hs : sizes.Allowed) {args : List Value}
    (h : Command.ArgumentsFit sizes args) :
    Reads (Command.readArguments sizes) (Encode.counted (Encode.tagged sizes) args) args :=
  reads_counted h.count fun v hv => reads_tagged hs (h.each v hv)

/-- A command that carries values or a list is read back from its payload. -/
theorem reads_command (hs : sizes.Allowed) {c : Command} (h : c.Carries sizes) :
    ∃ d, Command.read? sizes c.number = some d ∧ Reads d (c.payload sizes) c := by
  cases h with
  | @invokeStatic c t m args options hc ht hm hargs =>
      refine ⟨_, rfl, ?_⟩
      simp only [Command.payload, List.append_assoc]
      refine (reads_typeId hs hc).bind ?_
      refine (reads_objectId hs ht).bind ?_
      refine (reads_methodId hs hm).bind ?_
      refine (reads_arguments hs hargs).bind ?_
      exact (reads_u32 options).bind_nil (reads_pure _)
  | @newInstance c t m args options hc ht hm hargs =>
      refine ⟨_, rfl, ?_⟩
      simp only [Command.payload, List.append_assoc]
      refine (reads_typeId hs hc).bind ?_
      refine (reads_objectId hs ht).bind ?_
      refine (reads_methodId hs hm).bind ?_
      refine (reads_arguments hs hargs).bind ?_
      exact (reads_u32 options).bind_nil (reads_pure _)
  | @invokeVirtual o t c m args options ho ht hc hm hargs =>
      refine ⟨_, rfl, ?_⟩
      simp only [Command.payload, List.append_assoc]
      refine (reads_objectId hs ho).bind ?_
      refine (reads_objectId hs ht).bind ?_
      refine (reads_typeId hs hc).bind ?_
      refine (reads_methodId hs hm).bind ?_
      refine (reads_arguments hs hargs).bind ?_
      exact (reads_u32 options).bind_nil (reads_pure _)
  | @forceReturn t v ht hv =>
      refine ⟨_, rfl, ?_⟩
      refine (reads_objectId hs ht).bind ?_
      exact (reads_tagged hs hv).bind_nil (reads_pure _)
  | @setSlots t f values ht hf hcount hvalues =>
      refine ⟨_, rfl, ?_⟩
      simp only [Command.payload, List.append_assoc]
      refine (reads_objectId hs ht).bind ?_
      refine (reads_id hs.frame.1 hs.frame.2 hf).bind ?_
      have hread := reads_counted hcount fun e he =>
        reads_slot hs (hvalues e he).1 (hvalues e he).2
      exact hread.bind_nil (reads_pure _)
  | @setRequest kind policy modifiers hcount hmodifiers =>
      refine ⟨_, rfl, ?_⟩
      simp only [Command.payload, List.append_assoc]
      refine (reads_u8 kind).bind ?_
      refine (reads_u8 policy).bind ?_
      have hread := reads_counted hcount fun m hm => reads_modifier hs (hmodifiers m hm)
      exact hread.bind_nil (reads_pure _)

theorem Reads.run_input {α : Type} {d : Decoder α} {b : Bytes} {a : α} (h : Reads d b a) :
    d.run (input b) = (.ok a, ⟨b.length, []⟩) := by
  have hwhole := h.whole 0 []
  rwa [List.append_nil, Nat.zero_add] at hwhole

end Decoder

/-- The reader for the number of the command finds its arguments in the payload and consumes all of
it. So no other call of the same command, whose arguments fit as well, is sent as these bytes. -/
theorem Command.payload_read_back {sizes : IdSizes} (hs : sizes.Allowed) {c : Command}
    (h : c.Carries sizes) :
    (∃ d, read? sizes c.number = some d ∧
      d.run (Decoder.input (c.payload sizes)) = (.ok c, ⟨(c.payload sizes).length, []⟩)) ∧
    ∀ c' : Command, c'.Carries sizes → c'.number = c.number →
      c'.payload sizes = c.payload sizes → c' = c := by
  obtain ⟨d, hd, hreads⟩ := Decoder.reads_command hs h
  refine ⟨⟨d, hd, hreads.run_input⟩, fun c' h' hnumber hpayload => ?_⟩
  obtain ⟨d', hd', hreads'⟩ := Decoder.reads_command hs h'
  rw [hnumber, hd] at hd'
  cases hd'
  have hrun := hreads'.run_input
  rw [hpayload, hreads.run_input] at hrun
  cases hrun
  rfl

namespace Command

/-- A request with one condition of each kind. -/
def guardedRequest : Command :=
  .setRequest EventKind.exception suspendEventThread
    [.count 5, .threadOnly 0x77, .classOnly 0xABCDEF, .exceptionOnly 0xABCDEF false true,
      .classMatch "java.útil.*", .locationOnly ⟨1, 0xABCDEF, 0xFFFF, 12⟩,
      .step 0x77 StepSize.min StepDepth.out]

/-- It is read back, and it is not sent as the request with the first condition only. -/
theorem payload_read_back_of_guardedRequest : mixedSizes.Allowed ∧
    guardedRequest.Carries mixedSizes ∧
    (∃ d, read? mixedSizes guardedRequest.number = some d ∧
      d.run (Decoder.input (guardedRequest.payload mixedSizes)) =
        (.ok guardedRequest, ⟨(guardedRequest.payload mixedSizes).length, []⟩)) ∧
    (Command.setRequest EventKind.exception suspendEventThread [.count 5]).payload mixedSizes ≠
      guardedRequest.payload mixedSizes := by
  have hcarries : guardedRequest.Carries mixedSizes := by
    refine .setRequest (by decide) fun m hm => ?_
    simp only [List.mem_cons, List.not_mem_nil, or_false] at hm
    rcases hm with rfl | rfl | rfl | rfl | rfl | rfl | rfl
    · exact trivial
    · show 0x77 < Nat.pow 256 4
      decide
    · show 0xABCDEF < Nat.pow 256 3
      decide
    · show 0xABCDEF < Nat.pow 256 3
      decide
    · show (Utf8.encode "java.útil.*").length < UInt32.size
      decide
    · exact ⟨by decide, by decide⟩
    · show 0x77 < Nat.pow 256 4
      decide
  have hother : (Command.setRequest EventKind.exception suspendEventThread
      [.count 5]).Carries mixedSizes := by
    refine .setRequest (by decide) fun m hm => ?_
    rw [List.mem_singleton.mp hm]
    exact trivial
  obtain ⟨hread, hunique⟩ := payload_read_back mixedSizes_allowed hcarries
  refine ⟨mixedSizes_allowed, hcarries, hread, fun heq => ?_⟩
  exact absurd (hunique _ hother rfl heq) (by decide)

end Command

end StreamTrace
