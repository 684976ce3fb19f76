import StreamTrace.Jdwp.Connection
import StreamTrace.Jdwp.ReplyEncoding
import StreamTrace.Proofs.Jdwp.Reading

/-!
# Replies that hold lists

A reply with a list announces how many items follow and lays them out one by one. `Command.Laid`
says which payloads are such replies, and `Command.interpret_laid` what comes of them: the list as
it was laid out, whatever stands behind it, and a protocol error wherever the end of the payload is
missing, be it inside a text, a location or the count itself. A shorter list is never returned.
-/

namespace StreamTrace

/-! ## What fits the fields of a reply -/

def ClassInfo.Fits (sizes : IdSizes) (c : ClassInfo) : Prop :=
  c.typeId < Nat.pow 256 sizes.referenceType

structure MethodInfo.Fits (sizes : IdSizes) (m : MethodInfo) : Prop where
  methodId : m.methodId < Nat.pow 256 sizes.method
  name : (Utf8.encode m.name).length < UInt32.size
  signature : (Utf8.encode m.signature).length < UInt32.size

structure VariableInfo.Fits (v : VariableInfo) : Prop where
  name : (Utf8.encode v.name).length < UInt32.size
  signature : (Utf8.encode v.signature).length < UInt32.size
  slot : v.slot < UInt32.size

structure FrameInfo.Fits (sizes : IdSizes) (f : FrameInfo) : Prop where
  frameId : f.frameId < Nat.pow 256 sizes.frame
  location : f.location.Fits sizes

namespace Command

/-- The payload is the reply `r` to the command: the number of items, and then the items. Elements
of an array follow the tag of their type; they have no tags of their own when that is primitive. -/
inductive Laid (sizes : IdSizes) : (c : Command) → c.Reply → Bytes → Prop where
  | classes {signature : String} {classes : List ClassInfo}
      (hcount : classes.length < UInt32.size)
      (h : ∀ c ∈ classes, c.signature = signature ∧ c.Fits sizes) :
      Laid sizes (classesBySignature signature) classes
        (Encode.counted (ClassInfo.encode sizes) classes)
  | methods {type : TypeId} {methods : List MethodInfo} (hcount : methods.length < UInt32.size)
      (h : ∀ m ∈ methods, m.Fits sizes) :
      Laid sizes (typeMethods type) methods (Encode.counted (MethodInfo.encode sizes) methods)
  | interfaces {type : TypeId} {interfaces : List TypeId}
      (hcount : interfaces.length < UInt32.size)
      (h : ∀ t ∈ interfaces, t < Nat.pow 256 sizes.referenceType) :
      Laid sizes (typeInterfaces type) interfaces
        (Encode.counted (Encode.typeId sizes) interfaces)
  | locals {type : TypeId} {method : MethodId} {arguments : Nat} {locals : List VariableInfo}
      (harguments : arguments < UInt32.size) (hcount : locals.length < UInt32.size)
      (h : ∀ v ∈ locals, v.Fits) :
      Laid sizes (variableTable type method) (arguments, locals)
        (Encode.count arguments ++ Encode.counted VariableInfo.encode locals)
  | frames {thread : ThreadId} {start length : Int} {frames : List FrameInfo}
      (hcount : frames.length < UInt32.size) (h : ∀ f ∈ frames, f.Fits sizes) :
      Laid sizes (Command.frames thread start length) frames
        (Encode.counted (FrameInfo.encode sizes) frames)
  | slots {thread : ThreadId} {frame : FrameId} {slots : List (Nat × String)}
      {values : List Value} (hcount : values.length < UInt32.size)
      (h : ∀ v ∈ values, v.Fits sizes) :
      Laid sizes (slotValues thread frame slots) values
        (Encode.counted (Encode.tagged sizes) values)
  | primitives {array : ObjectId} {first length : Int} {tag : UInt8} {values : List Value}
      (htag : Decoder.isPrimitiveTag tag = true) (hcount : values.length < UInt32.size)
      (h : ∀ v ∈ values, v.isPrimitive = true ∧ v.tag = tag) :
      Laid sizes (arrayValues array first length) values
        (Encode.u8 tag ++ Encode.counted (Encode.untagged sizes) values)
  | references {array : ObjectId} {first length : Int} {tag : UInt8} {values : List Value}
      (htag : Decoder.isPrimitiveTag tag = false) (hcount : values.length < UInt32.size)
      (h : ∀ v ∈ values, v.Fits sizes) :
      Laid sizes (arrayValues array first length) values
        (Encode.u8 tag ++ Encode.counted (Encode.tagged sizes) values)

end Command

/-! ## One item -/

theorem Value.Fits.of_isPrimitive {sizes : IdSizes} {v : Value} (h : v.isPrimitive = true) :
    v.Fits sizes := by
  cases v with
  | reference tag id => cases h
  | _ => trivial

namespace Decoder

open Command

variable {sizes : IdSizes}

theorem reads_class (hs : sizes.Allowed) {c : ClassInfo} (h : c.Fits sizes) :
    Reads (readClass sizes c.signature) (c.encode sizes) c := by
  unfold readClass ClassInfo.encode
  rw [List.append_assoc]
  refine (reads_u8 c.typeTag).bind ?_
  refine (reads_typeId hs h).bind ?_
  exact (reads_u32 c.status).bind_nil (reads_pure c)

theorem reads_method (hs : sizes.Allowed) {m : MethodInfo} (h : m.Fits sizes) :
    Reads (readMethod sizes) (m.encode sizes) m := by
  unfold readMethod MethodInfo.encode
  simp only [List.append_assoc]
  refine (reads_methodId hs h.methodId).bind ?_
  refine (reads_string h.name).bind ?_
  refine (reads_string h.signature).bind ?_
  exact (reads_u32 m.modifiers).bind_nil (reads_pure m)

theorem reads_variable {v : VariableInfo} (h : v.Fits) : Reads readVariable v.encode v := by
  unfold readVariable VariableInfo.encode
  simp only [List.append_assoc]
  refine (reads_u64 v.codeIndex).bind ?_
  refine (reads_string h.name).bind ?_
  refine (reads_string h.signature).bind ?_
  refine (reads_u32 v.length).bind ?_
  exact (reads_count h.slot).bind_nil (reads_pure v)

theorem reads_frame (hs : sizes.Allowed) {f : FrameInfo} (h : f.Fits sizes) :
    Reads (readFrame sizes) (f.encode sizes) f := by
  unfold readFrame FrameInfo.encode
  refine (reads_id hs.frame.1 hs.frame.2 h.frameId).bind ?_
  exact (reads_location hs h.location).bind_nil (reads_pure f)

theorem reads_laid (hs : sizes.Allowed) {c : Command} {r : c.Reply} {payload : Bytes}
    (h : c.Laid sizes r payload) : Reads (c.readReply sizes) payload r := by
  cases h with
  | classes hcount h =>
      refine reads_counted hcount fun c hc => ?_
      obtain ⟨rfl, hfits⟩ := h c hc
      exact reads_class hs hfits
  | methods hcount h => exact reads_counted hcount fun m hm => reads_method hs (h m hm)
  | interfaces hcount h => exact reads_counted hcount fun t ht => reads_typeId hs (h t ht)
  | @locals type method arguments locals harguments hcount h =>
      refine (reads_count harguments).bind ?_
      have hlocals := reads_counted hcount fun v hv => reads_variable (h v hv)
      exact hlocals.bind_nil (reads_pure (arguments, locals))
  | frames hcount h => exact reads_counted hcount fun f hf => reads_frame hs (h f hf)
  | slots hcount h => exact reads_counted hcount fun v hv => reads_tagged hs (h v hv)
  | @primitives array first length tag values htag hcount h =>
      refine (reads_u8 tag).bind ?_
      rw [if_pos htag]
      refine reads_counted hcount fun v hv => ?_
      obtain ⟨hprimitive, rfl⟩ := h v hv
      exact reads_untagged hs (.of_isPrimitive hprimitive)
  | @references array first length tag values htag hcount h =>
      refine (reads_u8 tag).bind ?_
      rw [if_neg (by simp [htag])]
      exact reads_counted hcount fun v hv => reads_tagged hs (h v hv)

/-! ## Faults -/

variable {α β : Type}

/-- Whatever `d` fails with is a breach of the protocol. -/
def Protests (d : Decoder α) : Prop :=
  ∀ s e s', d.run s = (.error e, s') → ∃ text, e = .protocol text

theorem protests_pure (a : α) : Protests (pure a) := by
  intro s e s' hrun
  cases hrun

theorem protests_throw (text : String) : Protests (throw (.protocol text) : Decoder α) := by
  intro s e s' hrun
  cases hrun
  exact ⟨text, rfl⟩

theorem Protests.bind {d : Decoder α} {k : α → Decoder β} (hd : Protests d)
    (hk : ∀ a, Protests (k a)) : Protests (d >>= k) := by
  intro s e s' hrun
  cases hfirst : d.run s with
  | mk r mid =>
      cases r with
      | ok a =>
          rw [run_bind_ok hfirst] at hrun
          exact hk a mid e s' hrun
      | error e' =>
          rw [run_bind_error hfirst] at hrun
          cases hrun
          exact hd s e s' hfirst

theorem Protests.map {d : Decoder α} (hd : Protests d) (f : α → β) : Protests (f <$> d) := by
  rw [← bind_pure_comp]
  exact hd.bind fun a => protests_pure (f a)

theorem protests_take (n : Nat) : Protests (take n) := by
  intro s e s' hrun
  unfold take at hrun
  rw [run_bind_ok (d := get) (s := s) rfl] at hrun
  split at hrun
  · cases hrun
  · cases hrun
    exact ⟨_, rfl⟩

theorem protests_nat (width : Nat) : Protests (nat width) := (protests_take width).map _

theorem protests_u8 : Protests u8 := (protests_nat 1).map _

theorem protests_u32 : Protests u32 := (protests_nat 4).map _

theorem protests_u64 : Protests u64 := (protests_nat 8).map _

theorem protests_i32 : Protests i32 := (protests_take 4).map _

theorem protests_string : Protests string := by
  refine (protests_nat 4).bind fun n => (protests_take n).bind fun b => ?_
  cases Utf8.decode b with
  | ok s => exact protests_pure s
  | error fault => exact protests_throw _

theorem protests_id (size : Nat) : Protests (id size) := by
  unfold id
  split
  · exact protests_throw _
  · exact protests_nat size

theorem protests_taggedObjectId : Protests (taggedObjectId sizes) :=
  protests_u8.bind fun _ => (protests_id sizes.object).bind fun _ => protests_pure _

theorem protests_location : Protests (location sizes) :=
  protests_u8.bind fun _ => (protests_id sizes.referenceType).bind fun _ =>
    (protests_id sizes.method).bind fun _ => protests_u64.bind fun _ => protests_pure _

theorem protests_untagged (tag : UInt8) : Protests (untagged sizes tag) := by
  unfold untagged
  repeat' split
  · exact (protests_u8.map _).map _
  · exact protests_u8.map _
  · exact ((protests_nat 2).map _).map _
  · exact ((protests_nat 2).map _).map _
  · exact protests_u32.map _
  · exact protests_u64.map _
  · exact protests_u32.map _
  · exact protests_u64.map _
  · exact protests_pure _
  · exact (protests_id sizes.object).map _

theorem protests_tagged : Protests (tagged sizes) := protests_u8.bind protests_untagged

theorem protests_times {d : Decoder α} (hd : Protests d) (n : Nat) : Protests (times d n) := by
  induction n with
  | zero => exact protests_pure []
  | succ n ih => exact hd.bind fun a => ih.bind fun as => protests_pure (a :: as)

theorem protests_counted {d : Decoder α} (hd : Protests d) : Protests (counted d) :=
  (protests_nat 4).bind (protests_times hd)

theorem protests_arrayRegion : Protests (arrayRegion sizes) := by
  refine protests_u8.bind fun tag => (protests_nat 4).bind fun n => protests_times ?_ n
  split
  · exact protests_untagged tag
  · exact protests_tagged

/-- A reply that cannot be read is a breach of the protocol, whatever it answers. -/
theorem protests_readReply (c : Command) : Protests (c.readReply sizes) := by
  have htype := protests_id sizes.referenceType
  have hobject := protests_id sizes.object
  have houtcome : Protests (readOutcome sizes) :=
    protests_tagged.bind fun _ => protests_taggedObjectId.bind fun _ => protests_pure _
  have hbehind : Protests (readTypeBehindTag sizes) := protests_u8.bind fun _ => htype
  cases c with
  | resumeVm | disableCollection | enableCollection | setArrayValues | resumeThread | forceReturn
  | setSlots | clearRequest => exact protests_pure ()
  | createString | typeLoader => exact hobject
  | typeSignature | stringValue => exact protests_string
  | arrayLength | frameCount | setRequest => exact protests_i32
  | invokeStatic | invokeVirtual => exact houtcome
  | reflectedType | objectType => exact hbehind
  | superclass => exact htype.map _
  | newArray => exact protests_taggedObjectId.map _
  | newInstance =>
      exact protests_taggedObjectId.bind fun _ => protests_taggedObjectId.bind fun _ =>
        protests_pure _
  | classesBySignature signature =>
      exact protests_counted (protests_u8.bind fun _ => htype.bind fun _ =>
        protests_u32.bind fun _ => protests_pure _)
  | typeMethods =>
      exact protests_counted ((protests_id sizes.method).bind fun _ => protests_string.bind fun _ =>
        protests_string.bind fun _ => protests_u32.bind fun _ => protests_pure _)
  | typeInterfaces => exact protests_counted htype
  | variableTable =>
      refine (protests_nat 4).bind fun _ => Protests.bind (protests_counted ?_) fun _ =>
        protests_pure _
      exact protests_u64.bind fun _ => protests_string.bind fun _ => protests_string.bind fun _ =>
        protests_u32.bind fun _ => (protests_nat 4).bind fun _ => protests_pure _
  | frames =>
      exact protests_counted ((protests_id sizes.frame).bind fun _ => protests_location.bind
        fun _ => protests_pure _)
  | slotValues => exact protests_counted protests_tagged
  | arrayValues => exact protests_arrayRegion

end Decoder

/-! ## The answer -/

/-- A list that was laid out is what the caller gets, and bytes behind it do not matter. Of a
payload whose end is missing the caller gets a protocol error. -/
theorem Command.interpret_laid {sizes : IdSizes} (hs : sizes.Allowed) {c : Command} {r : c.Reply}
    {payload : Bytes} (h : c.Laid sizes r payload) :
    (∀ trailing, c.interpret sizes (.ok (payload ++ trailing)) = .ok r) ∧
    ∀ short gone, payload = short ++ gone → gone ≠ [] →
      ∃ text, c.interpret sizes (.ok short) = .error (.protocol text) := by
  have hreads := Decoder.reads_laid hs h
  constructor
  · intro trailing
    show ((c.readReply sizes).run (Decoder.input (payload ++ trailing))).1 = .ok r
    unfold Decoder.input
    rw [hreads.whole 0 trailing]
  · intro short gone hpayload hgone
    obtain ⟨e, s, hrun⟩ := hreads.cut 0 short gone hpayload hgone
    obtain ⟨text, rfl⟩ := Decoder.protests_readReply c _ e s hrun
    refine ⟨text, ?_⟩
    show ((c.readReply sizes).run (Decoder.input short)).1 = _
    unfold Decoder.input
    rw [hrun]

namespace Command

/-- Two frames of a thread, each with a location in it. -/
def twoFrames : List FrameInfo :=
  [⟨0x1234, ⟨1, 0xABCDEF, 0xFFFF, 12⟩⟩, ⟨0x1235, ⟨2, 0x10, 0x20, 0⟩⟩]

/-- They are read with a byte behind them, and not when the second location breaks off. -/
theorem interpret_laid_of_twoFrames : mixedSizes.Allowed ∧
    Laid mixedSizes (.frames 7 0 (-1)) twoFrames
      (Encode.counted (FrameInfo.encode mixedSizes) twoFrames) ∧
    (Command.frames 7 0 (-1)).interpret mixedSizes
        (.ok (Encode.counted (FrameInfo.encode mixedSizes) twoFrames ++ [0])) = .ok twoFrames ∧
    ∃ text, (Command.frames 7 0 (-1)).interpret mixedSizes
        (.ok ((Encode.counted (FrameInfo.encode mixedSizes) twoFrames).take 40)) =
      .error (.protocol text) := by
  have hlaid : Laid mixedSizes (.frames 7 0 (-1)) twoFrames
      (Encode.counted (FrameInfo.encode mixedSizes) twoFrames) := by
    refine .frames (by decide) fun f hf => ?_
    simp only [twoFrames, List.mem_cons, List.not_mem_nil, or_false] at hf
    rcases hf with rfl | rfl
    · exact ⟨by decide, by decide, by decide⟩
    · exact ⟨by decide, by decide, by decide⟩
  obtain ⟨hwhole, hcut⟩ := interpret_laid mixedSizes_allowed hlaid
  refine ⟨mixedSizes_allowed, hlaid, hwhole [0], ?_⟩
  exact hcut _ _ (List.take_append_drop 40 _).symm (by decide)

end Command

end StreamTrace
