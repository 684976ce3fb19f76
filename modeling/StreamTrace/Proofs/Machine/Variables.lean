import Mathlib.Data.List.Nodup
import StreamTrace.Proofs.Machine.CommandEffects

/-!
# Variables of a frame

What a debugger reads of a frame and writes into it, by the identifier of the frame. The method of
the statement has one frame, the second from the bottom; its variables change only by what is
written into that frame.
-/

namespace StreamTrace

namespace Vm

open VmCommand

variable {home : Home} {vm vm' : Vm} {frame : FrameId} {slot : Nat} {v : Value} {a : Action}
  {r : a.Reply}

/-- A variable of the frame with that identifier. -/
def slotOf (vm : Vm) (frame : FrameId) (slot : Nat) : Option Value :=
  (vm.frames.find? (·.id == frame)).bind (·.slots.get? slot)

/-- What was written into the frame with that identifier, oldest first. -/
def notedFor (vm : Vm) (frame : FrameId) : List (Nat × Value) :=
  vm.frameWrites.filterMap fun (id, slot, v) => if id = frame then some (slot, v) else none

/-- The frame of the statement stands at its place. -/
def HasStatement (vm : Vm) (frame : FrameId) (l : Location) : Prop :=
  vm.places.reverse[1]? = some (frame, l)

/-! ## The frame of the statement -/

theorem HasStatement.of_places {l : Location} (h : vm.HasStatement frame l)
    (hplaces : vm'.places = vm.places) : vm'.HasStatement frame l := by
  rw [HasStatement, hplaces]
  exact h

theorem HasStatement.of_bottom {l : Location} (h : vm.HasStatement frame l)
    (hbottom : vm'.bottom 2 = vm.bottom 2) : vm'.HasStatement frame l := by
  have hplace : ∀ vm : Vm, vm.places.reverse[1]? =
      ((vm.bottom 2)[1]?).map fun f => (f.id, f.location) := fun vm => by
    rw [places, ← List.map_reverse, List.getElem?_map, bottom, List.getElem?_take_of_lt (by decide)]
  rw [HasStatement, hplace, hbottom, ← hplace]
  exact h

/-- The frame of the statement, by its place and by its identifier. -/
theorem HasStatement.statement {l : Location} (h : vm.HasStatement frame l) (hs : vm.Stands home) :
    ∃ f, vm.statementFrame? = some f ∧ vm.frames.find? (·.id == frame) = some f ∧ f.id = frame ∧
      f.location = l := by
  rw [HasStatement, places, ← List.map_reverse, List.getElem?_map, Option.map_eq_some_iff] at h
  obtain ⟨f, hf, hplace⟩ := h
  obtain ⟨rfl, rfl⟩ := Prod.mk.inj hplace
  refine ⟨f, hf, ?_, rfl, rfl⟩
  have hmem : f ∈ vm.frames := List.mem_reverse.mp (List.mem_of_getElem? hf)
  have hsome : (vm.frames.find? (·.id == f.id)).isSome := List.find?_isSome.mpr ⟨f, hmem, by simp⟩
  obtain ⟨g, hg⟩ := Option.isSome_iff_exists.mp hsome
  have hid : g.id = f.id := by simpa using List.find?_some hg
  rw [hg, List.inj_on_of_nodup_map hs.ids (List.mem_of_find?_eq_some hg) hmem hid]

theorem HasStatement.local? {l : Location} (h : vm.HasStatement frame l) (hs : vm.Stands home) :
    vm.local? slot = vm.slotOf frame slot := by
  obtain ⟨f, hplace, hfind, -⟩ := h.statement hs
  rw [Vm.local?, hplace, slotOf, hfind]

theorem HasStatement.writesTo {l : Location} (h : vm.HasStatement frame l) (hs : vm.Stands home) :
    vm.writesTo slot = (vm.notedFor frame).filterMap fun x =>
      if x.1 = slot then some x.2 else none := by
  obtain ⟨f, hplace, -, rfl, -⟩ := h.statement hs
  rw [Vm.writesTo, hplace, notedFor, List.filterMap_filterMap]
  refine List.filterMap_congr fun x _ => ?_
  obtain ⟨id, written, v⟩ := x
  by_cases hid : id = f.id <;> by_cases hslot : written = slot <;> simp [hid, hslot]

theorem local?_of_bottom (h : vm'.bottom 2 = vm.bottom 2) : vm'.local? slot = vm.local? slot := by
  have hframe : ∀ vm : Vm, vm.statementFrame? = (vm.bottom 2)[1]? := fun vm => by
    rw [statementFrame?, bottom, List.getElem?_take_of_lt (by decide)]
  rw [Vm.local?, hframe, h, ← hframe, Vm.local?]

/-! ## Reading -/

/-- What is read of a frame is there. -/
theorem answer_slotValues {thread : ThreadId} {signature : String} {held : Value}
    {others : List Value}
    (h : (vm.answer (.slotValues thread frame [(slot, signature)])).1 = .ok (held :: others)) :
    vm.slotOf frame slot = some held := by
  have hread : Yields Still (stopped thread >>= fun _ => getFrame frame >>= fun f =>
      readSlots f [(slot, signature)]) vm fun values _ => ∃ f,
        vm.frames.find? (·.id == frame) = some f ∧
          List.Forall₂ (fun slot v => f.slots.get? slot.1 = some v) [(slot, signature)] values := by
    refine stopped_then fun _ => Yields.bind ((getFrame_yields frame).mono ?_)
    rintro f vm' - ⟨rfl, hf⟩
    exact (readSlots_yields f _).mono fun values _ _ hvalues => ⟨f, hf, hvalues.2⟩
  obtain ⟨f, hf, hvalues⟩ := hread.2 _ h
  cases hvalues with
  | cons hheld _ =>
      rw [slotOf, hf]
      exact hheld

/-- Only the variables of the statement's method are known. -/
theorem answer_variableTable {type : TypeId} {method : MethodId} {n : Nat}
    {locals : List VariableInfo} (hhome : vm.HasHome home)
    (h : (vm.answer (.variableTable type method)).1 = .ok (n, locals)) :
    type = home.main ∧ method = home.run ∧ locals = [StreamProgram.thisVariable, home.info] := by
  have hread : Yields Still (respond (.variableTable type method)) vm
      fun (table : Nat × List VariableInfo) _ =>
        ∃ c ∈ vm.classes, c.id = type ∧ c.locals.get? method = some table.2 := by
    refine alive_then fun _ => Yields.bind ((getClass_yields type).mono ?_)
    rintro c vm' - ⟨rfl, hc⟩
    split
    · refine yields_pure ⟨c, List.mem_of_find?_eq_some hc, ?_, ‹_›⟩
      simpa using List.find?_some hc
    · exact yields_refuse _
  obtain ⟨c, hc, rfl, hlocals⟩ := hread.2 _ h
  exact hhome.known c hc method locals hlocals

/-! ## Writing -/

theorem slotOf_setSlot {f : Frame} (hf : vm.frames.find? (·.id == frame) = some f) (slot' : Nat) :
    (vm.setSlot frame slot v).slotOf frame slot' =
      if slot = slot' then some v else vm.slotOf frame slot' := by
  have hid : f.id = frame := by simpa using List.find?_some hf
  have hsame : ∀ g : Frame,
      (if g.id = frame then { g with slots := g.slots.set slot v } else g).id = g.id := fun g => by
    split <;> rfl
  have hfind : (vm.setSlot frame slot v).frames.find? (fun g : Frame => g.id == frame) =
      some { f with slots := f.slots.set slot v } := by
    refine List.find?_map.trans ?_
    simp only [Function.comp_def, hsame, hf, Option.map_some, if_pos hid]
  rw [slotOf, hfind, slotOf, hf]
  exact Table.get?_set _ _ _ _

theorem run_bind_of_ok {α β : Type} {m : VmCommand α} {k : α → VmCommand β} {x : α}
    (h : m.run.run vm = (.ok x, vm')) : (m >>= k).run.run vm = (k x).run.run vm' := by
  show (ExceptT.bindCont k (m.run.run vm).1).run (m.run.run vm).2 = _
  rw [h]
  rfl

theorem run_bind_of_error {α β : Type} {m : VmCommand α} {k : α → VmCommand β} {e : JdwpError}
    (h : m.run.run vm = (.error e, vm')) : (m >>= k).run.run vm = (.error e, vm') := by
  show (ExceptT.bindCont k (m.run.run vm).1).run (m.run.run vm).2 = _
  rw [h]
  rfl

/-- A frame is found, or is not there, without a change. -/
theorem run_getFrame (vm : Vm) (frame : FrameId) :
    (vm.frames.find? (·.id == frame) = none ∧
      (getFrame frame).run.run vm = (.error (.vm ErrorCode.invalidFrame), vm)) ∨
    ∃ f, vm.frames.find? (·.id == frame) = some f ∧ (getFrame frame).run.run vm = (.ok f, vm) := by
  unfold getFrame
  rw [run_bind_of_ok (rfl : (get : VmCommand Vm).run.run vm = (.ok vm, vm))]
  cases vm.frames.find? (·.id == frame) with
  | none => exact .inl ⟨rfl, rfl⟩
  | some f => exact .inr ⟨f, rfl, rfl⟩

theorem run_writeSlots_one (vm : Vm) (frame : FrameId) (slot : Nat) (v : Value) :
    (∃ e, (writeSlots frame [(slot, v)]).run.run vm = (.error e, vm)) ∨
      (writeSlots frame [(slot, v)]).run.run vm = (.ok (), vm.setSlot frame slot v) := by
  unfold writeSlots
  rcases run_getFrame vm frame with ⟨-, he⟩ | ⟨f, -, hf⟩
  · exact .inl ⟨_, run_bind_of_error he⟩
  · rw [run_bind_of_ok hf]
    split
    · exact .inl ⟨_, rfl⟩
    · split
      · exact .inl ⟨_, rfl⟩
      · exact .inr rfl

/-- A write of one variable is done, or refused without effect. -/
theorem answer_setSlots_one (vm : Vm) (thread : ThreadId) (frame : FrameId) (slot : Nat)
    (v : Value) :
    (∃ e, vm.answer (.setSlots thread frame [(slot, v)]) = (.error e, vm)) ∨
      (∃ f, vm.frames.find? (·.id == frame) = some f) ∧
        vm.answer (.setSlots thread frame [(slot, v)]) = (.ok (),
          { vm.setSlot frame slot v with
            frameWrites := vm.frameWrites ++ [(frame, slot, v)] }) := by
  rcases run_stopped_bind thread (fun _ => setSlots frame [(slot, v)]) vm with ⟨e, he⟩ | ⟨-, hrun⟩
  · exact .inl ⟨e, he⟩
  have hanswer : vm.answer (.setSlots thread frame [(slot, v)]) =
      (setSlots frame [(slot, v)]).run.run vm := hrun
  rw [hanswer]
  unfold setSlots
  rcases run_getFrame vm frame with ⟨-, he⟩ | ⟨f, hf, hget⟩
  · exact .inl ⟨_, run_bind_of_error he⟩
  · rw [run_bind_of_ok hget]
    rcases run_writeSlots_one vm frame slot v with ⟨e, he⟩ | hwrite
    · exact .inl ⟨e, run_bind_of_error he⟩
    · rw [run_bind_of_ok hwrite]
      exact .inr ⟨⟨f, hf⟩, rfl⟩

/-- What is written into another frame leaves this one as it is. -/
theorem slotOf_of_written {other : FrameId} {values : List (Nat × Value)} {frames : List Frame}
    (h : List.Forall₂ (FrameWritten other values) vm.frames frames) (hne : other ≠ frame)
    (frameWrites) : slotOf { vm with frames, frameWrites } frame slot = vm.slotOf frame slot := by
  show (frames.find? (·.id == frame)).bind (·.slots.get? slot) =
    (vm.frames.find? (·.id == frame)).bind (·.slots.get? slot)
  generalize vm.frames = old at h
  induction h with
  | nil => rfl
  | cons hf _ ih =>
      rw [List.find?_cons, List.find?_cons, hf.id]
      split
      · rename_i hid
        refine (hf.slots slot).resolve_right fun h => hne ?_
        simpa using h.1.symm.trans (by simpa using hid)
      · exact ih

theorem notedFor_append_of_ne {other : FrameId} {noted : List (FrameId × Nat × Value)}
    (h : ∀ x ∈ noted, x.1 = other) (hne : other ≠ frame) :
    notedFor { vm with frameWrites := vm.frameWrites ++ noted } frame = vm.notedFor frame := by
  unfold notedFor
  rw [List.filterMap_append]
  refine (congrArg _ (List.filterMap_eq_nil_iff.mpr fun x hx => ?_)).trans (List.append_nil _)
  obtain ⟨id, slot, v⟩ := x
  exact if_neg fun hid => hne ((h _ hx).symm.trans hid)

/-! ## What a command does to a frame -/

/-- The frame has the same variables, and nothing more was written into it. -/
structure Spares (vm : Vm) (frame : FrameId) (vm' : Vm) : Prop where
  slots : ∀ slot, vm'.slotOf frame slot = vm.slotOf frame slot
  noted : vm'.notedFor frame = vm.notedFor frame

theorem Spares.of_eq (hframes : vm'.frames = vm.frames)
    (hwrites : vm'.frameWrites = vm.frameWrites) :
    vm.Spares frame vm' :=
  ⟨fun slot => by rw [slotOf, hframes, slotOf], by rw [notedFor, hwrites, notedFor]⟩

/-- Only what writes into the frame changes it. -/
theorem Performed.spares (h : vm.Performed a r vm')
    (ha : ∀ t values, a ≠ .command (.setSlots t frame values)) : vm.Spares frame vm' := by
  cases h with
  | served c =>
      cases hc : c.writes with
      | false =>
          obtain ⟨hframes, hwrites⟩ := (answered vm c).frames_of_ne hc
          exact .of_eq hframes hwrites
      | true =>
          cases c with
          | setSlots t other values =>
              obtain ⟨frames, noted, hvm, only, hall⟩ := answer_setSlots vm t other values
              have hne : other ≠ frame := fun heq => ha t values (by rw [heq])
              rw [hvm]
              exact ⟨fun slot => slotOf_of_written hall hne _, notedFor_append_of_ne only hne⟩
          | _ => cases hc
  | refused c e => exact .of_eq rfl rfl
  | beside r h => exact .of_eq rfl rfl

/-- A write of one variable. -/
theorem Performed.wrote {t : ThreadId} {r : Except JdwpError Unit}
    (h : vm.Performed (.command (.setSlots t frame [(slot, v)])) r vm') :
    (∃ e, r = .error e) ∧ vm' = vm ∨ r = .ok () ∧
      (∀ slot', vm'.slotOf frame slot' = if slot = slot' then some v else vm.slotOf frame slot') ∧
        vm'.notedFor frame = vm.notedFor frame ++ [(slot, v)] := by
  generalize hr : r = r' at h
  cases h with
  | refused _ e => exact .inl ⟨⟨e, rfl⟩, rfl⟩
  | beside r h => exact absurd rfl (h _)
  | served =>
      rcases answer_setSlots_one vm t frame slot v with ⟨e, he⟩ | ⟨⟨f, hf⟩, hok⟩
      · rw [he]
        exact .inl ⟨⟨e, rfl⟩, rfl⟩
      · rw [hok]
        refine .inr ⟨rfl, fun slot' => slotOf_setSlot hf slot', ?_⟩
        show List.filterMap _ (vm.frameWrites ++ [(frame, slot, v)]) = _
        rw [List.filterMap_append]
        simp [notedFor]

/-- What is read of a variable is there. -/
theorem Performed.read {t : ThreadId} {signature : String} {held : Value} {others : List Value}
    (h : vm.Performed (.command (.slotValues t frame [(slot, signature)]))
      (.ok (held :: others) : Except JdwpError (List Value)) vm') :
    vm.slotOf frame slot = some held := by
  generalize hr : (.ok (held :: others) : Except JdwpError (List Value)) = r at h
  cases h with
  | served => exact answer_slotValues hr.symm
  | refused => cases hr
  | beside r h => exact absurd rfl (h _)

theorem Performed.table {type : TypeId} {method : MethodId} {n : Nat} {locals : List VariableInfo}
    (h : vm.Performed (.command (.variableTable type method))
      (.ok (n, locals) : Except JdwpError (Nat × List VariableInfo)) vm')
      (hhome : vm.HasHome home) :
    type = home.main ∧ method = home.run ∧ locals = [StreamProgram.thisVariable, home.info] := by
  generalize hr : (.ok (n, locals) : Except JdwpError (Nat × List VariableInfo)) = r at h
  cases h with
  | served => exact answer_variableTable hhome hr.symm
  | refused => cases hr
  | beside r h => exact absurd rfl (h _)

end Vm

end StreamTrace
