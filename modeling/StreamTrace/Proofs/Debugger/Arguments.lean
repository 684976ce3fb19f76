import StreamTrace.Debugger.Breakpoint
import StreamTrace.Proofs.Debugger.DebuggeeTalk
import StreamTrace.Proofs.Jvm.Slots
import StreamTrace.Proofs.Machine.Variables

/-!
# Arguments of a call

A call begins in a frame that has its receiver and its arguments in the slots that the machine takes
from the descriptor. The debugger takes the slots from the names of the types, so it reads the
arguments that the call was made with. What it writes is what it reads afterwards, and everything
else in the frames stays as it was.
-/

namespace StreamTrace

open Vm VmCommand MethodSignature

/-! ## Frames of calls -/

/-- The variables with which a call begins. -/
def callSlots (descriptor : String) (receiver : Value) (args : List Value) : Table Nat Value :=
  ⟨(0, receiver) :: (frameSlots descriptor).zip args⟩

namespace Vm

/-- The frame with that identifier has the variables with which such a call begins. -/
def InCall (vm : Vm) (frame : FrameId) (descriptor : String) (receiver : Value)
    (args : List Value) : Prop :=
  ∃ f, vm.frames.find? (·.id == frame) = some f ∧ f.slots = callSlots descriptor receiver args

/-- The machine that has entered a method. -/
def entered (vm : Vm) (type : TypeId) (method : MethodId) (slots : Table Nat Value) : Vm :=
  { vm with
    nextId := vm.nextId + 1
    frames := { id := vm.nextId + 1, location := vm.location type method 0, slots } :: vm.frames }

theorem inCall_entered (vm : Vm) (type : TypeId) (method : MethodId) (descriptor : String)
    (receiver : Value) (args : List Value) :
    (vm.entered type method (callSlots descriptor receiver args)).InCall (vm.nextId + 1) descriptor
      receiver args := by
  refine ⟨_, List.find?_cons_of_pos ?_, rfl⟩
  exact beq_self_eq_true _

end Vm

namespace Run

variable {α β γ : Type}

theorem bind_assoc (r : Run α) (f : α → Vm → Run β) (g : β → Vm → Run γ) :
    (r.bind f).bind g = r.bind fun a vm => (f a vm).bind g := by
  induction r with
  | ended a vm => rfl
  | waiting vm resume ih => exact congrArg _ (funext ih)

/-- The run goes through the first one and goes on from its end. -/
def Begins (r : Run α) (first : Run β) : Prop := ∃ rest, r = first.bind rest

theorem Begins.bind {r : Run α} {first : Run γ} (h : r.Begins first) (f : α → Vm → Run β) :
    (r.bind f).Begins first := by
  obtain ⟨rest, rfl⟩ := h
  exact ⟨_, bind_assoc first rest f⟩

end Run

namespace Code

variable {α β γ : Type} {vm : Vm} {first : Run γ}

theorem begins_bind {c : Code α} (h : Run.Begins (c vm) first) (f : α → Code β) :
    Run.Begins ((c >>= f) vm) first := Run.Begins.bind h _

theorem begins_read_bind {f : Vm → α} {k : α → Code β} (h : Run.Begins (k (f vm) vm) first) :
    Run.Begins ((read f >>= k) vm) first := h

theorem begins_inFrame {type : TypeId} {method : MethodId} {slots : Table Nat Value}
    {body : Code α} (h : Run.Begins (body (vm.entered type method slots)) first) :
    Run.Begins (inFrame type method slots body vm) first := Run.Begins.bind h _

/-- Where a call by the program stops first, it is in its frame. -/
theorem call_begins {receiver : Value} {id : ObjectId} {c : ProgramCall}
    {type : TypeId} {method : MethodId} (hid : receiver.objectId? = some id)
    (hcode : ((vm.lookup? id).bind fun e => vm.classes.dispatch e.type c.name c.descriptor) =
      some (type, method)) :
    Run.Begins (Code.call receiver c vm)
      (Code.stop enteredEvent
        (vm.entered type method (callSlots c.descriptor receiver c.args))) := by
  unfold call
  rw [hid]
  refine begins_read_bind ?_
  rw [hcode]
  exact begins_bind (begins_inFrame ⟨_, rfl⟩) _

theorem begins_use_bind {m : StateM Vm α} {a : α} {vm' : Vm} (hm : m.run vm = (a, vm'))
    {k : α → Code β} (h : Run.Begins (k a vm') first) : Run.Begins ((use m >>= k) vm) first := by
  have hused : use m vm = .ended (.ok a) vm' := by
    unfold use
    rw [hm]
  have hbind : (use m >>= k) vm = Run.bind (use m vm) (ExceptT.bindCont k) := rfl
  rw [hbind, hused]
  exact h

theorem runLambda_begins {function : ObjectId} {f : Lambda} {e : Element} {type : TypeId}
    {m : MethodDef} {argument : Value} {vm' : Vm} (hm : vm.lambdaMethod? function = some (type, m)) 
    (hargument : (materialize e (parameterElement m.descriptor)).run vm = (argument, vm')) :
    Run.Begins (Code.runLambda function f e vm) (Code.stop enteredEvent
      (vm'.entered type m.id (callSlots m.descriptor (vm'.valueOf function) [argument]))) := by
  unfold runLambda
  refine begins_read_bind ?_
  rw [hm]
  refine begins_use_bind hargument (begins_read_bind ?_)
  exact begins_bind (begins_inFrame ⟨_, rfl⟩) _
end Code

/-! ## Reading -/

namespace Vm

variable {vm vm' : Vm} {frame : FrameId} {slots : List Nat} {values : List Value}

/-- The frame has these values in these slots. -/
def Holding (vm : Vm) (frame : FrameId) (slots : List Nat) (values : List Value) : Prop :=
  List.Forall₂ (fun slot v => vm.slotOf frame slot = some v) slots values

theorem lookup_of_mem {β : Type} {k : Nat} {v : β} {es : List (Nat × β)}
    (hnodup : (es.map (·.1)).Nodup) (h : (k, v) ∈ es) : Table.lookup k es = some v := by
  induction es with
  | nil => cases h
  | cons e rest ih =>
      obtain ⟨hnew, hrest⟩ := List.nodup_cons.mp hnodup
      rcases List.mem_cons.mp h with rfl | hmem
      · exact if_pos rfl
      · have hne : e.1 ≠ k := fun heq => hnew (List.mem_map.mpr ⟨_, hmem, heq.symm⟩)
        exact (if_neg hne).trans (ih hrest hmem)

/-- A frame in which a call began holds its receiver and its arguments. -/
theorem InCall.holding {descriptor : String} {receiver : Value}
    (h : vm.InCall frame descriptor receiver values) (hslots : (0 :: frameSlots descriptor).Nodup)
    (hlength : (frameSlots descriptor).length = values.length) :
    vm.slotOf frame 0 = some receiver ∧ vm.Holding frame (frameSlots descriptor) values := by
  obtain ⟨f, hf, hvariables⟩ := h
  have hslot : ∀ slot, vm.slotOf frame slot =
      Table.lookup slot ((0, receiver) :: (frameSlots descriptor).zip values) := by
    intro slot
    unfold slotOf
    rw [hf, Option.bind_some, hvariables]
    rfl
  have hkeys : (((0, receiver) :: (frameSlots descriptor).zip values).map (·.1)).Nodup := by
    rw [List.map_cons, List.map_fst_zip (Nat.le_of_eq hlength)]
    exact hslots
  refine ⟨(hslot 0).trans (if_pos rfl), List.forall₂_iff_zip.mpr ⟨hlength, fun {slot v} hmem => ?_⟩⟩
  rw [hslot]
  exact lookup_of_mem hkeys (List.mem_cons_of_mem _ hmem)

theorem does_getFrame {α : Type} {k : Frame → VmCommand α} {post : α → Vm → Prop} {f : Frame}
    (hf : vm.frames.find? (·.id == frame) = some f) (h : (k f).Does vm post) :
    (getFrame frame >>= k).Does vm post := by
  refine .bind (does_get_bind ?_)
  rw [hf]
  exact does_pure h

theorem readSlots_does {f : Frame} {slots : List (Nat × String)}
    (h : List.Forall₂ (fun slot v => f.slots.get? slot.1 = some v) slots values) :
    (readSlots f slots).Does vm fun r vm' => r = values ∧ vm' = vm := by
  induction h with
  | nil => exact does_pure ⟨rfl, rfl⟩
  | cons hslot _ ih =>
      unfold readSlots
      rw [hslot]
      refine .bind (ih.mono ?_)
      rintro _ _ ⟨rfl, rfl⟩
      exact does_pure ⟨rfl, rfl⟩

/-- The frame that holds a value. -/
theorem frame_of_slotOf {slot : Nat} {v : Value} (h : vm.slotOf frame slot = some v) :
    ∃ f, vm.frames.find? (·.id == frame) = some f ∧ f.slots.get? slot = some v :=
  Option.bind_eq_some_iff.mp h

/-- What is asked for and is there is answered. -/
theorem answer_slotValues_holding (hvm : vm.Halted) {f : Frame}
    (hf : vm.frames.find? (·.id == frame) = some f) {slots : List (Nat × String)}
    (h : vm.Holding frame (slots.map (·.1)) values) :
    vm.answer (.slotValues mainThread frame slots) = (.ok values, vm) := by
  have hslots : List.Forall₂ (fun slot v => f.slots.get? slot.1 = some v) slots values := by
    refine (List.forall₂_map_left_iff.mp h).imp fun slot v hslot => ?_
    rw [slotOf, hf] at hslot
    exact hslot
  obtain ⟨r, vm', hrun, rfl, rfl⟩ : (respond (.slotValues mainThread frame slots)).Does vm
      fun r vm' => r = values ∧ vm' = vm :=
    does_stopped hvm (does_getFrame hf (readSlots_does hslots))
  exact hrun

/-! ## Writing -/

/-- Slots that are written hold what was written, if they held values of that kind before. -/
theorem writeSlots_does {values : List (Nat × Value)} (hnodup : (values.map (·.1)).Nodup)
    (h : ∀ slot v, (slot, v) ∈ values →
      ∃ old, vm.slotOf frame slot = some old ∧ old.isReference = v.isReference) :
    (writeSlots frame values).Does vm fun _ vm' =>
      (∀ slot v, (slot, v) ∈ values → vm'.slotOf frame slot = some v) ∧
        ∀ slot, slot ∉ values.map (·.1) → vm'.slotOf frame slot = vm.slotOf frame slot := by
  induction values generalizing vm with
  | nil => exact does_pure ⟨fun _ _ hmem => absurd hmem List.not_mem_nil, fun _ _ => rfl⟩
  | cons x rest ih =>
      obtain ⟨slot, v⟩ := x
      obtain ⟨hnew, hrest⟩ := List.nodup_cons.mp hnodup
      obtain ⟨old, hold, hkind⟩ := h slot v List.mem_cons_self
      obtain ⟨f, hf, hslot⟩ := frame_of_slotOf hold
      unfold writeSlots
      refine does_getFrame hf ?_
      rw [hslot]
      refine does_if_neg (not_not_intro hkind) (does_modify_bind ?_)
      have hother : ∀ slot', slot' ≠ slot →
          (vm.setSlot frame slot v).slotOf frame slot' = vm.slotOf frame slot' := by
        intro slot' hne
        rw [slotOf_setSlot hf, if_neg hne.symm]
      have hsame : ∀ slot' v', (slot', v') ∈ rest → ∃ old,
          (vm.setSlot frame slot v).slotOf frame slot' = some old ∧
            old.isReference = v'.isReference := by
        intro slot' v' hmem
        rw [hother slot' fun heq => hnew (List.mem_map.mpr ⟨_, hmem, heq⟩)]
        exact h slot' v' (List.mem_cons_of_mem _ hmem)
      refine (ih hrest hsame).mono ?_
      rintro _ vm' ⟨hset, hkept⟩
      constructor
      · intro slot' v' hmem
        rcases List.mem_cons.mp hmem with heq | hmem
        · cases heq
          rw [hkept slot hnew, slotOf_setSlot hf, if_pos rfl]
        · exact hset slot' v' hmem
      · intro slot' hnot
        obtain ⟨hne, hnot⟩ := not_or.mp fun h => hnot (List.mem_cons.mpr h)
        rw [hkept slot' hnot, hother slot' hne]

/-- The writes are done, and of all variables of all frames only those of the slots change. -/
theorem answer_setSlots_holding (hvm : vm.Halted) {f : Frame}
    (hf : vm.frames.find? (·.id == frame) = some f) {values : List (Nat × Value)}
    (hnodup : (values.map (·.1)).Nodup)
    (h : ∀ slot v, (slot, v) ∈ values →
      ∃ old, vm.slotOf frame slot = some old ∧ old.isReference = v.isReference) :
    ∃ vm', vm.answer (.setSlots mainThread frame values) = (.ok (), vm') ∧
      (∀ slot v, (slot, v) ∈ values → vm'.slotOf frame slot = some v) ∧
      (∀ slot, slot ∉ values.map (·.1) → vm'.slotOf frame slot = vm.slotOf frame slot) ∧
      ∀ other, other ≠ frame → ∀ slot, vm'.slotOf other slot = vm.slotOf other slot := by
  obtain ⟨⟨⟩, vm', hrun, hset, hkept⟩ : (respond (.setSlots mainThread frame values)).Does vm
      fun _ vm' => (∀ slot v, (slot, v) ∈ values → vm'.slotOf frame slot = some v) ∧
        ∀ slot, slot ∉ values.map (·.1) → vm'.slotOf frame slot = vm.slotOf frame slot := by
    refine does_stopped hvm (does_getFrame hf (.bind ((writeSlots_does hnodup h).mono ?_)))
    rintro ⟨⟩ vm' hwritten
    exact does_modify hwritten
  refine ⟨vm', hrun, hset, hkept, fun other hne slot => ?_⟩
  obtain ⟨frames, noted, hvm', -, hwritten⟩ := answer_setSlots vm mainThread frame values
  have hafter : vm' = { vm with frames, frameWrites := vm.frameWrites ++ noted } :=
    (congrArg Prod.snd hrun).symm.trans hvm'
  rw [hafter]
  exact slotOf_of_written hwritten hne.symm _

end Vm

/-! ## Replacing arguments -/

/-- What a variable holds after a value was written in place of another: nothing is written if they
are the same. -/
def Value.replaced (old new : Value) : Value := if old.same new then old else new

/-- Floating-point values that are no numbers. -/
def Value.IsNaN : Value → Prop
  | float bits => FloatFormat.single.isNaN bits.toNat = true
  | double bits => FloatFormat.double.isNaN bits.toNat = true
  | _ => False

/-- Zeros of one floating-point type, of any sign. -/
def Value.Zeros : Value → Value → Prop
  | float a, float b =>
    FloatFormat.single.magnitude a.toNat = 0 ∧ FloatFormat.single.magnitude b.toNat = 0
  | double a, double b =>
    FloatFormat.double.magnitude a.toNat = 0 ∧ FloatFormat.double.magnitude b.toNat = 0
  | _, _ => False

theorem FloatFormat.same_iff (f : FloatFormat) (a b : Nat) : f.same a b = true ↔
    ¬f.isNaN a = true ∧ (a = b ∨ f.magnitude a = 0 ∧ f.magnitude b = 0) := by
  have hzero : f.magnitude b = 0 → f.isNaN b = false := by
    intro h
    simp [isNaN, h]
  simp only [same, Bool.and_eq_true, Bool.or_eq_true, Bool.not_eq_true', beq_iff_eq,
    Bool.not_eq_true]
  constructor
  · rintro ⟨⟨ha, -⟩, hsame⟩
    exact ⟨ha, hsame⟩
  · rintro ⟨ha, rfl | hzeros⟩
    · exact ⟨⟨ha, ha⟩, .inl rfl⟩
    · exact ⟨⟨ha, hzero hzeros.2⟩, .inr hzeros⟩

/-- What no number is differs from itself, and zeros differ from none. -/
theorem Value.same_iff (v v' : Value) :
    v.same v' = true ↔ ¬v.IsNaN ∧ (v = v' ∨ v.Zeros v') := by
  cases v with
  | float a =>
      cases v' with
      | float b => simp [same, IsNaN, Zeros, FloatFormat.same_iff, UInt32.toNat_inj]
      | _ => simp [same, Zeros]
  | double a =>
      cases v' with
      | double b => simp [same, IsNaN, Zeros, FloatFormat.same_iff, UInt64.toNat_inj]
      | _ => simp [same, Zeros]
  | _ => cases v' <;> simp [same, IsNaN, Zeros]

theorem Value.replaced_eq_or_zeros (old new : Value) :
    old.replaced new = new ∨ (old.replaced new).Zeros new := by
  unfold Value.replaced
  split
  next hsame => exact ((Value.same_iff old new).mp hsame).2
  next => exact .inl rfl

theorem forall₂_replaced {old new : List Value} (h : old.length = new.length) :
    List.Forall₂ (fun v v' : Value => v = v' ∨ v.Zeros v')
      (List.zipWith Value.replaced old new) new := by
  induction old generalizing new with
  | nil =>
      obtain rfl := List.eq_nil_of_length_eq_zero h.symm
      exact .nil
  | cons v old ih =>
      obtain ⟨v', new, rfl⟩ := List.exists_cons_of_length_eq_add_one h.symm
      exact .cons (v.replaced_eq_or_zeros v') (ih (Nat.succ.inj h))

/-- Where no zero stands for one of the other sign, values replace one another exactly. -/
theorem zipWith_replaced_eq {old new : List Value} (h : old.length = new.length)
    (hexact : ∀ x ∈ old.zip new, x.1.Zeros x.2 → x.1 = x.2) :
    List.zipWith Value.replaced old new = new := by
  induction old generalizing new with
  | nil => exact (List.eq_nil_of_length_eq_zero h.symm).symm
  | cons v old ih =>
      obtain ⟨v', new, rfl⟩ := List.exists_cons_of_length_eq_add_one h.symm
      have hrest := ih (Nat.succ.inj h) fun x hx => hexact x (List.mem_cons_of_mem _ hx)
      have hhead : v.replaced v' = v' := by
        unfold Value.replaced
        split
        next hsame =>
          exact ((Value.same_iff v v').mp hsame).2.elim id (hexact (v, v') List.mem_cons_self)
        next => rfl
      rw [List.zipWith_cons_cons, hrest, hhead]

namespace Breakpoint

/-- The slots at which two lists of values differ, with the second value. -/
def changesAt (slots : List (Nat × String)) (old new : List Value) : List (Nat × Value) :=
  (slots.zip (old.zip new)).filterMap fun ((slot, _), before, after) =>
    if before.same after then none else some (slot, after)

variable {slots : List (Nat × String)} {old new : List Value}

theorem changesAt_cons_same {slot : Nat × String} {v v' : Value} (h : v.same v' = true) :
    changesAt (slot :: slots) (v :: old) (v' :: new) = changesAt slots old new :=
  List.filterMap_cons_none (if_pos h)

theorem changesAt_cons_changed {slot : Nat × String} {v v' : Value} (h : ¬v.same v' = true) :
    changesAt (slot :: slots) (v :: old) (v' :: new) = (slot.1, v') :: changesAt slots old new :=
  List.filterMap_cons_some (if_neg h)

theorem changesAt_sublist (slots : List (Nat × String)) (old new : List Value) :
    ((changesAt slots old new).map (·.1)).Sublist (slots.map (·.1)) := by
  induction slots generalizing old new with
  | nil => exact .slnil
  | cons slot slots ih =>
      cases old with
      | nil => exact List.nil_sublist _
      | cons v old =>
          cases new with
          | nil => exact List.nil_sublist _
          | cons v' new =>
              by_cases hsame : v.same v' = true
              · rw [changesAt_cons_same hsame]
                exact (ih old new).cons _
              · rw [changesAt_cons_changed hsame]
                exact (ih old new).cons_cons _

/-- The values whose slots change are of the kind of those that were held there. -/
theorem kind_of_mem_changesAt {get : Nat → Option Value}
    (hold : List.Forall₂ (fun slot v => get slot.1 = some v) slots old)
    (hkind : List.Forall₂ (fun v v' : Value => v.isReference = v'.isReference) old new)
    {slot : Nat} {v' : Value} (h : (slot, v') ∈ changesAt slots old new) :
    ∃ v, get slot = some v ∧ v.isReference = v'.isReference := by
  induction hold generalizing new with
  | nil => cases h
  | @cons x v slots old hx _ ih =>
      cases hkind with
      | @cons _ w _ new hw hkind =>
          by_cases hsame : v.same w = true
          · rw [changesAt_cons_same hsame] at h
            exact ih hkind h
          · rw [changesAt_cons_changed hsame] at h
            rcases List.mem_cons.mp h with heq | h
            · cases heq
              exact ⟨v, hx, hw⟩
            · exact ih hkind h

/-- What the slots hold once the changes are made. -/
theorem holding_replaced {get get' : Nat → Option Value} (hnodup : (slots.map (·.1)).Nodup)
    (hold : List.Forall₂ (fun slot v => get slot.1 = some v) slots old)
    (hlength : old.length = new.length)
    (hset : ∀ slot v, (slot, v) ∈ changesAt slots old new → get' slot = some v)
    (hkept : ∀ slot ∈ slots.map (·.1), slot ∉ (changesAt slots old new).map (·.1) →
      get' slot = get slot) :
    List.Forall₂ (fun slot v => get' slot.1 = some v) slots
      (List.zipWith Value.replaced old new) := by
  induction hold generalizing new with
  | nil => exact .nil
  | @cons x v slots old hx _ ih =>
      obtain ⟨v', new, rfl⟩ := List.exists_cons_of_length_eq_add_one hlength.symm
      obtain ⟨hnew, hnodup⟩ := List.nodup_cons.mp hnodup
      have hlength := Nat.succ.inj hlength
      have hfree : x.1 ∉ (changesAt slots old new).map (·.1) := fun hmem =>
        hnew ((changesAt_sublist slots old new).subset hmem)
      rw [List.zipWith_cons_cons]
      by_cases hsame : v.same v' = true
      · rw [changesAt_cons_same hsame] at hset hkept
        refine .cons ?_ (ih hnodup hlength hset fun slot hmem => hkept slot (.tail _ hmem))
        rw [hkept x.1 List.mem_cons_self hfree, hx, Value.replaced, if_pos hsame]
      · rw [changesAt_cons_changed hsame] at hset hkept
        refine .cons ?_ (ih hnodup hlength (fun slot v hmem => hset slot v (.tail _ hmem)) ?_)
        · rw [hset x.1 v' List.mem_cons_self, Value.replaced, if_neg hsame]
        · intro slot hmem hnot
          refine hkept slot (.tail _ hmem) fun h => ?_
          rcases List.mem_cons.mp h with heq | h
          · exact hnew (heq ▸ hmem)
          · exact hnot h

/-- Nothing changes exactly if all values are the same. -/
theorem changesAt_eq_nil_iff (hslots : slots.length = old.length)
    (hlength : old.length = new.length) :
    changesAt slots old new = [] ↔ List.Forall₂ (fun v v' : Value => v.same v' = true) old new := by
  induction old generalizing slots new with
  | nil =>
      obtain rfl := List.eq_nil_of_length_eq_zero hslots
      obtain rfl := List.eq_nil_of_length_eq_zero hlength.symm
      exact ⟨fun _ => .nil, fun _ => rfl⟩
  | cons v old ih =>
      obtain ⟨slot, slots, rfl⟩ := List.exists_cons_of_length_eq_add_one hslots
      obtain ⟨v', new, rfl⟩ := List.exists_cons_of_length_eq_add_one hlength.symm
      rw [List.forall₂_cons, ← ih (Nat.succ.inj hslots) (Nat.succ.inj hlength)]
      by_cases hsame : v.same v' = true
      · rw [changesAt_cons_same hsame]
        exact (and_iff_right hsame).symm
      · rw [changesAt_cons_changed hsame]
        exact ⟨nofun, fun h => absurd h.1 hsame⟩

/-! ## Reading and writing arguments -/

section

variable {σ : Type} {b : Breakpoint} {vm : Vm} {frame : FrameId} {args : List Value}

/-- The arguments that are held in the slots are read, and nothing is changed. -/
theorem readArguments_talk (hvm : vm.Halted)
    (h : vm.Holding frame (b.slots.map (·.1)) args) (s : σ) :
    ∃ sent, (b.readArguments mainThread frame : Routine TraceError σ (List Value)).talk Vm.answer s
      vm = ((.ok args, s), { debuggee := vm, sent }) := by
  cases hslots : b.slots with
  | nil =>
      rw [hslots] at h
      cases h
      refine ⟨[], ?_⟩
      unfold readArguments
      rw [hslots]
      rfl
  | cons slot slots =>
      have hheld := h
      rw [hslots] at hheld
      cases hheld with
      | cons hslot _ =>
          obtain ⟨f, hf, -⟩ := frame_of_slotOf hslot
          refine ⟨[.slotValues mainThread frame b.slots], ?_⟩
          unfold readArguments
          rw [hslots]
          exact Routine.talk_commandOr (hslots ▸ answer_slotValues_holding hvm hf h)

theorem writeArguments_of_nil {thread : ThreadId} {old new : List Value}
    (h : changesAt b.slots old new = []) :
    (b.writeArguments thread frame old new : Routine TraceError σ Unit) = pure () :=
  if_pos (List.isEmpty_iff.mpr h)

theorem writeArguments_of_ne {thread : ThreadId} {old new : List Value}
    (h : changesAt b.slots old new ≠ []) :
    (b.writeArguments thread frame old new : Routine TraceError σ Unit) =
      Routine.commandOr (.setSlots thread frame (changesAt b.slots old new)) TraceError.ofWrite :=
  if_neg fun hempty => h (List.isEmpty_iff.mp hempty)

/-- Only the variables of the frame in these slots differ between two machines. -/
structure OnlyIn (frame : FrameId) (slots : List Nat) (vm vm' : Vm) : Prop where
  state : vm' = { vm with frames := vm'.frames, frameWrites := vm'.frameWrites }
  places : vm'.places = vm.places
  slots : ∀ other slot, other ≠ frame ∨ slot ∉ slots →
    vm'.slotOf other slot = vm.slotOf other slot

/-- The arguments that differ are written, in one command if there are any. -/
theorem writeArguments_talk (hvm : vm.Halted) (hnodup : (b.slots.map (·.1)).Nodup)
    (h : vm.Holding frame (b.slots.map (·.1)) args) {new : List Value}
    (hkind : List.Forall₂ (fun v v' : Value => v.isReference = v'.isReference) args new) (s : σ) :
    ∃ vm' sent,
      (b.writeArguments mainThread frame args new : Routine TraceError σ Unit).talk Vm.answer s vm =
        ((.ok (), s), { debuggee := vm', sent }) ∧
      OnlyIn frame (b.slots.map (·.1)) vm vm' ∧
      vm'.Holding frame (b.slots.map (·.1)) (List.zipWith Value.replaced args new) ∧
      (sent = [] ↔ List.Forall₂ (fun v v' : Value => v.same v' = true) args new) := by
  have hheld := List.forall₂_map_left_iff.mp h
  have hlength := hkind.length_eq
  have hslots : b.slots.length = args.length := hheld.length_eq
  have hsame := changesAt_eq_nil_iff hslots hlength
  have hsublist := changesAt_sublist b.slots args new
  have hreplaced : ∀ vm' : Vm,
      (∀ slot v, (slot, v) ∈ changesAt b.slots args new → vm'.slotOf frame slot = some v) →
      (∀ slot, slot ∉ (changesAt b.slots args new).map (·.1) →
        vm'.slotOf frame slot = vm.slotOf frame slot) →
      vm'.Holding frame (b.slots.map (·.1)) (List.zipWith Value.replaced args new) := by
    intro vm' hset hkept
    exact List.forall₂_map_left_iff.mpr
      (holding_replaced hnodup hheld hlength hset fun slot _ => hkept slot)
  by_cases hnone : changesAt b.slots args new = []
  · refine ⟨vm, [], ?_, ⟨rfl, rfl, fun _ _ _ => rfl⟩, ?_, iff_of_true rfl (hsame.mp hnone)⟩
    · rw [writeArguments_of_nil hnone]
      rfl
    · refine hreplaced vm ?_ fun _ _ => rfl
      rw [hnone]
      exact fun _ _ hmem => absurd hmem List.not_mem_nil
  · obtain ⟨x, hx⟩ := List.exists_mem_of_ne_nil _ hnone
    obtain ⟨v, hv, -⟩ := kind_of_mem_changesAt hheld hkind hx
    obtain ⟨f, hf, -⟩ := frame_of_slotOf hv
    obtain ⟨vm', hanswer, hset, hkept, hother⟩ := answer_setSlots_holding hvm hf
      (hnodup.sublist hsublist) fun slot v' hmem => kind_of_mem_changesAt hheld hkind hmem
    refine ⟨vm', [.setSlots mainThread frame (changesAt b.slots args new)], ?_, ?_,
      hreplaced vm' hset hkept, iff_of_false (List.cons_ne_nil _ _) (hnone ∘ hsame.mpr)⟩
    · rw [writeArguments_of_ne hnone]
      exact Routine.talk_commandOr hanswer
    · obtain ⟨frames, noted, hafter, -, hwritten⟩ :=
        answer_setSlots vm mainThread frame (changesAt b.slots args new)
      rw [hanswer] at hafter
      have hvm' : vm' = { vm with frames, frameWrites := vm.frameWrites ++ noted } := hafter
      refine ⟨?_, ?_, fun other slot hout => ?_⟩
      · rw [hvm']
      · rw [hvm']
        exact places_of_written hwritten _
      · by_cases hframe : other = frame
        · subst hframe
          have hslot := hout.resolve_left (not_not_intro rfl)
          exact hkept slot fun hmem => hslot (hsublist.subset hmem)
        · exact hother other hframe slot

end

end Breakpoint

/-- Debugger and machine agree on where the arguments of an instance method lie, so the debugger
reads the arguments that a call was made with. What it writes in their place is read back, except
that a zero stays where one of the other sign was to replace it; nothing else in the frames changes.
No command is sent exactly if each value is its replacement or a zero for a zero, and is a number if
it is of a floating-point type. Where a call by the program or of a lambda stops first, it is in
such a frame. -/
theorem Breakpoint.arguments_in_place (m : MethodSignature)
    (hm : ∀ a ∈ m.argumentTypes, JavaType.IsTypeName a.toList) :
    m.SlotsAgree ∧
    (∀ (vm : Vm) (receiver : Value) (id : ObjectId) (c : ProgramCall) (type : TypeId)
      (method : MethodId), c.descriptor = m.descriptor → receiver.objectId? = some id →
      ((vm.lookup? id).bind fun e => vm.classes.dispatch e.type c.name c.descriptor) =
        some (type, method) →
      ∃ vm' : Vm, (Code.call receiver c vm).Begins (Code.stop enteredEvent vm') ∧
        vm'.InCall (vm.nextId + 1) m.descriptor receiver c.args) ∧
    (∀ (vm : Vm) (function : ObjectId) (f : Lambda) (e : Element) (type : TypeId) (l : MethodDef),
      l.descriptor = m.descriptor → vm.lambdaMethod? function = some (type, l) →
      ∃ (vm' : Vm) (frame : FrameId) (receiver argument : Value),
        (Code.runLambda function f e vm).Begins (Code.stop enteredEvent vm') ∧
        vm'.InCall frame m.descriptor receiver [argument]) ∧
    ∀ (b : Breakpoint) (vm : Vm) (frame : FrameId) (receiver : Value) (args : List Value),
      b.signature = m → b.isStatic = false → args.length = m.argumentTypes.length →
      vm.Halted → vm.InCall frame m.descriptor receiver args → ∀ {σ : Type} (s : σ),
      (∃ sent, (b.readArguments mainThread frame : Routine TraceError σ (List Value)).talk Vm.answer
        s vm = ((.ok args, s), { debuggee := vm, sent })) ∧
      ∀ new : List Value,
        List.Forall₂ (fun v v' : Value => v.isReference = v'.isReference) args new →
        ∃ (vm' : Vm) (sent asked : List Command) (values : List Value),
          (b.writeArguments mainThread frame args new : Routine TraceError σ Unit).talk Vm.answer
            s vm = ((.ok (), s), { debuggee := vm', sent }) ∧
          (b.readArguments mainThread frame : Routine TraceError σ (List Value)).talk Vm.answer
            s vm' = ((.ok values, s), { debuggee := vm', sent := asked }) ∧
          values = List.zipWith Value.replaced args new ∧
          List.Forall₂ (fun v v' : Value => v = v' ∨ v.Zeros v') values new ∧
          ((∀ x ∈ args.zip new, x.1.Zeros x.2 → x.1 = x.2) → values = new) ∧
          OnlyIn frame (frameSlots m.descriptor) vm vm' ∧
          vm'.slotOf frame 0 = some receiver ∧
          (sent = [] ↔
            List.Forall₂ (fun v v' : Value => ¬v.IsNaN ∧ (v = v' ∨ v.Zeros v')) args new) := by
  have hagree := slotsAgree hm
  refine ⟨hagree, ?_, ?_, ?_⟩
  · intro vm receiver id c type method hdescriptor hid hcode
    refine ⟨_, Code.call_begins hid hcode, ?_⟩
    rw [← hdescriptor]
    exact inCall_entered vm type method c.descriptor receiver c.args
  · intro vm function f e type l hdescriptor hl
    obtain ⟨argument, vm', hrun⟩ : ∃ argument vm',
        (materialize e (parameterElement l.descriptor)).run vm = (argument, vm') := ⟨_, _, rfl⟩
    refine ⟨_, vm'.nextId + 1, vm'.valueOf function, argument, Code.runLambda_begins hl hrun, ?_⟩
    rw [← hdescriptor]
    exact inCall_entered vm' type l.id l.descriptor _ [argument]
  · intro b vm frame receiver args hsignature hstatic hlength hvm hcall σ s
    have hslots : b.slots.map (·.1) = frameSlots m.descriptor := by
      unfold Breakpoint.slots
      rw [hsignature, hstatic]
      exact hagree.slots
    have hnodup := nodup_argumentSlots m
    rw [hagree.slots] at hnodup
    have hcount : (frameSlots m.descriptor).length = args.length := by
      rw [← hagree.slots, hlength, List.length_map, ← List.length_map (·.2), hagree.signatures,
        List.length_map]
    obtain ⟨hreceiver, hholding⟩ := hcall.holding hnodup hcount
    obtain ⟨hzero, hnodup⟩ := List.nodup_cons.mp hnodup
    rw [← hslots] at hholding hnodup
    refine ⟨readArguments_talk hvm hholding s, fun new hkind => ?_⟩
    obtain ⟨vm', sent, hwrite, honly, hheld, hsame⟩ :=
      writeArguments_talk hvm hnodup hholding hkind s
    have hvm' : vm'.Halted := by
      rw [honly.state]
      exact ⟨hvm.alive, hvm.suspended⟩
    obtain ⟨asked, hread⟩ := readArguments_talk hvm' hheld s
    rw [hslots] at honly
    simp only [Value.same_iff] at hsame
    refine ⟨vm', sent, asked, _, hwrite, hread, rfl, ?_, ?_, honly, ?_, hsame⟩
    · exact forall₂_replaced hkind.length_eq
    · exact zipWith_replaced_eq hkind.length_eq
    · rw [honly.slots frame 0 (.inr hzero)]
      exact hreceiver

/-- A method with a wide argument, an array and an object. -/
def wideMethod : MethodSignature :=
  { containingClass := "p.Box", name := "put", argumentTypes := ["long", "int[]", "p.Key"],
    returnType := "void" }

def wideBreakpoint : Breakpoint :=
  { kind := .entry, signature := wideMethod, declaringType := 1,
    method := { methodId := 2, name := "put", signature := wideMethod.descriptor, modifiers := 1 } }

/-- The machine that has entered the method, and waits. -/
def wideEntry : Vm :=
  Vm.entered { suspended := true } 1 2 (callSlots wideMethod.descriptor (.object 5)
    [.long 7, .reference Tag.array 8, .object 9])

theorem Breakpoint.arguments_in_place_of_wide :
    (∀ a ∈ wideMethod.argumentTypes, JavaType.IsTypeName a.toList) ∧
    wideEntry.Halted ∧
    wideEntry.InCall 1001 wideMethod.descriptor (.object 5)
      [.long 7, .reference Tag.array 8, .object 9] ∧
    wideMethod.SlotsAgree ∧
    (∃ sent, (wideBreakpoint.readArguments mainThread 1001 :
      Routine TraceError Unit (List Value)).talk Vm.answer () wideEntry =
        ((.ok [.long 7, .reference Tag.array 8, .object 9], ()), { debuggee := wideEntry, sent })) ∧
    ∃ (vm' : Vm) (sent asked : List Command),
      (wideBreakpoint.writeArguments mainThread 1001 [.long 7, .reference Tag.array 8, .object 9]
        [.long 7, .reference Tag.array 8, .null] : Routine TraceError Unit Unit).talk Vm.answer ()
          wideEntry = ((.ok (), ()), { debuggee := vm', sent }) ∧
      (wideBreakpoint.readArguments mainThread 1001 :
        Routine TraceError Unit (List Value)).talk Vm.answer () vm' =
          ((.ok [.long 7, .reference Tag.array 8, .null], ()),
            { debuggee := vm', sent := asked }) ∧
      vm'.slotOf 1001 0 = some (.object 5) ∧ sent ≠ [] := by
  have hm : ∀ a ∈ wideMethod.argumentTypes, JavaType.IsTypeName a.toList := by
    intro a ha
    simp only [wideMethod, List.mem_cons, List.not_mem_nil, or_false] at ha
    rcases ha with rfl | rfl | rfl
    · exact .keyword .long
    · exact .array _ (.keyword .int)
    · exact .named _ (JavaType.isClassName_of_parts ["p".toList, "Key".toList] (by decide)
        (by decide) (by decide))
  have hvm : wideEntry.Halted := ⟨rfl, rfl⟩
  have hcall : wideEntry.InCall 1001 wideMethod.descriptor (.object 5)
      [.long 7, .reference Tag.array 8, .object 9] := inCall_entered { suspended := true } _ _ _ _ _
  obtain ⟨hagree, -, -, hall⟩ := Breakpoint.arguments_in_place wideMethod hm
  obtain ⟨hread, hwritten⟩ :=
    hall wideBreakpoint wideEntry 1001 _ _ rfl rfl rfl hvm hcall ()
  obtain ⟨vm', sent, asked, values, hwrite, hback, -, -, hexact, -, hreceiver, hsame⟩ :=
    hwritten [.long 7, .reference Tag.array 8, .null]
      (.cons rfl (.cons rfl (.cons rfl .nil)))
  obtain rfl : values = [.long 7, .reference Tag.array 8, .null] := by
    apply hexact
    intro x hx hzeros
    simp only [List.zip_cons_cons, List.zip_nil_right, List.mem_cons, List.not_mem_nil,
      or_false] at hx
    rcases hx with rfl | rfl | rfl
    · rfl
    · rfl
    · exact False.elim hzeros
  refine ⟨hm, hvm, hcall, hagree, hread, vm', sent, asked, hwrite, hback, hreceiver, ?_⟩
  intro hnone
  have hall := hsame.mp hnone
  cases hall with
  | cons _ hall => cases hall with
    | cons _ hall => cases hall with
      | cons hnull _ =>
          rcases hnull.2 with heq | hzeros
          · exact absurd heq (by decide)
          · exact hzeros

/-- A method with one floating-point argument. -/
def scaleMethod : MethodSignature :=
  { containingClass := "p.Box", name := "scale", argumentTypes := ["double"], returnType := "void" }

def scaleBreakpoint : Breakpoint :=
  { kind := .entry, signature := scaleMethod, declaringType := 1,
    method :=
      { methodId := 2, name := "scale", signature := scaleMethod.descriptor, modifiers := 1 } }

/-- The machine that has entered the method with that argument, and waits. -/
def scaleEntry (v : Value) : Vm :=
  Vm.entered { suspended := true } 1 2 (callSlots scaleMethod.descriptor (.object 5) [v])

theorem scaleEntry_inCall (v : Value) :
    (scaleEntry v).InCall 1001 scaleMethod.descriptor (.object 5) [v] :=
  inCall_entered { suspended := true } _ _ _ _ _

theorem scaleEntry_holding (v : Value) :
    (scaleEntry v).Holding 1001 (scaleBreakpoint.slots.map (·.1)) [v] :=
  ((scaleEntry_inCall v).holding (by decide) rfl).2

/-- The negative zero is not written in place of the zero, so it is not read back; and what is no
number is written in place of itself. -/
theorem Breakpoint.arguments_of_scale :
    (∀ a ∈ scaleMethod.argumentTypes, JavaType.IsTypeName a.toList) ∧
    (∀ v, (scaleEntry v).Halted ∧
      (scaleEntry v).InCall 1001 scaleMethod.descriptor (.object 5) [v]) ∧
    (∃ asked, (scaleBreakpoint.writeArguments mainThread 1001 [.double 0]
        [.double 0x8000000000000000] : Routine TraceError Unit Unit).talk Vm.answer ()
          (scaleEntry (.double 0)) = ((.ok (), ()), { debuggee := scaleEntry (.double 0) }) ∧
      (scaleBreakpoint.readArguments mainThread 1001 :
        Routine TraceError Unit (List Value)).talk Vm.answer () (scaleEntry (.double 0)) =
          ((.ok [.double 0], ()), { debuggee := scaleEntry (.double 0), sent := asked })) ∧
    ∃ (vm' : Vm) (sent : List Command), sent ≠ [] ∧
      (scaleBreakpoint.writeArguments mainThread 1001 [.double 0x7ff8000000000000]
        [.double 0x7ff8000000000000] : Routine TraceError Unit Unit).talk Vm.answer ()
          (scaleEntry (.double 0x7ff8000000000000)) =
            ((.ok (), ()), { debuggee := vm', sent }) := by
  have hnames : ∀ a ∈ scaleMethod.argumentTypes, JavaType.IsTypeName a.toList := by
    intro a ha
    obtain rfl := List.mem_singleton.mp ha
    exact .keyword .double
  have hvm : ∀ v, (scaleEntry v).Halted := fun v => ⟨rfl, rfl⟩
  refine ⟨hnames, fun v => ⟨hvm v, scaleEntry_inCall v⟩, ?_, ?_⟩
  · obtain ⟨asked, hread⟩ := readArguments_talk (hvm _) (scaleEntry_holding (.double 0)) ()
    refine ⟨asked, ?_, hread⟩
    rw [writeArguments_of_nil (by decide)]
    rfl
  · have hkind : List.Forall₂ (fun v v' : Value => v.isReference = v'.isReference)
        [.double 0x7ff8000000000000] [.double 0x7ff8000000000000] := .cons rfl .nil
    obtain ⟨vm', sent, hwrite, -, -, hsame⟩ := writeArguments_talk (hvm _) (by decide)
      (scaleEntry_holding (.double 0x7ff8000000000000)) hkind ()
    refine ⟨vm', sent, ?_, hwrite⟩
    intro hnone
    cases hsame.mp hnone with
    | cons hself _ => exact absurd hself (by decide)

end StreamTrace
