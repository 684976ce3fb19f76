import StreamTrace.Proofs.Machine.ClassLookup
import StreamTrace.Proofs.Machine.InvocationReceivers
import StreamTrace.Proofs.Machine.Variables

/-!
# Refused commands

A command that is refused with an error code leaves the machine as it was. Every command but one
finds out whether it can be carried out before it changes anything. The one that is different
writes slots of a frame one after another: the slots in front of the first that cannot be written
stay written.
-/

namespace StreamTrace

instance : Vm.Advance (· = ·) := ⟨fun _ => rfl, fun h h' => h.trans h'⟩

namespace VmCommand

variable {α β : Type} {vm : Vm} {m m' : VmCommand α} {f : α → VmCommand β}

/-- If the command is refused, the machine is as it was. -/
def Whole (m : VmCommand α) (vm : Vm) : Prop :=
  ∀ code, (m.run.run vm).1 = .error (.vm code) → (m.run.run vm).2 = vm

/-- The command is not refused, whatever else becomes of it. -/
def Granted (m : VmCommand α) (vm : Vm) : Prop := ∀ code, m.Spares code vm

theorem Granted.whole (h : m.Granted vm) : m.Whole vm := fun code hrun => absurd hrun (h code)

theorem granted_lift {m : StateM Vm α} {f : α → VmCommand β}
    (hf : (f (m.run vm).1).Granted (m.run vm).2) : (liftM m >>= f : VmCommand β).Granted vm :=
  fun code => spares_lift.andThen fun a vm' hrun => by
    cases hrun
    exact hf code

/-- What does not change the machine is whole. -/
theorem Yields.whole {post : α → Vm → Prop} (h : Yields (· = ·) m vm post) : m.Whole vm :=
  fun _ _ => h.1.symm

/-- What only looks at the machine may stand in front of what is whole. -/
theorem Yields.behind (h : Yields (· = ·) m vm fun a vm' => vm' = vm → (f a).Whole vm) :
    (m >>= f).Whole vm := by
  obtain ⟨hvm, hpost⟩ := h
  intro code
  show ((ExceptT.bindCont f (m.run.run vm).1).run (m.run.run vm).2).1 = _ →
    ((ExceptT.bindCont f (m.run.run vm).1).run (m.run.run vm).2).2 = vm
  rcases hm : m.run.run vm with ⟨r, vm'⟩
  rw [hm] at hvm hpost
  obtain rfl : vm = vm' := hvm
  cases r with
  | ok a => exact hpost a rfl rfl code
  | error e => exact fun _ => rfl

/-- What is not refused any more may stand behind what is whole. -/
theorem Whole.andThen (h : m.Whole vm) (hf : ∀ a vm', (f a).Granted vm') : (m >>= f).Whole vm := by
  intro code
  show ((ExceptT.bindCont f (m.run.run vm).1).run (m.run.run vm).2).1 = _ →
    ((ExceptT.bindCont f (m.run.run vm).1).run (m.run.run vm).2).2 = vm
  have hwhole : (m.run.run vm).1 = .error (.vm code) → (m.run.run vm).2 = vm := h code
  rcases hrun : m.run.run vm with ⟨r, vm'⟩
  rw [hrun] at hwhole
  cases r with
  | ok a => exact fun hrefused => absurd hrefused (hf a vm' code)
  | error e =>
      intro hrefused
      obtain rfl : e = .vm code := Except.error.inj hrefused
      exact hwhole rfl

theorem whole_ite {c : Prop} [Decidable c] (h : c → m.Whole vm) (h' : ¬c → m'.Whole vm) :
    (if c then m else m').Whole vm := by
  split
  · exact h ‹_›
  · exact h' ‹_›

theorem whole_refuse (code : UInt16) : (refuse code : VmCommand α).Whole vm := fun _ _ => rfl

theorem whole_get {f : Vm → VmCommand β} (h : (f vm).Whole vm) : (get >>= f).Whole vm :=
  Yields.behind (yields_get fun _ => h)

end VmCommand

namespace Vm

open VmCommand

variable {vm : Vm}

/-! ## What only looks at the machine -/

theorem whole_getEntry {α : Type} {f : TypedObject → VmCommand α} (id : ObjectId)
    (h : ∀ e, vm.lookup? id = some e → (f e).Whole vm) : (getEntry id >>= f).Whole vm :=
  Yields.behind ((getEntry_yields id).mono fun e _ _ he _ => h e he.2)

theorem whole_getClass {α : Type} {f : ClassDef → VmCommand α} (type : TypeId)
    (h : ∀ c, vm.classes.byId? type = some c → (f c).Whole vm) : (getClass type >>= f).Whole vm :=
  Yields.behind ((getClass_yields type).mono fun c _ _ hc _ => h c hc.2)

theorem whole_getMethod {α : Type} {f : MethodDef → VmCommand α} (c : ClassDef)
    (method : MethodId) (h : ∀ m, (f m).Whole vm) : (getMethod c method >>= f).Whole vm :=
  Yields.behind ((getMethod_yields c method).mono fun m _ _ _ _ => h m)

theorem whole_requireFitting {α : Type} {f : Unit → VmCommand α} (descriptor : String)
    (args : List Value) (h : (f ()).Whole vm) : (requireFitting descriptor args >>= f).Whole vm :=
  Yields.behind ((requireFitting_yields descriptor args).mono fun _ _ _ _ _ => h)

theorem whole_alive {α : Type} {f : Unit → VmCommand α} (h : (f ()).Whole vm) :
    (alive >>= f).Whole vm :=
  Yields.behind (alive_yields.mono fun _ _ _ _ _ => h)

theorem whole_stopped {α : Type} {f : Unit → VmCommand α} (thread : ThreadId)
    (h : (f ()).Whole vm) : (stopped thread >>= f).Whole vm :=
  Yields.behind ((stopped_yields thread).mono fun _ _ _ _ _ => h)

/-! ## Classes that are there -/

/-- The class of that identifier is loaded. -/
def HasLoaded (vm : Vm) (type : TypeId) : Prop := ∃ c, vm.classes.byId? type = some c

theorem hasLoaded_of_mem {c : ClassDef} (hc : c ∈ vm.classes) : vm.HasLoaded c.id :=
  Option.isSome_iff_exists.mp (List.find?_isSome.mpr ⟨c, hc, beq_self_eq_true c.id⟩)

/-- The object of a loaded class is there or can be made. -/
theorem classValue_granted {type : TypeId} (h : vm.HasLoaded type) :
    (classValue type).Granted vm := by
  obtain ⟨c, hc⟩ := h
  intro code
  have hobject : (classObject type).Spares code vm := by
    refine Spares.behind (getClass_does hc) ?_
    split
    · exact spares_pure _
    · exact spares_get.bind fun _ _ => spares_lift.bind fun _ _ => spares_modify.bind
        fun _ _ => spares_pure _
  exact hobject.bind fun _ _ => spares_pure _

/-- A class that was found is loaded. -/
theorem findClass_hasLoaded {name : String} {loader : ObjectId} {type : TypeId}
    (h : ((findClass name loader).run vm).1 = some type) :
    ((findClass name loader).run vm).2.HasLoaded type := by
  by_cases hplain : name.toList.head? = some '['
  · obtain ⟨rest, hname⟩ := List.head?_eq_some_iff.mp hplain
    obtain ⟨component, hcomponent⟩ : ∃ component,
      String.ofList (JavaType.replaceChar '.' '/' rest) = component := ⟨_, rfl⟩
    cases hloaded : vm.classes.bySignature? s!"[{component}" with
    | some c =>
        rw [findClass_array_loaded hname hcomponent loader hloaded] at h ⊢
        cases h
        exact hasLoaded_of_mem (List.mem_of_find?_eq_some hloaded)
    | none =>
        cases hknown : vm.knowsComponent component loader with
        | true =>
            rw [findClass_array_new hname hcomponent loader hloaded hknown] at h ⊢
            cases h
            rw [declareArray_run]
            refine hasLoaded_of_mem (c := vm.arrayClass component) ?_
            exact List.mem_append_right _ (List.mem_singleton_self _)
        | false =>
            rw [findClass_array_unknown hname hcomponent loader hloaded hknown] at h
            cases h
  · rw [findClass_plain hplain] at h ⊢
    obtain ⟨c, hc, rfl⟩ := Option.map_eq_some_iff.mp h
    exact hasLoaded_of_mem (List.mem_of_find?_eq_some hc)

theorem thrown_granted (className : String) : (thrown className).Granted vm :=
  fun _ => spares_lift.bind fun _ _ => spares_pure _

theorem forName_whole (args : List Value) : (forName args).Whole vm := by
  refine Yields.behind ((textArgument_yields args).mono fun name _ _ _ _ => Granted.whole ?_)
  refine granted_lift ?_
  split
  · exact classValue_granted (findClass_hasLoaded ‹_›)
  · exact thrown_granted _

theorem loadHelper_whole (loader : ObjectId) (args : List Value) :
    (loadHelper loader args).Whole vm := by
  refine Yields.behind ((textArgument_yields args).mono fun name _ _ _ _ => whole_get ?_)
  extract_lets jp
  have hload : ∀ bytes, (jp bytes).Whole vm := by
    intro bytes
    refine whole_ite (fun _ => (thrown_granted _).whole) fun _ => whole_get ?_
    refine whole_ite (fun _ => (thrown_granted _).whole) fun _ => ?_
    split
    · exact (thrown_granted _).whole
    · rename_i h _
      obtain ⟨c, -, hrun⟩ := define_run loader (helperSpec h) vm
      refine Granted.whole (granted_lift ?_)
      rw [hrun]
      refine fun code => spares_modify.andThen fun _ vm' hnoted => ?_
      cases hnoted
      exact classValue_granted (hasLoaded_of_mem (c := c) (List.mem_append_right _ (by simp))) code
  split
  · exact hload _
  · exact Yields.behind (yields_refuse _)

/-! ## Invocations -/

theorem formatMap_whole (method : String) (map : Value) : (formatMap method map).Whole vm := by
  refine Yields.behind ((mapArgument_yields map).mono fun id _ _ _ _ => ?_)
  refine whole_getEntry id fun e _ => ?_
  split
  · refine Granted.whole fun code => spares_lift.bind fun _ _ => spares_lift.bind fun _ _ => ?_
    exact spares_lift.bind fun _ _ => spares_lift.bind fun _ _ => spares_pure _
  · exact whole_refuse _

theorem runStatic_whole (className name descriptor : String) (args : List Value) :
    (runStatic className name descriptor args).Whole vm :=
  whole_ite (fun _ => forName_whole args) fun _ =>
    whole_ite (fun _ => formatMap_whole name (arg args 0)) fun _ => whole_refuse _

theorem runMethod_whole (receiver : ObjectId) (name descriptor : String) (args : List Value) :
    (runMethod receiver name descriptor args).Whole vm := by
  have hlifted : ∀ m : StateM Vm Value, (do
      return returned (← m) : VmCommand InvokeOutcome).Granted vm :=
    fun _ _ => spares_lift.bind fun _ _ => spares_pure _
  have hpure : ∀ o : InvokeOutcome, (pure o : VmCommand InvokeOutcome).Granted vm :=
    fun _ _ => spares_pure _
  refine whole_getEntry receiver fun e _ => ?_
  split
  · exact (hpure _).whole
  · exact (hpure _).whole
  · exact (hpure _).whole
  · exact (hpure _).whole
  · exact Granted.whole fun _ => spares_lift.bind fun _ _ => spares_pure _
  · exact (hpure _).whole
  · split
    · exact (hpure _).whole
    · exact whole_ite (fun _ => (hpure _).whole) fun _ => (hlifted _).whole
  · exact Yields.behind ((argumentId_yields _).mono fun _ _ _ _ _ => (hlifted _).whole)
  · exact (hlifted _).whole
  · exact (hlifted _).whole
  · exact whole_refuse _

/-- An invocation is refused only by the code that it runs. -/
theorem invocation_whole {what : String} {entered : Location} {body : VmCommand InvokeOutcome}
    (hbody : body.Whole vm) : (invocation what entered body).Whole vm := by
  have hstall : ∀ what vm, (stall what).Granted vm := fun _ _ _ =>
    spares_modify.bind fun _ _ => spares_throw nofun
  refine whole_get (whole_ite (fun _ => (hstall _ _).whole) fun _ => hbody.andThen ?_)
  intro o vm' code
  refine spares_get.bind fun vm₁ vm₂ => spares_ite (hstall _ _ _) (spares_ite (hstall _ _ _) ?_)
  exact spares_modify.bind fun _ _ => spares_pure _

theorem newInstance_whole (type : TypeId) (method : MethodId) (args : List Value) :
    (newInstance type method args).Whole vm := by
  refine whole_getClass type fun c _ => whole_getMethod c method fun m => ?_
  extract_lets jp
  refine whole_ite (fun _ => Yields.behind (yields_refuse _)) fun _ => ?_
  refine whole_requireFitting _ _ (whole_get (invocation_whole ?_))
  refine Yields.behind ((constructed_yields _ _ _).mono fun o _ _ _ _ => ?_)
  exact Granted.whole fun _ => spares_lift.bind fun _ _ => spares_pure _

theorem invoke_whole (receiver : Option ObjectId) (type : TypeId) (method : MethodId)
    (args : List Value) : (invoke receiver type method args).Whole vm := by
  refine whole_getClass type fun c _ => whole_getMethod c method fun m => ?_
  extract_lets what jp
  refine whole_ite (fun _ => Yields.behind (yields_refuse _)) fun _ => ?_
  refine whole_requireFitting _ _ ?_
  cases receiver with
  | none => exact whole_get (invocation_whole (runStatic_whole _ _ _ _))
  | some id =>
      refine whole_getEntry id fun e _ => whole_get ?_
      extract_lets jp'
      refine whole_ite (fun _ => Yields.behind (yields_refuse _)) fun _ => ?_
      exact invocation_whole (whole_ite (fun _ => loadHelper_whole id args) fun _ =>
        runMethod_whole id _ _ args)

/-! ## Slots written one after another -/

/-- The slot of the frame holds a value that is a reference exactly if `v` is one. -/
def takes (vm : Vm) (frame : FrameId) : Nat × Value → Bool
  | (slot, v) => (vm.slotOf frame slot).any fun old => old.isReference == v.isReference

/-- Puts the values into their slots, from left to right. -/
def withSlots (vm : Vm) (frame : FrameId) (values : List (Nat × Value)) : Vm :=
  values.foldl (fun vm x => vm.setSlot frame x.1 x.2) vm

/-- A write changes neither the slots that there are nor what they can take. -/
theorem takes_setSlot {frame : FrameId} {x : Nat × Value} (h : vm.takes frame x = true) :
    (vm.setSlot frame x.1 x.2).takes frame = vm.takes frame := by
  obtain ⟨slot, v⟩ := x
  obtain ⟨old, hold, hkind⟩ : ∃ old, vm.slotOf frame slot = some old ∧
      old.isReference = v.isReference := by
    rw [takes] at h
    cases hold : vm.slotOf frame slot with
    | none => simp [hold] at h
    | some old => exact ⟨old, rfl, by simpa [hold] using h⟩
  obtain ⟨f, hf, -⟩ := Option.bind_eq_some_iff.mp hold
  funext ⟨slot', v'⟩
  rw [takes, slotOf_setSlot hf, takes]
  split
  · rename_i hslot
    simp [← hslot, hold, hkind]
  · rfl

theorem run_writeSlots_cons (vm : Vm) (frame : FrameId) (x : Nat × Value)
    (rest : List (Nat × Value)) :
    (vm.takes frame x = true ∧ (writeSlots frame (x :: rest)).run.run vm =
      (writeSlots frame rest).run.run (vm.setSlot frame x.1 x.2)) ∨
    (vm.takes frame x = false ∧
      ∃ e, (writeSlots frame (x :: rest)).run.run vm = (.error e, vm)) := by
  obtain ⟨slot, v⟩ := x
  rw [writeSlots, takes, slotOf]
  rcases run_getFrame vm frame with ⟨hframe, hget⟩ | ⟨f, hf, hget⟩
  · rw [hframe]
    exact .inr ⟨rfl, _, run_bind_of_error hget⟩
  · rw [run_bind_of_ok hget, hf]
    cases hold : f.slots.get? slot with
    | none => exact .inr ⟨by simp [hold], _, rfl⟩
    | some old =>
        by_cases hkind : old.isReference = v.isReference
        · refine .inl ⟨by simp [hold, hkind], ?_⟩
          show (if old.isReference ≠ v.isReference then (refuse ErrorCode.typeMismatch :
            VmCommand Unit) else _).run.run vm = _
          rw [if_neg (not_not.mpr hkind)]
          rfl
        · refine .inr ⟨by simp [hold, hkind], .vm ErrorCode.typeMismatch, ?_⟩
          show (if old.isReference ≠ v.isReference then (refuse ErrorCode.typeMismatch :
            VmCommand Unit) else _).run.run vm = _
          rw [if_pos hkind]
          rfl

/-- The values in front of the first that its slot cannot take are written. -/
theorem run_writeSlots (vm : Vm) (frame : FrameId) (values : List (Nat × Value)) :
    ((writeSlots frame values).run.run vm).2 =
      vm.withSlots frame (values.takeWhile (vm.takes frame)) ∧
    (((writeSlots frame values).run.run vm).1 = .ok () → values.all (vm.takes frame) = true) := by
  induction values generalizing vm with
  | nil => exact ⟨rfl, fun _ => rfl⟩
  | cons x rest ih =>
      rcases run_writeSlots_cons vm frame x rest with ⟨htakes, hrun⟩ | ⟨htakes, e, hrun⟩
      · obtain ⟨hstate, hall⟩ := ih (vm.setSlot frame x.1 x.2)
        rw [takes_setSlot htakes] at hstate hall
        rw [hrun, List.takeWhile_cons_of_pos htakes, List.all_cons, htakes]
        exact ⟨hstate, hall⟩
      · rw [hrun, List.takeWhile_cons_of_neg (by simp [htakes])]
        exact ⟨rfl, nofun⟩

/-! ## What a refusal leaves behind -/

/-- The machine after a refused command. -/
def refused (vm : Vm) : Command → Vm
  | .setSlots thread frame values =>
    if thread = mainThread ∧ vm.suspended then
      vm.withSlots frame (values.takeWhile (vm.takes frame))
    else vm
  | _ => vm

theorem respond_whole {c : Command}
    (h : ∀ thread frame values, c ≠ .setSlots thread frame values) : (respond c).Whole vm := by
  cases c with
  | setSlots thread frame values => exact absurd rfl (h thread frame values)
  | resumeVm => exact whole_alive (Granted.whole fun _ => spares_modify)
  | createString text =>
      exact whole_alive (Granted.whole fun _ => spares_lift.bind fun _ _ => spares_pure _)
  | newArray type length =>
      refine whole_alive (whole_getClass type fun c _ => ?_)
      extract_lets component jp
      exact whole_ite (fun _ => Yields.behind (yields_refuse _)) fun _ =>
        Granted.whole fun _ => spares_lift
  | invokeStatic type thread method args options =>
      exact whole_stopped thread (invoke_whole _ _ _ _)
  | invokeVirtual object thread type method args options =>
      exact whole_stopped thread (invoke_whole _ _ _ _)
  | newInstance type thread method args options =>
      exact whole_stopped thread (newInstance_whole _ _ _)
  | disableCollection object =>
      exact whole_alive (whole_getEntry object fun _ _ => Granted.whole fun _ => spares_modify)
  | enableCollection object =>
      exact whole_alive (whole_getEntry object fun _ _ => Granted.whole fun _ => spares_modify)
  | setArrayValues array first values =>
      refine whole_alive (Yields.behind ((getArray_yields array).mono fun a _ _ _ _ => ?_))
      refine whole_ite (fun _ => whole_refuse _) fun _ => ?_
      exact whole_ite (fun _ => whole_refuse _) fun _ => Granted.whole fun _ => spares_lift
  | resumeThread thread =>
      exact whole_ite (fun _ => Yields.behind (yields_refuse _)) fun _ =>
        whole_alive (Granted.whole fun _ => spares_modify)
  | forceReturn thread v =>
      refine whole_stopped thread (whole_get ?_)
      extract_lets jp
      exact whole_ite (fun _ => Yields.behind (yields_refuse _)) fun _ =>
        Granted.whole fun _ => spares_modify
  | setRequest kind policy modifiers => exact whole_alive (Granted.whole fun _ => spares_lift)
  | clearRequest kind request => exact whole_alive (Granted.whole fun _ => spares_lift)
  | classesBySignature signature =>
      exact whole_alive (whole_get (Granted.whole fun _ => spares_pure _))
  | typeSignature type =>
      exact whole_alive (whole_getClass type fun _ _ => Granted.whole fun _ => spares_pure _)
  | typeLoader type =>
      exact whole_alive (whole_getClass type fun _ _ => Granted.whole fun _ => spares_pure _)
  | typeMethods type =>
      exact whole_alive (whole_getClass type fun _ _ => Granted.whole fun _ => spares_pure _)
  | typeInterfaces type =>
      exact whole_alive (whole_getClass type fun _ _ => Granted.whole fun _ => spares_pure _)
  | superclass type =>
      exact whole_alive (whole_getClass type fun _ _ => whole_ite (fun _ => whole_refuse _) fun _ =>
        Granted.whole fun _ => spares_pure _)
  | reflectedType object =>
      refine whole_alive (whole_getEntry object fun e _ => ?_)
      rcases e with ⟨type, object⟩
      cases object with
      | classObject type => exact Granted.whole fun _ => spares_pure _
      | _ => exact whole_refuse _
  | variableTable type method =>
      refine whole_alive (whole_getClass type fun c _ => ?_)
      split
      · exact Granted.whole fun _ => spares_pure _
      · exact whole_refuse _
  | objectType object =>
      exact whole_alive (whole_getEntry object fun _ _ => Granted.whole fun _ => spares_pure _)
  | stringValue string =>
      refine whole_alive (whole_getEntry string fun e _ => ?_)
      rcases e with ⟨type, object⟩
      cases object with
      | string s => exact Granted.whole fun _ => spares_pure _
      | _ => exact whole_refuse _
  | arrayLength array =>
      exact whole_alive (Yields.behind ((getArray_yields array).mono fun _ _ _ _ _ =>
        Granted.whole fun _ => spares_pure _))
  | arrayValues array first length =>
      refine whole_alive (Yields.behind ((getArray_yields array).mono fun a _ _ _ _ => ?_))
      exact whole_ite (fun _ => whole_refuse _) fun _ => Granted.whole fun _ => spares_pure _
  | frames thread start length =>
      exact whole_stopped thread (whole_get (Granted.whole fun _ => spares_pure _))
  | frameCount thread =>
      exact whole_stopped thread (whole_get (Granted.whole fun _ => spares_pure _))
  | slotValues thread frame slots =>
      exact whole_stopped thread (Yields.behind ((getFrame_yields frame).mono fun f _ _ _ _ =>
        (readSlots_yields f slots).whole))

theorem withSlots_frameWrites (vm : Vm) (frame : FrameId) (values : List (Nat × Value)) :
    (vm.withSlots frame values).frameWrites = vm.frameWrites := by
  unfold withSlots
  induction values generalizing vm with
  | nil => rfl
  | cons x rest ih => exact ih (vm.setSlot frame x.1 x.2)

/-- Either something was not written, or everything was and is noted. -/
theorem run_setSlots (vm : Vm) (frame : FrameId) (values : List (Nat × Value)) :
    (∃ e, (setSlots frame values).run.run vm =
      (.error e, vm.withSlots frame (values.takeWhile (vm.takes frame)))) ∨
    values.all (vm.takes frame) = true ∧ (setSlots frame values).run.run vm = (.ok (),
      { vm.withSlots frame values with
        frameWrites := vm.frameWrites ++ values.map fun (slot, v) => (frame, slot, v) }) := by
  unfold setSlots
  rcases run_getFrame vm frame with ⟨hframe, hget⟩ | ⟨f, -, hget⟩
  · have hnone : values.takeWhile (vm.takes frame) = [] := by
      cases values with
      | nil => rfl
      | cons x rest => exact List.takeWhile_cons_of_neg (by simp [takes, slotOf, hframe])
    rw [hnone]
    exact .inl ⟨_, run_bind_of_error hget⟩
  · rw [run_bind_of_ok hget]
    obtain ⟨hstate, hall⟩ := run_writeSlots vm frame values
    rcases hrun : (writeSlots frame values).run.run vm with ⟨r, vm'⟩
    rw [hrun] at hstate hall
    obtain rfl := hstate
    cases r with
    | error e => exact .inl ⟨e, run_bind_of_error hrun⟩
    | ok =>
        have hall := hall rfl
        have hwhole : values.takeWhile (vm.takes frame) = values :=
          List.takeWhile_eq_self_iff.mpr (List.all_eq_true.mp hall)
        rw [hwhole] at hrun
        rw [run_bind_of_ok hrun, ← withSlots_frameWrites vm frame values]
        exact .inr ⟨hall, rfl⟩

theorem answer_setSlots_run (vm : Vm) (thread : ThreadId) (frame : FrameId)
    (values : List (Nat × Value)) :
    vm.answer (.setSlots thread frame values) =
      if thread ≠ mainThread then (.error (.vm ErrorCode.invalidThread), vm)
      else if vm.dead then (.error .connectionClosed, vm)
      else if vm.suspended then (setSlots frame values).run.run vm
      else (.error (.vm ErrorCode.threadNotSuspended), vm) := by
  show (ExceptT.bindCont (fun _ => setSlots frame values) ((stopped thread).run.run vm).1).run
    ((stopped thread).run.run vm).2 = _
  rw [run_stopped]
  split
  · rfl
  · split
    · rfl
    · split <;> rfl

theorem answer_setSlots_refused {thread : ThreadId} {frame : FrameId} {values : List (Nat × Value)}
    {code : UInt16} (h : (vm.answer (.setSlots thread frame values)).1 = .error (.vm code)) :
    (vm.answer (.setSlots thread frame values)).2 = vm.refused (.setSlots thread frame values) := by
  rw [answer_setSlots_run] at h ⊢
  rw [refused]
  split at h
  · rw [if_pos ‹_›, if_neg fun h => ‹thread ≠ mainThread› h.1]
  · rw [if_neg ‹_›]
    split at h
    · cases h
    · rw [if_neg ‹_›]
      split at h
      · rw [if_pos ‹_›, if_pos ⟨not_not.mp ‹_›, ‹_›⟩]
        rcases run_setSlots vm frame values with ⟨e, hrun⟩ | ⟨-, hrun⟩
        · rw [hrun]
        · rw [hrun] at h
          cases h
      · rw [if_neg ‹_›, if_neg fun h => ‹¬vm.suspended = true› h.2]

/-- A refused command leaves the machine as it was, but for the slots in front of the first that
could not be written; what is not refused is written as a whole. -/
theorem answer_refused (vm : Vm) :
    (∀ (c : Command) (code : UInt16), (vm.answer c).1 = .error (.vm code) →
      (vm.answer c).2 = vm.refused c) ∧
    ∀ (thread : ThreadId) (frame : FrameId) (values : List (Nat × Value)),
      (vm.answer (.setSlots thread frame values)).1 = .ok () →
        values.all (vm.takes frame) = true ∧ (vm.answer (.setSlots thread frame values)).2 =
          { vm.withSlots frame values with
            frameWrites := vm.frameWrites ++ values.map fun (slot, v) => (frame, slot, v) } := by
  refine ⟨fun c code hrefused => ?_, fun thread frame values hok => ?_⟩
  · by_cases hc : ∃ thread frame values, c = .setSlots thread frame values
    · obtain ⟨thread, frame, values, rfl⟩ := hc
      exact answer_setSlots_refused hrefused
    · have hwhole : (vm.answer c).2 = vm :=
        respond_whole (fun thread frame values h => hc ⟨thread, frame, values, h⟩) code hrefused
      rw [hwhole]
      cases c with
      | setSlots thread frame values => exact absurd ⟨thread, frame, values, rfl⟩ hc
      | _ => rfl
  · rcases run_stopped_bind thread (fun _ => setSlots frame values) vm with ⟨e, he⟩ | ⟨-, hrun⟩
    · cases (congrArg Prod.fst he).symm.trans hok
    · have hrun : vm.answer (.setSlots thread frame values) =
          (setSlots frame values).run.run vm := hrun
      rw [hrun] at hok ⊢
      rcases run_setSlots vm frame values with ⟨e, hset⟩ | ⟨hall, hset⟩
      · rw [hset] at hok
        cases hok
      · rw [hset]
        exact ⟨hall, rfl⟩

/-- Of two slots the second is not there: the write is refused, and the first stays written. -/
theorem answer_refused_halfway :
    let vm : Vm := { frames := [{ id := 7, location := default, slots := ⟨[(1, .int 5)]⟩ }] }
    let c := Command.setSlots mainThread 7 [(1, .int 6), (99, .int 6)]
    (vm.answer c).1 = .error (.vm ErrorCode.invalidSlot) ∧
      (vm.answer c).2 = vm.setSlot 7 1 (.int 6) ∧
      (vm.answer (.setSlots mainThread 7 [(1, .int 6)])).2 =
        { vm.setSlot 7 1 (.int 6) with frameWrites := [(7, 1, .int 6)] } :=
  ⟨rfl, ((answer_refused _).1 _ ErrorCode.invalidSlot rfl).trans rfl,
    ((answer_refused _).2 mainThread 7 [(1, .int 6)] rfl).2⟩

end Vm

end StreamTrace
