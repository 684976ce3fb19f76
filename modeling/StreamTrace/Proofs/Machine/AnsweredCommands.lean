import StreamTrace.Proofs.Machine.Extensions

/-!
# Commands that are answered

Of a stopped machine that is equipped, what the debugger asks is answered, and what it invokes ends
with a value. `VmCommand.Does` says of a command that it is not refused and what comes of it; there
is one lemma for each command that the value bridge needs.
-/

namespace StreamTrace

namespace VmCommand

variable {α β : Type} {vm : Vm} {post : α → Vm → Prop}

/-- The command is not refused, and what it yields satisfies `post`. -/
def Does (m : VmCommand α) (vm : Vm) (post : α → Vm → Prop) : Prop :=
  ∃ a vm', m.run.run vm = (.ok a, vm') ∧ post a vm'

theorem does_pure {a : α} (h : post a vm) : (pure a : VmCommand α).Does vm post :=
  ⟨a, vm, rfl, h⟩

theorem Does.mono {m : VmCommand α} {post' : α → Vm → Prop} (h : m.Does vm post)
    (hpost : ∀ a vm', post a vm' → post' a vm') : m.Does vm post' := by
  obtain ⟨a, vm', hrun, hdone⟩ := h
  exact ⟨a, vm', hrun, hpost a vm' hdone⟩

theorem Does.bind {m : VmCommand α} {f : α → VmCommand β} {post : β → Vm → Prop}
    (h : m.Does vm fun a vm' => (f a).Does vm' post) : (m >>= f).Does vm post := by
  obtain ⟨a, vm', hrun, b, vm'', hrun', hpost⟩ := h
  refine ⟨b, vm'', ?_, hpost⟩
  show (ExceptT.bindCont f (m.run.run vm).1).run (m.run.run vm).2 = _
  rw [hrun]
  exact hrun'

theorem does_get_bind {f : Vm → VmCommand α} (h : (f vm).Does vm post) :
    (get >>= f).Does vm post := .bind ⟨vm, vm, rfl, h⟩

theorem does_modify_bind {f : Vm → Vm} {g : PUnit → VmCommand α} (h : (g ⟨⟩).Does (f vm) post) :
    (modify f >>= g).Does vm post := .bind ⟨⟨⟩, f vm, rfl, h⟩

theorem does_modify {f : Vm → Vm} {post : PUnit → Vm → Prop} (h : post ⟨⟩ (f vm)) :
    (modify f : VmCommand PUnit).Does vm post := ⟨⟨⟩, f vm, rfl, h⟩

theorem does_lift {m : StateM Vm α} (h : post (m.run vm).1 (m.run vm).2) :
    (liftM m : VmCommand α).Does vm post := ⟨_, _, rfl, h⟩

theorem does_lift_bind {m : StateM Vm α} {f : α → VmCommand β} {post : β → Vm → Prop}
    (h : (f (m.run vm).1).Does (m.run vm).2 post) : (liftM m >>= f).Does vm post :=
  .bind (does_lift h)

theorem does_if_pos {c : Prop} [Decidable c] {m m' : VmCommand α} (hc : c) (h : m.Does vm post) :
    (if c then m else m').Does vm post := by
  rw [if_pos hc]
  exact h

theorem does_if_neg {c : Prop} [Decidable c] {m m' : VmCommand α} (hc : ¬c) (h : m'.Does vm post) :
    (if c then m else m').Does vm post := by
  rw [if_neg hc]
  exact h

/-- The command is refused with that code, and changes nothing. -/
def Refuses (m : VmCommand α) (vm : Vm) (code : UInt16) : Prop :=
  m.run.run vm = (.error (.vm code), vm)

theorem refuses_refuse (code : UInt16) : (refuse code : VmCommand α).Refuses vm code := rfl

theorem Refuses.behind {m : VmCommand α} {f : α → VmCommand β} {a : α} {code : UInt16}
    (h : m.Does vm fun r vm' => r = a ∧ vm' = vm) (hf : (f a).Refuses vm code) :
    (m >>= f).Refuses vm code := by
  obtain ⟨_, _, hrun, rfl, rfl⟩ := h
  show (ExceptT.bindCont f (m.run.run _).1).run (m.run.run _).2 = _
  rw [hrun]
  exact hf

theorem Refuses.bind {m : VmCommand α} {f : α → VmCommand β} {code : UInt16}
    (h : m.Refuses vm code) : (m >>= f).Refuses vm code := by
  unfold Refuses at h ⊢
  show (ExceptT.bindCont f (m.run.run vm).1).run (m.run.run vm).2 = _
  rw [h]
  rfl

end VmCommand

open VmCommand

namespace Vm

variable {vm vm' : Vm} {α : Type} {post : α → Vm → Prop}

/-! ## What is looked up -/

theorem does_alive {f : Unit → VmCommand α} (hdead : vm.dead = false) (h : (f ()).Does vm post) :
    (alive >>= f).Does vm post := by
  refine .bind ⟨(), vm, ?_, h⟩
  rw [run_alive, hdead]
  rfl

/-- The machine is alive and its thread is stopped. -/
structure Halted (vm : Vm) : Prop where
  alive : vm.dead = false
  suspended : vm.suspended = true

theorem does_stopped {f : Unit → VmCommand α} (hvm : vm.Halted) (h : (f ()).Does vm post) :
    (stopped mainThread >>= f).Does vm post := by
  refine .bind ⟨(), vm, ?_, h⟩
  unfold stopped
  rw [if_neg (fun hne => hne rfl)]
  have halive : (alive >>= fun _ => do
      if ¬(← get).suspended then refuse ErrorCode.threadNotSuspended).run.run vm =
      ((.ok (), vm) : Except JdwpError Unit × Vm) := by
    rw [run_alive_bind, hvm.alive]
    show ((if ¬vm.suspended = true then (refuse ErrorCode.threadNotSuspended : VmCommand Unit)
      else pure ())).run.run vm = _
    rw [hvm.suspended]
    rfl
  exact halive

theorem does_getEntry {f : TypedObject → VmCommand α} {id : ObjectId} {e : TypedObject}
    (he : vm.lookup? id = some e) (h : (f e).Does vm post) : (getEntry id >>= f).Does vm post := by
  refine .bind (does_get_bind ?_)
  rw [he]
  exact does_pure h

theorem does_getClass {f : ClassDef → VmCommand α} {c : ClassDef} (hvm : vm.Proper)
    (hc : c ∈ vm.classes) (h : (f c).Does vm post) : (getClass c.id >>= f).Does vm post := by
  refine .bind (does_get_bind ?_)
  rw [hvm.distinct.byId? hc]
  exact does_pure h

theorem does_getMethod {f : MethodDef → VmCommand α} {c : ClassDef} {m : MethodDef}
    (hvm : vm.Proper) (hc : c ∈ vm.classes) (hm : m ∈ c.methods) (h : (f m).Does vm post) :
    (getMethod c m.id >>= f).Does vm post := by
  refine .bind ?_
  unfold getMethod
  rw [find?_of_nodup (hvm.methods c hc) hm]
  exact does_pure h

theorem alive_does (hdead : vm.dead = false) : alive.Does vm fun r vm' => r = () ∧ vm' = vm := by
  refine ⟨(), vm, ?_, rfl, rfl⟩
  rw [run_alive, hdead]
  rfl

theorem getEntry_does {id : ObjectId} {e : TypedObject} (he : vm.lookup? id = some e) :
    (getEntry id).Does vm fun r vm' => r = e ∧ vm' = vm := by
  refine does_get_bind ?_
  rw [he]
  exact does_pure ⟨rfl, rfl⟩

theorem getClass_does {type : TypeId} {c : ClassDef} (hc : vm.classes.byId? type = some c) :
    (getClass type).Does vm fun r vm' => r = c ∧ vm' = vm := by
  refine does_get_bind ?_
  rw [hc]
  exact does_pure ⟨rfl, rfl⟩

theorem getClass_refuses {type : TypeId} (hnone : vm.classes.byId? type = none) :
    (getClass type).Refuses vm ErrorCode.invalidClass := by
  refine Refuses.behind ⟨vm, vm, rfl, rfl, rfl⟩ ?_
  rw [hnone]
  exact refuses_refuse _

/-! ## Questions -/

section

variable (hvm : vm.Equipped) (hdead : vm.dead = false) {c : ClassDef} (hc : c ∈ vm.classes)

include hdead

theorem does_classesBySignature (signature : String) :
    (respond (.classesBySignature signature)).Does vm fun r vm' =>
      r = (vm.classes.filter (·.signature == signature)).map ClassDef.info ∧ vm' = vm :=
  does_alive hdead (does_get_bind (does_pure ⟨rfl, rfl⟩))

theorem does_createString (text : String) :
    (respond (.createString text)).Does vm fun r vm' => r = vm.nextId + 1 ∧
      vm' = vm.make (vm.stringObject text) := by
  refine does_alive hdead (does_lift_bind ?_)
  rw [newString_run]
  refine does_pure ⟨?_, rfl⟩
  rw [objectId?_valueOf _ (Nat.succ_ne_zero _)]
  rfl

theorem does_objectType {id : ObjectId} {e : TypedObject} (he : vm.lookup? id = some e) :
    (respond (.objectType id)).Does vm fun r vm' => r = e.type ∧ vm' = vm :=
  does_alive hdead (does_getEntry he (does_pure ⟨rfl, rfl⟩))

theorem does_stringValue {id : ObjectId} {type : TypeId} {s : String}
    (he : vm.lookup? id = some { type, object := .string s }) :
    (respond (.stringValue id)).Does vm fun r vm' => r = s ∧ vm' = vm :=
  does_alive hdead (does_getEntry he (does_pure ⟨rfl, rfl⟩))

theorem does_reflectedType {id : ObjectId} {type type' : TypeId}
    (he : vm.lookup? id = some { type := type', object := .classObject type }) :
    (respond (.reflectedType id)).Does vm fun r vm' => r = type ∧ vm' = vm :=
  does_alive hdead (does_getEntry he (does_pure ⟨rfl, rfl⟩))

theorem does_disableCollection {id : ObjectId} {e : TypedObject} (he : vm.lookup? id = some e) :
    (respond (.disableCollection id)).Does vm fun _ vm' =>
      ∃ pins, vm' = { vm with pins } :=
  does_alive hdead (does_getEntry he (does_modify ⟨_, rfl⟩))

include hvm hc

theorem does_typeSignature :
    (respond (.typeSignature c.id)).Does vm fun r vm' => r = c.signature ∧ vm' = vm :=
  does_alive hdead (does_getClass hvm.toProper hc (does_pure ⟨rfl, rfl⟩))

theorem does_typeLoader :
    (respond (.typeLoader c.id)).Does vm fun r vm' => r = c.loader ∧ vm' = vm :=
  does_alive hdead (does_getClass hvm.toProper hc (does_pure ⟨rfl, rfl⟩))

theorem does_typeMethods :
    (respond (.typeMethods c.id)).Does vm fun r vm' => r = c.methodInfos ∧ vm' = vm :=
  does_alive hdead (does_getClass hvm.toProper hc (does_pure ⟨rfl, rfl⟩))

theorem does_typeInterfaces :
    (respond (.typeInterfaces c.id)).Does vm fun r vm' => r = c.interfaces ∧ vm' = vm :=
  does_alive hdead (does_getClass hvm.toProper hc (does_pure ⟨rfl, rfl⟩))

theorem does_superclass (hclass : c.isInterface = false) :
    (respond (.superclass c.id)).Does vm fun r vm' => r = c.superclass ∧ vm' = vm := by
  refine does_alive hdead (does_getClass hvm.toProper hc ?_)
  rw [hclass]
  exact does_pure ⟨rfl, rfl⟩

/-- Interfaces have no superclass to name. -/
theorem refuses_superclass (hclass : c.isInterface = true) :
    (respond (.superclass c.id)).Refuses vm ErrorCode.invalidClass := by
  refine Refuses.behind (alive_does hdead)
    (Refuses.behind (getClass_does (hvm.distinct.byId? hc)) ?_)
  rw [hclass]
  exact refuses_refuse _

end

/-! ## Arrays -/

theorem makeArray_does (hvm : vm.Proper) {c : ClassDef} (hc : c ∈ vm.classes)
    (harray : c.isArray = true) {component : String} (hsignature : c.signature = s!"[{component}")
    (length : Int) :
    (makeArray c.id length).Does vm fun id vm' => id = vm.nextId + 1 ∧ vm' = vm.make
      ⟨c.id, .array component (List.replicate length.toNat (defaultOf component))⟩ := by
  have hcomponent : String.ofList (c.signature.toList.drop 1) = component := by
    rw [hsignature]
    simp [toString]
  refine does_getClass hvm hc (does_if_neg (by simp [harray]) (does_lift ⟨rfl, ?_⟩))
  rw [alloc_run, hcomponent]

theorem does_newArray (hvm : vm.Equipped) (hdead : vm.dead = false) {c : ClassDef}
    (hc : c ∈ vm.classes) (harray : c.isArray = true) {component : String}
    (hsignature : c.signature = s!"[{component}") (length : Int) :
    (respond (.newArray c.id length)).Does vm fun id vm' => id = vm.nextId + 1 ∧ vm' = vm.make
      ⟨c.id, .array component (List.replicate length.toNat (defaultOf component))⟩ :=
  does_alive hdead (makeArray_does hvm.toProper hc harray hsignature length)

section

variable (hdead : vm.dead = false) {id : ObjectId} {type : TypeId} {component : String}
  {values : List Value} (he : vm.lookup? id = some { type, object := .array component values })

include he

theorem does_getArray {f : String × List Value → VmCommand α}
    (h : (f (component, values)).Does vm post) : (getArray id >>= f).Does vm post :=
  .bind (does_getEntry he (does_pure h))

include hdead

theorem does_arrayLength :
    (respond (.arrayLength id)).Does vm fun r vm' => r = (values.length : Int) ∧ vm' = vm :=
  does_alive hdead (does_getArray he (does_pure ⟨rfl, rfl⟩))

theorem does_arrayValues :
    (respond (.arrayValues id 0 values.length)).Does vm fun r vm' => r = values ∧ vm' = vm := by
  refine does_alive hdead (does_getArray he (does_if_neg (by simp) (does_pure ⟨?_, rfl⟩)))
  show (values.drop 0).take _ = values
  simp

omit hdead in
theorem setArray_does {new : List Value} (hnew : new.all (holds component) = true)
    (hlength : new.length = values.length) :
    (setArray id 0 new).Does vm fun _ vm' => vm' = { vm with
      heap := vm.heap.set id { type, object := .array component new } } := by
  refine does_getArray he ?_
  refine does_if_neg (by simp [hnew]) (does_if_neg (by simp [hlength]) (does_lift ?_))
  rw [setObject_run he]
  simp [hlength]

theorem does_setArrayValues {new : List Value} (hnew : new.all (holds component) = true)
    (hlength : new.length = values.length) :
    (respond (.setArrayValues id 0 new)).Does vm fun _ vm' => vm' = { vm with
      heap := vm.heap.set id { type, object := .array component new } } :=
  does_alive hdead (setArray_does he hnew hlength)

/-- Values do not fit into an array that is shorter. -/
theorem refuses_setArrayValues {new : List Value} (hnew : new.all (holds component) = true)
    (hlength : values.length < new.length) :
    (respond (.setArrayValues id 0 new)).Refuses vm ErrorCode.invalidIndex := by
  refine Refuses.behind (alive_does hdead)
    (Refuses.behind (does_getEntry he (does_pure ⟨rfl, rfl⟩)) ?_)
  dsimp only
  rw [if_neg (by simp [hnew]), if_pos (by simpa using hlength)]
  exact refuses_refuse _

end

/-! ## Invocations -/

/-- An invocation ends if no method is watched and it throws nothing that is waited for. -/
theorem invocation_does {what : String} {entered : Location} {body : VmCommand InvokeOutcome}
    {post : InvokeOutcome → Vm → Prop} (hwatch : vm.Unwatched)
    (hbody : body.Does vm fun o vm' => vm'.requests = vm.requests ∧
      (o.exception ≠ none → vm.Unguarded) ∧
      post o { vm' with invocations := vm'.invocations ++ [what] }) :
    (invocation what entered body).Does vm post := by
  have hentry : isMethodKind EventKind.methodEntry = true := rfl
  have hexit : isMethodKind EventKind.methodExitWithReturnValue = true := rfl
  refine does_get_bind (does_if_neg ?_ (.bind (hbody.mono ?_)))
  · simp [hwatch.isArmed hentry entered]
  rintro o vm' ⟨hrequests, hguard, hpost⟩
  have hwatch' : vm'.Unwatched := hwatch.kept fun r hr => hrequests ▸ hr
  refine does_get_bind (does_if_neg ?_ (does_if_neg ?_ (does_modify_bind (does_pure hpost))))
  · intro hthrows
    rw [Bool.and_eq_true] at hthrows
    have hunguarded : vm'.Unguarded :=
      (hguard (Option.isSome_iff_ne_none.mp hthrows.1)).kept fun r hr => hrequests ▸ hr
    rw [hunguarded.isExceptionArmed] at hthrows
    exact Bool.false_ne_true hthrows.2
  · simp [hwatch'.isArmed hexit entered]

/-! ## Arguments -/

theorem does_getMap {id : ObjectId} {type : TypeId} {entries : List (Int32 × Element)}
    (he : vm.lookup? id = some { type, object := .map entries }) :
    (expect id isMap).Does vm fun r vm' => r = id ∧ vm' = vm :=
  does_getEntry he (does_if_pos rfl (does_pure ⟨rfl, rfl⟩))

theorem argumentId_does {v : Value} {id : ObjectId} (hv : v.objectId? = some id) :
    (argumentId v).Does vm fun r vm' => r = id ∧ vm' = vm := by
  unfold argumentId
  rw [hv]
  exact does_pure ⟨rfl, rfl⟩

theorem mapArgument_does {v : Value} {id : ObjectId} {type : TypeId}
    {entries : List (Int32 × Element)} (hv : v.objectId? = some id)
    (he : vm.lookup? id = some { type, object := .map entries }) :
    (mapArgument v).Does vm fun r vm' => r = id ∧ vm' = vm := by
  refine .bind ((argumentId_does hv).mono ?_)
  rintro r vm' ⟨rfl, rfl⟩
  exact does_getMap he

theorem ofName?_name (h : HelperClass) : HelperClass.ofName? h.name = some h := by
  cases h <;> decide

end Vm

end StreamTrace
