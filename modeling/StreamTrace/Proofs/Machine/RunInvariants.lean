import StreamTrace.Proofs.Machine.EquippedLaunch

/-!
# What lasts while the program runs

The program makes objects, counts, records elements in maps, and enters and leaves frames; it loads
no class. So an invariant of objects and classes that survives this much holds wherever the thread
stops, if it still holds whenever the thread is resumed.
-/

namespace StreamTrace

open Vm

variable {α β : Type} {I : Vm → Prop}

namespace Vm

/-- The invariant is one of objects and classes. It survives new objects and identifiers, and
changes of what counters, maps and arrays hold. -/
class Lasting (I : Vm → Prop) : Prop where
  of_eq {vm vm' : Vm} (h : I vm) (next : vm'.nextId = vm.nextId) (heap : vm'.heap = vm.heap)
    (classes : vm'.classes = vm.classes) (loader : vm'.appLoader = vm.appLoader)
    (defined : vm'.defined = vm.defined) : I vm'
  advance {vm : Vm} {n : Nat} (h : I vm) (next : vm.nextId ≤ n) : I { vm with nextId := n }
  make {vm : Vm} (h : I vm) (e : TypedObject) : I (vm.make e)
  change {vm : Vm} {id : ObjectId} {e : TypedObject} (h : I vm) (o : HeapObject)
    (he : vm.lookup? id = some e) (hold : e.object.isMutable = true) (hnew : o.isMutable = true) :
    I { vm with heap := vm.heap.set id { e with object := o } }

/-- If the invariant held before, it holds after. -/
def Retains (I : Vm → Prop) (vm vm' : Vm) : Prop := I vm → I vm'

instance : Advance (Retains I) where
  refl _ := id
  trans h h' := h' ∘ h

variable [Lasting I]

instance : Allots (Retains I) where
  alloc _ e h := Lasting.make h e

theorem setObject_lasts {vm : Vm} {id : ObjectId} {old : HeapObject}
    (hid : vm.object? id = some old) (hold : old.isMutable = true) {o : HeapObject}
    (hnew : o.isMutable = true) : Retains I vm ((setObject id o).run vm).2 := by
  obtain ⟨e, he, rfl⟩ := Option.map_eq_some_iff.mp hid
  rw [setObject_run he]
  exact fun h => Lasting.change h o he hold hnew

theorem tick_lasts (time : ObjectId) (advance : Bool) : Keeps (Retains I) (tick time advance) := by
  refine keeps_get_bind fun vm => ?_
  split
  · exact setObject_lasts ‹_› rfl rfl
  · exact Advance.refl vm

theorem put_lasts (map : ObjectId) (key : Int32) (e : Element) :
    Keeps (Retains I) (put map key e) := by
  refine keeps_get_bind fun vm => ?_
  split
  · exact setObject_lasts ‹_› rfl rfl
  · exact Advance.refl vm

end Vm

/-! ## Runs -/

/-- The invariant holds where the run ends, and wherever it stops, if it holds whenever it is
resumed. -/
def Run.Always (I : Vm → Prop) : Run α → Prop
  | .ended _ vm => I vm
  | .waiting vm resume => I vm ∧ ∀ vm₁, I vm₁ → (resume vm₁).Always I

theorem Run.Always.bind {r : Run α} {f : α → Vm → Run β} (h : r.Always I)
    (hf : ∀ a vm, I vm → (f a vm).Always I) : (r.bind f).Always I := by
  induction r with
  | ended a vm => exact hf a vm h
  | waiting vm resume ih => exact ⟨h.1, fun vm₁ hvm₁ => ih vm₁ (h.2 vm₁ hvm₁)⟩

namespace Code

/-- The invariant lasts while the code runs. -/
def KeepsInvariant (I : Vm → Prop) (c : Code α) : Prop := ∀ vm, I vm → (c.run vm).Always I

variable {c : Code α} {f : α → Code β}

theorem KeepsInvariant.bind (h : c.KeepsInvariant I) (hf : ∀ a, (f a).KeepsInvariant I) :
    (c >>= f).KeepsInvariant I := by
  intro vm hvm
  refine Run.Always.bind (h vm hvm) fun r vm' hvm' => ?_
  cases r with
  | ok a => exact hf a vm' hvm'
  | error i => exact hvm'

theorem keepsInvariant_pure (a : α) : KeepsInvariant I (pure a) := fun _ hvm => hvm

theorem keepsInvariant_throw (i : Interruption) : KeepsInvariant I (throw i : Code α) :=
    fun _ hvm => hvm

theorem keepsInvariant_read (f : Vm → α) : KeepsInvariant I (read f) := fun _ hvm => hvm

theorem keepsInvariant_use {m : StateM Vm α} (h : Vm.Keeps (Retains I) m) :
    KeepsInvariant I (use m) :=
  fun vm hvm => h vm hvm

theorem keepsInvariant_ite {p : Prop} [Decidable p] {c c' : Code α} (h : c.KeepsInvariant I)
    (h' : c'.KeepsInvariant I) :
    KeepsInvariant I (if p then c else c') := by
  split
  · exact h
  · exact h'

theorem awaitResume_keepsInvariant : awaitResume.KeepsInvariant I := by
  intro vm hvm
  have hrun : awaitResume.run vm = awaitResume vm := rfl
  rw [hrun]
  unfold awaitResume
  split
  · exact hvm
  · split
    · exact hvm
    · exact ⟨hvm, fun _ hvm₁ => hvm₁⟩

variable [Lasting I]

/-! ## Stops and frames -/

theorem stop_keepsInvariant {P : Event → Prop} {due : StateM Vm (Option Event)}
    (hdue : Raises P due) :
    (stop due).KeepsInvariant I := by
  intro vm hvm
  by_cases hdead : vm.dead = true
  · rw [ExceptT.run, stop_of_dead hdead]
    exact hvm
  rcases hdue vm with hnone | ⟨e, requests, hsome, -⟩
  · rw [ExceptT.run, stop_of_none hdead hnone]
    exact hvm
  · rw [ExceptT.run, stop_of_some hdead hsome hdead]
    exact ⟨Lasting.of_eq hvm rfl rfl rfl rfl rfl, fun _ hvm₁ => hvm₁⟩

theorem raise_keepsInvariant (className : String) : (raise className : Code α).KeepsInvariant I :=
  (keepsInvariant_use (makeThrowable_keeps className)).bind fun _ =>
    (stop_keepsInvariant (exceptionEvent_raises _ _)).bind fun _ => keepsInvariant_throw _

theorem inFrame_keepsInvariant {type : TypeId} {method : MethodId} {slots : Table Nat Value}
    {body : Code α}
    (h : body.KeepsInvariant I) : (inFrame type method slots body).KeepsInvariant I := by
  intro vm hvm
  let f : Frame := { id := vm.nextId + 1, location := vm.location type method 0, slots }
  have hpushed : I { vm with nextId := vm.nextId + 1, frames := f :: vm.frames } :=
    Lasting.of_eq (Lasting.advance hvm (Nat.le_succ _)) rfl rfl rfl rfl rfl
  have hpopped : ∀ (r : Except Interruption α) vm', I vm' →
      (Run.ended r { vm' with frames := vm'.frames.tail }).Always I := fun _ _ hvm' =>
    Lasting.of_eq hvm' rfl rfl rfl rfl rfl
  have hrun : (popping body).run { vm with nextId := vm.nextId + 1, frames := f :: vm.frames } =
      (inFrame type method slots body).run vm := rfl
  rw [← hrun]
  exact Run.Always.bind (h _ hpushed) hpopped

/-! ## Lambdas -/

theorem lambdaBody_keepsInvariant (o : LambdaOutcome) : (lambdaBody o).KeepsInvariant I := by
  cases o with
  | value e => exact keepsInvariant_pure e
  | raise exception caught =>
      cases caught with
      | some fallback =>
          exact (keepsInvariant_read _).bind fun _ =>
            (keepsInvariant_use (makeThrowable_keeps _)).bind fun _ =>
            (stop_keepsInvariant (exceptionEvent_raises _ _)).bind fun _ => keepsInvariant_pure _
      | none => exact raise_keepsInvariant _
  | raiseReplaced exception replacement =>
      exact (keepsInvariant_use (makeThrowable_keeps _)).bind fun _ =>
        (stop_keepsInvariant (exceptionEvent_raises _ _)).bind fun _ => raise_keepsInvariant _
  | exitVm =>
      refine (keepsInvariant_use (keeps_modify fun vm hvm => ?_)).bind fun _ =>
        keepsInvariant_throw _
      unfold kill
      split
      · exact hvm
      · exact Lasting.of_eq hvm rfl rfl rfl rfl rfl

theorem runLambda_keepsInvariant (function : ObjectId) (f : Lambda) (e : Element) :
    (runLambda function f e).KeepsInvariant I := by
  refine (keepsInvariant_read _).bind fun found => ?_
  cases found with
  | none => exact raise_keepsInvariant _
  | some found =>
      refine (keepsInvariant_use (materialize_keeps _ _)).bind fun _ =>
        (keepsInvariant_read _).bind fun _ => ?_
      refine (inFrame_keepsInvariant ?_).bind fun result =>
        (stop_keepsInvariant (stepEvent_raises _)).bind fun _ => keepsInvariant_pure result
      exact (stop_keepsInvariant enteredEvent_raises).bind fun _ => lambdaBody_keepsInvariant _

theorem apply_keepsInvariant (function : ObjectId) (e : Element) :
    (apply function e).KeepsInvariant I := by
  refine (keepsInvariant_read _).bind fun object => ?_
  split
  · exact runLambda_keepsInvariant _ _ _
  · refine KeepsInvariant.bind (keepsInvariant_use ((tick_lasts _ _).bind fun now => ?_)) fun _ =>
      keepsInvariant_pure _
    split
    · exact put_lasts _ _ _
    · exact Vm.keeps_pure _
  · refine KeepsInvariant.bind (keepsInvariant_use ((tick_lasts _ _).bind fun _ => put_lasts _ _ _))
      fun _ => ?_
    refine (keepsInvariant_read _).bind fun predicate => ?_
    split
    · refine (runLambda_keepsInvariant _ _ _).bind fun result => ?_
      extract_lets jp
      refine keepsInvariant_ite ?_ (keepsInvariant_pure _)
      exact KeepsInvariant.bind
        (keepsInvariant_use ((tick_lasts _ _).bind fun _ => put_lasts _ _ _)) fun _ =>
        keepsInvariant_pure _
    · exact raise_keepsInvariant _
  · exact raise_keepsInvariant _

/-! ## Pipelines -/

theorem through_keepsInvariant (ops : List PipelineStep) (e : Element) :
    (through ops e).KeepsInvariant I := by
  induction ops generalizing e with
  | nil => exact keepsInvariant_pure _
  | cons op ops ih =>
      cases op with
      | filter predicate =>
          exact (apply_keepsInvariant _ _).bind fun _ =>
            keepsInvariant_ite (ih e) (keepsInvariant_pure _)
      | map function => exact (apply_keepsInvariant _ _).bind fun e => ih e
      | peek consumer => exact (apply_keepsInvariant _ _).bind fun _ => ih e

theorem newOptional_keepsInvariant (element : ElementType) (content : Option Element) :
    (newOptional element content).KeepsInvariant I :=
  keepsInvariant_use ((allocOf_keeps _ _).bind fun _ => keeps_get.bind fun _ => Vm.keeps_pure _)

theorem finish_keepsInvariant (element : ElementType) (taken : Nat) (kept : List Element)
    (ending : PipelineEnd) : (finish element taken kept ending).KeepsInvariant I := by
  cases ending with
  | findFirst => exact newOptional_keepsInvariant _ _
  | toList =>
      unfold finish
      exact keepsInvariant_use
        ((allocOf_keeps _ _).bind fun _ => keeps_get.bind fun _ => Vm.keeps_pure _)
  | _ => exact keepsInvariant_pure _

theorem drain_keepsInvariant (element : ElementType) (ops : List PipelineStep)
    (ending : PipelineEnd)
    (taken : Nat) (kept items : List Element) :
    (drain element ops ending taken kept items).KeepsInvariant I := by
  induction items generalizing taken kept with
  | nil => exact finish_keepsInvariant _ _ _ _
  | cons e rest ih =>
      refine (through_keepsInvariant ops e).bind fun e => ?_
      cases e with
      | none => exact ih taken kept
      | some e =>
          cases ending with
          | count => exact ih _ _
          | anyMatch predicate =>
              exact (apply_keepsInvariant _ _).bind fun _ =>
                keepsInvariant_ite (keepsInvariant_pure _) (ih _ _)
          | findFirst => exact newOptional_keepsInvariant _ _
          | toList => exact ih _ _
          | forEach consumer => exact (apply_keepsInvariant _ _).bind fun _ => ih _ _

theorem pipelineEndOf_keepsInvariant (name : String) (function : Option ObjectId) :
    (pipelineEndOf name function).KeepsInvariant I := by
  unfold pipelineEndOf
  split <;> first | exact keepsInvariant_pure _ | exact raise_keepsInvariant _

theorem derive_keepsInvariant (type : TypeId) (element : ElementType) (op : StreamOp) :
    (derive type element op).KeepsInvariant I := keepsInvariant_use (allocValue_keeps _ _)

theorem methodBody_keepsInvariant (receiver : ObjectId) (name : String) (args : List Value) :
    (methodBody receiver name args).KeepsInvariant I := by
  unfold methodBody
  extract_lets function
  refine (keepsInvariant_read _).bind fun found => ?_
  split
  · exact keepsInvariant_ite ((keepsInvariant_read _).bind fun _ => derive_keepsInvariant _ _ _)
      (raise_keepsInvariant _)
  · refine keepsInvariant_ite ?_ (keepsInvariant_ite (derive_keepsInvariant _ _ _) ?_)
    · split
      · exact derive_keepsInvariant _ _ _
      · exact raise_keepsInvariant _
    · exact (pipelineEndOf_keepsInvariant _ _).bind fun _ => (keepsInvariant_read _).bind fun _ =>
        drain_keepsInvariant _ _ _ _ _ _
  · exact raise_keepsInvariant _

/-! ## Calls -/

theorem takeForced_lasts (v : Value) : Vm.Keeps (Retains I) (takeForced v) :=
  keeps_modifyGet fun _ hvm => Lasting.of_eq hvm rfl rfl rfl rfl rfl

theorem call_keepsInvariant (receiver : Value) (c : ProgramCall) :
    (call receiver c).KeepsInvariant I := by
  unfold call
  split
  · exact raise_keepsInvariant _
  · refine (keepsInvariant_read _).bind fun code => ?_
    split
    · exact raise_keepsInvariant _
    · refine (inFrame_keepsInvariant ?_).bind fun v =>
        (stop_keepsInvariant (stepEvent_raises _)).bind fun _ => keepsInvariant_pure v
      exact (stop_keepsInvariant enteredEvent_raises).bind fun _ =>
        (keepsInvariant_read _).bind fun args =>
        (methodBody_keepsInvariant _ _ args).bind fun v =>
          (stop_keepsInvariant (exitEvent_raises v)).bind fun _ =>
          keepsInvariant_use (takeForced_lasts v)

theorem callAll_keepsInvariant (calls : List ProgramCall) (v : Value) :
    (callAll calls v).KeepsInvariant I := by
  induction calls generalizing v with
  | nil => exact keepsInvariant_pure v
  | cons c rest ih => exact (call_keepsInvariant v c).bind ih

theorem evaluate_keepsInvariant (s : Repetition) : (evaluate s).KeepsInvariant I := by
  unfold evaluate
  split
  · exact (keepsInvariant_read _).bind fun _ => callAll_keepsInvariant _ _
  · exact (call_keepsInvariant _ _).bind fun _ => callAll_keepsInvariant _ _

end Code

/-! ## Programs -/

variable [Lasting I]

open Code

theorem Repetition.loop_lasts (s : Repetition) (runs : Nat) {vm : Vm} (hvm : I vm) :
    (s.loop runs vm).Always I := by
  induction runs generalizing vm with
  | zero => exact hvm
  | succ runs ih =>
      refine Run.Always.bind (awaitResume_keepsInvariant vm hvm) fun r vm₁ hvm₁ => ?_
      cases r with
      | error i => exact hvm₁
      | ok u =>
          refine Run.Always.bind (evaluate_keepsInvariant s vm₁ hvm₁) fun r vm₂ hvm₂ => ?_
          have hnoted : I (vm₂.noteEvaluation r) := Lasting.of_eq hvm₂ rfl rfl rfl rfl rfl
          refine Run.Always.bind (r := .ended _ _) hnoted fun u vm₃ hvm₃ => ?_
          split
          · exact ih hvm₃
          · exact hvm₃
          · refine Run.Always.bind (stop_keepsInvariant (stepEvent_raises _) vm₃ hvm₃)
              fun r vm₄ hvm₄ => ?_
            cases r with
            | error i => exact hvm₄
            | ok u => exact ih hvm₄

/-- An invariant that holds when the machine was booted, and that knowing the variables of a method
does not harm, lasts while a program runs. -/
theorem StreamProgram.launch_lasts (p : StreamProgram) (hbooted : I booted)
    (hmain : ∀ vm : Vm, I vm → ∀ (info : VariableInfo) (this : ObjectId) (v : Value),
      I (vm.inMain info this v)) : p.launch.Always I := by
  obtain ⟨filled, this, v, script, hallots, -, hrun⟩ := p.prepare_run booted
  unfold launch
  rw [hrun]
  exact script.loop_lasts _ (hmain filled (hallots (Retains I) hbooted) _ this v)

end StreamTrace
