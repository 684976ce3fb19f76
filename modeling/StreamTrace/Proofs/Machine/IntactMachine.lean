import StreamTrace.Proofs.Jvm.Signatures
import StreamTrace.Proofs.Machine.ElementValues
import StreamTrace.Proofs.Machine.EquippedLaunch
import StreamTrace.Proofs.Machine.RunInvariants

/-!
# Machines under an orderly debugger

Whatever a program does and whatever commands it gets in between, its machine stays intact: it is
equipped, and its classes are in order. All that takes is a debugger that looks classes up by the
names of Java types, and defines classes in the program's loader.
-/

namespace StreamTrace

open Vm VmCommand JavaType

/-! ## Intact machines -/

namespace Vm

/-- The machine is equipped and its classes are in order. -/
structure Intact (vm : Vm) : Prop extends vm.Equipped, vm.Sound

variable {vm vm' : Vm}

/-- The classes that are loaded at the start are named by their signatures. -/
theorem booted_named {c : ClassDef} (hc : c ∈ booted.classes) :
    signatureToTypeName? c.signature = some c.name := by
  obtain ⟨hstocks, -⟩ := booted_loadedExactly
  have hloaded := List.mem_map_of_mem (f := (·.signature)) hc
  rw [hstocks.signatures] at hloaded
  rcases declared_or_array hloaded with ⟨spec, hspec, hsignature⟩ | harray
  · have hholds : ∃ loader, booted.Holds (loader, spec) := by
      rcases List.mem_append.mp hspec with hlibrary | hprogram
      · exact ⟨0, booted_equipped.library spec hlibrary⟩
      · exact ⟨_, booted_equipped.program spec hprogram⟩
    obtain ⟨loader, c', hc', hdeclares, -⟩ := hholds
    have hsame : c'.signature = c.signature := by
      rw [hstocks.distinct.spelled c' hc', hdeclares.name]
      exact hsignature
    obtain rfl := hstocks.distinct.eq_of_signature hc' hc hsame
    rw [hstocks.distinct.spelled _ hc, hdeclares.name]
    exact (specs_plain spec hspec).isComponent.signatureToTypeName?
  · have harrays : ∀ c ∈ booted.classes, c.isArray = true →
        signatureToTypeName? c.signature = some c.name := by
      decide +kernel
    exact harrays c hc (hstocks.arrays c hc harray)

theorem booted_sound : booted.Sound where
  closed := by decide +kernel
  visible := by decide +kernel
  named _ := booted_named
  counted name := by
    have hdefined : booted.defined = {} := by decide +kernel
    have hnone : ∀ c ∈ booted.classes, HelperClass.ofName? c.name = none := by
      have h : booted.classes.all fun c => (HelperClass.ofName? c.name).isNone := by
        decide +kernel
      simpa using h
    unfold timesDefined ClassTable.helpersNamed
    rw [hdefined]
    symm
    refine List.countP_eq_zero.mpr fun c hc => ?_
    rw [hnone c hc]
    simp

/-- Only objects and classes matter. -/
theorem Intact.of_eq (h : vm.Intact) (hnext : vm'.nextId = vm.nextId) (hheap : vm'.heap = vm.heap)
    (hclasses : vm'.classes = vm.classes) (hloader : vm'.appLoader = vm.appLoader)
    (hdefined : vm'.defined = vm.defined) : vm'.Intact where
  toEquipped := h.toEquipped.of_eq hnext hheap hclasses hloader
  toSound := h.toSound.of_eq hclasses hloader hdefined

theorem Intact.extended (h : vm.Intact) (hextended : vm.Extended vm') : vm'.Intact where
  toEquipped := hextended.equipped
  toSound := hextended.sound h.toSound

instance : Lasting Intact where
  of_eq := Intact.of_eq
  advance h hn := ⟨h.toEquipped.advance hn, h.toSound.of_eq rfl rfl rfl⟩
  make h e := h.extended (extended_make h.toEquipped e)
  change {_ _ e} h o he hold _ := by
    refine ⟨h.toEquipped.change o he (fun type hobject => ?_) fun hobject => ?_,
      h.toSound.of_eq rfl rfl rfl⟩
    · rw [hobject] at hold
      cases hold
    · rw [hobject] at hold
      cases hold

theorem Intact.stand (h : vm.Intact) {type : TypeId} {id : ObjectId} {e : TypedObject}
    (he : vm.lookup? id = some e) (hobject : e.object = .classObject type) :
    { vm with classes := standing vm.classes type id : Vm }.Intact where
  toEquipped := h.toEquipped.stand he hobject
  toSound := h.toSound.redraw fun c => by split <;> rfl

theorem Intact.inMain (h : vm.Intact) (info : VariableInfo) (this : ObjectId) (v : Value) :
    (vm.inMain info this v).Intact where
  toEquipped := h.toEquipped.inMain info this v
  toSound := by
    let reveal (c : ClassDef) : ClassDef :=
      if c.id = vm.appClass "Main" then
        { c with locals :=
            c.locals.set (vm.mainMethod "run" "()V") [StreamProgram.thisVariable, info] }
      else c
    have hredrawn : { vm with classes := vm.classes.map reveal : Vm }.Sound :=
      h.toSound.redraw fun c => by unfold reveal; split <;> rfl
    exact hredrawn.of_eq rfl rfl rfl

end Vm

/-! ## Orderly commands -/

/-- A debugger in its senses looks classes of arrays up by the names that Java types have, and
defines classes in the program's loader. -/
def Command.Orderly (vm : Vm) : Command → Prop
  | .invokeStatic _ _ _ args _ => ∀ text, vm.stringOf? (arg args 0) = some text →
    text.toList.head? = some '[' → ∃ name : String, IsTypeName name.toList ∧ text = lookupName name
  | .invokeVirtual object _ type method _ _ => ∀ c m, vm.classes.byId? type = some c →
    c.methods.find? (·.id == method) = some m → m.name = "defineClass" → object = vm.appLoader
  | _ => True

namespace Vm

variable {vm vm' : Vm} {α β : Type} {R : Vm → Vm → Prop}

/-- A step that is made of two. -/
theorem yields_lift_modify [Advance R] {m : StateM Vm α} {g : α → Vm → Vm}
    {k : α → VmCommand β} {post : β → Vm → Prop}
    (hstep : R vm (g (m.run vm).1 (m.run vm).2))
    (hk : Yields R (k (m.run vm).1) (g (m.run vm).1 (m.run vm).2) post) :
    Yields R (do let a ← (liftM m : VmCommand α); modify (g a); k a) vm post :=
  ⟨Advance.trans hstep hk.1, hk.2⟩

/-- Whether an invocation ends or gets stuck is noted only. -/
theorem invocation_intact {what : String} {entered : Location} {body : VmCommand InvokeOutcome}
    (hbody : Yields (Retains Intact) body vm) :
    Yields (Retains Intact) (invocation what entered body) vm := by
  have hstall : ∀ vm what, Yields (Retains Intact) (stall what) vm fun _ _ => True :=
    fun vm what => Yields.bind (yields_modify (fun h => h.of_eq rfl rfl rfl rfl rfl)
      (yields_throw _))
  refine Yields.bind (yields_get (yields_ite (fun _ => hstall _ _) fun _ => ?_))
  refine hbody.andThen fun outcome vm₁ _ => Yields.bind (yields_get ?_)
  refine yields_ite (fun _ => hstall _ _) fun _ => yields_ite (fun _ => hstall _ _) fun _ => ?_
  exact Yields.bind (yields_modify (fun h => h.of_eq rfl rfl rfl rfl rfl) (yields_pure trivial))

theorem newInstance_intact (type : TypeId) (method : MethodId) (args : List Value) :
    Yields (Retains Intact) (newInstance type method args) vm := by
  unfold newInstance
  refine (getClass_yields type).andThen fun c vm₁ _ => ?_
  refine (getMethod_yields c method).andThen fun m vm₂ _ => ?_
  extract_lets jp
  refine yields_ite (fun _ => Yields.bind (yields_refuse _)) fun _ => ?_
  refine (requireFitting_yields m.descriptor args).andThen fun _ vm₃ _ => ?_
  refine Yields.bind (yields_get (invocation_intact ?_))
  refine (constructed_yields _ _ _).andThen fun object vm₄ _ => ?_
  exact (made_yields type object).mono fun _ _ _ _ => trivial

/-! ## Classes -/

theorem classValue_intact (type : TypeId) : Yields (Retains Intact) (classValue type) vm := by
  have hclass : Yields (Retains Intact) (classObject type) vm fun _ _ => True := by
    refine (getClass_yields type).andThen fun c vm₁ _ => ?_
    split
    · exact yields_pure trivial
    · refine Yields.bind (yields_get (yields_lift_modify (fun h => ?_) (yields_pure trivial)))
      exact (Lasting.make h _).stand (vm₁.lookup?_make_self _) rfl
  exact hclass.andThen fun _ _ _ => yields_pure trivial

theorem findClass_intact (h : vm.Intact) {name : String} (loader : ObjectId)
    (hname : name.toList.head? = some '[' →
      ∃ java : String, IsTypeName java.toList ∧ name = lookupName java) :
    ((findClass name loader).run vm).2.Intact := by
  by_cases hplain : name.toList.head? = some '['
  · obtain ⟨java, hjava, rfl⟩ := hname hplain
    rcases hjava.lookup_cases with ⟨hmem, hsame⟩ | ⟨component, hcomponent, rfl⟩
    · rw [hsame] at hplain
      exact absurd (List.mem_of_mem_head? hplain) hmem
    · obtain ⟨rest, htoList, hrest⟩ := hcomponent.isComponent.lookupName_array
      cases hfound : vm.classes.bySignature? s!"[{typeNameToSignature component}" with
      | some c =>
          rw [findClass_array_loaded htoList hrest loader hfound]
          exact h
      | none =>
          cases hknown : vm.knowsComponent (typeNameToSignature component) loader with
          | false =>
              rw [findClass_array_unknown htoList hrest loader hfound hknown]
              exact h
          | true =>
              rw [findClass_array_new htoList hrest loader hfound hknown]
              have hnew : ∀ c ∈ vm.classes, c.signature ≠ s!"[{typeNameToSignature component}" :=
                fun c hc => by simpa using List.find?_eq_none.mp hfound c hc
              exact h.extended (extended_declareArray h.toEquipped hcomponent.isComponent hnew)
  · rw [findClass_plain hplain]
    exact h

theorem forName_intact {args : List Value} (hargs : ∀ text, vm.stringOf? (arg args 0) = some text →
      text.toList.head? = some '[' →
        ∃ java : String, IsTypeName java.toList ∧ text = lookupName java) :
    Yields (Retains Intact) (forName args) vm := by
  have htext : Yields (Retains Intact) (textArgument args) vm fun text vm' =>
      vm' = vm ∧ vm.stringOf? (arg args 0) = some text := by
    refine Yields.bind (yields_get ?_)
    split
    · exact yields_pure ⟨rfl, ‹_›⟩
    · exact yields_refuse _
  refine Yields.bind (htext.mono ?_)
  rintro text vm₁ - ⟨rfl, hstring⟩
  refine Yields.bind (yields_run (fun h => findClass_intact h _ (hargs text hstring)) ?_)
  split
  · exact classValue_intact _
  · exact thrown_yields _

theorem loadHelper_intact (args : List Value) :
    Yields (Retains Intact) (loadHelper vm.appLoader args) vm := by
  have htext : Yields (Retains Intact) (textArgument args) vm fun _ vm' => vm' = vm := by
    refine Yields.bind (yields_get ?_)
    split
    · exact yields_pure rfl
    · exact yields_refuse _
  unfold loadHelper
  refine Yields.bind (htext.mono ?_)
  rintro name vm₁ - rfl
  refine Yields.bind (yields_get ?_)
  extract_lets jp
  have hload : ∀ bytes, Yields (Retains Intact) (jp bytes) vm₁ := by
    intro bytes
    refine yields_ite (fun _ => thrown_yields _) fun _ => Yields.bind (yields_get ?_)
    refine yields_ite (fun _ => thrown_yields _) fun hany => ?_
    split
    · exact thrown_yields _
    · rename_i k hk
      obtain rfl : k.name = name := by simpa using List.find?_some hk
      refine yields_lift_modify (fun h => ?_) (classValue_intact _)
      have hnew : vm₁.Lacks k.name := fun c hc hsignature => hany (by
        -- A helper that is loaded was defined by the program's loader.
        have hdeclares := h.helpers c hc k hsignature
        refine List.any_eq_true.mpr ⟨c, hc, ?_⟩
        rw [hdeclares.name, helperSpec_name, hdeclares.loader]
        simp)
      obtain ⟨-, -, -, -, hextended⟩ := extended_define h.toEquipped k hnew
      exact h.extended hextended
  split
  · exact hload _
  · exact Yields.bind (yields_refuse _)

/-! ## Methods -/

theorem newArray_intact {component : String} (hname : IsComponent component)
    (values : List Value) :
    Keeps (Retains Intact) (newArray (typeNameToSignature component) values) := by
  intro vm h
  unfold newArray
  rw [run_get_bind]
  split
  · exact allocValue_keeps (R := Retains Intact) _ _ vm h
  · rename_i hfound
    have hdeclared := extended_declareArray h.toEquipped hname fun c hc heq =>
      absurd heq (by simpa using List.find?_eq_none.mp hfound c hc)
    exact allocValue_keeps (R := Retains Intact) _ _ _ (h.extended hdeclared)

theorem formatMap_intact (method : String) (map : Value) :
    Yields (Retains Intact) (formatMap method map) vm := by
  have hint : ("I" : String) = typeNameToSignature "int" := componentOf_eq .int
  have hobject : ("Ljava/lang/Object;" : String) = typeNameToSignature ClassName.object :=
    componentOf_eq .object
  have hintName : IsComponent "int" := isComponent_componentName .int
  have hobjectName : IsComponent ClassName.object := isComponent_componentName .object
  unfold formatMap
  rw [hint, hobject]
  refine (mapArgument_yields map).andThen fun id vm₁ _ => ?_
  refine (getEntry_yields id).andThen fun e vm₂ _ => ?_
  split
  · extract_lets element
    rw [componentOf_eq]
    refine Yields.bind (yields_lift (materializeAll_keeps _ _) fun vm₃ _ => ?_)
    refine Yields.bind (yields_lift (newArray_intact hintName _) fun vm₄ _ => ?_)
    have hcomponent := isComponent_componentName
    refine Yields.bind (yields_lift (newArray_intact (hcomponent _) _) fun vm₅ _ => ?_)
    exact Yields.bind (yields_lift (newArray_intact hobjectName _) fun vm₆ _ => yields_pure trivial)
  · exact yields_refuse _

theorem invokeStatic_intact {type : TypeId} {method : MethodId} {args : List Value}
    (hargs : ∀ text, vm.stringOf? (arg args 0) = some text → text.toList.head? = some '[' →
      ∃ java : String, IsTypeName java.toList ∧ text = lookupName java) :
    Yields (Retains Intact) (invoke none type method args) vm := by
  unfold invoke
  refine Yields.bind ((getClass_yields type).mono ?_)
  rintro c vm₁ - ⟨rfl, -⟩
  refine Yields.bind ((getMethod_yields c method).mono ?_)
  rintro m vm₂ - ⟨rfl, -⟩
  extract_lets what jp
  refine yields_ite (fun _ => Yields.bind (yields_refuse _)) fun _ => ?_
  refine Yields.bind ((requireFitting_yields m.descriptor args).mono ?_)
  rintro - vm₃ - ⟨rfl, -⟩
  refine Yields.bind (yields_get (invocation_intact ?_))
  exact yields_ite (fun _ => forName_intact hargs) fun _ =>
    yields_ite (fun _ => formatMap_intact _ _) fun _ => yields_refuse _

theorem invokeVirtual_intact {id : ObjectId} {type : TypeId} {method : MethodId}
    {args : List Value} (hloader : ∀ c m, vm.classes.byId? type = some c →
      c.methods.find? (·.id == method) = some m → m.name = "defineClass" → id = vm.appLoader) :
    Yields (Retains Intact) (invoke (some id) type method args) vm := by
  unfold invoke
  refine Yields.bind ((getClass_yields type).mono ?_)
  rintro c vm₁ - ⟨rfl, hc⟩
  refine Yields.bind ((getMethod_yields c method).mono ?_)
  rintro m vm₂ - ⟨rfl, hm⟩
  extract_lets what jp
  refine yields_ite (fun _ => Yields.bind (yields_refuse _)) fun _ => ?_
  refine Yields.bind ((requireFitting_yields m.descriptor args).mono ?_)
  rintro - vm₃ - ⟨rfl, -⟩
  refine Yields.bind ((getEntry_yields id).mono ?_)
  rintro e vm₄ - ⟨rfl, -⟩
  extract_lets runtime
  refine Yields.bind (yields_get ?_)
  extract_lets jp'
  refine yields_ite (fun _ => Yields.bind (yields_refuse _)) fun _ => invocation_intact ?_
  refine yields_ite (fun hname => ?_) fun _ => ?_
  · rw [hloader c m hc hm hname]
    exact loadHelper_intact args
  · exact (runMethod_yields (fun _ _ _ o he hold hnew h => Lasting.change h o he hold hnew)
      id _ _ args).mono fun _ _ _ _ => trivial

/-! ## Answers -/

/-- An intact machine stays so under every orderly command. -/
theorem Intact.answer (h : vm.Intact) {c : Command} (hc : c.Orderly vm) :
    (vm.answer c).2.Intact := by
  have hchange : ∀ (vm : Vm) (id : ObjectId) (e : TypedObject) (o : HeapObject),
      vm.lookup? id = some e → e.object.isMutable = true → o.isMutable = true →
        Retains Intact vm { vm with heap := vm.heap.set id { e with object := o } } :=
    fun _ _ _ o he hold hnew h => Lasting.change h o he hold hnew
  have hpins : ∀ (vm : Vm) pins, Retains Intact vm { vm with pins } := fun _ _ h =>
    h.of_eq rfl rfl rfl rfl rfl
  have hresumed : ∀ r : Except JdwpError Unit × Vm, (r = if vm.dead then
      (.error .connectionClosed, vm) else (.ok (), { vm with suspended := false })) →
        r.2.Intact := by
    rintro r rfl
    split
    · exact h
    · exact h.of_eq rfl rfl rfl rfl rfl
  -- What is not named here goes through the lemma that the handlers share.
  cases c with
  | invokeStatic type thread method args options =>
      exact (stopped_then fun _ => invokeStatic_intact hc : Yields (Retains Intact) _ vm _).1 h
  | invokeVirtual object thread type method args options =>
      exact (stopped_then fun _ => invokeVirtual_intact hc : Yields (Retains Intact) _ vm _).1 h
  | newInstance type thread method args options =>
      exact (stopped_then fun _ => newInstance_intact type method args :
        Yields (Retains Intact) _ vm _).1 h
  | disableCollection object =>
      exact (alive_then fun _ => (getEntry_yields object).andThen fun _ vm' _ =>
        yields_modify (hpins vm' _) trivial : Yields (Retains Intact) _ vm fun _ _ => True).1 h
  | enableCollection object =>
      refine (alive_then fun _ => (getEntry_yields object).andThen fun _ vm' _ =>
        yields_modify ?_ trivial : Yields (Retains Intact) _ vm fun _ _ => True).1 h
      split
      · exact Advance.refl vm'
      · split <;> exact hpins vm' _
  | clearRequest kind request =>
      rw [answer_clearRequest]
      split
      · exact h
      · exact h.of_eq rfl rfl rfl rfl rfl
  | setRequest kind policy modifiers =>
      rw [answer_setRequest]
      split
      · exact h
      · show ((installRequest kind modifiers).run vm).2.Intact
        unfold installRequest
        simp only [StateT.run, modifyGet, MonadStateOf.modifyGet, StateT.modifyGet]
        split <;> exact h.of_eq rfl rfl rfl rfl rfl
  | setSlots thread frame values =>
      obtain ⟨frames, noted, hvm, -⟩ := answer_setSlots vm thread frame values
      rw [hvm]
      exact h.of_eq rfl rfl rfl rfl rfl
  | forceReturn thread v =>
      rcases answer_forceReturn vm thread v with hvm | hvm
      · rw [hvm]
        exact h
      · rw [hvm]
        exact h.of_eq rfl rfl rfl rfl rfl
  | resumeVm => exact hresumed _ (answer_resumeVm vm)
  | resumeThread thread =>
      by_cases hthread : thread = mainThread
      · rw [hthread]
        exact hresumed _ (answer_resumeThread vm)
      · rw [answer_resumeThread_of_ne vm hthread]
        exact h
  | _ => exact (handling_yields hchange rfl rfl : Yields (Retains Intact) _ vm).1 h

end Vm

/-! ## Programs under a debugger -/

/-- How far a program has come under a debugger: it was launched, the thread goes on from where it
stopped, and wherever it stands, events are handed on, commands are carried out, the machine may be
told to reject replaced values, and it may be killed. -/
inductive StreamProgram.Reachable (p : StreamProgram) : Run Unit → Prop
  | launch : p.Reachable p.launch
  | resume {vm : Vm} {resume : Vm → Run Unit} (before : p.Reachable (.waiting vm resume)) :
      p.Reachable (resume vm)
  | command {vm : Vm} {resume : Vm → Run Unit} (c : Command)
      (before : p.Reachable (.waiting vm resume)) (orderly : c.Orderly vm) :
      p.Reachable (.waiting (vm.answer c).2 resume)
  | handOn {vm : Vm} {resume : Vm → Run Unit} (before : p.Reachable (.waiting vm resume)) :
      p.Reachable (.waiting { vm with outbox := [] } resume)
  | reject {vm : Vm} {resume : Vm → Run Unit} (rejects : Bool)
      (before : p.Reachable (.waiting vm resume)) :
      p.Reachable (.waiting { vm with rejectsForcedReturns := rejects } resume)
  | kill {vm : Vm} {resume : Vm → Run Unit} (before : p.Reachable (.waiting vm resume)) :
      p.Reachable (.waiting vm.kill resume)

/-- The machine of a program is intact under an orderly debugger, and stays so when the program
goes on. -/
theorem StreamProgram.Reachable.always {p : StreamProgram} {r : Run Unit} (h : p.Reachable r) :
    r.Always Intact := by
  induction h with
  | launch => exact p.launch_lasts ⟨booted_equipped, booted_sound⟩ fun vm hvm => hvm.inMain
  | resume _ ih => exact ih.2 _ ih.1
  | command c _ orderly ih => exact ⟨ih.1.answer orderly, ih.2⟩
  | handOn _ ih => exact ⟨ih.1.of_eq rfl rfl rfl rfl rfl, ih.2⟩
  | reject rejects _ ih => exact ⟨ih.1.of_eq rfl rfl rfl rfl rfl, ih.2⟩
  | kill _ ih =>
      refine ⟨?_, ih.2⟩
      unfold Vm.kill
      split
      · exact ih.1
      · exact ih.1.of_eq rfl rfl rfl rfl rfl

theorem StreamProgram.Reachable.intact {p : StreamProgram} {r : Run Unit} (h : p.Reachable r) :
    r.vm.Intact := by
  have halways := h.always
  cases r with
  | ended _ _ => exact halways
  | waiting _ _ => exact halways.1

end StreamTrace
