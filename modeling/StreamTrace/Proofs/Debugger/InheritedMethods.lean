import StreamTrace.Proofs.Debugger.HelperDefinitions
import StreamTrace.Proofs.Debugger.TypeSearch
import StreamTrace.Proofs.Debugger.WorldResults
import StreamTrace.Proofs.Machine.IntactMachine
import StreamTrace.Proofs.Machine.InvocationReceivers

/-!
# Methods that a type has or inherits

On every target that keeps to what it says about its types, the bridge finds a method at the nearest
type that declares it, and knows of which types a value is an instance. A machine is such a target,
and it accepts an invocation of the method that was found.
-/

namespace StreamTrace

open Routine

namespace Vm

variable {vm vm' : Vm} {c : ClassDef} {start type : TypeId}

/-- What the machine says about its types. -/
def hierarchy (vm : Vm) : Hierarchy where
  superclass type :=
    match vm.classes.byId? type with
    | some c => if c.isInterface then .error ErrorCode.invalidClass else .ok c.superclass
    | none => .error ErrorCode.invalidClass
  interfaces type := ((vm.classes.byId? type).map (·.interfaces)).getD []
  methods type := ((vm.classes.byId? type).map (·.methodInfos)).getD []
  signature type := ((vm.classes.byId? type).map (·.signature)).getD ""

theorem above_hierarchy (hc : vm.classes.byId? type = some c) : vm.hierarchy.above type =
    (if c.isInterface then none else c.superclass).toList ++ c.interfaces := by
  unfold Hierarchy.above hierarchy
  simp only [hc]
  cases c.isInterface <;> rfl

theorem above_hierarchy_none (hnone : vm.classes.byId? type = none) :
    vm.hierarchy.above type = [] := by
  unfold Hierarchy.above hierarchy
  simp [hnone]

/-- What the machine says to lie above a type lies above it in every machine that comes of this
one. -/
theorem above_subset (hextended : vm.Extended vm') (type : TypeId) :
    vm.hierarchy.above type ⊆ vm'.classes.up type := by
  intro t ht
  cases hc : vm.classes.byId? type with
  | none =>
      rw [above_hierarchy_none hc] at ht
      cases ht
  | some c =>
      rw [above_hierarchy hc] at ht
      obtain ⟨c', hc', hstays⟩ := hextended.classes c (List.mem_of_find?_eq_some hc)
      obtain rfl : c.id = type := by simpa using List.find?_some hc
      unfold ClassTable.up
      rw [← hstays.id, hextended.equipped.distinct.byId? hc', hstays.same]
      rcases List.mem_append.mp ht with hsuper | hinterface
      · refine List.mem_append_left _ ?_
        split at hsuper
        · cases hsuper
        · exact hsuper
      · exact List.mem_append_right _ hinterface

/-- Only loaded types lie above one that is loaded. -/
theorem loaded_of_reached (h : vm.Intact) (hc : c ∈ vm.classes) {n : Nat}
    (ht : Reached vm.hierarchy.above c.id n type) : ∃ c' ∈ vm.classes, c'.id = type := by
  induction ht with
  | start => exact ⟨c, hc, rfl⟩
  | step _ next _ =>
      exact List.mem_map.mp (h.closed.up (above_subset (.refl h.toEquipped) _ next))

/-- A machine that is alive answers so, and stays as it is. -/
theorem replies_of_does {q : Command} {r : q.Reply}
    (h : (respond q).Does vm fun r' vm' => r' = r ∧ vm' = vm) :
    Replies Vm.answer (· = vm) q (.ok r) := by
  rintro _ rfl
  obtain ⟨r', vm', hrun, rfl, rfl⟩ := h
  exact ⟨vm', rfl, hrun⟩

/-- A machine keeps to what it says about its types. -/
theorem Intact.reports (h : vm.Intact) (hdead : vm.dead = false) (hc : c ∈ vm.classes) :
    vm.hierarchy.Reports Vm.answer (· = vm) c.id := by
  have hloaded : ∀ {n t}, Reached vm.hierarchy.above c.id n t →
      ∃ d ∈ vm.classes, d.id = t ∧ vm.classes.byId? t = some d := fun ht => by
    obtain ⟨d, hd, rfl⟩ := loaded_of_reached h hc ht
    exact ⟨d, hd, rfl, h.distinct.byId? hd⟩
  constructor
  · intro n t ht
    obtain ⟨d, hd, rfl, hid⟩ := hloaded ht
    unfold hierarchy
    simp only [hid]
    cases hinterface : d.isInterface with
    | true =>
        rintro _ rfl
        exact ⟨_, rfl, refuses_superclass h.toEquipped hdead hd hinterface⟩
    | false => exact replies_of_does (does_superclass h.toEquipped hdead hd hinterface)
  · intro n t ht
    obtain ⟨d, hd, rfl, hid⟩ := hloaded ht
    unfold hierarchy
    simp only [hid]
    exact replies_of_does (does_typeInterfaces h.toEquipped hdead hd)
  · intro n t ht
    obtain ⟨d, hd, rfl, hid⟩ := hloaded ht
    unfold hierarchy
    simp only [hid]
    exact replies_of_does (does_typeMethods h.toEquipped hdead hd)
  · intro n t ht
    obtain ⟨d, hd, rfl, hid⟩ := hloaded ht
    unfold hierarchy
    simp only [hid]
    exact replies_of_does (does_typeSignature h.toEquipped hdead hd)

/-- A command about a type that is not loaded is refused. -/
theorem refuses_unloaded {α : Type} {f : ClassDef → VmCommand α} (hdead : vm.dead = false)
    (hnone : vm.classes.byId? type = none) :
    (do alive; f (← getClass type) : VmCommand α).Refuses vm ErrorCode.invalidClass :=
  VmCommand.Refuses.behind (alive_does hdead) (getClass_refuses hnone).bind

/-- Nothing is found from a type that is not loaded. -/
theorem method_unloaded (hdead : vm.dead = false) (hnone : vm.classes.byId? start = none)
    {s : BridgeState} (hs : s.Recalls vm.hierarchy) (name descriptor : String) :
    (Bridge.method start name descriptor).Meets (.talk Vm.answer) (fun _ _ _ => False)
      (fun _ _ _ => True) s { debuggee := vm } := by
  have hmethods : vm.answer (.typeMethods start) = (.error (.vm ErrorCode.invalidClass), vm) :=
    refuses_unloaded hdead hnone
  have hinterfaces : vm.answer (.typeInterfaces start) =
      (.error (.vm ErrorCode.invalidClass), vm) := refuses_unloaded hdead hnone
  have hsuperclass : Replies Vm.answer (· = vm) (.superclass start)
      (.error (.vm ErrorCode.invalidClass)) := by
    rintro _ rfl
    exact ⟨_, rfl, refuses_unloaded hdead hnone⟩
  obtain ⟨fuel, hfuel⟩ := Bridge.typeSearchBound_eq
  unfold Bridge.method
  rw [hfuel]
  refine Routine.meets_bind.mpr (Routine.meets_bind.mpr (Routine.meets_bind.mpr
    (Routine.meets_bind.mpr (Routine.meets_get.mpr ?_))))
  cases hknown : s.methods.get? start with
  | some infos =>
      have hempty : infos = [] := by
        rw [hs.methods start infos hknown]
        simp [hierarchy, hnone]
      subst hempty
      refine Routine.meets_pure.mpr (Routine.meets_pure.mpr (Routine.meets_bind.mpr ?_))
      refine (Bridge.searchYields_answer (h := vm.hierarchy) hsuperclass).meets_bind hs rfl
        fun s' w' hs' hw' _ => ?_
      refine Routine.meets_bind.mpr (Routine.meets_pure.mpr (Routine.meets_bind.mpr ?_))
      exact Routine.meets_talk_refused (hw' ▸ hinterfaces) trivial
  | none => exact Routine.meets_bind.mpr (Routine.meets_talk_refused hmethods trivial)

theorem isStatic_modifierBits (m : MethodDef) : m.info.isStatic = m.isStatic := by
  show (ClassDef.modifierBits m &&& staticModifier != 0) = m.isStatic
  unfold ClassDef.modifierBits
  cases m.isStatic <;> decide

/-- A method that is not static, of a type that is reached from the receiver's, is no invalid one in
any machine that comes of this one. -/
theorem Intact.receives (h : vm.Intact) (hc : c ∈ vm.classes) {id : ObjectId} {object : HeapObject}
    (hobject : vm.lookup? id = some { type := c.id, object }) {n : Nat} {declaring : TypeId}
    (hdeclaring : Reached vm.hierarchy.above c.id n declaring) {m : MethodInfo}
    (hm : m ∈ vm.hierarchy.methods declaring) (hstatic : m.isStatic = false)
    (hextended : vm.Extended vm') (thread : ThreadId) (args : List Value) (options : UInt32) :
    (vm'.answer (.invokeVirtual id thread declaring m.methodId args options)).1 ≠
      .error (.vm ErrorCode.invalidMethod) := by
  obtain ⟨d, hd, rfl⟩ := loaded_of_reached h hc hdeclaring
  obtain ⟨code, hcode, rfl⟩ : ∃ code ∈ d.methods, code.info = m := by
    have hlisted : vm.hierarchy.methods d.id = d.methods.map MethodDef.info := by
      show ((vm.classes.byId? d.id).map (·.methodInfos)).getD [] = _
      rw [h.distinct.byId? hd]
      rfl
    rw [hlisted] at hm
    exact List.mem_map.mp hm
  obtain ⟨c', hc', hstays⟩ := hextended.classes c hc
  obtain ⟨d', hd', hstays'⟩ := hextended.classes d hd
  have hintact := h.extended hextended
  have hfound : d'.methods.find? (·.id == code.id) = some code := by
    rw [hstays'.methods]
    exact find?_of_nodup (h.methods d hd) hcode
  have hsubtype : vm'.classes.isSubtype c.id d.id = true := by
    refine hintact.closed.isSubtype ?_ (hdeclaring.mono (above_subset hextended))
    exact List.mem_map.mpr ⟨c', hc', hstays.id⟩
  refine invokeVirtual_spares (hextended.objects hobject) (hstays'.id ▸ hintact.distinct.byId? hd')
    hfound ?_ hsubtype thread args options
  rw [← isStatic_modifierBits]
  exact hstatic

/-- What the bridge finds from the receiver's own type is no invalid method, unless it is static. -/
theorem Intact.receives_found (h : vm.Intact) {s : BridgeState} (hs : s.Recalls vm.hierarchy)
    {id : ObjectId} {e : TypedObject} (he : vm.lookup? id = some e) {name descriptor : String}
    {declaring : TypeId} {m : MethodInfo} {s' : BridgeState} {w : Talk Vm}
    (htalk : (Bridge.method e.type name descriptor).talk Vm.answer s vm =
      ((.ok (declaring, m), s'), w)) (hstatic : m.isStatic = false) :
    (vm.dead = false → w.debuggee = vm) ∧ ∀ vm', vm.Extended vm' → ∀ thread args options,
      (vm'.answer (.invokeVirtual id thread declaring m.methodId args options)).1 ≠
        .error (.vm ErrorCode.invalidMethod) := by
  cases hdead : vm.dead with
  | true =>
      exact ⟨nofun, fun vm' hextended thread args options =>
        invokeVirtual_dead (hextended.dead.trans hdead) id thread declaring m.methodId args options⟩
  | false =>
      cases hc : vm.classes.byId? e.type with
      | none =>
          rcases (method_unloaded hdead hc hs name descriptor).talk with
            ⟨_, _, _, -, hno⟩ | ⟨_, _, _, hfailed, -⟩
          · exact hno.elim
          · rw [htalk] at hfailed
            cases hfailed
      | some c =>
          obtain hid : c.id = e.type := by simpa using List.find?_some hc
          have hmem := List.mem_of_find?_eq_some hc
          have hobject : vm.lookup? id = some { type := c.id, object := e.object } := by
            rw [he, hid]
          rw [← hid] at htalk
          rcases (Bridge.method_finds (w := { debuggee := vm }) (h.reports hdead hmem) hs rfl name
            descriptor).talk with ⟨_, _, _, hfound, hfinds, -, hsame, -⟩ | ⟨_, _, _, hfailed, -⟩
          · rw [htalk] at hfound
            cases hfound
            cases hfinds with
            | found hreached hdeclares _ _ _ =>
                exact ⟨fun _ => hsame, fun vm' hextended =>
                  h.receives hmem hobject hreached hdeclares
                  hstatic hextended⟩
          · rw [htalk] at hfailed
            cases hfailed

end Vm

/-- From a type of a target that keeps to what it says, the bridge finds a method at the nearest
type that declares it, or says that none does; and it finds out whether a value of the type is an
instance of another one. It asks for what lies above a type at most once, so a search ends in
whatever hierarchy. A machine never calls a method invalid that was found from the receiver's own
type and is not static. The signatures that are reported are texts of a virtual machine, as said at
`Hierarchy`. -/
theorem Hierarchy.Reports.searched {τ : Type} {answer : Answering τ} {I : τ → Prop}
    {h : Hierarchy} {start : TypeId} (hreports : h.Reports answer I start)
    (hids : ∀ n t, Reached h.above start n t → t < UInt64.size) {g : τ} (hg : I g)
    {s : BridgeState} (hs : s.Recalls h) :
    (∀ name descriptor, ∃ found s' w,
      (Bridge.method start name descriptor).talk answer s g = ((found, s'), w) ∧
        h.Finds start name descriptor found ∧
        w.climbed.Nodup ∧ ∀ t ∈ w.climbed, ∃ n, Reached h.above start n t) ∧
    (∀ v expected, (∀ id, v.objectId? = some id → Replies answer I (.objectType id) (.ok start)) →
      ∃ found s' w, (Bridge.isInstanceOf v expected).talk answer s g = ((.ok found, s'), w) ∧
        (found = true ↔ v.objectId? ≠ none ∧
          ∃ n t, Reached h.above start n t ∧ h.name t = expected) ∧
        w.climbed.Nodup ∧ ∀ t ∈ w.climbed, ∃ n, Reached h.above start n t) ∧
    (∀ (p : StreamProgram) (r : Run Unit) (s : BridgeState) (id : ObjectId) (e : TypedObject)
      (name descriptor : String) (declaring : TypeId) (m : MethodInfo) (s' : BridgeState)
      (w : Talk Vm), p.Reachable r → s.Recalls r.vm.hierarchy → r.vm.lookup? id = some e →
      (Bridge.method e.type name descriptor).talk Vm.answer s r.vm = ((.ok (declaring, m), s'), w) →
      m.isStatic = false → (r.vm.dead = false → w.debuggee = r.vm) ∧
        ∀ vm', r.vm.Extended vm' → ∀ thread args options,
          (vm'.answer (.invokeVirtual id thread declaring m.methodId args options)).1 ≠
            .error (.vm ErrorCode.invalidMethod)) := by
  have honce : ∀ w : Talk τ, h.ClimbsOnce start { debuggee := g } w →
      w.climbed.Nodup ∧ ∀ t ∈ w.climbed, ∃ n, Reached h.above start n t := by
    rintro w ⟨climbed, hclimbed, hrest⟩
    rw [hclimbed]
    exact hrest
  refine ⟨fun name descriptor => ?_, fun v expected hobject => ?_, ?_⟩
  · rcases (Bridge.method_finds (w := { debuggee := g }) hreports hs hg name descriptor).talk with
      ⟨found, s', w, htalk, hfinds, -, -, hclimbs⟩ | ⟨e, s', w, htalk, hfinds, -, -, hclimbs⟩
    · exact ⟨_, s', w, htalk, hfinds, honce w hclimbs⟩
    · exact ⟨_, s', w, htalk, hfinds hids, honce w hclimbs⟩
  · obtain ⟨found, s', w, htalk, hfound, -, -, hclimbs⟩ :=
      (Bridge.isInstanceOf_finds (w := { debuggee := g }) hreports hs hg hids hobject
        expected).talk_ok
    exact ⟨found, s', w, htalk, hfound, honce w hclimbs⟩
  · intro p r s id e name descriptor declaring m s' w hreach hs he htalk hstatic
    exact hreach.intact.receives_found hs he htalk hstatic

/-- Four types: a class below another class and an interface, both below a class that lies below the
first one. -/
def ringOfTypes : Hierarchy where
  superclass
    | 1 => .ok (some 2)
    | 2 => .ok (some 4)
    | 3 => .error ErrorCode.invalidClass
    | 4 => .ok (some 1)
    | _ => .ok none
  interfaces
    | 1 => [3]
    | 3 => [4]
    | _ => []
  methods
    | 4 => [{ methodId := 40, name := "size", signature := "()I", modifiers := 1 }]
    | _ => []
  signature type := s!"Lp/T{type};"

/-- A target that says so, and whose objects are all of the first type. -/
def ringAnswers : Answering Unit
  | _, .superclass type => ((ringOfTypes.superclass type).mapError .vm, ())
  | _, .typeInterfaces type => (.ok (ringOfTypes.interfaces type), ())
  | _, .typeMethods type => (.ok (ringOfTypes.methods type), ())
  | _, .typeSignature type => (.ok (ringOfTypes.signature type), ())
  | _, .objectType _ => (.ok (1 : TypeId), ())
  | _, _ => (.error .connectionClosed, ())

theorem ringOfTypes_reports : ringOfTypes.Reports ringAnswers (fun _ => True) 1 where
  superclass _ := fun _ _ => ⟨(), trivial, rfl⟩
  interfaces _ := fun _ _ => ⟨(), trivial, rfl⟩
  methods _ := fun _ _ => ⟨(), trivial, rfl⟩
  signature _ := fun _ _ => ⟨(), trivial, rfl⟩

theorem ringOfTypes_reached {n : Nat} {t : TypeId} (ht : Reached ringOfTypes.above 1 n t) :
    t ∈ [1, 2, 3, 4] := by
  have hclosed : ∀ t ∈ [1, 2, 3, 4], ∀ u ∈ ringOfTypes.above t, u ∈ [1, 2, 3, 4] := by decide
  induction ht with
  | start => decide
  | step _ next ih => exact hclosed _ ih _ next

theorem Hierarchy.Reports.searched_of_ring : ringOfTypes.Reports ringAnswers (fun _ => True) 1 ∧
    (∀ n t, Reached ringOfTypes.above 1 n t → t < UInt64.size) ∧
    ({} : BridgeState).Recalls ringOfTypes ∧
    (∃ found s' w, (Bridge.method 1 "size" "()I").talk ringAnswers {} () = ((found, s'), w) ∧
      ringOfTypes.Finds 1 "size" "()I" found ∧ w.climbed.Nodup) ∧
    (∃ found s' w, (Bridge.isInstanceOf (.object 7) "p.T4").talk ringAnswers {} () =
        ((.ok found, s'), w) ∧
      (found = true ↔ (Value.object 7).objectId? ≠ none ∧
        ∃ n t, Reached ringOfTypes.above 1 n t ∧ ringOfTypes.name t = "p.T4")) ∧
    ∃ (r : Run Unit) (e : TypedObject) (declaring : TypeId) (m : MethodInfo) (s' : BridgeState)
      (w : Talk Vm), (StreamProgram.objects [.int 5]).Reachable r ∧
      r.vm.lookup? r.vm.appLoader = some e ∧
      (Bridge.method e.type "defineClass" Bridge.defineClassDescriptor).talk Vm.answer {} r.vm =
        ((.ok (declaring, m), s'), w) ∧ m.isStatic = false ∧
      ∀ args, (r.vm.answer (.invokeVirtual r.vm.appLoader mainThread declaring m.methodId args
        0)).1 ≠ .error (.vm ErrorCode.invalidMethod) := by
  have hids : ∀ n t, Reached ringOfTypes.above 1 n t → t < UInt64.size := fun n t ht => by
    have hall : ∀ t ∈ [1, 2, 3, 4], t < UInt64.size := by decide
    exact hall t (ringOfTypes_reached ht)
  have hrecalls := BridgeState.recalls_empty ringOfTypes
  obtain ⟨hfinds, hinstance, hreceives⟩ :=
    Hierarchy.Reports.searched ringOfTypes_reports hids (g := ()) trivial hrecalls
  obtain ⟨found, s₁, w₁, htalk₁, hfound, hnodup, -⟩ := hfinds "size" "()I"
  obtain ⟨found', s₂, w₂, htalk₂, hfound', -⟩ := hinstance (.object 7) "p.T4"
    fun _ _ => fun _ _ => ⟨(), trivial, rfl⟩
  refine ⟨ringOfTypes_reports, hids, hrecalls, ⟨found, s₁, w₁, htalk₁, hfound, hnodup⟩,
    ⟨found', s₂, w₂, htalk₂, hfound'⟩, ?_⟩
  have hbegins := (StreamProgram.objects [.int 5]).launch_atStatement.1
  have hreach : (StreamProgram.objects [.int 5]).Reachable
    (StreamProgram.objects [.int 5]).launch :=
    .launch
  generalize (StreamProgram.objects [.int 5]).launch = r at hbegins hreach
  have hvm := hreach.intact.toEquipped
  have hunwatched : r.vm.Unwatched := by
    intro q hq
    rw [hbegins.requests] at hq
    cases hq
  let b : Bridge :=
    { thread := mainThread, frameClass := r.vm.appClass "Main", classFiles := HelperClass.files
      singleThreaded := true }
  have hready : b.Ready {} r.vm := Bridge.ready_of_equipped hvm ⟨hbegins.alive, hbegins.suspended⟩
    hunwatched rfl rfl rfl
  obtain ⟨c, hc, d, hd, hobject, hclass, hsuper, hnone, code, hcode, hmethod, hspec⟩ :=
    Bridge.loader_inherits hvm
  have hlearns := Bridge.method_inherited hready hc hclass hd hsuper hnone hmethod
  obtain ⟨_, s', w, htalk, -, -, rfl, -⟩ :=
    (Routine.Meets.of_machine (w := { debuggee := r.vm }) hlearns).talk_ok
  have hstatic : code.info.isStatic = false := by
    rw [Vm.isStatic_modifierBits]
    exact congrArg (·.2.2) hspec
  obtain ⟨-, hspares⟩ := hreceives (StreamProgram.objects [.int 5]) r {} r.vm.appLoader
    { type := c.id, object := .classLoader } "defineClass" Bridge.defineClassDescriptor d.id
    code.info s' w hreach (BridgeState.recalls_empty _) hobject htalk hstatic
  exact ⟨r, _, d.id, code.info, s', w, hreach, hobject, htalk, hstatic,
    fun args => hspares r.vm (.refl hvm) mainThread args 0⟩

end StreamTrace
