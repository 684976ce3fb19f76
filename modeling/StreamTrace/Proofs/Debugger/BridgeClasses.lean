import StreamTrace.Proofs.Debugger.BridgeSpecs

/-!
# The bridge and the classes

What the bridge asks about types and methods, and how it comes by a class: one that is loaded, one
that the program's loader finds, or a helper that it defines. Questions are asked once, and what
was answered stays true.
-/

namespace StreamTrace

open Routine Vm

namespace Vm.Equipped

variable {vm : Vm} {c : ClassDef}

theorem typeName_of_component (hvm : vm.Equipped) (hc : c ∈ vm.classes)
    (hname : IsComponent c.name) : c.typeName = c.name := by
  unfold ClassDef.typeName
  rw [hvm.distinct.spelled c hc, hname.signatureToTypeName?]
  rfl

end Vm.Equipped

theorem IsComponent.typeName_array {c : ClassDef} {name : String} (hname : IsComponent name)
    (hc : c.signature = typeNameToSignature s!"{name}[]") : c.typeName = s!"{name}[]" := by
  unfold ClassDef.typeName
  rw [hc, typeNameToSignature_array, hname.signatureToTypeName?_array]
  rfl

/-- What the bridge is told about a method. -/
def MethodDef.info (m : MethodDef) : MethodInfo :=
  { methodId := m.id, name := m.name, signature := m.descriptor
    modifiers := ClassDef.modifierBits m }

theorem ClassDef.find?_methodInfos (c : ClassDef) (name descriptor : String) :
    (c.methodInfos.find? fun m => m.name == name && m.signature == descriptor) =
      (c.method? name descriptor).map MethodDef.info :=
  List.find?_map

namespace Bridge

variable {α : Type} {b : Bridge} {s : BridgeState} {vm : Vm} {post : α → Vm → Prop}
  {c : ClassDef}

/-! ## Questions about types -/

theorem typeName_learns (hready : b.Ready s vm) (hc : c ∈ vm.classes) :
    b.Learns (typeName c.id) s vm c.typeName := by
  refine achieves_get_bind ?_
  cases hknown : s.typeNames.get? c.id with
  | some name =>
      obtain ⟨c', hc', hid, rfl⟩ := hready.fits.typeNames _ _ hknown
      rw [hready.equipped.distinct.eq_of_id hc' hc hid]
      exact learns_pure hready _
  | none =>
      refine Learns.bind (learns_command hready rfl
        (does_typeSignature hready.equipped hready.halted.alive hc)) fun s' hready' => ?_
      refine achieves_modify_bind (achieves_pure (hready'.learn ?_) ⟨rfl, rfl⟩)
      refine { hready'.fits with typeNames := fun type name hname => ?_ }
      change (s'.typeNames.set c.id c.typeName).get? type = some name at hname
      rw [Table.get?_set] at hname
      split at hname
      · cases hname
        exact ⟨c, hc, ‹_›, rfl⟩
      · exact hready'.fits.typeNames type name hname

theorem methodsOf_learns (hready : b.Ready s vm) (hc : c ∈ vm.classes) :
    b.Learns (methodsOf c.id) s vm c.methodInfos := by
  refine achieves_get_bind ?_
  cases hknown : s.methods.get? c.id with
  | some infos =>
      obtain ⟨c', hc', hid, rfl⟩ := hready.fits.methods _ _ hknown
      rw [hready.equipped.distinct.eq_of_id hc' hc hid]
      exact learns_pure hready _
  | none =>
      refine Learns.bind (learns_command hready rfl
        (does_typeMethods hready.equipped hready.halted.alive hc)) fun s' hready' => ?_
      refine achieves_modify_bind (achieves_pure (hready'.learn ?_) ⟨rfl, rfl⟩)
      refine { hready'.fits with methods := fun type infos hinfos => ?_ }
      change (s'.methods.set c.id c.methodInfos).get? type = some infos at hinfos
      rw [Table.get?_set] at hinfos
      split at hinfos
      · cases hinfos
        exact ⟨c, hc, ‹_›, rfl⟩
      · exact hready'.fits.methods type infos hinfos

theorem supertypes_learns (hready : b.Ready s vm) (hc : c ∈ vm.classes)
    (hclass : c.isInterface = false) :
    b.Learns (supertypes c.id) s vm (c.superclass.toList ++ c.interfaces) := by
  refine Learns.bind (learns_answer hready rfl
    (does_superclass hready.equipped hready.halted.alive hc hclass)) fun s' hready' => ?_
  refine achieves_pure_bind (Learns.bind (learns_command hready' rfl
    (does_typeInterfaces hready'.equipped hready'.halted.alive hc)) fun s'' hready'' => ?_)
  exact learns_pure hready'' _

/-! ## Searching -/

section

variable {look : TypeId → BridgeRoutine (Option α)} {fuel : Nat} {seen queue rest : List TypeId}
  {type : TypeId} (hqueue : queue.dropWhile (· ∈ seen) = type :: rest)

include hqueue

theorem searchTypes_found {a : α} (hlook : b.Learns (look type) s vm (some a)) :
    b.Learns (searchTypes look (fuel + 1) seen queue) s vm (some a) := by
  unfold searchTypes
  rw [hqueue]
  exact hlook.bind fun s' hready' => learns_pure hready' _

theorem searchTypes_next {a : Option α} {above : List TypeId}
    (hlook : b.Learns (look type) s vm none)
    (habove : ∀ s', b.Ready s' vm → b.Learns (supertypes type) s' vm above)
    (hnext : ∀ s', b.Ready s' vm →
      b.Learns (searchTypes look fuel (type :: seen) (rest ++ above)) s' vm a) :
    b.Learns (searchTypes look (fuel + 1) seen queue) s vm a := by
  unfold searchTypes
  rw [hqueue]
  exact hlook.bind fun s' hready' => (habove s' hready').bind hnext

end

/-- A search looks at three types at least. -/
theorem typeSearchBound_eq : ∃ fuel, typeSearchBound = fuel + 3 :=
  ⟨UInt64.size - 3, by decide⟩

/-- The methods that a type has itself are searched first. -/
theorem look_learns (hready : b.Ready s vm) (hc : c ∈ vm.classes) (name descriptor : String) :
    b.Learns (do
      let methods ← methodsOf c.id
      return (methods.find? fun m => m.name == name && m.signature == descriptor).map (c.id, ·))
      s vm ((c.method? name descriptor).map fun m => (c.id, m.info)) := by
  refine (methodsOf_learns hready hc).bind fun s' hready' => ?_
  rw [c.find?_methodInfos, Option.map_map]
  exact learns_pure hready' _

/-- A method that the class itself has. -/
theorem method_learns (hready : b.Ready s vm) (hc : c ∈ vm.classes) {name descriptor : String}
    {m : MethodDef} (hm : c.method? name descriptor = some m) :
    b.Learns (method c.id name descriptor) s vm (c.id, m.info) := by
  obtain ⟨fuel, hfuel⟩ := typeSearchBound_eq
  have hlook := look_learns hready hc name descriptor
  rw [hm] at hlook
  unfold method
  rw [hfuel]
  exact Learns.bind (searchTypes_found rfl hlook) fun s' hready' => learns_pure hready' _

/-- A method that the class has from its superclass. -/
theorem method_inherited (hready : b.Ready s vm) (hc : c ∈ vm.classes)
    (hclass : c.isInterface = false) {p : ClassDef} (hp : p ∈ vm.classes)
    (hsuperclass : c.superclass = some p.id) {name descriptor : String} {m : MethodDef}
    (hnone : c.method? name descriptor = none) (hm : p.method? name descriptor = some m) :
    b.Learns (method c.id name descriptor) s vm (p.id, m.info) := by
  have hne : p.id ≠ c.id := by
    intro heq
    rw [hready.equipped.distinct.eq_of_id hp hc heq, hnone] at hm
    cases hm
  have hqueue : ([] ++ (c.superclass.toList ++ c.interfaces)).dropWhile (· ∈ [c.id]) =
      p.id :: c.interfaces := by
    rw [hsuperclass]
    simp [hne]
  have hlook := look_learns hready hc name descriptor
  rw [hnone] at hlook
  have hlook' : ∀ s', b.Ready s' vm → b.Learns (do
      let methods ← methodsOf p.id
      return (methods.find? fun m => m.name == name && m.signature == descriptor).map (p.id, ·))
      s' vm (some (p.id, m.info)) := by
    intro s' hready'
    have hfound := look_learns hready' hp name descriptor
    rwa [hm] at hfound
  obtain ⟨fuel, hfuel⟩ := typeSearchBound_eq
  unfold method
  rw [hfuel]
  refine Learns.bind (a := some (p.id, m.info)) (searchTypes_next rfl hlook
    (fun s' hready' => supertypes_learns hready' hc hclass)
    fun s' hready' => searchTypes_found hqueue (hlook' s' hready'))
    fun s' hready' => learns_pure hready' _

/-! ## Pins and texts -/

/-- What the value refers to is in the machine. -/
def Live (vm : Vm) (v : Value) : Prop :=
  ∀ id, v.objectId? = some id → ∃ e, vm.lookup? id = some e

theorem live_reference {tag : UInt8} {id : ObjectId} {e : TypedObject}
    (he : vm.lookup? id = some e) : Live vm (.reference tag id) := by
  intro id' hid'
  change (if id = 0 then none else some id) = some id' at hid'
  split at hid'
  · cases hid'
  · cases hid'
    exact ⟨e, he⟩

theorem store_achieves (hready : b.Ready s vm) (className : String) {v : Value}
    (hlive : Live vm v) :
    b.Achieves (store className v) s vm fun _ vm' => ∃ pins, vm' = { vm with pins } := by
  unfold store
  cases hid : v.objectId? with
  | none => exact achieves_pure hready ⟨_, rfl⟩
  | some id =>
      obtain ⟨e, he⟩ := hlive id hid
      refine achieves_get_bind ?_
      unfold Storage.admission
      rw [hready.fits.unlocked]
      by_cases hpinned : id ∈ s.storage.pinned
      · simp only [Bool.false_eq_true, if_false, if_pos hpinned]
        exact achieves_pure hready ⟨_, rfl⟩
      · simp only [Bool.false_eq_true, if_false, if_neg hpinned]
        have hpin : b.Achieves (command (.disableCollection id)) s vm fun _ vm' =>
            ∃ pins, vm' = { vm with pins } := by
          refine achieves_command hready rfl ?_
          refine (does_disableCollection hready.halted.alive he).mono ?_
          rintro _ vm' ⟨pins, rfl⟩
          exact ⟨extended_note hready.equipped pins vm.invocations, pins, rfl⟩
        refine hpin.bind fun _ s' vm' hready' _ hpins => achieves_modify (hready'.learn ?_) hpins
        exact { hready'.fits with unlocked := hready'.fits.unlocked }

theorem objectId?_reference {tag : UInt8} {id : ObjectId} (h : id ≠ 0) :
    (Value.reference tag id).objectId? = some id :=
  if_neg h

/-- The value refers to a string with that text. -/
def Text (vm : Vm) (v : Value) (text : String) : Prop :=
  ∃ id type, v = .reference Tag.string id ∧ id ≠ 0 ∧
    vm.lookup? id = some { type, object := .string text }

theorem ofHost_string_achieves (hready : b.Ready s vm) (text : String) :
    b.Achieves (ofHost (.string text)) s vm fun v vm' =>
      Text vm' v text ∧ vm'.classes = vm.classes := by
  have hmake := extended_make hready.equipped (vm.stringObject text)
  have hcreate : b.Achieves (command (.createString text)) s vm fun id vm' =>
      id = vm.nextId + 1 ∧ vm' = vm.make (vm.stringObject text) := by
    refine achieves_command hready rfl ((does_createString hready.halted.alive text).mono ?_)
    rintro r vm' ⟨rfl, rfl⟩
    exact ⟨hmake, rfl, rfl⟩
  refine hcreate.bind ?_
  rintro _ s' vm' hready' - ⟨rfl, rfl⟩
  have hobject := vm.lookup?_make_self (vm.stringObject text)
  refine .bind (store_achieves hready' ClassName.string (live_reference hobject)) ?_
  rintro _ s'' vm'' hready'' hextended ⟨pins, rfl⟩
  exact achieves_pure hready''
    ⟨⟨_, _, rfl, Nat.succ_ne_zero _, hextended.objects hobject⟩, rfl⟩

theorem typeOf_learns (hready : b.Ready s vm) {v : Value} {id : ObjectId}
    (hid : v.objectId? = some id) (hc : c ∈ vm.classes) {object : HeapObject}
    (hobject : vm.lookup? id = some { type := c.id, object }) :
    b.Learns (typeOf v) s vm c.typeName := by
  have hprimitive : v.primitiveName? = none := by
    cases v with
    | reference _ _ => rfl
    | void => rfl
    | _ => cases hid
  unfold typeOf
  rw [hprimitive, hid]
  exact Learns.bind (learns_command hready rfl (does_objectType hready.halted.alive hobject))
    fun s' hready' => typeName_learns hready' hc

/-! ## Loaded classes -/

theorem classLoader_learns (hready : b.Ready s vm) :
    b.Learns b.classLoader s vm vm.appLoader := by
  refine achieves_get_bind ?_
  cases hknown : s.loader with
  | some loader =>
      rw [← hready.fits.loader loader hknown]
      exact learns_pure hready _
  | none =>
      obtain ⟨c, hc, hid, hloader⟩ := hready.frame
      rw [← hid, ← hloader]
      refine Learns.bind (learns_command hready rfl
        (does_typeLoader hready.equipped hready.halted.alive hc)) fun s' hready' => ?_
      refine achieves_modify_bind (achieves_pure (hready'.learn ?_) ⟨rfl, rfl⟩)
      refine { hready'.fits with loader := fun l hl => ?_ }
      cases hl
      exact hloader

theorem alreadyLoaded?_learns (hready : b.Ready s vm) {name : String} (hc : c ∈ vm.classes)
    (hname : c.signature = typeNameToSignature name) :
    b.Learns (b.alreadyLoaded? name) s vm (some c.id) := by
  refine Learns.bind (learns_command hready rfl
    (does_classesBySignature hready.halted.alive (typeNameToSignature name))) fun s' hready' => ?_
  rw [← hname, hready.equipped.distinct.filter hc]
  exact learns_pure hready' _

theorem alreadyLoaded?_missing (hready : b.Ready s vm) {name : String}
    (hnew : vm.Lacks name) :
    b.Learns (b.alreadyLoaded? name) s vm none := by
  have hnone : vm.classes.filter (·.signature == typeNameToSignature name) = [] :=
    List.filter_eq_nil_iff.mpr fun c hc heq => hnew c hc (eq_of_beq heq)
  refine Learns.bind (learns_command hready rfl
    (does_classesBySignature hready.halted.alive (typeNameToSignature name))) fun s' hready' => ?_
  rw [hnone]
  exact learns_pure hready' _

/-! ## Classes by name -/

/-- The outcome of looking a class up: the class with that signature, or that there is none. -/
def LookupOutcome (vm : Vm) (signature : String) (found : Bool) (o : InvokeOutcome) (vm' : Vm) :
    Prop :=
  if found then vm.Finds signature o vm' else vm.Throws ClassName.classNotFound o vm'

theorem LookupOutcome.extended {signature : String} {found : Bool} {o : InvokeOutcome} {vm' : Vm}
    (h : LookupOutcome vm signature found o vm') : vm.Extended vm' := by
  cases found with
  | true => exact And.left (And.right h)
  | false => exact And.left h

/-- The arguments of `Class.forName` in the program's loader. -/
def forNameArguments (name : Value) (vm : Vm) : List Value :=
  [name, .boolean true, .reference Tag.classLoader vm.appLoader]

theorem spec_mem_classClass : { name := ClassName.classClass, methods :=
    [("forName", "(Ljava/lang/String;ZLjava/lang/ClassLoader;)Ljava/lang/Class;", true)] } ∈
      librarySpecs := by
  simp [librarySpecs, firstSpecs, loaderSpecs]

theorem fits_forName {name : Value} (hname : name.isReference = true) (vm : Vm) :
    fitsAll (parameterLetters forNameDescriptor) (forNameArguments name vm) = true := by
  have hletters : parameterLetters forNameDescriptor = ['L', 'Z', 'L'] := by decide
  rw [hletters]
  cases name with
  | reference tag id => rfl
  | _ => cases hname

/-- `Class.forName`, invoked by the bridge. -/
theorem does_forName (hready : b.Ready s vm) {signature : String} {found : Bool}
    {loaded : List String} {name : Value}
    (hname : name.isReference = true) (hc : c ∈ vm.classes) (hclass : c.name = ClassName.classClass)
    {m : MethodDef} (hm : m ∈ c.methods) (hspec : m.spec = ("forName", forNameDescriptor, true))
    (hguard : found = false → vm.Unguarded)
    (hbody : (forName (forNameArguments name vm)).Does vm fun o vm' =>
      LookupOutcome vm signature found o vm' ∧ vm'.signatures = loaded) :
    (respond (.invokeStatic c.id b.thread m.id (forNameArguments name vm) b.options)).Does vm
      fun o vm' => LookupOutcome vm signature found o vm' ∧ vm'.signatures = loaded := by
  obtain ⟨hmname, hmspec⟩ := Prod.mk.inj hspec
  obtain ⟨hdescriptor, hstatic⟩ := Prod.mk.inj hmspec
  have hdescriptor' : m.descriptor = forNameDescriptor := hdescriptor
  rw [hready.thread]
  refine does_stopped hready.halted (invoke_static_does hready.equipped.toProper hready.unwatched
    hc hm ?_ hstatic fun what => ?_)
  · rw [hdescriptor']
    exact fits_forName hname vm
  · have hruns : runStatic c.name m.name m.descriptor (forNameArguments name vm) =
        forName (forNameArguments name vm) := if_pos ⟨hclass, hmname⟩
    rw [hruns]
    refine hbody.mono fun o vm' ⟨hseeks, hloaded⟩ => ⟨hseeks.extended.requests, ?_, ?_, hloaded⟩
    · intro hthrows
      cases found with
      | true => exact absurd hseeks.1 hthrows
      | false => exact hguard rfl
    · have hnote := extended_note hseeks.extended.equipped vm'.pins (vm'.invocations ++ [what])
      cases found with
      | true => exact ⟨hseeks.1, hseeks.extended.trans hnote, hseeks.2.2⟩
      | false => exact ⟨hseeks.extended.trans hnote, hseeks.2⟩

theorem isComponent_classNotFound : IsComponent ClassName.classNotFound := by decide

theorem classForName_achieves (hready : b.Ready s vm) {name : String} (signature : String)
    (found : Bool) (loaded : List String) (hguard : found = false → vm.Unguarded)
    (hforName : ∀ vm' v, vm.Extended vm' → vm'.classes = vm.classes →
      vm'.Names (forNameArguments v vm') (lookupName name) →
        (forName (forNameArguments v vm')).Does vm' fun o vm'' =>
          LookupOutcome vm' signature found o vm'' ∧ vm''.signatures = loaded) :
    b.Achieves (b.classForName name) s vm fun r vm' => vm'.signatures = loaded ∧
      if found then ∃ c ∈ vm'.classes, r = some c.id ∧ c.signature = signature
      else r = none ∧ vm'.classes = vm.classes := by
  obtain ⟨c, hc, hdeclares, -⟩ := hready.equipped.library _ spec_mem_classClass
  obtain ⟨m, hm, hmethod, hspec⟩ : ∃ m ∈ c.methods,
      c.method? "forName" forNameDescriptor = some m ∧
        m.spec = ("forName", forNameDescriptor, true) := hdeclares.method? (by decide)
  have hsignature : c.signature = typeNameToSignature ClassName.classClass := by
    rw [hready.equipped.distinct.spelled c hc, hdeclares.name]
  refine (alreadyLoaded?_learns hready hc hsignature).bind fun s₁ hready₁ => ?_
  refine achieves_pure_bind ((method_learns hready₁ hc hmethod).bind fun s₂ hready₂ => ?_)
  refine (ofHost_string_achieves hready₂ (lookupName name)).bind ?_
  rintro v s₃ vm₃ hready₃ hextended ⟨⟨id, type, rfl, hid, htext⟩, hclasses⟩
  refine (classLoader_learns hready₃).bind fun s₄ hready₄ => ?_
  have hname : vm₃.Names (forNameArguments (.reference Tag.string id) vm₃) (lookupName name) :=
    ⟨id, type, objectId?_reference hid, htext⟩
  have hguard' : found = false → vm₃.Unguarded := fun h =>
    (hguard h).kept fun _ hr => hextended.requests ▸ hr
  have hcall := does_forName hready₄ rfl (hclasses ▸ hc) hdeclares.name hm hspec hguard'
    (hforName vm₃ _ hextended hclasses hname)
  refine .bind (achieves_command hready₄ rfl
    (hcall.mono fun o vm' h => ⟨h.1.extended, h⟩)) ?_
  rintro o s₅ vm₅ hready₅ hextended₅ ⟨hseeks, hloaded⟩
  cases found with
  | true =>
      obtain ⟨hnone, -, d, hd, hsig, ido, typeo, hido, hobject⟩ := hseeks
      rw [hnone, hido]
      refine Learns.bind (learns_command hready₅ rfl
        (does_reflectedType hready₅.halted.alive hobject)) fun s₆ hready₆ => ?_
      exact achieves_pure hready₆ ⟨hloaded, d, hd, rfl, hsig⟩
  | false =>
      obtain ⟨-, hsame, exception, hsome, d, hd, hdname, hobject⟩ := hseeks
      rw [hsome]
      have hid' : (Value.object exception).objectId? = some exception :=
        objectId?_reference (hready₅.equipped.toProper.ne_zero hobject)
      refine (typeOf_learns hready₅ hid' hd hobject).bind fun s₆ hready₆ => ?_
      have hshown : d.typeName = ClassName.classNotFound := by
        rw [hready₅.equipped.typeName_of_component hd (hdname ▸ isComponent_classNotFound), hdname]
      exact achieves_ite_pos hshown (achieves_pure hready₆ ⟨hloaded, rfl, hsame.trans hclasses⟩)

/-- The class of arrays of a known element type is found. -/
theorem classForName_array (hready : b.Ready s vm) {name : String} (hname : IsComponent name)
    (hknown : vm.Knows name vm.appLoader) :
    b.Achieves (b.classForName s!"{name}[]") s vm fun r vm' =>
      vm'.signatures = loading vm.signatures (typeNameToSignature s!"{name}[]") ∧
        ∃ c ∈ vm'.classes, r = some c.id ∧ c.signature = typeNameToSignature s!"{name}[]" := by
  rw [typeNameToSignature_array]
  have hguard : true = false → vm.Unguarded := nofun
  refine classForName_achieves hready _ true _ hguard fun vm' v hextended hclasses hargs => ?_
  have hsame := signatures_of_classes hclasses
  rw [← hsame]
  exact forName_does_array hextended.equipped hname hargs
    (objectId?_reference hextended.equipped.present) (hknown.extended hextended)

theorem lookupName_helper (h : HelperClass) : lookupName h.name = h.name :=
  if_neg (by cases h <;> decide)

/-- A helper that is loaded is found. -/
theorem classForName_helper (hready : b.Ready s vm) (h : HelperClass) (hc : c ∈ vm.classes)
    (hsignature : c.signature = typeNameToSignature h.name) :
    b.Achieves (b.classForName h.name) s vm fun r vm' => vm'.signatures = vm.signatures ∧
      ∃ c ∈ vm'.classes, r = some c.id ∧ c.signature = typeNameToSignature h.name := by
  have hguard : true = false → vm.Unguarded := nofun
  have hdeclares := hready.equipped.helpers c hc h hsignature
  have hname : c.name = h.name := hdeclares.name.trans (helperSpec_name h)
  have hplain : c.name.toList.head? ≠ some '[' := fun hhead =>
    (helperName_plain h).1 (hname ▸ List.mem_of_mem_head? hhead)
  refine classForName_achieves hready _ true _ hguard fun vm' v hextended hclasses hargs => ?_
  have hsame := signatures_of_classes hclasses
  rw [lookupName_helper, ← hname] at hargs
  rw [← hsignature, ← hsame]
  refine forName_does_loaded hextended.equipped (hclasses ▸ hc) hargs
    (objectId?_reference hextended.equipped.present) ?_ hplain
  simp [ClassDef.visibleTo, hdeclares.loader, hextended.appLoader]

/-- A class that the loader does not find. -/
theorem classForName_missing (hready : b.Ready s vm) {name : String} (hguard : vm.Unguarded)
    (hmissing : (findClass (lookupName name) vm.appLoader).run vm = (none, vm)) :
    b.Achieves (b.classForName name) s vm fun r vm' =>
      r = none ∧ vm'.classes = vm.classes := by
  refine (classForName_achieves hready "" false vm.signatures (fun _ => hguard)
    fun vm' v hextended hclasses hargs => ?_).mono fun _ _ _ h => h.2
  have hmissing' := findClass_none_of_classes hmissing hclasses
  refine (forName_does_missing hextended.equipped hargs
    (objectId?_reference hextended.equipped.present) (hextended.appLoader ▸ hmissing')).mono ?_
  exact fun o vm'' hthrows => ⟨hthrows, signatures_of_classes (hthrows.2.1.trans hclasses)⟩

end Bridge

end StreamTrace
