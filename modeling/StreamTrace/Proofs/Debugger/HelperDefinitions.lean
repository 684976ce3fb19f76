import StreamTrace.Proofs.Debugger.BridgeClasses

/-!
# How the bridge comes by a class

A helper is defined from its class file, which travels as an array of bytes. So every class that a
trace uses is resolved: the library is loaded, the classes of arrays are made when they are looked
up, and a helper is defined unless it is there already.
-/

namespace StreamTrace

open Routine Vm

namespace Bridge

variable {b : Bridge} {s : BridgeState} {vm vm' : Vm} {c : ClassDef}

/-! ## Filling a new array -/

theorem newArray_achieves (hready : b.Ready s vm) (hc : c ∈ vm.classes)
    (harray : c.isArray = true) {component : String} (hsignature : c.signature = s!"[{component}")
    (length : Int) :
    b.Achieves (command (.newArray c.id length)) s vm fun id vm' => id = vm.nextId + 1 ∧ vm' =
      vm.make ⟨c.id, .array component (List.replicate length.toNat (defaultOf component))⟩ := by
  refine achieves_command hready rfl
    ((does_newArray hready.equipped hready.halted.alive hc harray hsignature length).mono ?_)
  rintro _ vm' ⟨rfl, rfl⟩
  exact ⟨extended_make hready.equipped _, rfl, rfl⟩

/-- Values are put into an array that is newer than the machine `vm`. -/
theorem setArrayValues_yields (hready : b.Ready s vm') (hvm : vm.Proper)
    (hextended : vm.Extended vm')
    {id : ObjectId} (hnew : vm.nextId < id) {type : TypeId} {component : String}
    {old values : List Value}
    (he : vm'.lookup? id = some { type, object := .array component old })
    (hholds : values.all (holds component) = true) (hlength : values.length = old.length)
    (wrap : JdwpError → TraceError) :
    b.Yields (commandOr (.setArrayValues id 0 values) wrap) s vm' fun _ vm'' =>
      vm.Extended vm'' ∧ vm''.classes = vm'.classes ∧
        vm''.lookup? id = some { type, object := .array component values } := by
  refine yields_commandOr rfl ?_
  refine (does_setArrayValues hready.halted.alive he hholds hlength).mono ?_
  rintro _ vm'' rfl
  have hchange := hextended.change (.array component values) he hnew hvm nofun nofun
  exact ⟨hready.of_heap hchange.equipped, hchange, rfl, Table.get?_set_self _ _ _⟩

/-! ## Defining helpers -/

/-- The bytes of a class file, as values. -/
def byteValues (bytes : Bytes) : List Value :=
  bytes.map fun v => .byte v.toInt8

@[simp] theorem length_byteValues (bytes : Bytes) : (byteValues bytes).length = bytes.length :=
  List.length_map _

theorem holds_bytes (bytes : Bytes) :
    (byteValues bytes).all (holds "B") = true := by
  refine List.all_eq_true.mpr fun v hv => ?_
  obtain ⟨byte, -, rfl⟩ := List.mem_map.mp hv
  rfl

theorem toInt_ofNat {n : Nat} (h : n < 2 ^ 31) : (Int32.ofNat n).toInt = n := by
  rw [Int32.toInt_ofNat_of_lt]
  exact h

/-- The class of the program's loader has `defineClass` from the class above it. -/
theorem loader_inherits (hvm : vm.Equipped) : ∃ c ∈ vm.classes, ∃ p ∈ vm.classes,
    vm.lookup? vm.appLoader = some { type := c.id, object := .classLoader } ∧
      c.isInterface = false ∧ c.superclass = some p.id ∧
      c.method? "defineClass" defineClassDescriptor = none ∧
      ∃ m ∈ p.methods, p.method? "defineClass" defineClassDescriptor = some m ∧
        m.spec = ("defineClass", defineClassDescriptor, false) := by
  obtain ⟨type, hobject, c, hc, rfl, hname⟩ := hvm.loader
  obtain ⟨c', hc', hdeclares, hlinked⟩ := hvm.library loaderSpec
    (by simp [librarySpecs, firstSpecs])
  obtain ⟨p', hp', hpdeclares, -⟩ := hvm.library
    { name := "java.lang.ClassLoader"
      methods := [("defineClass", "(Ljava/lang/String;[BII)Ljava/lang/Class;", false)] }
    (by simp [librarySpecs, firstSpecs, loaderSpecs])
  obtain rfl := hvm.distinct.eq_of_name hc hc' (hname.trans hdeclares.name.symm)
  obtain ⟨p, hp, hpname, hsuperclass⟩ := hlinked.superclass "java.lang.ClassLoader" rfl
  obtain rfl := hvm.distinct.eq_of_name hp hp' (hpname.trans hpdeclares.name.symm)
  refine ⟨c, hc, p, hp, hobject, hdeclares.isInterface, hsuperclass,
    hdeclares.method?_none rfl, hpdeclares.method? (by decide)⟩

/-- The arguments of `defineClass`. -/
def defineArguments (name : ObjectId) (array : ObjectId) (length : Int32) : List Value :=
  [.reference Tag.string name, .reference Tag.array array, .int 0, .int length]

theorem fits_defineClass (name array : ObjectId) (length : Int32) :
    fitsAll (parameterLetters defineClassDescriptor)
      (defineArguments name array length) = true := by
  have hletters : parameterLetters defineClassDescriptor = ['L', '[', 'I', 'I'] := by
    decide
  rw [hletters]
  rfl

/-- `defineClass` of the program's loader, invoked by the bridge. -/
theorem does_defineClass (hready : b.Ready s vm) {p : ClassDef} (hp : p ∈ vm.classes)
    (hc : c ∈ vm.classes)
    (hloader : vm.lookup? vm.appLoader = some { type := c.id, object := .classLoader })
    (hsuperclass : c.superclass = some p.id) {m : MethodDef} (hm : m ∈ p.methods)
    (hspec : m.spec = ("defineClass", defineClassDescriptor, false)) {name array : ObjectId}
    {length : Int32} {post : InvokeOutcome → Vm → Prop}
    (hbody : (loadHelper vm.appLoader (defineArguments name array length)).Does vm fun o vm' =>
      vm'.requests = vm.requests ∧ (o.exception ≠ none → vm.Unguarded) ∧
        ∀ invocations, post o { vm' with invocations }) :
    (respond (.invokeVirtual vm.appLoader b.thread p.id m.id (defineArguments name array length)
      b.options)).Does vm post := by
  obtain ⟨hmname, hmspec⟩ := Prod.mk.inj hspec
  obtain ⟨hdescriptor, hstatic⟩ := Prod.mk.inj hmspec
  have hdescriptor' : m.descriptor = defineClassDescriptor := hdescriptor
  have hmname' : m.name = "defineClass" := hmname
  have hsub := isSubtype_superclass hready.equipped.toProper hc hsuperclass
  rw [hready.thread]
  refine does_stopped hready.halted (invoke_virtual_does hready.equipped.toProper hready.unwatched
    hp hm ?_ hstatic hloader hsub fun what => ?_)
  · rw [hdescriptor']
    exact fits_defineClass name array length
  · rw [if_pos hmname']
    exact hbody.mono fun o vm' h => ⟨h.1, h.2.1, h.2.2 _⟩

/-- What is left to do once there is an array for the bytes of a class. -/
def defineIn (b : Bridge) (className : String) (bytes : Bytes) (loader array : ObjectId) :
    BridgeRoutine Unit := do
  let refuse (reason : String) : TraceError := .valueInstantiation className reason
  let values := byteValues bytes
  command (.setArrayValues array 0 values)
  let name ← ofHost (.string className)
  let loaderType : TypeId ← command (.objectType loader)
  let (declaring, found) ← method loaderType "defineClass" defineClassDescriptor
  let outcome : InvokeOutcome ←
    command (.invokeVirtual loader b.thread declaring found.methodId
      [name, Value.reference Tag.array array, .int 0, .int (Int32.ofNat values.length)] b.options)
  match outcome.exception with
  | some exception =>
    let thrown ← typeOf (.object exception)
    throw (refuse s!"defineClass threw {thrown}")
  | none => return ()

section

variable {className : String} {bytes : Bytes} {ok : Unit → BridgeState → Vm → Prop}
  {err : TraceError → BridgeState → Vm → Prop}

/-- First an array is made, whose length wraps around. -/
theorem defineClass_begins (hready : b.stocked.Ready s vm)
    (hfile : b.classFiles className = .ok (some bytes))
    (hnext : ∀ s' vm' id type, b.stocked.Ready s' vm' → vm.Extended vm' → vm'.classes = vm.classes →
      vm.nextId < id → vm'.lookup? id = some ⟨type, .array "B"
        (List.replicate (Int32.ofNat (byteValues bytes).length).toInt.toNat (defaultOf "B"))⟩ →
          (b.defineIn className bytes vm.appLoader id).Meets .machine ok err s' vm') :
    (b.defineClass className).Meets .machine ok err s vm := by
  obtain ⟨a, ha, hasignature⟩ := hready.equipped.bytes
  have hcomponent : a.signature = toString "[" ++ toString "B" :=
    hasignature.trans (by decide)
  have harray : a.isArray = true :=
    hready.equipped.arrays a ha (by rw [hcomponent]; decide)
  unfold defineClass
  rw [hfile]
  refine Routine.meets_bind.mpr (Routine.meets_pure.mpr ?_)
  refine (classLoader_learns hready : b.stocked.Learns b.classLoader s vm _).meets_bind
    fun s₁ hready₁ => ?_
  rw [if_neg hready.equipped.present]
  refine (alreadyLoaded?_learns hready₁ ha hasignature :
    b.stocked.Learns (b.alreadyLoaded? "byte[]") s₁ vm _).meets_bind fun s₂ hready₂ => ?_
  refine Routine.meets_bind.mpr (Routine.meets_pure.mpr ?_)
  refine Yields.meets_bind (newArray_achieves hready₂ ha harray hcomponent _) ?_
  rintro _ s₃ vm₃ hready₃ ⟨hextended₃, rfl, hmade⟩
  have hclasses : vm₃.classes = vm.classes := by rw [hmade]; rfl
  have hobject := vm.lookup?_make_self ⟨a.id, .array "B" (List.replicate
    (Int32.ofNat (byteValues bytes).length).toInt.toNat (defaultOf "B"))⟩
  replace hobject := (congrArg (Vm.lookup? · (vm.nextId + 1)) hmade).trans hobject
  refine Yields.meets_bind (store_achieves hready₃ "byte[]" (live_reference hobject)) ?_
  rintro _ s₄ _ hready₄ ⟨hextended₄, pins, rfl⟩
  exact hnext s₄ _ _ _ hready₄ (hextended₃.trans hextended₄) hclasses (Nat.lt_succ_self _) hobject

/-- The bytes are those of a class file of a helper. -/
def IsHelperFile (className : String) (bytes : Bytes) : Prop :=
  classFileMagic.isPrefixOf (byteValues bytes) = true ∧
    (HelperClass.ofName? className).isSome

/-- What the loader makes of the bytes of a class that is not loaded. -/
theorem loadHelper_settles (hvm : vm.Equipped)
    (hnew : vm.Lacks className) {args : List Value}
    (hname : vm.Names args className) {id : ObjectId} {type : TypeId}
    (hid : (arg args 1).objectId? = some id)
    (hbytes : vm.lookup? id = some ⟨type, .array "B" (byteValues bytes)⟩) :
    (loadHelper vm.appLoader args).Does vm fun o vm' =>
      (IsHelperFile className bytes ∧ vm.Finds (typeNameToSignature className) o vm' ∧
        vm'.signatures = vm.signatures ++ [typeNameToSignature className]) ∨
      ¬IsHelperFile className bytes ∧ vm.Throws "java.lang.ClassFormatError" o vm' := by
  by_cases hfits : IsHelperFile className bytes
  · obtain ⟨hmagic, hhelper⟩ := hfits
    obtain ⟨h, hh⟩ := Option.isSome_iff_exists.mp hhelper
    obtain rfl : h.name = className := by simpa using List.find?_some hh
    exact (loadHelper_does hvm h hnew hname hid hbytes hmagic).mono fun _ _ hdone =>
      .inl ⟨⟨hmagic, hhelper⟩, hdone⟩
  · refine (loadHelper_throws hvm hnew hname hid hbytes fun hmagic => ?_).mono fun _ _ hdone =>
      .inr ⟨hfits, hdone⟩
    rw [← Option.not_isSome_iff_eq_none]
    exact fun hhelper => hfits ⟨hmagic, hhelper⟩

theorem isComponent_formatError : IsComponent "java.lang.ClassFormatError" := by decide

/-- A class that is not loaded is defined from the class file of a helper. Any other bytes are
refused, and nothing is loaded then. -/
theorem defineClass_settles (hready : b.stocked.Ready s vm) (hguard : vm.Unguarded)
    (hnew : vm.Lacks className)
    (hfile : b.classFiles className = .ok (some bytes)) (hbound : bytes.length < 2 ^ 31) :
    (b.defineClass className).Meets .machine
      (fun _ s' vm' => b.stocked.Ready s' vm' ∧ vm.Extended vm' ∧ IsHelperFile className bytes ∧
        vm'.signatures = vm.signatures ++ [typeNameToSignature className])
      (fun e s' vm' => b.stocked.Ready s' vm' ∧ vm.Extended vm' ∧ ¬IsHelperFile className bytes ∧
        vm'.classes = vm.classes ∧
          e = .valueInstantiation className "defineClass threw java.lang.ClassFormatError")
      s vm := by
  refine defineClass_begins hready hfile fun s₁ vm₁ id type hready₁ hextended₁ hclasses₁ hnewer
    hobject => ?_
  have hlength : (Int32.ofNat (byteValues bytes).length).toInt.toNat = bytes.length := by
    rw [length_byteValues, toInt_ofNat hbound]
    rfl
  rw [hlength] at hobject
  refine Yields.meets_bind (setArrayValues_yields hready₁ hready.equipped.toProper hextended₁ hnewer
    hobject (holds_bytes bytes) (by rw [length_byteValues, List.length_replicate]) .jdwp) ?_
  rintro _ s₂ vm₂ hready₂ ⟨hextended₂, hclasses₂, harray⟩
  refine Yields.meets_bind (ofHost_string_achieves hready₂ className) ?_
  rintro _ s₃ vm₃ hready₃ ⟨hextended₃, ⟨name, _, rfl, -, hname⟩, hclasses₃⟩
  have hsame : vm₃.classes = vm.classes := (hclasses₃.trans hclasses₂).trans hclasses₁
  obtain ⟨c, hc, p, hp, hloader, hclass, hsuperclass, hnone, m, hm, hmethod, hspec⟩ :=
    loader_inherits hready₃.equipped
  have happ : vm₃.appLoader = vm.appLoader := hextended₃.appLoader.trans hextended₂.appLoader
  rw [← happ]
  refine (learns_command hready₃ rfl
    (does_objectType hready₃.halted.alive hloader)).meets_bind fun s₄ hready₄ => ?_
  refine (method_inherited hready₄ hc hclass hp hsuperclass hnone hmethod).meets_bind
    fun s₅ hready₅ => ?_
  have hnames : vm₃.Names (defineArguments name id (Int32.ofNat
      (byteValues bytes).length)) className :=
    ⟨name, _, objectId?_reference (hready₃.equipped.toProper.ne_zero hname), hname⟩
  have harg : (Value.reference Tag.array id).objectId? = some id :=
    objectId?_reference (hready₂.equipped.toProper.ne_zero harray)
  have hguard₃ : vm₃.Unguarded := hguard.kept fun _ hr =>
    hextended₂.requests ▸ hextended₃.requests ▸ hr
  have hloads := loadHelper_settles hready₃.equipped (hnew.of_classes hsame) hnames harg
    (hextended₃.objects harray)
  have hdoes : (respond (.invokeVirtual vm₃.appLoader b.stocked.thread p.id m.id
      (defineArguments name id (Int32.ofNat (byteValues bytes).length)) b.stocked.options)).Does
      vm₃ fun o vm' => vm₃.Extended vm' ∧
        ((IsHelperFile className bytes ∧ vm₃.Finds (typeNameToSignature className) o vm' ∧
          vm'.signatures = vm₃.signatures ++ [typeNameToSignature className]) ∨
        ¬IsHelperFile className bytes ∧ vm₃.Throws "java.lang.ClassFormatError" o vm') := by
    refine does_defineClass hready₅ hp hc hloader hsuperclass hm hspec (hloads.mono ?_)
    -- What is noted of the invocation changes neither outcome.
    rintro o vm' (⟨hfits, ⟨hquiet, hextended, hfound⟩, hsignatures⟩ | ⟨hunfit, hextended, hthrown⟩)
    · refine ⟨hextended.requests, fun hthrows => absurd hquiet hthrows, fun invocations => ?_⟩
      have hnoted := hextended.trans (extended_note hextended.equipped vm'.pins invocations)
      exact ⟨hnoted, .inl ⟨hfits, ⟨hquiet, hnoted, hfound⟩, hsignatures⟩⟩
    · refine ⟨hextended.requests, fun _ => hguard₃, fun invocations => ?_⟩
      have hnoted := hextended.trans (extended_note hextended.equipped vm'.pins invocations)
      exact ⟨hnoted, .inr ⟨hunfit, hnoted, hthrown⟩⟩
  refine Yields.meets_bind (achieves_command hready₅ rfl hdoes) ?_
  rintro o s₆ vm₆ hready₆ ⟨hextended₆, hsettled⟩
  have hextended := hextended₂.trans (hextended₃.trans hextended₆)
  rcases hsettled with ⟨hfits, hfinds, hsignatures⟩ | ⟨hunfit, hthrows⟩
  · rw [hfinds.1]
    exact Routine.meets_pure.mpr ⟨hready₆, hextended, hfits,
      hsignatures.trans (by rw [signatures_of_classes hsame])⟩
  · obtain ⟨-, hkept, exception, hsome, d, hd, hdname, hthrown⟩ := hthrows
    rw [hsome]
    have hid : (Value.object exception).objectId? = some exception :=
      objectId?_reference (hready₆.equipped.toProper.ne_zero hthrown)
    refine (typeOf_learns hready₆ hid hd hthrown).meets_bind fun s₇ hready₇ => ?_
    refine Routine.meets_throw.mpr ⟨hready₇, hextended, hunfit, hkept.trans hsame, ?_⟩
    rw [hready₆.equipped.typeName_of_component hd (hdname ▸ isComponent_formatError), hdname]
    rfl

/-- More bytes than an array has room for are refused. -/
theorem defineClass_overflows (hready : b.stocked.Ready s vm)
    (hfile : b.classFiles className = .ok (some bytes)) (hbound : 2 ^ 31 ≤ bytes.length) :
    (b.defineClass className).Meets .machine (fun _ _ _ => False)
      (fun e s' vm' => b.stocked.Ready s' vm' ∧ vm.Extended vm' ∧ vm'.classes = vm.classes ∧
        e = .jdwp (.vm ErrorCode.invalidIndex)) s vm := by
  refine defineClass_begins hready hfile
    fun s₁ vm₁ id type hready₁ hextended₁ hclasses₁ _ hobject => ?_
  have hroom := (Int32.ofNat (byteValues bytes).length).toInt_lt
  refine Routine.meets_bind.mpr (meets_refused rfl (refuses_setArrayValues hready₁.halted.alive
    hobject (holds_bytes bytes) ?_) ⟨hready₁, hextended₁, hclasses₁, rfl⟩)
  rw [List.length_replicate, length_byteValues] at *
  omega

/-- The bridge has a class file from which the class can be defined: one of a helper, whose bytes
an array has room for. -/
def Defines (b : Bridge) (className : String) : Prop :=
  ∃ bytes, b.classFiles className = .ok (some bytes) ∧ bytes.length < 2 ^ 31 ∧
    IsHelperFile className bytes

/-- What the bridge says of a class that it cannot define. -/
def refusal (b : Bridge) (className : String) : TraceError :=
  match b.classFiles className with
  | .ok none => .valueInstantiation className "no bytecode is registered for this class"
  | .error e => e
  | .ok (some bytes) =>
    if bytes.length < 2 ^ 31 then
      .valueInstantiation className "defineClass threw java.lang.ClassFormatError"
    else .jdwp (.vm ErrorCode.invalidIndex)

theorem refusal_of_error {e : TraceError} (hfile : b.classFiles className = .error e) :
    b.refusal className = e := by
  unfold refusal
  rw [hfile]

/-- As long as an array has room for the class file, the class is named; where the class files fail,
they must name it themselves. -/
theorem refusal_reason
    (hbound : ∀ bytes, b.classFiles className = .ok (some bytes) → bytes.length < 2 ^ 31)
    (hnamed : ∀ e, b.classFiles className = .error e →
      ∃ reason, e = .valueInstantiation className reason) :
    ∃ reason, b.refusal className = .valueInstantiation className reason := by
  unfold refusal
  split
  · exact ⟨_, rfl⟩
  · exact hnamed _ ‹_›
  · rw [if_pos (hbound _ ‹_›)]
    exact ⟨_, rfl⟩

/-- A class that is not loaded is defined, unless its class file does not serve for that. -/
theorem defineClass_meets (hready : b.stocked.Ready s vm) (hguard : vm.Unguarded)
    (hnew : vm.Lacks className) :
    (b.defineClass className).Meets .machine
      (fun _ s' vm' => b.stocked.Ready s' vm' ∧ vm.Extended vm' ∧ b.Defines className ∧
        vm'.signatures = vm.signatures ++ [typeNameToSignature className])
      (fun e s' vm' => b.stocked.Ready s' vm' ∧ vm.Extended vm' ∧ ¬b.Defines className ∧
        vm'.classes = vm.classes ∧ e = b.refusal className) s vm := by
  -- Without bytes no command is sent, so the machine is as it was.
  have hrefuses : ∀ e, (∀ bytes, b.classFiles className ≠ .ok (some bytes)) →
      b.refusal className = e → (throw e : BridgeRoutine Unit).Meets .machine
        (fun _ s' vm' => b.stocked.Ready s' vm' ∧ vm.Extended vm' ∧ b.Defines className ∧
          vm'.signatures = vm.signatures ++ [typeNameToSignature className])
        (fun e s' vm' => b.stocked.Ready s' vm' ∧ vm.Extended vm' ∧ ¬b.Defines className ∧
          vm'.classes = vm.classes ∧ e = b.refusal className) s vm := by
    rintro e hnone rfl
    exact Routine.meets_throw.mpr
      ⟨hready, .refl hready.equipped, fun ⟨bytes, hbytes, _⟩ => hnone bytes hbytes, rfl, rfl⟩
  cases hfile : b.classFiles className with
  | error e =>
      unfold defineClass
      rw [hfile]
      exact hrefuses _ (fun bytes hbytes => by rw [hfile] at hbytes; cases hbytes)
        (refusal_of_error hfile)
  | ok file =>
      cases file with
      | none =>
          have hrefusal : b.refusal className =
              .valueInstantiation className "no bytecode is registered for this class" := by
            unfold refusal
            rw [hfile]
          unfold defineClass
          rw [hfile]
          exact hrefuses _ (fun bytes hbytes => by rw [hfile] at hbytes; cases hbytes) hrefusal
      | some bytes =>
          have hdefines : b.Defines className ↔
              bytes.length < 2 ^ 31 ∧ IsHelperFile className bytes := by
            constructor
            · rintro ⟨bytes', hbytes', hrest⟩
              rw [hfile] at hbytes'
              cases hbytes'
              exact hrest
            · exact fun hrest => ⟨bytes, hfile, hrest⟩
          have hrefusal : b.refusal className = if bytes.length < 2 ^ 31 then
              .valueInstantiation className "defineClass threw java.lang.ClassFormatError"
            else .jdwp (.vm ErrorCode.invalidIndex) := by
            unfold refusal
            rw [hfile]
          by_cases hbound : bytes.length < 2 ^ 31
          · rw [if_pos hbound] at hrefusal
            refine Routine.Meets.mono (defineClass_settles hready hguard hnew hfile hbound) ?_ ?_
            · rintro _ s' vm' ⟨hready', hextended, hfits, hsignatures⟩
              exact ⟨hready', hextended, hdefines.mpr ⟨hbound, hfits⟩, hsignatures⟩
            · rintro e s' vm' ⟨hready', hextended, hunfit, hclasses, rfl⟩
              exact ⟨hready', hextended, fun h => hunfit (hdefines.mp h).2, hclasses, hrefusal.symm⟩
          · rw [if_neg hbound] at hrefusal
            refine Routine.Meets.mono (defineClass_overflows hready hfile
              (Nat.le_of_not_lt hbound)) (fun _ _ _ h => h.elim) ?_
            rintro e s' vm' ⟨hready', hextended, hclasses, rfl⟩
            exact ⟨hready', hextended, fun h => hbound (hdefines.mp h).1, hclasses, hrefusal.symm⟩

end

/-! ## Resolving types -/

/-- Neither is there a class of that name nor can the bridge define one. -/
def Misses (b : Bridge) (vm : Vm) (name : String) : Prop := vm.Unknown name ∧ ¬b.Defines name

/-- The name is looked up as it is, or it is that of an array type. -/
def IsLookedUp (name : String) : Prop :=
  ('[' ∉ name.toList ∧ lookupName name = name) ∨
    ∃ component, IsComponent component ∧ name = s!"{component}[]"

/-- A name that the bridge has learnt. -/
theorem Ready.learnType (hready : b.Ready s vm) {name : String} (hc : c ∈ vm.classes)
    (hsignature : c.signature = typeNameToSignature name) :
    b.Ready { s with types := s.types.set name c.id } vm := by
  refine hready.learn { hready.fits with types := fun name' type htype => ?_ }
  change (s.types.set name c.id).get? name' = some type at htype
  rw [Table.get?_set] at htype
  split at htype
  · cases htype
    exact ⟨c, hc, rfl, ‹name = name'› ▸ hsignature⟩
  · exact hready.fits.types name' type htype

/-- What is found of a class that is not loaded: it is one of arrays with a known component, or
there is none. -/
theorem IsLookedUp.knows_or_unknown {name : String} (hname : IsLookedUp name)
    (hvm : vm.Equipped) (hnew : vm.Lacks name) :
    (¬vm.Unknown name ∧ ∃ component, IsComponent component ∧ name = s!"{component}[]" ∧
      vm.Knows component vm.appLoader) ∨ vm.Unknown name := by
  rcases hname with ⟨hplain, hlookup⟩ | ⟨component, hcomponent, rfl⟩
  · refine .inr ⟨hnew, ?_⟩
    rw [hlookup, findClass_plain_missing hvm hplain hnew]
  · obtain ⟨rest, htoList, hrest⟩ := hcomponent.lookupName_array
    have hfound : vm.classes.bySignature? s!"[{typeNameToSignature component}" = none := by
      refine List.find?_eq_none.mpr fun c hc heq => hnew c hc ?_
      rw [typeNameToSignature_array]
      exact eq_of_beq heq
    cases hknows : vm.knowsComponent (typeNameToSignature component) vm.appLoader with
    | true =>
        refine .inl ⟨fun hunknown => ?_, component, hcomponent, rfl, ?_⟩
        · have hnone := hunknown.unfound
          rw [findClass_array_new htoList hrest _ hfound hknows] at hnone
          cases hnone
        · exact (knowsComponent_iff hcomponent).mp hknows
    | false =>
        refine .inr ⟨hnew, ?_⟩
        rw [findClass_array_unknown htoList hrest _ hfound hknows]

/-- A class is resolved unless the bridge misses it, and only that class is loaded on the way. A
class that is missed leaves the classes as they are. -/
theorem resolveType_settles (hready : b.stocked.Ready s vm) {name : String}
    (hname : vm.Lacks name → IsLookedUp name) (hguard : vm.Unknown name → vm.Unguarded) :
    (b.resolveType name).Meets .machine
      (fun type s' vm' => b.stocked.Ready s' vm' ∧ vm.Extended vm' ∧ ¬b.Misses vm name ∧
        (∃ c ∈ vm'.classes, c.id = type ∧ c.signature = typeNameToSignature name) ∧
          vm'.signatures = loading vm.signatures (typeNameToSignature name))
      (fun e s' vm' => b.stocked.Ready s' vm' ∧ vm.Extended vm' ∧ b.Misses vm name ∧
        vm'.classes = vm.classes ∧ e = b.refusal name) s vm := by
  have hlearn : ∀ s₁ vm₁ c, b.stocked.Ready s₁ vm₁ → vm.Extended vm₁ → ¬b.Misses vm name →
      c ∈ vm₁.classes → c.signature = typeNameToSignature name →
      vm₁.signatures = loading vm.signatures (typeNameToSignature name) →
      (do
        modify fun s : BridgeState => { s with types := s.types.set name c.id }
        return c.id : BridgeRoutine TypeId).Meets .machine
        (fun type s' vm' => b.stocked.Ready s' vm' ∧ vm.Extended vm' ∧ ¬b.Misses vm name ∧
          (∃ c ∈ vm'.classes, c.id = type ∧ c.signature = typeNameToSignature name) ∧
            vm'.signatures = loading vm.signatures (typeNameToSignature name))
        (fun e s' vm' => b.stocked.Ready s' vm' ∧ vm.Extended vm' ∧ b.Misses vm name ∧
          vm'.classes = vm.classes ∧ e = b.refusal name) s₁ vm₁ := by
    intro s₁ vm₁ c hready₁ hextended₁ hfound hc hsignature hloaded
    refine Routine.meets_bind.mpr (Routine.meets_modify.mpr (Routine.meets_pure.mpr ?_))
    exact ⟨hready₁.learnType hc hsignature, hextended₁, hfound, ⟨c, hc, rfl, hsignature⟩, hloaded⟩
  have hrefl := Extended.refl hready.equipped
  refine Routine.meets_bind.mpr (Routine.meets_get.mpr ?_)
  by_cases hloaded : ∃ c ∈ vm.classes, c.signature = typeNameToSignature name
  · -- The class is loaded, whether the bridge knows that already or not.
    obtain ⟨c, hc, hsignature⟩ := hloaded
    have hfound : ¬b.Misses vm name := fun hmisses => hmisses.1.lacks c hc hsignature
    have hsame := loading_of_mem (hsignature ▸ mem_signatures hc)
    cases hknown : s.types.get? name with
    | some type =>
        exact Routine.meets_pure.mpr
          ⟨hready, hrefl, hfound, hready.fits.types _ _ hknown, hsame.symm⟩
    | none =>
        refine (alreadyLoaded?_learns hready hc hsignature :
          b.stocked.Learns (b.alreadyLoaded? name) s vm _).meets_bind fun s₁ hready₁ => ?_
        exact Routine.meets_bind.mpr (Routine.meets_pure.mpr
          (hlearn s₁ vm c hready₁ hrefl hfound hc hsignature hsame.symm))
  · have hnew : vm.Lacks name := fun c hc heq => hloaded ⟨c, hc, heq⟩
    have hloading := loading_of_notMem (lacks_iff.mp hnew)
    cases hknown : s.types.get? name with
    | some type =>
        obtain ⟨c, hc, -, hsignature⟩ := hready.fits.types _ _ hknown
        exact absurd hsignature (hnew c hc)
    | none =>
        refine (alreadyLoaded?_missing hready hnew :
          b.stocked.Learns (b.alreadyLoaded? name) s vm _).meets_bind fun s₁ hready₁ => ?_
        rcases (hname hnew).knows_or_unknown hready.equipped hnew with
          ⟨hfound, component, hcomponent, rfl, hknows⟩ | hunknown
        · -- An array class is made from its component, if that is known.
          refine Yields.meets_bind (classForName_array hready₁ hcomponent hknows :
            b.stocked.Achieves (b.classForName s!"{component}[]") s₁ vm _) ?_
          rintro _ s₂ vm₂ hready₂ ⟨hextended₂, hsame, c, hc, rfl, hsignature⟩
          exact Routine.meets_bind.mpr (Routine.meets_pure.mpr
            (hlearn s₂ vm₂ c hready₂ hextended₂ (fun h => hfound h.1) hc hsignature hsame))
        · -- Neither loaded nor found, so it is for the class file to decide.
          refine Yields.meets_bind (classForName_missing hready₁ (hguard hunknown)
            (findClass_none hunknown.unfound) :
            b.stocked.Achieves (b.classForName name) s₁ vm _) ?_
          rintro _ s₂ vm₂ hready₂ ⟨hextended₂, rfl, hclasses₂⟩
          have hguard₂ : vm₂.Unguarded := (hguard hunknown).kept fun _ hr =>
            hextended₂.requests ▸ hr
          have hsame := signatures_of_classes hclasses₂
          refine Routine.meets_bind.mpr (Routine.Meets.mono
            (defineClass_meets hready₂ hguard₂ (hnew.of_classes hclasses₂)) ?_ ?_)
          · rintro _ s₃ vm₃ ⟨hready₃, hextended₃, hdefines, hsignatures⟩
            obtain ⟨bytes, -, -, -, hhelper⟩ := id hdefines
            obtain ⟨h, hh⟩ := Option.isSome_iff_exists.mp hhelper
            obtain rfl : h.name = name := by simpa using List.find?_some hh
            obtain ⟨c₃, hc₃, hsignature₃⟩ : ∃ c ∈ vm₃.classes,
                c.signature = typeNameToSignature h.name := by
              rw [← mem_signatures_iff, hsignatures]
              simp
            refine Yields.meets_bind (classForName_helper hready₃ h hc₃ hsignature₃ :
              b.stocked.Achieves (b.classForName h.name) s₃ vm₃ _) ?_
            rintro _ s₄ vm₄ hready₄ ⟨hextended₄, hsame₄, c, hc, rfl, hsignature⟩
            refine Routine.meets_bind.mpr (Routine.meets_pure.mpr (hlearn s₄ vm₄ c hready₄
              (hextended₂.trans (hextended₃.trans hextended₄)) (fun h => h.2 hdefines) hc hsignature
                ?_))
            rw [hsame₄, hsignatures, hsame, hloading]
          · rintro e s₃ vm₃ ⟨hready₃, hextended₃, hrefused, hclasses₃, rfl⟩
            exact ⟨hready₃, hextended₂.trans hextended₃, ⟨hunknown, hrefused⟩,
              hclasses₃.trans hclasses₂, rfl⟩

/-- The class of arrays of a known element type is resolved, whichever class files there are. -/
theorem resolveType_array (hready : b.stocked.Ready s vm) {name : String} (hname : IsComponent name)
    (hknows : vm.Knows name vm.appLoader) :
    b.stocked.Achieves (b.resolveType s!"{name}[]") s vm fun type vm' =>
      ∃ c ∈ vm'.classes, c.id = type ∧ c.signature = typeNameToSignature s!"{name}[]" := by
  have hknown : ¬vm.Unknown s!"{name}[]" := fun h =>
    absurd h.unfound (findClass_array_known hname hknows)
  refine Routine.Meets.mono (resolveType_settles hready (fun _ => .inr ⟨name, hname, rfl⟩)
    fun h => absurd h hknown) ?_ fun _ _ _ h => hknown h.2.2.1.1
  rintro type s' vm' ⟨hready', hextended, -, hclass, -⟩
  exact ⟨hready', hextended, hclass⟩

/-- The class can be had: it is loaded, or it is one of arrays of a known type, or it is a helper
that may be defined. -/
inductive Resolvable (vm : Vm) : String → Prop
  | loaded {c : ClassDef} (hc : c ∈ vm.classes) {name : String}
    (hsignature : c.signature = typeNameToSignature name) : Resolvable vm name
  | array {name : String} (hname : IsComponent name) (hknown : vm.Knows name vm.appLoader) :
    Resolvable vm s!"{name}[]"
  | helper (h : HelperClass) (hguard : vm.Unguarded) : Resolvable vm h.name

theorem Resolvable.extended {name : String} (h : Resolvable vm name) (ht : vm.Extended vm') :
    Resolvable vm' name := by
  cases h with
  | loaded hc hsignature =>
      obtain ⟨c', hc', hstays⟩ := ht.classes _ hc
      exact .loaded hc' (hstays.signature.trans hsignature)
  | array hname hknown => exact .array hname (hknown.extended ht)
  | helper h hguard => exact .helper h (hguard.kept fun _ hr => ht.requests ▸ hr)

theorem Ready.defines (hready : b.Ready s vm) (h : HelperClass) : b.Defines h.name := by
  obtain ⟨bytes, hfile, hmagic, hbound⟩ := hready.files h
  exact ⟨bytes, hfile, hbound, hmagic, by rw [ofName?_name]; rfl⟩

theorem resolveType_achieves (hready : b.Ready s vm) {name : String}
    (hname : Resolvable vm name) :
    b.Achieves (b.resolveType name) s vm fun type vm' =>
      ∃ c ∈ vm'.classes, c.id = type ∧ c.signature = typeNameToSignature name := by
  have hsettled : (vm.Lacks name → IsLookedUp name) ∧ (vm.Unknown name → vm.Unguarded) ∧
      ¬b.Misses vm name := by
    cases hname with
    | loaded hc hsignature =>
        exact ⟨fun hnew => absurd hsignature (hnew _ hc), fun h => absurd hsignature (h.lacks _ hc),
          fun h => h.1.lacks _ hc hsignature⟩
    | array hcomponent hknows =>
        have hknown : ¬vm.Unknown s!"{_}[]" := fun h =>
          absurd h.unfound (findClass_array_known hcomponent hknows)
        exact ⟨fun _ => .inr ⟨_, hcomponent, rfl⟩, fun h => absurd h hknown, fun h => hknown h.1⟩
    | helper h hguard =>
        exact ⟨fun _ => .inl ⟨(helperName_plain h).1, lookupName_helper h⟩, fun _ => hguard,
          fun hmisses => hmisses.2 (hready.defines h)⟩
  obtain ⟨hlooked, hguard, hfound⟩ := hsettled
  refine Routine.Meets.mono (resolveType_settles hready.stocked hlooked hguard) ?_
    fun _ _ _ h => hfound h.2.2.1
  rintro type s' vm' ⟨hready', hextended, -, hclass, -⟩
  exact ⟨hready'.of_stocked hready, hextended, hclass⟩

end Bridge

end StreamTrace
