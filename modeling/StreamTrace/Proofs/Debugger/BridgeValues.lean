import StreamTrace.Debugger.Readback
import StreamTrace.Proofs.Debugger.HelperDefinitions

/-!
# Arrays, invocations and reading

What the bridge makes in a machine and reads back from it: an array holds the values that were put
into it, an invocation returns what the method returns, and a value reads as what it refers to.
-/

namespace StreamTrace

open Routine Vm

namespace Bridge

variable {b : Bridge} {s : BridgeState} {vm vm' : Vm} {c : ClassDef}

/-! ## Arrays -/

/-- The program sees the library. -/
theorem library_visible (hvm : vm.Equipped) {name : String}
    (hname : name ∈ librarySpecs.map (·.name)) :
    (vm.classes.named? name vm.appLoader).isSome := by
  obtain ⟨spec, hspec, rfl⟩ := List.mem_map.mp hname
  obtain ⟨c, hc, hdeclares, -⟩ := hvm.library spec hspec
  have hvisible : c.visibleTo vm.appLoader = true := by
    simp [ClassDef.visibleTo, hdeclares.loader]
  rw [← hdeclares.name, hvm.distinct.named? hc hvisible]
  rfl

/-- The program knows the element types of the arrays that a trace uses. -/
theorem knows_element (hvm : vm.Equipped) {name : String} (hname : name ∈ arrayElements) :
    vm.Knows name vm.appLoader := by
  refine fun hclass => library_visible hvm ?_
  have hprimitive : ∀ name ∈ arrayElements, (typeNameToSignature name).toList.head? = some 'L' →
      name = ClassName.object ∨ name = ClassName.throwable := by decide
  rcases hprimitive name hname hclass with rfl | rfl
  · simp [librarySpecs, firstSpecs, loaderSpecs]
  · simp [librarySpecs, laterSpecs, languageSpecs]

/-- A new array. Arrays can be had without class files. -/
theorem newArray_makes (hready : b.stocked.Ready s vm) {component : String}
    (hcomponent : component ∈ arrayElements) {length : Nat} (hlength : length < 2 ^ 31) :
    b.stocked.Achieves (b.newArray s!"{component}[]" (Int32.ofNat length)) s vm fun v vm' =>
      vm'.HasArray component v
          (List.replicate length (defaultOf (typeNameToSignature component))) ∧
        ∃ id, v = .reference Tag.array id ∧ vm.nextId < id := by
  have hknows := knows_element hready.equipped hcomponent
  refine (resolveType_array hready (isComponent_of_mem hcomponent) hknows).bind ?_
  rintro _ s₁ vm₁ hready₁ hextended₁ ⟨c, hc, rfl, hsignature⟩
  have hbracket : c.signature = s!"[{typeNameToSignature component}" := by
    rw [hsignature, typeNameToSignature_array]
  have harray : c.isArray = true := by
    refine hready₁.equipped.arrays c hc ?_
    rw [hbracket]
    simp [toString]
  dsimp only
  rw [toInt_ofNat hlength]
  refine (newArray_achieves hready₁ hc harray hbracket length).bind ?_
  rintro _ s₂ _ hready₂ - ⟨rfl, rfl⟩
  let old := List.replicate length (defaultOf (typeNameToSignature component))
  have hobject := vm₁.lookup?_make_self ⟨c.id, .array (typeNameToSignature component) old⟩
  refine (store_achieves hready₂ _ (live_reference hobject)).bind ?_
  rintro _ s₃ _ hready₃ hextended₃ ⟨pins, rfl⟩
  refine achieves_pure hready₃ ⟨?_, vm₁.nextId + 1, rfl, Nat.lt_succ_of_le hextended₁.next⟩
  exact ⟨_, rfl, c, hc, hsignature, hextended₃.objects hobject⟩

theorem newArray_has_achieves (hready : b.Ready s vm) {component : String}
    (hcomponent : component ∈ arrayElements) {length : Nat} (hlength : length < 2 ^ 31) :
    b.Achieves (b.newArray s!"{component}[]" (Int32.ofNat length)) s vm fun v vm' =>
      vm'.HasArray component v
          (List.replicate length (defaultOf (typeNameToSignature component))) ∧
        ∃ id, v = .reference Tag.array id ∧ vm.nextId < id :=
  (newArray_makes hready.stocked hcomponent hlength).of_stocked hready

/-- A new array of values of one type. -/
theorem arrayOf_makes (hready : b.stocked.Ready s vm) {component : String}
    (hcomponent : component ∈ arrayElements) {values : List Value}
    (hholds : values.all (holds (typeNameToSignature component)) = true)
    (hlength : values.length < 2 ^ 31) :
    b.stocked.Achieves (b.arrayOf component values) s vm fun v vm' =>
      vm'.HasArray component v values := by
  unfold arrayOf construct
  dsimp only
  rw [if_pos (endsWithBrackets_array component)]
  refine Yields.bind (newArray_makes hready hcomponent hlength) ?_
  rintro _ s₁ vm₁ hready₁ ⟨hextended₁, ⟨id, rfl, c, hc, hsignature, hobject⟩, id', heq, hnew⟩
  cases heq
  cases values with
  | nil =>
      exact Achieves.behind (achieves_pure hready₁ ⟨id, rfl, c, hc, hsignature, hobject⟩) hextended₁
  | cons v rest =>
      have hid : (Value.reference Tag.array id).objectId? = some id :=
        objectId?_reference (hready₁.equipped.toProper.ne_zero hobject)
      rw [if_neg (by simp), hid, Option.getD_some]
      refine Yields.bind (setArrayValues_yields hready₁ hready.equipped.toProper hextended₁ hnew
        hobject hholds List.length_replicate.symm _) ?_
      rintro _ s₂ vm₂ hready₂ ⟨hextended₂, hclasses₂, hobject₂⟩
      refine Achieves.behind (achieves_pure hready₂ ?_) hextended₂
      exact ⟨id, rfl, c, hclasses₂ ▸ hc, hsignature, hobject₂⟩

theorem arrayOf_achieves (hready : b.Ready s vm) {component : String}
    (hcomponent : component ∈ arrayElements) {values : List Value}
    (hholds : values.all (holds (typeNameToSignature component)) = true)
    (hlength : values.length < 2 ^ 31) :
    b.Achieves (b.arrayOf component values) s vm fun v vm' => vm'.HasArray component v values :=
  (arrayOf_makes hready.stocked hcomponent hholds hlength).of_stocked hready

theorem keyword_holds (p : PrimitiveType) {v : Value} (h : v.tag.toNat = p.letter.toNat) :
    holds (typeNameToSignature p.keyword) v = true := by
  have hletter : (typeNameToSignature p.keyword).toList.head? = some p.letter := by
    cases p <;> decide
  have hplain : p.letter ≠ 'L' ∧ p.letter ≠ '[' := by cases p <;> decide
  unfold holds
  rw [hletter]
  split
  · exact absurd (Option.some.inj ‹_›) hplain.1
  · exact absurd (Option.some.inj ‹_›) hplain.2
  · rename_i letter _ _ hsome
    cases hsome
    exact beq_iff_eq.mpr h
  · cases ‹_›

theorem primitive_holds {v : Value} {name : String} (h : v.primitiveName? = some name) :
    name ∈ arrayElements ∧ holds (typeNameToSignature name) v = true := by
  cases v with
  | boolean _ => cases h; exact ⟨by simp [arrayElements], keyword_holds .boolean rfl⟩
  | byte _ => cases h; exact ⟨by simp [arrayElements], keyword_holds .byte rfl⟩
  | char _ => cases h; exact ⟨by simp [arrayElements], keyword_holds .char rfl⟩
  | short _ => cases h; exact ⟨by simp [arrayElements], keyword_holds .short rfl⟩
  | int _ => cases h; exact ⟨by simp [arrayElements], keyword_holds .int rfl⟩
  | long _ => cases h; exact ⟨by simp [arrayElements], keyword_holds .long rfl⟩
  | float _ => cases h; exact ⟨by simp [arrayElements], keyword_holds .float rfl⟩
  | double _ => cases h; exact ⟨by simp [arrayElements], keyword_holds .double rfl⟩
  | reference _ _ => cases h
  | void => cases h

theorem componentOf?_some {values : List Value} {component : String}
    (h : componentOf? values = some component) :
    component ∈ arrayElements ∧
      values.all (holds (typeNameToSignature component)) = true := by
  unfold componentOf? at h
  split at h
  · rename_i hall
    cases h
    have hletter : (typeNameToSignature ClassName.object).toList.head? = some 'L' := by
      decide
    refine ⟨by simp [arrayElements], ?_⟩
    refine List.all_eq_true.mpr fun v hv => ?_
    unfold holds
    rw [hletter]
    exact List.all_eq_true.mp hall v hv
  · split at h
    · rename_i name hhead
      split at h
      · rename_i hall
        cases h
        obtain ⟨v, -, hname⟩ := Option.bind_eq_some_iff.mp hhead
        refine ⟨(primitive_holds hname).1, List.all_eq_true.mpr fun v' hv' => ?_⟩
        exact (primitive_holds (eq_of_beq (List.all_eq_true.mp hall v' hv'))).2
      · cases h
    · cases h

/-- A new array of values. -/
theorem array_makes (hready : b.stocked.Ready s vm) {values : List Value} {component : String}
    (hcomponent : componentOf? values = some component) (hlength : values.length < 2 ^ 31) :
    b.stocked.Achieves (b.array values) s vm fun v vm' => vm'.HasArray component v values := by
  obtain ⟨helement, hholds⟩ := componentOf?_some hcomponent
  unfold array
  rw [hcomponent]
  exact arrayOf_makes hready helement hholds hlength

theorem array_achieves (hready : b.Ready s vm) {values : List Value} {component : String}
    (hcomponent : componentOf? values = some component) (hlength : values.length < 2 ^ 31) :
    b.Achieves (b.array values) s vm fun v vm' => vm'.HasArray component v values :=
  (array_makes hready.stocked hcomponent hlength).of_stocked hready

theorem componentOf?_references {values : List Value} (h : ∀ v ∈ values, v.isReference = true) :
    componentOf? values = some ClassName.object :=
  if_pos (List.all_eq_true.mpr h)

/-- A new array of two references. -/
theorem array_pair_achieves (hready : b.Ready s vm) {v v' : Value} (hv : v.isReference = true)
    (hv' : v'.isReference = true) :
    b.Achieves (b.array [v, v']) s vm fun r vm' => vm'.HasArray ClassName.object r [v, v'] :=
  array_achieves hready (componentOf?_references (by simp [hv, hv']))
    (show 2 < 2 ^ 31 by decide)

/-- A new array of one value is not one of exceptions. -/
theorem array_one_achieves (hready : b.Ready s vm) {v : Value} (hv : v ≠ .void) :
    b.Achieves (b.array [v]) s vm fun r vm' => ∃ component ∈ arrayElements,
      component ≠ ClassName.throwable ∧ vm'.HasArray component r [v] := by
  have hcomponent : ∃ component, componentOf? [v] = some component ∧
      component ≠ ClassName.throwable := by
    cases v with
    | void => exact absurd rfl hv
    | reference _ _ => exact ⟨_, rfl, by decide⟩
    | boolean _ => exact ⟨_, rfl, by decide⟩
    | byte _ => exact ⟨_, rfl, by decide⟩
    | char _ => exact ⟨_, rfl, by decide⟩
    | short _ => exact ⟨_, rfl, by decide⟩
    | int _ => exact ⟨_, rfl, by decide⟩
    | long _ => exact ⟨_, rfl, by decide⟩
    | float _ => exact ⟨_, rfl, by decide⟩
    | double _ => exact ⟨_, rfl, by decide⟩
  obtain ⟨component, hsome, hne⟩ := hcomponent
  refine (array_achieves hready hsome (show 1 < 2 ^ 31 by decide)).mono fun r vm' _ h => ?_
  exact ⟨component, (componentOf?_some hsome).1, hne, h⟩

/-! ## Reading -/

theorem readArray_learns (hready : b.Ready s vm) {component : String} {v : Value}
    {values : List Value} (h : vm.HasArray component v values) :
    b.Learns (readArray v) s vm values := by
  obtain ⟨id, rfl, c, hc, -, hobject⟩ := h
  unfold readArray
  rw [objectId?_reference (hready.equipped.toProper.ne_zero hobject)]
  refine Learns.bind (learns_command hready rfl
    (does_arrayLength hready.halted.alive hobject)) fun s₁ hready₁ => ?_
  by_cases hempty : (values.length : Int) = 0
  · obtain rfl := List.length_eq_zero_iff.mp (Int.ofNat_eq_zero.mp hempty)
    exact learns_pure hready₁ _
  · exact achieves_ite_neg hempty
      (learns_command hready₁ rfl (does_arrayValues hready₁.halted.alive hobject))

end Bridge

/-- A value that reads as it is, whatever the machine. -/
def Value.plain? : Value → Option TraceValue
  | .boolean v => some (.boolean v)
  | .byte v => some (.byte v)
  | .char v => some (.char v)
  | .short v => some (.short v)
  | .int v => some (.int v)
  | .long v => some (.long v)
  | .float bits => some (.float bits)
  | .double bits => some (.double bits)
  | .void => some .null
  | .reference _ id => if id = 0 then some .null else none

/-- What a value reads as: a string by its text, and another object by the name of its class. -/
inductive Vm.Reads (vm : Vm) : Value → TraceValue → Prop
  | plain {v : Value} {t : TraceValue} (h : v.plain? = some t) : Reads vm v t
  | string {id : ObjectId} {type : TypeId} {text : String}
    (h : vm.lookup? id = some { type, object := .string text }) :
    Reads vm (.reference Tag.string id) (.string text)
  | object {tag : UInt8} {id : ObjectId} {c : ClassDef} {object : HeapObject}
    (htag : tag ≠ Tag.string) (hc : c ∈ vm.classes)
    (h : vm.lookup? id = some { type := c.id, object }) :
    Reads vm (.reference tag id) (.object c.typeName id)

theorem Vm.Reads.extended {vm vm' : Vm} {v : Value} {t : TraceValue} (h : vm.Reads v t)
    (ht : vm.Extended vm') : vm'.Reads v t := by
  cases h with
  | plain h => exact .plain h
  | string h => exact .string (ht.objects h)
  | object htag hc h =>
      obtain ⟨c', hc', hstays⟩ := ht.classes _ hc
      have hread := Vm.Reads.object htag hc' (hstays.id ▸ ht.objects h)
      rwa [hstays.typeName] at hread

namespace Bridge

variable {b : Bridge} {s : BridgeState} {vm vm' : Vm} {c : ClassDef}

theorem readValue_learns (hready : b.Ready s vm) {v : Value} {t : TraceValue}
    (h : vm.Reads v t) : b.Learns (readValue v) s vm t := by
  cases h with
  | plain h =>
      cases v with
      | reference tag id =>
          simp only [Value.plain?] at h
          split at h
          · cases h
            exact achieves_ite_pos ‹_› (learns_pure hready _)
          · cases h
      | _ =>
          cases h
          exact learns_pure hready _
  | string h =>
      have hid := hready.equipped.toProper.ne_zero h
      refine achieves_ite_neg hid (achieves_ite_pos rfl ?_)
      unfold readString
      rw [objectId?_reference hid]
      refine Learns.bind (learns_command hready rfl (does_stringValue hready.halted.alive h))
        fun s₁ hready₁ => learns_pure hready₁ _
  | object htag hc h =>
      have hid := hready.equipped.toProper.ne_zero h
      refine achieves_ite_neg hid (achieves_ite_neg htag ?_)
      exact (typeOf_learns hready (objectId?_reference hid) hc h).bind
        fun s₁ hready₁ => learns_pure hready₁ _

/-! ## Invocations -/

/-- If the value is an object, its class is loaded. -/
def Known (vm : Vm) (v : Value) : Prop :=
  ∀ id, v.objectId? = some id → ∃ c ∈ vm.classes, ∃ object,
    vm.lookup? id = some { type := c.id, object }

theorem keep_achieves (hready : b.Ready s vm) {v : Value} (hv : Known vm v) :
    b.Achieves (keep v) s vm fun _ vm' => ∃ pins, vm' = { vm with pins } := by
  unfold keep
  cases hid : v.objectId? with
  | none => exact achieves_pure hready ⟨_, rfl⟩
  | some id =>
      obtain ⟨c, hc, object, hobject⟩ := hv id hid
      refine (typeOf_learns hready hid hc hobject).bind fun s₁ hready₁ => ?_
      refine store_achieves hready₁ c.typeName fun id' hid' => ?_
      rw [hid] at hid'
      cases hid'
      exact ⟨_, hobject⟩

/-- What the method returns is what the invocation yields. -/
structure Returns (vm : Vm) (post : Value → Vm → Prop) (o : InvokeOutcome) (vm' : Vm) : Prop where
  quiet : o.exception = none
  extended : vm.Extended vm'
  known : Known vm' o.value
  post : post o.value vm'

/-- What was said of a value is still true of an extended machine. -/
def Stable (post : Value → Vm → Prop) : Prop :=
  ∀ v vm vm', post v vm → vm.Extended vm' → post v vm'

theorem known_array {component : String} {v : Value} {values : List Value}
    (h : vm.HasArray component v values) : Known vm v := by
  obtain ⟨id, rfl, c, hc, -, hobject⟩ := h
  intro id' hid'
  change (if id = 0 then none else some id) = some id' at hid'
  split at hid'
  · cases hid'
  · cases hid'
    exact ⟨c, hc, _, hobject⟩

theorem Known.extended {v : Value} (h : Known vm v) (ht : vm.Extended vm') : Known vm' v := by
  intro id hid
  obtain ⟨c, hc, object, hobject⟩ := h id hid
  obtain ⟨c', hc', hstays⟩ := ht.classes c hc
  exact ⟨c', hc', object, hstays.id ▸ ht.objects hobject⟩

section

variable {post : Value → Vm → Prop} (hstable : Stable post) {o : InvokeOutcome}

include hstable

theorem Returns.noted (h : Returns vm post o vm') (invocations : List String) :
    Returns vm post o { vm' with invocations } := by
  have hnote := extended_note h.extended.equipped vm'.pins invocations
  exact ⟨h.quiet, h.extended.trans hnote, h.known.extended hnote, hstable _ _ _ h.post hnote⟩

theorem finishInvocation_achieves (hready : b.Ready s vm') (method : String)
    (h : Returns vm post o vm') : b.Achieves (finishInvocation method o) s vm' post := by
  unfold finishInvocation
  rw [h.quiet]
  refine (keep_achieves hready h.known).bind ?_
  rintro _ s₁ _ hready₁ hextended₁ ⟨pins, rfl⟩
  exact achieves_pure hready₁ (hstable _ _ _ h.post hextended₁)

/-- An invocation of a method that the search finds in a class above the object's. -/
theorem invoke_achieves (hready : b.Ready s vm) {receiver : Value} {id : ObjectId}
    (hid : receiver.objectId? = some id) {type : TypeId} {object : HeapObject}
    (hobject : vm.lookup? id = some { type, object }) {p : ClassDef} (hp : p ∈ vm.classes)
    (hsub : vm.classes.isSubtype type p.id = true) {name descriptor : String} {m : MethodDef}
    (hfound : ∀ s', b.Ready s' vm → b.Learns (method type name descriptor) s' vm (p.id, m.info))
    (hm : m ∈ p.methods) (hspec : m.spec = (name, descriptor, false))
    (hdefine : name ≠ "defineClass") {args : List Value}
    (hfits : fitsAll (parameterLetters descriptor) args = true)
    (hbody : (runMethod id name descriptor args).Does vm (Returns vm post)) :
    b.Achieves (b.invoke receiver name descriptor args) s vm post := by
  obtain ⟨hmname, hmspec⟩ := Prod.mk.inj hspec
  obtain ⟨hmdescriptor, hstatic⟩ := Prod.mk.inj hmspec
  subst hmname hmdescriptor
  unfold invoke
  rw [hid]
  refine Learns.bind (learns_command hready rfl (does_objectType hready.halted.alive hobject))
    fun s₁ hready₁ => (hfound s₁ hready₁).bind fun s₂ hready₂ => ?_
  have hcall : (respond (.invokeVirtual id b.thread p.id m.id args b.options)).Does vm
      (Returns vm post) := by
    rw [hready₂.thread]
    refine does_stopped hready₂.halted (invoke_virtual_does hready₂.equipped.toProper
      hready₂.unwatched hp hm hfits hstatic hobject hsub fun what => ?_)
    rw [if_neg hdefine]
    refine hbody.mono fun o vm' h =>
      ⟨h.extended.requests, fun hthrows => absurd h.quiet hthrows, ?_⟩
    exact h.noted hstable _
  refine .bind (achieves_commandOr hready₂ rfl (hcall.mono fun o vm' h => ⟨h.extended, h⟩)) ?_
  intro o s₃ vm₃ hready₃ _ h
  exact finishInvocation_achieves hstable hready₃ _ h

/-- An invocation of a method that the object's own class has. -/
theorem invoke_own_achieves (hready : b.Ready s vm) {receiver : Value} {id : ObjectId}
    (hid : receiver.objectId? = some id) (hc : c ∈ vm.classes) {object : HeapObject}
    (hobject : vm.lookup? id = some { type := c.id, object }) {loader : ObjectId}
    {spec : ClassSpec} (hdeclares : c.Declares loader spec) {name descriptor : String}
    (hlisted : (spec.methods.find? fun m => m.1 == name && m.2.1 == descriptor) =
      some (name, descriptor, false))
    (hdefine : name ≠ "defineClass") {args : List Value}
    (hfits : fitsAll (parameterLetters descriptor) args = true)
    (hbody : (runMethod id name descriptor args).Does vm (Returns vm post)) :
    b.Achieves (b.invoke receiver name descriptor args) s vm post := by
  obtain ⟨m, hm, hmethod, hspec⟩ := hdeclares.method? hlisted
  exact invoke_achieves hstable hready hid hobject hc (isSubtype_self _ _)
    (fun s' hready' => method_learns hready' hc hmethod) hm hspec hdefine hfits hbody

/-- An invocation of a static method. -/
theorem invokeStatic_achieves (hready : b.Ready s vm) {className name descriptor : String}
    (hresolves : Resolvable vm className) {args : List Value}
    (hclass : ∀ vm' : Vm, vm.Extended vm' → ∀ c ∈ vm'.classes,
      c.signature = typeNameToSignature className → c.name = className ∧
        ∃ m ∈ c.methods, c.method? name descriptor = some m ∧ m.spec = (name, descriptor, true))
    (hfits : fitsAll (parameterLetters descriptor) args = true)
    (hbody : ∀ vm' : Vm, vm.Extended vm' →
      (runStatic className name descriptor args).Does vm' (Returns vm' post)) :
    b.Achieves (b.invokeStatic className name descriptor args) s vm post := by
  unfold invokeStatic
  refine (resolveType_achieves hready hresolves).bind ?_
  rintro _ s₁ vm₁ hready₁ hextended₁ ⟨c, hc, rfl, hsignature⟩
  obtain ⟨hname, m, hm, hmethod, hspec⟩ := hclass vm₁ hextended₁ c hc hsignature
  obtain ⟨hmname, hmspec⟩ := Prod.mk.inj hspec
  obtain ⟨hmdescriptor, hstatic⟩ := Prod.mk.inj hmspec
  subst hmname hmdescriptor
  refine (method_learns hready₁ hc hmethod).bind fun s₂ hready₂ => ?_
  have hcall : (respond (.invokeStatic c.id b.thread m.id args b.options)).Does vm₁
      (Returns vm₁ post) := by
    rw [hready₂.thread]
    refine does_stopped hready₂.halted (invoke_static_does hready₂.equipped.toProper
      hready₂.unwatched hc hm hfits hstatic fun what => ?_)
    rw [hname]
    refine (hbody vm₁ hextended₁).mono fun o vm' h =>
      ⟨h.extended.requests, fun hthrows => absurd h.quiet hthrows, h.noted hstable _⟩
  refine .bind (achieves_commandOr hready₂ rfl (hcall.mono fun o vm' h => ⟨h.extended, h⟩)) ?_
  intro o s₃ vm₃ hready₃ _ h
  exact finishInvocation_achieves hstable hready₃ _ h

end

/-! ## Classes above a class -/

/-- A look at a class for its name. -/
theorem look_name_learns (hready : b.Ready s vm) (hc : c ∈ vm.classes)
    (hname : IsComponent c.name) (expected : String) :
    b.Learns (do return if (← typeName c.id) = expected then some () else none) s vm
      (if c.name = expected then some () else none) := by
  refine (typeName_learns hready hc).bind fun s₁ hready₁ => ?_
  rw [hready₁.equipped.typeName_of_component hc hname]
  exact learns_pure hready₁ _

/-- A class of the library, with what is above it. -/
theorem library_linked (hvm : vm.Equipped) {spec : ClassSpec} (hspec : spec ∈ librarySpecs) :
    ∃ c ∈ vm.classes, c.name = spec.name ∧ c.isInterface = spec.isInterface ∧
      c.Linked vm.classes spec := by
  obtain ⟨c, hc, hdeclares, hlinked⟩ := hvm.library spec hspec
  exact ⟨c, hc, hdeclares.name, hdeclares.isInterface, hlinked⟩

/-- A map of the debuggee is one. -/
theorem isInstanceOf_map_learns (hready : b.Ready s vm) {v : Value} {id : ObjectId}
    (hid : v.objectId? = some id) {entries : List (Int32 × Element)}
    (hmap : vm.HasObject id ClassName.linkedHashMap (.map entries)) :
    b.Learns (isInstanceOf v ClassName.map) s vm true := by
  have hobjectSpec : { name := ClassName.object, superclass := none
                       methods := [("<init>", "()V", false)] : ClassSpec } ∈ librarySpecs := by
    simp [librarySpecs, firstSpecs, loaderSpecs]
  have hvm := hready.equipped
  obtain ⟨c, hc, hname, hobject⟩ := hmap
  obtain ⟨c', hc', hname', hclass, hlinked⟩ := library_linked hvm mapSpec_library
  obtain rfl := hvm.distinct.eq_of_name hc hc' (hname.trans hname'.symm)
  obtain ⟨o, ho, honame, hsuperclass⟩ := hlinked.superclass _ rfl
  obtain ⟨o', ho', honame', hoclass, holinked⟩ := library_linked hvm hobjectSpec
  obtain rfl := hvm.distinct.eq_of_name ho ho' (honame.trans honame'.symm)
  obtain ⟨m, hm, hmname, hinterfaces⟩ : ∃ m ∈ vm.classes, m.name = ClassName.map ∧
      c.interfaces = [m.id] := by
    obtain ⟨_, _, ⟨m, hm, hmname, rfl⟩, hrest, heq⟩ :=
      List.forall₂_cons_left_iff.mp hlinked.interfaces
    rw [List.forall₂_nil_left_iff.mp hrest] at heq
    exact ⟨m, hm, hmname, heq⟩
  have hobjectAbove : o.superclass.toList ++ o.interfaces = [] := by
    rw [holinked.root rfl, List.forall₂_nil_left_iff.mp holinked.interfaces]
    rfl
  have habove : c.superclass.toList ++ c.interfaces = [o.id, m.id] := by
    rw [hsuperclass, hinterfaces]
    rfl
  -- The three classes have different names.
  have hdiffers : ∀ {d d' : ClassDef}, d ∈ vm.classes → d' ∈ vm.classes → d.name ≠ d'.name →
      d.id ≠ d'.id := fun hd hd' hne heq => hne (congrArg _ (hvm.distinct.eq_of_id hd hd' heq))
  have hoc := hdiffers ho hc (by rw [honame, hname]; decide)
  have hmc := hdiffers hm hc (by rw [hmname, hname]; decide)
  have hmo := hdiffers hm ho (by rw [hmname, honame]; decide)
  have hlook : ∀ {d : ClassDef} {s'}, b.Ready s' vm → d ∈ vm.classes → IsComponent d.name →
      b.Learns (do return if (← typeName d.id) = ClassName.map then some () else none) s' vm
        (if d.name = ClassName.map then some () else none) := fun hready' hd hcomponent =>
    look_name_learns hready' hd hcomponent _
  have hbehind : ([] ++ [o.id, m.id]).dropWhile (· ∈ [c.id]) = o.id :: [m.id] := by simp [hoc]
  have hlast : ([m.id] ++ []).dropWhile (· ∈ [o.id, c.id]) = m.id :: [] := by simp [hmo, hmc]
  obtain ⟨fuel, hfuel⟩ := typeSearchBound_eq
  unfold isInstanceOf
  rw [hid, hfuel]
  refine Learns.bind (learns_command hready rfl (does_objectType hready.halted.alive hobject))
    fun s₁ hready₁ => Learns.bind (a := some ()) ?_ fun s₂ hready₂ => learns_pure hready₂ _
  refine searchTypes_next rfl ?_ (fun s' hready' => habove ▸ supertypes_learns hready' hc hclass)
    fun s₃ hready₃ => searchTypes_next hbehind ?_
      (fun s' hready' => hobjectAbove ▸ supertypes_learns hready' ho hoclass)
      fun s₄ hready₄ => searchTypes_found hlast ?_
  · have hlooked := hlook hready₁ hc (hname ▸ by decide)
    rwa [hname] at hlooked
  · have hlooked := hlook hready₃ ho (honame ▸ by decide)
    rwa [honame] at hlooked
  · have hlooked := hlook hready₄ hm (hmname ▸ by decide)
    rwa [hmname] at hlooked

end Bridge

end StreamTrace
