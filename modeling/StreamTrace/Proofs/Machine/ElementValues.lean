import StreamTrace.Proofs.Machine.ClassLookup

/-!
# Elements and arrays in the machine

How the elements that a stream carries come to stand in the machine: as boxes of their own or as
primitive values. The helper that formats a map makes an array of its keys and one of its elements.
-/

namespace StreamTrace

open VmCommand

/-- The class of an element's box. Strings are objects themselves. -/
def Element.boxName? : Element → Option String
  | .null => none
  | .str _ => none
  | .bool _ => some "java.lang.Boolean"
  | .int _ => some "java.lang.Integer"
  | .long _ => some "java.lang.Long"
  | .double _ => some "java.lang.Double"

/-- The source name of the elements of a formatted array. -/
def ElementType.componentName : ElementType → String
  | .object => ClassName.object
  | .int => "int"
  | .long => "long"
  | .double => "double"

namespace Vm

variable {vm vm' : Vm} {e : Element} {v : Value}

/-! ## Boxes -/

/-- The object is of that class. -/
def HasObject (vm : Vm) (id : ObjectId) (className : String) (object : HeapObject) : Prop :=
  ∃ c ∈ vm.classes, c.name = className ∧ vm.lookup? id = some { type := c.id, object }

theorem HasObject.extended {id : ObjectId} {className : String} {object : HeapObject}
    (h : vm.HasObject id className object) (ht : vm.Extended vm') :
    vm'.HasObject id className object := by
  obtain ⟨c, hc, hname, hobject⟩ := h
  obtain ⟨c', hc', hstays⟩ := ht.classes c hc
  exact ⟨c', hc', hstays.name.trans hname, hstays.id ▸ ht.objects hobject⟩

/-- An object of a library class is made. -/
theorem hasObject_make (hvm : vm.Equipped) {spec : ClassSpec} (hspec : spec ∈ librarySpecs)
    (object : HeapObject) :
    (vm.make { type := vm.appClass spec.name, object }).HasObject (vm.nextId + 1) spec.name
      object := by
  obtain ⟨c, hc, hdeclares, -, happ⟩ := hvm.librarySpec hspec
  exact ⟨c, hc, hdeclares.name, happ ▸ vm.lookup?_make_self _⟩

/-- The class of the maps in which a debugger records elements. -/
def mapSpec : ClassSpec :=
  { name := ClassName.linkedHashMap, interfaces := [ClassName.map]
    methods := [("<init>", "()V", false)] }

theorem mapSpec_library : mapSpec ∈ librarySpecs := by
  simp [librarySpecs, laterSpecs, collectionSpecs, mapSpec]

/-- The class of the counter that serves as the clock. -/
def clockSpec : ClassSpec :=
  { name := ClassName.atomicInteger
    methods :=
      [("<init>", "()V", false), ("<init>", "(I)V", false), ("get", "()I", false),
        ("incrementAndGet", "()I", false)] }

theorem clockSpec_library : clockSpec ∈ librarySpecs := by
  simp [librarySpecs, laterSpecs, collectionSpecs, clockSpec]

/-- The reference that an element is boxed in. -/
inductive Boxes (vm : Vm) : Element → Value → Prop
  | null : Boxes vm .null .null
  | string {s : String} {id : ObjectId} (h : vm.HasObject id ClassName.string (.string s)) :
    Boxes vm (.str s) (.reference Tag.string id)
  | box {e : Element} {name : String} {id : ObjectId} (hname : e.boxName? = some name)
    (h : vm.HasObject id name (.boxed e)) : Boxes vm e (.reference Tag.object id)

theorem Boxes.extended (h : vm.Boxes e v) (ht : vm.Extended vm') : vm'.Boxes e v := by
  cases h with
  | null => exact .null
  | string h => exact .string (h.extended ht)
  | box hname h => exact .box hname (h.extended ht)

/-- The value that stands for an element in a stream of that type. -/
def Presents (vm : Vm) (stream : ElementType) (e : Element) (v : Value) : Prop :=
  if stream = .object then vm.Boxes e v else v = unboxed e

theorem Presents.extended {stream : ElementType} (h : vm.Presents stream e v)
    (ht : vm.Extended vm') : vm'.Presents stream e v := by
  unfold Presents at h ⊢
  split
  · rw [if_pos ‹_›] at h
    exact h.extended ht
  · rw [if_neg ‹_›] at h
    exact h

theorem box_boxes (hvm : vm.Equipped) (e : Element) :
    vm.Extended ((box e).run vm).2 ∧ ((box e).run vm).2.Boxes e ((box e).run vm).1 := by
  have hlanguage : ∀ spec ∈ languageSpecs, spec ∈ librarySpecs := fun spec hspec =>
    List.mem_append_right _ (List.mem_append_left _ hspec)
  have hboxed : ∀ spec ∈ languageSpecs, e.boxName? = some spec.name →
      let vm' := vm.make { type := vm.appClass spec.name, object := .boxed e }
      vm.Extended vm' ∧ vm'.Boxes e (vm'.valueOf (vm.nextId + 1)) := by
    intro spec hspec hname
    refine ⟨extended_make hvm _, ?_⟩
    have hvalue : (vm.make { type := vm.appClass spec.name, object := .boxed e }).valueOf
        (vm.nextId + 1) = .reference Tag.object (vm.nextId + 1) := by
      unfold valueOf object?
      rw [lookup?_make_self]
      rfl
    rw [hvalue]
    exact .box hname (hasObject_make hvm (hlanguage spec hspec) _)
  cases e with
  | null => exact ⟨.refl hvm, .null⟩
  | str s =>
      have hobject := hasObject_make hvm (hlanguage
        { name := ClassName.string, methods := [("length", "()I", false)] }
        (by simp [languageSpecs])) (.string s)
      have hrun : (box (.str s)).run vm =
          (.reference Tag.string (vm.nextId + 1), vm.make (vm.stringObject s)) := by
        show (newString s).run vm = _
        rw [newString_run]
        unfold valueOf object?
        rw [lookup?_make_self]
        rfl
      rw [hrun]
      exact ⟨extended_make hvm _, .string hobject⟩
  | bool b => exact hboxed { name := "java.lang.Boolean" } (by simp [languageSpecs]) rfl
  | int n =>
      exact hboxed { name := "java.lang.Integer", methods := [("intValue", "()I", false)] }
        (by simp [languageSpecs]) rfl
  | long n => exact hboxed { name := "java.lang.Long" } (by simp [languageSpecs]) rfl
  | double bits => exact hboxed { name := "java.lang.Double" } (by simp [languageSpecs]) rfl

theorem materialize_presents (hvm : vm.Equipped) (stream : ElementType) (e : Element) :
    vm.Extended ((materialize e stream).run vm).2 ∧
      ((materialize e stream).run vm).2.Presents stream e ((materialize e stream).run vm).1 := by
  unfold materialize Presents
  split
  · exact box_boxes hvm e
  · exact ⟨.refl hvm, rfl⟩

theorem materializeAll_presents (hvm : vm.Equipped) (stream : ElementType)
    (items : List Element) :
    vm.Extended ((materializeAll stream items).run vm).2 ∧
      List.Forall₂ (((materializeAll stream items).run vm).2.Presents stream) items
        ((materializeAll stream items).run vm).1 := by
  induction items generalizing vm with
  | nil => exact ⟨.refl hvm, .nil⟩
  | cons e rest ih =>
      obtain ⟨hextended, hfirst⟩ := materialize_presents hvm stream e
      obtain ⟨hextended', hrest⟩ := ih hextended.equipped
      exact ⟨hextended.trans hextended', .cons (hfirst.extended hextended') hrest⟩

/-! ## Arrays -/

/-- The value refers to an array with that component type and these values. -/
def HasArray (vm : Vm) (component : String) (v : Value) (values : List Value) : Prop :=
  ∃ id, v = .reference Tag.array id ∧ ∃ c ∈ vm.classes,
    c.signature = typeNameToSignature s!"{component}[]" ∧ vm.lookup? id =
      some { type := c.id, object := .array (typeNameToSignature component) values }

theorem HasArray.extended {component : String} {values : List Value}
    (h : vm.HasArray component v values) (ht : vm.Extended vm') :
    vm'.HasArray component v values := by
  obtain ⟨id, rfl, c, hc, hsignature, hobject⟩ := h
  obtain ⟨c', hc', hstays⟩ := ht.classes c hc
  exact ⟨id, rfl, c', hc', hstays.signature.trans hsignature, hstays.id ▸ ht.objects hobject⟩

theorem HasArray.isReference {component : String} {values : List Value}
    (h : vm.HasArray component v values) : v.isReference = true := by
  obtain ⟨id, rfl, -⟩ := h
  rfl

theorem newArray_has (hvm : vm.Equipped) {component : String} (hname : IsComponent component)
    (values : List Value) :
    vm.Extended ((newArray (typeNameToSignature component) values).run vm).2 ∧
      ((newArray (typeNameToSignature component) values).run vm).2.HasArray component
        ((newArray (typeNameToSignature component) values).run vm).1 values := by
  -- Either way the array is made of a class with the right signature.
  have hmakes : ∀ {vm₁ : Vm} {c : ClassDef}, vm.Extended vm₁ → c ∈ vm₁.classes →
      c.signature = s!"[{typeNameToSignature component}" →
      let e : TypedObject := ⟨c.id, .array (typeNameToSignature component) values⟩
      vm.Extended (vm₁.make e) ∧
        (vm₁.make e).HasArray component ((vm₁.make e).valueOf (vm₁.nextId + 1)) values := by
    intro vm₁ c hextended hc hsignature e
    refine ⟨hextended.trans (extended_make hextended.equipped _), vm₁.nextId + 1, ?_, c, hc, ?_,
      vm₁.lookup?_make_self _⟩
    · unfold valueOf object?
      rw [lookup?_make_self]
      rfl
    · rw [hsignature, typeNameToSignature_array]
  unfold newArray
  rw [run_get_bind]
  cases hfound : vm.classes.bySignature? s!"[{typeNameToSignature component}" with
  | some c =>
      have hsignature := List.find?_some hfound
      rw [beq_iff_eq] at hsignature
      exact hmakes (.refl hvm) (List.mem_of_find?_eq_some hfound) hsignature
  | none =>
      have hnew : ∀ c ∈ vm.classes, c.signature ≠ s!"[{typeNameToSignature component}" := by
        intro c hc heq
        exact absurd heq (by simpa using List.find?_eq_none.mp hfound c hc)
      have hextended := extended_declareArray hvm hname hnew
      rw [declareArray_run] at hextended
      exact hmakes hextended (List.mem_append_right _ List.mem_cons_self) rfl

/-! ## Formatted maps -/

/-- The value is an array of an array of times and an array of elements. -/
def Formats (vm : Vm) (element : ElementType) (entries : List (Int32 × Element)) (v : Value) :
    Prop :=
  ∃ keys values presented, vm.HasArray ClassName.object v [keys, values] ∧
    vm.HasArray "int" keys (entries.map fun e => .int e.1) ∧
    vm.HasArray element.componentName values presented ∧
    List.Forall₂ (vm.Presents element) (entries.map (·.2)) presented

theorem isComponent_componentName (element : ElementType) :
    IsComponent element.componentName := by
  cases element <;> decide

theorem componentOf_eq (element : ElementType) :
    componentOf element = typeNameToSignature element.componentName := by
  cases element <;> decide

theorem find?_formatMethod (element : ElementType) :
    ElementType.all.find? (·.formatMethod == element.formatMethod) = some element := by
  cases element <;> decide

theorem formatMap_does (hvm : vm.Equipped) (element : ElementType) {map : Value} {id : ObjectId}
    {type : TypeId} {entries : List (Int32 × Element)} (hid : map.objectId? = some id)
    (hmap : vm.lookup? id = some { type, object := .map entries }) :
    (formatMap element.formatMethod map).Does vm fun o vm' =>
      o.exception = none ∧ vm.Extended vm' ∧ vm'.Formats element entries o.value := by
  refine .bind ((mapArgument_does hid hmap).mono ?_)
  rintro r vm' ⟨rfl, rfl⟩
  refine does_getEntry hmap ?_
  rw [find?_formatMethod, Option.getD_some]
  refine does_lift_bind ?_
  obtain ⟨hextended, hpresented⟩ := materializeAll_presents hvm element (entries.map (·.2))
  generalize (materializeAll element (entries.map (·.2))).run vm' = p₁ at hextended hpresented ⊢
  obtain ⟨presented, vm₁⟩ := p₁
  have hint : ("I" : String) = typeNameToSignature "int" := componentOf_eq .int
  have hobject : ("Ljava/lang/Object;" : String) = typeNameToSignature ClassName.object :=
    componentOf_eq .object
  rw [componentOf_eq, hint, hobject]
  refine does_lift_bind ?_
  have hintName : IsComponent "int" := isComponent_componentName .int
  have hobjectName : IsComponent ClassName.object := isComponent_componentName .object
  obtain ⟨hextended₁, hkeys⟩ := newArray_has hextended.equipped hintName
    (entries.map fun e => .int e.1)
  generalize (newArray (typeNameToSignature "int") (entries.map fun e => .int e.1)).run vm₁ = p₂
    at hextended₁ hkeys ⊢
  obtain ⟨keys, vm₂⟩ := p₂
  refine does_lift_bind ?_
  obtain ⟨hextended₂, hvalues⟩ := newArray_has hextended₁.equipped
    (isComponent_componentName element) presented
  generalize (newArray (typeNameToSignature element.componentName) presented).run vm₂ = p₃
    at hextended₂ hvalues ⊢
  obtain ⟨values, vm₃⟩ := p₃
  refine does_lift_bind (does_pure ?_)
  obtain ⟨hextended₃, hboth⟩ := newArray_has hextended₂.equipped hobjectName [keys, values]
  refine ⟨rfl, ((hextended.trans hextended₁).trans hextended₂).trans hextended₃, keys, values,
    presented, hboth, hkeys.extended (hextended₂.trans hextended₃), hvalues.extended hextended₃, ?_⟩
  exact hpresented.imp fun _ _ h => h.extended ((hextended₁.trans hextended₂).trans hextended₃)

/-! ## Methods -/

section

variable {id : ObjectId} {type : TypeId} (descriptor : String) (args : List Value)

theorem runMethod_get {n : Int32} (he : vm.lookup? id = some { type, object := .counter n }) :
    (runMethod id "get" descriptor args).Does vm fun o vm' =>
      o = returned (.int n) ∧ vm' = vm :=
  does_getEntry he (does_pure ⟨rfl, rfl⟩)

theorem runMethod_isPresent {content : Option Element}
    (he : vm.lookup? id = some { type, object := .optional content }) :
    (runMethod id "isPresent" descriptor args).Does vm fun o vm' =>
      o = returned (.boolean content.isSome) ∧ vm' = vm :=
  does_getEntry he (does_pure ⟨rfl, rfl⟩)

theorem runMethod_orElse {content : Option Element} (hvm : vm.Equipped)
    (he : vm.lookup? id = some { type, object := .optional content }) {default : Value}
    (hdefault : arg args 0 = default) :
    (runMethod id "orElse" descriptor args).Does vm fun o vm' =>
      o.exception = none ∧ vm.Extended vm' ∧ (content = none → o.value = default) ∧
        ∀ e, content = some e →
          vm'.Presents (if descriptor = "(I)I" then .int else .object) e o.value := by
  refine does_getEntry he ?_
  cases content with
  | none => exact does_pure ⟨rfl, .refl hvm, fun _ => hdefault, nofun⟩
  | some e =>
      by_cases hint : descriptor = "(I)I"
      · simp only [if_pos hint]
        refine .bind (does_pure (does_pure ⟨rfl, .refl hvm, nofun, ?_⟩))
        rintro e' ⟨⟩
        rfl
      · simp only [if_neg hint]
        refine does_lift_bind (does_pure ?_)
        obtain ⟨hextended, hboxes⟩ := box_boxes hvm e
        refine ⟨rfl, hextended, nofun, ?_⟩
        rintro e' ⟨⟩
        exact hboxes

end

/-! ## Invoked methods -/

theorem unseen_nil (ids : List TypeId) : ClassTable.unseen [] ids = ids := by
  simp [ClassTable.unseen]

theorem isSubtype_self (cs : ClassTable) (type : TypeId) : cs.isSubtype type type = true := by
  unfold ClassTable.isSubtype ClassTable.reaches
  rw [unseen_nil]
  exact if_pos rfl

theorem isSubtype_superclass (hvm : vm.Proper) {c : ClassDef} (hc : c ∈ vm.classes)
    {type : TypeId} (htype : c.superclass = some type) :
    vm.classes.isSubtype c.id type = true := by
  by_cases hself : c.id = type
  · rw [hself]
    exact isSubtype_self _ _
  · have hunseen : ClassTable.unseen [c.id] (type :: c.interfaces) =
        type :: ClassTable.unseen [c.id] c.interfaces := by
      simp [ClassTable.unseen, Ne.symm hself]
    unfold ClassTable.isSubtype ClassTable.reaches
    simp only [unseen_nil, if_neg hself, hvm.distinct.byId? hc, htype, List.nil_append,
      Option.toList_some, List.singleton_append]
    unfold ClassTable.reaches
    rw [hunseen]
    exact if_pos rfl

section

variable (hvm : vm.Proper) (hwatch : vm.Unwatched) {c : ClassDef} {m : MethodDef}
  (hc : c ∈ vm.classes) (hm : m ∈ c.methods) {args : List Value}
  (hfits : fitsAll (parameterLetters m.descriptor) args = true)
  {post : InvokeOutcome → Vm → Prop}

include hvm hwatch hc hm hfits

theorem invoke_static_does (hstatic : m.isStatic = true)
    (hbody : ∀ what, (runStatic c.name m.name m.descriptor args).Does vm fun o vm' =>
      vm'.requests = vm.requests ∧ (o.exception ≠ none → vm.Unguarded) ∧
        post o { vm' with invocations := vm'.invocations ++ [what] }) :
    (invoke none c.id m.id args).Does vm post := by
  refine does_getClass hvm hc (does_getMethod hvm hc hm ?_)
  refine does_if_neg (by simp [hstatic]) (.bind ?_)
  unfold requireFitting
  refine does_if_pos hfits (does_pure (does_get_bind ?_))
  exact invocation_does hwatch (hbody _)

theorem invoke_virtual_does (hstatic : m.isStatic = false) {id : ObjectId} {e : TypedObject}
    (he : vm.lookup? id = some e) (hsub : vm.classes.isSubtype e.type c.id = true)
    (hbody : ∀ what, (if m.name = "defineClass" then loadHelper id args
        else runMethod id m.name m.descriptor args).Does vm fun o vm' =>
      vm'.requests = vm.requests ∧ (o.exception ≠ none → vm.Unguarded) ∧
        post o { vm' with invocations := vm'.invocations ++ [what] }) :
    (invoke (some id) c.id m.id args).Does vm post := by
  refine does_getClass hvm hc (does_getMethod hvm hc hm ?_)
  refine does_if_neg (by simp [hstatic]) (.bind ?_)
  unfold requireFitting
  refine does_if_pos hfits (does_pure (does_getEntry he (does_get_bind ?_)))
  refine does_if_neg (by simp [hsub]) ?_
  exact invocation_does hwatch (hbody _)

end

end Vm

end StreamTrace
