import StreamTrace.Machine.Invocation
import StreamTrace.Proofs.Jvm.Signatures
import StreamTrace.Proofs.Machine.LoadedClasses

/-!
# The machine that was booted

Every class is declared after what it names above itself, and no two have one signature. So all
library classes are loaded, each linked to what lies above it, and none goes by the name of a
helper.
-/

namespace StreamTrace

/-! ## The order of declarations -/

def ClassSpec.signature (spec : ClassSpec) : String := typeNameToSignature spec.name

theorem ClassSpec.toList_signature (spec : ClassSpec) :
    spec.signature.toList = (JavaType.ofName spec.name.toList).signature := String.toList_ofList

/-- A class to be declared, and the loader that declares it. -/
abbrev Declaration := ObjectId × ClassSpec

namespace Declaration

/-- The class of that name is declared by the built-in loader. -/
def Finds (before : List Declaration) (name : String) : Prop :=
  ∃ d ∈ before, d.1 = 0 ∧ d.2.name = name

/-- Everything that the declaration names above its class is declared before. -/
def Grounded (d : Declaration) (before : List Declaration) : Prop :=
  (∀ name ∈ d.2.superclass, Finds before name) ∧ ∀ name ∈ d.2.interfaces, Finds before name

instance (before : List Declaration) (name : String) : Decidable (Finds before name) :=
  inferInstanceAs (Decidable (∃ d ∈ before, _))

instance (d : Declaration) (before : List Declaration) : Decidable (d.Grounded before) :=
  inferInstanceAs (Decidable (_ ∧ _))

variable {d : Declaration} {before after ds es : List Declaration}

theorem Grounded.mono (h : d.Grounded before) (hsub : before ⊆ after) : d.Grounded after :=
  ⟨fun name hname => (h.1 name hname).imp fun _ ⟨hd, hfinds⟩ => ⟨hsub hd, hfinds⟩,
    fun name hname => (h.2 name hname).imp fun _ ⟨hd, hfinds⟩ => ⟨hsub hd, hfinds⟩⟩

/-- Each declaration rests on those before it. -/
def Ordered (before : List Declaration) : List Declaration → Prop
  | [] => True
  | d :: rest => d.Grounded before ∧ Ordered (before ++ [d]) rest

instance decidableOrdered (before : List Declaration) :
    (ds : List Declaration) → Decidable (Ordered before ds)
  | [] => isTrue trivial
  | d :: rest =>
    have := decidableOrdered (before ++ [d]) rest
    inferInstanceAs (Decidable (_ ∧ _))

theorem ordered_append :
    Ordered before (ds ++ es) ↔ Ordered before ds ∧ Ordered (before ++ ds) es := by
  induction ds generalizing before with
  | nil => simp [Ordered]
  | cons d rest ih => simp [Ordered, ih, and_assoc]

/-- What rests on one list of declarations can come in any order behind it. -/
theorem ordered_of_grounded (h : ∀ d ∈ ds, d.Grounded before) : Ordered before ds := by
  induction ds generalizing before with
  | nil => trivial
  | cons d rest ih =>
      refine ⟨h d List.mem_cons_self, ih fun d' hmem => ?_⟩
      exact (h d' (List.mem_cons_of_mem _ hmem)).mono (List.subset_append_left _ _)

end Declaration

open Declaration

namespace Vm

/-- The library up to the class of the program's loader. -/
def firstSpecs : List ClassSpec := loaderSpecs ++ [loaderSpec]

/-- The library behind the class of the program's loader. -/
def laterSpecs : List ClassSpec :=
  languageSpecs ++ (collectionSpecs ++ (functionalSpecs ++ streamSpecs))

def librarySpecs : List ClassSpec := firstSpecs ++ laterSpecs

/-- The signatures of the classes behind that of the program's loader, as they are loaded. -/
def laterSignatures : List String :=
  languageSpecs.map ClassSpec.signature ++
    ((arrayComponents.map fun component => s!"[{component}") ++
      (collectionSpecs.map ClassSpec.signature ++ (functionalSpecs.map ClassSpec.signature ++
        (streamSpecs.map ClassSpec.signature ++ programSpecs.map ClassSpec.signature))))

/-- All class signatures of a booted machine, and those of the helpers. -/
def bootSignatures : List String :=
  firstSpecs.map ClassSpec.signature ++
    (laterSignatures ++ HelperClass.all.map fun h => (helperSpec h).signature)

/-- The classes that are loaded at the start are declared, but for those of arrays. -/
theorem declared_or_array {signature : String}
    (h : signature ∈ firstSpecs.map ClassSpec.signature ++ laterSignatures) :
    (∃ spec ∈ librarySpecs ++ programSpecs, spec.signature = signature) ∨
      signature.toList.head? = some '[' := by
  simp only [laterSignatures, List.mem_append, List.mem_map] at h
  rcases h with ⟨spec, hspec, rfl⟩ | ⟨spec, hspec, rfl⟩ | ⟨component, -, rfl⟩ | ⟨spec, hspec, rfl⟩ |
    ⟨spec, hspec, rfl⟩ | ⟨spec, hspec, rfl⟩ | ⟨spec, hspec, rfl⟩
  case inr.inr.inl => exact .inr (by simp [toString])
  all_goals exact .inl ⟨spec, by simp [librarySpecs, laterSpecs, hspec], rfl⟩

theorem lambdaClass_names : lambdaInterfaces.map (fun i => lambdaClass i.1) =
    ["Main$$Lambda$Predicate", "Main$$Lambda$Function", "Main$$Lambda$Consumer",
      "Main$$Lambda$IntPredicate", "Main$$Lambda$IntUnaryOperator",
      "Main$$Lambda$IntConsumer"] := by decide

theorem bootSignatures_nodup : bootSignatures.Nodup := by
  have hletters : (bootSignatures.map String.toList).Nodup := by
    have hlambda := lambdaClass_names
    simp only [lambdaInterfaces, List.map, List.cons.injEq, and_true] at hlambda
    obtain ⟨h₁, h₂, h₃, h₄, h₅, h₆⟩ := hlambda
    simp only [bootSignatures, firstSpecs, laterSignatures, loaderSpecs, loaderSpec,
      languageSpecs, arrayComponents, collectionSpecs, functionalSpecs, streamSpecs, programSpecs,
      abstractSpec, helperSpec, lambdaInterfaces, HelperClass.all, HelperClass.name, List.map,
      List.cons_append, List.nil_append, ClassSpec.toList_signature, String.toList_append, toString,
      ElementType.streamType, ClassName.object, ClassName.classClass, ClassName.string,
      ClassName.throwable, ClassName.classNotFound, ClassName.map, ClassName.linkedHashMap,
      ClassName.atomicInteger, h₁, h₂, h₃, h₄, h₅, h₆]
    -- Literals are compared letter by letter, which takes their letters at hand.
    repeat rw [String.toList_ofList]
    decide
  exact List.Pairwise.of_map String.toList (fun a b hne heq => hne (heq ▸ rfl)) hletters

theorem librarySpecs_ordered : Ordered [] (librarySpecs.map (0, ·)) := by decide

theorem programSpecs_rest (loader : ObjectId) :
    ∀ spec ∈ programSpecs, Grounded (loader, spec) (librarySpecs.map (0, ·)) := by
  have h : ∀ spec ∈ programSpecs, Grounded (0, spec) (librarySpecs.map (0, ·)) := by decide
  exact h

/-- No class that is declared goes by the name of an array or of a primitive type. -/
theorem specs_plain : ∀ spec ∈ librarySpecs ++ programSpecs,
    JavaType.IsPlainName spec.name.toList := by
  have hletters : ((librarySpecs ++ programSpecs).map fun spec => spec.name.toList).all
      fun letters => JavaType.IsPlainName letters := by
    have hlambda := lambdaClass_names
    simp only [lambdaInterfaces, List.map, List.cons.injEq, and_true] at hlambda
    obtain ⟨h₁, h₂, h₃, h₄, h₅, h₆⟩ := hlambda
    simp only [librarySpecs, firstSpecs, laterSpecs, loaderSpecs, loaderSpec, languageSpecs,
      collectionSpecs, functionalSpecs, streamSpecs, programSpecs, abstractSpec, lambdaInterfaces,
      List.map, List.cons_append, List.nil_append, ElementType.streamType, ClassName.object,
      ClassName.classClass, ClassName.string, ClassName.throwable, ClassName.classNotFound,
      ClassName.map, ClassName.linkedHashMap, ClassName.atomicInteger, h₁, h₂, h₃, h₄, h₅, h₆]
    repeat rw [String.toList_ofList]
    decide
  intro spec hspec
  have hplain := List.all_eq_true.mp hletters _ (List.mem_map_of_mem hspec)
  exact of_decide_eq_true hplain

theorem signature_head_plain {spec : ClassSpec} (h : JavaType.IsPlainName spec.name.toList) :
    spec.signature.toList.head? ≠ some '[' := by
  rw [ClassSpec.toList_signature, h.ofName]
  exact nofun

/-! ## Loading one class after another -/

/-- The class of a declaration is loaded, and linked. -/
def Holds (vm : Vm) (d : Declaration) : Prop :=
  ∃ c ∈ vm.classes, c.Declares d.1 d.2 ∧ c.Linked vm.classes d.2

/-- These classes are loaded, and these are the signatures of all that are. -/
structure LoadedExactly (vm : Vm) (ds : List Declaration) (signatures : List String) : Prop
    extends vm.Proper where
  signatures : vm.classes.map (·.signature) = signatures
  holds : ∀ d ∈ ds, vm.Holds d

variable {vm : Vm} {ds es : List Declaration} {signatures new later : List String}

theorem Holds.load {d : Declaration} (h : vm.Holds d) (n : Nat) (c : ClassDef) :
    { vm with nextId := n, classes := vm.classes ++ [c] : Vm }.Holds d := by
  obtain ⟨c', hc', hdeclares, hlinked⟩ := h
  refine ⟨c', List.mem_append_left _ hc', hdeclares, hlinked.mono fun p hp => ?_⟩
  exact ⟨p, List.mem_append_left _ hp, rfl, rfl⟩

theorem LoadedExactly.load (h : vm.LoadedExactly ds signatures) {n : Nat} {c : ClassDef}
    (hc : vm.NewClass n c) :
    { vm with nextId := n, classes := vm.classes ++ [c] : Vm }.LoadedExactly ds
      (signatures ++ [c.signature]) where
  toProper := h.toProper.load hc
  signatures := by
    show (vm.classes ++ [c]).map (·.signature) = _
    rw [List.map_append, h.signatures]
    rfl
  holds := fun d hd => (h.holds d hd).load n c

/-- What a declaration names above its class is found when the class is defined. -/
theorem LoadedExactly.linked (h : vm.LoadedExactly ds signatures) {d : Declaration}
    (hrests : d.Grounded ds)
    {c : ClassDef} (hc : vm.Defines d.1 d.2 c) : c.Linked vm.classes d.2 := by
  have hnamed : ∀ {name : String}, Finds ds name →
      ∃ p ∈ vm.classes, p.name = name ∧ vm.classes.named? name d.1 = some p.id := by
    rintro name ⟨d', hd', hbuiltIn, rfl⟩
    obtain ⟨p, hp, hdeclares, -⟩ := h.holds d' hd'
    have hvisible : p.visibleTo d.1 = true := by
      simp [ClassDef.visibleTo, hdeclares.loader, hbuiltIn]
    exact ⟨p, hp, hdeclares.name, hdeclares.name ▸ h.distinct.named? hp hvisible⟩
  constructor
  · intro hnone
    rw [hc.superclass, hnone]
    rfl
  · intro name hname
    obtain ⟨p, hp, hpname, hfound⟩ := hnamed (hrests.1 name hname)
    refine ⟨p, hp, hpname, ?_⟩
    rw [hc.superclass, hname]
    exact hfound
  · rw [hc.interfaces]
    have hall := hrests.2
    generalize d.2.interfaces = names at hall ⊢
    induction names with
    | nil => exact .nil
    | cons name rest ih =>
        obtain ⟨p, hp, hpname, hfound⟩ := hnamed (hall name List.mem_cons_self)
        rw [List.filterMap_cons_some (f := fun name => vm.classes.named? name d.1) hfound]
        exact .cons ⟨p, hp, hpname, rfl⟩
          (ih fun name hmem => hall name (List.mem_cons_of_mem _ hmem))

/-- These classes, with these signatures, are loaded in that order, and nothing else changes. -/
def Stocking (m : StateM Vm Unit) (ds : List Declaration) (new : List String) : Prop :=
  ∀ (vm : Vm) (before : List Declaration) (signatures : List String),
    vm.LoadedExactly before signatures → Ordered before ds → (signatures ++ new).Nodup →
      (m.run vm).2.LoadedExactly (before ++ ds) (signatures ++ new) ∧
        vm.classes ⊆ (m.run vm).2.classes ∧
        ∃ nextId classes, (m.run vm).2 = { vm with nextId, classes }

theorem stocking_pure : Stocking (pure ()) [] [] := by
  intro vm before signatures h _ _
  rw [List.append_nil, List.append_nil]
  exact ⟨h, List.Subset.refl _, vm.nextId, vm.classes, rfl⟩

theorem Stocking.andThen {m m' : StateM Vm Unit} (h : Stocking m ds new)
    (h' : Stocking m' es later) : Stocking (m >>= fun _ => m') (ds ++ es) (new ++ later) := by
  intro vm before signatures hvm hordered hnodup
  obtain ⟨hds, hes⟩ := ordered_append.mp hordered
  rw [← List.append_assoc] at hnodup ⊢
  obtain ⟨hstocks, hsub, next, classes, hstate⟩ := h vm _ _ hvm hds (List.nodup_append.mp hnodup).1
  obtain ⟨hstocks', hsub', next', classes', hstate'⟩ := h' _ _ _ hstocks hes hnodup
  rw [← List.append_assoc]
  refine ⟨hstocks', List.Subset.trans hsub hsub', next', classes', ?_⟩
  rw [run_bind, hstate', hstate]

theorem stocking_define (d : Declaration) (hplain : d.2.signature.toList.head? ≠ some '[') :
    Stocking (do let _ ← define d.1 d.2) [d] [d.2.signature] := by
  intro vm before signatures h hordered hnodup
  obtain ⟨c, hc, hrun⟩ := define_run d.1 d.2 vm
  have hclass : vm.NewClass (vm.nextId + 1 + d.2.methods.length) c := by
    refine hc.newClass (fun c' hc' heq => ?_) hplain
    refine (List.nodup_append.mp hnodup).2.2 c'.signature ?_ _ List.mem_cons_self heq
    rw [← h.signatures]
    exact List.mem_map_of_mem hc'
  have hlinked := (h.linked hordered.1 hc).mono fun p hp =>
    (⟨p, List.mem_append_left [c] hp, rfl, rfl⟩ :
      ∃ p' ∈ vm.classes ++ [c], p'.name = p.name ∧ p'.id = p.id)
  have hstate : ((do let _ ← define d.1 d.2 : StateM Vm Unit).run vm).2 =
      ((define d.1 d.2).run vm).2 := rfl
  rw [hstate, hrun]
  have hsignature : c.signature = d.2.signature := hc.signature
  refine ⟨⟨(h.load hclass).toProper, hsignature ▸ (h.load hclass).signatures, ?_⟩,
    List.subset_append_left _ _, _, _, rfl⟩
  intro d' hd'
  rcases List.mem_append.mp hd' with hd' | hd'
  · exact (h.load hclass).holds d' hd'
  · rw [List.mem_singleton.mp hd']
    exact ⟨c, by simp, hc.declares, hlinked⟩

theorem stocking_defineAll (loader : ObjectId) {specs : List ClassSpec}
    (hplain : ∀ spec ∈ specs, spec.signature.toList.head? ≠ some '[') :
    Stocking (defineAll loader specs) (specs.map (loader, ·)) (specs.map ClassSpec.signature) := by
  induction specs with
  | nil => exact stocking_pure
  | cons spec rest ih =>
      exact (stocking_define (loader, spec) (hplain spec List.mem_cons_self)).andThen
        (ih fun spec' hmem => hplain spec' (List.mem_cons_of_mem _ hmem))

/-! ## Array classes -/

/-- The class of arrays with that component. -/
def arrayClass (vm : Vm) (component : String) : ClassDef :=
  { id := vm.nextId + 1
    name := (signatureToTypeName? s!"[{component}").getD s!"[{component}"
    signature := s!"[{component}", isArray := true
    superclass := vm.classes.named? "java.lang.Object" 0 }

theorem declareArray_run (component : String) (vm : Vm) :
    (declareArray component).run vm =
      (vm.nextId + 1, { vm with
        nextId := vm.nextId + 1, classes := vm.classes ++ [vm.arrayClass component] }) := rfl

theorem newClass_array {name : String} (hname : IsComponent name)
    (hnew : ∀ c ∈ vm.classes, c.signature ≠ s!"[{typeNameToSignature name}") :
    vm.NewClass (vm.nextId + 1) (vm.arrayClass (typeNameToSignature name)) where
  fresh := Nat.lt_succ_self _
  given := Nat.le_refl _
  new := hnew
  spelled := by
    unfold arrayClass
    rw [hname.signatureToTypeName?_array, Option.getD_some, typeNameToSignature_array]
  isArray _ := rfl
  methods := .nil
  bare := rfl

theorem stocking_declareArrays {names : List String} (hnames : ∀ name ∈ names, IsComponent name) :
    Stocking
      ((names.map typeNameToSignature).forM fun component => do let _ ← declareArray component)
      [] ((names.map typeNameToSignature).map fun component => s!"[{component}") := by
  induction names with
  | nil => exact stocking_pure
  | cons name rest ih =>
      refine Stocking.andThen (?_ : Stocking _ [] [_])
        (ih fun name' hmem => hnames name' (List.mem_cons_of_mem _ hmem))
      intro vm before signatures h _ hnodup
      have hclass : vm.NewClass (vm.nextId + 1) (vm.arrayClass (typeNameToSignature name)) := by
        refine newClass_array (hnames name List.mem_cons_self) fun c hc heq => ?_
        refine (List.nodup_append.mp hnodup).2.2 c.signature ?_ _ List.mem_cons_self heq
        rw [← h.signatures]
        exact List.mem_map_of_mem hc
      rw [List.append_nil]
      exact ⟨h.load hclass, List.subset_append_left _ _, _, _, rfl⟩

theorem arrayComponents_eq : arrayComponents =
    ["byte", "int", "long", "double", "boolean", ClassName.object].map typeNameToSignature := by
  decide

/-! ## Equipped machines -/

/-- The library and the program's classes are loaded, the helpers among the classes are the real
ones, the program's loader is an object of its class, and there are arrays of bytes. -/
structure Equipped (vm : Vm) : Prop extends vm.Proper where
  library : ∀ spec ∈ librarySpecs, vm.Holds (0, spec)
  program : ∀ spec ∈ programSpecs, vm.Holds (vm.appLoader, spec)
  helpers : ∀ c ∈ vm.classes, ∀ h : HelperClass, c.signature = typeNameToSignature h.name →
    c.Declares vm.appLoader (helperSpec h)
  loader : ∃ type, vm.lookup? vm.appLoader = some { type, object := .classLoader } ∧
    ∃ c ∈ vm.classes, c.id = type ∧ c.name = loaderSpec.name
  present : vm.appLoader ≠ 0
  bytes : ∃ c ∈ vm.classes, c.signature = typeNameToSignature "byte[]"

/-- What is loaded behind the loader, which takes the loader for the program's classes. -/
def bootBehind (appLoader : ObjectId) : StateM Vm Unit := do
  defineAll 0 languageSpecs
  arrayComponents.forM fun component => do let _ ← declareArray component
  defineAll 0 collectionSpecs
  defineAll 0 functionalSpecs
  defineAll 0 streamSpecs
  defineAll appLoader programSpecs

theorem stocking_bootBehind (appLoader : ObjectId) :
    Stocking (bootBehind appLoader) (laterSpecs.map (0, ·) ++ programSpecs.map (appLoader, ·))
      laterSignatures := by
  have hall : ∀ spec ∈ librarySpecs ++ programSpecs, spec.signature.toList.head? ≠ some '[' :=
    fun spec hspec => signature_head_plain (specs_plain spec hspec)
  simp only [librarySpecs, laterSpecs, List.mem_append] at hall
  have hcomponents : ∀ name ∈ ["byte", "int", "long", "double", "boolean", ClassName.object],
      IsComponent name := by decide
  have harrays := stocking_declareArrays hcomponents
  rw [← arrayComponents_eq] at harrays
  simp only [laterSpecs, List.map_append, List.append_assoc]
  refine (stocking_defineAll 0 fun spec h => hall spec (by simp [h])).andThen ?_
  refine harrays.andThen ?_
  refine (stocking_defineAll 0 fun spec h => hall spec (by simp [h])).andThen ?_
  refine (stocking_defineAll 0 fun spec h => hall spec (by simp [h])).andThen ?_
  refine (stocking_defineAll 0 fun spec h => hall spec (by simp [h])).andThen ?_
  exact stocking_defineAll appLoader fun spec h => hall spec (by simp [h])

/-- Nothing that a proper machine needs depends on which loader is the program's. -/
theorem LoadedExactly.chooseLoader (h : vm.LoadedExactly ds signatures) (appLoader : ObjectId) :
    { vm with appLoader : Vm }.LoadedExactly ds signatures :=
  ⟨⟨h.null, h.objects, h.types, h.distinct, h.arrays, h.methods, h.stands⟩, h.signatures, h.holds⟩

theorem LoadedExactly.make (h : vm.LoadedExactly ds signatures) (e : TypedObject) :
    (vm.make e).LoadedExactly ds signatures :=
  { h with toProper := h.toProper.make e }

theorem loadedExactly_empty : ({} : Vm).LoadedExactly [] [] :=
  { null := rfl
    objects := fun he => nomatch he
    types := fun _ hc => nomatch hc
    distinct := ⟨.nil, .nil, fun _ hc => nomatch hc⟩
    arrays := fun _ hc => nomatch hc
    methods := fun _ hc => nomatch hc
    stands := fun _ hc => nomatch hc
    signatures := rfl
    holds := fun _ hd => nomatch hd }

theorem defineAll_snoc (loader : ObjectId) (specs : List ClassSpec) (spec : ClassSpec) (vm : Vm) :
    ((defineAll loader (specs ++ [spec])).run vm).2 =
      ((define loader spec).run ((defineAll loader specs).run vm).2).2 := by
  induction specs generalizing vm with
  | nil => rfl
  | cons first rest ih => exact ih ((define loader first).run vm).2

/-- The machine when its loader has been made. -/
theorem loadedExactly_loader : ∃ vm : Vm, booted = ((bootBehind vm.appLoader).run vm).2 ∧
    vm.LoadedExactly (firstSpecs.map (0, ·)) (firstSpecs.map ClassSpec.signature) ∧
    vm.appLoader ≠ 0 ∧
    ∃ type, vm.lookup? vm.appLoader = some { type, object := .classLoader } ∧
      ∃ c ∈ vm.classes, c.id = type ∧ c.name = loaderSpec.name := by
  have hordered := librarySpecs_ordered
  rw [librarySpecs, List.map_append] at hordered
  have hplain : ∀ spec ∈ firstSpecs, spec.signature.toList.head? ≠ some '[' := fun spec hspec =>
    signature_head_plain
      (specs_plain spec (List.mem_append_left _ (List.mem_append_left _ hspec)))
  obtain ⟨hstocks, -⟩ := stocking_defineAll 0 hplain {} [] [] loadedExactly_empty
    (ordered_append.mp hordered).1 (List.nodup_append.mp bootSignatures_nodup).1
  unfold firstSpecs at hstocks
  rw [defineAll_snoc] at hstocks
  generalize hvm₁ : ((defineAll 0 loaderSpecs).run {}).2 = vm₁ at hstocks
  obtain ⟨c, hc, hrun⟩ := define_run 0 loaderSpec vm₁
  rw [hrun] at hstocks
  generalize hvm₂ : { vm₁ with
    nextId := vm₁.nextId + 1 + loaderSpec.methods.length, classes := vm₁.classes ++ [c] } = vm₂
    at hstocks hrun
  have hmem : c ∈ vm₂.classes := by simp [← hvm₂]
  refine ⟨{ vm₂.make { type := c.id, object := .classLoader } with
    appLoader := vm₂.nextId + 1 }, ?_, (hstocks.make _).chooseLoader _, Nat.succ_ne_zero _, c.id,
    vm₂.lookup?_make_self _, c, hmem, rfl, hc.declares.name⟩
  have hboot : boot = (defineAll 0 loaderSpecs >>= fun _ => define 0 loaderSpec >>=
      fun type => alloc type .classLoader >>= fun appLoader =>
        modify (fun vm => { vm with appLoader }) >>= fun _ => bootBehind appLoader) := rfl
  unfold booted
  rw [hboot, run_bind, hvm₁, run_bind, hrun, run_bind, alloc_run, run_bind, run_modify]

theorem helperSpec_name (h : HelperClass) : (helperSpec h).name = h.name := by
  cases h <;> rfl

theorem booted_loadedExactly :
    booted.LoadedExactly (librarySpecs.map (0, ·) ++ programSpecs.map (booted.appLoader, ·))
      (firstSpecs.map ClassSpec.signature ++ laterSignatures) ∧ booted.appLoader ≠ 0 ∧
    ∃ type, booted.lookup? booted.appLoader = some { type, object := .classLoader } ∧
      ∃ c ∈ booted.classes, c.id = type ∧ c.name = loaderSpec.name := by
  obtain ⟨vm, hbooted, hstocks, hpresent, type, hobject, c, hc, hid, hname⟩ := loadedExactly_loader
  have hordered : Ordered (firstSpecs.map (0, ·))
      (laterSpecs.map (0, ·) ++ programSpecs.map (vm.appLoader, ·)) := by
    have hlibrary := librarySpecs_ordered
    rw [librarySpecs, List.map_append, ordered_append] at hlibrary
    refine ordered_append.mpr ⟨hlibrary.2, ordered_of_grounded fun d hd => ?_⟩
    obtain ⟨spec, hspec, rfl⟩ := List.mem_map.mp hd
    have hrests := programSpecs_rest vm.appLoader spec hspec
    rwa [librarySpecs, List.map_append] at hrests
  have hnodup := bootSignatures_nodup
  unfold bootSignatures at hnodup
  rw [← List.append_assoc] at hnodup
  obtain ⟨hstocks', hsub, next, classes, hstate⟩ := stocking_bootBehind vm.appLoader vm _ _ hstocks
    hordered (List.nodup_append.mp hnodup).1
  rw [← hbooted] at hstocks' hsub hstate
  have happ : booted.appLoader = vm.appLoader := by rw [hstate]
  rw [happ, librarySpecs, List.map_append, List.append_assoc]
  refine ⟨hstocks', hpresent, type, ?_, c, hsub hc, hid, hname⟩
  rw [hstate]
  exact hobject

theorem booted_equipped : booted.Equipped := by
  obtain ⟨hstocks, hpresent, hloader⟩ := booted_loadedExactly
  constructor
  · exact hstocks.toProper
  · exact fun spec hspec => hstocks.holds _ (List.mem_append_left _ (List.mem_map_of_mem hspec))
  · exact fun spec hspec => hstocks.holds _ (List.mem_append_right _ (List.mem_map_of_mem hspec))
  · -- No class that is loaded at the start has the signature of a helper.
    intro c hc h hsignature
    have hnodup := bootSignatures_nodup
    unfold bootSignatures at hnodup
    rw [← List.append_assoc] at hnodup
    have hloaded : c.signature ∈ firstSpecs.map ClassSpec.signature ++ laterSignatures := by
      rw [← hstocks.signatures]
      exact List.mem_map_of_mem hc
    have hhelper : c.signature ∈ HelperClass.all.map fun h => (helperSpec h).signature := by
      rw [hsignature, ← helperSpec_name]
      exact List.mem_map.mpr ⟨h, by cases h <;> decide, rfl⟩
    exact absurd rfl ((List.nodup_append.mp hnodup).2.2 _ hloaded _ hhelper)
  · exact hloader
  · exact hpresent
  · have hbytes : typeNameToSignature "byte[]" ∈ booted.classes.map (·.signature) := by
      have hbyte : typeNameToSignature "byte[]" = toString "[" ++ toString "B" := by decide
      rw [hstocks.signatures, hbyte]
      exact List.mem_append_right _ (List.mem_append_right _ (List.mem_append_left _
        (List.mem_map_of_mem (by simp [arrayComponents]))))
    obtain ⟨c, hc, hsignature⟩ := List.mem_map.mp hbytes
    exact ⟨c, hc, hsignature⟩

end Vm

end StreamTrace
