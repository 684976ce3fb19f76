import Mathlib.Data.List.Nodup
import StreamTrace.Proofs.Machine.AnsweredCommands

/-!
# Finding and defining classes

The invocations that find a class by its name, make the class of an array, and define a helper. An
equipped machine finds every class that is loaded, and every array class with a known component; it
defines a helper once.
-/

namespace StreamTrace

open VmCommand

namespace Vm

variable {vm vm' : Vm} {c : ClassDef}

/-! ## Classes by name -/

theorem Equipped.appClass (h : vm.Equipped) (hc : c ∈ vm.classes)
    (hvisible : c.visibleTo vm.appLoader = true) : vm.appClass c.name = c.id := by
  unfold Vm.appClass
  rw [h.distinct.named? hc hvisible]
  rfl

/-- The program sees the library. -/
theorem Equipped.librarySpec (h : vm.Equipped) {spec : ClassSpec} (hspec : spec ∈ librarySpecs) :
    ∃ c ∈ vm.classes, c.Declares 0 spec ∧ c.Linked vm.classes spec ∧
      vm.appClass spec.name = c.id := by
  obtain ⟨c, hc, hdeclares, hlinked⟩ := h.library spec hspec
  refine ⟨c, hc, hdeclares, hlinked, ?_⟩
  rw [← hdeclares.name]
  exact h.appClass hc (by simp [ClassDef.visibleTo, hdeclares.loader])

theorem Equipped.programSpec (h : vm.Equipped) {spec : ClassSpec} (hspec : spec ∈ programSpecs) :
    ∃ c ∈ vm.classes, c.Declares vm.appLoader spec ∧ vm.appClass spec.name = c.id ∧
      vm.classes.byId? c.id = some c := by
  obtain ⟨c, hc, hdeclares, -⟩ := h.program spec hspec
  refine ⟨c, hc, hdeclares, ?_, h.distinct.byId? hc⟩
  rw [← hdeclares.name]
  exact h.appClass hc (by simp [ClassDef.visibleTo, hdeclares.loader])

/-! ## Objects that stand for classes -/

/-- The value stands for the class. -/
def StandsFor (vm : Vm) (v : Value) (type : TypeId) : Prop :=
  ∃ id type', v.objectId? = some id ∧
    vm.lookup? id = some { type := type', object := .classObject type }

/-- The signatures of the classes that are loaded, the oldest first. -/
def signatures (vm : Vm) : List String := vm.classes.map (·.signature)

/-- What is loaded once a class with that signature is loaded if need be. -/
def loading (signatures : List String) (signature : String) : List String :=
  if signature ∈ signatures then signatures else signatures ++ [signature]

theorem loading_of_mem {signatures : List String} {signature : String}
    (h : signature ∈ signatures) : loading signatures signature = signatures := if_pos h

theorem loading_of_notMem {signatures : List String} {signature : String}
    (h : signature ∉ signatures) : loading signatures signature = signatures ++ [signature] :=
  if_neg h

theorem mem_signatures (hc : c ∈ vm.classes) : c.signature ∈ vm.signatures :=
  List.mem_map_of_mem hc

theorem mem_signatures_iff {signature : String} :
    signature ∈ vm.signatures ↔ ∃ c ∈ vm.classes, c.signature = signature := List.mem_map

/-- No class of that name is loaded. -/
def Lacks (vm : Vm) (name : String) : Prop :=
  ∀ c ∈ vm.classes, c.signature ≠ typeNameToSignature name

theorem lacks_iff {name : String} : vm.Lacks name ↔ typeNameToSignature name ∉ vm.signatures := by
  rw [mem_signatures_iff]
  exact ⟨fun h ⟨c, hc, hsignature⟩ => h c hc hsignature, fun h c hc hsignature =>
    h ⟨c, hc, hsignature⟩⟩

theorem Lacks.of_classes {name : String} (h : vm.Lacks name) (hclasses : vm'.classes = vm.classes) :
    vm'.Lacks name := fun c hc => h c (hclasses ▸ hc)

theorem signatures_of_classes (h : vm'.classes = vm.classes) : vm'.signatures = vm.signatures := by
  unfold signatures
  rw [h]

theorem map_signature_standing (cs : ClassTable) (type : TypeId) (id : ObjectId) :
    (standing cs type id).map (·.signature) = cs.map (·.signature) := by
  unfold standing ClassTable.update
  rw [List.map_map]
  refine List.map_congr_left fun c _ => ?_
  show (if c.id = type then { c with classObject := some id } else c).signature = c.signature
  split <;> rfl

/-- The outcome is the class with that signature. -/
def Finds (vm : Vm) (signature : String) (o : InvokeOutcome) (vm' : Vm) : Prop :=
  o.exception = none ∧ vm.Extended vm' ∧
    ∃ c ∈ vm'.classes, c.signature = signature ∧ vm'.StandsFor o.value c.id

theorem classValue_does (hvm : vm.Equipped) (hc : c ∈ vm.classes) :
    (classValue c.id).Does vm fun o vm' =>
      vm.Finds c.signature o vm' ∧ vm'.signatures = vm.signatures := by
  have hclassClass : (classObject c.id).Does vm fun id vm' => vm.Extended vm' ∧
      vm'.signatures = vm.signatures ∧
        ∃ type, vm'.lookup? id = some { type, object := .classObject c.id } := by
    refine does_getClass hvm.toProper hc ?_
    cases hobject : c.classObject with
    | some id =>
        obtain ⟨e, he, hstands⟩ := hvm.stands c hc id hobject
        refine does_pure ⟨.refl hvm, rfl, e.type, ?_⟩
        rw [he, ← hstands]
    | none =>
        refine does_get_bind (does_lift_bind ?_)
        rw [alloc_run]
        refine does_modify_bind (does_pure ?_)
        let e : TypedObject :=
          { type := (vm.classes.named? ClassName.classClass 0).getD 0
            object := .classObject c.id }
        have hmake := extended_make hvm e
        have hbare : ∀ c' ∈ (vm.make e).classes, c'.id = c.id → c'.classObject = none := by
          intro c' hc' hid
          rw [hvm.distinct.eq_of_id hc' hc hid]
          exact hobject
        have hstand := extended_stand hmake.equipped (vm.lookup?_make_self e) rfl hbare
        exact ⟨hmake.trans hstand, map_signature_standing _ _ _, e.type, vm.lookup?_make_self e⟩
  refine .bind (hclassClass.mono ?_)
  rintro id vm' ⟨hextended, hsame, type, hobject⟩
  obtain ⟨c', hc', hstays⟩ := hextended.classes c hc
  refine does_pure ⟨⟨rfl, hextended, c', hc', hstays.signature, id, type, ?_, hstays.id ▸ hobject⟩,
    hsame⟩
  exact if_neg (hextended.equipped.toProper.ne_zero hobject)

/-! ## Finding classes -/

/-- The first argument is that text. -/
def Names (vm : Vm) (args : List Value) (text : String) : Prop :=
  ∃ id type, (arg args 0).objectId? = some id ∧
    vm.lookup? id = some { type, object := .string text }

theorem textArgument_does {args : List Value} {text : String} (h : vm.Names args text) :
    (textArgument args).Does vm fun r vm' => r = text ∧ vm' = vm := by
  obtain ⟨id, type, hid, he⟩ := h
  have hstring : vm.stringOf? (arg args 0) = some text := by
    simp only [stringOf?, object?, hid, Option.bind_some, he, Option.map_some]
  refine does_get_bind ?_
  rw [hstring]
  exact does_pure ⟨rfl, rfl⟩

theorem findClass_plain {name : String} (hplain : name.toList.head? ≠ some '[')
    (loader : ObjectId) (vm : Vm) :
    (findClass name loader).run vm = (vm.classes.named? name loader, vm) := by
  unfold findClass
  rw [run_get_bind]
  split
  · rename_i rest hname
    rw [hname] at hplain
    exact absurd rfl hplain
  · rfl

/-- A loaded class that the loader sees is found. -/
theorem forName_does_loaded (hvm : vm.Equipped) (hc : c ∈ vm.classes) {args : List Value}
    (hname : vm.Names args c.name) {loader : ObjectId}
    (hloader : (arg args 2).objectId? = some loader) (hvisible : c.visibleTo loader = true)
    (hplain : c.name.toList.head? ≠ some '[') :
    (forName args).Does vm fun o vm' =>
      vm.Finds c.signature o vm' ∧ vm'.signatures = vm.signatures := by
  refine .bind ((textArgument_does hname).mono ?_)
  rintro r vm' ⟨rfl, rfl⟩
  refine does_lift_bind ?_
  rw [hloader, Option.getD_some, findClass_plain hplain, hvm.distinct.named? hc hvisible]
  exact classValue_does hvm hc

/-- The exception that a class loader throws. -/
def Throws (vm : Vm) (className : String) (o : InvokeOutcome) (vm' : Vm) : Prop :=
  vm.Extended vm' ∧ vm'.classes = vm.classes ∧ ∃ id, o.exception = some id ∧
    ∃ c ∈ vm'.classes, c.name = className ∧
      vm'.lookup? id = some { type := c.id, object := .throwable }

/-- An exception of a library class is thrown. -/
theorem thrown_does (hvm : vm.Equipped) {className : String}
    (hlibrary : ∃ spec ∈ librarySpecs, spec.name = className) :
    (thrown className).Does vm (vm.Throws className) := by
  obtain ⟨spec, hspec, rfl⟩ := hlibrary
  obtain ⟨c, hc, hdeclares, -, happ⟩ := hvm.librarySpec hspec
  have hthrowable : (makeThrowable spec.name).run vm =
      (vm.nextId + 1, vm.make { type := c.id, object := .throwable }) := by
    unfold makeThrowable
    rw [allocOf_run, ← happ]
  refine does_lift_bind ?_
  rw [hthrowable]
  exact does_pure ⟨extended_make hvm _, rfl, _, rfl, c, hc, hdeclares.name, vm.lookup?_make_self _⟩

/-- A class that the loader does not find. -/
theorem forName_does_missing (hvm : vm.Equipped) {args : List Value} {name : String}
    (hname : vm.Names args name) {loader : ObjectId}
    (hloader : (arg args 2).objectId? = some loader)
    (hmissing : (findClass name loader).run vm = (none, vm)) :
    (forName args).Does vm (vm.Throws ClassName.classNotFound) := by
  refine .bind ((textArgument_does hname).mono ?_)
  rintro r vm' ⟨rfl, rfl⟩
  refine does_lift_bind ?_
  rw [hloader, Option.getD_some, hmissing]
  exact thrown_does hvm ⟨{ name := ClassName.classNotFound
                           superclass := some "java.lang.Exception" },
    by simp [librarySpecs, laterSpecs, languageSpecs], rfl⟩

section

variable {name component : String} {rest : List Char} (hname : name.toList = '[' :: rest)
  (hcomponent : String.ofList (JavaType.replaceChar '.' '/' rest) = component) (loader : ObjectId)

include hname hcomponent

theorem findClass_array_loaded (hc : vm.classes.bySignature? s!"[{component}" = some c) :
    (findClass name loader).run vm = (some c.id, vm) := by
  unfold findClass
  rw [run_get_bind, hname]
  simp only [hcomponent, hc]
  rfl

theorem findClass_array_new (hnew : vm.classes.bySignature? s!"[{component}" = none)
    (hknown : vm.knowsComponent component loader = true) :
    (findClass name loader).run vm =
      (some (vm.nextId + 1), ((declareArray component).run vm).2) := by
  unfold findClass
  rw [run_get_bind, hname]
  simp only [hcomponent, hnew, hknown]
  rfl

theorem findClass_array_unknown (hnew : vm.classes.bySignature? s!"[{component}" = none)
    (hunknown : vm.knowsComponent component loader = false) :
    (findClass name loader).run vm = (none, vm) := by
  unfold findClass
  rw [run_get_bind, hname]
  simp only [hcomponent, hnew, hunknown]
  rfl

end

/-- Nothing comes of looking for a class that is not found. -/
theorem findClass_none {name : String} {loader : ObjectId}
    (h : ((findClass name loader).run vm).1 = none) :
    (findClass name loader).run vm = (none, vm) := by
  unfold findClass at h ⊢
  rw [run_get_bind] at h ⊢
  split
  · rename_i hname
    simp only [hname] at h ⊢
    split
    · rename_i hfound
      rw [hfound] at h
      cases h
    · rename_i hfound
      rw [hfound] at h
      split
      · rename_i hknown
        simp only [hknown, if_true] at h
        cases h
      · rfl
  · rename_i hplain
    split at h
    · exact absurd ‹_› (hplain _)
    · have hnone : vm.classes.named? name loader = none := h
      rw [hnone]
      rfl

/-- What a loader does not find, it does not find in a machine with the same classes either. -/
theorem findClass_none_of_classes {name : String} {loader : ObjectId}
    (h : (findClass name loader).run vm = (none, vm)) (hclasses : vm'.classes = vm.classes) :
    (findClass name loader).run vm' = (none, vm') := by
  have hknows : ∀ component, vm'.knowsComponent component loader =
      vm.knowsComponent component loader := by
    intro component
    unfold knowsComponent
    rw [hclasses]
  unfold findClass at h ⊢
  rw [run_get_bind] at h ⊢
  split
  · rename_i hname
    simp only [hname, hclasses, hknows] at h ⊢
    split
    · rename_i hfound
      rw [hfound] at h
      cases h
    · rename_i hfound
      rw [hfound] at h
      split
      · rename_i hknown
        simp only [hknown, if_true] at h
        cases h
      · rfl
  · rename_i hplain
    split at h
    · exact absurd ‹_› (hplain _)
    · have hnone : vm.classes.named? name loader = none := congrArg Prod.fst h
      rw [hclasses, hnone]
      rfl

/-- No class of that name is loaded, and the program's loader finds none. -/
structure Unknown (vm : Vm) (name : String) : Prop where
  lacks : vm.Lacks name
  unfound : ((findClass (lookupName name) vm.appLoader).run vm).1 = none

/-- A class that is no array's is found only if it is loaded. -/
theorem findClass_plain_missing (hvm : vm.Equipped) {name : String} (hplain : '[' ∉ name.toList)
    (hnew : vm.Lacks name) (loader : ObjectId) :
    (findClass name loader).run vm = (none, vm) := by
  rw [findClass_plain fun hhead => hplain (List.mem_of_mem_head? hhead)]
  refine congrArg (·, vm) (Option.eq_none_iff_forall_ne_some.mpr fun type htype => ?_)
  obtain ⟨c, hc, hname, -⟩ := ClassTable.mem_of_named? htype
  refine hnew c hc ?_
  rw [hvm.distinct.spelled c hc, hname]

theorem helperSignature_injective {h k : HelperClass}
    (hsignature : typeNameToSignature h.name = typeNameToSignature k.name) : h = k := by
  have hnodup := (List.nodup_append.mp (List.nodup_append.mp bootSignatures_nodup).2.1).2.1
  have hall : ∀ k : HelperClass, k ∈ HelperClass.all := fun k => by cases k <;> decide
  refine List.inj_on_of_nodup_map hnodup (hall h) (hall k) ?_
  simpa [ClassSpec.signature, helperSpec_name] using hsignature

theorem helperName_plain (h : HelperClass) :
    '[' ∉ h.name.toList ∧ (typeNameToSignature h.name).toList.head? ≠ some '[' := by
  cases h <;> decide +kernel

theorem isComponent_helper (h : HelperClass) : IsComponent h.name := by
  cases h <;> decide +kernel

/-- No name of an array type is a helper's. -/
theorem ofName?_array (name : String) : HelperClass.ofName? s!"{name}[]" = none := by
  refine List.find?_eq_none.mpr fun h _ heq => ?_
  refine (helperName_plain h).1 ?_
  rw [eq_of_beq heq, toList_brackets]
  simp

/-- The class of arrays of `name`, which is made if need be, is no helper's. -/
theorem extended_declareArray (hvm : vm.Equipped) {name : String} (hname : IsComponent name)
    (hnew : ∀ c ∈ vm.classes, c.signature ≠ s!"[{typeNameToSignature name}") :
    vm.Extended ((declareArray (typeNameToSignature name)).run vm).2 := by
  have hclass : (vm.arrayClass (typeNameToSignature name)).name = s!"{name}[]" := by
    unfold arrayClass
    rw [hname.signatureToTypeName?_array, Option.getD_some]
  rw [declareArray_run]
  refine extended_load hvm { newClass_array hname hnew with
    helper := fun k hk => ?_, above := fun id hid => ?_, visible := rfl, named := ?_
    counted := fun name' => ?_ }
  · refine absurd ?_ (helperName_plain k).2
    rw [← hk]
    simp [arrayClass, toString]
  · have hsuper : id ∈ (vm.classes.named? "java.lang.Object" 0).toList := by
      simpa [arrayClass] using hid
    exact ⟨_, _, Option.mem_toList.mp hsuper⟩
  · rw [hclass, ← hname.signatureToTypeName?_array]
    rfl
  · rw [hclass, ofName?_array]
    simp [timesDefined]

/-- A loader knows an element type if it is primitive or its class is visible to it. -/
def Knows (vm : Vm) (name : String) (loader : ObjectId) : Prop :=
  (typeNameToSignature name).toList.head? = some 'L' → (vm.classes.named? name loader).isSome

theorem knowsComponent_iff {name : String} {loader : ObjectId} (hname : IsComponent name) :
    vm.knowsComponent (typeNameToSignature name) loader = true ↔ vm.Knows name loader := by
  unfold Vm.knowsComponent Knows
  rw [hname.signatureToTypeName?]
  by_cases hclass : (typeNameToSignature name).toList.head? = some 'L'
  · simp [hclass]
  · simp [hclass]

theorem findClass_array_known {name : String} {loader : ObjectId} (hname : IsComponent name)
    (hknows : vm.Knows name loader) :
    ((findClass (lookupName s!"{name}[]") loader).run vm).1 ≠ none := by
  obtain ⟨rest, htoList, hcomponent⟩ := hname.lookupName_array
  cases hfound : vm.classes.bySignature? s!"[{typeNameToSignature name}" with
  | some c =>
      rw [findClass_array_loaded htoList hcomponent loader hfound]
      nofun
  | none =>
      rw [findClass_array_new htoList hcomponent loader hfound
        ((knowsComponent_iff hname).mpr hknows)]
      nofun

theorem Knows.extended {name : String} (h : vm.Knows name vm.appLoader) (ht : vm.Extended vm') :
    vm'.Knows name vm'.appLoader := by
  intro hclass
  obtain ⟨type, htype⟩ := Option.isSome_iff_exists.mp (h hclass)
  obtain ⟨c, hc, rfl, -, hvisible⟩ := ClassTable.mem_of_named? htype
  obtain ⟨c', hc', hstays⟩ := ht.classes c hc
  have hvisible' : c'.visibleTo vm'.appLoader = true := by
    unfold ClassDef.visibleTo at hvisible ⊢
    rw [hstays.loader, ht.appLoader]
    exact hvisible
  rw [← hstays.name, ht.equipped.distinct.named? hc' hvisible']
  rfl

/-- The class of arrays of a known element type is found, and made if need be. -/
theorem forName_does_array (hvm : vm.Equipped) {args : List Value} {name : String}
    (hname : IsComponent name) (hargs : vm.Names args (lookupName s!"{name}[]"))
    {loader : ObjectId} (hloader : (arg args 2).objectId? = some loader)
    (hknown : vm.Knows name loader) :
    (forName args).Does vm fun o vm' => vm.Finds s!"[{typeNameToSignature name}" o vm' ∧
      vm'.signatures = loading vm.signatures s!"[{typeNameToSignature name}" := by
  refine .bind ((textArgument_does hargs).mono ?_)
  rintro r vm' ⟨rfl, rfl⟩
  refine does_lift_bind ?_
  rw [hloader, Option.getD_some]
  obtain ⟨rest, htoList, hcomponent⟩ := hname.lookupName_array
  cases hfound : vm'.classes.bySignature? s!"[{typeNameToSignature name}" with
  | some c =>
      rw [findClass_array_loaded htoList hcomponent loader hfound]
      have hsignature := List.find?_some hfound
      rw [beq_iff_eq] at hsignature
      have hc := List.mem_of_find?_eq_some hfound
      rw [← hsignature, loading_of_mem (mem_signatures hc)]
      exact classValue_does hvm hc
  | none =>
      rw [findClass_array_new htoList hcomponent loader hfound
        ((knowsComponent_iff hname).mpr hknown)]
      have hnew : ∀ c ∈ vm'.classes, c.signature ≠ s!"[{typeNameToSignature name}" := by
        intro c hc heq
        exact absurd heq (by simpa using List.find?_eq_none.mp hfound c hc)
      have hextended := extended_declareArray hvm hname hnew
      rw [declareArray_run] at hextended ⊢
      have hmem : vm'.arrayClass (typeNameToSignature name) ∈
          vm'.classes ++ [vm'.arrayClass (typeNameToSignature name)] := by simp
      refine (classValue_does hextended.equipped hmem).mono ?_
      rintro o vm'' ⟨⟨hnone, hextended', hfinds⟩, hsame⟩
      refine ⟨⟨hnone, hextended.trans hextended', hfinds⟩, hsame.trans ?_⟩
      rw [loading_of_notMem fun hmem => ?_]
      · exact List.map_append
      · obtain ⟨c, hc, heq⟩ := mem_signatures_iff.mp hmem
        exact hnew c hc heq

/-! ## Defining helpers -/

theorem extended_define (hvm : vm.Equipped) (h : HelperClass)
    (hnew : vm.Lacks h.name) :
    let vm' := ((define vm.appLoader (helperSpec h)).run vm).2
    ∃ c, c.signature = typeNameToSignature h.name ∧
      ((define vm.appLoader (helperSpec h)).run vm).1 = c.id ∧ vm'.classes = vm.classes ++ [c] ∧
      vm.Extended
        { vm' with defined := vm'.defined.set h.name (vm'.timesDefined h.name + 1) } := by
  obtain ⟨c, hc, hrun⟩ := define_run vm.appLoader (helperSpec h) vm
  have hname : c.name = h.name := hc.declares.name.trans (helperSpec_name h)
  rw [← helperSpec_name] at hnew
  have hclass := hc.newClass hnew (by
    rw [helperSpec_name]
    exact (helperName_plain h).2)
  rw [hrun]
  refine ⟨c, hc.signature.trans (by rw [helperSpec_name]), rfl, rfl,
    extended_load hvm { hclass with
      helper := fun k hk => ?_, above := fun id hid => ?_, visible := ?_, named := ?_
      counted := fun name => ?_ }⟩
  · rw [hc.signature, helperSpec_name] at hk
    rw [← helperSignature_injective hk]
    exact hc.declares
  · rw [hc.superclass, hc.interfaces] at hid
    rcases List.mem_append.mp hid with hid | hid
    · obtain ⟨name, -, hname⟩ := Option.bind_eq_some_iff.mp (Option.mem_toList.mp hid)
      exact ⟨name, _, hname⟩
    · obtain ⟨name, -, hname⟩ := List.mem_filterMap.mp hid
      exact ⟨name, _, hname⟩
  · simp [ClassDef.visibleTo, hc.declares.loader]
  · rw [hc.signature, hname, helperSpec_name, (isComponent_helper h).signatureToTypeName?]
  · show ((vm.defined.set h.name (vm.timesDefined h.name + 1)).get? name).getD 0 = _
    rw [hname, ofName?_name, Table.get?_set]
    by_cases heq : h.name = name
    · simp [heq]
    · simp only [heq, if_false, false_and, Nat.add_zero]
      rfl

/-- A helper that is not defined yet is defined from bytes that begin as class files do. -/
theorem loadHelper_does (hvm : vm.Equipped) (h : HelperClass)
    (hnew : vm.Lacks h.name) {args : List Value}
    (hname : vm.Names args h.name) {id : ObjectId} {type : TypeId} {component : String}
    {bytes : List Value} (hid : (arg args 1).objectId? = some id)
    (hbytes : vm.lookup? id = some { type, object := .array component bytes })
    (hmagic : classFileMagic.isPrefixOf bytes = true) :
    (loadHelper vm.appLoader args).Does vm fun o vm' =>
      vm.Finds (typeNameToSignature h.name) o vm' ∧
        vm'.signatures = vm.signatures ++ [typeNameToSignature h.name] := by
  refine .bind ((textArgument_does hname).mono ?_)
  rintro r vm' ⟨rfl, rfl⟩
  refine does_get_bind ?_
  have hobject : (arg args 1).objectId?.bind vm'.object? = some (.array component bytes) := by
    simp only [hid, Option.bind_some, object?, hbytes, Option.map_some]
  rw [hobject]
  refine .bind (does_pure (does_if_neg (by simp [hmagic]) (does_get_bind (does_if_neg ?_ ?_))))
  · intro hany
    obtain ⟨c, hc, hsame⟩ := List.any_eq_true.mp hany
    rw [Bool.and_eq_true, beq_iff_eq] at hsame
    exact hnew c hc ((hvm.distinct.spelled c hc).trans (by rw [hsame.1]))
  rw [ofName?_name]
  obtain ⟨c, hsignature, hc, hclasses, hextended⟩ := extended_define hvm h hnew
  refine does_lift_bind (does_modify_bind ?_)
  generalize ((define vm'.appLoader (helperSpec h)).run vm').2 = vm₁ at hclasses hextended ⊢
  have hmem : c ∈ vm₁.classes := by simp [hclasses]
  rw [hc, ← hsignature]
  refine (classValue_does hextended.equipped (c := c) hmem).mono ?_
  rintro o vm'' ⟨⟨hnone, hextended', hfinds⟩, hsame⟩
  refine ⟨⟨hnone, hextended.trans hextended', hfinds⟩, hsame.trans ?_⟩
  show vm₁.classes.map (·.signature) = _
  rw [hclasses, List.map_append]
  rfl

/-- Bytes that begin as no class file does, and those of a class that is no helper, define
nothing. -/
theorem loadHelper_throws (hvm : vm.Equipped) {name : String}
    (hnew : vm.Lacks name) {args : List Value}
    (hname : vm.Names args name) {id : ObjectId} {type : TypeId} {component : String}
    {bytes : List Value} (hid : (arg args 1).objectId? = some id)
    (hbytes : vm.lookup? id = some { type, object := .array component bytes })
    (hunfit : classFileMagic.isPrefixOf bytes = true → HelperClass.ofName? name = none) :
    (loadHelper vm.appLoader args).Does vm (vm.Throws "java.lang.ClassFormatError") := by
  have hthrown : (thrown "java.lang.ClassFormatError").Does vm
      (vm.Throws "java.lang.ClassFormatError") :=
    thrown_does hvm ⟨{ name := "java.lang.ClassFormatError"
                       superclass := some "java.lang.LinkageError" },
      by simp [librarySpecs, laterSpecs, languageSpecs], rfl⟩
  refine .bind ((textArgument_does hname).mono ?_)
  rintro r vm' ⟨rfl, rfl⟩
  refine does_get_bind ?_
  have hobject : (arg args 1).objectId?.bind vm'.object? = some (.array component bytes) := by
    simp only [hid, Option.bind_some, object?, hbytes, Option.map_some]
  rw [hobject]
  refine .bind (does_pure ?_)
  by_cases hmagic : classFileMagic.isPrefixOf bytes = true
  · refine does_if_neg (not_not_intro hmagic) (does_get_bind (does_if_neg ?_ ?_))
    · intro hany
      obtain ⟨c, hc, hsame⟩ := List.any_eq_true.mp hany
      rw [Bool.and_eq_true, beq_iff_eq] at hsame
      exact hnew c hc ((hvm.distinct.spelled c hc).trans (by rw [hsame.1]))
    · rw [hunfit hmagic]
      exact hthrown
  · exact does_if_pos hmagic hthrown

end Vm

end StreamTrace
