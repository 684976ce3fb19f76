import StreamTrace.Proofs.Debugger.BridgeValues

/-!
# Packed sides and results

The arrays into which a probe packs what was recorded: a side of a call is an array of times and an
array of elements, and a result stands in an array of its own. An optional is asked for its content.
Each relation below says what such an array holds; it goes on holding in an extended machine.
-/

namespace StreamTrace

open Routine Vm Bridge

namespace Vm

variable {vm vm' : Vm} {element : ElementType} {entries : List (Int32 × Element)} {v : Value}

/-- What an element reads as when it has passed through a map of that element type. -/
def Displays (vm : Vm) (element : ElementType) (e : Element) (t : TraceValue) : Prop :=
  ∃ v, vm.Presents element e v ∧ vm.Reads v t

theorem Displays.extended {e : Element} {t : TraceValue} (h : vm.Displays element e t)
    (ht : vm.Extended vm') : vm'.Displays element e t := by
  obtain ⟨v, hv, hread⟩ := h
  exact ⟨v, hv.extended ht, hread.extended ht⟩

/-- These are the entries, each with its time and as it is displayed. -/
def Lists (vm : Vm) (element : ElementType) (entries : List (Int32 × Element))
    (traced : List TracedValue) : Prop :=
  List.Forall₂ (fun e t => t.time = e.1 ∧ vm.Displays element e.2 t.value) entries traced

/-- An array of times and an array of elements in one array. -/
def PacksSide (vm : Vm) (element : ElementType) (entries : List (Int32 × Element)) (v : Value) :
    Prop :=
  ∃ keys values component presented, vm.HasArray ClassName.object v [keys, values] ∧
    vm.HasArray "int" keys (entries.map fun e => .int e.1) ∧
    vm.HasArray component values presented ∧
    List.Forall₂ (vm.Presents element) (entries.map (·.2)) presented

theorem PacksSide.extended (h : vm.PacksSide element entries v) (ht : vm.Extended vm') :
    vm'.PacksSide element entries v := by
  obtain ⟨keys, values, component, presented, hboth, hkeys, hvalues, hpresented⟩ := h
  exact ⟨keys, values, component, presented, hboth.extended ht, hkeys.extended ht,
    hvalues.extended ht,
    hpresented.imp fun _ _ h => h.extended ht⟩

theorem PacksSide.isReference (h : vm.PacksSide element entries v) : v.isReference = true := by
  obtain ⟨keys, values, component, presented, hboth, -⟩ := h
  exact hboth.isReference

/-- The entries that a side of a call recorded: those of its map, or none if it has no map or no
element type. -/
def Recorded (vm : Vm) (element : Option ElementType) (map : Option Value)
    (entries : List (Int32 × Element)) : Prop :=
  (element = none ∨ map = none → entries = []) ∧
    ∀ v, element.isSome → map = some v → ∃ id, v.objectId? = some id ∧
      vm.HasObject id ClassName.linkedHashMap (.map entries)

theorem Recorded.extended {element : Option ElementType} {map : Option Value}
    (h : vm.Recorded element map entries) (ht : vm.Extended vm') :
    vm'.Recorded element map entries := by
  refine ⟨h.1, fun v helement hmap => ?_⟩
  obtain ⟨id, hid, hobject⟩ := h.2 v helement hmap
  exact ⟨id, hid, hobject.extended ht⟩

/-- What stands for an element can be read. -/
theorem Presents.reads {e : Element} (h : vm.Presents element e v) : ∃ t, vm.Reads v t := by
  unfold Presents at h
  split at h
  · cases h with
    | null => exact ⟨.null, .plain rfl⟩
    | string h =>
        obtain ⟨c, hc, -, hobject⟩ := h
        exact ⟨_, .string hobject⟩
    | box hname h =>
        obtain ⟨c, hc, -, hobject⟩ := h
        exact ⟨_, .object (by decide) hc hobject⟩
  · subst h
    cases e <;> exact ⟨_, .plain rfl⟩

/-- What can be read is no `void`, or is nothing at all, and the class of an object is loaded. -/
theorem Presents.known {e : Element} (h : vm.Presents element e v) : v ≠ .void ∧ Known vm v := by
  have hreference : ∀ {tag : UInt8} {id : ObjectId} {c : ClassDef} {object : HeapObject},
      c ∈ vm.classes → vm.lookup? id = some { type := c.id, object } →
        Known vm (.reference tag id) := by
    intro tag id c object hc hobject id' hid'
    change (if id = 0 then none else some id) = some id' at hid'
    split at hid'
    · cases hid'
    · cases hid'
      exact ⟨c, hc, _, hobject⟩
  unfold Presents at h
  split at h
  · cases h with
    | null => exact ⟨nofun, nofun⟩
    | string h =>
        obtain ⟨c, hc, -, hobject⟩ := h
        exact ⟨nofun, hreference hc hobject⟩
    | box hname h =>
        obtain ⟨c, hc, -, hobject⟩ := h
        exact ⟨nofun, hreference hc hobject⟩
  · subst h
    cases e <;> exact ⟨nofun, nofun⟩

/-- An array of that one value, which is not one of exceptions. -/
def PacksOne (vm : Vm) (x v : Value) : Prop :=
  ∃ component ∈ arrayElements, component ≠ ClassName.throwable ∧ vm.HasArray component v [x]

theorem PacksOne.extended {x : Value} (h : vm.PacksOne x v) (ht : vm.Extended vm') :
    vm'.PacksOne x v := by
  obtain ⟨component, helement, hne, harray⟩ := h
  exact ⟨component, helement, hne, harray.extended ht⟩

theorem PacksOne.isReference {x : Value} (h : vm.PacksOne x v) : v.isReference = true := by
  obtain ⟨component, -, -, harray⟩ := h
  exact harray.isReference

/-- The class of optionals that hold such elements. -/
def optionalClass? : ElementType → Option String
  | .object => some "java.util.Optional"
  | .int => some "java.util.OptionalInt"
  | _ => none

/-- What an optional result holds. No object counts as an empty optional. -/
inductive HoldsOptional (vm : Vm) (element : ElementType) : Option Value → Option Element → Prop
  | absent {result : Option Value} (h : result.bind Value.objectId? = none) :
    HoldsOptional vm element result none
  | held {v : Value} {id : ObjectId} {name : String} {content : Option Element}
    (hname : optionalClass? element = some name) (hid : v.objectId? = some id)
    (hobject : vm.HasObject id name (.optional content)) :
    HoldsOptional vm element (some v) content

theorem HoldsOptional.extended {result : Option Value} {content : Option Element}
    (h : vm.HoldsOptional element result content) (ht : vm.Extended vm') :
    vm'.HoldsOptional element result content := by
  cases h with
  | absent h => exact .absent h
  | held hname hid hobject => exact .held hname hid (hobject.extended ht)

end Vm

/-- The result of a chain as it is packed: nothing and `void` become null. -/
def resultSlot : Option Value → Value
  | none => .null
  | some .void => .null
  | some v => v

theorem Vm.Reads.resultSlot {vm : Vm} {result : Option Value} {t : TraceValue}
    (h : vm.Reads (result.getD .void) t) : vm.Reads (resultSlot result) t := by
  have hvoid : ∀ {t}, vm.Reads .void t → vm.Reads .null t := fun h => by
    cases h with
    | plain h => cases h; exact .plain rfl
  unfold StreamTrace.resultSlot
  split
  · exact hvoid h
  · exact hvoid h
  · exact h

namespace Probe

variable {p : Probe} {s : BridgeState} {vm vm' : Vm} {entries : List (Int32 × Element)}

theorem utils_method (hvm : vm.Equipped) (element : ElementType) {c : ClassDef}
    (hc : c ∈ vm.classes) (hsignature : c.signature = typeNameToSignature HelperClass.utils.name) :
    c.name = HelperClass.utils.name ∧ ∃ m ∈ c.methods,
      c.method? element.formatMethod HelperClass.formatDescriptor = some m ∧
        m.spec = (element.formatMethod, HelperClass.formatDescriptor, true) := by
  have hdeclares := hvm.helpers c hc .utils hsignature
  refine ⟨hdeclares.name.trans (helperSpec_name .utils), hdeclares.method? ?_⟩
  cases element <;> decide

theorem fits_format {map : Value} {id : ObjectId} (hid : map.objectId? = some id) :
    fitsAll (parameterLetters HelperClass.formatDescriptor) [map] = true := by
  have hletters : parameterLetters HelperClass.formatDescriptor = ['L'] := by decide
  rw [hletters]
  cases map with
  | reference _ _ => rfl
  | _ => cases hid

/-- Every recorded entry is formatted. -/
theorem formatMap_achieves (hready : p.bridge.Ready s vm)
    (hutils : Resolvable vm HelperClass.utils.name) (element : ElementType) {map : Value}
    {id : ObjectId} (hid : map.objectId? = some id)
    (hmap : vm.HasObject id ClassName.linkedHashMap (.map entries)) :
    p.bridge.Achieves (p.formatMap element map) s vm fun v vm' =>
      vm'.PacksSide element entries v := by
  unfold formatMap requireInstanceOf
  refine Achieves.bind ((isInstanceOf_map_learns hready hid hmap).bind fun s₁ hready₁ =>
    achieves_ite_pos rfl (learns_pure hready₁ ())) ?_
  rintro _ s₂ vm₂ hready₂ - ⟨-, rfl⟩
  refine invokeStatic_achieves (fun v vm vm' h ht => h.extended ht) hready₂ hutils
    (fun vm' hextended c hc => utils_method hextended.equipped element hc) (fits_format hid)
    fun vm' hextended => ?_
  have hruns : runStatic HelperClass.utils.name element.formatMethod HelperClass.formatDescriptor
      [map] = Vm.formatMap element.formatMethod map := by
    unfold runStatic
    rw [if_neg fun h => absurd h.1 (by decide), if_pos ⟨rfl, rfl⟩]
    rfl
  obtain ⟨c, hc, -, hobject⟩ := hmap.extended hextended
  rw [hruns]
  refine (formatMap_does hextended.equipped element hid hobject).mono ?_
  rintro o vm'' ⟨hquiet, hextended', keys, values, presented, hboth, hrest⟩
  exact ⟨hquiet, hextended', known_array hboth, keys, values, _, presented, hboth, hrest⟩

/-- Without a map or an element type there is nothing to format. -/
theorem emptySide_achieves (hready : p.bridge.Ready s vm) (element : ElementType) :
    p.bridge.Achieves p.emptySide s vm fun v vm' => vm'.PacksSide element [] v := by
  have hobjects : ClassName.object ∈ arrayElements := by simp [arrayElements]
  have hints : "int" ∈ arrayElements := by simp [arrayElements]
  unfold emptySide
  refine (arrayOf_achieves hready hints rfl (by decide)).bind ?_
  intro keys s₁ vm₁ hready₁ _ hkeys
  refine (arrayOf_achieves hready₁ hobjects rfl (by decide)).bind ?_
  intro values s₂ vm₂ hready₂ hextended₂ hvalues
  refine (array_pair_achieves hready₂ hkeys.isReference hvalues.isReference).mono ?_
  intro v vm₃ hextended₃ hboth
  exact ⟨keys, values, ClassName.object, [], hboth, (hkeys.extended hextended₂).extended hextended₃,
    hvalues.extended hextended₃, .nil⟩

theorem packSide_achieves (hready : p.bridge.Ready s vm)
    (hutils : Resolvable vm HelperClass.utils.name) {element : Option ElementType}
    {map : Option Value} (hrecorded : vm.Recorded element map entries) :
    p.bridge.Achieves (p.packSide element map) s vm fun v vm' =>
      vm'.PacksSide (element.getD .object) entries v := by
  unfold packSide
  cases element with
  | none =>
      rw [hrecorded.1 (.inl rfl)]
      exact emptySide_achieves hready _
  | some element =>
      cases map with
      | none =>
          rw [hrecorded.1 (.inr rfl)]
          exact emptySide_achieves hready _
      | some map =>
          obtain ⟨id, hid, hmap⟩ := hrecorded.2 map rfl rfl
          exact formatMap_achieves hready hutils element hid hmap

theorem packResult_achieves (hready : p.bridge.Ready s vm) (result : Option Value) :
    p.bridge.Achieves (p.packResult result) s vm fun v vm' =>
      vm'.PacksOne (resultSlot result) v := by
  have hempty : p.bridge.Achieves
      (p.bridge.construct s!"{ClassName.object}[]" "(I)V" [.int 1]) s vm fun v vm' =>
        vm'.PacksOne .null v := by
    have hobjects : ClassName.object ∈ arrayElements := by simp [arrayElements]
    have hone : 1 < 2 ^ 31 := by decide
    refine Achieves.mono (newArray_has_achieves hready hobjects hone) ?_
    rintro v vm' - ⟨harray, -⟩
    exact ⟨ClassName.object, hobjects, by decide, harray⟩
  unfold packResult
  cases result with
  | none => exact hempty
  | some v =>
      cases v with
      | void => exact hempty
      | _ => exact array_one_achieves hready (by simp)

/-- Asking an object of a class of optionals for its content. -/
theorem ask_optional_achieves (hready : p.bridge.Ready s vm) {v : Value} {id : ObjectId}
    {spec : ClassSpec} {content : Option Element} {descriptor argument : String}
    (hspec : spec ∈ librarySpecs) (hid : v.objectId? = some id)
    (hobject : vm.HasObject id spec.name (.optional content))
    (hpresent : (spec.methods.find? fun m => m.1 == "isPresent" && m.2.1 == "()Z") =
      some ("isPresent", "()Z", false))
    (horElse : (spec.methods.find? fun m => m.1 == "orElse" && m.2.1 == descriptor) =
      some ("orElse", descriptor, false))
    (hfits : fitsAll (parameterLetters descriptor) [Value.ofSignature argument] = true)
    (hargument : Value.ofSignature argument ≠ .void ∧
      (Value.ofSignature argument).objectId? = none) :
    p.bridge.Achieves (do
      let present ← p.bridge.invoke v "isPresent" "()Z" []
      let v ← p.bridge.invoke v "orElse" descriptor [Value.ofSignature argument]
      return (present, v)) s vm fun r vm' => r.1 = .boolean content.isSome ∧ r.2 ≠ .void ∧
        ∀ e, content = some e →
          vm'.Presents (if descriptor = "(I)I" then .int else .object) e r.2 := by
  obtain ⟨c, hc, hdeclares, -⟩ := hready.equipped.library spec hspec
  obtain ⟨c', hc', hname, hlookup⟩ := hobject
  obtain rfl := hready.equipped.distinct.eq_of_name hc hc' (hdeclares.name.trans hname.symm)
  have hstable : Stable fun (r : Value) (_ : Vm) => r = .boolean content.isSome :=
    fun _ _ _ h _ => h
  refine (invoke_own_achieves hstable hready hid hc hlookup hdeclares hpresent (by decide)
    (by decide) ?_).bind ?_
  · refine (runMethod_isPresent "()Z" [] hlookup).mono ?_
    rintro _ vm' ⟨rfl, rfl⟩
    exact ⟨rfl, .refl hready.equipped, nofun, rfl⟩
  rintro _ s₁ vm₁ hready₁ hextended₁ rfl
  obtain ⟨c', hc', hstays⟩ := hextended₁.classes c hc
  have hlookup' : vm₁.lookup? id = some { type := c'.id, object := .optional content } :=
    hstays.id ▸ hextended₁.objects hlookup
  have hstable' : Stable fun (r : Value) (vm : Vm) => r ≠ .void ∧ ∀ e, content = some e →
      vm.Presents (if descriptor = "(I)I" then .int else .object) e r :=
    fun _ _ _ h ht => ⟨h.1, fun e he => (h.2 e he).extended ht⟩
  refine (invoke_own_achieves hstable' hready₁ hid hc' hlookup' (hstays.declares hdeclares) horElse
    (by decide) hfits ?_).bind ?_
  · refine (runMethod_orElse descriptor _ hready₁.equipped hlookup' rfl).mono ?_
    rintro o vm' ⟨hquiet, hextended, hnone, hsome⟩
    cases content with
    | none =>
        have hvalue : o.value = Value.ofSignature argument := hnone rfl
        refine ⟨hquiet, hextended, ?_, ?_, nofun⟩
        · rw [hvalue]
          intro id' hid'
          rw [hargument.2] at hid'
          cases hid'
        · rw [hvalue]
          exact hargument.1
    | some e =>
        have hpresents := hsome e rfl
        exact ⟨hquiet, hextended, hpresents.known.2, hpresents.known.1, hsome⟩
  rintro v' s₂ vm₂ hready₂ - ⟨hvoid, hpresents⟩
  exact achieves_pure hready₂ ⟨rfl, hvoid, hpresents⟩

theorem contentOfOptional_achieves (hready : p.bridge.Ready s vm) {element : ElementType}
    {result : Option Value} {content : Option Element}
    (h : vm.HoldsOptional element result content) :
    p.bridge.Achieves (p.contentOfOptional result) s vm fun r vm' =>
      r.1 = .boolean content.isSome ∧ r.2 ≠ .void ∧
        ∀ e, content = some e → vm'.Presents element e r.2 := by
  unfold contentOfOptional
  cases h with
  | absent h =>
      have hnone : result.filter (·.objectId?.isSome) = none := by
        cases result with
        | none => rfl
        | some v =>
            have hid : v.objectId? = none := h
            simp [hid]
      rw [hnone]
      exact achieves_pure hready ⟨rfl, nofun, nofun⟩
  | @held v id name _ hname hid hobject =>
      have hsome : (some v).filter (·.objectId?.isSome) = some v := by simp [hid]
      obtain ⟨c, hc, hcname, hlookup⟩ := hobject
      rw [hsome]
      refine (typeOf_learns hready hid hc hlookup).bind fun s₁ hready₁ => ?_
      have hshown : IsComponent name → c.typeName = name := fun hcomponent => by
        rw [hready₁.equipped.typeName_of_component hc (hcname ▸ hcomponent), hcname]
      cases element with
      | object =>
          cases hname
          rw [hshown (by decide)]
          have hspec : { name := "java.util.Optional", methods :=
              [("isPresent", "()Z", false),
                ("orElse", "(Ljava/lang/Object;)Ljava/lang/Object;", false)] : ClassSpec } ∈
              librarySpecs := by
            simp [librarySpecs, laterSpecs, collectionSpecs]
          exact ask_optional_achieves hready₁ hspec hid ⟨c, hc, hcname, hlookup⟩ (by decide)
            (by decide) (by decide) (by decide)
      | int =>
          cases hname
          rw [hshown (by decide)]
          have hspec : { name := "java.util.OptionalInt", methods :=
              [("isPresent", "()Z", false), ("orElse", "(I)I", false)] : ClassSpec } ∈
              librarySpecs := by
            simp [librarySpecs, laterSpecs, collectionSpecs]
          exact ask_optional_achieves hready₁ hspec hid ⟨c, hc, hcname, hlookup⟩ (by decide)
            (by decide) (by decide) (by decide)
      | long => cases hname
      | double => cases hname

end Probe

end StreamTrace
