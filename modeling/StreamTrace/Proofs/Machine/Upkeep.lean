import StreamTrace.Machine.Invocation
import StreamTrace.Machine.StreamProgram

/-!
# What the machine keeps

Relations between a machine and what becomes of it that hold whatever the machine does to its
classes, its heap and its notes. What may happen there is listed once, in `Upkeep`, and followed
through every change that the machine makes; which relation is of interest is up to the user.
-/

namespace StreamTrace

/-! ## Methods that find and make -/

/-- Whether a class wraps predicates. -/
def HelperClass.isMatcher (className : String) : Bool :=
  ((HelperClass.ofName? className).map fun h => h != utils && h != collector).getD false

/-- A method of that name takes as many arguments as the one that finds or defines classes, and a
constructor with so many is that of a collector or of a matcher. -/
structure TakesOwnArguments (className name descriptor : String) : Prop where
  finds : name = "forName" → (parameterLetters descriptor).length = 3
  defines : name = "defineClass" → (parameterLetters descriptor).length = 4
  collects : name = "<init>" → (parameterLetters descriptor).length = 3 →
    className = HelperClass.collector.name
  wraps : name = "<init>" → (parameterLetters descriptor).length = 4 →
    HelperClass.isMatcher className = true

instance (className name descriptor : String) :
    Decidable (TakesOwnArguments className name descriptor) :=
  decidable_of_iff
    ((name = "forName" → (parameterLetters descriptor).length = 3) ∧
      (name = "defineClass" → (parameterLetters descriptor).length = 4) ∧
      (name = "<init>" → (parameterLetters descriptor).length = 3 →
        className = HelperClass.collector.name) ∧
      (name = "<init>" → (parameterLetters descriptor).length = 4 →
        HelperClass.isMatcher className = true))
    ⟨fun ⟨h₁, h₂, h₃, h₄⟩ => ⟨h₁, h₂, h₃, h₄⟩, fun ⟨h₁, h₂, h₃, h₄⟩ => ⟨h₁, h₂, h₃, h₄⟩⟩

/-- No other method of the class goes by the name of one that finds classes or by the shape of one
that makes helpers, and its methods can be told apart. -/
structure ClassDef.Fits (c : ClassDef) : Prop where
  takes : ∀ m ∈ c.methods, TakesOwnArguments c.name m.name m.descriptor
  ids : (c.methods.map (·.id)).Nodup

def ClassTable.Fits (cs : ClassTable) : Prop := ∀ c ∈ cs, c.Fits

/-- The declared methods take as many arguments as their names promise. -/
def ClassSpec.Fits (spec : ClassSpec) : Prop :=
  ∀ m ∈ spec.methods, TakesOwnArguments spec.name m.1 m.2.1

instance (spec : ClassSpec) : Decidable spec.Fits :=
  inferInstanceAs (Decidable (∀ m ∈ spec.methods, TakesOwnArguments spec.name m.1 m.2.1))

theorem ClassTable.Fits.append {cs : ClassTable} {c : ClassDef} (h : cs.Fits) (hc : c.Fits) :
    ClassTable.Fits (cs ++ [c]) := by
  intro c' hmem
  rcases List.mem_append.mp hmem with hmem | hmem
  · exact h c' hmem
  · rw [List.mem_singleton.mp hmem]
    exact hc

theorem ClassTable.Fits.update {cs : ClassTable} (h : cs.Fits) (id : TypeId)
    {f : ClassDef → ClassDef} (hname : ∀ c, (f c).name = c.name)
    (hmethods : ∀ c, (f c).methods = c.methods) : (cs.update id f).Fits := by
  intro c hmem
  obtain ⟨c', hmem', rfl⟩ := List.mem_map.mp hmem
  obtain ⟨htakes, hids⟩ := h c' hmem'
  have hsame : (if c'.id = id then f c' else c').name = c'.name ∧
      (if c'.id = id then f c' else c').methods = c'.methods := by
    split
    · exact ⟨hname c', hmethods c'⟩
    · exact ⟨rfl, rfl⟩
  constructor
  · rw [hsame.1, hsame.2]
    exact htakes
  · rw [hsame.2]
    exact hids

theorem ClassTable.Fits.method {cs : ClassTable} (h : cs.Fits) {type : TypeId} {c : ClassDef}
    (hc : cs.byId? type = some c) {method : MethodId} {m : MethodDef}
    (hm : c.methods.find? (·.id == method) = some m) :
    TakesOwnArguments c.name m.name m.descriptor :=
  (h c (List.mem_of_find?_eq_some hc)).takes m (List.mem_of_find?_eq_some hm)

/-- Objects of this kind change their contents, and are of no other kind before or after. -/
def HeapObject.isMutable : HeapObject → Bool
  | .counter _ => true
  | .map _ => true
  | .array _ _ => true
  | _ => false

namespace Vm

/-- A relation between a machine and what becomes of it. -/
class Advance (R : Vm → Vm → Prop) : Prop where
  refl (vm : Vm) : R vm vm
  trans {vm vm' vm'' : Vm} : R vm vm' → R vm' vm'' → R vm vm''

/-- The class can be loaded: its identifier is new, and no variables of its methods are known. The
identifiers up to `n` are given by then. -/
structure Loads (vm : Vm) (n : Nat) (c : ClassDef) : Prop where
  fresh : vm.nextId < c.id
  given : c.id ≤ n
  fits : c.Fits
  locals : c.locals = {}

theorem Loads.next {vm : Vm} {n : Nat} {c : ClassDef} (h : vm.Loads n c) : vm.nextId ≤ n :=
  Nat.le_trans (Nat.le_of_lt h.fresh) h.given

/-- The relation holds across the making of objects. -/
class Allots (R : Vm → Vm → Prop) : Prop extends Advance R where
  alloc (vm : Vm) (e : TypedObject) :
    R vm { vm with nextId := vm.nextId + 1, heap := vm.heap.set (vm.nextId + 1) e }

/-- It also holds across whatever else happens to the machine's classes, its heap and its notes. If
it is `quiet`, no request comes up, and it need not hold across an invocation that gets stuck. -/
class Chores (R : Vm → Vm → Prop) extends Allots R where
  quiet : Prop
  change {vm : Vm} {id : ObjectId} {e : TypedObject} (o : HeapObject)
    (he : vm.lookup? id = some e) (hold : e.object.isMutable = true) (hnew : o.isMutable = true) :
    R vm { vm with heap := vm.heap.set id { e with object := o } }
  load (vm : Vm) {n : Nat} {c : ClassDef} (h : vm.Loads n c) :
    R vm { vm with nextId := n, classes := vm.classes ++ [c] }
  stand (vm : Vm) (type : TypeId) (id : ObjectId) :
    R vm { vm with classes := vm.classes.update type fun c => { c with classObject := some id } }
  note (vm : Vm) (defined : Table String Nat) (invocations : List String) :
    R vm { vm with defined, invocations }
  stall (vm : Vm) (stalled : List String) : ¬quiet → R vm { vm with stalled }
  calm {vm vm' : Vm} : quiet → R vm vm' → ∀ r ∈ vm'.requests, r ∈ vm.requests

/-- It also holds when requests are used up. -/
class Upkeep (R : Vm → Vm → Prop) extends Chores R where
  take (vm : Vm) {requests : List InstalledRequest} (h : ∀ r ∈ requests, r ∈ vm.requests) :
    R vm { vm with requests }

/-- It also holds when objects are pinned and let go of. -/
class Service (R : Vm → Vm → Prop) extends Upkeep R where
  pin (vm : Vm) (pins : Table ObjectId Nat) : R vm { vm with pins }

variable {R : Vm → Vm → Prop} {α β : Type}

/-! ## Changes -/

theorem run_bind (m : StateM Vm α) (f : α → StateM Vm β) (vm : Vm) :
    (m >>= f).run vm = (f (m.run vm).1).run (m.run vm).2 := rfl

theorem run_get_bind (f : Vm → StateM Vm α) (vm : Vm) : (get >>= f).run vm = (f vm).run vm := rfl

theorem run_modify (f : Vm → Vm) (vm : Vm) :
    (modify f : StateM Vm Unit).run vm = ((), f vm) := rfl

theorem run_modifyGet (f : Vm → α × Vm) (vm : Vm) :
    (modifyGet f : StateM Vm α).run vm = f vm := rfl

theorem setObject_run {vm : Vm} {id : ObjectId} {e : TypedObject} (he : vm.lookup? id = some e)
    (object : HeapObject) :
    (setObject id object).run vm = ((), { vm with heap := vm.heap.set id { e with object } }) := by
  unfold setObject
  rw [run_modify, he]

/-- The relation holds across this change, wherever it is made. -/
def Keeps (R : Vm → Vm → Prop) (m : StateM Vm α) : Prop := ∀ vm : Vm, R vm (m.run vm).2

theorem keeps_get_bind {f : Vm → StateM Vm α} (h : ∀ vm : Vm, R vm ((f vm).run vm).2) :
    Keeps R (get >>= f) := h

theorem keeps_modify {f : Vm → Vm} (h : ∀ vm : Vm, R vm (f vm)) :
    Keeps R (modify f : StateM Vm Unit) := h

theorem keeps_modifyGet {f : Vm → α × Vm} (h : ∀ vm : Vm, R vm (f vm).2) :
    Keeps R (modifyGet f : StateM Vm α) := h

section

variable [Advance R]

theorem keeps_pure (a : α) : Keeps R (pure a) := fun vm => Advance.refl vm

theorem keeps_get : Keeps R (get : StateM Vm Vm) := fun vm => Advance.refl vm

theorem Keeps.bind {m : StateM Vm α} {f : α → StateM Vm β} (hm : Keeps R m)
    (hf : ∀ a, Keeps R (f a)) : Keeps R (m >>= f) :=
  fun vm => Advance.trans (hm vm) (hf _ _)

end

/-! ## New objects -/

section

variable [Allots R]

theorem alloc_keeps (type : TypeId) (object : HeapObject) : Keeps R (alloc type object) :=
  fun vm => Allots.alloc vm { type, object }

theorem allocOf_keeps (className : String) (object : HeapObject) :
    Keeps R (allocOf className object) :=
  keeps_get.bind fun _ => alloc_keeps _ _

theorem allocValue_keeps (type : TypeId) (object : HeapObject) :
    Keeps R (allocValue type object) :=
  (alloc_keeps _ _).bind fun _ => keeps_get.bind fun _ => keeps_pure _

theorem newString_keeps (s : String) : Keeps R (newString s) :=
  (allocOf_keeps _ _).bind fun _ => keeps_get.bind fun _ => keeps_pure _

theorem makeThrowable_keeps (className : String) : Keeps R (makeThrowable className) :=
  allocOf_keeps _ _

theorem box_keeps (e : Element) : Keeps R (box e) := by
  have hboxed : ∀ className, Keeps R (do
      let id ← allocOf className (.boxed e)
      return (← get).valueOf id : StateM Vm Value) := fun className =>
    (allocOf_keeps _ _).bind fun _ => keeps_get.bind fun _ => keeps_pure _
  cases e with
  | null => exact keeps_pure _
  | str s => exact newString_keeps s
  | _ => exact hboxed _

theorem materialize_keeps (e : Element) (stream : ElementType) :
    Keeps R (materialize e stream) := by
  unfold materialize
  split
  · exact box_keeps e
  · exact keeps_pure _

theorem materializeAll_keeps (stream : ElementType) (es : List Element) :
    Keeps R (materializeAll stream es) := by
  induction es with
  | nil => exact keeps_pure _
  | cons e rest ih => exact (materialize_keeps e stream).bind fun _ => ih.bind fun _ => keeps_pure _

end

/-! ## New classes -/

variable [Chores R]

theorem declareArray_keeps (component : String) : Keeps R (declareArray component) :=
  fun vm => Chores.load vm ⟨Nat.lt_succ_self _, Nat.le_refl _,
    ⟨fun _ hm => absurd hm List.not_mem_nil, .nil⟩, rfl⟩

theorem newArray_keeps (component : String) (values : List Value) :
    Keeps R (newArray component values) := by
  refine keeps_get.bind fun vm => ?_
  split
  · exact allocValue_keeps _ _
  · exact (declareArray_keeps _).bind fun _ => allocValue_keeps _ _

/-- Declaring methods gives each an identifier of its own, and changes nothing else. -/
theorem declareMethods_run (isAbstract : Bool) (specs : List MethodSpec) (vm : Vm) :
    let r := (declareMethods isAbstract specs).run vm
    r.2 = { vm with nextId := vm.nextId + specs.length } ∧ (r.1.map (·.id)).Nodup ∧
      ∀ m ∈ r.1, vm.nextId < m.id ∧ ∃ spec ∈ specs, m.name = spec.1 ∧ m.descriptor = spec.2.1 := by
  show _ ∧ _
  induction specs generalizing vm with
  | nil => exact ⟨rfl, .nil, fun _ hm => absurd hm List.not_mem_nil⟩
  | cons spec rest ih =>
      let vm₁ : Vm := { vm with nextId := vm.nextId + 1 }
      obtain ⟨hvm, hids, hall⟩ := ih vm₁
      let m : MethodDef :=
        { id := vm.nextId + 1, name := spec.1, descriptor := spec.2.1, isStatic := spec.2.2,
          isAbstract }
      have hrun : (declareMethods isAbstract (spec :: rest)).run vm =
          (m :: ((declareMethods isAbstract rest).run vm₁).1,
            ((declareMethods isAbstract rest).run vm₁).2) := rfl
      rw [hrun]
      refine ⟨?_, ?_, ?_⟩
      · rw [hvm, List.length_cons, Nat.add_comm rest.length 1, ← Nat.add_assoc]
      · refine List.nodup_cons.mpr ⟨fun hmem => ?_, hids⟩
        obtain ⟨m', hm', hid⟩ := List.mem_map.mp hmem
        have hlt := (hall m' hm').1
        rw [hid] at hlt
        exact Nat.lt_irrefl _ hlt
      · intro m' hm'
        rcases List.mem_cons.mp hm' with rfl | hm'
        · exact ⟨Nat.lt_succ_self _, spec, List.mem_cons_self, rfl, rfl⟩
        · obtain ⟨hlt, spec', hspec, hsame⟩ := hall m' hm'
          exact ⟨Nat.lt_trans (Nat.lt_succ_self _) hlt, spec', List.mem_cons_of_mem _ hspec, hsame⟩

theorem define_keeps (loader : ObjectId) {spec : ClassSpec} (hspec : spec.Fits) :
    Keeps R (define loader spec) := by
  intro vm
  let vm₁ : Vm := { vm with nextId := vm.nextId + 1 }
  obtain ⟨hvm, hids, hall⟩ := declareMethods_run spec.isAbstract spec.methods vm₁
  let c : ClassDef :=
    { id := vm.nextId + 1, name := spec.name, signature := typeNameToSignature spec.name
      isInterface := spec.isInterface
      superclass := spec.superclass.bind fun name => vm.classes.named? name loader
      interfaces := spec.interfaces.filterMap fun name => vm.classes.named? name loader
      methods := ((declareMethods spec.isAbstract spec.methods).run vm₁).1, loader }
  have hc : c.Fits := by
    refine ⟨fun m hm => ?_, hids⟩
    obtain ⟨-, declared, hmem, hname, hdescriptor⟩ := hall m hm
    rw [hname, hdescriptor]
    exact hspec declared hmem
  have hrun : ((define loader spec).run vm).2 =
      { ((declareMethods spec.isAbstract spec.methods).run vm₁).2 with
        classes := ((declareMethods spec.isAbstract spec.methods).run vm₁).2.classes ++ [c] } := rfl
  rw [hrun, hvm]
  exact Chores.load vm ⟨Nat.lt_succ_self _, Nat.le_add_right _ _, hc, rfl⟩

theorem defineAll_keeps (loader : ObjectId) {specs : List ClassSpec}
    (hspecs : ∀ spec ∈ specs, spec.Fits) : Keeps R (defineAll loader specs) := by
  induction specs with
  | nil => exact keeps_pure _
  | cons spec rest ih =>
      have hspec := define_keeps (R := R) loader (hspecs spec List.mem_cons_self)
      have hrest := ih fun spec' hmem => hspecs spec' (List.mem_cons_of_mem _ hmem)
      show Keeps R (_ >>= _)
      exact (hspec.bind fun _ => keeps_pure _).bind fun _ => hrest

theorem boot_keeps (hloader : ∀ (vm : Vm) appLoader, R vm { vm with appLoader }) :
    Keeps R boot := by
  have hbase : ∀ spec ∈ loaderSpecs, spec.Fits := by decide
  have hown : loaderSpec.Fits := by decide
  have hlanguage : ∀ spec ∈ languageSpecs, spec.Fits := by decide
  have hcollection : ∀ spec ∈ collectionSpecs, spec.Fits := by decide
  have hfunctional : ∀ spec ∈ functionalSpecs, spec.Fits := by decide
  have hstream : ∀ spec ∈ streamSpecs, spec.Fits := by decide
  have hprogram : ∀ spec ∈ programSpecs, spec.Fits := by decide
  unfold boot
  refine (defineAll_keeps _ hbase).bind fun _ => ?_
  refine (define_keeps _ hown).bind fun _ => (alloc_keeps _ _).bind fun appLoader => ?_
  refine Keeps.bind (keeps_modify fun vm => hloader vm appLoader) fun _ => ?_
  refine (defineAll_keeps _ hlanguage).bind fun _ => ?_
  refine Keeps.bind ?_ fun _ => ?_
  · show Keeps R (arrayComponents.forM _)
    induction arrayComponents with
    | nil => exact keeps_pure _
    | cons component rest ih =>
        exact ((declareArray_keeps component).bind fun _ => keeps_pure _).bind fun _ => ih
  · refine (defineAll_keeps _ hcollection).bind fun _ => ?_
    refine (defineAll_keeps _ hfunctional).bind fun _ => ?_
    exact (defineAll_keeps _ hstream).bind fun _ => defineAll_keeps _ hprogram

/-! ## While the program runs -/

theorem tick_keeps (time : ObjectId) (advance : Bool) : Keeps R (tick time advance) := by
  unfold tick
  refine keeps_get_bind fun vm => ?_
  split
  · rename_i n hn
    obtain ⟨e, he, hobject⟩ := Option.map_eq_some_iff.mp hn
    have hset := setObject_run he (.counter (if advance then n + 1 else n))
    show R vm ((setObject time (.counter (if advance then n + 1 else n))).run vm).2
    rw [hset]
    exact Chores.change _ he (by rw [hobject]; rfl) rfl
  · exact Advance.refl vm

theorem put_keeps (map : ObjectId) (key : Int32) (e : Element) : Keeps R (put map key e) := by
  unfold put
  refine keeps_get_bind fun vm => ?_
  split
  · rename_i entries hentries
    obtain ⟨entry, hentry, hobject⟩ := Option.map_eq_some_iff.mp hentries
    show R vm ((setObject map (.map (putEntry key e entries))).run vm).2
    rw [setObject_run hentry]
    exact Chores.change _ hentry (by rw [hobject]; rfl) rfl
  · exact Advance.refl vm

end Vm

namespace Vm

variable {R : Vm → Vm → Prop} [Upkeep R]

theorem takeRequest_keeps (accepts : InstalledRequest → Bool) : Keeps R (takeRequest accepts) := by
  refine keeps_modifyGet fun vm => ?_
  split
  · exact Advance.refl vm
  · split
    · exact Upkeep.take vm fun _ h => List.mem_of_mem_eraseP h
    · exact Advance.refl vm

theorem eventFor_keeps (accepts : Vm → Location → InstalledRequest → Bool)
    (make : RequestId → Location → Event) : Keeps R (eventFor accepts make) := by
  refine keeps_get.bind fun vm => ?_
  split
  · exact keeps_pure _
  · exact (takeRequest_keeps _).bind fun _ => keeps_pure _

theorem stepEvent_keeps (point : StepEnd) : Keeps R (stepEvent point) := eventFor_keeps _ _

theorem exceptionEvent_keeps (exception : ObjectId) (caught : Option Location) :
    Keeps R (exceptionEvent exception caught) := eventFor_keeps _ _

theorem exitEvent_keeps (v : Value) : Keeps R (exitEvent v) := eventFor_keeps _ _

theorem enteredEvent_keeps : Keeps R enteredEvent := by
  refine Keeps.bind (eventFor_keeps _ _) fun e => ?_
  cases e with
  | some e => exact keeps_pure _
  | none => exact stepEvent_keeps .entered

end Vm

namespace StreamProgram

open Vm

variable {R : Vm → Vm → Prop} [Allots R]

theorem prepareCall_keeps (element : ElementType) (name : String) (a : CallArgument) :
    Keeps R (prepareCall element name a) := by
  unfold prepareCall
  cases a with
  | lambda f => exact (allocOf_keeps _ _).bind fun _ => keeps_get.bind fun _ => keeps_pure _
  | _ => exact keeps_pure _

theorem prepareCalls_keeps (element : ElementType) (calls : List (String × CallArgument)) :
    Keeps R (prepareCalls element calls) := by
  induction calls with
  | nil => exact keeps_pure _
  | cons call rest ih =>
      exact (prepareCall_keeps element call.1 call.2).bind fun _ => ih.bind fun _ => keeps_pure _

theorem prepareSource_keeps (p : StreamProgram) : Keeps R (prepareSource p) := by
  unfold prepareSource
  cases p.source with
  | stream name => exact (allocOf_keeps _ _).bind fun _ => keeps_get.bind fun _ => keeps_pure _
  | list name => exact (allocOf_keeps _ _).bind fun _ => keeps_get.bind fun _ => keeps_pure _

end StreamProgram

end StreamTrace
