import StreamTrace.Proofs.Machine.StreamMeanings

/-!
# What is loaded

No two loaded classes share an identifier or a signature, so a class is found by either, and by its
name. The library classes are loaded from the start and stay as they were declared; of the classes
that come later, the helpers are as declared too.
-/

namespace StreamTrace

/-! ## Members told apart by a key -/

section

variable {α κ : Type} [BEq κ] [LawfulBEq κ] {f : α → κ} {l : List α} {x : α}

theorem find?_of_nodup (h : (l.map f).Nodup) (hx : x ∈ l) :
    l.find? (fun y => f y == f x) = some x := by
  induction l with
  | nil => cases hx
  | cons y rest ih =>
      obtain ⟨hy, hrest⟩ := List.nodup_cons.mp h
      rcases List.mem_cons.mp hx with rfl | hmem
      · simp
      · have hne : f y ≠ f x := by
          intro heq
          exact hy (heq ▸ List.mem_map_of_mem hmem)
        rw [List.find?_cons_of_neg (by simpa using hne)]
        exact ih hrest hmem

theorem filter_of_nodup (h : (l.map f).Nodup) (hx : x ∈ l) :
    l.filter (fun y => f y == f x) = [x] := by
  induction l with
  | nil => cases hx
  | cons y rest ih =>
      obtain ⟨hy, hrest⟩ := List.nodup_cons.mp h
      rcases List.mem_cons.mp hx with rfl | hmem
      · have hnone : rest.filter (fun z => f z == f x) = [] := by
          refine List.filter_eq_nil_iff.mpr fun z hz heq => hy ?_
          rw [← eq_of_beq heq]
          exact List.mem_map_of_mem hz
        simp [hnone]
      · have hne : f y ≠ f x := by
          intro heq
          exact hy (heq ▸ List.mem_map_of_mem hmem)
        rw [List.filter_cons_of_neg (by simpa using hne)]
        exact ih hrest hmem

end

/-! ## Tables of distinct classes -/

namespace ClassTable

/-- No two classes share an identifier or a signature, and signatures go with names. -/
structure Distinct (cs : ClassTable) : Prop where
  ids : (cs.map (·.id)).Nodup
  signatures : (cs.map (·.signature)).Nodup
  spelled : ∀ c ∈ cs, c.signature = typeNameToSignature c.name

variable {cs : ClassTable} {c c' : ClassDef}

theorem Distinct.byId? (h : cs.Distinct) (hc : c ∈ cs) : cs.byId? c.id = some c :=
  find?_of_nodup h.ids hc

theorem Distinct.bySignature? (h : cs.Distinct) (hc : c ∈ cs) :
    cs.bySignature? c.signature = some c :=
  find?_of_nodup h.signatures hc

theorem Distinct.filter (h : cs.Distinct) (hc : c ∈ cs) :
    List.filter (·.signature == c.signature) cs = [c] :=
  filter_of_nodup h.signatures hc

theorem Distinct.eq_of_signature (h : cs.Distinct) (hc : c ∈ cs) (hc' : c' ∈ cs)
    (heq : c.signature = c'.signature) : c = c' := by
  have hfound := h.bySignature? hc
  rw [heq, h.bySignature? hc'] at hfound
  exact (Option.some.inj hfound).symm

theorem Distinct.eq_of_id (h : cs.Distinct) (hc : c ∈ cs) (hc' : c' ∈ cs) (heq : c.id = c'.id) :
    c = c' := by
  have hfound := h.byId? hc
  rw [heq, h.byId? hc'] at hfound
  exact (Option.some.inj hfound).symm

theorem Distinct.eq_of_name (h : cs.Distinct) (hc : c ∈ cs) (hc' : c' ∈ cs)
    (heq : c.name = c'.name) : c = c' := by
  refine h.eq_of_signature hc hc' ?_
  rw [h.spelled c hc, h.spelled c' hc', heq]

theorem Distinct.named? (h : cs.Distinct) (hc : c ∈ cs) {loader : ObjectId}
    (hvisible : c.visibleTo loader = true) : cs.named? c.name loader = some c.id := by
  unfold ClassTable.named?
  have hfound : (cs.find? fun c' => c'.name == c.name && c'.visibleTo loader).isSome = true := by
    refine List.find?_isSome.mpr ⟨c, hc, ?_⟩
    simpa using hvisible
  obtain ⟨c', hc'⟩ := Option.isSome_iff_exists.mp hfound
  have hname := List.find?_some hc'
  rw [Bool.and_eq_true, beq_iff_eq] at hname
  rw [hc', h.eq_of_name (List.mem_of_find?_eq_some hc') hc hname.1]
  rfl

theorem mem_of_named? {name : String} {loader : ObjectId} {type : TypeId}
    (h : cs.named? name loader = some type) :
    ∃ c ∈ cs, c.name = name ∧ c.id = type ∧ c.visibleTo loader = true := by
  obtain ⟨c, hc, rfl⟩ := Option.map_eq_some_iff.mp h
  have hsome := List.find?_some hc
  rw [Bool.and_eq_true, beq_iff_eq] at hsome
  exact ⟨c, List.mem_of_find?_eq_some hc, hsome.1, rfl, hsome.2⟩

end ClassTable

/-! ## Declared classes -/

def MethodDef.spec (m : MethodDef) : MethodSpec := (m.name, m.descriptor, m.isStatic)

namespace ClassDef

/-- The class is what a loader made of its declaration. -/
structure Declares (c : ClassDef) (loader : ObjectId) (spec : ClassSpec) : Prop where
  name : c.name = spec.name
  loader : c.loader = loader
  isInterface : c.isInterface = spec.isInterface
  isArray : c.isArray = false
  methods : c.methods.map MethodDef.spec = spec.methods
  isAbstract : ∀ m ∈ c.methods, m.isAbstract = spec.isAbstract

/-- What the declaration names above the class is found in the table. -/
structure Linked (c : ClassDef) (cs : ClassTable) (spec : ClassSpec) : Prop where
  root : spec.superclass = none → c.superclass = none
  superclass : ∀ name, spec.superclass = some name →
    ∃ p ∈ cs, p.name = name ∧ c.superclass = some p.id
  interfaces : List.Forall₂ (fun name id => ∃ p ∈ cs, p.name = name ∧ p.id = id)
    spec.interfaces c.interfaces

variable {c : ClassDef} {spec : ClassSpec} {loader : ObjectId}

theorem Linked.mono {cs cs' : ClassTable} (h : c.Linked cs spec)
    (hsub : ∀ p ∈ cs, ∃ p' ∈ cs', p'.name = p.name ∧ p'.id = p.id) : c.Linked cs' spec := by
  have hfind : ∀ {name : String} {id : TypeId}, (∃ p ∈ cs, p.name = name ∧ p.id = id) →
      ∃ p ∈ cs', p.name = name ∧ p.id = id := by
    rintro name id ⟨p, hp, rfl, rfl⟩
    exact hsub p hp
  refine ⟨h.root, fun name hname => ?_, h.interfaces.imp fun _ _ => hfind⟩
  obtain ⟨p, hp, hpname, hpid⟩ := h.superclass name hname
  obtain ⟨p', hp', hname', hid'⟩ := hsub p hp
  exact ⟨p', hp', hname'.trans hpname, hpid.trans (congrArg some hid'.symm)⟩

/-- The method that a declaration lists under a name and a descriptor. -/
theorem Declares.method? (h : c.Declares loader spec) {name descriptor : String} {isStatic : Bool}
    (hlisted : (spec.methods.find? fun m => m.1 == name && m.2.1 == descriptor) =
      some (name, descriptor, isStatic)) :
    ∃ m ∈ c.methods, c.method? name descriptor = some m ∧
      m.spec = (name, descriptor, isStatic) := by
  rw [← h.methods, List.find?_map] at hlisted
  obtain ⟨m, hm, hspec⟩ := Option.map_eq_some_iff.mp hlisted
  exact ⟨m, List.mem_of_find?_eq_some hm, hm, hspec⟩

theorem Declares.method?_none (h : c.Declares loader spec) {name descriptor : String}
    (hlisted : (spec.methods.find? fun m => m.1 == name && m.2.1 == descriptor) = none) :
    c.method? name descriptor = none := by
  rw [← h.methods, List.find?_map] at hlisted
  exact Option.map_eq_none_iff.mp hlisted

end ClassDef

namespace Vm

/-! ## Proper machines -/

/-- Identifiers beyond the counter are not in use, classes can be told apart, and an object that
stands for a class is one. -/
structure Proper (vm : Vm) : Prop where
  null : vm.lookup? 0 = none
  objects : ∀ {id e}, vm.lookup? id = some e → id ≤ vm.nextId
  types : ∀ c ∈ vm.classes, c.id ≤ vm.nextId
  distinct : vm.classes.Distinct
  arrays : ∀ c ∈ vm.classes, c.signature.toList.head? = some '[' → c.isArray = true
  methods : ∀ c ∈ vm.classes, (c.methods.map (·.id)).Nodup
  stands : ∀ c ∈ vm.classes, ∀ id, c.classObject = some id →
    ∃ e, vm.lookup? id = some e ∧ e.object = .classObject c.id

/-- The class is a new one. -/
structure NewClass (vm : Vm) (n : Nat) (c : ClassDef) : Prop where
  fresh : vm.nextId < c.id
  given : c.id ≤ n
  new : ∀ c' ∈ vm.classes, c'.signature ≠ c.signature
  spelled : c.signature = typeNameToSignature c.name
  isArray : c.signature.toList.head? = some '[' → c.isArray = true
  methods : (c.methods.map (·.id)).Nodup
  bare : c.classObject = none

variable {vm vm' : Vm}

theorem Proper.load (h : vm.Proper) {n : Nat} {c : ClassDef} (hc : vm.NewClass n c) :
    { vm with nextId := n, classes := vm.classes ++ [c] : Vm }.Proper := by
  have hnext : vm.nextId ≤ n := Nat.le_trans (Nat.le_of_lt hc.fresh) hc.given
  have hmem : ∀ {P : ClassDef → Prop}, (∀ c' ∈ vm.classes, P c') → P c →
      ∀ c' ∈ vm.classes ++ [c], P c' := by
    intro P hold hnew c' hc'
    rcases List.mem_append.mp hc' with hc' | hc'
    · exact hold c' hc'
    · rw [List.mem_singleton.mp hc']
      exact hnew
  constructor
  · exact h.null
  · intro id e he
    exact Nat.le_trans (h.objects he) hnext
  · exact hmem (fun c' hc' => Nat.le_trans (h.types c' hc') hnext) hc.given
  · constructor
    · show ((vm.classes ++ [c]).map (·.id)).Nodup
      rw [List.map_append, List.nodup_append]
      refine ⟨h.distinct.ids, by simp, ?_⟩
      rintro a ha b hb rfl
      obtain ⟨c', hc', rfl⟩ := List.mem_map.mp ha
      have hid : c'.id = c.id := by simpa using hb
      exact Nat.not_le_of_gt hc.fresh (hid ▸ h.types c' hc')
    · show ((vm.classes ++ [c]).map (·.signature)).Nodup
      rw [List.map_append, List.nodup_append]
      refine ⟨h.distinct.signatures, by simp, ?_⟩
      rintro a ha b hb rfl
      obtain ⟨c', hc', rfl⟩ := List.mem_map.mp ha
      exact hc.new c' hc' (by simpa using hb)
    · exact hmem h.distinct.spelled hc.spelled
  · exact hmem h.arrays hc.isArray
  · exact hmem h.methods hc.methods
  · refine hmem (P := fun c' => ∀ id, c'.classObject = some id →
      ∃ e, vm.lookup? id = some e ∧ e.object = .classObject c'.id) h.stands fun id hid => ?_
    rw [hc.bare] at hid
    cases hid

/-- The machine with one more object. -/
def make (vm : Vm) (e : TypedObject) : Vm :=
  { vm with nextId := vm.nextId + 1, heap := vm.heap.set (vm.nextId + 1) e }

theorem alloc_run (type : TypeId) (object : HeapObject) (vm : Vm) :
    (alloc type object).run vm = (vm.nextId + 1, vm.make { type, object }) := rfl

theorem allocOf_run (className : String) (object : HeapObject) (vm : Vm) :
    (allocOf className object).run vm =
      (vm.nextId + 1, vm.make { type := vm.appClass className, object }) := rfl

/-- The object of a string in the machine. -/
def stringObject (vm : Vm) (s : String) : TypedObject :=
  { type := vm.appClass "java.lang.String", object := .string s }

theorem newString_run (s : String) (vm : Vm) :
    (newString s).run vm =
      ((vm.make (vm.stringObject s)).valueOf (vm.nextId + 1), vm.make (vm.stringObject s)) := rfl

theorem objectId?_valueOf (vm : Vm) {id : ObjectId} (h : id ≠ 0) :
    (vm.valueOf id).objectId? = some id := by
  unfold valueOf Value.objectId?
  exact if_neg h

theorem lookup?_make_self (vm : Vm) (e : TypedObject) :
    (vm.make e).lookup? (vm.nextId + 1) = some e := Table.get?_set_self _ _ _

theorem Proper.ne_zero (h : vm.Proper) {id : ObjectId} {e : TypedObject}
    (he : vm.lookup? id = some e) : id ≠ 0 := by
  rintro rfl
  rw [h.null] at he
  cases he

theorem Proper.lookup?_make (h : vm.Proper) {id : ObjectId} {e : TypedObject}
    (he : vm.lookup? id = some e) (e' : TypedObject) : (vm.make e').lookup? id = some e := by
  have hne : vm.nextId + 1 ≠ id := fun heq =>
    Nat.lt_irrefl _ (Nat.lt_of_lt_of_le (heq ▸ Nat.lt_succ_self _) (h.objects he))
  exact (Table.get?_set_of_ne _ _ hne).trans he

theorem Proper.make (h : vm.Proper) (e : TypedObject) : (vm.make e).Proper where
  null := (Table.get?_set_of_ne _ _ (Nat.succ_ne_zero _)).trans h.null
  objects := by
    intro id e' he'
    change (vm.heap.set (vm.nextId + 1) e).get? id = some e' at he'
    rw [Table.get?_set] at he'
    split at he'
    · rename_i hid
      exact Nat.le_of_eq hid.symm
    · exact Nat.le_succ_of_le (h.objects he')
  types c hc := Nat.le_succ_of_le (h.types c hc)
  distinct := h.distinct
  arrays := h.arrays
  methods := h.methods
  stands c hc id hid := by
    obtain ⟨e', he', hobject⟩ := h.stands c hc id hid
    exact ⟨e', h.lookup?_make he' e, hobject⟩

/-- What `define` and `declareMethods` make of a declaration. -/
theorem declareMethods_specs (isAbstract : Bool) (specs : List MethodSpec) (vm : Vm) :
    let methods := ((declareMethods isAbstract specs).run vm).1
    methods.map MethodDef.spec = specs ∧ ∀ m ∈ methods, m.isAbstract = isAbstract := by
  induction specs generalizing vm with
  | nil => exact ⟨rfl, fun _ hm => absurd hm List.not_mem_nil⟩
  | cons spec rest ih =>
      obtain ⟨hspecs, habstract⟩ := ih { vm with nextId := vm.nextId + 1 }
      constructor
      · exact congrArg (spec :: ·) hspecs
      · intro m hm
        rcases List.mem_cons.mp hm with rfl | hm
        · rfl
        · exact habstract m hm

/-- The class that a declaration gives. -/
structure Defines (vm : Vm) (loader : ObjectId) (spec : ClassSpec) (c : ClassDef) : Prop where
  id : c.id = vm.nextId + 1
  declares : c.Declares loader spec
  signature : c.signature = typeNameToSignature spec.name
  methods : (c.methods.map (·.id)).Nodup
  superclass : c.superclass = spec.superclass.bind fun name => vm.classes.named? name loader
  interfaces : c.interfaces = spec.interfaces.filterMap fun name => vm.classes.named? name loader
  bare : c.classObject = none

theorem define_run (loader : ObjectId) (spec : ClassSpec) (vm : Vm) :
    ∃ c, vm.Defines loader spec c ∧ (define loader spec).run vm =
      (c.id, { vm with
        nextId := vm.nextId + 1 + spec.methods.length
        classes := vm.classes ++ [c] }) := by
  let vm₁ : Vm := { vm with nextId := vm.nextId + 1 }
  obtain ⟨hvm, hids, -⟩ := declareMethods_run spec.isAbstract spec.methods vm₁
  obtain ⟨hspecs, habstract⟩ := declareMethods_specs spec.isAbstract spec.methods vm₁
  let c : ClassDef :=
    { id := vm.nextId + 1, name := spec.name, signature := typeNameToSignature spec.name
      isInterface := spec.isInterface
      superclass := spec.superclass.bind fun name => vm.classes.named? name loader
      interfaces := spec.interfaces.filterMap fun name => vm.classes.named? name loader
      methods := ((declareMethods spec.isAbstract spec.methods).run vm₁).1, loader }
  have hrun : (define loader spec).run vm = (c.id,
      { ((declareMethods spec.isAbstract spec.methods).run vm₁).2 with
        classes :=
          ((declareMethods spec.isAbstract spec.methods).run vm₁).2.classes ++ [c] }) := rfl
  refine ⟨c, ⟨rfl, ⟨rfl, rfl, rfl, rfl, hspecs, habstract⟩, rfl, hids, rfl, rfl, rfl⟩, ?_⟩
  rw [hrun, hvm]

/-- A class whose name is no array's is not loaded as one. -/
theorem Defines.newClass {loader : ObjectId} {spec : ClassSpec} {c : ClassDef}
    (h : vm.Defines loader spec c)
    (hnew : ∀ c' ∈ vm.classes, c'.signature ≠ typeNameToSignature spec.name)
    (hname : (typeNameToSignature spec.name).toList.head? ≠ some '[') :
    vm.NewClass (vm.nextId + 1 + spec.methods.length) c where
  fresh := h.id ▸ Nat.lt_succ_self _
  given := h.id ▸ Nat.le_add_right _ _
  new := h.signature ▸ hnew
  spelled := by rw [h.signature, h.declares.name]
  isArray := fun harray => absurd (h.signature ▸ harray) hname
  methods := h.methods
  bare := h.bare

end Vm

end StreamTrace
