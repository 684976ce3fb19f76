import Mathlib.Data.List.Count
import StreamTrace.Proofs.Machine.BootedMachine

/-!
# Extensions of a machine

What a debugger may do to a stopped machine without disturbing it: objects and classes are added,
objects are pinned, and invocations come and go, while every object and every class that was there
stays as it was. An equipped machine is still equipped after that, and if its classes were in order
they still are.
-/

namespace StreamTrace

/-! ## Classes that stay -/

/-- The same class, perhaps with an object that stands for it by now. -/
structure ClassDef.Stays (c c' : ClassDef) : Prop where
  same : c' = { c with classObject := c'.classObject }
  stands : ∀ id, c.classObject = some id → c'.classObject = some id

namespace ClassDef

variable {c c' c'' : ClassDef}

theorem Stays.refl (c : ClassDef) : c.Stays c := ⟨rfl, fun _ h => h⟩

theorem Stays.trans (h : c.Stays c') (h' : c'.Stays c'') : c.Stays c'' := by
  refine ⟨?_, fun id hid => h'.stands id (h.stands id hid)⟩
  rw [h'.same, h.same]

theorem Stays.id (h : c.Stays c') : c'.id = c.id := by rw [h.same]

theorem Stays.name (h : c.Stays c') : c'.name = c.name := by rw [h.same]

theorem Stays.signature (h : c.Stays c') : c'.signature = c.signature := by rw [h.same]

theorem Stays.methods (h : c.Stays c') : c'.methods = c.methods := by rw [h.same]

theorem Stays.methodInfos (h : c.Stays c') : c'.methodInfos = c.methodInfos := by
  rw [h.same]
  rfl

theorem Stays.isArray (h : c.Stays c') : c'.isArray = c.isArray := by rw [h.same]

theorem Stays.loader (h : c.Stays c') : c'.loader = c.loader := by rw [h.same]

theorem Stays.declares (h : c.Stays c') {loader : ObjectId} {spec : ClassSpec}
    (hc : c.Declares loader spec) : c'.Declares loader spec := by
  rw [h.same]
  exact ⟨hc.name, hc.loader, hc.isInterface, hc.isArray, hc.methods, hc.isAbstract⟩

end ClassDef

/-- Every class of the first table is in the second. -/
def ClassTable.Stay (cs cs' : ClassTable) : Prop := ∀ c ∈ cs, ∃ c' ∈ cs', c.Stays c'

theorem ClassTable.Stay.refl (cs : ClassTable) : cs.Stay cs := fun c hc => ⟨c, hc, .refl c⟩

theorem ClassTable.Stay.trans {cs cs' cs'' : ClassTable} (h : cs.Stay cs') (h' : cs'.Stay cs'') :
    cs.Stay cs'' := by
  intro c hc
  obtain ⟨c', hc', hstays⟩ := h c hc
  obtain ⟨c'', hc'', hstays'⟩ := h' c' hc'
  exact ⟨c'', hc'', hstays.trans hstays'⟩

namespace Vm

variable {vm vm' vm'' : Vm}

/-! ## What keeps a machine equipped -/

theorem Equipped.of_eq (h : vm.Equipped) (hnext : vm'.nextId = vm.nextId)
    (hheap : vm'.heap = vm.heap) (hclasses : vm'.classes = vm.classes)
    (hloader : vm'.appLoader = vm.appLoader) : vm'.Equipped := by
  have hlookup : ∀ id, vm'.lookup? id = vm.lookup? id := by
    intro id
    unfold lookup?
    rw [hheap]
  have hholds : ∀ {d}, vm.Holds d → vm'.Holds d := by
    intro d hd
    unfold Holds
    rw [hclasses]
    exact hd
  constructor
  · constructor
    · rw [hlookup]
      exact h.null
    · intro id e he
      rw [hlookup] at he
      exact hnext ▸ h.objects he
    · rw [hclasses, hnext]
      exact h.types
    · rw [hclasses]
      exact h.distinct
    · rw [hclasses]
      exact h.arrays
    · rw [hclasses]
      exact h.methods
    · intro c hc id hid
      rw [hlookup]
      exact h.stands c (hclasses ▸ hc) id hid
  · exact fun spec hspec => hholds (h.library spec hspec)
  · intro spec hspec
    rw [hloader]
    exact hholds (h.program spec hspec)
  · rw [hclasses, hloader]
    exact h.helpers
  · rw [hloader, hlookup, hclasses]
    exact h.loader
  · rw [hloader]
    exact h.present
  · rw [hclasses]
    exact h.bytes

theorem Equipped.make (h : vm.Equipped) (e : TypedObject) : (vm.make e).Equipped where
  toProper := h.toProper.make e
  library spec hspec := h.library spec hspec
  program spec hspec := h.program spec hspec
  helpers := h.helpers
  loader := by
    obtain ⟨type, hobject, hclass⟩ := h.loader
    exact ⟨type, h.toProper.lookup?_make hobject e, hclass⟩
  present := h.present
  bytes := h.bytes

/-- Another object in the place of one that is neither a class's nor the loader. -/
theorem Equipped.change (h : vm.Equipped) {id : ObjectId} {e : TypedObject} (o : HeapObject)
    (he : vm.lookup? id = some e) (hclass : ∀ type, e.object ≠ .classObject type)
    (hloader : e.object ≠ .classLoader) :
    { vm with heap := vm.heap.set id { e with object := o } : Vm }.Equipped := by
  have hkeeps : ∀ {id' e'}, vm.lookup? id' = some e' → id ≠ id' →
      (vm.heap.set id { e with object := o }).get? id' = some e' :=
    fun he' hne => (Table.get?_set_of_ne _ _ hne).trans he'
  constructor
  · refine ⟨(Table.get?_set_of_ne _ _ (h.toProper.ne_zero he)).trans h.null,
      fun {id' e'} he' => ?_, h.types, h.distinct, h.arrays, h.methods, ?_⟩
    · change (vm.heap.set id _).get? id' = some e' at he'
      rw [Table.get?_set] at he'
      split at he'
      · rename_i hid
        exact hid ▸ h.objects he
      · exact h.objects he'
    · intro c hc id' hid'
      obtain ⟨e', he', hobject⟩ := h.stands c hc id' hid'
      refine ⟨e', hkeeps he' ?_, hobject⟩
      rintro rfl
      obtain rfl := Option.some.inj (he.symm.trans he')
      exact hclass _ hobject
  · exact fun spec hspec => h.library spec hspec
  · exact fun spec hspec => h.program spec hspec
  · exact h.helpers
  · obtain ⟨type, hobject, hrest⟩ := h.loader
    refine ⟨type, hkeeps hobject fun hid => ?_, hrest⟩
    have hsame : id = vm.appLoader := hid
    rw [hsame, hobject] at he
    obtain rfl := Option.some.inj he
    exact hloader rfl
  · exact h.present
  · exact h.bytes

/-- A new class, which is no helper or is declared as one. -/
theorem Equipped.load (h : vm.Equipped) {n : Nat} {c : ClassDef} (hc : vm.NewClass n c)
    (hhelper : ∀ k : HelperClass, c.signature = typeNameToSignature k.name →
      c.Declares vm.appLoader (helperSpec k)) :
    { vm with nextId := n, classes := vm.classes ++ [c] : Vm }.Equipped where
  toProper := h.toProper.load hc
  library spec hspec := (h.library spec hspec).load n c
  program spec hspec := (h.program spec hspec).load n c
  helpers := by
    intro c' hc'
    rcases List.mem_append.mp hc' with hc' | hc'
    · exact h.helpers c' hc'
    · rw [List.mem_singleton.mp hc']
      exact hhelper
  loader := by
    obtain ⟨type, hobject, c', hc', hrest⟩ := h.loader
    exact ⟨type, hobject, c', List.mem_append_left _ hc', hrest⟩
  present := h.present
  bytes := by
    obtain ⟨c', hc', hsignature⟩ := h.bytes
    exact ⟨c', List.mem_append_left _ hc', hsignature⟩

/-- Which variables are known and which object stands for a class is nothing that a machine
needs. -/
theorem Equipped.redraw (h : vm.Equipped) {f : ClassDef → ClassDef}
    (hf : ∀ c, f c = { c with locals := (f c).locals, classObject := (f c).classObject })
    (hstands : ∀ c ∈ vm.classes, ∀ id, (f c).classObject = some id →
      ∃ e, vm.lookup? id = some e ∧ e.object = .classObject c.id) :
    { vm with classes := vm.classes.map f : Vm }.Equipped := by
  -- What looks at neither of the two fields carries over: a value of each class, a fact about every
  -- class, a class with some property.
  have hmap : ∀ {α : Type} {g : ClassDef → α}, (∀ c locals classObject,
      g { c with locals, classObject } = g c) → (vm.classes.map f).map g = vm.classes.map g := by
    intro α g hg
    rw [List.map_map]
    refine List.map_congr_left fun c _ => ?_
    show g (f c) = g c
    rw [hf c, hg]
  have hall : ∀ {P : ClassDef → Prop}, (∀ c locals classObject, P c →
      P { c with locals, classObject }) → (∀ c ∈ vm.classes, P c) →
        ∀ c ∈ vm.classes.map f, P c := by
    intro P hP hclasses c' hc'
    obtain ⟨c, hc, rfl⟩ := List.mem_map.mp hc'
    rw [hf c]
    exact hP c _ _ (hclasses c hc)
  have hfind : ∀ {P : ClassDef → Prop}, (∀ c locals classObject, P c →
      P { c with locals, classObject }) → (∃ c ∈ vm.classes, P c) →
        ∃ c ∈ vm.classes.map f, P c := by
    rintro P hP ⟨c, hc, hclass⟩
    refine ⟨f c, List.mem_map_of_mem hc, ?_⟩
    rw [hf c]
    exact hP c _ _ hclass
  have hdeclares : ∀ {c : ClassDef} {loader : ObjectId} {spec : ClassSpec} (locals classObject),
      c.Declares loader spec → { c with locals, classObject : ClassDef }.Declares loader spec :=
    fun _ _ h => ⟨h.name, h.loader, h.isInterface, h.isArray, h.methods, h.isAbstract⟩
  have hholds : ∀ {d}, vm.Holds d → { vm with classes := vm.classes.map f : Vm }.Holds d := by
    intro d hd
    refine hfind (P := fun c => c.Declares d.1 d.2 ∧ c.Linked (vm.classes.map f) d.2)
      (fun c locals classObject hc => ⟨hdeclares locals classObject hc.1, hc.2.root,
        hc.2.superclass, hc.2.interfaces⟩) ?_
    obtain ⟨c, hc, hdecl, hlinked⟩ := hd
    exact ⟨c, hc, hdecl, hlinked.mono fun p hp => hfind
      (P := fun p' => p'.name = p.name ∧ p'.id = p.id) (fun _ _ _ h => h) ⟨p, hp, rfl, rfl⟩⟩
  constructor
  · constructor
    · exact h.null
    · exact h.objects
    · exact hall (fun _ _ _ h => h) h.types
    · refine ⟨?_, ?_, hall (fun _ _ _ h => h) h.distinct.spelled⟩
      · exact (hmap (g := ClassDef.id) fun _ _ _ => rfl).symm ▸ h.distinct.ids
      · exact (hmap (g := ClassDef.signature) fun _ _ _ => rfl).symm ▸ h.distinct.signatures
    · exact hall (fun _ _ _ h => h) h.arrays
    · exact hall (fun _ _ _ h => h) h.methods
    · intro c' hc' id hid
      obtain ⟨c, hc, rfl⟩ := List.mem_map.mp hc'
      have hsame : (f c).id = c.id := by rw [hf c]
      rw [hsame]
      exact hstands c hc id hid
  · exact fun spec hspec => hholds (h.library spec hspec)
  · exact fun spec hspec => hholds (h.program spec hspec)
  · exact hall (fun c locals classObject hc k hk => hdeclares locals classObject (hc k hk))
      h.helpers
  · obtain ⟨type, hobject, hclass⟩ := h.loader
    exact ⟨type, hobject, hfind (fun _ _ _ h => h) hclass⟩
  · exact h.present
  · exact hfind (fun _ _ _ h => h) h.bytes

/-- The table in which `id` stands for a class. -/
def standing (cs : ClassTable) (type : TypeId) (id : ObjectId) : ClassTable :=
  cs.update type fun c => { c with classObject := some id }

theorem stay_standing {cs : ClassTable} {type : TypeId} (id : ObjectId)
    (hbare : ∀ c ∈ cs, c.id = type → c.classObject = none) : cs.Stay (standing cs type id) := by
  intro c hc
  refine ⟨_, List.mem_map_of_mem hc, ?_⟩
  split
  · rename_i hid
    refine ⟨rfl, fun id' hid' => ?_⟩
    rw [hbare c hc hid] at hid'
    cases hid'
  · exact .refl c

/-- An object that stands for a class from now on. -/
theorem Equipped.stand (h : vm.Equipped) {type : TypeId} {id : ObjectId} {e : TypedObject}
    (he : vm.lookup? id = some e) (hobject : e.object = .classObject type) :
    { vm with classes := standing vm.classes type id : Vm }.Equipped := by
  refine h.redraw (fun c => ?_) fun c hc id' hid' => ?_
  · split <;> rfl
  · split at hid'
    · rename_i htype
      obtain rfl := Option.some.inj hid'
      exact ⟨e, he, hobject.trans (congrArg _ htype.symm)⟩
    · exact h.stands c hc id' hid'

/-- Variables of a method that are known from now on. -/
theorem Equipped.reveal (h : vm.Equipped) (type : TypeId)
    (locals : Table MethodId (List VariableInfo) → Table MethodId (List VariableInfo)) :
    { vm with classes := vm.classes.update type fun c =>
      { c with locals := locals c.locals } : Vm }.Equipped := by
  refine h.redraw (fun c => ?_) fun c hc id' hid' => ?_
  · split <;> rfl
  · refine h.stands c hc id' ?_
    split at hid' <;> exact hid'

end Vm

/-! ## Classes in order -/

/-- Whatever lies directly above a class of the table is in the table. -/
def ClassTable.Closed (cs : ClassTable) : Prop :=
  ∀ c ∈ cs, ∀ id ∈ c.superclass.toList ++ c.interfaces, ∃ c' ∈ cs, c'.id = id

instance (cs : ClassTable) : Decidable cs.Closed :=
  inferInstanceAs (Decidable (∀ c ∈ cs, ∀ id ∈ c.superclass.toList ++ c.interfaces,
    ∃ c' ∈ cs, c'.id = id))

/-- How many classes of that name are helpers. -/
def ClassTable.helpersNamed (cs : ClassTable) (name : String) : Nat :=
  cs.countP fun c => c.name == name && (HelperClass.ofName? c.name).isSome

theorem ClassTable.helpersNamed_append (cs : ClassTable) (c : ClassDef) (name : String) :
    ClassTable.helpersNamed (cs ++ [c]) name = cs.helpersNamed name +
      if c.name = name ∧ (HelperClass.ofName? c.name).isSome then 1 else 0 := by
  unfold ClassTable.helpersNamed
  rw [List.countP_append, List.countP_singleton]
  simp

namespace Vm

variable {vm vm' vm'' : Vm}

/-- Every class lies below loaded ones, is seen by the program and goes by the name that its
signature tells, and each definition of a helper has left a class. -/
structure Sound (vm : Vm) : Prop where
  closed : vm.classes.Closed
  visible : ∀ c ∈ vm.classes, c.visibleTo vm.appLoader = true
  named : ∀ c ∈ vm.classes, signatureToTypeName? c.signature = some c.name
  counted : ∀ name, vm.timesDefined name = vm.classes.helpersNamed name

theorem Sound.of_eq (h : vm.Sound) (hclasses : vm'.classes = vm.classes)
    (hloader : vm'.appLoader = vm.appLoader) (hdefined : vm'.defined = vm.defined) :
    vm'.Sound where
  closed := hclasses ▸ h.closed
  visible := by
    rw [hclasses, hloader]
    exact h.visible
  named := hclasses ▸ h.named
  counted name := by
    unfold timesDefined
    rw [hdefined, hclasses]
    exact h.counted name

/-- Which variables are known and which object stands for a class makes no difference. -/
theorem Sound.redraw (h : vm.Sound) {f : ClassDef → ClassDef}
    (hf : ∀ c, f c = { c with locals := (f c).locals, classObject := (f c).classObject }) :
    { vm with classes := vm.classes.map f : Vm }.Sound where
  closed := by
    intro c' hc' id hid
    obtain ⟨c, hc, rfl⟩ := List.mem_map.mp hc'
    rw [hf c] at hid
    obtain ⟨above, habove, rfl⟩ := h.closed c hc id hid
    exact ⟨f above, List.mem_map_of_mem habove, by rw [hf above]⟩
  visible := by
    intro c' hc'
    obtain ⟨c, hc, rfl⟩ := List.mem_map.mp hc'
    rw [hf c]
    exact h.visible c hc
  named := by
    intro c' hc'
    obtain ⟨c, hc, rfl⟩ := List.mem_map.mp hc'
    rw [hf c]
    exact h.named c hc
  counted name := by
    refine (h.counted name).trans ?_
    unfold ClassTable.helpersNamed
    rw [List.countP_map]
    refine List.countP_congr fun c _ => ?_
    show _ ↔ ((f c).name == name && (HelperClass.ofName? (f c).name).isSome) = true
    rw [hf c]

/-- A class that the program can get: it lies below loaded ones, and if it is a helper then it is
declared as one, which is noted. -/
structure Addition (vm : Vm) (n : Nat) (c : ClassDef) (defined : Table String Nat) : Prop
    extends vm.NewClass n c where
  helper : ∀ k : HelperClass, c.signature = typeNameToSignature k.name →
    c.Declares vm.appLoader (helperSpec k)
  above : ∀ id ∈ c.superclass.toList ++ c.interfaces,
    ∃ name loader, vm.classes.named? name loader = some id
  visible : c.visibleTo vm.appLoader = true
  named : signatureToTypeName? c.signature = some c.name
  counted : ∀ name, (defined.get? name).getD 0 = vm.timesDefined name +
    if c.name = name ∧ (HelperClass.ofName? c.name).isSome then 1 else 0

theorem Sound.load (h : vm.Sound) {n : Nat} {c : ClassDef} {defined : Table String Nat}
    (hc : vm.Addition n c defined) :
    { vm with nextId := n, classes := vm.classes ++ [c], defined : Vm }.Sound where
  closed := by
    intro c' hc' id hid
    have hold : ∃ above ∈ vm.classes, above.id = id := by
      rcases List.mem_append.mp hc' with hc' | hc'
      · exact h.closed c' hc' id hid
      · rw [List.mem_singleton.mp hc'] at hid
        obtain ⟨name, loader, hname⟩ := hc.above id hid
        obtain ⟨above, habove, -, hid', -⟩ := ClassTable.mem_of_named? hname
        exact ⟨above, habove, hid'⟩
    obtain ⟨above, habove, hid'⟩ := hold
    exact ⟨above, List.mem_append_left _ habove, hid'⟩
  visible := List.forall_mem_append.mpr ⟨h.visible, List.forall_mem_singleton.mpr hc.visible⟩
  named := List.forall_mem_append.mpr ⟨h.named, List.forall_mem_singleton.mpr hc.named⟩
  counted name := by
    show (defined.get? name).getD 0 = ClassTable.helpersNamed (vm.classes ++ [c]) name
    rw [ClassTable.helpersNamed_append, ← h.counted name]
    exact hc.counted name

/-! ## Extended machines -/

/-- Objects and classes were added, and pins and notes have changed. -/
structure Extended (vm vm' : Vm) : Prop where
  equipped : vm'.Equipped
  next : vm.nextId ≤ vm'.nextId
  objects : ∀ {id e}, vm.lookup? id = some e → vm'.lookup? id = some e
  classes : vm.classes.Stay vm'.classes
  state : vm' = { vm with
    nextId := vm'.nextId, heap := vm'.heap, classes := vm'.classes, pins := vm'.pins
    invocations := vm'.invocations, defined := vm'.defined }
  sound : vm.Sound → vm'.Sound

theorem Extended.refl (h : vm.Equipped) : vm.Extended vm :=
  ⟨h, Nat.le_refl _, id, .refl _, rfl, id⟩

theorem Extended.trans (h : vm.Extended vm') (h' : vm'.Extended vm'') : vm.Extended vm'' := by
  refine ⟨h'.equipped, Nat.le_trans h.next h'.next, fun he => h'.objects (h.objects he),
    h.classes.trans h'.classes, ?_, h'.sound ∘ h.sound⟩
  rw [h'.state, h.state]

section

variable (h : vm.Extended vm')

include h

theorem Extended.frames : vm'.frames = vm.frames := by rw [h.state]

theorem Extended.requests : vm'.requests = vm.requests := by rw [h.state]

theorem Extended.dead : vm'.dead = vm.dead := by rw [h.state]

theorem Extended.suspended : vm'.suspended = vm.suspended := by rw [h.state]

theorem Extended.appLoader : vm'.appLoader = vm.appLoader := by rw [h.state]

theorem Extended.outbox : vm'.outbox = vm.outbox := by rw [h.state]

end

theorem extended_make (h : vm.Equipped) (e : TypedObject) : vm.Extended (vm.make e) :=
  ⟨h.make e, Nat.le_succ _, fun he => h.toProper.lookup?_make he e, .refl _, rfl,
    (·.of_eq rfl rfl rfl)⟩

theorem extended_load (h : vm.Equipped) {n : Nat} {c : ClassDef} {defined : Table String Nat}
    (hc : vm.Addition n c defined) :
    vm.Extended { vm with nextId := n, classes := vm.classes ++ [c], defined } :=
  ⟨(h.load hc.toNewClass hc.helper).of_eq rfl rfl rfl rfl,
    Nat.le_trans (Nat.le_of_lt hc.fresh) hc.given, id,
    fun c' hc' => ⟨c', List.mem_append_left _ hc', .refl c'⟩, rfl, (·.load hc)⟩

theorem extended_stand (h : vm.Equipped) {type : TypeId} {id : ObjectId} {e : TypedObject}
    (he : vm.lookup? id = some e) (hobject : e.object = .classObject type)
    (hbare : ∀ c ∈ vm.classes, c.id = type → c.classObject = none) :
    vm.Extended { vm with classes := standing vm.classes type id } :=
  ⟨h.stand he hobject, Nat.le_refl _, fun h => h, stay_standing id hbare, rfl,
    fun hsound => hsound.redraw fun c => by split <;> rfl⟩

/-- Pins and notes of invocations are nothing that a machine needs. -/
theorem extended_note (h : vm.Equipped) (pins : Table ObjectId Nat) (invocations : List String) :
    vm.Extended { vm with pins, invocations } :=
  ⟨h.of_eq rfl rfl rfl rfl, Nat.le_refl _, id, .refl _, rfl, (·.of_eq rfl rfl rfl)⟩

/-- An object that is newer than the machine `vm` may change. -/
theorem Extended.change (h : vm.Extended vm') {id : ObjectId} {e : TypedObject} (o : HeapObject)
    (he : vm'.lookup? id = some e) (hnew : vm.nextId < id) (hvm : vm.Proper)
    (hclass : ∀ type, e.object ≠ .classObject type) (hloader : e.object ≠ .classLoader) :
    vm.Extended { vm' with heap := vm'.heap.set id { e with object := o } } := by
  refine ⟨h.equipped.change o he hclass hloader, h.next, fun {id' e'} he' => ?_, h.classes, ?_,
    fun hsound => (h.sound hsound).of_eq rfl rfl rfl⟩
  · have hne : id ≠ id' := fun heq => Nat.not_le_of_gt hnew (heq ▸ hvm.objects he')
    exact (Table.get?_set_of_ne _ _ hne).trans (h.objects he')
  · rw [h.state]

end Vm

end StreamTrace
