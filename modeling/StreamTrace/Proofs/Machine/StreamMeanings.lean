import StreamTrace.Proofs.Machine.Commands

/-!
# What streams and functions mean

A collector behind a stream, a matcher around a predicate and a stream made sequential change no
element that passes. To say so, a function object is given the function that it computes, and a
stream object its elements and what becomes of each. Objects that are not mutable never change, so
what they mean stays the same for as long as the machine only grows.
-/

namespace StreamTrace

/-! ## Growing machines -/

/-- Both are the same class, one perhaps with an object that stands for it. -/
structure ClassDef.Same (c c' : ClassDef) : Prop where
  methods : c'.methods = c.methods
  superclass : c'.superclass = c.superclass
  interfaces : c'.interfaces = c.interfaces
  locals : c'.locals = c.locals

theorem ClassDef.Same.refl (c : ClassDef) : c.Same c := ⟨rfl, rfl, rfl, rfl⟩

theorem ClassDef.Same.trans {c c' c'' : ClassDef} (h : c.Same c') (h' : c'.Same c'') :
    c.Same c'' :=
  ⟨h'.methods.trans h.methods, h'.superclass.trans h.superclass,
    h'.interfaces.trans h.interfaces, h'.locals.trans h.locals⟩

theorem ClassTable.byId?_update (cs : ClassTable) (id type : TypeId) {f : ClassDef → ClassDef}
    (hf : ∀ c, (f c).id = c.id) :
    (cs.update id f).byId? type =
      (cs.byId? type).map fun c => if c.id = id then f c else c := by
  induction cs with
  | nil => rfl
  | cons c rest ih =>
      have hid : (if c.id = id then f c else c).id = c.id := by
        split
        · exact hf c
        · rfl
      show List.find? _ (_ :: rest.map _) = (List.find? _ (c :: rest)).map _
      rw [List.find?_cons, List.find?_cons, hid]
      cases c.id == type with
      | true => rfl
      | false => exact ih

theorem ClassTable.named?_update (cs : ClassTable) (id : TypeId) (name : String) (loader : ObjectId)
    {f : ClassDef → ClassDef}
    (hf : ∀ c, (f c).id = c.id ∧ (f c).name = c.name ∧ (f c).loader = c.loader) :
    (cs.update id f).named? name loader = cs.named? name loader := by
  induction cs with
  | nil => rfl
  | cons c rest ih =>
      let c' := if c.id = id then f c else c
      have hc' : c'.id = c.id ∧ c'.name = c.name ∧ c'.loader = c.loader := by
        show (if c.id = id then f c else c).id = _ ∧ (if c.id = id then f c else c).name = _ ∧
          (if c.id = id then f c else c).loader = _
        split
        · exact hf c
        · exact ⟨rfl, rfl, rfl⟩
      show (List.find? _ (c' :: rest.map _)).map _ = (List.find? _ (c :: rest)).map _
      rw [List.find?_cons, List.find?_cons, ClassDef.visibleTo, ClassDef.visibleTo, hc'.2.1,
        hc'.2.2]
      cases c.name == name && (c.loader == 0 || c.loader == loader) with
      | true => simp [hc'.1]
      | false => exact ih

theorem ClassTable.named?_append {cs : ClassTable} {name : String} {loader : ObjectId}
    {type : TypeId} (h : cs.named? name loader = some type) (rest : List ClassDef) :
    ClassTable.named? (cs ++ rest) name loader = some type := by
  unfold ClassTable.named? at h ⊢
  rw [List.find?_append]
  obtain ⟨c, hc, rfl⟩ := Option.map_eq_some_iff.mp h
  rw [hc]
  rfl

theorem ClassTable.byId?_append {cs : ClassTable} {type : TypeId} {c : ClassDef}
    (h : cs.byId? type = some c) (rest : List ClassDef) :
    ClassTable.byId? (cs ++ rest) type = some c := by
  unfold ClassTable.byId? at h ⊢
  rw [List.find?_append, h]
  rfl

namespace Vm

/-- What there was is still there, and has kept its contents unless it is mutable. -/
structure Grows (vm vm' : Vm) : Prop where
  nextId : vm.nextId ≤ vm'.nextId
  objects : ∀ {id e}, vm.lookup? id = some e → e.object.isMutable = false →
    vm'.lookup? id = some e
  classes : ∀ {type c}, vm.classes.byId? type = some c →
    ∃ c', vm'.classes.byId? type = some c' ∧ c.Same c'
  named : ∀ {name loader type}, vm.classes.named? name loader = some type →
    vm'.classes.named? name loader = some type
  count : vm.classes.length ≤ vm'.classes.length
  appLoader : vm'.appLoader = vm.appLoader

/-- Identifiers that are yet to be given are not in use, and the classes fit. -/
structure Tidy (vm : Vm) : Prop where
  objects : ∀ {id e}, vm.lookup? id = some e → id ≤ vm.nextId
  fits : vm.classes.Fits

theorem Grows.refl (vm : Vm) : vm.Grows vm :=
  ⟨Nat.le_refl _, fun h _ => h, fun h => ⟨_, h, .refl _⟩, id, Nat.le_refl _, rfl⟩

theorem Grows.trans {vm vm' vm'' : Vm} (h : vm.Grows vm') (h' : vm'.Grows vm'') :
    vm.Grows vm'' := by
  refine ⟨Nat.le_trans h.nextId h'.nextId, fun he hm => h'.objects (h.objects he hm) hm,
    fun hc => ?_, fun hn => h'.named (h.named hn), Nat.le_trans h.count h'.count,
    h'.appLoader.trans h.appLoader⟩
  obtain ⟨c', hc', hsame⟩ := h.classes hc
  obtain ⟨c'', hc'', hsame'⟩ := h'.classes hc'
  exact ⟨c'', hc'', hsame.trans hsame'⟩

/-- Neither identifiers nor the heap nor the classes have changed. -/
theorem Grows.of_eq {vm vm' : Vm} (hnext : vm'.nextId = vm.nextId) (hheap : vm'.heap = vm.heap)
    (hclasses : vm'.classes = vm.classes) (hloader : vm'.appLoader = vm.appLoader) :
    vm.Grows vm' := by
  refine ⟨Nat.le_of_eq hnext.symm, fun he _ => ?_, fun hc => ?_, fun hn => hclasses ▸ hn, ?_,
    hloader⟩
  · unfold lookup? at he ⊢
    rw [hheap, he]
  · exact ⟨_, hclasses ▸ hc, .refl _⟩
  · exact Nat.le_of_eq (by rw [hclasses])

theorem Tidy.of_eq {vm vm' : Vm} (h : vm.Tidy) (hnext : vm'.nextId = vm.nextId)
    (hheap : vm'.heap = vm.heap) (hclasses : vm'.classes = vm.classes) : vm'.Tidy := by
  refine ⟨fun he => ?_, hclasses ▸ h.fits⟩
  unfold lookup? at he
  rw [hheap] at he
  exact hnext ▸ h.objects he

/-! ## Machines at which somebody works -/

/-- The machine has grown, and its thread stands where it stood. -/
structure Evolved (vm vm' : Vm) : Prop where
  grows : vm.Grows vm'
  frames : vm'.frames = vm.frames
  forcedReturn : vm'.forcedReturn = vm.forcedReturn
  programResult : vm'.programResult = vm.programResult
  evaluations : vm'.evaluations = vm.evaluations
  dead : vm'.dead = vm.dead
  suspended : vm'.suspended = vm.suspended
  outbox : vm'.outbox = vm.outbox

/-- A tidy machine has evolved and is still tidy. -/
def Evolves (vm vm' : Vm) : Prop := vm.Tidy → vm'.Tidy ∧ vm.Evolved vm'

theorem Evolved.refl (vm : Vm) : vm.Evolved vm := ⟨.refl vm, rfl, rfl, rfl, rfl, rfl, rfl, rfl⟩

theorem Evolved.trans {vm vm' vm'' : Vm} (h : vm.Evolved vm') (h' : vm'.Evolved vm'') :
    vm.Evolved vm'' :=
  ⟨h.grows.trans h'.grows, h'.frames.trans h.frames, h'.forcedReturn.trans h.forcedReturn,
    h'.programResult.trans h.programResult, h'.evaluations.trans h.evaluations,
    h'.dead.trans h.dead, h'.suspended.trans h.suspended, h'.outbox.trans h.outbox⟩

theorem grows_alloc {vm : Vm} (h : vm.Tidy) (e : TypedObject) :
    vm.Grows { vm with nextId := vm.nextId + 1, heap := vm.heap.set (vm.nextId + 1) e } := by
  refine ⟨Nat.le_succ _, fun {id e'} he _ => ?_, fun hc => ⟨_, hc, .refl _⟩, id,
    Nat.le_refl _, rfl⟩
  have hne : vm.nextId + 1 ≠ id := fun hid =>
    Nat.lt_irrefl _ (Nat.lt_of_lt_of_le (hid ▸ Nat.lt_succ_self _) (h.objects he))
  exact (Table.get?_set_of_ne _ e hne).trans he

theorem grows_change {vm : Vm} {id : ObjectId} {e : TypedObject} (o : HeapObject)
    (he : vm.lookup? id = some e) (hold : e.object.isMutable = true) :
    vm.Grows { vm with heap := vm.heap.set id { e with object := o } } := by
  refine ⟨Nat.le_refl _, fun {id' e'} he' hfixed => ?_, fun hc => ⟨_, hc, .refl _⟩, fun hn => hn,
    Nat.le_refl _, rfl⟩
  have hne : id ≠ id' := by
    rintro rfl
    obtain rfl := Option.some.inj (he.symm.trans he')
    rw [hold] at hfixed
    cases hfixed
  exact (Table.get?_set_of_ne _ _ hne).trans he'

theorem grows_load {vm : Vm} {n : Nat} (hn : vm.nextId ≤ n) (c : ClassDef) :
    vm.Grows { vm with nextId := n, classes := vm.classes ++ [c] } := by
  refine ⟨hn, fun he _ => he, fun hc => ⟨_, ClassTable.byId?_append hc _, .refl _⟩,
    fun hn => ClassTable.named?_append hn _, ?_, rfl⟩
  rw [List.length_append]
  exact Nat.le_add_right _ _

theorem grows_stand (vm : Vm) (type : TypeId) (id : ObjectId) :
    vm.Grows { vm with
      classes := vm.classes.update type fun c => { c with classObject := some id } } := by
  refine ⟨Nat.le_refl _, fun he _ => he, fun {type' c} hc => ?_, fun hn => ?_, ?_, rfl⟩
  · refine ⟨if c.id = type then { c with classObject := some id } else c, ?_, ?_⟩
    · have hupdate := vm.classes.byId?_update type type'
        (f := fun c => { c with classObject := some id }) fun _ => rfl
      rw [hc] at hupdate
      exact hupdate
    · split
      · exact ⟨rfl, rfl, rfl, rfl⟩
      · exact .refl c
  · exact (ClassTable.named?_update _ type _ _
      (f := fun c => { c with classObject := some id }) fun _ => ⟨rfl, rfl, rfl⟩).trans hn
  · exact Nat.le_of_eq (List.length_map _).symm

/-- A tidy machine is still tidy. -/
def Tidies (vm vm' : Vm) : Prop := vm.Tidy → vm'.Tidy

instance : Service Tidies where
  quiet := False
  refl _ h := h
  trans h h' htidy := h' (h htidy)
  alloc vm e h := by
    refine ⟨fun {id e'} he => ?_, h.fits⟩
    change (vm.heap.set (vm.nextId + 1) e).get? id = some e' at he
    rw [Table.get?_set] at he
    split at he
    · rename_i hid
      exact Nat.le_of_eq hid.symm
    · exact Nat.le_succ_of_le (h.objects he)
  change {vm id e} o he _ _ h := by
    refine ⟨fun {id' e'} he' => ?_, h.fits⟩
    change (vm.heap.set id _).get? id' = some e' at he'
    rw [Table.get?_set] at he'
    split at he'
    · rename_i hid
      exact hid ▸ h.objects he
    · exact h.objects he'
  load _ _ _ hc h := ⟨fun he => Nat.le_trans (h.objects he) hc.next, h.fits.append hc.fits⟩
  stand _ _ _ h := ⟨h.objects, h.fits.update _ (fun _ => rfl) fun _ => rfl⟩
  note _ _ _ h := ⟨h.objects, h.fits⟩
  pin _ _ h := ⟨h.objects, h.fits⟩
  take _ _ _ h := ⟨h.objects, h.fits⟩
  stall _ _ _ h := ⟨h.objects, h.fits⟩
  calm h := h.elim

instance : Service Evolves where
  quiet := False
  refl vm h := ⟨h, Evolved.refl vm⟩
  trans h h' htidy := by
    obtain ⟨htidy', hevolved⟩ := h htidy
    obtain ⟨htidy'', hevolved'⟩ := h' htidy'
    exact ⟨htidy'', hevolved.trans hevolved'⟩
  alloc vm e h :=
    ⟨Allots.alloc (R := Tidies) vm e h, grows_alloc h e, rfl, rfl, rfl, rfl, rfl, rfl, rfl⟩
  change o he hold hnew h :=
    ⟨Chores.change (R := Tidies) o he hold hnew h, grows_change o he hold, rfl, rfl, rfl, rfl, rfl,
      rfl, rfl⟩
  load vm _ c hc h :=
    ⟨Chores.load (R := Tidies) vm hc h, grows_load hc.next c, rfl, rfl, rfl, rfl, rfl, rfl, rfl⟩
  stand vm type id h :=
    ⟨Chores.stand (R := Tidies) vm type id h, grows_stand vm type id, rfl, rfl, rfl, rfl, rfl, rfl,
      rfl⟩
  note _ _ _ h :=
    ⟨⟨h.objects, h.fits⟩, .of_eq rfl rfl rfl rfl, rfl, rfl, rfl, rfl, rfl, rfl, rfl⟩
  pin _ _ h :=
    ⟨⟨h.objects, h.fits⟩, .of_eq rfl rfl rfl rfl, rfl, rfl, rfl, rfl, rfl, rfl, rfl⟩
  take _ _ _ h :=
    ⟨⟨h.objects, h.fits⟩, .of_eq rfl rfl rfl rfl, rfl, rfl, rfl, rfl, rfl, rfl, rfl⟩
  stall _ _ _ h :=
    ⟨⟨h.objects, h.fits⟩, .of_eq rfl rfl rfl rfl, rfl, rfl, rfl, rfl, rfl, rfl, rfl⟩
  calm h := h.elim

/-- Whatever the debugger asks for, the machine evolves, unless the command touches the thread. -/
theorem answer_evolves (vm : Vm) {c : Command} (htouch : c.touchesThread = false) :
    vm.Evolves (vm.answer c).2 := by
  cases hset : c.setsRequest with
  | false => exact (respond_yields (R := Evolves) hset htouch fun h => False.elim h).1
  | true =>
      cases c with
      | setRequest kind policy modifiers =>
          rw [answer_setRequest]
          split
          · exact Advance.refl vm
          · intro h
            have hrun : ∃ requests nextRequest set most,
                ((installRequest kind modifiers).run vm).2 =
                  { vm with
                    requests, nextRequest, methodRequestsSet := set,
                    maxMethodRequests := most } := by
              unfold installRequest
              simp only [StateT.run, modifyGet, MonadStateOf.modifyGet, StateT.modifyGet]
              split
              · exact ⟨_, _, _, _, rfl⟩
              · exact ⟨_, _, _, _, rfl⟩
            obtain ⟨requests, nextRequest, set, most, hvm⟩ := hrun
            rw [hvm]
            exact ⟨⟨h.objects, h.fits⟩, .of_eq rfl rfl rfl rfl, rfl, rfl, rfl, rfl, rfl, rfl, rfl⟩
      | _ => cases hset

end Vm

/-! ## What passes -/

/-- What code comes to: a value, or why control leaves it without one. -/
abbrev Fate := Except Interruption

/-- What a call with that outcome comes to. -/
def LambdaOutcome.fate : LambdaOutcome → Fate Element
  | value e => .ok e
  | raise _ (some e) => .ok e
  | raise _ none => .error .thrown
  | raiseReplaced _ _ => .error .thrown
  | exitVm => .error .exited

/-- What a lambda makes of an element. -/
def Lambda.run (f : Lambda) (e : Element) : Fate Element := (f e).fate

/-- What a step makes of an element: another one, or nothing if it is dropped. -/
abbrev Passage := Element → Fate (Option Element)

namespace Passage

def all : Passage := fun e => .ok (some e)

def keepIf (f : Element → Fate Element) : Passage := fun e => do
  let r ← f e
  if r.isTrue then return some e else return none

def mapBy (f : Element → Fate Element) : Passage := fun e => do
  let e ← f e
  return some e

def peekBy (f : Element → Fate Element) : Passage := fun e => do
  let _ ← f e
  return some e

def andThen (g k : Passage) : Passage := fun e => do
  match ← g e with
  | none => return none
  | some e => k e

/-- One step after another. -/
def through : List Passage → Passage
  | [] => all
  | k :: ks => k.andThen (through ks)

theorem all_andThen (k : Passage) : all.andThen k = k := rfl

theorem andThen_all (g : Passage) : g.andThen all = g := by
  funext e
  show (g e).bind _ = g e
  rcases g e with i | (_ | e) <;> rfl

theorem andThen_assoc (g k l : Passage) : (g.andThen k).andThen l = g.andThen (k.andThen l) := by
  funext e
  show ((g e).bind _).bind _ = (g e).bind _
  rcases g e with i | (_ | e) <;> rfl

theorem through_append_singleton (ks : List Passage) (k : Passage) :
    through (ks ++ [k]) = (through ks).andThen k := by
  induction ks with
  | nil =>
      show k.andThen all = all.andThen k
      rw [andThen_all, all_andThen]
  | cons l ks ih =>
      show l.andThen (through (ks ++ [k])) = (l.andThen (through ks)).andThen k
      rw [ih, andThen_assoc]

end Passage

/-- The type of a stream object, the elements at its source, and what becomes of each. -/
structure StreamMeaning where
  type : TypeId
  items : List Element
  run : Passage

namespace Vm

variable {vm vm' : Vm} {id : ObjectId}

/-- The object is a lambda whose class has a method, in which the debugger finds no variables. -/
def IsLambda (vm : Vm) (id : ObjectId) (f : Lambda) : Prop :=
  ∃ type c m, vm.lookup? id = some { type, object := .lambda f } ∧
    vm.classes.byId? type = some c ∧ c.methods.head? = some m ∧ c.locals.get? m.id = none

/-- The function that an object computes. -/
inductive Computes (vm : Vm) : ObjectId → (Element → Fate Element) → Prop where
  | lambda {id : ObjectId} {f : Lambda} (h : vm.IsLambda id f) : Computes vm id f.run
  | collector {id : ObjectId} {type : TypeId} {map : Option ObjectId} {time : ObjectId}
      {tick : Bool} (h : vm.lookup? id = some { type, object := .collector map time tick }) :
      Computes vm id .ok
  | matcher {id before after time predicate : ObjectId} {type : TypeId} {f : Lambda}
      (h : vm.lookup? id = some { type, object := .matcher before after time predicate })
      (hf : vm.IsLambda predicate f) : Computes vm id f.run

/-- The stream below an operation, and what the operation makes of its elements. -/
inductive OperationMeans (vm : Vm) : StreamOp → ObjectId → Passage → Prop where
  | filter {source function : ObjectId} {f : Element → Fate Element}
      (h : vm.Computes function f) : OperationMeans vm (.filter source function) source (.keepIf f)
  | map {source function : ObjectId} {f : Element → Fate Element}
      (h : vm.Computes function f) : OperationMeans vm (.map source function) source (.mapBy f)
  | peek {source function : ObjectId} {f : Element → Fate Element}
      (h : vm.Computes function f) : OperationMeans vm (.peek source function) source (.peekBy f)
  | pass {source : ObjectId} : OperationMeans vm (.pass source) source .all

/-- What a stream object stands for. -/
inductive StreamMeans (vm : Vm) : ObjectId → StreamMeaning → Prop where
  | source {id : ObjectId} {type : TypeId} {element : ElementType} {items : List Element}
      (h : vm.lookup? id = some { type, object := .stream element (.source items) }) :
      StreamMeans vm id { type, items, run := .all }
  | step {id source : ObjectId} {type : TypeId} {element : ElementType} {op : StreamOp}
      {k : Passage} {m : StreamMeaning}
      (h : vm.lookup? id = some { type, object := .stream element op })
      (hop : vm.OperationMeans op source k) (hlt : source < id) (inner : vm.StreamMeans source m) :
      StreamMeans vm id { type, items := m.items, run := m.run.andThen k }

/-! ### It stays -/

theorem IsLambda.grows {f : Lambda} (h : vm.IsLambda id f) (hg : vm.Grows vm') :
    vm'.IsLambda id f := by
  obtain ⟨type, c, m, he, hc, hm, hlocals⟩ := h
  obtain ⟨c', hc', hsame⟩ := hg.classes hc
  exact ⟨type, c', m, hg.objects he rfl, hc', hsame.methods ▸ hm, hsame.locals ▸ hlocals⟩

theorem Computes.grows {f : Element → Fate Element} (h : vm.Computes id f) (hg : vm.Grows vm') :
    vm'.Computes id f := by
  cases h with
  | lambda h => exact .lambda (h.grows hg)
  | collector h => exact .collector (hg.objects h rfl)
  | matcher h hf => exact .matcher (hg.objects h rfl) (hf.grows hg)

theorem OperationMeans.grows {op : StreamOp} {source : ObjectId} {k : Passage}
    (h : vm.OperationMeans op source k)
    (hg : vm.Grows vm') : vm'.OperationMeans op source k := by
  cases h with
  | filter h => exact .filter (h.grows hg)
  | map h => exact .map (h.grows hg)
  | peek h => exact .peek (h.grows hg)
  | pass => exact .pass

theorem StreamMeans.grows {m : StreamMeaning} (h : vm.StreamMeans id m) (hg : vm.Grows vm') :
    vm'.StreamMeans id m := by
  induction h with
  | source h => exact .source (hg.objects h rfl)
  | step h hop hlt inner ih => exact .step (hg.objects h rfl) (hop.grows hg) hlt ih

/-! ### It is unique -/

theorem IsLambda.unique {f f' : Lambda} (h : vm.IsLambda id f) (h' : vm.IsLambda id f') :
    f = f' := by
  obtain ⟨type, -, -, he, -⟩ := h
  obtain ⟨type', -, -, he', -⟩ := h'
  rw [he] at he'
  injection he' with he'
  injection he' with _ hobject
  injection hobject

theorem Computes.unique {f f' : Element → Fate Element} (h : vm.Computes id f)
    (h' : vm.Computes id f') : f = f' := by
  have hkind : ∀ {e e' : TypedObject}, vm.lookup? id = some e → vm.lookup? id = some e' → e = e' :=
    fun he he' => Option.some.inj (he.symm.trans he')
  cases h with
  | lambda h =>
      have hlambda := h
      obtain ⟨type, -, -, he, -⟩ := hlambda
      cases h' with
      | lambda h' => rw [h.unique h']
      | collector h' => cases hkind he h'
      | matcher h' _ => cases hkind he h'
  | collector h =>
      cases h' with
      | lambda h' =>
          obtain ⟨type, -, -, he, -⟩ := h'
          cases hkind h he
      | collector h' => rfl
      | matcher h' _ => cases hkind h h'
  | matcher h hf =>
      cases h' with
      | lambda h' =>
          obtain ⟨type, -, -, he, -⟩ := h'
          cases hkind h he
      | collector h' => cases hkind h h'
      | matcher h' hf' =>
          cases hkind h h'
          rw [hf.unique hf']

theorem OperationMeans.unique {op : StreamOp} {source source' : ObjectId} {k k' : Passage}
    (h : vm.OperationMeans op source k) (h' : vm.OperationMeans op source' k') : source = source' ∧
    k = k' := by
  cases h with
  | filter h => cases h' with | filter h' => exact ⟨rfl, by rw [h.unique h']⟩
  | map h => cases h' with | map h' => exact ⟨rfl, by rw [h.unique h']⟩
  | peek h => cases h' with | peek h' => exact ⟨rfl, by rw [h.unique h']⟩
  | pass => cases h' with | pass => exact ⟨rfl, rfl⟩

theorem StreamMeans.unique {m m' : StreamMeaning} (h : vm.StreamMeans id m)
    (h' : vm.StreamMeans id m') :
    m = m' := by
  induction h generalizing m' with
  | source h =>
      cases h' with
      | source h' => cases Option.some.inj (h.symm.trans h'); rfl
      | step h' hop' _ _ =>
          cases Option.some.inj (h.symm.trans h')
          cases hop'
  | step h hop hlt inner ih =>
      cases h' with
      | source h' =>
          cases Option.some.inj (h.symm.trans h')
          cases hop
      | step h' hop' _ inner' =>
          cases Option.some.inj (h.symm.trans h')
          obtain ⟨rfl, rfl⟩ := hop.unique hop'
          rw [ih inner']

/-! ### Pipelines -/

/-- What a step of a pipeline makes of an element. -/
inductive StepMeans (vm : Vm) : PipelineStep → Passage → Prop where
  | filter {function : ObjectId} {f : Element → Fate Element} (h : vm.Computes function f) :
      StepMeans vm (.filter function) (.keepIf f)
  | map {function : ObjectId} {f : Element → Fate Element} (h : vm.Computes function f) :
      StepMeans vm (.map function) (.mapBy f)
  | peek {function : ObjectId} {f : Element → Fate Element} (h : vm.Computes function f) :
      StepMeans vm (.peek function) (.peekBy f)

theorem StepMeans.grows {op : PipelineStep} {k : Passage} (h : vm.StepMeans op k)
    (hg : vm.Grows vm') : vm'.StepMeans op k := by
  cases h with
  | filter h => exact .filter (h.grows hg)
  | map h => exact .map (h.grows hg)
  | peek h => exact .peek (h.grows hg)

/-- The pipeline that the machine finds behind a stream makes of an element what the stream
does. -/
theorem StreamMeans.pipelineFrom {m : StreamMeaning} (h : vm.StreamMeans id m) {fuel : Nat}
    (hfuel : id < fuel) :
    ∃ ops ks, vm.pipelineFrom fuel id = (m.items, ops) ∧
      List.Forall₂ vm.StepMeans ops.reverse ks ∧ m.run = .through ks := by
  induction h generalizing fuel with
  | source h =>
      obtain ⟨fuel, rfl⟩ := Nat.exists_eq_add_one_of_ne_zero (Nat.ne_zero_of_lt hfuel)
      refine ⟨[], [], ?_, .nil, rfl⟩
      simp [Vm.pipelineFrom, object?, h]
  | @step id source type element op k m h hop hlt inner ih =>
      obtain ⟨fuel, rfl⟩ := Nat.exists_eq_add_one_of_ne_zero (Nat.ne_zero_of_lt hfuel)
      obtain ⟨ops, ks, hinner, hsteps, hrun⟩ :=
        ih (Nat.lt_of_lt_of_le hlt (Nat.le_of_lt_succ hfuel))
      -- Every operation but passing on is one more step at the end of the pipeline.
      have hsnoc : ∀ {op k}, vm.StepMeans op k →
          List.Forall₂ vm.StepMeans (op :: ops).reverse (ks ++ [k]) ∧
            m.run.andThen k = .through (ks ++ [k]) := by
        intro op k hop
        rw [List.reverse_cons, hrun, Passage.through_append_singleton]
        exact ⟨List.rel_append hsteps (.cons hop .nil), rfl⟩
      cases hop with
      | pass =>
          refine ⟨ops, ks, ?_, hsteps, (Passage.andThen_all _).trans hrun⟩
          simp [Vm.pipelineFrom, object?, h, hinner]
      | filter hf =>
          refine ⟨_, _, ?_, hsnoc (.filter hf)⟩
          simp [Vm.pipelineFrom, object?, h, hinner]
      | map hf =>
          refine ⟨_, _, ?_, hsnoc (.map hf)⟩
          simp [Vm.pipelineFrom, object?, h, hinner]
      | peek hf =>
          refine ⟨_, _, ?_, hsnoc (.peek hf)⟩
          simp [Vm.pipelineFrom, object?, h, hinner]

theorem StreamMeans.pipeline {m : StreamMeaning} (h : vm.StreamMeans id m) :
    ∃ ops ks, vm.pipeline id = (m.items, ops) ∧ List.Forall₂ vm.StepMeans ops ks ∧
      m.run = .through ks := by
  obtain ⟨ops, ks, hfrom, hsteps⟩ := h.pipelineFrom (Nat.lt_succ_self id)
  refine ⟨ops.reverse, ks, ?_, hsteps⟩
  unfold Vm.pipeline
  rw [hfrom]

end Vm

end StreamTrace
