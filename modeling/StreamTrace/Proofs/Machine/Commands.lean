import Mathlib.Data.List.Forall2
import StreamTrace.Machine.Answer
import StreamTrace.Proofs.Debugger.BridgeCommands
import StreamTrace.Proofs.Machine.Upkeep

/-!
# What commands keep

The commands of the debugger, one lemma for each piece they are made of: what they yield, and that
they hold on to every relation that the machine keeps up. Commands that set requests, and those by
which the thread goes on or its frames change, are told apart from the others.
-/

namespace StreamTrace

namespace Command

/-- Whether the command asks for events. -/
def setsRequest : Command → Bool
  | setRequest _ _ _ => true
  | _ => false

/-- Whether the command changes frames, what the method on top returns, or lets the thread go
on. -/
def touchesThread : Command → Bool
  | setSlots _ _ _ => true
  | forceReturn _ _ => true
  | resumeVm => true
  | resumeThread _ => true
  | _ => false

/-- Whether the command leaves the thread, the requests and the pins alone. -/
def isChore : Command → Bool
  | setRequest _ _ _ => false
  | clearRequest _ _ => false
  | disableCollection _ => false
  | enableCollection _ => false
  | setSlots _ _ _ => false
  | forceReturn _ _ => false
  | resumeVm => false
  | resumeThread _ => false
  | _ => true

end Command

/-! ## Commands -/

namespace VmCommand

variable {R : Vm → Vm → Prop} [Vm.Advance R] {α β : Type} {vm : Vm}

/-- The relation holds across this change of `vm`, and what the change yields satisfies `post`. -/
def Yields (R : Vm → Vm → Prop) (m : VmCommand α) (vm : Vm)
    (post : α → Vm → Prop := fun _ _ => True) : Prop :=
  R vm (m.run.run vm).2 ∧ ∀ a, (m.run.run vm).1 = .ok a → post a (m.run.run vm).2

variable {post : α → Vm → Prop}

theorem yields_pure {a : α} (h : post a vm) : Yields R (pure a) vm post := by
  refine ⟨Vm.Advance.refl vm, fun a' ha => ?_⟩
  obtain rfl : a = a' := Except.ok.inj ha
  exact h

theorem yields_throw (e : JdwpError) : Yields R (throw e : VmCommand α) vm post :=
  ⟨Vm.Advance.refl vm, fun _ ha => nomatch ha⟩

theorem yields_refuse (code : UInt16) : Yields R (refuse code : VmCommand α) vm post :=
  yields_throw _

omit [Vm.Advance R] in
theorem Yields.mono {m : VmCommand α} {post' : α → Vm → Prop} (h : Yields R m vm post)
    (hpost : ∀ a vm', R vm vm' → post a vm' → post' a vm') : Yields R m vm post' :=
  ⟨h.1, fun a ha => hpost a _ h.1 (h.2 a ha)⟩

theorem Yields.bind {m : VmCommand α} {f : α → VmCommand β} {post : β → Vm → Prop}
    (h : Yields R m vm fun a vm' => Yields R (f a) vm' post) : Yields R (m >>= f) vm post := by
  obtain ⟨hvm, hpost⟩ := h
  have hrun : (m >>= f).run.run vm =
      match m.run.run vm with
      | (.ok a, vm') => (f a).run.run vm'
      | (.error e, vm') => (.error e, vm') := by
    show (ExceptT.bindCont f (m.run.run vm).1).run (m.run.run vm).2 = _
    rcases m.run.run vm with ⟨r, vm'⟩
    cases r <;> rfl
  unfold Yields
  rw [hrun]
  rcases hm : m.run.run vm with ⟨r, vm'⟩
  rw [hm] at hvm hpost
  cases r with
  | error e => exact ⟨hvm, fun _ ha => nomatch ha⟩
  | ok a => exact ⟨Vm.Advance.trans hvm (hpost a rfl).1, (hpost a rfl).2⟩

theorem Yields.andThen {m : VmCommand α} {f : α → VmCommand β} {post : β → Vm → Prop}
    {post' : α → Vm → Prop} (h : Yields R m vm post')
    (hf : ∀ a vm', R vm vm' → Yields R (f a) vm' post) :
    Yields R (m >>= f) vm post :=
  .bind (h.mono fun a vm' hvm _ => hf a vm' hvm)

theorem yields_get {post : Vm → Vm → Prop} (h : post vm vm) : Yields R get vm post := by
  refine ⟨Vm.Advance.refl vm, fun a ha => ?_⟩
  obtain rfl : vm = a := Except.ok.inj ha
  exact h

omit [Vm.Advance R] in
theorem yields_modify {f : Vm → Vm} {post : PUnit → Vm → Prop} (hf : R vm (f vm))
    (h : post ⟨⟩ (f vm)) : Yields R (modify f) vm post :=
  ⟨hf, fun _ _ => h⟩

omit [Vm.Advance R] in
theorem yields_run {m : StateM Vm α} (hm : R vm (m.run vm).2)
    (h : post (m.run vm).1 (m.run vm).2) : Yields R (liftM m) vm post := by
  refine ⟨hm, fun a ha => ?_⟩
  obtain rfl : (m.run vm).1 = a := Except.ok.inj ha
  exact h

omit [Vm.Advance R] in
theorem yields_lift {m : StateM Vm α} (hm : Vm.Keeps R m)
    (h : ∀ vm', R vm vm' → post (m.run vm).1 vm') :
    Yields R (liftM m) vm post :=
  yields_run (hm vm) (h _ (hm vm))

omit [Vm.Advance R] in
theorem yields_ite {c : Prop} [Decidable c] {m m' : VmCommand α} (h : c → Yields R m vm post)
    (h' : ¬c → Yields R m' vm post) : Yields R (if c then m else m') vm post := by
  split
  · exact h ‹_›
  · exact h' ‹_›

end VmCommand

namespace Vm

open VmCommand

section

variable {R : Vm → Vm → Prop} [Advance R] {vm vm' : Vm}

theorem getEntry_yields (id : ObjectId) :
    Yields R (getEntry id) vm fun e vm' => vm' = vm ∧ vm.lookup? id = some e := by
  refine Yields.bind (yields_get ?_)
  split
  · exact yields_pure ⟨rfl, ‹_›⟩
  · exact yields_refuse _

theorem getClass_yields (type : TypeId) :
    Yields R (getClass type) vm fun c vm' => vm' = vm ∧ vm.classes.byId? type = some c := by
  refine Yields.bind (yields_get ?_)
  split
  · exact yields_pure ⟨rfl, ‹_›⟩
  · exact yields_refuse _

theorem getMethod_yields (c : ClassDef) (method : MethodId) :
    Yields R (getMethod c method) vm fun m vm' =>
      vm' = vm ∧ c.methods.find? (·.id == method) = some m := by
  unfold getMethod
  split
  · exact yields_pure ⟨rfl, ‹_›⟩
  · exact yields_refuse _

theorem argumentId_yields (v : Value) :
    Yields R (argumentId v) vm fun id vm' => vm' = vm ∧ v.objectId? = some id := by
  unfold argumentId
  split
  · exact yields_pure ⟨rfl, ‹_›⟩
  · exact yields_refuse _

theorem expect_yields (id : ObjectId) (kind : HeapObject → Bool) :
    Yields R (expect id kind) vm fun _ vm' => vm' = vm := by
  refine Yields.bind ((getEntry_yields id).mono ?_)
  rintro e vm' - ⟨rfl, -⟩
  exact yields_ite (fun _ => yields_pure rfl) fun _ => yields_refuse _

theorem mapArgument_yields (v : Value) :
    Yields R (mapArgument v) vm fun _ vm' => vm' = vm := by
  refine Yields.bind ((argumentId_yields v).mono ?_)
  rintro id vm' - ⟨rfl, -⟩
  exact expect_yields _ _

theorem counterArgument_yields (v : Value) :
    Yields R (counterArgument v) vm fun _ vm' => vm' = vm := by
  refine Yields.bind ((argumentId_yields v).mono ?_)
  rintro id vm' - ⟨rfl, -⟩
  exact expect_yields _ _

theorem textArgument_yields (args : List Value) : Yields R (textArgument args) vm := by
  refine Yields.bind (yields_get ?_)
  split
  · exact yields_pure trivial
  · exact yields_refuse _

theorem length_of_fitsAll {letters : List Char} {args : List Value}
    (h : fitsAll letters args = true) : letters.length = args.length := by
  induction letters generalizing args with
  | nil =>
      cases args with
      | nil => rfl
      | cons => cases h
  | cons p ps ih =>
      cases args with
      | nil => cases h
      | cons v vs =>
          simp only [fitsAll, Bool.and_eq_true] at h
          simp [ih h.2]

theorem requireFitting_yields (descriptor : String) (args : List Value) :
    Yields R (requireFitting descriptor args) vm fun _ vm' =>
      vm' = vm ∧ (parameterLetters descriptor).length = args.length :=
  yields_ite (fun h => yields_pure ⟨rfl, length_of_fitsAll h⟩) fun _ => yields_refuse _

/-! ## The thread -/

theorem alive_yields : Yields R alive vm fun _ vm' => vm' = vm ∧ vm.dead = false := by
  unfold alive
  refine Yields.bind (yields_get (yields_ite (fun _ => yields_throw _) fun h => ?_))
  exact yields_pure ⟨rfl, by simpa using h⟩

theorem stopped_yields (thread : ThreadId) :
    Yields R (stopped thread) vm fun _ vm' => vm' = vm ∧ vm.dead = false := by
  unfold stopped
  extract_lets jp
  refine yields_ite (fun _ => Yields.bind (yields_refuse _)) fun _ => ?_
  refine Yields.bind (alive_yields.mono ?_)
  rintro - vm' - ⟨rfl, hdead⟩
  exact Yields.bind (yields_get (yields_ite (fun _ => yields_refuse _) fun _ =>
    yields_pure ⟨rfl, hdead⟩))

theorem alive_then {α : Type} {f : Unit → VmCommand α} {post : α → Vm → Prop}
    (h : vm.dead = false → Yields R (f ()) vm post) : Yields R (alive >>= f) vm post := by
  refine Yields.bind (alive_yields.mono ?_)
  rintro - vm' - ⟨rfl, hdead⟩
  exact h hdead

theorem stopped_then {α : Type} {thread : ThreadId} {f : Unit → VmCommand α}
    {post : α → Vm → Prop} (h : vm.dead = false → Yields R (f ()) vm post) :
    Yields R (stopped thread >>= f) vm post := by
  refine Yields.bind ((stopped_yields thread).mono ?_)
  rintro - vm' - ⟨rfl, hdead⟩
  exact h hdead

theorem getFrame_yields (frame : FrameId) :
    Yields R (getFrame frame) vm fun f vm' =>
      vm' = vm ∧ vm.frames.find? (·.id == frame) = some f := by
  refine Yields.bind (yields_get ?_)
  split
  · exact yields_pure ⟨rfl, ‹_›⟩
  · exact yields_refuse _

theorem readSlots_yields (f : Frame) (slots : List (Nat × String)) :
    Yields R (readSlots f slots) vm fun values vm' =>
      vm' = vm ∧ List.Forall₂ (fun slot v => f.slots.get? slot.1 = some v) slots values := by
  induction slots with
  | nil => exact yields_pure ⟨rfl, .nil⟩
  | cons slot rest ih =>
      unfold readSlots
      split
      · exact yields_refuse _
      · refine Yields.bind (ih.mono ?_)
        rintro values vm' - ⟨rfl, hvalues⟩
        exact yields_pure ⟨rfl, .cons ‹_› hvalues⟩

theorem getArray_yields (array : ObjectId) :
    Yields R (getArray array) vm fun a vm' =>
      vm' = vm ∧ ∃ e, vm.lookup? array = some e ∧ e.object = .array a.1 a.2 := by
  refine Yields.bind ((getEntry_yields array).mono ?_)
  rintro e vm' - ⟨rfl, he⟩
  split
  · exact yields_pure ⟨rfl, e, he, ‹_›⟩
  · exact yields_refuse _

/-! ## Requests that matter -/

/-- No entry and no exit of a method is asked for. -/
def Unwatched (vm : Vm) : Prop := ∀ r ∈ vm.requests, isMethodKind r.kind = false

/-- No exception is asked for. -/
def Unguarded (vm : Vm) : Prop := ∀ r ∈ vm.requests, r.kind ≠ EventKind.exception

theorem Unwatched.kept (h : vm.Unwatched) (hrequests : ∀ r ∈ vm'.requests, r ∈ vm.requests) :
    vm'.Unwatched := fun r hr => h r (hrequests r hr)

theorem Unguarded.kept (h : vm.Unguarded) (hrequests : ∀ r ∈ vm'.requests, r ∈ vm.requests) :
    vm'.Unguarded := fun r hr => h r (hrequests r hr)

theorem Unwatched.isArmed (h : vm.Unwatched) {kind : UInt8} (hk : isMethodKind kind = true)
    (l : Location) : vm.isArmed kind l = false := by
  rw [Vm.isArmed, List.any_eq_false]
  intro r hr
  have hkind := h r hr
  by_cases heq : r.kind = kind
  · rw [heq, hk] at hkind
    cases hkind
  · simp [heq]

theorem Unguarded.isExceptionArmed (h : vm.Unguarded) : vm.isExceptionArmed = false := by
  rw [Vm.isExceptionArmed, List.any_eq_false]
  intro r hr
  simp [InstalledRequest.acceptsException, h r hr]

/-! ## Constructors -/

/-- What the helper classes make of the arguments of their constructors. -/
structure MakesHelper (className : String) (args : List Value) (o : HeapObject) : Prop where
  collects : className = HelperClass.collector.name →
    ∃ map time tick, o = .collector map time tick
  wraps : HelperClass.isMatcher className = true →
    ∃ before after time predicate, o = .matcher before after time predicate ∧
      (arg args 3).objectId? = some predicate

theorem makesHelper_of_other {className : String} {args : List Value} {o : HeapObject}
    (hcollector : className ≠ HelperClass.collector.name)
    (hmatcher : HelperClass.isMatcher className = false) : MakesHelper className args o :=
  ⟨fun h => absurd h hcollector, fun h => by rw [hmatcher] at h; cases h⟩

theorem constructed_yields (className descriptor : String) (args : List Value) :
    Yields R (constructed className descriptor args) vm fun o vm' =>
      vm' = vm ∧ MakesHelper className args o := by
  unfold constructed
  refine yields_ite (fun h => yields_pure ⟨rfl, h ▸ ?_⟩) fun _ => ?_
  · exact makesHelper_of_other (by decide) (by decide)
  refine yields_ite (fun h => yields_pure ⟨rfl, h ▸ ?_⟩) fun _ => ?_
  · exact makesHelper_of_other (by decide) (by decide)
  refine yields_ite (fun h => yields_pure ⟨rfl, h ▸ ?_⟩) fun _ => ?_
  · exact makesHelper_of_other (by decide) (by decide)
  split
  · rename_i hname
    have hplain : HelperClass.isMatcher className = false := by
      simp [HelperClass.isMatcher, hname]
    have hmade : ∀ map time tick, MakesHelper className args (.collector map time tick) :=
      fun map time tick => ⟨fun _ => ⟨map, time, tick, rfl⟩, fun h => by rw [hplain] at h; cases h⟩
    refine yields_ite (fun _ => ?_) fun _ => yields_refuse _
    generalize (arg args 0).objectId? = map
    cases map with
    | none =>
        refine Yields.bind ((counterArgument_yields _).mono ?_)
        rintro time vm' - rfl
        exact yields_pure ⟨rfl, hmade _ _ _⟩
    | some map =>
        refine Yields.bind ((expect_yields map isMap).mono ?_)
        rintro - vm' - rfl
        refine Yields.bind ((counterArgument_yields _).mono ?_)
        rintro time vm' - rfl
        exact yields_pure ⟨rfl, hmade _ _ _⟩
  · exact yields_refuse _
  · rename_i h hcollector hutils hname
    have hother : className ≠ HelperClass.collector.name := by
      rintro rfl
      exact hcollector (Option.some.inj (hname.symm.trans (by decide)))
    refine Yields.bind ((mapArgument_yields _).mono ?_)
    rintro before vm' - rfl
    refine Yields.bind ((mapArgument_yields _).mono ?_)
    rintro after vm' - rfl
    refine Yields.bind ((counterArgument_yields _).mono ?_)
    rintro time vm' - rfl
    refine Yields.bind ((argumentId_yields _).mono ?_)
    rintro predicate vm' - ⟨rfl, hpredicate⟩
    exact yields_pure ⟨rfl, fun h => absurd h hother, fun _ => ⟨_, _, _, _, rfl, hpredicate⟩⟩
  · exact yields_refuse _

end

section

variable {R : Vm → Vm → Prop} [Allots R] {vm vm' : Vm}

/-! ## New objects -/

theorem run_allocValue (type : TypeId) (object : HeapObject) (vm : Vm) :
    ∃ tag, (allocValue type object).run vm = (.reference tag (vm.nextId + 1),
      { vm with
        nextId := vm.nextId + 1
        heap := vm.heap.set (vm.nextId + 1) { type, object } }) := ⟨_, rfl⟩

/-- The outcome is a new object of that type, which was added to `vm`. -/
structure Made (vm : Vm) (type : TypeId) (object : HeapObject) (o : InvokeOutcome) (vm' : Vm) :
    Prop where
  exception : o.exception = none
  value : o.value.objectId? = some (vm.nextId + 1)
  object : vm'.lookup? (vm.nextId + 1) = some { type, object }

theorem made_yields (type : TypeId) (object : HeapObject) :
    Yields R (do return returned (← allocValue type object)) vm fun o vm' =>
      Made vm type object o vm' := by
  obtain ⟨tag, hrun⟩ := run_allocValue type object vm
  refine Yields.bind (yields_run (allocValue_keeps type object vm) ?_)
  rw [hrun]
  refine yields_pure ⟨rfl, ?_, ?_⟩
  · simp [returned, Value.objectId?]
  · simp [lookup?]

theorem thrown_yields (className : String) : Yields R (thrown className) vm :=
  Yields.bind (yields_lift (makeThrowable_keeps className) fun _ _ => yields_pure trivial)

/-! ## Arrays -/

theorem makeArray_yields (type : TypeId) (length : Int) : Yields R (makeArray type length) vm := by
  unfold makeArray
  refine (getClass_yields type).andThen fun c vm' _ => ?_
  extract_lets component jp
  exact yields_ite (fun _ => Yields.bind (yields_refuse _)) fun _ =>
    yields_lift (alloc_keeps _ _) fun _ _ => trivial

theorem arrayRange_yields (array : ObjectId) (first length : Int) :
    Yields R (arrayRange array first length) vm :=
  (getArray_yields array).andThen fun _ _ _ =>
    yields_ite (fun _ => yields_refuse _) fun _ => yields_pure trivial

/-! ## Objects that change -/

/-- The stream operation that a method of a stream adds to it. -/
inductive Wraps (receiver : ObjectId) (args : List Value) : String → StreamOp → Prop where
  | peek {consumer : ObjectId} (h : (arg args 0).objectId? = some consumer) :
      Wraps receiver args "peek" (.peek receiver consumer)
  | sequential : Wraps receiver args "sequential" (.pass receiver)

/-- A method that puts something behind a stream has made a new stream out of one. -/
def WrapsStream (vm : Vm) (receiver : ObjectId) (name : String) (args : List Value)
    (o : InvokeOutcome) (vm' : Vm) : Prop :=
  name = "peek" ∨ name = "sequential" → ∃ type element op op',
    vm.lookup? receiver = some { type, object := .stream element op } ∧
      Wraps receiver args name op' ∧ Made vm type (.stream element op') o vm'

section

variable (hchange : ∀ (vm : Vm) (id : ObjectId) (e : TypedObject) (o : HeapObject),
  vm.lookup? id = some e → e.object.isMutable = true → o.isMutable = true →
    R vm { vm with heap := vm.heap.set id { e with object := o } })

include hchange

theorem setArray_yields (array : ObjectId) (first : Int) (values : List Value) :
    Yields R (setArray array first values) vm := by
  refine Yields.bind ((getArray_yields array).mono ?_)
  rintro ⟨component, slots⟩ vm' - ⟨rfl, e, he, hobject⟩
  refine yields_ite (fun _ => yields_refuse _) fun _ => yields_ite (fun _ => yields_refuse _) ?_
  intro _
  refine yields_run ?_ trivial
  rw [setObject_run he]
  exact hchange _ _ _ _ he (by rw [hobject]; rfl) rfl

theorem runMethod_yields (receiver : ObjectId) (name descriptor : String) (args : List Value) :
    Yields R (runMethod receiver name descriptor args) vm fun o vm' =>
      o.exception = none ∧ WrapsStream vm receiver name args o vm' := by
  -- Whatever is no method of a stream adds nothing to one.
  have hplain : ∀ (v : Value) (vm vm₁ vm' : Vm) {name : String}, name ≠ "peek" →
      name ≠ "sequential" → (returned v).exception = none ∧
        WrapsStream vm₁ receiver name args (returned v) vm' := by
    intro v vm vm₁ vm' name hpeek hsequential
    refine ⟨rfl, ?_⟩
    rintro (h | h)
    · exact absurd h hpeek
    · exact absurd h hsequential
  unfold runMethod
  refine Yields.bind ((getEntry_yields receiver).mono ?_)
  rintro ⟨type, object⟩ vm' - ⟨rfl, he⟩
  split
  · exact yields_pure (hplain _ vm' vm' _ (by decide) (by decide))
  · exact yields_pure (hplain _ vm' vm' _ (by decide) (by decide))
  · exact yields_pure (hplain _ vm' vm' _ (by decide) (by decide))
  · exact yields_pure (hplain _ vm' vm' _ (by decide) (by decide))
  · rename_i n hobject
    obtain rfl : object = .counter n := hobject
    have hkeeps : R vm' ((setObject receiver (.counter (n + 1))).run vm').2 := by
      rw [setObject_run he]
      exact hchange _ _ _ _ he rfl rfl
    exact Yields.bind (yields_run hkeeps (yields_pure (hplain _ vm' vm' _ (by decide) (by decide))))
  · exact yields_pure (hplain _ vm' vm' _ (by decide) (by decide))
  · split
    · exact yields_pure (hplain _ vm' vm' _ (by decide) (by decide))
    · exact yields_ite (fun _ => yields_pure (hplain _ vm' vm' _ (by decide) (by decide)))
        fun _ => Yields.bind (yields_lift (box_keeps _) fun _ _ =>
          yields_pure (hplain _ vm' vm' _ (by decide) (by decide)))
  · rename_i element op hobject
    obtain rfl : object = .stream element op := hobject
    refine Yields.bind ((argumentId_yields _).mono ?_)
    rintro consumer vm'' - ⟨rfl, hconsumer⟩
    refine (made_yields _ _).mono fun o vm₁ _ hmade => ⟨hmade.exception, fun _ => ?_⟩
    exact ⟨type, element, op, _, he, .peek hconsumer, hmade⟩
  · rename_i element op hobject
    obtain rfl : object = .stream element op := hobject
    refine (made_yields _ _).mono fun o vm₁ _ hmade => ⟨hmade.exception, fun _ => ?_⟩
    exact ⟨type, element, op, _, he, .sequential, hmade⟩
  · refine (made_yields _ _).mono fun o vm₁ _ hmade => ⟨hmade.exception, ?_⟩
    rintro (h | h) <;> exact absurd h (by decide)
  · exact yields_refuse _

/-- A chore that is no invocation makes objects and fills arrays at most. -/
theorem handling_yields {c : Command} (hchore : c.isChore = true)
    (hinvokes : c.isInvocation = false) : Yields R (respond c) vm := by
  cases c with
  | classesBySignature signature =>
      exact alive_then fun _ => Yields.bind (yields_get (yields_pure trivial))
  | createString text =>
      exact alive_then fun _ => Yields.bind
        (yields_lift (newString_keeps text) fun _ _ => yields_pure trivial)
  | typeSignature type =>
      exact alive_then fun _ => (getClass_yields type).andThen fun _ _ _ => yields_pure trivial
  | typeLoader type =>
      exact alive_then fun _ => (getClass_yields type).andThen fun _ _ _ => yields_pure trivial
  | typeMethods type =>
      exact alive_then fun _ => (getClass_yields type).andThen fun _ _ _ => yields_pure trivial
  | typeInterfaces type =>
      exact alive_then fun _ => (getClass_yields type).andThen fun _ _ _ => yields_pure trivial
  | superclass type =>
      exact alive_then fun _ => (getClass_yields type).andThen fun _ _ _ =>
        yields_ite (fun _ => yields_refuse _) fun _ => yields_pure trivial
  | newArray type length => exact alive_then fun _ => makeArray_yields type length
  | reflectedType object =>
      refine alive_then fun _ => (getEntry_yields object).andThen fun e _ _ => ?_
      rcases e with ⟨type, object⟩
      cases object with
      | classObject type => exact yields_pure trivial
      | _ => exact yields_refuse _
  | variableTable type method =>
      refine alive_then fun _ => (getClass_yields type).andThen fun c _ _ => ?_
      split
      · exact yields_pure trivial
      · exact yields_refuse _
  | objectType object =>
      exact alive_then fun _ => (getEntry_yields object).andThen fun _ _ _ => yields_pure trivial
  | stringValue string =>
      refine alive_then fun _ => (getEntry_yields string).andThen fun e _ _ => ?_
      rcases e with ⟨type, object⟩
      cases object with
      | string s => exact yields_pure trivial
      | _ => exact yields_refuse _
  | arrayLength array =>
      exact alive_then fun _ => (getArray_yields array).andThen fun _ _ _ => yields_pure trivial
  | arrayValues array first length => exact alive_then fun _ => arrayRange_yields array first length
  | setArrayValues array first values =>
      exact alive_then fun _ => setArray_yields hchange array first values
  | frames thread start length =>
      exact stopped_then fun _ => Yields.bind (yields_get (yields_pure trivial))
  | frameCount thread => exact stopped_then fun _ => Yields.bind (yields_get (yields_pure trivial))
  | slotValues thread frame slots =>
      exact stopped_then fun _ => (getFrame_yields frame).andThen fun f _ _ =>
        (readSlots_yields f slots).mono fun _ _ _ _ => trivial
  | invokeStatic type thread method args options => cases hinvokes
  | invokeVirtual object thread type method args options => cases hinvokes
  | newInstance type thread method args options => cases hinvokes
  | _ => cases hchore

end

end

section

variable {R : Vm → Vm → Prop} [Chores R] {vm vm' : Vm}

/-! ## Invocations -/

theorem stall_yields (what : String) (hloud : ¬Chores.quiet R) {post : InvokeOutcome → Vm → Prop} :
    Yields R (stall what) vm post :=
  Yields.bind (yields_modify (Chores.stall vm _ hloud) (yields_throw _))

theorem invocation_yields {what : String} {entered : Location} {body : VmCommand InvokeOutcome}
    {post : InvokeOutcome → Vm → Prop} (hwatch : Chores.quiet R → vm.Unwatched)
    (hbody : Yields R body vm fun o vm' =>
      (Chores.quiet R → o.exception = none ∨ vm'.Unguarded) ∧
        post o { vm' with invocations := vm'.invocations ++ [what] }) :
    Yields R (invocation what entered body) vm post := by
  unfold invocation
  refine Yields.bind (yields_get ?_)
  refine yields_ite (fun h => stall_yields _ fun hquiet => ?_) fun _ => ?_
  · rw [(hwatch hquiet).isArmed rfl] at h
    cases h
  · refine Yields.bind (hbody.mono fun outcome vm₁ hvm hpost => ?_)
    refine Yields.bind (yields_get ?_)
    refine yields_ite (fun h => stall_yields _ fun hquiet => ?_) fun _ =>
      yields_ite (fun h => stall_yields _ fun hquiet => ?_) fun _ => ?_
    · rcases hpost.1 hquiet with hnone | hguard
      · simp [hnone] at h
      · simp [hguard.isExceptionArmed] at h
    · have hexit : isMethodKind EventKind.methodExitWithReturnValue = true := rfl
      simp [((hwatch hquiet).kept (Chores.calm hquiet hvm)).isArmed hexit] at h
    · exact Yields.bind (yields_modify (Chores.note vm₁ _ _) (yields_pure hpost.2))

theorem newInstance_yields {type : TypeId} {method : MethodId} {args : List Value}
    (hwatch : Chores.quiet R → vm.Unwatched) :
    Yields R (newInstance type method args) vm fun o vm' =>
      ∃ className object, Made vm type object o vm' ∧ MakesHelper className args object ∧
        (vm.classes.Fits → (args.length = 3 → className = HelperClass.collector.name) ∧
          (args.length = 4 → HelperClass.isMatcher className = true)) := by
  unfold newInstance
  refine Yields.bind ((getClass_yields type).mono ?_)
  rintro c vm' - ⟨rfl, hc⟩
  refine Yields.bind ((getMethod_yields c method).mono ?_)
  rintro m vm' - ⟨rfl, hm⟩
  extract_lets jp
  refine yields_ite (fun _ => Yields.bind (yields_refuse _)) fun hname => ?_
  refine Yields.bind ((requireFitting_yields m.descriptor args).mono ?_)
  rintro _ vm'' - ⟨rfl, hlength⟩
  refine Yields.bind (yields_get (invocation_yields hwatch ?_))
  refine Yields.bind ((constructed_yields _ _ _).mono ?_)
  rintro object vm'' - ⟨rfl, hmakes⟩
  refine (made_yields type object).mono fun o vm₁ _ hmade => ?_
  refine ⟨fun _ => .inl hmade.exception, c.name, object,
    ⟨hmade.exception, hmade.value, hmade.object⟩, hmakes, fun hfits => ?_⟩
  have hown := hfits.method hc hm
  exact ⟨fun h => hown.collects (by simpa using hname) (hlength.trans h),
    fun h => hown.wraps (by simpa using hname) (hlength.trans h)⟩

/-! ## Classes -/

theorem classObject_yields (type : TypeId) : Yields R (classObject type) vm := by
  unfold classObject
  refine (getClass_yields type).andThen fun c vm' _ => ?_
  split
  · exact yields_pure trivial
  · refine Yields.bind (yields_get ?_)
    refine Yields.bind (yields_lift (alloc_keeps _ _) fun vm₁ _ => ?_)
    exact Yields.bind (yields_modify (Chores.stand vm₁ _ _) (yields_pure trivial))

/-- Finding the object of a class ends without an exception. -/
theorem classValue_yields (type : TypeId) :
    Yields R (classValue type) vm fun o _ => o.exception = none :=
  (classObject_yields type).andThen fun _ _ _ => yields_pure rfl

theorem findClass_keeps (name : String) (loader : ObjectId) : Keeps R (findClass name loader) := by
  unfold findClass
  refine keeps_get.bind fun vm => ?_
  split
  · extract_lets component
    split
    · exact keeps_pure _
    · split
      · exact (declareArray_keeps _).bind fun _ => keeps_pure _
      · exact keeps_pure _
  · exact keeps_pure _

theorem forName_yields (args : List Value) : Yields R (forName args) vm := by
  unfold forName
  refine (textArgument_yields args).andThen fun name vm₁ _ => ?_
  refine Yields.bind (yields_lift (findClass_keeps name _) fun vm₂ _ => ?_)
  split
  · exact (classValue_yields _).mono fun _ _ _ _ => trivial
  · exact thrown_yields _

theorem helperSpec_fits (h : HelperClass) : (helperSpec h).Fits := by
  cases h <;> decide +kernel

theorem loadHelper_yields (loader : ObjectId) (args : List Value) :
    Yields R (loadHelper loader args) vm := by
  unfold loadHelper
  refine (textArgument_yields args).andThen fun name vm₁ _ => Yields.bind (yields_get ?_)
  extract_lets jp
  have hload : ∀ bytes, Yields R (jp bytes) vm₁ := by
    intro bytes
    refine yields_ite (fun _ => thrown_yields _) fun _ => Yields.bind (yields_get ?_)
    refine yields_ite (fun _ => thrown_yields _) fun _ => ?_
    split
    · exact thrown_yields _
    · rename_i h _
      refine Yields.bind (yields_lift (define_keeps loader (helperSpec_fits h)) fun vm₂ _ => ?_)
      refine Yields.bind (yields_modify (Chores.note vm₂ _ _) ?_)
      exact (classValue_yields _).mono fun _ _ _ _ => trivial
  split
  · exact hload _
  · exact Yields.bind (yields_refuse _)

/-! ## Methods -/

theorem formatMap_yields (method : String) (map : Value) :
    Yields R (formatMap method map) vm fun o _ => o.exception = none := by
  unfold formatMap
  refine (mapArgument_yields map).andThen fun id vm₁ _ => ?_
  refine (getEntry_yields id).andThen fun e vm₂ _ => ?_
  split
  · extract_lets element
    refine Yields.bind (yields_lift (materializeAll_keeps _ _) fun vm₃ _ => ?_)
    refine Yields.bind (yields_lift (newArray_keeps _ _) fun vm₄ _ => ?_)
    refine Yields.bind (yields_lift (newArray_keeps _ _) fun vm₅ _ => ?_)
    exact Yields.bind (yields_lift (newArray_keeps _ _) fun vm₆ _ => yields_pure rfl)
  · exact yields_refuse _

/-- Of the static methods only `Class.forName` throws. -/
theorem runStatic_yields {className name descriptor : String} {args : List Value}
    (hfind : Chores.quiet R → name = "forName" → vm.Unguarded) :
    Yields R (runStatic className name descriptor args) vm fun o vm' =>
      Chores.quiet R → o.exception = none ∨ vm'.Unguarded := by
  unfold runStatic
  refine yields_ite (fun h => ?_) fun _ => yields_ite (fun _ => ?_) fun _ => yields_refuse _
  · exact (forName_yields args).mono fun _ _ hvm _ hquiet =>
      .inr ((hfind hquiet h.2).kept (Chores.calm hquiet hvm))
  · exact (formatMap_yields _ _).mono fun _ _ _ h _ => .inl h

/-- What an invocation on an object yields if it runs a method that puts something behind a
stream. -/
def InvokesStream (vm : Vm) (receiver : Option ObjectId) (type : TypeId) (method : MethodId)
    (args : List Value) (o : InvokeOutcome) (vm' : Vm) : Prop :=
  ∀ id, receiver = some id → ∃ c m, vm.classes.byId? type = some c ∧
    c.methods.find? (·.id == method) = some m ∧ WrapsStream vm id m.name args o vm'

theorem invoke_yields {receiver : Option ObjectId} {type : TypeId} {method : MethodId}
    {args : List Value} (hwatch : Chores.quiet R → vm.Unwatched)
    (hfits : Chores.quiet R → vm.classes.Fits)
    (hstatic : Chores.quiet R → receiver = none → args.length = 3 → vm.Unguarded)
    (hvirtual : Chores.quiet R → receiver ≠ none → args.length = 4 → vm.Unguarded) :
    Yields R (invoke receiver type method args) vm fun o vm' =>
      InvokesStream vm receiver type method args o vm' := by
  unfold invoke
  refine Yields.bind ((getClass_yields type).mono ?_)
  rintro c vm' - ⟨rfl, hc⟩
  refine Yields.bind ((getMethod_yields c method).mono ?_)
  rintro m vm' - ⟨rfl, hm⟩
  extract_lets what jp
  refine yields_ite (fun _ => Yields.bind (yields_refuse _)) fun _ => ?_
  refine Yields.bind ((requireFitting_yields m.descriptor args).mono ?_)
  rintro - vm'' - ⟨rfl, hlength⟩
  cases receiver with
  | none =>
      refine Yields.bind (yields_get (invocation_yields hwatch ?_))
      refine (runStatic_yields fun hquiet hname => ?_).mono fun o vm₁ _ ho =>
        ⟨ho, fun id hid => absurd hid (by simp)⟩
      exact hstatic hquiet rfl (hlength ▸ ((hfits hquiet).method hc hm).finds hname)
  | some id =>
      refine Yields.bind ((getEntry_yields id).mono ?_)
      rintro e vm₁ - ⟨rfl, he⟩
      extract_lets runtime
      refine Yields.bind (yields_get ?_)
      extract_lets jp'
      refine yields_ite (fun _ => Yields.bind (yields_refuse _)) fun _ => ?_
      refine invocation_yields hwatch (yields_ite (fun hname => ?_) fun _ => ?_)
      · refine (loadHelper_yields id args).mono fun _ _ hvm _ => ⟨fun hquiet => ?_, ?_⟩
        · have hguard := hvirtual hquiet (by simp)
            (hlength ▸ ((hfits hquiet).method hc hm).defines hname)
          exact .inr (hguard.kept (Chores.calm hquiet hvm))
        · rintro id' -
          refine ⟨c, m, hc, hm, ?_⟩
          rintro (h | h) <;> rw [hname] at h <;> exact absurd h (by decide)
      · refine (runMethod_yields (fun _ _ _ o he => Chores.change o he) id _ _ args).mono
          fun o vm₂ _ ho => ⟨fun _ => .inl ho.1, ?_⟩
        rintro id' hid
        obtain rfl := Option.some.inj hid
        refine ⟨c, m, hc, hm, fun hname => ?_⟩
        obtain ⟨type', element, op, op', hlookup, hwraps, hmade⟩ := ho.2 hname
        exact ⟨type', element, op, op', hlookup, hwraps,
          ⟨hmade.exception, hmade.value, hmade.object⟩⟩

/-! ## Answers -/

/-- Every chore keeps up the relation. If the relation is quiet, an invocation must meet no
request. -/
theorem chore_yields {c : Command} (hchore : c.isChore = true)
    (hrun : Chores.quiet R → c.isInvocation = true → vm.dead = false →
      vm.classes.Fits ∧ vm.Unwatched ∧ (c.findsClass = true → vm.Unguarded)) :
    Yields R (respond c) vm := by
  cases c with
  | invokeStatic type thread method args options =>
      refine stopped_then fun hdead => ?_
      refine (invoke_yields (fun h => (hrun h rfl hdead).2.1) (fun h => (hrun h rfl hdead).1)
        (fun h _ hlength => ?_) fun _ h => absurd rfl h).mono fun _ _ _ _ => trivial
      exact (hrun h rfl hdead).2.2 (by simpa [Command.findsClass] using hlength)
  | invokeVirtual object thread type method args options =>
      refine stopped_then fun hdead => ?_
      refine (invoke_yields (fun h => (hrun h rfl hdead).2.1) (fun h => (hrun h rfl hdead).1)
        (fun _ h => absurd h (by simp)) fun h _ hlength => ?_).mono fun _ _ _ _ => trivial
      exact (hrun h rfl hdead).2.2 (by simpa [Command.findsClass] using hlength)
  | newInstance type thread method args options =>
      exact stopped_then fun hdead =>
        (newInstance_yields fun h => (hrun h rfl hdead).2.1).mono fun _ _ _ _ => trivial
  | _ => exact handling_yields (fun _ _ _ o he => Chores.change o he) hchore rfl

end

section

variable {R : Vm → Vm → Prop} [Service R] {vm : Vm}

theorem disableCollection_yields (object : ObjectId) : Yields R (disableCollection object) vm :=
  (getEntry_yields object).andThen fun _ vm' _ => yields_modify (Service.pin vm' _) trivial

theorem enableCollection_yields (object : ObjectId) : Yields R (enableCollection object) vm := by
  refine (getEntry_yields object).andThen fun _ vm' _ => yields_modify ?_ trivial
  split
  · exact Advance.refl vm'
  · split
    · exact Service.pin vm' _
    · exact Service.pin vm' _

theorem clearRequest_keeps (kind : UInt8) (id : RequestId) : Keeps R (clearRequest kind id) :=
  keeps_modify fun vm => Upkeep.take vm fun _ hr => (List.mem_filter.mp hr).1

/-- Every command keeps up the relation but one that sets a request or touches the thread. -/
theorem respond_yields {c : Command} (hset : c.setsRequest = false)
    (htouch : c.touchesThread = false)
    (hrun : Chores.quiet R → c.isInvocation = true → vm.dead = false →
      vm.classes.Fits ∧ vm.Unwatched ∧ (c.findsClass = true → vm.Unguarded)) :
    Yields R (respond c) vm := by
  cases hchore : c.isChore with
  | true => exact chore_yields hchore hrun
  | false =>
      cases c with
      | disableCollection object => exact alive_then fun _ => disableCollection_yields object
      | enableCollection object => exact alive_then fun _ => enableCollection_yields object
      | clearRequest kind request =>
          exact alive_then fun _ => yields_lift (clearRequest_keeps kind request) fun _ _ => trivial
      | setRequest kind policy modifiers => cases hset
      | resumeVm => cases htouch
      | resumeThread thread => cases htouch
      | forceReturn thread v => cases htouch
      | setSlots thread frame values => cases htouch
      | _ => cases hchore

end

/-! ## The thread goes on or changes -/

/-- Some slots of the frame were set, each to one of these values. -/
structure FrameWritten (frame : FrameId) (values : List (Nat × Value)) (f f' : Frame) : Prop where
  id : f'.id = f.id
  location : f'.location = f.location
  slots : ∀ slot, f'.slots.get? slot = f.slots.get? slot ∨
    f.id = frame ∧ ∃ v, (slot, v) ∈ values ∧ f'.slots.get? slot = some v

theorem FrameWritten.refl {frame : FrameId} {values : List (Nat × Value)} (f : Frame) :
    FrameWritten frame values f f := ⟨rfl, rfl, fun _ => .inl rfl⟩

theorem FrameWritten.trans {frame : FrameId} {values : List (Nat × Value)} {f f' f'' : Frame}
    (h : FrameWritten frame values f f') (h' : FrameWritten frame values f' f'') :
    FrameWritten frame values f f'' := by
  refine ⟨h'.id.trans h.id, h'.location.trans h.location, fun slot => ?_⟩
  rcases h'.slots slot with hslot | ⟨hid, hset⟩
  · rw [hslot]
    exact h.slots slot
  · exact .inr ⟨h.id ▸ hid, hset⟩

theorem forall₂_trans {α : Type} {P Q S : α → α → Prop}
    (hall : ∀ a b c, P a b → Q b c → S a c) {l l' l'' : List α} (h : List.Forall₂ P l l')
    (h' : List.Forall₂ Q l' l'') : List.Forall₂ S l l'' := by
  induction h generalizing l'' with
  | nil =>
      cases h'
      exact .nil
  | cons hab _ ih =>
      cases h' with
      | cons hbc h' => exact .cons (hall _ _ _ hab hbc) (ih h')

/-- Only slots of the frame were set, each to one of these values, and only such were noted. -/
def Writes (frame : FrameId) (values : List (Nat × Value)) (vm vm' : Vm) : Prop :=
  ∃ frames noted, vm' = { vm with frames, frameWrites := vm.frameWrites ++ noted } ∧
    (∀ x ∈ noted, x.1 = frame) ∧ List.Forall₂ (FrameWritten frame values) vm.frames frames

instance (frame : FrameId) (values : List (Nat × Value)) : Advance (Writes frame values) where
  refl vm := ⟨_, [], by rw [List.append_nil], fun _ h => absurd h List.not_mem_nil,
    List.forall₂_same.mpr fun f _ => .refl f⟩
  trans := by
    rintro vm _ _ ⟨frames, noted, rfl, hn, h⟩ ⟨frames', noted', rfl, hn', h'⟩
    refine ⟨frames', noted ++ noted', by rw [List.append_assoc], fun x hx => ?_, ?_⟩
    · exact (List.mem_append.mp hx).elim (hn x) (hn' x)
    · exact forall₂_trans (fun _ _ _ hf hf' => hf.trans hf') h h'

theorem writes_setSlot {frame : FrameId} {values : List (Nat × Value)} {slot : Nat} {v : Value}
    (hmem : (slot, v) ∈ values) (vm : Vm) : Writes frame values vm (vm.setSlot frame slot v) := by
  refine ⟨_, [], by rw [List.append_nil]; rfl, fun _ h => absurd h List.not_mem_nil,
    List.forall₂_map_right_iff.mpr (List.forall₂_same.mpr fun f _ => ?_)⟩
  split
  · rename_i hid
    refine ⟨rfl, rfl, fun slot' => ?_⟩
    rw [Table.get?_set]
    split
    · rename_i hslot
      exact .inr ⟨hid, v, hslot ▸ hmem, rfl⟩
    · exact .inl rfl
  · exact .refl f

theorem writeSlots_yields {frame : FrameId} {values rest : List (Nat × Value)} {vm : Vm}
    (hrest : ∀ x ∈ rest, x ∈ values) : Yields (Writes frame values) (writeSlots frame rest) vm := by
  induction rest generalizing vm with
  | nil => exact yields_pure trivial
  | cons x rest ih =>
      have hx := hrest x List.mem_cons_self
      refine (getFrame_yields frame).andThen fun f vm₁ _ => ?_
      split
      · exact yields_refuse _
      · exact yields_ite (fun _ => yields_refuse _) fun _ => Yields.bind
          (yields_modify (writes_setSlot hx vm₁)
            (ih fun y hy => hrest y (List.mem_cons_of_mem _ hy)))

theorem answer_setSlots (vm : Vm) (thread : ThreadId) (frame : FrameId)
    (values : List (Nat × Value)) :
    Writes frame values vm (vm.answer (.setSlots thread frame values)).2 := by
  refine (stopped_then fun _ => ?_ : Yields (Writes frame values) _ vm fun _ _ => True).1
  refine (getFrame_yields frame).andThen fun _ _ _ => ?_
  refine (writeSlots_yields fun _ hx => hx).andThen fun _ vm₁ _ => ?_
  refine yields_modify ⟨_, _, rfl, fun x hx => ?_, List.forall₂_same.mpr fun f _ => .refl f⟩ trivial
  obtain ⟨y, -, rfl⟩ := List.mem_map.mp hx
  rfl

theorem answer_forceReturn (vm : Vm) (thread : ThreadId) (v : Value) :
    let vm' := (vm.answer (.forceReturn thread v)).2
    vm' = vm ∨ vm' = { vm with forcedReturn := some v } := by
  show _ ∨ _
  let R : Vm → Vm → Prop := fun vm vm' => vm' = vm ∨ vm' = { vm with forcedReturn := some v }
  have : Advance R := ⟨fun _ => .inl rfl, by
    rintro vm _ _ (rfl | rfl) (rfl | rfl)
    · exact .inl rfl
    · exact .inr rfl
    · exact .inr rfl
    · exact .inr rfl⟩
  refine (stopped_then fun _ => ?_ : Yields R _ vm fun _ _ => True).1
  refine Yields.bind (yields_get ?_)
  extract_lets jp
  exact yields_ite (fun _ => Yields.bind (yields_refuse _)) fun _ =>
    yields_modify (.inr rfl) trivial

theorem run_alive (vm : Vm) :
    alive.run.run vm = (if vm.dead then .error .connectionClosed else .ok (), vm) := by
  show (if vm.dead = true then (throw JdwpError.connectionClosed : VmCommand Unit)
    else pure ()).run.run vm = _
  split <;> rfl

theorem run_alive_bind {α : Type} (f : Unit → VmCommand α) (vm : Vm) :
    (alive >>= f).run.run vm =
      if vm.dead then (.error .connectionClosed, vm) else (f ()).run.run vm := by
  show (ExceptT.bindCont f (alive.run.run vm).1).run (alive.run.run vm).2 = _
  rw [run_alive]
  cases vm.dead <;> rfl

theorem run_resume (vm : Vm) :
    resume.run.run vm =
      if vm.dead then (.error .connectionClosed, vm)
      else (.ok (), { vm with suspended := false }) :=
  run_alive_bind _ vm

theorem answer_resumeVm (vm : Vm) :
    vm.answer .resumeVm =
      if vm.dead then (.error .connectionClosed, vm)
      else (.ok (), { vm with suspended := false }) :=
  run_resume vm

theorem answer_resumeThread (vm : Vm) :
    vm.answer (.resumeThread mainThread) =
      if vm.dead then (.error .connectionClosed, vm)
      else (.ok (), { vm with suspended := false }) :=
  run_resume vm

theorem answer_resumeThread_of_ne (vm : Vm) {thread : ThreadId} (h : thread ≠ mainThread) :
    vm.answer (.resumeThread thread) = (.error (.vm ErrorCode.invalidThread), vm) := by
  show (if thread ≠ mainThread then (refuse ErrorCode.invalidThread : VmCommand Unit)
    else resume).run.run vm = _
  rw [if_pos h]
  rfl

/-! ## Requests -/

theorem answer_setRequest (vm : Vm) (kind policy : UInt8) (modifiers : List EventModifier) :
    vm.answer (.setRequest kind policy modifiers) =
      if vm.dead then (.error .connectionClosed, vm)
      else (.ok ((installRequest kind modifiers).run vm).1,
        ((installRequest kind modifiers).run vm).2) :=
  run_alive_bind _ vm

theorem answer_clearRequest (vm : Vm) (kind : UInt8) (id : RequestId) :
    vm.answer (.clearRequest kind id) =
      if vm.dead then (.error .connectionClosed, vm)
      else (.ok (), ((clearRequest kind id).run vm).2) :=
  run_alive_bind _ vm

theorem installRequest_fst (vm : Vm) (kind : UInt8) (modifiers : List EventModifier) :
    ((installRequest kind modifiers).run vm).1 = vm.nextRequest := by
  unfold installRequest
  simp only [StateT.run, modifyGet, MonadStateOf.modifyGet, StateT.modifyGet]
  split <;> rfl

/-- A machine on which a request was set differs in nothing else that matters here. -/
theorem installRequest_snd (vm : Vm) (kind : UInt8) (modifiers : List EventModifier) :
    let vm' := ((installRequest kind modifiers).run vm).2
    vm'.stalled = vm.stalled ∧ vm'.classes = vm.classes ∧ vm'.dead = vm.dead ∧
      vm'.requests = vm.requests ++
        [{ id := vm.nextRequest, kind, modifiers, depth := vm.frames.length }] := by
  show _ ∧ _
  unfold installRequest
  simp only [StateT.run, modifyGet, MonadStateOf.modifyGet, StateT.modifyGet]
  split <;> exact ⟨rfl, rfl, rfl, rfl⟩

end Vm

end StreamTrace
