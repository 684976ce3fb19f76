import StreamTrace.Proofs.Machine.ThreadPaths

/-!
# In front of the statement

The machine of a launched program, before the statement is evaluated for the first time: there are
two frames, no request is set, and only the variables of one method are known.
-/

namespace StreamTrace

open StreamProgram

namespace Vm

/-! ## The classes that are loaded -/

/-- Only objects were made. -/
structure OnlyObjects (vm vm' : Vm) : Prop where
  next : vm.nextId ≤ vm'.nextId
  state : vm' = { vm with nextId := vm'.nextId, heap := vm'.heap }

instance : Allots OnlyObjects where
  refl _ := ⟨Nat.le_refl _, rfl⟩
  trans h h' := ⟨Nat.le_trans h.next h'.next, h'.state.trans (by rw [h.state])⟩
  alloc _ _ := ⟨Nat.le_succ _, rfl⟩

/-- The identifier of a method of the program's class, or 0. -/
def mainMethod (vm : Vm) (name descriptor : String) : MethodId :=
  (((vm.classes.byId? (vm.appClass "Main")).bind (·.method? name descriptor)).map (·.id)).getD 0

def entryMethod (vm : Vm) : MethodId := vm.mainMethod "main" "([Ljava/lang/String;)V"

/-- The method of the statement, once its variable is known. -/
def homeOf (vm : Vm) (info : VariableInfo) : Home :=
  { main := vm.appClass "Main", run := vm.mainMethod "run" "()V", info }

/-- The program's class is loaded, and no variables are known. -/
structure Bare (vm : Vm) : Prop where
  old : vm.appClass "Main" ≤ vm.nextId
  unknown : ∀ c ∈ vm.classes, c.locals = {}
  named : ∀ c ∈ vm.classes, c.id = vm.appClass "Main" → ∀ m ∈ c.methods,
    m.id = vm.mainMethod "run" "()V" → m.name = "run"
  other : ∀ c ∈ vm.classes, c.id = vm.appClass "Main" → ∀ m ∈ c.methods.head?,
    m.id ≠ vm.mainMethod "run" "()V"
  apart : vm.entryMethod ≠ vm.mainMethod "run" "()V"

instance (vm : Vm) : Decidable vm.Bare :=
  decidable_of_iff (vm.appClass "Main" ≤ vm.nextId ∧ (∀ c ∈ vm.classes, c.locals = {}) ∧
    (∀ c ∈ vm.classes, c.id = vm.appClass "Main" → ∀ m ∈ c.methods,
      m.id = vm.mainMethod "run" "()V" → m.name = "run") ∧
    (∀ c ∈ vm.classes, c.id = vm.appClass "Main" → ∀ m ∈ c.methods.head?,
      m.id ≠ vm.mainMethod "run" "()V") ∧ vm.entryMethod ≠ vm.mainMethod "run" "()V")
    ⟨fun ⟨h₁, h₂, h₃, h₄, h₅⟩ => ⟨h₁, h₂, h₃, h₄, h₅⟩,
      fun ⟨h₁, h₂, h₃, h₄, h₅⟩ => ⟨h₁, h₂, h₃, h₄, h₅⟩⟩

theorem booted_bare : booted.Bare := by decide +kernel

/-- The thread has not begun, and nothing was asked for. -/
structure Untouched (vm : Vm) : Prop where
  frames : vm.frames = []
  requests : vm.requests = []
  pins : vm.pins = {}
  written : vm.frameWrites = []
  outbox : vm.outbox = []
  alive : vm.dead = false
  suspended : vm.suspended = true

theorem booted_untouched : booted.Untouched := by
  have h : booted.frames = [] ∧ booted.requests = [] ∧ booted.pins = {} ∧
      booted.frameWrites = [] ∧ booted.outbox = [] ∧ booted.dead = false ∧
        booted.suspended = true := by decide +kernel
  obtain ⟨h₁, h₂, h₃, h₄, h₅, h₆, h₇⟩ := h
  exact ⟨h₁, h₂, h₃, h₄, h₅, h₆, h₇⟩

theorem OnlyObjects.homeOf {vm vm' : Vm} (h : OnlyObjects vm vm') (info : VariableInfo) :
    vm'.homeOf info = vm.homeOf info := by
  rw [h.state]
  rfl

theorem OnlyObjects.untouched {vm vm' : Vm} (h : OnlyObjects vm vm') (hu : vm.Untouched) :
    vm'.Untouched := by
  rw [h.state]
  exact ⟨hu.frames, hu.requests, hu.pins, hu.written, hu.outbox, hu.alive, hu.suspended⟩

theorem OnlyObjects.bare {vm vm' : Vm} (h : OnlyObjects vm vm') (hb : vm.Bare) : vm'.Bare := by
  obtain ⟨hold, hunknown, hnamed, hother, hapart⟩ := hb
  have hstate := h.state
  have hnext := Nat.le_trans hold h.next
  rw [hstate]
  exact ⟨hnext, hunknown, hnamed, hother, hapart⟩

/-- The machine in front of the statement, whose variable holds a value. -/
def inMain (vm : Vm) (info : VariableInfo) (this : ObjectId) (v : Value) : Vm :=
  let known : Vm := { vm with
    classes := vm.classes.update (vm.appClass "Main") fun c =>
      { c with locals := c.locals.set (vm.mainMethod "run" "()V") [thisVariable, info] } }
  { known with
    nextId := vm.nextId + 2
    frames :=
      { id := vm.nextId + 2
        location := known.location (vm.appClass "Main") (vm.mainMethod "run" "()V") statementIndex
        slots := ⟨[(0, .object this), (1, v)]⟩ } ::
      { id := vm.nextId + 1, location := known.location (vm.appClass "Main") vm.entryMethod 3
        slots := ⟨[(0, .null)]⟩ } :: vm.frames }

theorem Bare.stands {vm : Vm} (h : vm.Bare) (hframes : vm.frames = []) (info : VariableInfo)
    (this : ObjectId) (v : Value) : (vm.inMain info this v).Stands (vm.homeOf info) := by
  -- Each class is as it was, except that variables of one method are known.
  have hback : ∀ c' ∈ (vm.inMain info this v).classes, ∃ c ∈ vm.classes, c'.id = c.id ∧
      c'.methods = c.methods ∧ (c'.locals = {} ∨ c.id = vm.appClass "Main" ∧
        c'.locals = Table.set {} (vm.mainMethod "run" "()V") [thisVariable, info]) := by
    intro c' hc'
    obtain ⟨c, hc, rfl⟩ := List.mem_map.mp hc'
    refine ⟨c, hc, ?_⟩
    split
    · exact ⟨rfl, rfl, .inr ⟨‹_›, congrArg (Table.set · _ _) (h.unknown c hc)⟩⟩
    · exact ⟨rfl, rfl, .inl (h.unknown c hc)⟩
  refine ⟨⟨Nat.le_trans h.old (Nat.le_add_right _ _), fun c' hc' method infos hinfos => ?_,
    fun c' hc' hid m hm => ?_, fun c' hc' hid m hm => ?_⟩, ?_, fun f hf => ?_, fun k f hf hk => ?_⟩
  · obtain ⟨c, hc, hid, -, hlocals | ⟨hmain, hlocals⟩⟩ := hback c' hc'
    · rw [hlocals] at hinfos
      cases hinfos
    · rw [hlocals, Table.get?_set] at hinfos
      split at hinfos
      · rename_i hmethod
        exact ⟨hid.trans hmain, hmethod.symm, (Option.some.inj hinfos).symm⟩
      · cases hinfos
  · obtain ⟨c, hc, hid', hmethods, -⟩ := hback c' hc'
    exact h.named c hc (hid'.symm.trans hid) m (hmethods ▸ hm)
  · obtain ⟨c, hc, hid', hmethods, -⟩ := hback c' hc'
    exact h.other c hc (hid'.symm.trans hid) m (hmethods ▸ hm)
  · simp [inMain, hframes]
  · simp only [inMain, hframes, List.mem_cons, List.not_mem_nil, or_false] at hf
    rcases hf with rfl | rfl <;> simp [inMain]
  · match k, hk with
    | 0, _ =>
        simp only [inMain, hframes, List.reverse_cons, List.reverse_nil, List.nil_append,
          List.singleton_append, List.getElem?_cons_zero, Option.some.injEq] at hf
        subst hf
        exact fun _ => h.apart
    | k + 2, _ => simp [inMain, hframes] at hf

end Vm

namespace StreamProgram

open Vm

/-- The variable of the statement. -/
def sourceVariable (p : StreamProgram) : VariableInfo :=
  match p.source with
  | .stream name =>
    { codeIndex := 0, name, signature := typeNameToSignature p.element.streamType, length := 100
      slot := 1 }
  | .list name =>
    { codeIndex := 0, name, signature := "Ljava/util/List;", length := 100, slot := 1 }

theorem prepareSource_fst (p : StreamProgram) (vm : Vm) :
    ((prepareSource p).run vm).1.1 = p.sourceVariable := by
  unfold prepareSource sourceVariable
  cases p.source <;> rfl

theorem prepareCall_name (element : ElementType) (name : String) (a : CallArgument) (vm : Vm) :
    ((prepareCall element name a).run vm).1.name = name := by
  cases a <;> rfl

theorem prepareCalls_names (element : ElementType) (calls : List (String × CallArgument))
    (vm : Vm) :
    ((prepareCalls element calls).run vm).1.map (·.name) = calls.map (·.1) := by
  induction calls generalizing vm with
  | nil => rfl
  | cons call rest ih =>
      have hrest := ih ((prepareCall element call.1 call.2).run vm).2
      have hfirst := prepareCall_name element call.1 call.2 vm
      exact List.cons_eq_cons.mpr ⟨hfirst, hrest⟩

/-- No call of a program goes by the name of the statement's method. -/
theorem name_ne_run (p : StreamProgram) : ∀ name ∈
    (p.stages.map (fun s => (s.name, s.argument)) ++ [(p.terminal.name, p.terminal.argument)]).map
      (·.1), name ≠ "run" := by
  intro name hname
  simp only [List.map_append, List.map_map, List.mem_append, List.mem_map, Function.comp,
    List.map_cons, List.map_nil, List.mem_singleton] at hname
  rcases hname with ⟨stage, -, rfl⟩ | rfl
  · cases stage <;> simp [ProgramStage.name]
  · cases p.terminal <;> simp [ProgramTerminal.name]

theorem prepare_run (p : StreamProgram) (vm : Vm) :
    ∃ (filled : Vm) (this : ObjectId) (v : Value) (script : Repetition),
      (∀ (R : Vm → Vm → Prop) [Allots R], R vm filled) ∧ (∀ c ∈ script.calls, c.name ≠ "run") ∧
        (prepare p).run vm = (script, filled.inMain p.sourceVariable this v) := by
  let stages := p.stages.map fun s => (s.name, s.argument)
  let calls := (prepareCalls p.element (stages ++ [(p.terminal.name, p.terminal.argument)])).run vm
  let source := (prepareSource p).run calls.2
  let this := (Vm.alloc (source.2.appClass "Main") .plain).run source.2
  refine ⟨this.2, this.1, source.1.2.1,
    { receiver := source.1.2.2, calls := calls.1, runs := p.runs }, fun R _ => ?_,
    fun c hc => ?_, ?_⟩
  · have hcalls : R vm calls.2 := prepareCalls_keeps _ _ vm
    have hsource : R calls.2 source.2 := prepareSource_keeps p calls.2
    have hthis : R source.2 this.2 := Vm.alloc_keeps _ _ source.2
    exact Advance.trans (Advance.trans hcalls hsource) hthis
  · have hname : c.name ∈ calls.1.map (·.name) := List.mem_map_of_mem hc
    rw [prepareCalls_names] at hname
    exact p.name_ne_run c.name hname
  · rw [← prepareSource_fst p calls.2]
    rfl

/-- The statement's method, with its variable. -/
def home (p : StreamProgram) : Home := booted.homeOf p.sourceVariable

end StreamProgram

/-! ## Launched programs -/

/-- The thread stands in front of the statement, and nothing was asked for. -/
structure Vm.AtStatement (vm : Vm) (home : Home) : Prop extends vm.Stands home where
  depth : vm.frames.length = 2
  requests : vm.requests = []
  pins : vm.pins = {}
  written : vm.frameWrites = []
  outbox : vm.outbox = []
  alive : vm.dead = false
  suspended : vm.suspended = true

theorem Vm.Bare.atStatement {vm : Vm} (hb : vm.Bare) (hu : vm.Untouched) (info : VariableInfo)
    (this : ObjectId) (v : Value) : (vm.inMain info this v).AtStatement (vm.homeOf info) :=
  { hb.stands hu.frames info this v with
    depth := by simp [inMain, hu.frames]
    requests := hu.requests
    pins := hu.pins
    written := hu.written
    outbox := hu.outbox
    alive := hu.alive
    suspended := hu.suspended }

/-- A suspended thread does nothing. -/
theorem Repetition.loop_vm (s : Repetition) (runs : Nat) {vm : Vm} (halive : vm.dead = false)
    (hsuspended : vm.suspended = true) : (s.loop runs vm).vm = vm := by
  cases runs with
  | zero => rfl
  | succ runs =>
      show (Run.bind (Code.awaitResume vm) _).vm = vm
      rw [Code.awaitResume_of_suspended (by simp [halive]) hsuspended]
      rfl

namespace StreamProgram

open Vm

/-- What a program comes to on a machine whose thread has not begun. -/
theorem prepare_atStatement (p : StreamProgram) {vm : Vm} (hb : vm.Bare) (hu : vm.Untouched) :
    ∃ (script : Repetition) (vm' : Vm), (prepare p).run vm = (script, vm') ∧
      vm'.AtStatement (vm.homeOf p.sourceVariable) ∧ (script.main vm').vm = vm' ∧
        Run.Homeward (vm.homeOf p.sourceVariable) 2 (fun _ _ => True) (script.main vm') True False
          vm' := by
  obtain ⟨filled, this, v, script, hallots, hnames, hrun⟩ := p.prepare_run vm
  have hfills : OnlyObjects vm filled := hallots OnlyObjects
  have hbegins := (hfills.bare hb).atStatement (hfills.untouched hu) p.sourceVariable this v
  rw [hfills.homeOf] at hbegins
  refine ⟨script, _, hrun, hbegins, script.loop_vm _ hbegins.alive hbegins.suspended, ?_⟩
  exact script.loop_homeward hnames _ fun _ => ⟨⟨hbegins.toStands, hbegins.depth, False.elim⟩, id⟩

/-- The thread of a launched program goes where it should, from in front of the statement on. -/
theorem launch_atStatement (p : StreamProgram) : p.launch.vm.AtStatement p.home ∧
    Run.Homeward p.home 2 (fun _ _ => True) p.launch True False p.launch.vm := by
  obtain ⟨script, vm, hrun, hbegins, hvm, htravels⟩ :=
    p.prepare_atStatement booted_bare booted_untouched
  unfold launch
  rw [hrun]
  refine ⟨?_, ?_⟩
  · rw [hvm]
    exact hbegins
  · rw [hvm]
    exact htravels

/-- A launched program has made its objects and stands in front of its statement. -/
theorem launch_vm (p : StreamProgram) : ∃ (filled : Vm) (this : ObjectId) (v : Value),
    (∀ (R : Vm → Vm → Prop) [Allots R], R booted filled) ∧
      p.launch.vm = filled.inMain p.sourceVariable this v := by
  obtain ⟨filled, this, v, script, hallots, -, hrun⟩ := p.prepare_run booted
  have hbegins := ((hallots OnlyObjects).bare booted_bare).atStatement
    ((hallots OnlyObjects).untouched
    booted_untouched) p.sourceVariable this v
  refine ⟨filled, this, v, hallots, ?_⟩
  unfold launch
  rw [hrun]
  exact script.loop_vm _ hbegins.alive hbegins.suspended

/-- A launched program keeps the machine as it was before any class was loaded. -/
theorem launch_keeps (p : StreamProgram) : p.launch.Keeps {} := by
  obtain ⟨script, vm, hrun, -, -, htravels⟩ := p.prepare_atStatement booted_bare booted_untouched
  have hboot : Vm.Continues {} booted := boot_keeps (fun _ _ => .of_eq rfl rfl rfl rfl id) {}
  have hprepare := hboot.trans (prepare_keeps p booted)
  rw [hrun] at hprepare
  unfold launch
  rw [hrun]
  exact Run.Keeps.after hprepare htravels.keeps

end StreamProgram

end StreamTrace
