import StreamTrace.Proofs.Machine.ClassLookup
import StreamTrace.Proofs.Machine.RepeatedEvaluation

/-!
# Programs in front of their statements

A launched program has made the lambdas of its calls and the source of its stream, and stands in
front of its statement. From there all evaluations come to what the program comes to by itself,
`StreamProgram.final`, whatever is done to the machine where its thread stops.
-/

namespace StreamTrace

open StreamProgram

/-! ## What a program comes to -/

namespace StreamProgram

/-- The class of the stream on which the calls of the chain are made. -/
def streamClass (p : StreamProgram) : String :=
  match p.source with
  | .stream _ =>
    if p.element = .int then "java.util.stream.IntPipeline"
    else "java.util.stream.ReferencePipeline"
  | .list _ => "java.util.stream.ReferencePipeline"

theorem streamClass_mem (p : StreamProgram) : p.streamClass ∈ Vm.streamClasses := by
  unfold streamClass Vm.streamClasses
  split
  · split <;> simp
  · simp

/-- The method that a call of that name runs. -/
def code (p : StreamProgram) (vm : Vm) (name : String) : Option (TypeId × MethodId) :=
  vm.classes.dispatch (vm.appClass p.streamClass) name (descriptor p.element name)

/-- The stream on which the calls of the chain are made. -/
def meaning (p : StreamProgram) (vm : Vm) : StreamMeaning :=
  { type := vm.appClass p.streamClass, items := p.items, run := .all }

/-- How all evaluations end. -/
def final (p : StreamProgram) (vm : Vm) : List (Fate Shown) :=
  outcomes (p.value (fun name => (p.code vm name).isSome) (.ok (p.meaning vm))) p.runs

end StreamProgram

/-! ## Calls -/

namespace Vm

variable {vm vm' : Vm}

/-- The names of the calls that take functions. -/
def functionNames : List String := ["filter", "map", "peek", "anyMatch", "forEach"]

/-- What a machine has to know for the functions of all calls, and of the program's own class. -/
structure KnowsFunctions (vm : Vm) : Prop where
  main : (vm.classes.byId? (vm.appClass "Main")).isSome = true
  classes : ∀ element ∈ ElementType.all, ∀ name ∈ functionNames,
    vm.appClass (lambdaClass (lambdaType element name)) ≠ vm.appClass "Main" ∧
      ((vm.classes.byId? (vm.appClass (lambdaClass (lambdaType element name)))).bind
        (·.methods.head?)).isSome = true
  slots : ∀ element ∈ ElementType.all, ∀ name ∈ functionNames,
    frameSlots (StreamProgram.descriptor element name) ≠ []

/-- The functions of all calls implement interfaces for which the program has lambdas. -/
theorem lambdaType_mem (element : ElementType) (name : String) :
    ∃ method descriptor, (lambdaType element name, method, descriptor) ∈ lambdaInterfaces := by
  unfold lambdaType lambdaInterfaces
  split
  · split <;> simp
  · split <;> simp

theorem lambdaClass_ne_main {i : String × String × String} (hi : i ∈ lambdaInterfaces) :
    lambdaClass i.1 ≠ "Main" := by
  have hmem : lambdaClass i.1 ∈ lambdaInterfaces.map fun i => lambdaClass i.1 :=
    List.mem_map_of_mem hi
  rw [lambdaClass_names] at hmem
  intro heq
  rw [heq] at hmem
  revert hmem
  decide

theorem booted_knowsFunctions : booted.KnowsFunctions := by
  obtain ⟨main, hmain, hmainDeclares, hmainClass, hmainId⟩ := booted_equipped.programSpec
    (List.mem_append_right _ List.mem_cons_self)
  refine ⟨?_, ?_, by decide +kernel⟩
  · exact Option.isSome_iff_exists.mpr ⟨main, hmainClass ▸ hmainId⟩
  · intro element _ name _
    obtain ⟨method, descriptor, hinterface⟩ := lambdaType_mem element name
    obtain ⟨c, hc, hdeclares, hclass, hid⟩ := booted_equipped.programSpec
      (List.mem_append_left _ (List.mem_map_of_mem hinterface))
    have hname : booted.appClass (lambdaClass (lambdaType element name)) = c.id := hclass
    have hmainName : booted.appClass "Main" = main.id := hmainClass
    rw [hname, hmainName]
    constructor
    · intro heq
      have hsame : c = main := Option.some.inj (hid.symm.trans (heq ▸ hmainId))
      refine lambdaClass_ne_main hinterface (hdeclares.name.symm.trans ?_)
      rw [hsame]
      exact hmainDeclares.name
    · rw [hid, Option.bind_some]
      cases hmethods : c.methods with
      | nil => exact absurd hdeclares.methods (by simp [hmethods])
      | cons m rest => rfl

/-- The arguments of a call: none, null, or a lambda of that class. -/
inductive Offers (vm : Vm) (type : TypeId) (c : ProgramCall) : CallArgument → Prop where
  | none (h : c.args = []) : Offers vm type c .none
  | null (h : c.args = [.null]) : Offers vm type c .null
  | lambda {v : Value} {id : ObjectId} {f : Lambda} (h : c.args = [v])
      (hid : v.objectId? = some id) (he : vm.lookup? id = some { type, object := .lambda f }) :
      Offers vm type c (.lambda f)

theorem Offers.grows {type : TypeId} {c : ProgramCall} {a : CallArgument} (h : vm.Offers type c a)
    (hg : vm.Grows vm') : vm'.Offers type c a := by
  cases h with
  | none h => exact .none h
  | null h => exact .null h
  | lambda h hid he => exact .lambda h hid (hg.objects he rfl)

/-- A call as it was prepared. -/
structure Prepared (vm : Vm) (element : ElementType) (c : ProgramCall)
    (x : String × CallArgument) : Prop where
  called : c.name = x.1
  descriptor : c.descriptor = StreamProgram.descriptor element x.1
  offers : vm.Offers (vm.appClass (lambdaClass (lambdaType element x.1))) c x.2

theorem OnlyObjects.appClass (h : OnlyObjects vm vm') (name : String) :
    vm'.appClass name = vm.appClass name := by
  rw [h.state]
  rfl

theorem Prepared.grows {element : ElementType} {c : ProgramCall} {x : String × CallArgument}
    (h : vm.Prepared element c x) (hg : vm.Grows vm') (hfills : OnlyObjects vm vm') :
    vm'.Prepared element c x := by
  refine ⟨h.called, h.descriptor, ?_⟩
  rw [hfills.appClass]
  exact h.offers.grows hg

end Vm

namespace StreamProgram

open Vm

variable {vm : Vm}

theorem prepareCall_prepared (element : ElementType) (name : String) (a : CallArgument) (vm : Vm) :
    ((prepareCall element name a).run vm).2.Prepared element
      ((prepareCall element name a).run vm).1 (name, a) := by
  cases a with
  | none => exact ⟨rfl, rfl, .none rfl⟩
  | null => exact ⟨rfl, rfl, .null rfl⟩
  | lambda f =>
      exact ⟨rfl, rfl, .lambda rfl (objectId?_valueOf _ (Nat.succ_ne_zero vm.nextId))
        (lookup?_make_self vm _)⟩

theorem prepareCalls_prepared (element : ElementType) (calls : List (String × CallArgument))
    {vm : Vm} (htidy : vm.Tidy) :
    let r := (prepareCalls element calls).run vm
    List.Forall₂ (r.2.Prepared element) r.1 calls := by
  induction calls generalizing vm with
  | nil => exact .nil
  | cons x rest ih =>
      obtain ⟨name, a⟩ := x
      let first := (prepareCall element name a).run vm
      have hfirst : vm.Evolves first.2 := prepareCall_keeps element name a vm
      have htidy₁ : first.2.Tidy := (hfirst htidy).1
      have hrest : first.2.Evolves ((prepareCalls element rest).run first.2).2 :=
        prepareCalls_keeps element rest first.2
      have hfills : OnlyObjects first.2 ((prepareCalls element rest).run first.2).2 :=
        prepareCalls_keeps element rest first.2
      exact .cons ((prepareCall_prepared element name a vm).grows (hrest htidy₁).2.grows hfills)
        (ih htidy₁)

/-! ## The source -/

/-- The value of the variable and the receiver of the first call. -/
inductive Starts (p : StreamProgram) (vm : Vm) : Value → CallTarget → Prop where
  | stream {v : Value} {id : ObjectId} {name : String} (hp : p.source = .stream name)
      (hid : v.objectId? = some id)
      (he : vm.lookup? id = some
        { type := vm.appClass p.streamClass, object := .stream p.element (.source p.items) }) :
      Starts p vm v (.slot 1)
  | list {v : Value} {id : ObjectId} {name : String} (hp : p.source = .list name)
      (hid : v.objectId? = some id)
      (he : vm.lookup? id = some
        { type := vm.appClass "java.util.ArrayList", object := .list p.items }) :
      Starts p vm v (.collection v)

theorem Starts.grows {p : StreamProgram} {vm vm' : Vm} {v : Value} {r : CallTarget}
    (h : p.Starts vm v r) (hg : vm.Grows vm') (hfills : OnlyObjects vm vm') : p.Starts vm' v r := by
  cases h with
  | stream hp hid he =>
      refine .stream hp hid ?_
      rw [hfills.appClass]
      exact hg.objects he rfl
  | list hp hid he =>
      refine .list hp hid ?_
      rw [hfills.appClass]
      exact hg.objects he rfl

theorem Starts.settled {p : StreamProgram} {vm : Vm} {info : VariableInfo} {this : ObjectId}
    {v : Value} {r : CallTarget} (h : p.Starts vm v r) : (vm.inMain info this v).Settled v := by
  cases h with
  | stream hp hid he => exact .stream ⟨_, hid, .source he⟩
  | list hp hid he => exact .other hid he rfl nofun

theorem prepareSource_starts (p : StreamProgram) (vm : Vm) :
    let r := (prepareSource p).run vm
    p.Starts r.2 r.1.2.1 r.1.2.2 := by
  unfold prepareSource
  cases hp : p.source with
  | stream name =>
      refine .stream hp (objectId?_valueOf _ (Nat.succ_ne_zero vm.nextId)) ?_
      rw [streamClass, hp]
      exact lookup?_make_self vm _
  | list name =>
      exact .list hp (objectId?_valueOf _ (Nat.succ_ne_zero vm.nextId)) (lookup?_make_self vm _)

end StreamProgram

/-! ## In front of the statement -/

namespace Vm

variable {vm filled : Vm} {info : VariableInfo} {this : ObjectId} {v : Value}

theorem Prepared.isCall {element : ElementType} {c : ProgramCall} {x : String × CallArgument}
    (h : filled.Prepared element c x) (hk : vm.KnowsFunctions) (hb : vm.Bare)
    (hfills : OnlyObjects vm filled) (hname : ∀ f, x.2 = .lambda f → x.1 ∈ functionNames) :
    (filled.inMain info this v).IsCall element c x.1 x.2 := by
  refine ⟨h.called, h.descriptor, ?_⟩
  obtain ⟨name, a⟩ := x
  have hoffers := h.offers
  rw [hfills.appClass] at hoffers
  have helement : element ∈ ElementType.all := by cases element <;> decide
  cases hoffers with
  | none hargs => exact .none hargs
  | null hargs => exact .null hargs
  | @lambda v' id f hargs hid he =>
      have hmem := hname f rfl
      obtain ⟨hother, hknown⟩ := hk.classes element helement name hmem
      obtain ⟨m, hm⟩ := Option.isSome_iff_exists.mp hknown
      obtain ⟨c', hc', hm⟩ := Option.bind_eq_some_iff.mp hm
      refine .lambda hargs hid ⟨_, c', m, he, hfills.byId?_inMain hc' hother, hm, ?_⟩ ?_
      · rw [hb.unknown c' (List.mem_of_find?_eq_some hc')]
        rfl
      · rw [h.descriptor]
        exact hk.slots element helement name hmem

end Vm

namespace ProgramStage

theorem mem_functionNames (s : ProgramStage) {f : Lambda} (h : s.argument = .lambda f) :
    s.name ∈ Vm.functionNames := by
  cases s <;> simp [argument] at h <;> simp [name, Vm.functionNames]

end ProgramStage

namespace ProgramTerminal

theorem mem_functionNames (t : ProgramTerminal) {f : Lambda} (h : t.argument = .lambda f) :
    t.name ∈ Vm.functionNames := by
  cases t <;> simp [argument] at h <;> simp [name, Vm.functionNames]

end ProgramTerminal

/-- A machine on which a program can be prepared. -/
structure Vm.Ready (vm : Vm) : Prop where
  bare : vm.Bare
  untouched : vm.Untouched
  streams : vm.KnowsStreams
  functions : vm.KnowsFunctions
  tidy : vm.Tidy
  unforced : vm.forcedReturn = none
  unevaluated : vm.evaluations = []
  unfinished : vm.programResult = none

theorem Vm.booted_ready : Vm.booted.Ready where
  bare := booted_bare
  untouched := booted_untouched
  streams := booted_knowsStreams
  functions := booted_knowsFunctions
  tidy := by
    have hkeeps : Keeps Tidies boot := boot_keeps fun _ _ h => ⟨h.objects, h.fits⟩
    exact hkeeps {} ⟨nofun, nofun⟩
  unforced := Option.isNone_iff_eq_none.mp (by decide +kernel)
  unevaluated := List.isEmpty_iff.mp (by decide +kernel)
  unfinished := Option.isNone_iff_eq_none.mp (by decide +kernel)

namespace Vm

variable {vm filled : Vm} {info : VariableInfo} {this : ObjectId} {v : Value}

/-- The statement of a program that was prepared on this machine. -/
def sceneOf (filled : Vm) (info : VariableInfo) (this : ObjectId) (v : Value) : Scene where
  frame := filled.nextId + 2
  base := filled.inMain info this v
  fresh := Nat.le_refl _
  notes _ := True
  stable _ _ _ _ := trivial

theorem Ready.steady (h : vm.Ready) (hfills : OnlyObjects vm filled) (htidy : filled.Tidy)
    {p : StreamProgram} {r : CallTarget} {type : TypeId}
    (hthis : filled.lookup? this = some { type, object := .plain }) (hid : this ≠ 0)
    (hstarts : p.Starts filled v r) :
    ((filled.sceneOf info this v).noting []).Steady (filled.inMain info this v) := by
  have hunevaluated : filled.evaluations = [] := by rw [hfills.state]; exact h.unevaluated
  have hunfinished : filled.programResult = none := by rw [hfills.state]; exact h.unfinished
  have hframes : filled.frames = [] := (hfills.untouched h.untouched).frames
  -- Two frames are on the stack, the statement's and the one that called it.
  have hmem : ∀ f ∈ (filled.inMain info this v).frames,
      f = { id := filled.nextId + 2
            location := (filled.inMain info this v).location (filled.appClass "Main")
              (filled.mainMethod "run" "()V") StreamProgram.statementIndex
            slots := ⟨[(0, .object this), (1, v)]⟩ } ∨
        f = { id := filled.nextId + 1
              location := (filled.inMain info this v).location (filled.appClass "Main")
                filled.entryMethod 3
              slots := ⟨[(0, .null)]⟩ } := fun f hf => by
    rcases List.mem_cons.mp hf with rfl | hf
    · exact .inl rfl
    · rw [hframes] at hf
      exact .inr (List.mem_singleton.mp hf)
  refine ⟨⟨fun he => ?_, fun c hc => ?_⟩, .refl _, fun f hf hframe slot w hw => ?_,
    fun f hf hframe => ?_, ⟨?_, ?_⟩⟩
  · exact Nat.le_trans (htidy.objects (e := _) he) (Nat.le_add_right _ 2)
  · obtain ⟨c', hc', rfl⟩ := List.mem_map.mp hc
    split
    · exact ⟨(htidy.fits c' hc').takes, (htidy.fits c' hc').ids⟩
    · exact htidy.fits c' hc'
  · -- The variables of the statement hold the program's own object and the source.
    obtain ⟨-, hslots⟩ : f.id = filled.nextId + 2 ∧
        f.slots = ⟨[(0, .object this), (1, v)]⟩ := by
      rcases hmem f hf with rfl | rfl
      · exact ⟨rfl, rfl⟩
      · exact absurd hframe (Nat.ne_of_lt (Nat.lt_succ_self _))
    rw [hslots] at hw
    simp only [Table.get?, Table.lookup] at hw
    split at hw
    · obtain rfl := Option.some.inj hw
      exact .other (by simp [Value.object, Value.objectId?, hid]) hthis rfl (by simp)
    · split at hw
      · obtain rfl := Option.some.inj hw
        exact hstarts.settled
      · cases hw
  · obtain rfl : f = _ := (hmem f hf).resolve_left fun hrun => hframe (by rw [hrun]; rfl)
    obtain ⟨c, hc⟩ := Option.isSome_iff_exists.mp h.functions.main
    refine ⟨{ c with locals := c.locals.set (vm.mainMethod "run" "()V")
                        [StreamProgram.thisVariable, info] }, ?_, ?_⟩
    · show (filled.inMain info this v).classes.byId? (filled.appClass "Main") = _
      have hid : c.id = vm.appClass "Main" := by simpa using List.find?_some hc
      rw [hfills.classes_inMain, hfills.appClass]
      refine (ClassTable.byId?_update _ _ _ ?_).trans ?_
      · exact fun _ => rfl
      · rw [hc]
        simp [hid]
    · show Table.get? (c.locals.set _ _) filled.entryMethod = none
      have hentry : filled.entryMethod = vm.entryMethod := by rw [hfills.state]; rfl
      rw [hentry, h.bare.unknown c (List.mem_of_find?_eq_some hc)]
      rw [Table.get?_set_of_ne _ _ h.bare.apart.symm]
      rfl
  · show List.Forall₂ _ [] filled.evaluations
    rw [hunevaluated]
    exact .nil
  · show filled.programResult = (filled.evaluations.filterMap _).getLast?
    rw [hunevaluated, hunfinished]
    rfl

end Vm

namespace StreamProgram

open Vm

/-- The calls of the program, in front of its statement. -/
theorem calls_inMain {p : StreamProgram} {vm filled : Vm} {cs : List ProgramCall}
    {info : VariableInfo} {this : ObjectId} {v : Value} (h : vm.Ready)
    (hfills : OnlyObjects vm filled)
    (hcs : List.Forall₂ (filled.Prepared p.element) cs
      (p.stages.map (fun s => (s.name, s.argument)) ++
        [(p.terminal.name, p.terminal.argument)])) :
    (filled.inMain info this v).Calls p cs := by
  have hstages := List.forall₂_take_append cs _ _ hcs
  have hlast := List.forall₂_drop_append cs _ _ hcs
  rw [← List.take_append_drop (p.stages.map fun s => (s.name, s.argument)).length cs]
  generalize cs.take _ = first at hstages ⊢
  generalize cs.drop _ = last at hlast ⊢
  obtain ⟨c, rest, hc, hrest, rfl⟩ := List.forall₂_cons_right_iff.mp hlast
  obtain rfl := List.forall₂_nil_right_iff.mp hrest
  refine .mk (List.Forall₂.imp (fun c s hc => ?_) (List.forall₂_map_right_iff.mp hstages)) ?_
  · exact hc.isCall h.functions h.bare hfills fun _ hf => s.mem_functionNames hf
  · exact hc.isCall h.functions h.bare hfills fun _ hf => p.terminal.mem_functionNames hf

/-- The source of the stream, in front of the statement. -/
theorem Starts.source {p : StreamProgram} {vm filled : Vm} {info : VariableInfo}
    {this : ObjectId} {v : Value} {r : CallTarget} (h : vm.Ready) (hfills : OnlyObjects vm filled)
    (hstarts : p.Starts filled v r) :
    (filled.sceneOf info this v).Source (p.meaning vm) (filled.inMain info this v) r := by
  cases hstarts with
  | @stream id name hp hid he =>
      rw [hfills.appClass] at he
      exact .slot rfl rfl rfl ⟨id, hid, .source he⟩
  | @list id name hp hid he =>
      rw [hfills.appClass] at he
      obtain ⟨code, hcode⟩ := Option.isSome_iff_exists.mp h.streams.found
      have hd : (filled.inMain info this v).Dispatches _ _ _ _ :=
        h.streams.stream.dispatches h.bare hfills
      rw [hcode] at hd
      have hpipeline : (filled.inMain info this v).classes.named?
          "java.util.stream.ReferencePipeline" (filled.inMain info this v).appLoader =
            some (vm.appClass p.streamClass) := by
        have hloader : (filled.inMain info this v).appLoader = vm.appLoader := by
          show filled.appLoader = vm.appLoader
          rw [hfills.state]
        rw [hloader, hfills.classes_inMain, streamClass, hp]
        refine (ClassTable.named?_update _ _ _ _ ?_).trans h.streams.named
        exact fun _ => ⟨rfl, rfl, rfl⟩
      exact .collection hid he hd hpipeline rfl

/-- From in front of the statement, all evaluations come to what the program comes to. -/
theorem prepare_repeats (p : StreamProgram) {vm : Vm} (h : vm.Ready) :
    ∃ (script : Repetition) (vm' : Vm) (S : Scene), (prepare p).run vm = (script, vm') ∧
      (∃ f, vm'.frames.reverse[1]? = some f ∧ f.id = S.frame) ∧
        (script.main vm').Repeats S (p.final vm) vm' := by
  let stages := p.stages.map fun s => (s.name, s.argument)
  let calls := (prepareCalls p.element (stages ++ [(p.terminal.name, p.terminal.argument)])).run vm
  let source := (prepareSource p).run calls.2
  let this := (Vm.alloc (source.2.appClass "Main") .plain).run source.2
  have hcalls {R : Vm → Vm → Prop} [Allots R] : R vm calls.2 := prepareCalls_keeps _ _ vm
  have hsource {R : Vm → Vm → Prop} [Allots R] : R calls.2 source.2 :=
    prepareSource_keeps p calls.2
  have hthis {R : Vm → Vm → Prop} [Allots R] : R source.2 this.2 := Vm.alloc_keeps _ _ source.2
  have hfills : OnlyObjects vm this.2 := Advance.trans (Advance.trans hcalls hsource) hthis
  have hevolves₁ : vm.Evolves calls.2 := hcalls
  have hevolves₂ : calls.2.Evolves source.2 := hsource
  have hevolves₃ : source.2.Evolves this.2 := hthis
  obtain ⟨htidy₁, -⟩ := hevolves₁ h.tidy
  obtain ⟨htidy₂, hevolved₂⟩ := hevolves₂ htidy₁
  obtain ⟨htidy₃, hevolved₃⟩ := hevolves₃ htidy₂
  have hprepared : List.Forall₂ (this.2.Prepared p.element) calls.1
      (stages ++ [(p.terminal.name, p.terminal.argument)]) :=
    List.Forall₂.imp (fun _ _ hc => hc.grows (hevolved₂.grows.trans hevolved₃.grows)
      (Advance.trans hsource hthis)) (prepareCalls_prepared p.element _ h.tidy)
  have hstarts : p.Starts this.2 source.1.2.1 source.1.2.2 :=
    (prepareSource_starts p calls.2).grows hevolved₃.grows hthis
  have hlookup : this.2.lookup? this.1 = some { type := _, object := .plain } :=
    lookup?_make_self source.2 _
  have huntouched := hfills.untouched h.untouched
  let info := p.sourceVariable
  refine ⟨{ receiver := source.1.2.2, calls := calls.1, runs := p.runs },
    this.2.inMain info this.1 source.1.2.1, this.2.sceneOf info this.1 source.1.2.1, ?_, ?_, ?_⟩
  · show _ = (_, this.2.inMain p.sourceVariable this.1 source.1.2.1)
    rw [← prepareSource_fst p calls.2]
    rfl
  · have hframes : (this.2.inMain info this.1 source.1.2.1).frames =
        _ :: _ :: this.2.frames := rfl
    rw [hframes, huntouched.frames]
    exact ⟨_, rfl, rfl⟩
  · have hunforced : this.2.forcedReturn = none := by
      rw [hfills.state]
      exact h.unforced
    have hruns : ((this.2.sceneOf info this.1 source.1.2.1).noting []).Running
        (this.2.inMain info this.1 source.1.2.1) :=
      ⟨h.steady hfills htidy₃ hlookup (Nat.succ_ne_zero _) hstarts, hunforced, huntouched.alive,
        huntouched.outbox⟩
    exact Repetition.loop_repeats rfl (h.streams.findsCalls h.bare hfills p.element
      p.streamClass_mem) hruns (calls_inMain h hfills hprepared) (hstarts.source h hfills)
      (List.nil_append _).symm (by simp)

/-- All evaluations of a launched program come to what the program comes to. -/
theorem launch_repeats (p : StreamProgram) : ∃ S : Scene,
    (∃ f, p.launch.vm.frames.reverse[1]? = some f ∧ f.id = S.frame) ∧
      p.launch.Repeats S (p.final booted) p.launch.vm := by
  obtain ⟨script, vm, S, hrun, hframe, hrepeats⟩ := p.prepare_repeats booted_ready
  obtain ⟨script', vm', hrun', -, hvm, -⟩ := p.prepare_atStatement booted_bare booted_untouched
  obtain ⟨rfl, rfl⟩ := Prod.mk.inj (hrun.symm.trans hrun')
  unfold launch
  rw [hrun, hvm]
  exact ⟨S, hframe, hrepeats⟩

end StreamProgram

end StreamTrace
