import StreamTrace.Proofs.Machine.LaunchedMachine
import StreamTrace.Proofs.Machine.StatementCalls

/-!
# Finding the methods of streams

Which code a call of the chain runs is looked up in the classes of its receiver and above them. A
search that has ended with known classes only ends in the same way however many classes are added,
so the calls of a program run the same code whether or not a debugger has defined its helpers.
-/

namespace StreamTrace

/-! ## Searches -/

namespace ClassTable

/-- Every class of the one table is in the other, with the same methods and supertypes. -/
structure Below (cs cs' : ClassTable) : Prop where
  classes : ∀ {type c}, cs.byId? type = some c → ∃ c', cs'.byId? type = some c' ∧
    c'.methods = c.methods ∧ c'.superclass = c.superclass ∧ c'.interfaces = c.interfaces
  count : cs.length ≤ cs'.length

/-- Whether the search for code ends with this answer and meets known classes only. -/
def settles (cs : ClassTable) (name descriptor : String) (found : Option (TypeId × MethodId)) :
    (fuel : Nat) → (seen queue interfaces : List TypeId) → Bool
  | 0, _, _, _ => false
  | fuel + 1, seen, queue, interfaces =>
    match pick (unseen seen queue) (unseen seen interfaces) with
    | none => found.isNone
    | some (current, queue, interfaces) =>
      match cs.byId? current with
      | none => false
      | some c =>
        match c.concrete? name descriptor with
        | some m => found == some (current, m.id)
        | none =>
          settles cs name descriptor found fuel (current :: seen) (queue ++ c.superclass.toList)
            (interfaces ++ c.interfaces)

variable {cs cs' : ClassTable} {name descriptor : String} {found : Option (TypeId × MethodId)}

theorem dispatchFrom_of_settles {fuel fuel' : Nat} {seen queue interfaces : List TypeId}
    (h : cs.settles name descriptor found fuel seen queue interfaces = true) (hcs : cs.Below cs')
    (hfuel : fuel ≤ fuel') :
    cs'.dispatchFrom name descriptor fuel' seen queue interfaces = found := by
  induction fuel generalizing fuel' seen queue interfaces with
  | zero => cases h
  | succ fuel ih =>
      obtain ⟨fuel', rfl⟩ : ∃ n, fuel' = n + 1 := ⟨fuel' - 1, by omega⟩
      rw [settles] at h
      rw [dispatchFrom]
      cases hpick : pick (unseen seen queue) (unseen seen interfaces) with
      | none =>
          rw [hpick] at h
          exact (Option.isNone_iff_eq_none.mp h).symm
      | some picked =>
          obtain ⟨current, queue, interfaces⟩ := picked
          simp only [hpick] at h ⊢
          cases hc : cs.byId? current with
          | none => simp [hc] at h
          | some c =>
              obtain ⟨c', hc', hmethods, hsuperclass, hinterfaces⟩ := hcs.classes hc
              have hconcrete : c'.concrete? name descriptor = c.concrete? name descriptor := by
                simp [ClassDef.concrete?, ClassDef.method?, hmethods]
              simp only [hc] at h
              simp only [hc', hconcrete, hsuperclass, hinterfaces]
              cases hm : c.concrete? name descriptor with
              | some m =>
                  simp only [hm] at h
                  exact (eq_of_beq h).symm
              | none =>
                  simp only [hm] at h
                  exact ih h (Nat.le_of_succ_le_succ hfuel)

theorem dispatch_of_settles {type : TypeId}
    (h : cs.settles name descriptor found (cs.length + 1) [] [type] [] = true)
    (hcs : cs.Below cs') : cs'.dispatch type name descriptor = found :=
  dispatchFrom_of_settles h hcs (Nat.succ_le_succ hcs.count)

theorem Below.trans {cs'' : ClassTable} (h : cs.Below cs') (h' : cs'.Below cs'') :
    cs.Below cs'' := by
  refine ⟨fun hc => ?_, Nat.le_trans h.count h'.count⟩
  obtain ⟨c', hc', hm, hs, hi⟩ := h.classes hc
  obtain ⟨c'', hc'', hm', hs', hi'⟩ := h'.classes hc'
  exact ⟨c'', hc'', hm'.trans hm, hs'.trans hs, hi'.trans hi⟩

theorem below_update (cs : ClassTable) (id : TypeId) {f : ClassDef → ClassDef}
    (hf : ∀ c, f c = { c with locals := (f c).locals }) : cs.Below (cs.update id f) := by
  refine ⟨fun {type c} hc => ?_, by simp [update]⟩
  refine ⟨_, (byId?_update cs id type fun c => by rw [hf c]).trans (congrArg _ hc), ?_⟩
  dsimp only
  split
  · rw [hf c]
    exact ⟨rfl, rfl, rfl⟩
  · exact ⟨rfl, rfl, rfl⟩

end ClassTable

theorem Vm.Grows.below {vm vm' : Vm} (h : vm.Grows vm') : vm.classes.Below vm'.classes where
  classes hc := by
    obtain ⟨c', hc', hsame⟩ := h.classes hc
    exact ⟨c', hc', hsame.methods, hsame.superclass, hsame.interfaces⟩
  count := h.count

/-! ## The classes at the start -/

namespace Vm

/-- The names of the calls that chains of programs make. -/
def callNames : List String :=
  ["filter", "map", "peek", "parallel", "count", "anyMatch", "findFirst", "toList", "forEach"]

theorem stage_mem_callNames (s : ProgramStage) : s.name ∈ callNames := by
  cases s <;> simp [ProgramStage.name, callNames]

theorem terminal_mem_callNames (t : ProgramTerminal) : t.name ∈ callNames := by
  cases t <;> simp [ProgramTerminal.name, callNames]

/-- The search for a method ends with known classes only, and not with the class of the program. -/
structure SearchSettled (vm : Vm) (type : TypeId) (name descriptor : String) : Prop where
  search : vm.classes.settles name descriptor (vm.classes.dispatch type name descriptor)
    (vm.classes.length + 1) [] [type] [] = true
  elsewhere : ∀ code ∈ vm.classes.dispatch type name descriptor, code.1 ≠ vm.appClass "Main" ∧
    (vm.classes.byId? code.1).isSome = true

instance (vm : Vm) (type : TypeId) (name descriptor : String) :
    Decidable (vm.SearchSettled type name descriptor) :=
  decidable_of_iff
    (vm.classes.settles name descriptor (vm.classes.dispatch type name descriptor)
      (vm.classes.length + 1) [] [type] [] = true ∧
      ∀ code ∈ vm.classes.dispatch type name descriptor, code.1 ≠ vm.appClass "Main" ∧
        (vm.classes.byId? code.1).isSome = true)
    ⟨fun ⟨h₁, h₂⟩ => ⟨h₁, h₂⟩, fun ⟨h₁, h₂⟩ => ⟨h₁, h₂⟩⟩

/-- The classes of streams. -/
def streamClasses : List String :=
  ["java.util.stream.ReferencePipeline", "java.util.stream.IntPipeline"]

/-- What a machine has to know of streams for the calls of every program. -/
structure KnowsStreams (vm : Vm) : Prop where
  calls : ∀ element ∈ ElementType.all, ∀ className ∈ streamClasses, ∀ name ∈ callNames,
    vm.SearchSettled (vm.appClass className) name (StreamProgram.descriptor element name)
  stream : vm.SearchSettled (vm.appClass "java.util.ArrayList") "stream"
    "()Ljava/util/stream/Stream;"
  found : (vm.classes.dispatch (vm.appClass "java.util.ArrayList") "stream"
    "()Ljava/util/stream/Stream;").isSome = true
  named : vm.classes.named? "java.util.stream.ReferencePipeline" vm.appLoader =
    some (vm.appClass "java.util.stream.ReferencePipeline")

theorem booted_knowsStreams : booted.KnowsStreams where
  calls := by decide +kernel
  stream := by decide +kernel
  found := by decide +kernel
  named := by decide +kernel

variable {vm filled : Vm} {info : VariableInfo} {this : ObjectId} {v : Value}

theorem OnlyObjects.classes_inMain (h : OnlyObjects vm filled) :
    (filled.inMain info this v).classes = vm.classes.update (vm.appClass "Main") fun c =>
      { c with locals := c.locals.set (vm.mainMethod "run" "()V")
                [StreamProgram.thisVariable, info] } := by
  rw [h.state]
  rfl

/-- Apart from the program's own, a class is as it was. -/
theorem OnlyObjects.byId?_inMain (hfills : OnlyObjects vm filled) {type : TypeId} {c : ClassDef}
    (hc : vm.classes.byId? type = some c) (hother : type ≠ vm.appClass "Main") :
    (filled.inMain info this v).classes.byId? type = some c := by
  have hid : c.id = type := by simpa using List.find?_some hc
  rw [hfills.classes_inMain]
  refine (ClassTable.byId?_update _ _ _ ?_).trans ?_
  · exact fun _ => rfl
  · rw [hc]
    simp [hid, hother]

/-- A search that settles comes to the same in front of the statement, and ever after. -/
theorem SearchSettled.dispatches {type : TypeId} {name descriptor : String}
    (h : vm.SearchSettled type name descriptor) (hb : vm.Bare) (hfills : OnlyObjects vm filled) :
    (filled.inMain info this v).Dispatches type name descriptor
      (vm.classes.dispatch type name descriptor) := by
  have hbelow : vm.classes.Below (filled.inMain info this v).classes := by
    rw [hfills.classes_inMain]
    exact ClassTable.below_update _ _ fun _ => rfl
  refine ⟨fun hg => ClassTable.dispatch_of_settles h.search (hbelow.trans hg.below),
    fun {t code} hcode => ?_⟩
  obtain ⟨hother, hknown⟩ := h.elsewhere (t, code) hcode
  obtain ⟨c, hc⟩ := Option.isSome_iff_exists.mp hknown
  refine ⟨c, hfills.byId?_inMain hc hother, ?_⟩
  rw [hb.unknown c (List.mem_of_find?_eq_some hc)]
  rfl

/-- The methods of the calls on streams of one of the two classes. -/
theorem KnowsStreams.findsCalls (h : vm.KnowsStreams) (hb : vm.Bare)
    (hfills : OnlyObjects vm filled)
    (element : ElementType) {className : String} (hclass : className ∈ streamClasses) :
    (filled.inMain info this v).FindsCalls element (vm.appClass className) fun name =>
      vm.classes.dispatch (vm.appClass className) name (StreamProgram.descriptor element name) := by
  have hsettles : ∀ name ∈ callNames,
      vm.SearchSettled (vm.appClass className) name (StreamProgram.descriptor element name) :=
    h.calls element (by cases element <;> decide) className hclass
  exact ⟨fun s => (hsettles _ (stage_mem_callNames s)).dispatches hb hfills,
    fun t => (hsettles _ (terminal_mem_callNames t)).dispatches hb hfills⟩

end Vm

end StreamTrace
