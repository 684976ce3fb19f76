import StreamTrace.Proofs.Debugger.HandlerReports

/-!
# Reading the packed results back

The results of a trace are packed into one array and read back. Reading is the inverse of packing:
each side lists the entries that were recorded, the payload is that of the consuming call, and the
outcome is the exception or the result.
-/

namespace StreamTrace

open Routine Vm

namespace Bridge

variable {b : Bridge} {s : BridgeState} {vm vm' : Vm}

/-! ## Arrays with a known number of slots -/

section

variable (hready : b.Ready s vm) {component : String} {v x y z : Value} (what : String)

include hready

theorem readSlots_learns {values : List Value} (h : vm.HasArray component v values) :
    b.Learns (readSlots v) s vm values :=
  (readArray_learns hready h).mapError _

theorem readOne_learns (h : vm.HasArray component v [x]) : b.Learns (readOne v what) s vm x :=
  (readSlots_learns hready h).bind fun _ hready' => learns_pure hready' _

theorem readTwo_learns (h : vm.HasArray component v [x, y]) :
    b.Learns (readTwo v what) s vm (x, y) :=
  (readSlots_learns hready h).bind fun _ hready' => learns_pure hready' _

theorem readThree_learns (h : vm.HasArray component v [x, y, z]) :
    b.Learns (readThree v what) s vm (x, y, z) :=
  (readSlots_learns hready h).bind fun _ hready' => learns_pure hready' _

theorem readPacked_learns (h : vm.PacksOne x v) : b.Learns (readOne v what) s vm x := by
  obtain ⟨component, -, -, harray⟩ := h
  exact readOne_learns hready what harray

end

/-! ## Sides and stages -/

variable {element : ElementType} {entries : List (Int32 × Element)} {v : Value}

theorem readTraced_learns {presented : List Value}
    (h : List.Forall₂ (vm.Presents element) (entries.map (·.2)) presented) :
    ∃ traced, vm.Lists element entries traced ∧ ∀ s, b.Ready s vm →
      b.Learns (readTraced ((entries.map fun e => .int e.1).zip presented)) s vm traced := by
  induction entries generalizing presented with
  | nil =>
      cases h
      exact ⟨[], .nil, fun s hready => learns_pure hready _⟩
  | cons e rest ih =>
      cases h with
      | cons hfirst hrest =>
          obtain ⟨traced, hlists, hlearns⟩ := ih hrest
          obtain ⟨t, ht⟩ := hfirst.reads
          refine ⟨{ time := e.1, value := t } :: traced, .cons ⟨rfl, _, hfirst, ht⟩ hlists,
            fun s hready => ?_⟩
          refine (readValue_learns hready ht).bind fun s₁ hready₁ => ?_
          exact (hlearns s₁ hready₁).bind fun s₂ hready₂ => learns_pure hready₂ _

theorem readSide_learns (h : vm.PacksSide element entries v) :
    ∃ traced, vm.Lists element entries traced ∧ ∀ s, b.Ready s vm →
      b.Learns (readSide v) s vm traced := by
  obtain ⟨keys, values, component, presented, hboth, hkeys, hvalues, hpresented⟩ := h
  obtain ⟨traced, hlists, hlearns⟩ := readTraced_learns hpresented
  refine ⟨traced, hlists, fun s hready => ?_⟩
  refine (readTwo_learns hready _ hboth).bind fun s₁ hready₁ => ?_
  refine (readSlots_learns hready₁ hkeys).bind fun s₂ hready₂ => ?_
  refine (readSlots_learns hready₂ hvalues).bind fun s₃ hready₃ => ?_
  refine achieves_ite_pos ?_ (hlearns s₃ hready₃)
  rw [List.length_map, ← hpresented.length_eq, List.length_map]

end Bridge

/-- The stage of a trace shows what the handler recorded. -/
structure Vm.ShowsStage (vm : Vm) (h : StageHandler) (r : StageRecord) (stage : StageTrace) :
    Prop where
  before : vm.Lists (h.sideBefore.1.getD .object) r.before stage.before
  after : vm.Lists (h.sideAfter.1.getD .object) r.after stage.after

namespace Bridge

variable {b : Bridge} {s : BridgeState} {vm vm' : Vm} {v : Value}

theorem readStage_learns {h : StageHandler} {r : StageRecord} (hpacks : vm.Packs h r v)
    (call : String) :
    ∃ stage, stage.call = call ∧ vm.ShowsStage h r stage ∧ ∀ s, b.Ready s vm →
      b.Learns (readStage call v) s vm stage := by
  obtain ⟨before, after, harray, hbefore, hafter⟩ := hpacks
  obtain ⟨entered, hentered, hreads⟩ := readSide_learns (b := b) hbefore
  obtain ⟨left, hleft, hreads'⟩ := readSide_learns (b := b) hafter
  refine ⟨{ call, before := entered, after := left }, rfl, ⟨hentered, hleft⟩, fun s hready => ?_⟩
  refine (readTwo_learns hready _ harray).bind fun s₁ hready₁ => ?_
  refine (hreads s₁ hready₁).bind fun s₂ hready₂ => ?_
  exact (hreads' s₂ hready₂).bind fun s₃ hready₃ => learns_pure hready₃ _

theorem readStages_learns {handled : List (StageHandler × StageRecord)} {reports : List Value}
    (hpacks : List.Forall₂ (fun hr v => vm.Packs hr.1 hr.2 v) handled reports)
    {calls : List StreamCall} (hcalls : calls.length = handled.length) :
    ∃ stages, stages.map (·.call) = calls.map (·.name) ∧
      List.Forall₂ (fun hr stage => vm.ShowsStage hr.1 hr.2 stage) handled stages ∧
        ∀ s, b.Ready s vm → b.Learns (readStages (calls.zip reports)) s vm stages := by
  induction hpacks generalizing calls with
  | nil =>
      obtain rfl := List.length_eq_zero_iff.mp hcalls
      exact ⟨[], rfl, .nil, fun s hready => learns_pure hready _⟩
  | cons hfirst _ ih =>
      cases calls with
      | nil => cases hcalls
      | cons call rest =>
          obtain ⟨stages, hnames, hshows, hlearns⟩ := ih (Nat.succ.inj hcalls)
          obtain ⟨stage, hname, hstage, hreads⟩ := readStage_learns (b := b) hfirst call.name
          refine ⟨stage :: stages, by simp [hname, hnames], .cons hstage hshows,
            fun s hready => ?_⟩
          refine (hreads s hready).bind fun s₁ hready₁ => ?_
          exact (hlearns s₁ hready₁).bind fun s₂ hready₂ => learns_pure hready₂ _

theorem readTerminal_learns {sides : Value → Prop} {kind : HandlerKind}
    {payload : TerminalPayload} (h : vm.PacksPayload sides kind payload v) :
    ∃ info, sides info ∧ ∀ s, b.Ready s vm →
      b.Learns (readTerminal kind v) s vm (info, payload) := by
  cases h with
  | terminal hs => exact ⟨v, hs, fun s hready => learns_pure hready _⟩
  | matched harray hs hone ht =>
      refine ⟨_, hs, fun s hready => ?_⟩
      refine (readTwo_learns hready _ harray).bind fun s₁ hready₁ => ?_
      refine (readPacked_learns hready₁ _ hone).bind fun s₂ hready₂ => ?_
      exact (readValue_learns hready₂ ht).bind fun s₃ hready₃ => learns_pure hready₃ _
  | @optional _ _ _ _ _ _ held _ harray hs hcontent hpresent hvalue hheld hempty =>
      refine ⟨_, hs, fun s hready => ?_⟩
      refine (readTwo_learns hready _ harray).bind fun s₁ hready₁ => ?_
      refine (readTwo_learns hready₁ _ hcontent).bind fun s₂ hready₂ => ?_
      refine (readPacked_learns hready₂ _ hpresent).bind fun s₃ hready₃ => ?_
      refine (readPacked_learns hready₃ _ hvalue).bind fun s₄ hready₄ => ?_
      cases held with
      | true =>
          exact (readValue_learns hready₄ (hheld rfl)).bind
            fun s₅ hready₅ => learns_pure hready₅ _
      | false =>
          rw [hempty rfl]
          exact learns_pure hready₄ _
  | collected harray hs htime =>
      refine ⟨_, hs, fun s hready => ?_⟩
      refine (readTwo_learns hready _ harray).bind fun s₁ hready₁ => ?_
      exact (readOne_learns hready₁ _ htime).bind fun s₂ hready₂ => learns_pure hready₂ _

end Bridge

namespace Vm

/-- How a trace ends: in the exception that was recorded, or as the consuming call does. -/
structure Ends (vm : Vm) (thrown : Option ObjectId) (returnsVoid : Bool) (result : Option Value)
    (outcome : Outcome) : Prop where
  threw : ∀ exception, thrown = some exception →
    ∃ t, vm.Reads (.object exception) t ∧ outcome = .thrown t
  ended : thrown = none → returnsVoid = true → outcome = .void
  returned : thrown = none → returnsVoid = false →
    ∃ t, vm.Reads (resultSlot result) t ∧ outcome = .returned t

/-- The array that holds the exception, or else the result. -/
def PacksOutcome (vm : Vm) (thrown : Option ObjectId) (result : Option Value) (v : Value) : Prop :=
  (∀ exception, thrown = some exception →
    vm.HasArray ClassName.throwable v [.object exception]) ∧
  (thrown = none → vm.PacksOne (resultSlot result) v)

theorem PacksOutcome.extended {vm vm' : Vm} {thrown : Option ObjectId} {result : Option Value}
    {v : Value} (h : vm.PacksOutcome thrown result v) (ht : vm.Extended vm') :
    vm'.PacksOutcome thrown result v :=
  ⟨fun exception hsome => (h.1 exception hsome).extended ht, fun hnone => (h.2 hnone).extended ht⟩

theorem PacksOutcome.isReference {vm : Vm} {thrown : Option ObjectId} {result : Option Value}
    {v : Value} (h : vm.PacksOutcome thrown result v) : v.isReference = true := by
  cases thrown with
  | none => exact (h.2 rfl).isReference
  | some exception => exact (h.1 exception rfl).isReference

/-- The packed results of a trace. -/
def PacksTrace (vm : Vm) (handled : List (StageHandler × StageRecord))
    (last : StageHandler) (record : StageRecord) (payload : TerminalPayload)
    (thrown : Option ObjectId) (elapsedMs : Int64) (v : Value) : Prop :=
  ∃ info outcome elapsed reports final, vm.HasArray ClassName.object v [info, outcome, elapsed] ∧
    vm.HasArray ClassName.object info (reports ++ [final]) ∧
    List.Forall₂ (fun hr v => vm.Packs hr.1 hr.2 v) handled reports ∧
    vm.PacksPayload (vm.Packs last record) last.kind payload final ∧
    vm.PacksOutcome thrown last.noted? outcome ∧
    vm.HasArray "long" elapsed [.long elapsedMs]

end Vm

namespace Bridge

variable {b : Bridge} {s : BridgeState} {vm vm' : Vm} {v : Value} {thrown : Option ObjectId}
  {result : Option Value}

/-! ## The outcome -/

theorem throwableArray_ne {component : String} (h : component ∈ arrayElements)
    (hne : component ≠ ClassName.throwable) : s!"{component}[]" ≠ throwableArray := by
  have hall : ∀ component ∈ arrayElements, component ≠ ClassName.throwable →
      s!"{component}[]" ≠ throwableArray := by decide
  exact hall component h hne

theorem typeOf_array_learns (hready : b.Ready s vm) {component : String}
    (hcomponent : IsComponent component) {values : List Value}
    (h : vm.HasArray component v values) : b.Learns (typeOf v) s vm s!"{component}[]" := by
  obtain ⟨id, rfl, c, hc, hsignature, hobject⟩ := h
  have hid : (Value.reference Tag.array id).objectId? = some id :=
    objectId?_reference (hready.equipped.toProper.ne_zero hobject)
  rw [← hcomponent.typeName_array hsignature]
  exact typeOf_learns hready hid hc hobject

theorem readOutcome_learns (h : vm.PacksOutcome thrown result v) (returnsVoid : Bool)
    (hthrown : ∀ exception, thrown = some exception → ∃ t, vm.Reads (.object exception) t)
    (hresult : ∃ t, vm.Reads (resultSlot result) t) :
    ∃ outcome, vm.Ends thrown returnsVoid result outcome ∧ ∀ s, b.Ready s vm →
      b.Learns (readOutcome v returnsVoid) s vm outcome := by
  cases thrown with
  | some exception =>
      have harray := h.1 exception rfl
      obtain ⟨t, ht⟩ := hthrown exception rfl
      refine ⟨.thrown t, ⟨?_, by simp, by simp⟩, fun s hready => ?_⟩
      · rintro _ ⟨⟩
        exact ⟨t, ht, rfl⟩
      · have hname := isComponent_of_mem (show ClassName.throwable ∈ arrayElements by
          simp [arrayElements])
        refine (typeOf_array_learns hready hname harray).bind fun s₁ hready₁ => ?_
        refine (readOne_learns hready₁ _ harray).bind fun s₂ hready₂ => ?_
        refine achieves_ite_pos rfl ?_
        exact (readValue_learns hready₂ ht).bind fun s₃ hready₃ => learns_pure hready₃ _
  | none =>
      obtain ⟨component, helement, hne, harray⟩ := h.2 rfl
      obtain ⟨t, ht⟩ := hresult
      have hlearns : ∀ {outcome} s, b.Ready s vm →
          (∀ s, b.Ready s vm → b.Learns (do
            if returnsVoid then return .void
            else return .returned (← readValue (resultSlot result))) s vm outcome) →
          b.Learns (readOutcome v returnsVoid) s vm outcome := by
        intro outcome s hready hrest
        have hname := isComponent_of_mem helement
        refine (typeOf_array_learns hready hname harray).bind fun s₁ hready₁ => ?_
        refine (readOne_learns hready₁ _ harray).bind fun s₂ hready₂ => ?_
        exact achieves_ite_neg (throwableArray_ne helement hne) (hrest s₂ hready₂)
      cases returnsVoid with
      | true =>
          exact ⟨.void, ⟨by simp, fun _ _ => rfl, by simp⟩, fun s hready =>
            hlearns s hready fun s' hready' => learns_pure hready' _⟩
      | false =>
          refine ⟨.returned t, ⟨by simp, by simp, fun _ _ => ⟨t, ht, rfl⟩⟩, fun s hready =>
            hlearns s hready fun s' hready' => ?_⟩
          exact (readValue_learns hready' ht).bind fun s₁ hready₁ => learns_pure hready₁ _

/-! ## The whole trace -/

/-- Reading back what was packed. -/
theorem interpret_learns {handled : List (StageHandler × StageRecord)} {last : StageHandler}
    {record : StageRecord} {payload : TerminalPayload} {elapsedMs : Int64}
    (h : vm.PacksTrace handled last record payload thrown elapsedMs v) {chain : StreamChain}
    (hcalls : chain.intermediate.length = handled.length)
    (hkind : (StageHandler.forTerminal chain.terminal.toStreamCall).kind = last.kind)
    (hthrown : ∀ exception, thrown = some exception → ∃ t, vm.Reads (.object exception) t)
    (hresult : ∃ t, vm.Reads (resultSlot last.noted?) t) :
    ∃ trace : ChainTrace,
      trace.stages.map (·.call) =
        chain.intermediate.map (·.name) ++ [chain.terminal.name] ∧
      List.Forall₂ (fun hr stage => vm.ShowsStage hr.1 hr.2 stage) (handled ++ [(last, record)])
        trace.stages ∧
      trace.terminal = payload ∧
      vm.Ends thrown chain.terminal.returnsVoid last.noted? trace.outcome ∧
      trace.elapsedMs = elapsedMs ∧
      ∀ s, b.Ready s vm → b.Learns (interpret chain v) s vm trace := by
  obtain ⟨info, outcome, elapsed, reports, final, harray, hinfo, hpacks, hpayload, houtcome,
    helapsed⟩ := h
  obtain ⟨stages, hnames, hshows, hstages⟩ := readStages_learns (b := b) hpacks hcalls
  obtain ⟨sides, hsides, hterminal⟩ := readTerminal_learns (b := b) hpayload
  obtain ⟨stage, hname, hstage, hlast⟩ := readStage_learns (b := b) hsides chain.terminal.name
  obtain ⟨ended, hends, hended⟩ :=
    readOutcome_learns (b := b) houtcome chain.terminal.returnsVoid hthrown hresult
  refine ⟨{ stages := stages ++ [stage], terminal := payload, outcome := ended, elapsedMs },
    by simp [hnames, hname], List.rel_append hshows (.cons hstage .nil), rfl, hends, rfl,
    fun s hready => ?_⟩
  have hlength : (reports ++ [final]).length = chain.intermediate.length + 1 := by
    rw [List.length_append, ← hpacks.length_eq, hcalls]
    rfl
  have hzip : chain.intermediate.zip (reports ++ [final]) = chain.intermediate.zip reports := by
    have happend : (chain.intermediate ++ []).zip (reports ++ [final]) =
        chain.intermediate.zip reports ++ [].zip [final] :=
      List.zip_append (hcalls.trans hpacks.length_eq)
    simpa using happend
  refine (readThree_learns hready _ harray).bind fun s₁ hready₁ => ?_
  refine (readArray_learns hready₁ hinfo).bind fun s₂ hready₂ => ?_
  refine achieves_ite_neg (fun hne => hne hlength) ?_
  rw [hzip]
  refine (hstages s₂ hready₂).bind fun s₃ hready₃ => ?_
  rw [hkind, List.getLast?_concat, Option.getD_some]
  refine (hterminal s₃ hready₃).bind fun s₄ hready₄ => ?_
  refine (hlast s₄ hready₄).bind fun s₅ hready₅ => ?_
  refine (hended s₅ hready₅).bind fun s₆ hready₆ => ?_
  exact (readOne_learns hready₆ _ helapsed).bind fun s₇ hready₇ => learns_pure hready₇ _

theorem packs_references {handled : List (StageHandler × StageRecord)} {reports : List Value}
    (hpacks : List.Forall₂ (fun hr v => vm.Packs hr.1 hr.2 v) handled reports) :
    ∀ v ∈ reports, v.isReference = true := by
  induction hpacks with
  | nil => exact nofun
  | cons hfirst _ ih =>
      intro v hv
      rcases List.mem_cons.mp hv with rfl | hv
      · exact hfirst.isReference
      · exact ih v hv

/-- The results of a trace are packed. -/
theorem pack_achieves (hready : b.Ready s vm) {handled : List (StageHandler × StageRecord)}
    {last : StageHandler} {record : StageRecord} {now : Int32} {reports : List Value}
    {terminal : Value}
    (hpacks : List.Forall₂ (fun hr v => vm.Packs hr.1 hr.2 v) handled reports)
    (hlast : vm.ReportsLast now last record terminal) (hcount : handled.length + 1 < 2 ^ 31)
    (elapsedMs : Int64) :
    b.Achieves (b.pack { intermediate := reports, terminal, thrown, elapsedMs }) s vm
      fun v vm' => ∃ payload, vm'.HasPayload now last payload ∧
        vm'.PacksTrace handled last record payload thrown elapsedMs v := by
  have hlongs : "long" ∈ arrayElements := by simp [arrayElements]
  have hthrowables : ClassName.throwable ∈ arrayElements := by simp [arrayElements]
  obtain ⟨final, wrapped, payload, harray, hwrapped, hpays, hpayload⟩ := hlast
  refine (readArray_learns hready harray).bind fun s₁ hready₁ => ?_
  have hreferences : ∀ v ∈ reports ++ [final], v.isReference = true := by
    intro v hv
    rcases List.mem_append.mp hv with hv | hv
    · exact packs_references hpacks v hv
    · rw [List.mem_singleton.mp hv]
      exact hpayload.isReference
  have hlength : (reports ++ [final]).length < 2 ^ 31 := by
    rw [List.length_append, ← hpacks.length_eq]
    exact hcount
  refine (array_achieves hready₁ (componentOf?_references hreferences) hlength).bind ?_
  intro info s₂ vm₂ hready₂ hextended₂ hinfo
  -- What is left to do once the outcome is in its array.
  have hrest : ∀ outcome s₃ vm₃, b.Ready s₃ vm₃ → vm.Extended vm₃ → vm₂.Extended vm₃ →
      vm₃.PacksOutcome thrown last.noted? outcome → b.Achieves (do
        let elapsed ← b.arrayOf "long" [.long elapsedMs]
        b.array [info, outcome, elapsed]) s₃ vm₃ fun v vm' => ∃ payload,
          vm'.HasPayload now last payload ∧
            vm'.PacksTrace handled last record payload thrown elapsedMs v := by
    intro outcome s₃ vm₃ hready₃ hextended hbehind houtcome
    have hholds : [Value.long elapsedMs].all (holds (typeNameToSignature "long")) = true := by
      have helapsed : holds (typeNameToSignature "long") (.long elapsedMs) = true :=
        keyword_holds .long rfl
      simp [helapsed]
    refine (arrayOf_achieves hready₃ hlongs hholds (show 1 < 2 ^ 31 by decide)).bind ?_
    intro elapsed s₄ vm₄ hready₄ hextended₄ helapsed
    have hall : ∀ v ∈ [info, outcome, elapsed], v.isReference = true := by
      simp [hinfo.isReference, houtcome.isReference, helapsed.isReference]
    refine (array_achieves hready₄ (componentOf?_references hall)
      (show 3 < 2 ^ 31 by decide)).mono ?_
    intro v vm₅ hextended₅ harray
    have hlater := hextended₄.trans hextended₅
    have hfull := hextended.trans hlater
    exact ⟨payload, hpays.extended hfull, info, outcome, elapsed, reports, final, harray,
      (hinfo.extended hbehind).extended hlater, hpacks.imp fun _ _ h => h.extended hfull,
      hpayload.extended hfull, houtcome.extended hlater, helapsed.extended hextended₅⟩
  cases thrown with
  | none =>
      refine achieves_pure_bind
        (hrest wrapped s₂ vm₂ hready₂ hextended₂ (.refl hready₂.equipped) ?_)
      exact ⟨by simp, fun _ => hwrapped.extended hextended₂⟩
  | some exception =>
      have hholds : [Value.object exception].all
          (holds (typeNameToSignature ClassName.throwable)) = true := by
        have hletter : (typeNameToSignature ClassName.throwable).toList.head? = some 'L' := by
          decide
        simp [holds, hletter, Value.object, Value.isReference]
      refine (arrayOf_achieves hready₂ hthrowables hholds (show 1 < 2 ^ 31 by decide)).bind ?_
      intro outcome s₃ vm₃ hready₃ hextended₃ harray
      refine hrest outcome s₃ vm₃ hready₃ (hextended₂.trans hextended₃) hextended₃ ⟨?_, by simp⟩
      rintro _ ⟨⟩
      exact harray

end Bridge

end StreamTrace
