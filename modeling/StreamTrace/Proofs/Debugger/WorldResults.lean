import StreamTrace.Proofs.Debugger.ResultReadBack
import StreamTrace.Proofs.Machine.Chronicles
import StreamTrace.Proofs.Machine.EquippedLaunch

/-!
# Results in the world

Bridge routines in a world in which nothing stands between them and the machine. At the end of a
trace the reports of all stages are gathered there, packed and read back.
-/

namespace StreamTrace

open Routine Vm

/-- The world as it is: an action gets the world's own reply. -/
def Target.world : Target World where
  asks _ _ := True
  answers w a r w' := (r, w') = w.perform a

theorem Program.meets_world {α : Type} {p : Program α} {post : α → World → Prop} {w : World} :
    p.Meets .world post w ↔
      post (Program.run World.perform p w).1 (Program.run World.perform p w).2 := by
  induction p generalizing w with
  | done a => rfl
  | act a next ih =>
      rw [Program.meets_act]
      refine ⟨fun h => (ih _).mp (h.2 _ _ rfl), fun h => ⟨trivial, fun r w' hr => (ih _).mpr ?_⟩⟩
      obtain ⟨rfl, rfl⟩ := Prod.mk.inj (show (r, w') = _ from hr)
      exact h

namespace World

/-- Only writes to the thread may be refused in the machine's place, and there is no news. -/
structure Unhindered (w : World) : Prop where
  quiet : w.vm.outbox = []
  passes : ∀ c n, c.touchesThread = false → w.intercept c n = none

/-- Nothing but the machine and the log has changed. -/
def MachineOnly (w w' : World) : Prop :=
  w' = { w with vm := w'.vm, log := w'.log, sent := w'.sent, logged := w'.logged }

variable {w w' w'' : World}

theorem MachineOnly.refl (w : World) : w.MachineOnly w := rfl

theorem MachineOnly.trans (h : w.MachineOnly w') (h' : w'.MachineOnly w'') : w.MachineOnly w'' := by
  unfold MachineOnly at h h' ⊢
  rw [h', h]

theorem Unhindered.machineOnly (h : w.Unhindered) (hw : w.MachineOnly w')
    (hquiet : w'.vm.outbox = []) :
    w'.Unhindered := by
  refine ⟨hquiet, fun c n htouch => ?_⟩
  rw [hw]
  exact h.passes c n htouch

/-- A command that is not refused gets the machine's answer. -/
theorem command_passes (h : w.Unhindered) {c : Command} (htouch : c.touchesThread = false) :
    (w.command c).1 = (w.vm.answer c).1 ∧ (w.command c).2.vm = (w.vm.answer c).2 ∧
      w.MachineOnly (w.command c).2 := by
  have hlog : w.MachineOnly (w.logCommand c) ∧ (w.logCommand c).vm = w.vm := by
    refine ⟨?_, (logCommand_same w c).2⟩
    unfold MachineOnly logCommand logState
    split <;> rfl
  have hpass : (w.logCommand c).intercept c ((w.logCommand c).sentCount c) = none := by
    rw [hlog.1]
    exact h.passes c _ htouch
  unfold World.command
  simp only [hpass, hlog.2]
  have hquiet : ({ w.logCommand c with vm := (w.vm.answer c).2 } : World).vm.outbox = [] :=
    (Vm.answered w.vm c).inPlace.outbox.trans h.quiet
  rw [collect_of_quiet hquiet]
  refine ⟨trivial, rfl, ?_⟩
  unfold MachineOnly logCommand logState
  split <;> rfl

end World

/-- What holds on the machine alone holds in a world that lets the commands pass. -/
theorem Program.Meets.passed {α : Type} {p : Program α} {post : α → Vm → Prop} {w : World}
    (h : p.Meets .machine post w.vm) (hw : w.Unhindered) :
    p.Meets .world (fun a w' => w.MachineOnly w' ∧ w'.vm.outbox = [] ∧ post a w'.vm) w := by
  induction p generalizing w with
  | done a => exact ⟨.refl w, hw.quiet, h⟩
  | act a next ih =>
      cases a with
      | command c =>
          obtain ⟨hanswer, hvm, honward⟩ := World.command_passes hw h.1
          refine ⟨trivial, fun r w' hr => ?_⟩
          obtain ⟨rfl, rfl⟩ := Prod.mk.inj (show (r, w') = w.command c from hr)
          have hquiet : (w.command c).2.vm.outbox = [] := by
            rw [hvm]
            exact (Vm.answered w.vm c).inPlace.outbox.trans hw.quiet
          have hnext := h.2 (w.command c).1 (w.command c).2.vm (Prod.ext hanswer hvm)
          refine (ih _ hnext (hw.machineOnly honward hquiet)).mono fun a w'' hpost => ?_
          exact ⟨honward.trans hpost.1, hpost.2⟩
      | publish _ => exact h.1.elim
      | deliver _ => exact h.1.elim
      | clock => exact h.1.elim

namespace TracePlan

variable {α β : Type} {p : TracePlan} {st : SessionState} {w : World}

/-- The session is at work in the world: its bridge is ready, and commands pass. -/
structure AtWork (p : TracePlan) (st : SessionState) (w : World) : Prop extends w.Unhindered where
  ready : p.bridge.Ready st.bridge w.vm

/-- The routine does not fail, and of the session only the bridge learns; what comes of it
satisfies `post`. -/
def Achieves (p : TracePlan) (t : SessionRoutine α) (st : SessionState) (w : World)
    (post : α → Vm → Prop) : Prop :=
  t.Meets .world (fun a st' w' => st' = { st with bridge := st'.bridge } ∧ w.MachineOnly w' ∧
    w.vm.Extended w'.vm ∧ p.AtWork st' w' ∧ post a w'.vm) (fun _ _ _ => False) st w

variable {post : α → Vm → Prop}

theorem achieves_inBridge {t : BridgeRoutine α} (h : p.bridge.Achieves t st.bridge w.vm post)
    (hw : w.Unhindered) : p.Achieves (inBridge t) st w post := by
  have hworld : t.Meets .world (fun a s' w' => w.MachineOnly w' ∧ w'.vm.outbox = [] ∧
      p.bridge.Ready s' w'.vm ∧ w.vm.Extended w'.vm ∧ post a w'.vm)
      (fun _ _ _ => False) st.bridge w := by
    unfold Bridge.Achieves Bridge.Yields Routine.Meets at h
    unfold Routine.Meets
    refine (h.passed hw).mono ?_
    rintro ⟨r, s'⟩ w' ⟨honward, hquiet, hpost⟩
    cases r with
    | ok a => exact ⟨honward, hquiet, hpost⟩
    | error e => exact hpost
  unfold Achieves inBridge
  rw [Routine.meets_within]
  refine hworld.mono ?_ fun _ _ _ h => h
  rintro a s' w' ⟨honward, hquiet, hready, hextended, hpost⟩
  exact ⟨rfl, honward, hextended, ⟨hw.machineOnly honward hquiet, hready⟩, hpost⟩

theorem achieves_pure {a : α} (hw : p.AtWork st w) (hpost : post a w.vm) :
    p.Achieves (pure a) st w post :=
  Routine.meets_pure.mpr ⟨rfl, .refl w, .refl hw.ready.equipped, hw, hpost⟩

theorem Achieves.bind {t : SessionRoutine α} {f : α → SessionRoutine β}
    {post' : β → Vm → Prop} (h : p.Achieves t st w post)
    (hnext : ∀ a st' w', st' = { st with bridge := st'.bridge } → p.AtWork st' w' →
      w.vm.Extended w'.vm → post a w'.vm → p.Achieves (f a) st' w' post') :
    p.Achieves (t >>= f) st w post' := by
  unfold Achieves
  rw [Routine.meets_bind]
  refine Routine.Meets.mono h ?_ fun _ _ _ h => h
  rintro a st' w' ⟨hst, honward, hextended, hworks, hpost⟩
  refine (hnext a st' w' hst hworks hextended hpost).mono ?_ fun _ _ _ h => h
  rintro a' st'' w'' ⟨hst', honward', hextended', hworks', hpost'⟩
  refine ⟨?_, honward.trans honward', hextended.trans hextended', hworks', hpost'⟩
  rw [hst', hst]

theorem achieves_get_bind {f : SessionState → SessionRoutine α}
    (h : p.Achieves (f st) st w post) : p.Achieves (get >>= f) st w post :=
  Routine.meets_bind.mpr (Routine.meets_get.mpr h)

theorem achieves_clock_bind {f : Action.clock.Reply → SessionRoutine α}
    (h : p.Achieves (f w.now) st w post) : p.Achieves (perform .clock >>= f) st w post := by
  unfold Achieves
  rw [Routine.meets_bind, Routine.meets_perform]
  refine ⟨trivial, fun r w' hr => ?_⟩
  obtain ⟨rfl, rfl⟩ := Prod.mk.inj (show (r, w') = (w.now, w) from hr)
  exact h

/-- A routine that succeeds, run in its world. -/
theorem Achieves.run {t : SessionRoutine α} (h : p.Achieves t st w post) :
    ∃ a st' w', w.runRoutine t st = ((.ok a, st'), w') ∧
      st' = { st with bridge := st'.bridge } ∧ w.MachineOnly w' ∧ w.vm.Extended w'.vm ∧
        p.AtWork st' w' ∧ post a w'.vm := by
  unfold Achieves Routine.Meets at h
  have hrun := Program.meets_world.mp h
  unfold World.runRoutine
  generalize Program.run World.perform (t st) w = r at hrun ⊢
  obtain ⟨⟨r, st'⟩, w'⟩ := r
  cases r with
  | ok a => exact ⟨a, st', w', rfl, hrun⟩
  | error e => exact hrun.elim

end TracePlan

/-! ## The reports of a chain -/

/-- The handler as it was made for its call. -/
def StageHandler.blank : StageHandler → StageHandler
  | source element sequential => source element sequential
  | intermediate k => intermediate { k with before := none, after := none }
  | parallel k => parallel { k with before := none, after := none }
  | terminal k _ => terminal { k with before := none, after := none } none
  | matching element predicateType _ _ => matching element predicateType none none
  | optional k _ => optional { k with before := none, after := none } none
  | collection k _ => collection { k with before := none, after := none } none

theorem StageHandler.blank_kind (h : StageHandler) : h.blank.kind = h.kind := by
  cases h <;> rfl

/-- A call that passes the stream on has a handler with two maps. -/
theorem StageHandler.eq_of_blank_forIntermediate {h : StageHandler} {call : StreamCall}
    (hh : h.blank = forIntermediate call) : ∃ k, h = .intermediate k ∨ h = .parallel k := by
  cases h with
  | intermediate k => exact ⟨k, .inl rfl⟩
  | parallel k => exact ⟨k, .inr rfl⟩
  | _ =>
      simp only [blank, forIntermediate] at hh
      split at hh <;> cases hh

/-- The consuming call has a handler that tells a result. -/
theorem StageHandler.blank_ne_forTerminal {h : StageHandler} {call : StreamCall}
    (hh : h.blank = forTerminal call) :
    (∀ element sequential, h ≠ .source element sequential) ∧ (∀ k, h ≠ .intermediate k) ∧
      ∀ k, h ≠ .parallel k := by
  unfold forTerminal at hh
  refine ⟨fun element sequential => ?_, fun k => ?_, fun k => ?_⟩ <;> rintro rfl <;>
    simp only [blank] at hh <;> (repeat' split at hh) <;> cases hh

/-- The consuming call has its record, its result can be told, and the clock stands at `now`. -/
structure Vm.TerminalRecorded (vm : Vm) (clock : Value) (now : Int32) (h : StageHandler)
    (r : StageRecord) : Prop where
  record : vm.Records h r
  clock : ∃ id, clock.objectId? = some id ∧ vm.HasObject id ClassName.atomicInteger (.counter now)
  result : ∃ t, vm.Reads (h.noted?.getD .void) t
  optional : ∀ k result, h = .optional k result →
    ∃ element content, vm.HoldsOptional element result content

theorem Vm.TerminalRecorded.extended {vm vm' : Vm} {clock : Value} {now : Int32} {h : StageHandler}
    {r : StageRecord} (hc : vm.TerminalRecorded clock now h r) (ht : vm.Extended vm') :
    vm'.TerminalRecorded clock now h r where
  record := hc.record.extended ht
  clock := hc.clock.imp fun _ h => ⟨h.1, h.2.extended ht⟩
  result := hc.result.imp fun _ h => h.extended ht
  optional k result h := by
    obtain ⟨element, content, hholds⟩ := hc.optional k result h
    exact ⟨element, content, hholds.extended ht⟩

theorem Probe.result_achieves_last {p : Probe} {s : BridgeState} {vm : Vm} {now : Int32}
    {h : StageHandler} {r : StageRecord} {call : StreamCall} (hready : p.bridge.Ready s vm)
    (hutils : Bridge.Resolvable vm HelperClass.utils.name) (hh : h.blank = .forTerminal call)
    (hconcludes : vm.TerminalRecorded p.clock now h r) :
    p.bridge.Achieves (h.result p) s vm fun v vm' =>
      ∃ report, v = some report ∧ vm'.ReportsLast now h r report := by
  obtain ⟨hsource, hintermediate, hparallel⟩ := StageHandler.blank_ne_forTerminal hh
  obtain ⟨hrecord, ⟨id, hid, hcounter⟩, ⟨t, ht⟩, hoptional⟩ := hconcludes
  cases h with
  | source element sequential => exact absurd rfl (hsource element sequential)
  | intermediate k => exact absurd rfl (hintermediate k)
  | parallel k => exact absurd rfl (hparallel k)
  | terminal k result => exact result_achieves_terminal hready hutils hrecord
  | matching element predicateType maps result =>
      exact result_achieves_matching hready hutils hrecord ht
  | optional k result =>
      obtain ⟨element, content, hholds⟩ := hoptional k result rfl
      exact result_achieves_optional hready hutils hrecord hholds
  | collection k result => exact result_achieves_collection hready hutils hrecord hid hcounter

/-- What a trace has recorded when its chain is through: a record of each call and the result of
the last one, or the exception that was raised. -/
structure TracePlan.Recorded (p : TracePlan) (st : SessionState) (vm : Vm)
    (handled : List (StageHandler × StageRecord)) (last : StageHandler) (record : StageRecord)
    (now : Int32) : Prop where
  stages : (st.stages.drop (if st.hasSourceStage then 1 else 0)).map (·.handler) =
    handled.map Prod.fst ++ [last]
  intermediate : handled.map (·.1.blank) = p.chain.intermediate.map .forIntermediate
  terminal : last.blank = .forTerminal p.chain.terminal.toStreamCall
  records : ∀ hr ∈ handled, vm.Records hr.1 hr.2
  terminalRecorded : vm.TerminalRecorded st.clock now last record
  thrown : ∀ exception, st.thrown = some exception → ∃ t, vm.Reads (.object exception) t

theorem TracePlan.Recorded.extended {p : TracePlan} {st st' : SessionState} {vm vm' : Vm}
    {handled : List (StageHandler × StageRecord)} {last : StageHandler} {record : StageRecord}
    {now : Int32} (h : p.Recorded st vm handled last record now) (ht : vm.Extended vm')
    (hst : st' = { st with bridge := st'.bridge }) :
    p.Recorded st' vm' handled last record now := by
  rw [hst]
  exact { h with
    records := fun hr hmem => (h.records hr hmem).extended ht
    terminalRecorded := h.terminalRecorded.extended ht
    thrown := fun exception hexception => (h.thrown exception hexception).imp
      fun _ hread => hread.extended ht }

/-- The handlers report, one after the other. -/
def reportsOf (p : Probe) : List StageHandler → BridgeRoutine (List Value)
  | [] => return []
  | h :: rest => do
    let report ← h.result p
    let reports ← reportsOf p rest
    return report.toList ++ reports

theorem reportsOf_achieves {p : Probe} {s : BridgeState} {vm : Vm} {now : Int32}
    {handled : List (StageHandler × StageRecord)} {last : StageHandler} {record : StageRecord}
    {call : StreamCall} (hlast : last.blank = .forTerminal call)
    (hbetween : ∀ hr ∈ handled, ∃ k, hr.1 = .intermediate k ∨ hr.1 = .parallel k)
    (hready : p.bridge.Ready s vm) (hutils : Bridge.Resolvable vm HelperClass.utils.name)
    (hrecords : ∀ hr ∈ handled, vm.Records hr.1 hr.2)
    (hconcludes : vm.TerminalRecorded p.clock now last record) :
    p.bridge.Achieves (reportsOf p (handled.map Prod.fst ++ [last])) s vm fun reports vm' =>
      ∃ inner final, reports = inner ++ [final] ∧
        List.Forall₂ (fun hr v => vm'.Packs hr.1 hr.2 v) handled inner ∧
        vm'.ReportsLast now last record final := by
  induction handled generalizing s vm with
  | nil =>
      refine (p.result_achieves_last hready hutils hlast hconcludes).bind ?_
      rintro _ s₁ vm₁ hready₁ - ⟨report, rfl, hreports⟩
      exact Bridge.achieves_pure hready₁ ⟨[], report, rfl, .nil, hreports⟩
  | cons hr rest ih =>
      obtain ⟨k, hk⟩ := hbetween hr List.mem_cons_self
      refine (result_achieves_between hready hutils hk (hrecords hr List.mem_cons_self)).bind ?_
      rintro _ s₁ vm₁ hready₁ hextended₁ ⟨report, rfl, hpacks⟩
      have hrest := ih (fun hr' h => hbetween hr' (List.mem_cons_of_mem _ h)) hready₁
        (hutils.extended hextended₁)
        (fun hr' h => (hrecords hr' (List.mem_cons_of_mem _ h)).extended hextended₁)
        (hconcludes.extended hextended₁)
      refine hrest.bind ?_
      rintro _ s₂ vm₂ hready₂ hextended₂ ⟨inner, final, rfl, hinner, hfinal⟩
      exact Bridge.achieves_pure hready₂ ⟨report :: inner, final, rfl,
        .cons (hpacks.extended hextended₂) hinner, hfinal⟩

/-- A bridge routine in two parts. -/
theorem TracePlan.inBridge_bind {α β : Type} (t : BridgeRoutine α) (f : α → BridgeRoutine β) :
    inBridge (t >>= f) = inBridge t >>= fun a => inBridge (f a) := by
  funext st
  show (t st.bridge >>= _) >>= _ = (t st.bridge >>= _) >>= _
  rw [Program.bind_assoc, Program.bind_assoc]
  refine congrArg _ (funext fun r => ?_)
  obtain ⟨_ | a, s⟩ := r
  · rfl
  · rfl

theorem TracePlan.collectReports_eq (p : TracePlan) (s : SessionState) (stages : List Stage) :
    gatherResults.collectReports p s stages =
      inBridge (reportsOf (p.probe s) (stages.map (·.handler))) := by
  induction stages with
  | nil => rfl
  | cons stage rest ih =>
      refine Eq.trans ?_ (inBridge_bind _ _).symm
      refine congrArg _ (funext fun report => ?_)
      refine Eq.trans ?_ (inBridge_bind _ _).symm
      rw [ih]
      rfl

namespace TracePlan

variable {p : TracePlan} {st : SessionState} {w : World} {now : Int32}
  {handled : List (StageHandler × StageRecord)} {last : StageHandler} {record : StageRecord}

/-- Every stage reports, the last one with its result. -/
theorem collectReports_achieves {s : SessionState} {call : StreamCall}
    (hlast : last.blank = .forTerminal call)
    (hbetween : ∀ hr ∈ handled, ∃ k, hr.1 = .intermediate k ∨ hr.1 = .parallel k)
    {stages : List Stage} (hstages : stages.map (·.handler) = handled.map Prod.fst ++ [last])
    (hw : p.AtWork st w) (hutils : Bridge.Resolvable w.vm HelperClass.utils.name)
    (hrecords : ∀ hr ∈ handled, w.vm.Records hr.1 hr.2)
    (hconcludes : w.vm.TerminalRecorded s.clock now last record) :
    p.Achieves (gatherResults.collectReports p s stages) st w fun reports vm' =>
      ∃ inner final, reports = inner ++ [final] ∧
        List.Forall₂ (fun hr v => vm'.Packs hr.1 hr.2 v) handled inner ∧
        vm'.ReportsLast now last record final := by
  rw [collectReports_eq, hstages]
  exact achieves_inBridge (reportsOf_achieves (p := p.probe s) hlast hbetween hw.ready hutils
    hrecords hconcludes) hw.toUnhindered

/-- The results are gathered where the recorded exception is told and the time is measured. -/
theorem gatherResults_achieves (hw : p.AtWork st w)
    (hutils : Bridge.Resolvable w.vm HelperClass.utils.name)
    (h : p.Recorded st w.vm handled last record now) :
    p.Achieves p.gatherResults st w fun results vm' =>
      results.thrown = st.thrown ∧
        List.Forall₂ (fun hr v => vm'.Packs hr.1 hr.2 v) handled results.intermediate ∧
        vm'.ReportsLast now last record results.terminal := by
  have hbetween : ∀ hr ∈ handled, ∃ k, hr.1 = .intermediate k ∨ hr.1 = .parallel k := by
    intro hr hmem
    have hblank := List.mem_map_of_mem (f := fun hr => hr.1.blank) hmem
    rw [h.intermediate] at hblank
    obtain ⟨call, -, hcall⟩ := List.mem_map.mp hblank
    exact StageHandler.eq_of_blank_forIntermediate hcall.symm
  refine achieves_get_bind ?_
  refine (collectReports_achieves h.terminal hbetween h.stages hw hutils h.records
    h.terminalRecorded).bind ?_
  rintro _ st₁ w₁ - hworks₁ - ⟨inner, final, rfl, hinner, hfinal⟩
  refine achieves_clock_bind ?_
  rw [List.getLast?_concat]
  refine achieves_pure hworks₁ ⟨rfl, ?_, hfinal⟩
  rw [List.dropLast_concat]
  exact hinner

end TracePlan

/-! ## Packed and read back -/

/-- The trace shows what was recorded: each call in order with its two sides, what the consuming
call tells, and how it ended. -/
structure Vm.ShowsTrace (vm : Vm) (chain : StreamChain)
    (handled : List (StageHandler × StageRecord)) (last : StageHandler) (record : StageRecord)
    (now : Int32) (thrown : Option ObjectId) (trace : ChainTrace) : Prop where
  calls : trace.stages.map (·.call) = chain.intermediate.map (·.name) ++ [chain.terminal.name]
  stages : List.Forall₂ (fun hr stage => vm.ShowsStage hr.1 hr.2 stage)
    (handled ++ [(last, record)]) trace.stages
  terminal : vm.HasPayload now last trace.terminal
  outcome : vm.Ends thrown chain.terminal.returnsVoid last.noted? trace.outcome

theorem TracePlan.Recorded.readBack_achieves {p : TracePlan} {st : SessionState}
    {s : BridgeState} {vm : Vm} {now : Int32} {handled : List (StageHandler × StageRecord)}
    {last : StageHandler} {record : StageRecord} (h : p.Recorded st vm handled last record now)
    (hready : p.bridge.Ready s vm) (hcount : p.chain.intermediate.length + 1 < 2 ^ 31)
    {results : RawResults} (hresults : results.thrown = st.thrown ∧
      List.Forall₂ (fun hr v => vm.Packs hr.1 hr.2 v) handled results.intermediate ∧
      vm.ReportsLast now last record results.terminal) :
    p.bridge.Achieves (p.bridge.pack results >>= Bridge.interpret p.chain) s vm
      fun trace vm' => vm'.ShowsTrace p.chain handled last record now st.thrown trace ∧
        trace.elapsedMs = results.elapsedMs := by
  have hlength : p.chain.intermediate.length = handled.length := by
    have hmaps := congrArg List.length h.intermediate
    simpa using hmaps.symm
  obtain ⟨intermediate, terminal, thrown, elapsedMs⟩ := results
  obtain ⟨rfl, hpacks, hreports⟩ := hresults
  refine (Bridge.pack_achieves hready hpacks hreports (hlength ▸ hcount) elapsedMs).bind ?_
  rintro packed s₁ vm₁ hready₁ hextended ⟨payload, hpays, hpacked⟩
  have hkind : (StageHandler.forTerminal p.chain.terminal.toStreamCall).kind = last.kind := by
    rw [← h.terminal, StageHandler.blank_kind]
  have hthrown : ∀ exception, st.thrown = some exception →
      ∃ t, vm₁.Reads (.object exception) t := fun exception hexception =>
    (h.thrown exception hexception).imp fun _ ht => ht.extended hextended
  have hresult : ∃ t, vm₁.Reads (resultSlot last.noted?) t :=
    h.terminalRecorded.result.imp fun _ ht => (ht.extended hextended).resultSlot
  obtain ⟨trace, hcalls, hstages, rfl, hends, rfl, hreads⟩ :=
    Bridge.interpret_learns (b := p.bridge) hpacked hlength hkind hthrown hresult
  refine (hreads _ hready₁).mono ?_
  rintro _ _ - ⟨rfl, rfl⟩
  exact ⟨⟨hcalls, hstages, hpays, hends⟩, rfl⟩

namespace TracePlan

variable {p : TracePlan} {st : SessionState} {w : World} {now : Int32}
  {handled : List (StageHandler × StageRecord)} {last : StageHandler} {record : StageRecord}

/-- What was recorded, packed into the debuggee with this elapsed time and read back. -/
def harvest (p : TracePlan) (elapsedMs : Int64) : SessionRoutine ChainTrace := do
  let results ← p.gatherResults
  let packed ← inBridge (p.bridge.pack { results with elapsedMs })
  inBridge (Bridge.interpret p.chain packed)

/-- Gathered results that are packed and read back are told as they were recorded. -/
theorem read_back_achieves (hw : p.AtWork st w) (h : p.Recorded st w.vm handled last record now)
    (hcount : p.chain.intermediate.length + 1 < 2 ^ 31) {results : RawResults}
    (hresults : results.thrown = st.thrown ∧
      List.Forall₂ (fun hr v => w.vm.Packs hr.1 hr.2 v) handled results.intermediate ∧
      w.vm.ReportsLast now last record results.terminal) :
    p.Achieves (do
      let packed ← inBridge (p.bridge.pack results)
      inBridge (Bridge.interpret p.chain packed)) st w fun trace vm' =>
        vm'.ShowsTrace p.chain handled last record now st.thrown trace ∧
          trace.elapsedMs = results.elapsedMs := by
  rw [← inBridge_bind]
  exact achieves_inBridge (h.readBack_achieves hw.ready hcount hresults) hw.toUnhindered

theorem harvest_achieves (hw : p.AtWork st w) (hrequests : w.vm.requests = [])
    (h : p.Recorded st w.vm handled last record now)
    (hcount : p.chain.intermediate.length + 1 < 2 ^ 31) (elapsedMs : Int64) :
    p.Achieves (p.harvest elapsedMs) st w fun trace vm' =>
      vm'.ShowsTrace p.chain handled last record now st.thrown trace ∧
        trace.elapsedMs = elapsedMs := by
  have hutils : Bridge.Resolvable w.vm HelperClass.utils.name :=
    .helper .utils fun r hr => by rw [hrequests] at hr; cases hr
  refine (gatherResults_achieves hw hutils h).bind ?_
  rintro results st₁ w₁ hst hworks₁ hextended ⟨hthrown, hresults⟩
  have hstays : st₁.thrown = st.thrown := by rw [hst]
  have hnext := read_back_achieves hworks₁ (h.extended hextended hst) hcount
    (show ({ results with elapsedMs } : RawResults).thrown = st₁.thrown ∧ _ ∧ _ from
      ⟨hthrown.trans hstays.symm, hresults⟩)
  rw [hstays] at hnext
  exact hnext

end TracePlan

/-! ## Where it can be done -/

/-- A debugger's bridge that starts from the program's class. -/
theorem Bridge.ready_of_equipped {b : Bridge} {vm : Vm} (hvm : vm.Equipped) (hhalted : vm.Halted)
    (hunwatched : vm.Unwatched) (hthread : b.thread = mainThread)
    (hclass : b.frameClass = vm.appClass "Main") (hfiles : b.classFiles = HelperClass.files) :
    b.Ready {} vm where
  equipped := hvm
  halted := hhalted
  unwatched := hunwatched
  fits := BridgeState.fits_empty vm
  thread := hthread
  frame := by
    have hspec : { name := "Main", methods := [("main", "([Ljava/lang/String;)V", true),
        ("run", "()V", false)] : ClassSpec } ∈ programSpecs := by simp [programSpecs]
    obtain ⟨c, hc, hdeclares, -⟩ := hvm.program _ hspec
    refine ⟨c, hc, ?_, hdeclares.loader⟩
    have hname : c.name = "Main" := hdeclares.name
    rw [hclass, ← hname]
    exact (hvm.appClass hc (by simp [ClassDef.visibleTo, hdeclares.loader])).symm
  files := hfiles ▸ files_fit

/-! ### One trace -/

/-- A program whose chain goes through one call before it is consumed. -/
def recordedProgram : StreamProgram := { StreamProgram.objects [.int 5] with stages := [.parallel] }

/-- A clock and a map are made. -/
def Vm.recorded (vm : Vm) : Vm :=
  let vm := vm.make { type := vm.appClass ClassName.atomicInteger, object := .counter 2 }
  vm.make { type := vm.appClass ClassName.linkedHashMap, object := .map [(1, .int 5)] }

def recordedPlan (vm : Vm) : TracePlan where
  options := { classFiles := HelperClass.files }
  chain := recordedProgram.chain
  thread := mainThread
  invoking := { (default : Location) with typeId := vm.appClass "Main" }
  baseDepth := 2

/-- The call that passes the stream on has recorded what entered it. -/
def recordedHandler (vm : Vm) : StageHandler :=
  .parallel { typeBefore := some .object, typeAfter := some .object
              before := some (.object (vm.nextId + 2)) }

/-- One element was counted. -/
def countedHandler : StageHandler :=
  .terminal { typeBefore := some .object, typeAfter := none } (some (.long 1))

def recordedSession (vm : Vm) : SessionState :=
  let breakpoint : Breakpoint :=
    { kind := .entry, signature := StreamProgram.streamSignature, declaringType := 0
      method := default }
  let stage (handler : StageHandler) : Stage := { handler, entry := breakpoint, exit := breakpoint }
  { clock := .object (vm.nextId + 1), stages := [stage (recordedHandler vm), stage countedHandler] }

section

variable {vm : Vm} (hvm : vm.Equipped)

include hvm

theorem recorded_atWork (hhalted : vm.Halted) (hrequests : vm.requests = [])
    (hquiet : vm.outbox = []) :
    (recordedPlan vm).AtWork (recordedSession vm) { vm := vm.recorded, thread := none } := by
  have hunwatched : vm.recorded.Unwatched := by
    intro r hr
    have hmem : r ∈ vm.requests := hr
    rw [hrequests] at hmem
    cases hmem
  refine ⟨⟨hquiet, fun _ _ _ => rfl⟩, ?_⟩
  exact Bridge.ready_of_equipped ((hvm.make _).make _) ⟨hhalted.alive, hhalted.suspended⟩
    hunwatched rfl rfl rfl

theorem recorded_terminalRecorded :
    vm.recorded.TerminalRecorded (.object (vm.nextId + 1)) 2 countedHandler ⟨[], []⟩ := by
  have hclock : vm.recorded.HasObject (vm.nextId + 1) ClassName.atomicInteger (.counter 2) :=
    (hasObject_make hvm clockSpec_library _).extended (extended_make (hvm.make _) _)
  have hnothing : ∀ element : Option ElementType, vm.recorded.Recorded element none [] :=
    fun _ => ⟨fun _ => rfl, nofun⟩
  have hcounted : vm.recorded.Reads (.long 1) (.long 1) := .plain rfl
  exact ⟨⟨hnothing _, hnothing _⟩, ⟨vm.nextId + 1, rfl, hclock⟩, ⟨_, hcounted⟩,
    by simp [countedHandler]⟩

theorem recorded_recorded :
    (recordedPlan vm).Recorded (recordedSession vm) vm.recorded
      [(recordedHandler vm, ⟨[(1, .int 5)], []⟩)] countedHandler ⟨[], []⟩ 2 where
  stages := rfl
  intermediate := by
    have hblank : (recordedHandler {}).blank = .forIntermediate
        (StreamProgram.streamCall .object "parallel" .none (some .object)) := by decide
    exact congrArg (fun h => [h]) hblank
  terminal := by
    have hblank : countedHandler.blank =
        .forTerminal recordedProgram.chain.terminal.toStreamCall := by decide
    exact hblank
  records := by
    intro hr hmem
    obtain rfl := List.mem_singleton.mp hmem
    have hmap : vm.recorded.HasObject (vm.nextId + 2) ClassName.linkedHashMap
        (.map [(1, .int 5)]) := hasObject_make (hvm.make _) mapSpec_library _
    refine ⟨⟨nofun, ?_⟩, fun _ => rfl, nofun⟩
    rintro _ - ⟨⟩
    exact ⟨vm.nextId + 2, rfl, hmap⟩
  terminalRecorded := recorded_terminalRecorded hvm
  thrown := nofun

end

end StreamTrace
