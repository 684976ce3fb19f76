import StreamTrace.Machine.World
import StreamTrace.Proofs.Debugger.Choices
import StreamTrace.Proofs.Debugger.TraceDiscipline
import StreamTrace.Proofs.Machine.LaunchedMachine

/-!
# Invocations end

On the simulated machine an invocation of the debugger gets stuck when it raises an event that is
asked for. While a trace keeps to its rules none does: the machine knows no request for methods or
exceptions but those that the history of the trace tells of.
-/

namespace StreamTrace

/-! ## The machine and the history -/

namespace Vm

variable {vm vm' : Vm} {h : History}

/-- The machine has died, or every request for methods or exceptions that is set on it is
installed by the history. -/
def Agrees (vm : Vm) (h : History) : Prop :=
  vm.dead = true ∨ h.ClearsSucceed ∧ ∀ r ∈ vm.requests,
    isMethodKind r.kind = true ∨ r.kind = EventKind.exception → (r.kind, r.id) ∈ h.installed

theorem Agrees.continues (ha : vm.Agrees h) (hc : vm.Continues vm') : vm'.Agrees h := by
  rcases ha with hdead | ⟨hclears, hrequests⟩
  · exact .inl (hc.dead hdead)
  · exact .inr ⟨hclears, fun r hr => hrequests r (hc.requests r hr)⟩

theorem Agrees.unwatched (ha : vm.Agrees h) (hdead : vm.dead = false)
    (hnone : h.ClearsSucceed → h.installedMethods = []) : vm.Unwatched := by
  rcases ha with hdead' | ⟨hclears, hrequests⟩
  · rw [hdead] at hdead'
    cases hdead'
  · intro r hr
    cases hkind : isMethodKind r.kind with
    | false => rfl
    | true =>
        have hmem : (r.kind, r.id) ∈ h.installedMethods :=
          List.mem_filter.mpr ⟨hrequests r hr (.inl hkind), hkind⟩
        rw [hnone hclears] at hmem
        cases hmem

theorem Agrees.unguarded (ha : vm.Agrees h) (hdead : vm.dead = false)
    (hnone : h.ClearsSucceed → h.installedGuards = []) : vm.Unguarded := by
  rcases ha with hdead' | ⟨hclears, hrequests⟩
  · rw [hdead] at hdead'
    cases hdead'
  · intro r hr hkind
    have hmem : (r.kind, r.id) ∈ h.installedGuards :=
      List.mem_filter.mpr ⟨hrequests r hr (.inr hkind), by simp [hkind]⟩
    rw [hnone hclears] at hmem
    cases hmem

/-- Once a history allows everything the machine might as well have none. -/
theorem Agrees.nil (ha : vm.Agrees h) (hall : h.Allows true) : vm.Agrees [] := by
  cases hdead : vm.dead with
  | true => exact .inl hdead
  | false =>
      refine .inr ⟨History.clearsSucceed_nil, fun r hr hkind => ?_⟩
      rcases hkind with hkind | hkind
      · rw [ha.unwatched hdead (fun hc => (hall hc).1) r hr] at hkind
        cases hkind
      · exact absurd hkind (ha.unguarded hdead (fun hc => (hall hc).2 rfl) r hr)

theorem Agrees.append (ha : vm.Agrees h) {m : Moment} (hm : m.Clears)
    (hinstall : ∀ l, ∀ x ∈ l, x ∈ m.install l) : vm.Agrees (h ++ [m]) := by
  rcases ha with hdead | ⟨hclears, hrequests⟩
  · exact .inl hdead
  · refine .inr ⟨(History.clearsSucceed_append_singleton h m).mpr ⟨hclears, hm⟩, ?_⟩
    intro r hr hkind
    rw [History.installed_append_singleton]
    exact hinstall _ _ (hrequests r hr hkind)

theorem Agrees.set (ha : vm.Agrees h) {kind policy : UInt8} {modifiers : List EventModifier}
    {r : InstalledRequest} (hr : r.kind = kind) (hdead : vm'.dead = vm.dead)
    (hrequests : vm'.requests = vm.requests ++ [r]) :
    vm'.Agrees (h ++ [.sent (.setRequest kind policy modifiers) (.ok r.id)]) := by
  rcases ha with hd | ⟨hclears, hinstalled⟩
  · exact .inl (hdead.trans hd)
  · refine .inr ⟨(History.clearsSucceed_append_singleton h _).mpr ⟨hclears, trivial⟩, ?_⟩
    intro r' hr' hkind
    rw [History.installed_append_singleton]
    show (r'.kind, r'.id) ∈ h.installed ++ [((kind, r.id) : UInt8 × RequestId)]
    rw [hrequests] at hr'
    rcases List.mem_append.mp hr' with hr' | hr'
    · exact List.mem_append_left _ (hinstalled r' hr' hkind)
    · rw [List.mem_singleton.mp hr', hr]
      exact List.mem_append_right _ (List.mem_singleton_self _)

theorem Agrees.clear (ha : vm.Agrees h) (kind : UInt8) (id : RequestId) :
    ((clearRequest kind id).run vm).2.Agrees (h ++ [.sent (.clearRequest kind id) (.ok ())]) := by
  rcases ha with hd | ⟨hclears, hinstalled⟩
  · exact .inl hd
  · refine .inr ⟨(History.clearsSucceed_append_singleton h _).mpr ⟨hclears, rfl⟩, ?_⟩
    intro r hr hkind
    obtain ⟨hr, hother⟩ := List.mem_filter.mp
      (show r ∈ vm.requests.filter fun r => !(r.kind == kind && r.id == id) from hr)
    rw [History.installed_append_singleton]
    refine List.mem_filter.mpr ⟨hinstalled r hr hkind, ?_⟩
    simpa using hother

end Vm

/-! ## Worlds -/

namespace World

variable {w w' : World} {h : History}

/-- The manager's settings and phase. -/
def core? (w : World) : Option (TraceOptions × Phase) := w.manager.map fun m => (m.options, m.phase)

/-- Only the machine, the queues and the records have changed. -/
structure Beside (w w' : World) : Prop where
  thread : w'.thread = w.thread
  intercept : w'.intercept = w.intercept
  core : w'.core? = w.core?

theorem Beside.refl (w : World) : w.Beside w := ⟨rfl, rfl, rfl⟩

theorem Beside.trans {w'' : World} (h : w.Beside w') (h' : w'.Beside w'') : w.Beside w'' :=
  ⟨h'.thread.trans h.thread, h'.intercept.trans h.intercept, h'.core.trans h.core⟩

theorem notify_beside (w : World) (e : Event) : w.Beside (w.notify e) := by
  refine ⟨rfl, rfl, ?_⟩
  unfold core? World.notify
  cases w.manager with
  | none => rfl
  | some m =>
      show some ((m.notify e).options, (m.notify e).phase) = _
      unfold Manager.notify
      split <;> rfl

theorem notifyAll_beside (events : List Event) (w : World) :
    w.Beside (events.foldl notify w) ∧ (events.foldl notify w).vm = w.vm := by
  induction events generalizing w with
  | nil => exact ⟨.refl w, rfl⟩
  | cons e rest ih => exact ⟨(notify_beside w e).trans (ih _).1, (ih _).2⟩

theorem collect_beside (w : World) : w.Beside w.collect := by
  have hempty : w.Beside { w with vm := { w.vm with outbox := [] } } := ⟨rfl, rfl, rfl⟩
  exact hempty.trans (notifyAll_beside _ _).1

theorem collect_continues (w : World) : w.vm.Continues w.collect.vm := by
  rw [collect, (notifyAll_beside _ _).2]
  exact .of_eq rfl rfl rfl rfl id

theorem logCommand_beside (w : World) (c : Command) :
    w.Beside (w.logCommand c) ∧ (w.logCommand c).vm = w.vm := by
  unfold logCommand logState
  split <;> exact ⟨⟨rfl, rfl, rfl⟩, rfl⟩

/-- A command is answered in place of the machine, or by the machine. -/
theorem command_cases (w : World) (c : Command) :
    w.Beside (w.command c).2 ∧
      ((∃ n, w.intercept c n = some (w.command c).1 ∧ (w.command c).2.vm = w.vm) ∨
        (w.command c).1 = (w.vm.answer c).1 ∧
          (w.vm.answer c).2.Continues (w.command c).2.vm) := by
  obtain ⟨hbeside, hvm⟩ := logCommand_beside w c
  unfold World.command
  simp only [hbeside.intercept, hvm]
  cases hi : w.intercept c ((w.logCommand c).sentCount c) with
  | some r => exact ⟨hbeside, .inl ⟨_, hi, hvm⟩⟩
  | none =>
      let answered : World :=
        { w.logCommand c with intercept := w.intercept, vm := (w.vm.answer c).2 }
      have hanswered : w.Beside answered := ⟨hbeside.thread, rfl, hbeside.core⟩
      exact ⟨hanswered.trans (collect_beside _), .inr ⟨rfl, collect_continues answered⟩⟩

theorem perform_beside (w : World) (a : Action) : w.Beside (w.perform a).2 := by
  cases a with
  | command c => exact (command_cases w c).1
  | _ => exact ⟨rfl, rfl, rfl⟩

/-! ## What holds of every world -/

/-- No invocation got stuck, the program will get none stuck, and the machine itself answers when
a request is to be cleared. -/
structure Sound (w : World) : Prop where
  stalled : w.vm.stalled = []
  fits : w.vm.classes.Fits
  thread : ∀ resume, w.thread = some resume → ∀ vm, (resume vm).Keeps vm
  clears : ∀ kind id n, w.intercept (.clearRequest kind id) n = none

theorem Sound.continues (hw : w.Sound) (hbeside : w.Beside w') (hvm : w.vm.Continues w'.vm) :
    w'.Sound :=
  ⟨hvm.stalled.trans hw.stalled, hvm.fits hw.fits, hbeside.thread ▸ hw.thread,
    hbeside.intercept ▸ hw.clears⟩

/-- A command that sets no request, and that is no invocation which meets one, lets the machine go
on. -/
theorem command_continues {c : Command} (hset : c.setsRequest = false)
    (hrun : c.isInvocation = true → w.vm.dead = false →
      w.vm.classes.Fits ∧ w.vm.Unwatched ∧ (c.findsClass = true → w.vm.Unguarded)) :
    w.vm.Continues (w.command c).2.vm := by
  obtain ⟨-, ⟨n, -, hvm⟩ | ⟨-, hvm⟩⟩ := command_cases w c
  · rw [hvm]
    exact .refl _
  · exact (Vm.answer_continues hset hrun).trans hvm

/-- What a command that sets a request does to the machine. -/
theorem setRequest_continues (w : World) (kind policy : UInt8) (modifiers : List EventModifier) :
    let r := w.command (.setRequest kind policy modifiers)
    w.vm.Continues r.2.vm ∨ ∃ vm : Vm, vm.Continues r.2.vm ∧ vm.stalled = w.vm.stalled ∧
      vm.classes = w.vm.classes ∧ vm.dead = w.vm.dead ∧
      ∃ request : InstalledRequest, request.kind = kind ∧
        r.1 = (.ok request.id : Except JdwpError RequestId) ∧
        vm.requests = w.vm.requests ++ [request] := by
  show _ ∨ _
  obtain ⟨-, ⟨n, -, hvm⟩ | ⟨hanswer, hvm⟩⟩ := command_cases w (.setRequest kind policy modifiers)
  · rw [hvm]
    exact .inl (.refl _)
  · rw [Vm.answer_setRequest] at hanswer hvm
    cases hdead : w.vm.dead with
    | true =>
        rw [hdead] at hvm
        exact .inl hvm
    | false =>
        rw [hdead] at hanswer hvm
        obtain ⟨hstalled, hclasses, hd, hrequests⟩ := Vm.installRequest_snd w.vm kind modifiers
        refine .inr ⟨_, hvm, hstalled, hclasses, hd.trans hdead, _, rfl, ?_, hrequests⟩
        rw [← Vm.installRequest_fst w.vm kind modifiers]
        exact hanswer

/-- A permitted action leaves a sound world that agrees with the history. -/
theorem perform_sound {thread : ThreadId} {sigs : List MethodSignature} {a : Action}
    (hw : w.Sound) (ha : w.vm.Agrees h)
    (hpermits : ∀ c, a = .command c → History.Permits thread sigs h c) :
    (w.perform a).2.Sound ∧ (w.perform a).2.vm.Agrees (h ++ [.did a (w.perform a).1]) := by
  have hbeside := perform_beside w a
  -- An action that lets the machine go on, and that neither sets nor clears a request.
  have hquiet : w.vm.Continues (w.perform a).2.vm → Moment.Clears (.did a (w.perform a).1) →
      (∀ l, ∀ x ∈ l, x ∈ Moment.install l (.did a (w.perform a).1)) →
        (w.perform a).2.Sound ∧ (w.perform a).2.vm.Agrees (h ++ [.did a (w.perform a).1]) :=
    fun hvm hclears hinstall =>
      ⟨hw.continues hbeside hvm, (ha.append hclears hinstall).continues hvm⟩
  cases a with
  | publish s => exact hquiet (.refl _) trivial fun _ _ hx => hx
  | deliver r => exact hquiet (.refl _) trivial fun _ _ hx => hx
  | clock => exact hquiet (.refl _) trivial fun _ _ hx => hx
  | command c =>
      have hrun : c.isInvocation = true → w.vm.dead = false →
          w.vm.classes.Fits ∧ w.vm.Unwatched ∧ (c.findsClass = true → w.vm.Unguarded) :=
        fun hinvoke hdead => ⟨hw.fits, ha.unwatched hdead ((hpermits c rfl).invocation hinvoke),
          fun hfind => ha.unguarded hdead ((hpermits c rfl).finding hfind)⟩
      cases c with
      | setRequest kind policy modifiers =>
          rcases setRequest_continues w kind policy modifiers with hvm | hset
          · refine hquiet hvm trivial fun l x hx => ?_
            generalize (w.perform (.command (.setRequest kind policy modifiers))).1 = r
            cases r with
            | error e => exact hx
            | ok id => exact List.mem_append_left _ hx
          · obtain ⟨vm, hvm, hstalled, hclasses, hdead, request, hkind, hanswer, hrequests⟩ := hset
            refine ⟨⟨hvm.stalled.trans (hstalled.trans hw.stalled),
              hvm.fits (hclasses ▸ hw.fits), hbeside.thread ▸ hw.thread,
              hbeside.intercept ▸ hw.clears⟩, ?_⟩
            have hmoment : Moment.did (.command (.setRequest kind policy modifiers))
                (w.perform (.command (.setRequest kind policy modifiers))).1 =
                .sent (.setRequest kind policy modifiers) (.ok request.id) := congrArg _ hanswer
            rw [hmoment]
            exact (ha.set hkind hdead hrequests).continues hvm
      | clearRequest kind id =>
          obtain ⟨-, ⟨n, hintercept, -⟩ | ⟨hanswer, hvm⟩⟩ := command_cases w (.clearRequest kind id)
          · rw [hw.clears] at hintercept
            cases hintercept
          · rw [Vm.answer_clearRequest] at hanswer hvm
            cases hdead : w.vm.dead with
            | true =>
                rw [hdead] at hvm
                exact ⟨hw.continues hbeside hvm, .inl (hvm.dead hdead)⟩
            | false =>
                rw [hdead] at hanswer hvm
                have hclear : w.vm.Continues ((Vm.clearRequest kind id).run w.vm).2 :=
                  Vm.clearRequest_keeps kind id w.vm
                have hgo := hclear.trans hvm
                have hmoment : Moment.did (.command (.clearRequest kind id))
                    (w.perform (.command (.clearRequest kind id))).1 =
                    .sent (.clearRequest kind id) (.ok ()) := congrArg _ hanswer
                rw [hmoment]
                exact ⟨hw.continues hbeside hgo, (ha.clear kind id).continues hvm⟩
      | _ => exact hquiet (command_continues rfl hrun) trivial fun _ _ hx => hx

/-! ## The manager's programs -/

section

variable {options : TraceOptions} {request : TraceRequest}

/-- What is left of a trace runs on a sound world. -/
theorem run_sound {p : Program Continuation} (run : TraceRun options request h p) (hw : w.Sound)
    (ha : w.vm.Agrees h) :
    (Program.run perform p w).2.Sound ∧ w.Beside (Program.run perform p w).2 ∧
      ∃ h', TraceRun options request h' (.done (Program.run perform p w).1) ∧
        (Program.run perform p w).2.vm.Agrees h' := by
  induction p generalizing h w with
  | done k => exact ⟨hw, .refl w, h, run, ha⟩
  | act a next ih =>
      obtain ⟨hsound, hagrees⟩ := perform_sound hw ha run.disciplined.2.1
      obtain ⟨hsound', hbeside, hrest⟩ := ih _ (run.act (w.perform a).1) hsound hagrees
      exact ⟨hsound', (perform_beside w a).trans hbeside, hrest⟩

/-- The machine agrees with the history of the trace in flight, or with none. -/
def Fits (options : TraceOptions) (vm : Vm) : Phase → Prop
  | .idle => vm.Agrees []
  | .stopped => vm.Agrees []
  | .working p => ∃ request h, TraceRun options request h p ∧ vm.Agrees h
  | .listening t => ∃ request h, TraceRun options request h (.done (.listen t)) ∧ vm.Agrees h

theorem Fits.continues {vm vm' : Vm} {phase : Phase} (hf : Fits options vm phase)
    (hc : vm.Continues vm') : Fits options vm' phase := by
  cases phase with
  | idle => exact Vm.Agrees.continues hf hc
  | stopped => exact Vm.Agrees.continues hf hc
  | working p =>
      obtain ⟨request, h, run, ha⟩ := hf
      exact ⟨request, h, run, ha.continues hc⟩
  | listening t =>
      obtain ⟨request, h, run, ha⟩ := hf
      exact ⟨request, h, run, ha.continues hc⟩

/-- Every choice of a manager keeps its phase fitting. -/
theorem choose_fits {m m' : Manager} {c : Manager.Choice} {vm : Vm} (hm : m.choose c = some m')
    (ho : m.options = options) (hf : Fits options vm m.phase) :
    m'.options = options ∧ Fits options vm m'.phase := by
  subst ho
  cases Manager.chosen_of_choose hm with
  | resume r rest phase | receive r rest phase =>
      rw [phase] at hf
      exact ⟨rfl, r, [], .start, hf⟩
  | stop phase =>
      rw [phase] at hf
      exact ⟨rfl, hf⟩
  | finish phase =>
      rw [phase] at hf
      obtain ⟨request, h, run, ha⟩ := hf
      have hnone := ha.nil run.disciplined.2
      refine ⟨rfl, ?_⟩
      dsimp only
      split <;> exact hnone
  | listen t phase =>
      rw [phase] at hf
      exact ⟨rfl, hf⟩
  | queue | close => exact ⟨rfl, hf⟩
  | event t e rest phase =>
      rw [phase] at hf
      obtain ⟨request, h, run, ha⟩ := hf
      exact ⟨rfl, request, h ++ [.heard e], run.event e,
        ha.append (m := .heard e) trivial fun _ _ hx => hx⟩
  | cancel t phase | lose t phase =>
      rw [phase] at hf
      obtain ⟨request, h, run, ha⟩ := hf
      exact ⟨rfl, request, h, run.cancel _, ha⟩

/-! ## Taking turns -/

/-- A sound world whose manager, if there is one, fits the machine. -/
structure Fair (options : TraceOptions) (w : World) : Prop extends w.Sound where
  manager : ∀ o phase, w.core? = some (o, phase) → o = options ∧ Fits options w.vm phase

theorem Fair.continues (hw : w.Fair options) (hbeside : w.Beside w')
    (hvm : w.vm.Continues w'.vm) : w'.Fair options := by
  refine ⟨hw.toSound.continues hbeside hvm, fun o phase hcore => ?_⟩
  rw [hbeside.core] at hcore
  obtain ⟨ho, hf⟩ := hw.manager o phase hcore
  exact ⟨ho, hf.continues hvm⟩

theorem Fair.of_manager (hw : w.Fair options) {m : Manager} (hm : w.manager = some m) :
    m.options = options ∧ Fits options w.vm m.phase :=
  hw.manager m.options m.phase (by simp [core?, hm])

theorem Fair.withManager (hw : w.Sound) {m : Manager} (ho : m.options = options)
    (hf : Fits options w.vm m.phase) : Fair options { w with manager := some m } := by
  refine ⟨⟨hw.stalled, hw.fits, hw.thread, hw.clears⟩, fun o phase hcore => ?_⟩
  obtain ⟨rfl, rfl⟩ := Prod.mk.inj (Option.some.inj hcore)
  exact ⟨ho, hf⟩

theorem Fair.collect (hw : w.Fair options) : w.collect.Fair options :=
  hw.continues (collect_beside w) (collect_continues w)

theorem Fair.work (hw : w.Fair options) : w.work.Fair options := by
  unfold World.work
  cases hm : w.manager with
  | none => exact hw
  | some m =>
      obtain ⟨ho, hf⟩ := hw.of_manager hm
      dsimp only
      split
      · rename_i p hphase
        rw [hphase] at hf
        obtain ⟨request, h, run, ha⟩ := hf
        obtain ⟨hsound, hbeside, h', run', ha'⟩ := run_sound run hw.toSound ha
        generalize Program.run perform p w = ended at hsound hbeside run' ha' ⊢
        have hcore := hbeside.core
        cases hm' : ended.2.manager with
        | none => simp [core?, hm, hm'] at hcore
        | some m' =>
            simp only [core?, hm, hm', Option.map_some, Option.some.injEq, Prod.mk.injEq] at hcore
            exact Fair.withManager (m := { m' with phase := .working (.done ended.1) }) hsound
              (hcore.1.trans ho) ⟨request, h', run', ha'⟩
      · exact hw

theorem Fair.manage (hw : w.Fair options) (steps : Nat) : (manage steps w).Fair options := by
  induction steps generalizing w with
  | zero => exact hw
  | succ steps ih =>
      have hwork := hw.work
      unfold World.manage
      dsimp only
      cases hm : w.work.manager with
      | none => exact hwork
      | some m =>
          simp only [Option.bind_some]
          cases hnext : m.next? with
          | none => exact hwork
          | some m' =>
              obtain ⟨c, -, hc⟩ := List.exists_of_findSome?_eq_some hnext
              obtain ⟨ho, hf⟩ := hwork.of_manager hm
              obtain ⟨ho', hf'⟩ := choose_fits hc ho hf
              exact ih (Fair.withManager hwork.toSound ho' hf')

theorem Fair.manageAll (hw : w.Fair options) : w.manageAll.Fair options := by
  unfold World.manageAll
  split
  · exact hw
  · exact hw.manage _

theorem Fair.settleAt {run : Run Unit} (hw : w.Fair options) (hrun : run.Keeps w.vm) :
    (settleAt run w).Fair options := by
  induction run generalizing w with
  | ended u vm =>
      refine Fair.manageAll (Fair.collect ⟨⟨hrun.stalled.trans hw.stalled, hrun.fits hw.fits,
        fun _ hresume => by simp at hresume, hw.clears⟩, fun o phase hcore => ?_⟩)
      obtain ⟨ho, hf⟩ := hw.manager o phase hcore
      exact ⟨ho, hf.continues hrun⟩
  | waiting vm resume ih =>
      obtain ⟨hvm, -, hresume⟩ := hrun
      have hmanaged : Fair options
          (World.manageAll { w with vm, thread := some resume }.collect) := by
        refine Fair.manageAll (Fair.collect ⟨⟨hvm.stalled.trans hw.stalled, hvm.fits hw.fits,
          fun resume' hresume' => ?_, hw.clears⟩, fun o phase hcore => ?_⟩)
        · obtain rfl := Option.some.inj hresume'
          exact hresume
        · obtain ⟨ho, hf⟩ := hw.manager o phase hcore
          exact ⟨ho, hf.continues hvm⟩
      unfold World.settleAt
      dsimp only
      split
      · exact ih _ hmanaged (hresume _)
      · exact hmanaged

theorem Fair.settle (hw : w.Fair options) : w.settle.Fair options := by
  have hmanaged := hw.manageAll
  unfold World.settle
  dsimp only
  cases hthread : w.manageAll.thread with
  | none => exact hmanaged
  | some resume =>
      dsimp only
      split
      · exact hmanaged.settleAt (hmanaged.thread resume hthread _)
      · exact hmanaged

/-- A request that is neither for methods nor for exceptions makes no difference. -/
theorem Fits.setPlain {vm vm' : Vm} {phase : Phase} {r : InstalledRequest}
    (hf : Fits options vm phase) (hr : isMethodKind r.kind = false ∧ r.kind ≠ EventKind.exception)
    (hdead : vm'.dead = vm.dead) (hrequests : vm'.requests = vm.requests ++ [r]) :
    Fits options vm' phase := by
  have hagrees : ∀ h, vm.Agrees h → vm'.Agrees h := by
    rintro h (hd | ⟨hclears, hinstalled⟩)
    · exact .inl (hdead.trans hd)
    · refine .inr ⟨hclears, fun r' hr' hkind => ?_⟩
      rw [hrequests] at hr'
      rcases List.mem_append.mp hr' with hr' | hr'
      · exact hinstalled r' hr' hkind
      · rw [List.mem_singleton.mp hr', hr.1] at hkind
        rcases hkind with hkind | hkind
        · cases hkind
        · exact absurd hkind hr.2
  cases phase with
  | idle => exact hagrees [] hf
  | stopped => exact hagrees [] hf
  | working p =>
      obtain ⟨request, h, run, ha⟩ := hf
      exact ⟨request, h, run, hagrees h ha⟩
  | listening t =>
      obtain ⟨request, h, run, ha⟩ := hf
      exact ⟨request, h, run, hagrees h ha⟩

theorem Fair.setPlain {kind policy : UInt8} {modifiers : List EventModifier}
    (hw : w.Fair options) (hkind : isMethodKind kind = false ∧ kind ≠ EventKind.exception) :
    (w.command (.setRequest kind policy modifiers)).2.Fair options := by
  have hbeside := (command_cases w (.setRequest kind policy modifiers)).1
  rcases setRequest_continues w kind policy modifiers with hvm | hset
  · exact hw.continues hbeside hvm
  · obtain ⟨vm, hvm, hstalled, hclasses, hdead, request, rfl, -, hrequests⟩ := hset
    refine ⟨⟨hvm.stalled.trans (hstalled.trans hw.stalled), hvm.fits (hclasses ▸ hw.fits),
      hbeside.thread ▸ hw.thread, hbeside.intercept ▸ hw.clears⟩, fun o phase hcore => ?_⟩
    rw [hbeside.core] at hcore
    obtain ⟨ho, hf⟩ := hw.manager o phase hcore
    exact ⟨ho, (hf.setPlain hkind hdead hrequests).continues hvm⟩

theorem Fair.command {c : Command} (hw : w.Fair options) (hc : c.isPlain = true) :
    (w.command c).2.Fair options := by
  simp only [Command.isPlain, Bool.and_eq_true, Bool.not_eq_true'] at hc
  obtain ⟨hquiet, hrun⟩ := hc
  cases hset : c.setsRequest with
  | false =>
      refine hw.continues (command_cases w c).1 (command_continues hset fun h => ?_)
      rw [hrun] at h
      cases h
  | true =>
      cases c with
      | setRequest kind policy modifiers =>
          simp only [Command.isQuiet, Bool.and_eq_true, Bool.not_eq_true', bne_iff_ne] at hquiet
          exact hw.setPlain hquiet
      | _ => cases hset

end

/-! ## Every sequence of traces -/

/-- The worlds in which one manager makes its traces: chains are requested, time goes by, the
thread is resumed and the machine is looked at in any order, any command may be answered in place
of the machine but one that clears a request, and the machine can be killed. -/
inductive Reached (options : TraceOptions) : World → Prop where
  | launch (p : StreamProgram) (intercept : Interception)
      (clears : ∀ kind id n, intercept (.clearRequest kind id) n = none) :
      Reached options ((World.launch p intercept).startManager options)
  | request {w w' : World} (r : TraceRequest) (before : Reached options w)
      (queued : w.request r = .ok w') : Reached options w'
  | settle {w : World} (before : Reached options w) : Reached options w.settle
  | command {w : World} (c : Command) (before : Reached options w) (plain : c.isPlain = true) :
      Reached options (w.command c).2
  | reject {w : World} (rejects : Bool) (before : Reached options w) :
      Reached options { w with vm := { w.vm with rejectsForcedReturns := rejects } }
  | kill {w : World} (before : Reached options w) :
      Reached options { w with vm := w.vm.kill }.collect
  | shutdown {w : World} (before : Reached options w) : Reached options w.shutdown
  | record {w : World} (log : List LogEntry) (reports : List Report) (events : List Event)
      (now : Nat) (before : Reached options w) :
      Reached options { w with log, reports, events, now }

variable {options : TraceOptions}

theorem fair_launch (p : StreamProgram) {intercept : Interception}
    (clears : ∀ kind id n, intercept (.clearRequest kind id) n = none) :
    ((World.launch p intercept).startManager options).Fair options := by
  have hkeeps := p.launch_keeps
  have hagrees : ∀ vm, Vm.Continues {} vm → vm.Agrees [] := fun vm hvm =>
    .inr ⟨History.clearsSucceed_nil, fun r hr => absurd (hvm.requests r hr) List.not_mem_nil⟩
  have hempty : ClassTable.Fits [] := fun _ hc => absurd hc List.not_mem_nil
  unfold World.launch
  cases hlaunch : p.launch with
  | ended u vm =>
      rw [hlaunch] at hkeeps
      refine Fair.withManager ⟨hkeeps.stalled, hkeeps.fits hempty, fun _ hresume => ?_, clears⟩ rfl
        (hagrees vm hkeeps)
      cases hresume
  | waiting vm resume =>
      rw [hlaunch] at hkeeps
      refine Fair.withManager ⟨hkeeps.1.stalled, hkeeps.1.fits hempty, fun resume' hresume => ?_,
        clears⟩ rfl (hagrees vm hkeeps.1)
      obtain rfl := Option.some.inj hresume
      exact hkeeps.2.2

theorem Fair.request {r : TraceRequest} (hw : w.Fair options) (hr : w.request r = .ok w') :
    w'.Fair options := by
  unfold World.request at hr
  cases hm : w.manager with
  | none => rw [hm] at hr; cases hr
  | some m =>
      obtain ⟨ho, hf⟩ := hw.of_manager hm
      have hqueue : w' = { w with manager := some { m with channel := m.channel ++ [r] } } := by
        simp only [hm, Manager.request] at hr
        split at hr
        · cases hr
        · exact (Except.ok.inj hr).symm
      rw [hqueue]
      exact Fair.withManager hw.toSound ho hf

theorem Fair.shutdown (hw : w.Fair options) : w.shutdown.Fair options := by
  have hasked : Fair options { w with manager := w.manager.map (·.requestShutdown) } := by
    refine hw.continues ⟨rfl, rfl, ?_⟩ (.refl _)
    unfold core?
    cases w.manager <;> rfl
  have hsettled := hasked.settle
  unfold World.shutdown
  refine ⟨⟨hsettled.stalled, hsettled.fits, hsettled.thread, hsettled.clears⟩, ?_⟩
  intro o phase hcore
  simp [core?] at hcore

theorem Reached.fair (hw : Reached options w) : w.Fair options := by
  induction hw with
  | launch p intercept clears => exact fair_launch p clears
  | request r before queued ih => exact ih.request queued
  | settle before ih => exact ih.settle
  | command c before plain ih => exact ih.command plain
  | reject rejects before ih =>
      exact ih.continues ⟨rfl, rfl, rfl⟩ (.of_eq rfl rfl rfl rfl id)
  | kill before ih => exact Fair.collect (ih.continues ⟨rfl, rfl, rfl⟩ (Vm.kill_continues _))
  | shutdown before ih => exact ih.shutdown
  | record log reports events now before ih => exact ih.continues ⟨rfl, rfl, rfl⟩ (.refl _)

end World

/-- Whether the moment is an invocation. -/
def Moment.invokes : Moment → Bool
  | did (.command c) _ => c.isInvocation
  | _ => false

/-- No invocation of a trace meets one of its own requests for methods, and no class is searched
for or defined while its guard is set, on any target and with any events, as long as requests can
be cleared. So on the simulated machine no invocation ever gets stuck. -/
theorem TraceRun.invocations_unobserved :
    (∀ (options : TraceOptions) (request : TraceRequest) (h : History) (p : Program Continuation),
      TraceRun options request h p → ∀ (before : History) c r after,
        h = before ++ .sent c r :: after → before.ClearsSucceed →
          (c.isInvocation = true → before.installedMethods = []) ∧
            (c.findsClass = true → before.installedGuards = [])) ∧
    ∀ (options : TraceOptions) (w : World), World.Reached options w → w.vm.stalled = [] := by
  refine ⟨?_, fun options w hw => hw.fair.stalled⟩
  intro options request h p run before c r after hh hclears
  have hpermits := run.disciplined.1.permitted before c r after hh
  exact ⟨fun hinvoke => hpermits.invocation hinvoke hclears,
    fun hfind => hpermits.finding hfind hclears⟩

/-- The first invocation of a trace on the obliging debuggee, and a program whose chain was
traced. -/
theorem TraceRun.invocations_unobserved_of_count :
    (∃ before c r after, countStarted.1 = before ++ .sent c r :: after ∧ c.isInvocation = true ∧
      History.installedMethods before = []) ∧
    ∃ w w' : World, w.request countRequest = .ok w' ∧ w'.settle.vm.stalled = [] := by
  obtain ⟨hunobserved, hstalled⟩ := TraceRun.invocations_unobserved
  constructor
  · have hinvokes : countStarted.1.any Moment.invokes = true := by decide +kernel
    obtain ⟨m, hm, hinvoke⟩ := List.any_eq_true.mp hinvokes
    obtain ⟨a, rfl⟩ := Program.mem_transcript hm
    obtain ⟨before, after, hh⟩ := List.mem_iff_append.mp hm
    have hclears : History.ClearsSucceed before := by
      intro m' hm'
      have hmem : m' ∈ countStarted.1 := hh ▸ List.mem_append_left _ hm'
      obtain ⟨a', rfl⟩ := Program.mem_transcript hmem
      cases a' with
      | command c' => cases c' <;> first | rfl | trivial
      | _ => trivial
    cases a with
    | command c =>
        have hnone := (hunobserved _ _ _ _ countStarted_run before c _ after hh hclears).1 hinvoke
        exact ⟨before, c, _, after, hh, hinvoke, hnone⟩
    | _ => cases hinvoke
  · let w := (World.launch (.ints [1, 2])).startManager countOptions
    have hw : World.Reached countOptions w := .launch _ _ fun _ _ _ => rfl
    have hrequest : ∃ w', w.request countRequest = .ok w' := ⟨_, rfl⟩
    obtain ⟨w', hw'⟩ := hrequest
    exact ⟨w, w', hw', hstalled _ _ (.settle (.request countRequest hw hw'))⟩

end StreamTrace
