import Mathlib.Logic.Relation
import StreamTrace.Machine.World
import StreamTrace.Proofs.Debugger.ManagerRuns
import StreamTrace.Proofs.Machine.CommandEffects

/-!
# What happens between a manager and a debuggee

The simulated machine under a manager, one step after the other: the manager makes a choice or
performs an action, the thread goes on to its next stop, a chain is requested, the manager is asked
to stop. Commands may be kept from the machine and refused. A `Chronicle` tells the episodes of the
manager that have come of it.
-/

namespace StreamTrace

/-! ## Chronicles -/

/-- The episodes of a manager: those that are over, and the one in flight. -/
structure Chronicle where
  done : List Episode := []
  current : Option Episode := none

namespace Chronicle

/-- What is told after one more deed. -/
def tell (ch : Chronicle) : Option Deed → Chronicle
  | some (.begins r) => { ch with current := some ⟨r, []⟩ }
  | some (.goesOn m) => { ch with current := ch.current.map (·.snoc m) }
  | some .ends => { done := ch.done ++ ch.current.toList, current := none }
  | some (.accepts _) => ch
  | none => ch

/-- What is over stays over. -/
theorem done_prefix (ch : Chronicle) (d : Option Deed) : ch.done <+: (ch.tell d).done := by
  cases d with
  | none => exact List.prefix_rfl
  | some d =>
      cases d with
      | ends => exact List.prefix_append _ _
      | _ => exact List.prefix_rfl

/-- All that the traces did and heard. -/
def history (ch : Chronicle) : History := (ch.done ++ ch.current.toList).flatMap Episode.history

end Chronicle

/-! ## The choices of a manager -/

namespace Manager

/-- What a choice comes to as far as the trace in flight is concerned, with what it does about the
requests. -/
inductive Outcome (m : Manager) : Option Deed → Manager → Prop where
  | begins {m' : Manager} (r : TraceRequest) (phase : m.phase = .idle)
      (works : m'.phase = .working (ActiveTrace.start m.options r)) (empty : m'.inbox = [])
      (options : m'.options = m.options) : Outcome m (some (.begins r)) m'
  | hears {m' : Manager} (t : ActiveTrace) (e : Event) (rest : List Event)
      (phase : m.phase = .listening t) (inbox : m.inbox = e :: rest)
      (works : m'.phase = .working (t.onEvent e)) (left : m'.inbox = rest)
      (options : m'.options = m.options) : Outcome m (some (.goesOn (.heard e))) m'
  | ends {m' : Manager} (phase : m.phase = .working (.done .finished))
      (settled : m'.phase = .idle ∨ m'.phase = .stopped) (options : m'.options = m.options) :
      Outcome m (some .ends) m'
  | listens {m' : Manager} (t : ActiveTrace) (phase : m.phase = .working (.done (.listen t)))
      (listening : m'.phase = .listening t) (inbox : m'.inbox = m.inbox)
      (options : m'.options = m.options) : Outcome m none m'
  | givesUp {m' : Manager} (t : ActiveTrace) (failure : TraceFailure)
      (phase : m.phase = .listening t) (works : m'.phase = .working (t.giveUp failure))
      (inbox : m'.inbox = m.inbox) (options : m'.options = m.options) : Outcome m none m'
  | waits {m' : Manager} (phase : m'.phase = m.phase ∨ m.phase = .idle ∧ m'.phase = .stopped)
      (inbox : m'.inbox = m.inbox) (options : m'.options = m.options) : Outcome m none m'

theorem Chosen.outcome {m m' : Manager} {c : Choice} (hc : m.Chosen c m') :
    m.Outcome (m.deed c) m' := by
  cases hc with
  | resume r rest phase pending =>
      simp only [deed, pending, List.head?_cons, Option.map_some]
      exact .begins r phase rfl rfl rfl
  | receive r rest phase pending reading channel =>
      simp only [deed, channel, List.head?_cons, Option.map_some]
      exact .begins r phase rfl rfl rfl
  | stop phase => exact .waits (.inr ⟨phase, rfl⟩) rfl rfl
  | finish phase =>
      simp only [deed, phase]
      refine .ends phase ?_ rfl
      dsimp only
      split
      · exact .inr rfl
      · exact .inl rfl
  | listen t phase =>
      simp only [deed, phase]
      exact .listens t phase rfl rfl rfl
  | queue | close => exact .waits (.inl rfl) rfl rfl
  | event t e rest phase inbox =>
      simp only [deed, inbox, List.head?_cons, Option.map_some]
      exact .hears t e rest phase inbox rfl rfl rfl
  | cancel t phase | lose t phase => exact .givesUp t _ phase rfl rfl rfl

end Manager

/-! ## Steps -/

/-- Commands are only refused in place of the machine. -/
def Interception.Refuses (intercept : Interception) : Prop :=
  ∀ c n r, intercept c n = some r → ∃ e, r = .error e

namespace World

/-- The thread has ended, or it is stopped. -/
def IsAtRest (w : World) : Prop := w.thread = none ∨ w.vm.suspended = true

/-- The thread will not stop unforeseen: it is at rest, or no event is asked for. -/
def IsQuiet (w : World) : Prop := w.IsAtRest ∨ w.vm.requests = []

/-- The manager goes on with what is left of its program. -/
def goOn (w : World) (p : Program Continuation) : World :=
  { w with manager := w.manager.map fun m => { m with phase := .working p } }

/-- The thread has come to its next stop, and the manager is told. -/
def arrive (w : World) : Run Unit → World
  | .ended () vm => { w with vm, thread := none }.collect
  | .waiting vm resume => { w with vm, thread := some resume }.collect

/-- What may happen, with what it does about the requests of the manager. If the user keeps `calm`,
a trace is begun only while the world is quiet, and no one else wakes the thread before its end. -/
inductive Step (calm : Prop) : World → Option Deed → World → Prop where
  | choose {w : World} {m m' : Manager} (c : Manager.Choice) (manager : w.manager = some m)
      (chosen : m.choose c = some m')
      (quiet : calm → ∀ r, m.deed c = some (.begins r) → w.IsQuiet) :
      Step calm w (m.deed c) { w with manager := some m' }
  | act {w : World} {m : Manager} {a : Action} {next : a.Reply → Program Continuation}
      (manager : w.manager = some m) (phase : m.phase = .working (.act a next)) :
      Step calm w (some (.goesOn (.did a (w.perform a).1)))
        ((w.perform a).2.goOn (next (w.perform a).1))
  | go {w : World} {resume : Vm → Run Unit} (thread : w.thread = some resume)
      (released : w.released = true) : Step calm w none (w.arrive (resume w.vm))
  | request {w w' : World} (r : TraceRequest) (queued : w.request r = .ok w') :
      Step calm w (some (.accepts r)) w'
  | shutdown {w : World} :
      Step calm w none { w with manager := w.manager.map (·.requestShutdown) }
  | wake {w : World}
      (idle : calm → ∀ m, w.manager = some m → m.phase = .idle ∨ m.phase = .stopped) :
      Step calm w none { w with vm := { w.vm with suspended := false } }
  | pass {w : World} (now : Nat) : Step calm w none { w with now }

end World

/-- A debuggee under a manager, with what has come of it. -/
structure Told where
  world : World
  chronicle : Chronicle := {}

namespace Told

/-- A program that was just launched, under a manager that waits for requests. -/
def launch (p : StreamProgram) (intercept : Interception) (options : TraceOptions) : Told :=
  { world := (World.launch p intercept).startManager options }

/-- One step, after which the machine is still alive. -/
def CourseStep (calm : Prop) (s s' : Told) : Prop :=
  (∃ d, s.world.Step calm d s'.world ∧ s'.chronicle = s.chronicle.tell d) ∧
    s'.world.vm.dead = false

/-- What came later. -/
def Later (calm : Prop) (s s' : Told) : Prop := Relation.ReflTransGen (CourseStep calm) s s'

/-- What can come of a program on a machine that stays alive, when any command of the debugger may
be refused. -/
def Course (calm : Prop) (p : StreamProgram) (options : TraceOptions) (s : Told) : Prop :=
  ∃ intercept : Interception, intercept.Refuses ∧ (launch p intercept options).Later calm s

/-! ### Traces on their own -/

/-- A launched program whose manager has begun to trace a chain. -/
def begun (p : StreamProgram) (intercept : Interception) (options : TraceOptions)
    (r : TraceRequest) : Told where
  world := { World.launch p intercept with
    manager := some ({ options : Manager }.start r), published := .idle, logged := none }
  chronicle := { current := some ⟨r, []⟩ }

/-- The manager performs an action. -/
def act (s : Told) : Option Told :=
  match s.world.manager.map Manager.phase with
  | some (.working (.act a next)) =>
    let (r, w) := s.world.perform a
    if w.vm.dead then none
    else some ⟨w.goOn (next r), s.chronicle.tell (some (.goesOn (.did a r)))⟩
  | _ => none

/-- It performs one after the other. -/
def acts : Nat → Told → Option Told
  | 0, s => some s
  | n + 1, s => s.act.bind (acts n)

variable {calm : Prop} {s s' : Told}

theorem act_spec (h : s.act = some s') :
    s.CourseStep calm s' ∧ ∃ m, s'.chronicle = s.chronicle.tell (some (.goesOn m)) := by
  unfold act at h
  split at h
  · rename_i a next hphase
    obtain ⟨m, hm, hworking⟩ := Option.map_eq_some_iff.mp hphase
    dsimp only at h
    split at h
    · cases h
    · rename_i hdead
      cases h
      exact ⟨⟨⟨_, .act hm hworking, rfl⟩, Bool.eq_false_iff.mpr hdead⟩, _, rfl⟩
  · cases h

theorem later_of_acts {n : Nat} (h : s.acts n = some s') : s.Later calm s' := by
  induction n generalizing s with
  | zero =>
      cases h
      exact .refl
  | succ n ih =>
      obtain ⟨s₁, hact, hrest⟩ := Option.bind_eq_some_iff.mp h
      exact .head (act_spec hact).1 (ih hrest)

/-- The trace in flight stays the same. -/
theorem chronicle_of_acts {n : Nat} {done : List Episode} {r : TraceRequest} {h₀ : History}
    (h : s.acts n = some s') (hc : s.chronicle = ⟨done, some ⟨r, h₀⟩⟩) :
    ∃ h', s'.chronicle = ⟨done, some ⟨r, h'⟩⟩ := by
  induction n generalizing s h₀ with
  | zero =>
      cases h
      exact ⟨h₀, hc⟩
  | succ n ih =>
      obtain ⟨s₁, hact, hrest⟩ := Option.bind_eq_some_iff.mp h
      obtain ⟨-, m, htold⟩ := (act_spec hact : s.CourseStep True s₁ ∧ _)
      exact ih hrest (htold.trans (by rw [hc]; rfl))

/-- When its program is over, the trace is. -/
theorem later_over (halive : s.world.vm.dead = false)
    (hover : (s.world.manager.map Manager.phase) = some (.working (.done .finished))) :
    ∃ s', s.Later calm s' ∧ s'.world.vm = s.world.vm ∧ s'.world.intercept = s.world.intercept ∧
      s'.chronicle = s.chronicle.tell (some .ends) := by
  obtain ⟨m, hm, hphase⟩ := Option.map_eq_some_iff.mp hover
  have hchoose : ∃ m', m.choose .conclude = some m' := by
    unfold Manager.choose
    rw [hphase]
    exact ⟨_, rfl⟩
  have hdeed : m.deed .conclude = some .ends := by
    unfold Manager.deed
    rw [hphase]
  obtain ⟨m', hm'⟩ := hchoose
  refine ⟨⟨{ s.world with manager := some m' }, s.chronicle.tell (m.deed .conclude)⟩,
    .single ⟨⟨_, .choose .conclude hm hm' fun _ r hr => ?_, rfl⟩, halive⟩, rfl, rfl, by rw [hdeed]⟩
  rw [hdeed] at hr
  cases hr

end Told

/-! ## Actions -/

namespace World

variable {w : World} {a : Action}

/-- The news are told, and nothing else happens on the machine. -/
theorem collect_vm (w : World) : w.collect.vm = { w.vm with outbox := [] } := by
  have hnotify : ∀ (events : List Event) (w : World), (events.foldl notify w).vm = w.vm := by
    intro events
    induction events with
    | nil => exact fun _ => rfl
    | cons e rest ih => exact fun w => ih (w.notify e)
  exact hnotify _ _

theorem collect_of_quiet (h : w.vm.outbox = []) : w.collect = w := by
  have hvm : { w.vm with outbox := [] } = w.vm := by rw [← h]
  unfold collect
  rw [h, hvm]
  rfl

/-- The manager hears of the news, if there is any. -/
theorem collect_news {stop : Option Event} (h : w.vm.outbox = stop.toList) :
    w.collect.thread = w.thread ∧ w.collect.intercept = w.intercept ∧
      w.collect.manager = w.manager.map fun m => stop.elim m m.notify := by
  unfold collect
  rw [h]
  cases stop with
  | none => exact ⟨rfl, rfl, (Option.map_id' ..).symm⟩
  | some e => exact ⟨rfl, rfl, rfl⟩

/-- The parts of a world that no action of the manager changes. -/
structure Same (w w' : World) : Prop where
  thread : w'.thread = w.thread
  intercept : w'.intercept = w.intercept
  manager : w'.manager = w.manager

theorem Same.trans {w' w'' : World} (h : w.Same w') (h' : w'.Same w'') : w.Same w'' :=
  ⟨h'.thread.trans h.thread, h'.intercept.trans h.intercept, h'.manager.trans h.manager⟩

theorem logCommand_same (w : World) (c : Command) :
    w.Same (w.logCommand c) ∧ (w.logCommand c).vm = w.vm := by
  unfold logCommand logState
  split <;> exact ⟨⟨rfl, rfl, rfl⟩, rfl⟩

/-- A command is refused in place of the machine, or answered by the machine. -/
theorem command_spec (w : World) (c : Command) (hrefuses : w.intercept.Refuses)
    (hquiet : w.vm.outbox = []) :
    w.Same (w.command c).2 ∧
      ((w.command c).1 = (w.vm.answer c).1 ∧ (w.command c).2.vm = (w.vm.answer c).2 ∨
        ∃ n e, w.intercept c n = some (.error e) ∧ (w.command c).1 = .error e ∧
          (w.command c).2.vm = w.vm) := by
  obtain ⟨hsame, hvm⟩ := logCommand_same w c
  unfold World.command
  simp only [hsame.intercept, hvm]
  cases hi : w.intercept c ((w.logCommand c).sentCount c) with
  | some r =>
      obtain ⟨e, rfl⟩ := hrefuses c _ r hi
      exact ⟨hsame, .inr ⟨_, e, hi, rfl, hvm⟩⟩
  | none =>
      let answered : World :=
        { w.logCommand c with intercept := w.intercept, vm := (w.vm.answer c).2 }
      have hstill : answered.collect = answered :=
        collect_of_quiet ((Vm.answered w.vm c).inPlace.outbox.trans hquiet)
      refine ⟨?_, .inl ⟨rfl, ?_⟩⟩
      · show w.Same answered.collect
        rw [hstill]
        exact ⟨hsame.thread, rfl, hsame.manager⟩
      · show answered.collect.vm = _
        rw [hstill]

/-- An action is performed on the machine, or refused in its place. -/
theorem perform_spec (w : World) (a : Action) (hrefuses : w.intercept.Refuses)
    (hquiet : w.vm.outbox = []) :
    w.vm.Performed a (w.perform a).1 (w.perform a).2.vm ∧ w.Same (w.perform a).2 := by
  cases a with
  | command c =>
      obtain ⟨hsame, ⟨hanswer, hvm⟩ | ⟨n, e, -, hanswer, hvm⟩⟩ :=
        command_spec w c hrefuses hquiet
      · refine ⟨?_, hsame⟩
        show w.vm.Performed (.command c) (w.command c).1 (w.command c).2.vm
        rw [hanswer, hvm]
        exact .served c
      · refine ⟨?_, hsame⟩
        show w.vm.Performed (.command c) (w.command c).1 (w.command c).2.vm
        rw [hanswer, hvm]
        exact .refused c e
  | publish s => exact ⟨.beside _ nofun, ⟨rfl, rfl, rfl⟩⟩
  | deliver r => exact ⟨.beside _ nofun, ⟨rfl, rfl, rfl⟩⟩
  | clock => exact ⟨.beside _ nofun, ⟨rfl, rfl, rfl⟩⟩

theorem collect_intercept (w : World) : w.collect.intercept = w.intercept := by
  have hnotify : ∀ (events : List Event) (w : World),
      (events.foldl notify w).intercept = w.intercept := by
    intro events
    induction events with
    | nil => exact fun _ => rfl
    | cons e rest ih => exact fun w => ih (w.notify e)
  exact hnotify _ _

theorem perform_intercept (w : World) (a : Action) : (w.perform a).2.intercept = w.intercept := by
  cases a with
  | command c =>
      have hsame := (logCommand_same w c).1.intercept
      show (w.command c).2.intercept = w.intercept
      unfold World.command
      dsimp only
      split
      · exact hsame
      · exact (collect_intercept _).trans hsame
  | _ => rfl

/-- What is kept from the machine stays the same. -/
theorem Step.intercept {calm : Prop} {w w' : World} {d : Option Deed} (h : w.Step calm d w') :
    w'.intercept = w.intercept := by
  cases h with
  | act manager phase => exact perform_intercept w _
  | go thread released =>
      unfold arrive
      split
      · exact collect_intercept _
      · exact collect_intercept _
  | request r queued =>
      unfold World.request at queued
      split at queued
      · cases queued
      · cases hm : Manager.request _ r with
        | error e =>
            rw [hm] at queued
            cases queued
        | ok m =>
            rw [hm] at queued
            cases queued
            rfl
  | _ => rfl

end World

/-! ## Sound courses -/

/-- The manager works at the request that the chronicle says, on a machine without news. -/
structure Told.Sound (options : TraceOptions) (s : Told) : Prop where
  refuses : s.world.intercept.Refuses
  quiet : s.world.vm.outbox = []
  manager : ∃ m, s.world.manager = some m ∧ m.options = options ∧
    m.InFlight options s.chronicle.current
  done : ∀ e ∈ s.chronicle.done, e.Remaining options (.done .finished)

/-- Nothing but the episode in flight is told of that a program is left of. -/
theorem Manager.InFlight.working {options : TraceOptions} {m : Manager} {current : Option Episode}
    {q : Program Continuation} (hf : m.InFlight options current) (hphase : m.phase = .working q) :
    ∃ e, current = some e ∧ e.Remaining options q := by
  unfold InFlight at hf
  rwa [hphase] at hf

theorem Manager.InFlight.listening {options : TraceOptions} {m : Manager} {current : Option Episode}
    {t : ActiveTrace} (hf : m.InFlight options current) (hphase : m.phase = .listening t) :
    ∃ e, current = some e ∧ e.Remaining options (.done (.listen t)) := by
  unfold InFlight at hf
  rwa [hphase] at hf

theorem Manager.inFlight_of_working {options : TraceOptions} {m : Manager} {e : Episode}
    {q : Program Continuation} (hphase : m.phase = .working q) (he : e.Remaining options q) :
    m.InFlight options (some e) := by
  unfold InFlight
  rw [hphase]
  exact ⟨e, rfl, he⟩

end StreamTrace
