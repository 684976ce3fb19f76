import StreamTrace.Proofs.Machine.CourseChanges
import StreamTrace.Proofs.Machine.HarmlessTraces
import StreamTrace.Proofs.Machine.PreparedStatements

/-!
# Taking turns

Manager and thread take turns until neither can move. While the thread has stopped, the manager
works on a machine that may be handed back at any time; when the thread goes on, all evaluations
come to what they were to come to. Neither waits for the other for ever: the manager has a bounded
number of things to do, and it lets the thread go on unless no trace is in flight.
-/

namespace StreamTrace

open Scene

variable {S : Scene} {vm₀ vm vm' : Vm} {home : Home} {final done : List (Fate Shown)}
  {stop : Option Event}

/-! ## The turn of the manager -/

namespace Manager

variable {m m' : Manager}

/-- Requests and events can still arrive. -/
structure IsOpen (m : Manager) : Prop where
  shutdown : m.shutdown = false
  channelOpen : m.channelOpen = true
  reading : m.reading = true
  eventsOpen : m.eventsOpen = true

/-- The choices of a manager for which requests and events can still arrive. -/
inductive Turn (m : Manager) : Manager → Prop where
  | finishes (phase : m.phase = .working (.done .finished)) :
      Turn m { m with phase := .idle, inbox := [] }
  | listens (t : ActiveTrace) (phase : m.phase = .working (.done (.listen t))) :
      Turn m { m with phase := .listening t }
  | hears (t : ActiveTrace) (e : Event) (rest : List Event) (phase : m.phase = .listening t)
      (inbox : m.inbox = e :: rest) :
      Turn m { m with phase := .working (t.onEvent e), inbox := rest }
  | queues (t : ActiveTrace) (r : TraceRequest) (rest : List TraceRequest)
      (phase : m.phase = .listening t) (inbox : m.inbox = []) (channel : m.channel = r :: rest) :
      Turn m { m with channel := rest, pending := m.pending ++ [r] }
  | resumes (r : TraceRequest) (rest : List TraceRequest) (phase : m.phase = .idle)
      (pending : m.pending = r :: rest) : Turn m ({ m with pending := rest }.start r)
  | receives (r : TraceRequest) (rest : List TraceRequest) (phase : m.phase = .idle)
      (pending : m.pending = []) (channel : m.channel = r :: rest) :
      Turn m ({ m with channel := rest }.start r)

theorem Turn.isOpen (ht : m.Turn m') (h : m.IsOpen) : m'.IsOpen := by
  cases ht <;> exact ⟨h.shutdown, h.channelOpen, h.reading, h.eventsOpen⟩

/-- How much there is to do before the manager waits. -/
def load (m : Manager) : Nat :=
  3 * m.channel.length + 2 * m.pending.length + 2 * m.inbox.length +
    match m.phase with
    | .working _ => 1
    | _ => 0

theorem Turn.load_lt (ht : m.Turn m') : m'.load < m.load := by
  cases ht with
  | finishes phase => simp only [load, phase, List.length_nil]; omega
  | listens t phase => simp [load, phase]
  | hears t e rest phase inbox => simp [load, phase, inbox]; omega
  | queues t r rest phase inbox channel => simp [load, phase, channel]; omega
  | resumes r rest phase pending => simp [load, start, phase, pending]; omega
  | receives r rest phase pending channel => simp [load, start, phase, channel]; omega

theorem load_lt_stepBound (m : Manager) : m.load < World.stepBound m := by
  have hphase : (match m.phase with
    | .working _ => 1
    | _ => 0) ≤ 1 := by split <;> omega
  unfold load World.stepBound
  omega

/-- The manager waits: it has nothing to do, or it listens to a trace. -/
inductive Waits (m : Manager) : Prop where
  | idle (phase : m.phase = .idle) (pending : m.pending = []) (channel : m.channel = [])
  | listening (t : ActiveTrace) (phase : m.phase = .listening t) (inbox : m.inbox = [])
  | acting (a : Action) (next : a.Reply → Program Continuation)
      (phase : m.phase = .working (.act a next))
  | stopped (phase : m.phase = .stopped)

/-- The manager takes one of its turns, or it waits. -/
theorem next?_spec (h : m.IsOpen) :
    (∃ m', m.next? = some m' ∧ m.Turn m') ∨ m.next? = none ∧ m.Waits := by
  obtain ⟨hshutdown, hchannelOpen, hreading, hevents⟩ := h
  unfold next? preferred
  cases hphase : m.phase with
  | idle =>
      cases hpending : m.pending with
      | cons r rest =>
          exact .inl ⟨_, by simp [choose, hphase, hpending], .resumes r rest hphase hpending⟩
      | nil =>
          cases hchannel : m.channel with
          | cons r rest =>
              refine .inl ⟨_, ?_, .receives r rest hphase hpending hchannel⟩
              simp [choose, hphase, hpending, hchannel, hreading, hshutdown]
          | nil =>
              refine .inr ⟨?_, .idle hphase hpending hchannel⟩
              simp [choose, hphase, hpending, hchannel, hreading, hshutdown, hchannelOpen]
  | working p =>
      cases p with
      | act a next => exact .inr ⟨by simp [choose, hphase], .acting a next hphase⟩
      | done k =>
          cases k with
          | finished =>
              refine .inl ⟨_, ?_, .finishes hphase⟩
              simp [choose, hphase, hshutdown]
          | listen t => exact .inl ⟨_, by simp [choose, hphase], .listens t hphase⟩
  | listening t =>
      cases hinbox : m.inbox with
      | cons e rest =>
          refine .inl ⟨_, ?_, .hears t e rest hphase hinbox⟩
          simp [choose, hphase, hinbox, hshutdown]
      | nil =>
          cases hchannel : m.channel with
          | cons r rest =>
              refine .inl ⟨_, ?_, .queues t r rest hphase hinbox hchannel⟩
              simp [choose, hphase, hinbox, hchannel, hreading, hshutdown]
          | nil =>
              refine .inr ⟨?_, .listening t hphase hinbox⟩
              simp [choose, hphase, hinbox, hchannel, hreading, hshutdown, hchannelOpen, hevents]
  | stopped => exact .inr ⟨by simp [choose, hphase], .stopped hphase⟩

/-- The manager works on a machine that may be handed back at any time: it is between two traces,
it is at work, it waits for an event, or it is about to hear of one. -/
def Restorable (S : Scene) (vm₀ : Vm) (m : Manager) (vm : Vm) : Prop :=
  match m.phase with
  | .idle => S.Handed vm₀ vm ∧ vm.requests = []
  | .working p => m.inbox = [] ∧ p.Meets (.handed S vm₀) (Continuation.Harmless S vm₀) vm
  | .listening t => m.inbox = [] ∧ t.ThreadResumed S vm₀ vm ∨ ∃ e, m.inbox = [e] ∧
      (t.onEvent e).Meets (.handed S vm₀) (Continuation.Harmless S vm₀) vm
  | .stopped => False

theorem Restorable.turn (hm : m.Restorable S vm₀ vm) (hs : S.Halted vm₀) (ht : m.Turn m') :
    m'.Restorable S vm₀ vm := by
  unfold Restorable at hm
  cases ht with
  | finishes phase =>
      rw [phase] at hm
      exact hm.2
  | listens t phase =>
      rw [phase] at hm
      exact .inl hm
  | hears t e rest phase inbox =>
      rw [phase, inbox] at hm
      rcases hm with ⟨hnone, -⟩ | ⟨e', he, hmeets⟩
      · cases hnone
      · obtain ⟨rfl, rfl⟩ := List.cons.inj he
        exact ⟨rfl, hmeets⟩
  | queues t r rest phase inbox channel =>
      exact hm
  | resumes r rest phase pending =>
      rw [phase] at hm
      exact ⟨rfl, ActiveTrace.start_harmless _ r hs hm.1 hm.2⟩
  | receives r rest phase pending channel =>
      rw [phase] at hm
      exact ⟨rfl, ActiveTrace.start_harmless _ r hs hm.1 hm.2⟩

/-- The manager has nothing to do: no trace is in flight, or it waits for an event. -/
def AtRest (S : Scene) (vm₀ : Vm) (m : Manager) (vm : Vm) : Prop :=
  (m.phase = .idle ∧ m.pending = [] ∧ m.channel = []) ∧ S.Handed vm₀ vm ∧ vm.requests = [] ∨
    ∃ t, m.phase = .listening t ∧ m.inbox = [] ∧ t.ThreadResumed S vm₀ vm

theorem Restorable.atRest (hm : m.Restorable S vm₀ vm) (hw : m.Waits)
    (hrun : ∀ a next, m.phase ≠ .working (.act a next)) : m.AtRest S vm₀ vm := by
  unfold Restorable at hm
  cases hw with
  | idle phase pending channel =>
      rw [phase] at hm
      exact .inl ⟨⟨phase, pending, channel⟩, hm⟩
  | listening t phase inbox =>
      rw [phase] at hm
      rcases hm with ⟨-, hawaits⟩ | ⟨e, he, -⟩
      · exact .inr ⟨t, phase, inbox, hawaits⟩
      · cases inbox.symm.trans he
  | acting a next phase => exact absurd phase (hrun a next)
  | stopped phase =>
      rw [phase] at hm
      exact hm.elim

end Manager

/-! ## The thread goes on -/

namespace Vm

variable {frame : FrameId} {l : Location}

theorem HasStatement.second (h : vm.HasStatement frame l) :
    ∃ f, vm.frames.reverse[1]? = some f ∧ f.id = frame := by
  unfold HasStatement places at h
  rw [← List.map_reverse, List.getElem?_map, Option.map_eq_some_iff] at h
  obtain ⟨f, hf, heq⟩ := h
  exact ⟨f, hf, (Prod.mk.inj heq).1⟩

theorem reverse_of_bottom (h : vm'.bottom 2 = vm.bottom 2) :
    vm'.frames.reverse[1]? = vm.frames.reverse[1]? := by
  have hsecond : ∀ vm : Vm, (vm.bottom 2)[1]? = vm.frames.reverse[1]? := fun vm =>
    List.getElem?_take_of_lt (by decide)
  rw [← hsecond, h, hsecond]

/-- The variables of the statement are those of its frame. -/
theorem HasStatement.slotOf (h : vm.HasStatement frame l) (hbottom : vm'.bottom 2 = vm.bottom 2)
    (hids : (vm.frames.map (·.id)).Nodup) (hids' : (vm'.frames.map (·.id)).Nodup) (slot : Nat) :
    vm'.slotOf frame slot = vm.slotOf frame slot := by
  obtain ⟨f, hf, rfl⟩ := h.second
  have hmem : f ∈ vm.frames := List.mem_reverse.mp (List.mem_of_getElem? hf)
  have hmem' : f ∈ vm'.frames :=
    List.mem_reverse.mp (List.mem_of_getElem? ((reverse_of_bottom hbottom).trans hf))
  rw [slotOf_of_mem hids hmem, slotOf_of_mem hids' hmem']

end Vm

/-- Where the thread stops next, the session is restorable. -/
theorem SessionState.Restorable.arrives {S' : Scene} {vm₁ : Vm} {base : Int} {s : SessionState}
    (h : s.Restorable S vm₀ base vm) (hhalts : S'.Halted vm₁) (hframe : S'.frame = S.frame)
    (hg : vm.Grows vm₁) (hused : ∀ r ∈ vm₁.requests, r ∈ vm.requests)
    (hbottom : vm₁.bottom 2 = vm.bottom 2) :
    s.Restorable S' vm₁ base { vm₁ with outbox := [] } := by
  refine ⟨hhalts, hhalts.handed, fun type infos hinfos => h.lists.grows hg type infos hinfos,
    fun r hr => h.held r (hused r hr), h.edges, fun x hx hopen => ?_⟩
  obtain ⟨hbase, halike⟩ := h.source x hx hopen
  obtain ⟨l, hl⟩ := h.statement
  have hslot : vm₁.slotOf S.frame x.slot = vm.slotOf S.frame x.slot :=
    hl.slotOf hbottom (h.halted.progress_ids h.handed.toProgress) hhalts.ids x.slot
  refine ⟨hbase, ?_⟩
  rw [hframe]
  show Vm.Alike _ _ (vm₁.slotOf S.frame x.slot)
  rw [hslot]
  exact (halike.grows hg).grows (.of_eq rfl rfl rfl rfl)

/-! ## Performing programs -/

namespace Vm

/-- The program has not gone on. -/
structure ProgramUnmoved (vm vm' : Vm) : Prop where
  tidy : vm'.Tidy
  grows : vm.Grows vm'
  evaluations : vm'.evaluations = vm.evaluations
  programResult : vm'.programResult = vm.programResult
  dead : vm'.dead = vm.dead

theorem answer_programUnmoved (htidy : vm.Tidy) (c : Command) :
    vm.ProgramUnmoved (vm.answer c).2 := by
  cases htouch : c.touchesThread with
  | false =>
      obtain ⟨htidy', hevolved⟩ := vm.answer_evolves htouch htidy
      exact ⟨htidy', hevolved.grows, hevolved.evaluations, hevolved.programResult, hevolved.dead⟩
  | true =>
      have hself : vm.ProgramUnmoved vm := ⟨htidy, .refl vm, rfl, rfl, rfl⟩
      have hresume : vm.ProgramUnmoved { vm with suspended := false } :=
        ⟨htidy.of_eq rfl rfl rfl, .of_eq rfl rfl rfl rfl, rfl, rfl, rfl⟩
      cases c with
      | setSlots thread frame values =>
          obtain ⟨frames, noted, hvm, -, -⟩ := answer_setSlots vm thread frame values
          rw [hvm]
          exact ⟨htidy.of_eq rfl rfl rfl, .of_eq rfl rfl rfl rfl, rfl, rfl, rfl⟩
      | forceReturn thread v =>
          rcases answer_forceReturn vm thread v with hvm | hvm
          · rwa [hvm]
          · rw [hvm]
            exact ⟨htidy.of_eq rfl rfl rfl, .of_eq rfl rfl rfl rfl, rfl, rfl, rfl⟩
      | resumeVm =>
          rw [answer_resumeVm]
          split
          · exact hself
          · exact hresume
      | resumeThread thread =>
          by_cases hmain : thread = mainThread
          · rw [hmain, answer_resumeThread]
            split
            · exact hself
            · exact hresume
          · rwa [answer_resumeThread_of_ne vm hmain]
      | _ => cases htouch

end Vm

namespace World

variable {w w' : World}

/-- Every command reaches the machine. -/
def IsOpen (w : World) : Prop := ∀ c n, w.intercept c n = none

theorem perform_responds (w : World) (a : Action) (hopen : w.IsOpen) (hquiet : w.vm.outbox = []) :
    w.vm.Responds a (w.perform a).1 (w.perform a).2.vm ∧ w.Same (w.perform a).2 := by
  have hrefuses : w.intercept.Refuses := fun c n r hr => by
    rw [hopen c n] at hr
    cases hr
  cases a with
  | command c =>
      obtain ⟨hsame, ⟨hanswer, hvm⟩ | ⟨n, e, hrefused, -, -⟩⟩ := command_spec w c hrefuses hquiet
      · refine ⟨?_, hsame⟩
        show w.vm.Responds (.command c) (w.command c).1 (w.command c).2.vm
        rw [hanswer, hvm]
        exact .command c
      · cases (hopen c n).symm.trans hrefused
  | _ => exact ⟨.beside _ (fun _ hc => by cases hc), ⟨rfl, rfl, rfl⟩⟩

/-- A program that is performed comes to what can be said of it. -/
theorem run_meets {α : Type} {p : Program α} {post : α → Vm → Prop} (hopen : w.IsOpen)
    (hquiet : w.vm.outbox = []) (hp : p.Meets (.handed S vm₀) post w.vm) :
    let r := p.run perform w
    post r.1 r.2.vm ∧ w.Same r.2 ∧ w.vm.InPlace r.2.vm := by
  induction p generalizing w with
  | done a => exact ⟨hp, ⟨rfl, rfl, rfl⟩, .refl w.vm⟩
  | act a next ih =>
      obtain ⟨hserves, hsame⟩ := w.perform_responds a hopen hquiet
      have hplace := hserves.performed.inPlace
      have hopen' : (w.perform a).2.IsOpen := fun c n => by rw [hsame.intercept, hopen c n]
      obtain ⟨hpost, hsame', hplace'⟩ := ih (w.perform a).1 hopen' (hplace.outbox.trans hquiet)
        (hp.2 _ _ hserves)
      exact ⟨hpost, hsame.trans hsame', hplace.trans hplace'⟩

/-! ## The thread has ended -/

/-- All evaluations are over. -/
structure Over (final : List (Fate Shown)) (w : World) : Prop where
  thread : w.thread = none
  tidy : w.vm.Tidy
  noted : w.vm.Noted final
  dead : w.vm.dead = true ↔ .error .exited ∈ final

theorem Over.next (h : w.Over final) (hthread : w'.thread = none)
    (hvm : w.vm.ProgramUnmoved w'.vm) : w'.Over final :=
  ⟨hthread, hvm.tidy, h.noted.grows hvm.grows hvm.evaluations hvm.programResult,
    by rw [hvm.dead]; exact h.dead⟩

theorem collect_thread (w : World) : w.collect.thread = w.thread := by
  have hnotify : ∀ (events : List Event) (w : World),
      (events.foldl notify w).thread = w.thread := by
    intro events
    induction events with
    | nil => exact fun _ => rfl
    | cons e rest ih => exact fun w => ih (w.notify e)
  exact hnotify _ _

theorem Over.collect (h : w.Over final) : w.collect.Over final := by
  refine h.next ((collect_thread w).trans h.thread) ?_
  rw [collect_vm]
  exact ⟨h.tidy.of_eq rfl rfl rfl, .of_eq rfl rfl rfl rfl, rfl, rfl, rfl⟩

theorem Over.command (h : w.Over final) (c : Command) : (w.command c).2.Over final := by
  obtain ⟨hsame, hvm⟩ := logCommand_same w c
  have hlogged : (w.logCommand c).Over final :=
    ⟨hsame.thread.trans h.thread, hvm ▸ h.tidy, hvm ▸ h.noted, hvm ▸ h.dead⟩
  unfold World.command
  dsimp only
  split
  · exact hlogged
  · let answered : World := { w.logCommand c with vm := ((w.logCommand c).vm.answer c).2 }
    have hanswered : answered.Over final :=
      hlogged.next hlogged.thread (Vm.answer_programUnmoved hlogged.tidy c)
    exact hanswered.collect

theorem Over.perform (h : w.Over final) (a : Action) : (w.perform a).2.Over final := by
  cases a with
  | command c => exact h.command c
  | _ => exact ⟨h.thread, h.tidy, h.noted, h.dead⟩

theorem Over.run {α : Type} (h : w.Over final) (p : Program α) :
    (p.run World.perform w).2.Over final := by
  induction p generalizing w with
  | done a => exact h
  | act a next ih => exact ih _ (h.perform a)

theorem Over.work (h : w.Over final) : w.work.Over final := by
  unfold World.work
  split
  · exact h
  · split
    · have hrun := h.run ‹_›
      exact ⟨hrun.thread, hrun.tidy, hrun.noted, hrun.dead⟩
    · exact h

theorem Over.manage (h : w.Over final) (steps : Nat) : (manage steps w).Over final := by
  induction steps generalizing w with
  | zero => exact h
  | succ steps ih =>
      have hwork := h.work
      unfold World.manage
      dsimp only
      split
      · exact hwork
      · exact ih ⟨hwork.thread, hwork.tidy, hwork.noted, hwork.dead⟩

theorem Over.manageAll (h : w.Over final) : w.manageAll.Over final := by
  unfold World.manageAll
  split
  · exact h
  · exact h.manage _

theorem Over.settle (h : w.Over final) : w.settle.Over final := by
  have hmanaged := h.manageAll
  unfold World.settle
  dsimp only
  rw [hmanaged.thread]
  exact hmanaged

/-! ## The thread has stopped -/

/-- The thread has stopped on `vm₀` after some evaluations. However the machine is handed back, all
will come to `final`. -/
structure Halted (home : Home) (S : Scene) (final done : List (Fate Shown)) (stop : Option Event)
    (vm₀ : Vm) (w : World) : Prop where
  isOpen : w.IsOpen
  quiet : w.vm.outbox = []
  parked : w.Parked home stop
  halted : (S.noting done).Halted vm₀
  raised : vm₀.outbox = stop.toList
  reached : done <+: final
  lives : .error .exited ∉ done
  resumes : ∃ resume, w.thread = some resume ∧
    ∀ vm, (S.noting done).Handed vm₀ vm → (resume vm).Repeats S final vm

theorem Halted.next (h : w.Halted home S final done stop vm₀) (hthread : w'.thread = w.thread)
    (hintercept : w'.intercept = w.intercept) (hvm : w.vm.InPlace w'.vm) :
    w'.Halted home S final done stop vm₀ :=
  ⟨fun c n => by rw [hintercept, h.isOpen c n], hvm.outbox.trans h.quiet,
    h.parked.inPlace hvm hthread, h.halted, h.raised, h.reached, h.lives, by
      rw [hthread]; exact h.resumes⟩

/-- The manager performs what is left of its program, if it is at work. -/
theorem Halted.work (h : w.Halted home S final done stop vm₀) {m : Manager}
    (hm : w.manager = some m) (hopen : m.IsOpen)
    (hrestorable : m.Restorable (S.noting done) vm₀ w.vm) :
    ∃ m', w.work.manager = some m' ∧ m'.IsOpen ∧ m'.load = m.load ∧
      w.work.Halted home S final done stop vm₀ ∧ w.work.thread = w.thread ∧
        m'.Restorable (S.noting done) vm₀ w.work.vm ∧
          ∀ a next, m'.phase ≠ .working (.act a next) := by
  have hidle : (∀ p, m.phase ≠ .working p) → w.work = w := by
    intro hidle
    unfold World.work
    rw [hm]
    dsimp only
    cases hphase : m.phase with
    | working p => exact absurd hphase (hidle p)
    | _ => rfl
  cases hphase : m.phase with
  | working p =>
      unfold Manager.Restorable at hrestorable
      rw [hphase] at hrestorable
      obtain ⟨hquiet, hmeets⟩ := hrestorable
      obtain ⟨hharmless, hsame, hplace⟩ := run_meets h.isOpen h.quiet hmeets
      have hwork : w.work = { (p.run World.perform w).2 with
          manager := (p.run World.perform w).2.manager.map fun m =>
            { m with phase := .working (.done (p.run World.perform w).1) } } := by
        unfold World.work
        rw [hm]
        dsimp only
        rw [hphase]
      rw [hwork, hsame.manager, hm]
      refine ⟨_, rfl, ⟨hopen.shutdown, hopen.channelOpen, hopen.reading, hopen.eventsOpen⟩, ?_,
        h.next hsame.thread hsame.intercept hplace, hsame.thread, ⟨hquiet, hharmless⟩,
        fun a next heq => ?_⟩
      · simp [Manager.load, hphase]
      · cases heq
  | _ =>
      rw [hidle fun p heq => by cases hphase.symm.trans heq]
      refine ⟨m, hm, hopen, rfl, h, rfl, hrestorable, fun a next heq => ?_⟩
      cases hphase.symm.trans heq

/-- After so many steps the manager has nothing to do any more. -/
theorem Halted.manage (steps : Nat) (h : w.Halted home S final done stop vm₀) {m : Manager}
    (hm : w.manager = some m) (hopen : m.IsOpen)
    (hrestorable : m.Restorable (S.noting done) vm₀ w.vm)
    (hload : m.load < steps) : ∃ m', (manage steps w).manager = some m' ∧ m'.IsOpen ∧
      (manage steps w).Halted home S final done stop vm₀ ∧
        (manage steps w).thread = w.thread ∧
          m'.AtRest (S.noting done) vm₀ (manage steps w).vm := by
  induction steps generalizing w m with
  | zero => cases hload
  | succ steps ih =>
      obtain ⟨m₁, hm₁, hopen₁, hload₁, h₁, hthread₁, hrestorable₁, hrun⟩ :=
        h.work hm hopen hrestorable
      unfold World.manage
      dsimp only
      rw [hm₁, Option.bind_some]
      rcases m₁.next?_spec hopen₁ with ⟨m₂, hnext, hturn⟩ | ⟨hnone, hwaits⟩
      · rw [hnext]
        have hlt := hturn.load_lt
        let next : World := { w.work with manager := some m₂ }
        have hnext' : next.Halted home S final done stop vm₀ := h₁.next rfl rfl (.refl _)
        obtain ⟨m', hm', hopen', h', hthread', hrests⟩ := ih hnext' rfl (hturn.isOpen hopen₁)
          (hrestorable₁.turn h₁.halted hturn) (by omega)
        exact ⟨m', hm', hopen', h', hthread'.trans hthread₁, hrests⟩
      · rw [hnone]
        exact ⟨m₁, hm₁, hopen₁, h₁, hthread₁, hrestorable₁.atRest hwaits hrun⟩

theorem Over.of_ended {since : Vm} (h : (Run.ended () vm).Repeats S final since) :
    (w.arrive (.ended () vm)).Over final := by
  obtain ⟨-, htidy, hnoted, hdead⟩ := h
  let ended : World := { w with vm, thread := none }
  have hover : ended.Over final := ⟨rfl, htidy, hnoted, hdead⟩
  exact hover.collect

/-- A thread that goes on comes to its end, or stops at an event. -/
theorem Halted.stops {bound : Prop} {resume : Vm → Run Unit}
    (h : w.Halted home S final done stop vm₀) (hthread : w.thread = some resume)
    (hawake : w.vm.suspended = false) (hhanded : (S.noting done).Handed vm₀ w.vm)
    (hbound : bound → w.vm.Armed ∧ ∃ e, stop = some e ∧ e.isHomeward = true) :
    (w.arrive (resume w.vm)).Over final ∨ ∃ done' e vm₁ w', w.arrive (resume w.vm) = w' ∧
      w'.Halted home S final done' (some e) vm₁ ∧ w'.vm = { vm₁ with outbox := [] } ∧
        w.vm.Grows vm₁ ∧ w.ThreadProgress bound (some e) w' := by
  obtain ⟨resume', hresume', hrepeats⟩ := h.resumes
  obtain rfl := Option.some.inj (hthread.symm.trans hresume')
  have hrun := hrepeats w.vm hhanded
  have hgo := h.parked.go hthread hbound h.quiet
  generalize resume w.vm = run at hrun hgo ⊢
  cases run with
  | ended u vm => exact .inl (.of_ended hrun)
  | waiting vm₁ resume₁ =>
      obtain ⟨hgrows, hevent, done', hreached, hlives, hstops, hnext⟩ := hrun
      let came : World := { w with vm := vm₁, thread := some resume₁ }
      have hvm : came.collect.vm = { vm₁ with outbox := [] } := collect_vm came
      have halive : came.collect.vm.dead = false := (congrArg Vm.dead hvm).trans hstops.alive
      obtain ⟨stop', houtbox, hparked, hgoes⟩ := hgo halive
      cases stop' with
      | none => exact absurd houtbox (hevent hawake)
      | some e =>
          refine .inr ⟨done', e, vm₁, came.collect, rfl, ?_, hvm, hgrows, hgoes⟩
          have hids : (came.collect.vm.frames.map (·.id)).Nodup := hparked.stands.ids
          have hbottom : came.collect.vm.bottom 2 = w.vm.bottom 2 := hgoes.bottom
          rw [hvm] at hids hbottom
          obtain ⟨l, hl⟩ := h.halted.statement
          have hstatement := (hl.of_places hhanded.toProgress.places).of_bottom hbottom
          exact ⟨fun c n => (congrFun (congrFun hgoes.intercept c) n).trans (h.isOpen c n),
            hgoes.quiet, hparked, ⟨hstops, hids, l, hstatement⟩, houtbox, hreached, hlives,
            resume₁, collect_thread came, hnext⟩

/-- While nothing is asked for, the thread goes on to its end. -/
theorem Halted.ends {resume : Vm → Run Unit} (h : w.Halted home S final done stop vm₀)
    (hthread : w.thread = some resume) (hawake : w.vm.suspended = false)
    (hhanded : (S.noting done).Handed vm₀ w.vm) (hnone : w.vm.requests = []) :
    (w.arrive (resume w.vm)).Over final := by
  rcases h.stops hthread hawake hhanded (fun hb : False => hb.elim) with
    hover | ⟨_, _, _, _, -, -, -, -, hgoes⟩
  · exact hover
  · cases (hgoes.unstopped hnone hawake).2

/-- The thread goes on while the manager listens: it ends, or the manager hears where it has
stopped. -/
theorem Halted.go {resume : Vm → Run Unit} (h : w.Halted home S final done stop vm₀)
    (hthread : w.thread = some resume) {m : Manager} (hm : w.manager = some m) (hopen : m.IsOpen)
    {t : ActiveTrace} (hphase : m.phase = .listening t) (hinbox : m.inbox = [])
    (hawaits : t.ThreadResumed (S.noting done) vm₀ w.vm) :
    (w.arrive (resume w.vm)).Over final ∨ ∃ done' stop' vm₁ m',
      (w.arrive (resume w.vm)).Halted home S final done' stop' vm₁ ∧
        (w.arrive (resume w.vm)).manager = some m' ∧ m'.IsOpen ∧
          m'.Restorable (S.noting done') vm₁ (w.arrive (resume w.vm)).vm := by
  have hrestorable := hawaits.restorable
  let bound : Prop := w.vm.Armed ∧ ∃ e, stop = some e ∧ e.isHomeward = true
  rcases h.stops hthread hawaits.awake hrestorable.handed (fun hb : bound => hb) with
    hover | ⟨done', e, vm₁, w', harrive, h', hvm, hgrows, hgoes⟩
  · exact .inl hover
  rw [harrive]
  obtain ⟨r, hr, hraised⟩ := hgoes.raised e rfl
  have hmanager : w'.manager = some { m with inbox := [e] } := by
    rw [hgoes.manager, hm]
    simp [Manager.notify, hphase, hinbox]
  have hled : t.state.step.isSome = true →
      w'.vm.Armed ∧ e.isUncaught = true ∨ e.isStep = true ∧ w'.vm.frames.length = 2 := by
    intro hstep
    obtain ⟨harmed, e₀, he₀, hhomeward⟩ := hawaits.led hstep
    rw [h.raised, Option.mem_toList] at he₀
    rcases hgoes.homeward ⟨harmed, e₀, he₀, hhomeward⟩ with
      ⟨-, hnone⟩ | ⟨e', he', huncaught | hback⟩
    · cases hnone
    · obtain rfl := Option.some.inj he'
      obtain ⟨request, hrequest, haccepts⟩ := harmed
      have hkind : request.kind = EventKind.singleStep := by
        simp only [InstalledRequest.acceptsStep, Bool.and_eq_true, beq_iff_eq] at haccepts
        exact haccepts.1
      exact .inl ⟨⟨request, hgoes.spared e rfl huncaught request hrequest hkind, haccepts⟩,
        huncaught⟩
    · obtain rfl := Option.some.inj he'
      exact .inr hback
  refine .inr ⟨done', some e, vm₁, _, h', hmanager,
    ⟨hopen.shutdown, hopen.channelOpen, hopen.reading, hopen.eventsOpen⟩, ?_⟩
  unfold Manager.Restorable
  rw [hphase]
  have hused := hgoes.used
  have hbottom := hgoes.bottom
  have hplace := h'.parked.place e rfl
  rw [hvm] at hused hbottom hplace hled
  have harrives := hrestorable.arrives h'.halted rfl hgrows hused hbottom
  refine .inr ⟨e, rfl, ?_⟩
  rw [hvm]
  exact ActiveTrace.onEvent_harmless hawaits.thread hawaits.depth harrives rfl
    (h'.raised ▸ List.mem_singleton_self e) hplace hraised (hrestorable.held r hr) hled

/-! ## Taking turns -/

/-- The thread has stopped, and nothing has been taken from the program that it needs to go on. -/
structure Free (home : Home) (S : Scene) (final done : List (Fate Shown)) (stop : Option Event)
    (vm₀ : Vm) (w : World) : Prop extends w.Halted home S final done stop vm₀ where
  handed : (S.noting done).Handed vm₀ w.vm
  unasked : w.vm.requests = []

/-- The thread has ended, or it has stopped while the manager goes about its work. -/
def InProgress (home : Home) (S : Scene) (final : List (Fate Shown)) (w : World) : Prop :=
  w.Over final ∨ ∃ done stop vm₀ m, w.Halted home S final done stop vm₀ ∧
    w.manager = some m ∧ m.IsOpen ∧ m.Restorable (S.noting done) vm₀ w.vm

/-- The thread has ended, or it has stopped and no trace is in flight. -/
def Calm (home : Home) (S : Scene) (final : List (Fate Shown)) (w : World) : Prop :=
  w.Over final ∨ ∃ done stop vm₀ m, w.Free home S final done stop vm₀ ∧
    w.manager = some m ∧ m.IsOpen ∧ m.phase = .idle

/-- The thread has ended, or it has stopped, no trace is in flight and none is to come. -/
def Settled (home : Home) (S : Scene) (final : List (Fate Shown)) (w : World) : Prop :=
  w.Over final ∨ ∃ done stop vm₀ m, w.Free home S final done stop vm₀ ∧
    w.manager = some m ∧ m.IsOpen ∧ m.phase = .idle ∧ m.pending = [] ∧ m.channel = []

theorem Settled.calm (h : w.Settled home S final) : w.Calm home S final :=
  h.imp id fun ⟨done, stop, vm₀, m, hfree, hm, hopen, hidle, _⟩ =>
    ⟨done, stop, vm₀, m, hfree, hm, hopen, hidle⟩

theorem Calm.inProgress (h : w.Calm home S final) : w.InProgress home S final :=
  h.imp id fun ⟨done, stop, vm₀, m, hfree, hm, hopen, hidle⟩ =>
    ⟨done, stop, vm₀, m, hfree.toHalted, hm, hopen, by
      unfold Manager.Restorable
      rw [hidle]
      exact ⟨hfree.handed, hfree.unasked⟩⟩

theorem released_eq (w : World) (h : w.vm.dead = false) : w.released = !w.vm.suspended := by
  rw [released, h, Bool.false_or]

/-- When the manager has had its turn, nothing is left to do, or the thread has its turn. -/
theorem InProgress.turn {resume : Vm → Run Unit} (h : w.InProgress home S final)
    (hthread : w.thread = some resume) :
    w.manageAll.thread = some resume ∧
      (w.manageAll.released = false ∧ w.manageAll.Settled home S final ∨
        w.manageAll.released = true ∧
          (w.manageAll.arrive (resume w.manageAll.vm)).InProgress home S final) := by
  rcases h with hover | ⟨done, stop, vm₀, m, hhalted, hm, hopen, hrestorable⟩
  · cases hthread.symm.trans hover.thread
  obtain ⟨m', hm', hopen', h', hthread', hrests⟩ :=
    hhalted.manage (stepBound m) hm hopen hrestorable m.load_lt_stepBound
  have hall : w.manageAll = manage (stepBound m) w := by
    unfold manageAll
    rw [hm]
  rw [hall]
  rw [hthread] at hthread'
  generalize manage (stepBound m) w = w' at hm' h' hthread' hrests
  have hreleased : ∀ {vm}, (S.noting done).Handed vm₀ vm → w'.vm = vm →
      w'.released = !w'.vm.suspended := fun hhanded hvm =>
    released_eq w' (hvm ▸ hhanded.dead.trans h'.halted.alive)
  rcases hrests with ⟨⟨hidle, hpending, hchannel⟩, hhanded, hnone⟩ | ⟨t, hphase, hinbox, hawaits⟩
  · rw [hreleased hhanded rfl]
    cases hsuspended : w'.vm.suspended with
    | true =>
        exact ⟨hthread', .inl ⟨rfl, .inr ⟨done, stop, vm₀, m', ⟨h', hhanded, hnone⟩, hm', hopen',
          hidle, hpending, hchannel⟩⟩⟩
    | false => exact ⟨hthread', .inr ⟨rfl, .inl (h'.ends hthread' hsuspended hhanded hnone)⟩⟩
  · rw [hreleased hawaits.restorable.handed rfl, hawaits.awake]
    exact ⟨hthread', .inr ⟨rfl, h'.go hthread' hm' hopen' hphase hinbox hawaits⟩⟩

theorem Over.settleAt {r : Run Unit} (h : (w.arrive r).Over final) :
    (settleAt r w).Over final := by
  cases r with
  | ended u vm => exact h.manageAll
  | waiting vm resume =>
      let came : World := { w with vm, thread := some resume }
      cases (collect_thread came).symm.trans h.thread

/-- Manager and thread take turns until neither can move. -/
theorem InProgress.settleAt {r : Run Unit} (h : (w.arrive r).InProgress home S final) :
    (settleAt r w).Settled home S final := by
  induction r generalizing w with
  | ended u vm =>
      let ended : World := { w with vm, thread := none }
      rcases h with hover | ⟨_, _, _, _, hhalted, -⟩
      · exact .inl hover.settleAt
      · obtain ⟨resume, hresume, -⟩ := hhalted.resumes
        cases (collect_thread ended).symm.trans hresume
  | waiting vm resume ih =>
      let came : World := { w with vm, thread := some resume }
      unfold World.settleAt
      obtain ⟨-, ⟨hreleased, hsettled⟩ | ⟨hreleased, hnext⟩⟩ := h.turn (collect_thread came)
      · rw [if_neg]
        · exact hsettled
        · exact Bool.eq_false_iff.mp hreleased
      · rw [if_pos]
        · exact ih _ hnext
        · exact hreleased

theorem InProgress.settle (h : w.InProgress home S final) : w.settle.Settled home S final := by
  cases hthread : w.thread with
  | none =>
      rcases h with hover | ⟨_, _, _, _, hhalted, -⟩
      · exact .inl hover.settle
      · obtain ⟨resume, hresume, -⟩ := hhalted.resumes
        cases hthread.symm.trans hresume
  | some resume =>
      obtain ⟨hthread', hturn⟩ := h.turn hthread
      unfold World.settle
      dsimp only
      rw [hthread']
      rcases hturn with ⟨hreleased, hsettled⟩ | ⟨hreleased, hnext⟩
      · rw [hreleased]
        exact hsettled
      · rw [hreleased]
        exact hnext.settleAt

/-- A manager that waits for requests lets everything be. -/
theorem manageAll_of_idle (h : ∀ m, w.manager = some m →
    m.IsOpen ∧ m.phase = .idle ∧ m.pending = [] ∧ m.channel = []) : w.manageAll = w := by
  cases hm : w.manager with
  | none =>
      unfold manageAll
      rw [hm]
  | some m =>
      obtain ⟨hopen, hidle, hpending, hchannel⟩ := h m hm
      have hwork : w.work = w := by
        unfold World.work
        rw [hm]
        dsimp only
        rw [hidle]
      have hnext : m.next? = none := by
        rcases m.next?_spec hopen with ⟨m', -, hturn⟩ | ⟨hnone, -⟩
        · cases hturn with
          | finishes phase => cases hidle.symm.trans phase
          | listens t phase => cases hidle.symm.trans phase
          | hears t e rest phase inbox => cases hidle.symm.trans phase
          | queues t r rest phase inbox channel => cases hidle.symm.trans phase
          | resumes r rest phase pending => cases hpending.symm.trans pending
          | receives r rest phase pending channel => cases hchannel.symm.trans channel
        · exact hnone
      unfold manageAll
      rw [hm]
      show manage (_ + 1) w = w
      unfold World.manage
      dsimp only
      rw [hwork, hm, Option.bind_some, hnext]

/-- Someone lets the thread go on, and waits until nothing moves. -/
def resumed (w : World) : World := (w.command .resumeVm).2.settle

/-- A thread that has been let go on is free to do so. -/
theorem Free.command (h : w.Free home S final done stop vm₀) :
    let w' := (w.command .resumeVm).2
    w'.Free home S final done stop vm₀ ∧ w'.manager = w.manager ∧ w'.vm.suspended = false := by
  intro w'
  obtain ⟨hserves, hsame⟩ := w.perform_responds (.command .resumeVm) h.isOpen h.quiet
  have hvm : w'.vm = { w.vm with suspended := false } := by
    have halive : ¬w.vm.dead = true := by simp [h.handed.dead, h.halted.alive]
    have hanswer : w'.vm = (w.vm.answer .resumeVm).2 := (congrArg Prod.snd hserves.answer).symm
    rw [hanswer, Vm.answer_resumeVm, if_neg halive]
  refine ⟨⟨h.toHalted.next hsame.thread hsame.intercept hserves.performed.inPlace, ?_, ?_⟩,
    hsame.manager, ?_⟩
  · rw [hvm]
    exact h.handed.awake
  · rw [hvm]
    exact h.unasked
  · rw [hvm]

/-- If no trace is to come, the thread goes on to its end. -/
theorem Free.resumed (h : w.Free home S final done stop vm₀) (hnone : ∀ m, w.manager = some m →
      m.IsOpen ∧ m.phase = .idle ∧ m.pending = [] ∧ m.channel = []) : w.resumed.Over final := by
  obtain ⟨hfree, hmanager, hawake⟩ := h.command
  unfold World.resumed
  generalize (w.command .resumeVm).2 = w' at hfree hmanager hawake ⊢
  obtain ⟨resume, hthread, -⟩ := hfree.resumes
  have hover := hfree.toHalted.ends hthread hawake hfree.handed hfree.unasked
  have hreleased : w'.released = true := by simp [released, hawake]
  have hidle : w'.manageAll = w' := manageAll_of_idle (hmanager ▸ hnone)
  unfold World.settle
  dsimp only
  rw [hidle, hthread]
  dsimp only
  rw [if_pos hreleased]
  exact hover.settleAt

theorem Settled.resumed (h : w.Settled home S final) : w.resumed.Over final := by
  rcases h with hover | ⟨done, stop, vm₀, m, hfree, hm, hnone⟩
  · exact (hover.command _).settle
  · refine hfree.resumed fun m' hm' => ?_
    obtain rfl := Option.some.inj (hm.symm.trans hm')
    exact hnone

theorem Calm.resumed (h : w.Calm home S final) : w.resumed.Calm home S final := by
  rcases h with hover | ⟨done, stop, vm₀, m, hfree, hm, hopen, hidle⟩
  · exact .inl (hover.command _).settle
  · obtain ⟨hfree', hmanager, -⟩ := hfree.command
    exact (Calm.inProgress
      (.inr ⟨done, stop, vm₀, m, hfree', hmanager.trans hm, hopen, hidle⟩)).settle.calm

/-- A trace is asked for. -/
theorem Calm.request (h : w.Calm home S final) {r : TraceRequest} (hr : w.request r = .ok w') :
    w'.Calm home S final := by
  unfold World.request at hr
  cases hm : w.manager with
  | none =>
      rw [hm] at hr
      cases hr
  | some m =>
      rw [hm] at hr
      dsimp only at hr
      cases hrequest : m.request r with
      | error e =>
          rw [hrequest] at hr
          cases hr
      | ok m' =>
          rw [hrequest] at hr
          obtain rfl := Except.ok.inj hr
          rcases h with hover | ⟨done, stop, vm₀, m₀, hfree, hm₀, hopen, hidle⟩
          · exact .inl (hover.next hover.thread ⟨hover.tidy, .refl _, rfl, rfl, rfl⟩)
          · obtain rfl := Option.some.inj (hm.symm.trans hm₀)
            have hm' : m' = { m with channel := m.channel ++ [r] } := by
              unfold Manager.request at hrequest
              split at hrequest
              · cases hrequest
              · exact (Except.ok.inj hrequest).symm
            subst hm'
            exact .inr ⟨done, stop, vm₀, _, ⟨hfree.toHalted.next rfl rfl (.refl _), hfree.handed,
              hfree.unasked⟩, rfl, ⟨hopen.shutdown, hopen.channelOpen, hopen.reading,
                hopen.eventsOpen⟩, hidle⟩

end World

end StreamTrace
