import StreamTrace.Proofs.Debugger.Choices
import StreamTrace.Proofs.Debugger.TraceLedger

/-!
# Runs of a manager

What a manager does with the requests that it accepts, whatever happens to it in between. The steps
of a manager are told by deeds, and the deeds of a run make up episodes: a request is begun, its
trace goes on, and it ends before the next one is begun.
-/

namespace StreamTrace

/-- What happens to the requests of a manager. -/
inductive Deed where
  /-- A request has arrived. -/
  | accepts (r : TraceRequest)
  | begins (r : TraceRequest)
  /-- The trace in flight does something, or hears of an event. -/
  | goesOn (m : Moment)
  /-- The manager is through with the trace in flight. -/
  | ends

abbrev Trail := List Deed

def Deed.accepted? : Deed → Option TraceRequest
  | accepts r => some r
  | _ => none

def Deed.isWork : Deed → Bool
  | accepts _ => false
  | _ => true

namespace Trail

/-- The requests that arrived, in their order. -/
def accepted (trail : Trail) : List TraceRequest := trail.filterMap Deed.accepted?

/-- What was done about them. -/
def work (trail : Trail) : Trail := trail.filter Deed.isWork

@[simp] theorem accepted_append (trail trail' : Trail) :
    accepted (trail ++ trail') = trail.accepted ++ trail'.accepted := List.filterMap_append

@[simp] theorem work_append (trail trail' : Trail) :
    work (trail ++ trail') = trail.work ++ trail'.work := List.filter_append ..

@[simp] theorem accepted_goesOn (h : History) : accepted (h.map .goesOn) = [] := by
  simp [accepted, Deed.accepted?]

end Trail

namespace Manager

/-- What a choice does about the requests. -/
def deed (m : Manager) : Choice → Option Deed
  | .resume => m.pending.head?.map .begins
  | .receive => m.channel.head?.map .begins
  | .event => m.inbox.head?.map fun e => .goesOn (.heard e)
  | .conclude =>
    match m.phase with
    | .working (.done .finished) => some .ends
    | _ => none
  | _ => none

/-- The steps of a manager, with what they do about the requests. -/
inductive Does : Manager → Option Deed → Manager → Prop where
  | choice {m m' : Manager} (c : Choice) (h : m.choose c = some m') : Does m (m.deed c) m'
  | action {m : Manager} (a : Action) (next : a.Reply → Program Continuation) (r : a.Reply)
      (h : m.phase = .working (.act a next)) :
      Does m (some (.goesOn (.did a r))) { m with phase := .working (next r) }
  | request {m m' : Manager} (r : TraceRequest) (h : m.request r = .ok m') :
      Does m (some (.accepts r)) m'
  | shutdown {m : Manager} : Does m none m.requestShutdown
  | closeChannel {m : Manager} : Does m none m.closeChannel
  | event {m : Manager} (e : Event) : Does m none (m.notify e)
  | eventsEnd {m : Manager} : Does m none { m with eventsOpen := false }

theorem step_iff_does {m m' : Manager} : m.Step m' ↔ ∃ d, m.Does d m' := by
  constructor
  · intro hstep
    cases hstep with
    | choice c h => exact ⟨_, .choice c h⟩
    | action a next r h => exact ⟨_, .action a next r h⟩
    | request r h => exact ⟨_, .request r h⟩
    | shutdown => exact ⟨_, .shutdown⟩
    | closeChannel => exact ⟨_, .closeChannel⟩
    | event e => exact ⟨_, .event e⟩
    | eventsEnd => exact ⟨_, .eventsEnd⟩
  · rintro ⟨d, hdoes⟩
    cases hdoes with
    | choice c h => exact .choice c h
    | action a next r h => exact .action a next r h
    | request r h => exact .request r h
    | shutdown => exact .shutdown
    | closeChannel => exact .closeChannel
    | event e => exact .event e
    | eventsEnd => exact .eventsEnd

/-- What can happen to a manager, from its start on. Nobody asks through a handle that is gone. -/
inductive Run (options : TraceOptions) : Trail → Manager → Prop where
  | start : Run options [] { options }
  | step {trail : Trail} {m m' : Manager} {d : Option Deed} (run : Run options trail m)
      (does : m.Does d m') (handle : ∀ r, d = some (.accepts r) → m.channelOpen = true) :
      Run options (trail ++ d.toList) m'

/-- What happens to a manager from some moment on. -/
inductive Later (m : Manager) : Trail → Manager → Prop where
  | refl : Later m [] m
  | step {trail : Trail} {m' m'' : Manager} {d : Option Deed} (later : Later m trail m')
      (does : m'.Does d m'') (handle : ∀ r, d = some (.accepts r) → m'.channelOpen = true) :
      Later m (trail ++ d.toList) m''

theorem Run.append {options : TraceOptions} {trail trail' : Trail} {m m' : Manager}
    (run : Run options trail m) (later : m.Later trail' m') :
    Run options (trail ++ trail') m' := by
  induction later with
  | refl => rwa [List.append_nil]
  | step _ does handle ih =>
      rw [← List.append_assoc]
      exact ih.step does handle

end Manager

/-! ## Episodes -/

/-- A request with the history of its trace. -/
structure Episode where
  request : TraceRequest
  history : History

namespace Episode

/-- What is done about the request while its trace is in flight. -/
def deeds (e : Episode) : Trail := .begins e.request :: e.history.map .goesOn

/-- The same up to its end. -/
def whole (e : Episode) : Trail := e.deeds ++ [.ends]

/-- The same with one more moment. -/
def snoc (e : Episode) (m : Moment) : Episode := { e with history := e.history ++ [m] }

theorem deeds_snoc (e : Episode) (m : Moment) : (e.snoc m).deeds = e.deeds ++ [.goesOn m] := by
  simp [deeds, snoc]

/-- The program that is left of the trace. -/
def Remaining (options : TraceOptions) (e : Episode) (q : Program Continuation) : Prop :=
  TraceRun options e.request e.history q

end Episode

namespace Manager

variable {options : TraceOptions} {trail : Trail} {m m' : Manager} {done : List Episode}
  {current : Option Episode} {e : Episode}

/-- The trace in flight is the one that the phase says. -/
def InFlight (options : TraceOptions) (m : Manager) (current : Option Episode) : Prop :=
  match m.phase with
  | .idle => current = none
  | .stopped => current = none
  | .working q => ∃ e, current = some e ∧ e.Remaining options q
  | .listening t => ∃ e, current = some e ∧ e.Remaining options (.done (.listen t))

/-- The run of a manager, told by episodes: those that are done, and the one in flight. -/
structure EpisodeLog (options : TraceOptions) (trail : Trail) (m : Manager) (done : List Episode)
    (current : Option Episode) : Prop where
  same : m.options = options
  inFlight : m.InFlight options current
  complete : ∀ e ∈ done, e.Remaining options (.done .finished)
  work : trail.work = done.flatMap Episode.whole ++ current.toList.flatMap Episode.deeds
  requests : trail.accepted = done.map Episode.request ++ current.toList.map Episode.request ++
    (m.pending ++ m.channel)
  closed : m.reading = false → m.channel = [] ∧ m.channelOpen = false
  stopped : m.phase = .stopped → m.shutdown = false → m.pending = [] ∧ m.channel = []

theorem episodeLog_start : EpisodeLog options [] { options } [] none :=
  ⟨rfl, rfl, fun _ he => absurd he List.not_mem_nil, rfl, rfl,
    fun h => (by cases h), fun h => (by cases h)⟩

/-- A step that does nothing about the requests. -/
theorem EpisodeLog.idles (ht : m.EpisodeLog options trail done current)
    (hoptions : m'.options = m.options)
    (hphase : m'.phase = m.phase) (hpending : m'.pending = m.pending)
    (hchannel : m'.channel = m.channel) (hclosed : m'.reading = false → m'.channelOpen = false)
    (hreading : m'.reading = false → m'.channel = [])
    (hshutdown : m.shutdown = true → m'.shutdown = true) :
    m'.EpisodeLog options trail done current where
  same := hoptions.trans ht.same
  inFlight := by
    unfold InFlight
    rw [hphase]
    exact ht.inFlight
  complete := ht.complete
  work := ht.work
  requests := by rw [hpending, hchannel, ht.requests]
  closed h := ⟨hreading h, hclosed h⟩
  stopped hstop hno := by
    rw [hphase] at hstop
    rw [hpending, hchannel]
    refine ht.stopped hstop ?_
    by_contra hyes
    rw [hshutdown (by simpa using hyes)] at hno
    cases hno

/-- The trace in flight goes on with one more moment. -/
theorem EpisodeLog.goesOn (ht : m.EpisodeLog options trail done (some e)) {moment : Moment}
    (hoptions : m'.options = m.options) (hpending : m'.pending = m.pending)
    (hchannel : m'.channel = m.channel) (hreading : m'.reading = m.reading)
    (hopen : m'.channelOpen = m.channelOpen) {q : Program Continuation}
    (hphase : m'.phase = .working q) (hq : (e.snoc moment).Remaining options q) :
    m'.EpisodeLog options (trail ++ [.goesOn moment]) done (some (e.snoc moment)) where
  same := hoptions.trans ht.same
  inFlight := by
    unfold InFlight
    rw [hphase]
    exact ⟨_, rfl, hq⟩
  complete := ht.complete
  work := by
    rw [Trail.work_append, ht.work]
    simp [Trail.work, Deed.isWork, Episode.deeds_snoc]
  requests := by
    rw [Trail.accepted_append, ht.requests, hpending, hchannel]
    simp [Trail.accepted, Deed.accepted?, Episode.snoc]
  closed h := by
    rw [hchannel, hopen]
    exact ht.closed (hreading ▸ h)
  stopped h := by
    rw [hphase] at h
    cases h

/-- A trace is begun while none is in flight. -/
theorem EpisodeLog.begins (ht : m.EpisodeLog options trail done none) {r : TraceRequest}
    (pending channel : List TraceRequest)
    (hwait : m.pending ++ m.channel = r :: (pending ++ channel))
    (hclosed : m.reading = false → channel = [] ∧ m.channelOpen = false) :
    (start { m with pending, channel } r).EpisodeLog options (trail ++ [.begins r]) done
      (some ⟨r, []⟩) where
  same := ht.same
  inFlight := by
    refine ⟨_, rfl, ?_⟩
    rw [ht.same]
    exact .start
  complete := ht.complete
  work := by
    rw [Trail.work_append, ht.work]
    simp [Trail.work, Deed.isWork, Episode.deeds]
  requests := by
    rw [Trail.accepted_append, ht.requests, hwait]
    simp [Trail.accepted, Deed.accepted?, start]
  closed := hclosed
  stopped h := by cases h

/-- The trace in flight is through. -/
theorem EpisodeLog.ends (ht : m.EpisodeLog options trail done (some e))
    (hdone : e.Remaining options (.done .finished))
    (hphase : m'.phase = .idle ∨ m'.phase = .stopped ∧ m'.shutdown = true)
    (hoptions : m'.options = m.options) (hpending : m'.pending = m.pending)
    (hchannel : m'.channel = m.channel) (hreading : m'.reading = m.reading)
    (hopen : m'.channelOpen = m.channelOpen) :
    m'.EpisodeLog options (trail ++ [.ends]) (done ++ [e]) none where
  same := hoptions.trans ht.same
  inFlight := by
    unfold InFlight
    rcases hphase with hphase | ⟨hphase, -⟩ <;> rw [hphase]
  complete e' he' := by
    rcases List.mem_append.mp he' with he' | he'
    · exact ht.complete e' he'
    · rw [List.mem_singleton.mp he']
      exact hdone
  work := by
    rw [Trail.work_append, ht.work]
    simp [Trail.work, Deed.isWork, Episode.whole]
  requests := by
    rw [Trail.accepted_append, ht.requests, hpending, hchannel]
    simp [Trail.accepted, Deed.accepted?]
  closed h := by
    rw [hchannel, hopen]
    exact ht.closed (hreading ▸ h)
  stopped h hno := by
    rcases hphase with hphase | ⟨-, hyes⟩
    · rw [hphase] at h
      cases h
    · rw [hyes] at hno
      cases hno

/-- The program of the trace in flight is another one, of the same history. -/
theorem EpisodeLog.rephase (ht : m.EpisodeLog options trail done current) {phase : Phase}
    (hflight : { m with phase }.InFlight options current)
    (hphase : phase = .stopped → m.shutdown = false → m.pending = [] ∧ m.channel = []) :
    { m with phase }.EpisodeLog options trail done current :=
  ⟨ht.same, hflight, ht.complete, ht.work, ht.requests, ht.closed, hphase⟩

/-- What a choice does is told by the same episodes, or by one more. -/
theorem EpisodeLog.choice (ht : m.EpisodeLog options trail done current) {c : Choice}
    (hc : m.Chosen c m') :
    ∃ done' current', m'.EpisodeLog options (trail ++ (m.deed c).toList) done' current' := by
  have hflight := ht.inFlight
  unfold InFlight at hflight
  -- Two choices begin a trace and one ends it. The others move a request from queue to queue, or
  -- give the trace in flight another program.
  cases hc with
  | resume r rest phase pending =>
      rw [phase] at hflight
      subst hflight
      simp only [deed, pending, List.head?_cons, Option.map_some, Option.toList_some]
      exact ⟨_, _, ht.begins rest m.channel (by rw [pending]; rfl) ht.closed⟩
  | receive r rest phase pending reading channel =>
      rw [phase] at hflight
      subst hflight
      simp only [deed, channel, List.head?_cons, Option.map_some, Option.toList_some]
      refine ⟨_, _, ht.begins m.pending rest (by rw [pending, channel]; rfl) fun h => ?_⟩
      rw [reading] at h
      cases h
  | stop phase pending nothing =>
      simp only [deed, Option.toList_none, List.append_nil]
      rw [phase] at hflight
      refine ⟨_, _, ht.rephase hflight fun _ hno => ⟨pending, ?_⟩⟩
      rcases nothing with hreading | hasked | ⟨hempty, -⟩
      · exact (ht.closed hreading).1
      · rw [hno] at hasked
        cases hasked
      · exact hempty
  | finish phase =>
      rw [phase] at hflight
      obtain ⟨e, rfl, he⟩ := hflight
      simp only [deed, phase, Option.toList_some]
      refine ⟨_, _, ht.ends he ?_ rfl rfl rfl rfl rfl⟩
      dsimp only
      split
      · exact .inr ⟨rfl, ‹_›⟩
      · exact .inl rfl
  | listen t phase =>
      rw [phase] at hflight
      obtain ⟨e, rfl, he⟩ := hflight
      simp only [deed, phase, Option.toList_none, List.append_nil]
      exact ⟨_, _, ht.rephase ⟨e, rfl, he⟩ fun h => by cases h⟩
  | queue t r rest phase reading channel =>
      simp only [deed, Option.toList_none, List.append_nil]
      refine ⟨done, current, ht.same, hflight, ht.complete, ht.work, ?_, ?_, ?_⟩
      · rw [ht.requests, channel]
        simp
      · intro h
        rw [reading] at h
        cases h
      · intro h
        rw [phase] at h
        cases h
  | close t phase reading channel closed =>
      simp only [deed, Option.toList_none, List.append_nil]
      refine ⟨done, current, ht.same, hflight, ht.complete, ht.work, ht.requests,
        fun _ => ⟨channel, closed⟩, ?_⟩
      intro h
      rw [phase] at h
      cases h
  | event t event rest phase inbox =>
      rw [phase] at hflight
      obtain ⟨e, rfl, he⟩ := hflight
      simp only [deed, inbox, List.head?_cons, Option.map_some, Option.toList_some]
      exact ⟨_, _, ht.goesOn rfl rfl rfl rfl rfl rfl (TraceRun.event event he)⟩
  | cancel t phase | lose t phase =>
      rw [phase] at hflight
      obtain ⟨e, rfl, he⟩ := hflight
      simp only [deed, Option.toList_none, List.append_nil]
      exact ⟨_, _, ht.rephase ⟨e, rfl, TraceRun.cancel _ he⟩ fun h => by cases h⟩

theorem notify_eq (m : Manager) (event : Event) :
    ∃ inbox, m.notify event = { m with inbox } := by
  unfold notify
  split
  · exact ⟨_, rfl⟩
  · exact ⟨_, rfl⟩
  · exact ⟨_, rfl⟩
  · exact ⟨_, rfl⟩

/-- So is every other step. -/
theorem EpisodeLog.does (ht : m.EpisodeLog options trail done current) {d : Option Deed}
    (hd : m.Does d m')
    (handle : ∀ r, d = some (.accepts r) → m.channelOpen = true) :
    ∃ done' current', m'.EpisodeLog options (trail ++ d.toList) done' current' := by
  cases hd with
  | choice c hc => exact ht.choice (chosen_of_choose hc)
  | action a next r hphase =>
      have hflight := ht.inFlight
      unfold InFlight at hflight
      rw [hphase] at hflight
      obtain ⟨e, rfl, he⟩ := hflight
      exact ⟨_, _, ht.goesOn rfl rfl rfl rfl rfl rfl (TraceRun.act r he)⟩
  | request r hr =>
      -- Whoever asks still has a handle, so the manager has not noted that the channel is closed.
      have hopen := handle r rfl
      unfold Manager.request at hr
      split at hr
      · cases hr
      · rename_i hphase
        cases hr
        refine ⟨done, current, ht.same, ht.inFlight, ht.complete, ?_, ?_, fun h => ?_, fun h => ?_⟩
        · rw [Trail.work_append, ht.work]
          simp [Trail.work, Deed.isWork]
        · rw [Trail.accepted_append, ht.requests]
          simp [Trail.accepted, Deed.accepted?]
        · rw [(ht.closed h).2] at hopen
          cases hopen
        · exact absurd h (by simpa using hphase)
  | shutdown =>
      rw [Option.toList_none, List.append_nil]
      exact ⟨_, _, ht.idles rfl rfl rfl rfl (fun h => (ht.closed h).2) (fun h => (ht.closed h).1)
        fun _ => rfl⟩
  | closeChannel =>
      rw [Option.toList_none, List.append_nil]
      exact ⟨_, _, ht.idles rfl rfl rfl rfl (fun _ => rfl) (fun h => (ht.closed h).1) id⟩
  | event event =>
      rw [Option.toList_none, List.append_nil]
      obtain ⟨inbox, hnotify⟩ := notify_eq m event
      rw [hnotify]
      exact ⟨_, _, ht.idles rfl rfl rfl rfl (fun h => (ht.closed h).2) (fun h => (ht.closed h).1)
        id⟩
  | eventsEnd =>
      rw [Option.toList_none, List.append_nil]
      exact ⟨_, _, ht.idles rfl rfl rfl rfl (fun h => (ht.closed h).2) (fun h => (ht.closed h).1)
        id⟩

theorem Run.episodeLog (run : Run options trail m) :
    ∃ done current, m.EpisodeLog options trail done current := by
  induction run with
  | start => exact ⟨_, _, episodeLog_start⟩
  | step _ does handle ih =>
      obtain ⟨done, current, ht⟩ := ih
      exact ht.does does handle

/-- A manager that waits while a request does can begin with the one that arrived first. -/
theorem can_begin {r : TraceRequest} {rest : List TraceRequest} (hphase : m.phase = .idle)
    (hwait : m.pending ++ m.channel = r :: rest) (hclosed : m.reading = false → m.channel = []) :
    ∃ c m', m.choose c = some m' ∧ m.deed c = some (.begins r) := by
  cases hpending : m.pending with
  | cons r' pending =>
      rw [hpending] at hwait
      obtain rfl : r' = r := (List.cons.inj hwait).1
      exact ⟨.resume, _, choose_iff.mpr (.resume _ _ hphase hpending), by simp [deed, hpending]⟩
  | nil =>
      rw [hpending, List.nil_append] at hwait
      have hreading : m.reading = true := by
        by_contra hno
        rw [hclosed (by simpa using hno)] at hwait
        cases hwait
      exact ⟨.receive, _, choose_iff.mpr (.receive _ _ hphase hpending hreading hwait),
        by simp [deed, hwait]⟩

/-- If nobody asks it to stop, it can do nothing else. -/
theorem begins_of_idle {r : TraceRequest} {rest : List TraceRequest} (hphase : m.phase = .idle)
    (hwait : m.pending ++ m.channel = r :: rest) (hclosed : m.reading = false → m.channel = [])
    (hshutdown : m.shutdown = false) :
    (∃ c m', m.choose c = some m') ∧
      ∀ c m', m.choose c = some m' → m.deed c = some (.begins r) := by
  obtain ⟨c, m', hc, -⟩ := can_begin hphase hwait hclosed
  refine ⟨⟨c, m', hc⟩, fun c m' hc => ?_⟩
  cases chosen_of_choose hc with
  | resume r' rest' phase pending =>
      rw [pending] at hwait
      obtain rfl : r' = r := (List.cons.inj hwait).1
      simp [deed, pending]
  | receive r' rest' phase pending reading channel =>
      rw [pending, channel] at hwait
      obtain rfl : r' = r := (List.cons.inj hwait).1
      simp [deed, channel]
  | stop phase pending nothing =>
      rw [pending, List.nil_append] at hwait
      rcases nothing with hreading | hasked | ⟨hempty, -⟩
      · rw [hclosed hreading] at hwait
        cases hwait
      · cases hshutdown.symm.trans hasked
      · rw [hempty] at hwait
        cases hwait
  | finish phase | listen t phase | queue t r' rest' phase | close t phase | event t e rest' phase
  | cancel t phase | lose t phase => cases hphase.symm.trans phase

end Manager

/-- A manager whose target has a fixed reply to every action performs the whole program. -/
theorem Manager.Later.transcript {trail : Trail} {m m' : Manager} (reply : (a : Action) → a.Reply)
    {q : Program Continuation} (later : m.Later trail m') (hphase : m'.phase = .working q) :
    m.Later (trail ++ (q.transcript reply).1.map .goesOn)
      { m' with phase := .working (.done (q.transcript reply).2) } := by
  induction q generalizing trail m' with
  | done k =>
      have hm : m' = { m' with phase := .working (.done k) } := by rw [← hphase]
      rw [hm] at later
      simpa [Program.transcript] using later
  | act a next ih =>
      have hnext := later.step (.action a next (reply a) hphase) fun r h => by cases h
      simpa [Program.transcript] using ih (reply a) hnext rfl

theorem Manager.Run.transcript {options : TraceOptions} {trail : Trail} {m : Manager}
    (reply : (a : Action) → a.Reply) {q : Program Continuation} (run : Manager.Run options trail m)
    (hphase : m.phase = .working q) :
    Manager.Run options (trail ++ (q.transcript reply).1.map .goesOn)
      { m with phase := .working (.done (q.transcript reply).2) } :=
  run.append (Later.refl.transcript reply hphase)

/-- A trace that comes to its end is through. -/
theorem Manager.Run.conclude {options : TraceOptions} {trail : Trail} {m : Manager}
    (reply : (a : Action) → a.Reply) {q : Program Continuation} (run : Manager.Run options trail m)
    (hphase : m.phase = .working q) (hfinished : (q.transcript reply).2 = .finished) :
    Manager.Run options (trail ++ (q.transcript reply).1.map .goesOn ++ [.ends])
      { m with phase := if m.shutdown then .stopped else .idle, inbox := [] } := by
  have hdone := run.transcript reply hphase
  rw [hfinished] at hdone
  exact hdone.step (.choice .conclude rfl) fun _ h => by cases h

/-- A step that nothing is told of. -/
theorem Manager.Run.silent {options : TraceOptions} {trail : Trail} {m m' : Manager}
    (run : Manager.Run options trail m) (does : m.Does none m') : Manager.Run options trail m' := by
  have hstep := run.step does fun _ h => by cases h
  rwa [Option.toList_none, List.append_nil] at hstep

/-! ## One request after the other -/

namespace Episode

/-- The trace has told its outcome, once, and then only let go of what it had pinned. -/
def IsTold (e : Episode) : Prop :=
  ∃ (before : History) (r : Report) (after : History),
    e.history = before ++ .did (.deliver r) () :: after ∧ before.Ends r after

/-- It has let go of all that it had pinned. -/
def IsOver (e : Episode) : Prop :=
  ∃ (before : History) (r : Report) (after : History),
    e.history = before ++ .did (.deliver r) () :: after ∧ before.Ends r after ∧
      after.enabled.Perm before.pinned

end Episode

theorem Manager.InFlight.remaining {options : TraceOptions} {m : Manager} {e : Episode}
    (hf : m.InFlight options (some e)) : ∃ q, e.Remaining options q := by
  unfold InFlight at hf
  split at hf
  · cases hf
  · cases hf
  · obtain ⟨e', he, hleaves⟩ := hf
    exact ⟨_, Option.some.inj he ▸ hleaves⟩
  · obtain ⟨e', he, hleaves⟩ := hf
    exact ⟨_, Option.some.inj he ▸ hleaves⟩

/-- The trace in flight has told nothing final yet, or it is about to end. -/
theorem Manager.InFlight.told {options : TraceOptions} {m : Manager} {current : Option Episode}
    {e : Episode} (hf : m.InFlight options current) (he : current = some e) :
    e.history.finals = [] ∨ e.IsTold := by
  -- Whatever is left of the trace in flight, its history is lawful.
  subst he
  obtain ⟨q, hq⟩ := hf.remaining
  by_cases hfinals : e.history.finals = []
  · exact .inl hfinals
  · exact .inr ((TraceRun.lawful hq).1.ends hfinals)

/-- A manager that nobody asks to stop takes the requests one by one, in the order in which they
arrived, and loses none: what it did is a number of episodes that are over and at most one that is
not, and the requests that are left wait in its two queues. An episode that is over has told the
state that was published last, in one final report, and let go of all its pins before the next one
began. A manager that has stopped leaves no request behind, and one that is idle can only begin with
the next. -/
theorem Manager.Run.requests_in_turn {options : TraceOptions} {trail : Trail} {m : Manager}
    (run : Manager.Run options trail m) (hshutdown : m.shutdown = false) :
    ∃ (done : List Episode) (current : Option Episode),
      trail.work = done.flatMap Episode.whole ++ current.toList.flatMap Episode.deeds ∧
      trail.accepted = done.map Episode.request ++ current.toList.map Episode.request ++
        (m.pending ++ m.channel) ∧
      (∀ e ∈ done, e.IsOver) ∧
      (∀ e, current = some e → e.history.finals = [] ∨ e.IsTold) ∧
      (m.phase = .stopped → current = none ∧ m.pending ++ m.channel = []) ∧
      ∀ r rest, m.phase = .idle → m.pending ++ m.channel = r :: rest → current = none ∧
        (∃ c m', m.choose c = some m') ∧
          ∀ c m', m.choose c = some m' → m.deed c = some (.begins r) := by
  obtain ⟨done, current, ht⟩ := run.episodeLog
  have hflight := ht.inFlight
  unfold Manager.InFlight at hflight
  refine ⟨done, current, ht.work, ht.requests, fun e he => (ht.complete e he).ends,
    fun e he => ht.inFlight.told he, fun hphase => ?_, fun r rest hphase hwait => ?_⟩
  · rw [hphase] at hflight
    obtain ⟨hpending, hchannel⟩ := ht.stopped hphase hshutdown
    exact ⟨hflight, by rw [hpending, hchannel]; rfl⟩
  · rw [hphase] at hflight
    exact ⟨hflight, Manager.begins_of_idle hphase hwait (fun h => (ht.closed h).1) hshutdown⟩

/-! ### A request that waits for another trace -/

/-- A debuggee that refuses every command. -/
def refusing : (a : Action) → a.Reply
  | .command _ => .error .timeout
  | .publish _ => ()
  | .deliver _ => ()
  | .clock => (0 : Nat)

/-- A second request, while the trace of the first one waits for an event. -/
def laterRequest : TraceRequest := { countRequest with thread := 2 }

/-- The first request is begun on an obliging debuggee. The second one arrives, and then the
debuggee is gone: the first trace is given up, and the second one is refused everything. -/
def queuedTrail (t : ActiveTrace) : Trail :=
  [.accepts countRequest, .begins countRequest] ++ countStarted.1.map .goesOn ++
    [.accepts laterRequest] ++ [.goesOn (.heard .vmDeath)] ++
    ((t.onEvent .vmDeath).transcript refusing).1.map .goesOn ++ [.ends] ++
    [.begins laterRequest] ++
    ((ActiveTrace.start countOptions laterRequest).transcript refusing).1.map .goesOn ++ [.ends]

theorem finished_of_vmDeath (t : ActiveTrace) (reply : (a : Action) → a.Reply) :
    ((t.onEvent .vmDeath).transcript reply).2 = .finished := by
  show (((t.plan.takeBack : Routine Unit SessionState Unit) t.state >>= _).transcript reply).2 = _
  simp only [Program.transcript_bind]
  rfl

theorem queuedTrail_run {t : ActiveTrace} (ht : countStarted.2 = .listen t) :
    Manager.Run countOptions (queuedTrail t)
      { options := countOptions, phase := .stopped, channelOpen := false, reading := false } := by
  have hbegun : Manager.Run countOptions [.accepts countRequest, .begins countRequest]
      { options := countOptions,
        phase := .working (ActiveTrace.start countOptions countRequest) } :=
    (Manager.Run.start.step (.request countRequest rfl) fun _ _ => rfl).step (.choice .receive rfl)
      fun _ h => by cases h
  have hstarted := hbegun.transcript obliging rfl
  have hlisten : ((ActiveTrace.start countOptions countRequest).transcript obliging).2 =
      .listen t := ht
  rw [hlisten] at hstarted
  have hlistens := hstarted.silent (.choice .conclude rfl)
  -- The second request comes to wait, and nobody can ask for a third one.
  have hsecond := hlistens.step (.request laterRequest rfl) fun _ _ => rfl
  have hclosed := hsecond.silent .closeChannel
  have hqueued := hclosed.silent (.choice .queue rfl)
  have hnoted := hqueued.silent (.choice .close rfl)
  have hgone := hnoted.silent (.event .vmDeath)
  have hheard := hgone.step (.choice .event rfl) fun _ h => by cases h
  have hended := hheard.conclude refusing rfl (finished_of_vmDeath t refusing)
  have hresumed := hended.step (.choice .resume rfl) fun _ h => by cases h
  have hover := hresumed.conclude refusing rfl rfl
  exact hover.silent (.choice .stop rfl)

theorem exists_countListening : ∃ t, countStarted.2 = .listen t := by
  have hset : countStarted.2.request? .entry 0 = some 40 := by decide +kernel
  cases hk : countStarted.2 with
  | finished =>
      rw [hk] at hset
      cases hset
  | listen t => exact ⟨t, rfl⟩

/-- The request that was queued behind another trace is begun when that one is over, and then it is
over too; none is left, and the manager stops. -/
theorem Manager.Run.both_over_of_queued :
    ∃ (t : ActiveTrace) (first second : Episode), countStarted.2 = .listen t ∧
      (queuedTrail t).work = first.whole ++ second.whole ∧
      first.request = countRequest ∧ second.request = laterRequest ∧
      first.IsOver ∧ second.IsOver := by
  obtain ⟨t, ht⟩ := exists_countListening
  obtain ⟨done, current, hwork, hrequests, hover, -, hstopped, -⟩ :=
    Manager.Run.requests_in_turn (queuedTrail_run ht) rfl
  obtain ⟨rfl, -⟩ := hstopped rfl
  have haccepted : done.map Episode.request = [countRequest, laterRequest] := by
    have htwo : (queuedTrail t).accepted = [countRequest, laterRequest] := by
      simp only [queuedTrail, Trail.accepted_append, Trail.accepted_goesOn]
      rfl
    rw [htwo] at hrequests
    simpa using hrequests.symm
  obtain ⟨first, rest, rfl, hfirst, hrest⟩ := List.map_eq_cons_iff.mp haccepted
  obtain ⟨second, rest, rfl, hsecond, hnone⟩ := List.map_eq_cons_iff.mp hrest
  obtain rfl := List.map_eq_nil_iff.mp hnone
  refine ⟨t, first, second, ht, ?_, hfirst, hsecond, hover first List.mem_cons_self,
    hover second (.tail _ List.mem_cons_self)⟩
  simpa using hwork

end StreamTrace
