import StreamTrace.Proofs.Debugger.HandledEvents
import StreamTrace.Proofs.Debugger.TraceLedger

/-!
# Events of others

A debuggee reports the events of all its threads and of the requests of every debugger that shares
the connection. A trace takes an event for its own only if it is one of its thread and of a request
that it has installed, and it passes over any other: nothing is done, and the thread is not resumed.
So foreign events, wherever they come in, change nothing about a trace.
-/

namespace StreamTrace

open Routine SessionState SessionRoutine

variable {options : TraceOptions} {request : TraceRequest} {h : History} {e : Event}
  {t : ActiveTrace} {α σ : Type}

/-- The kinds of events that traces ask for. -/
def traceKinds : List UInt8 :=
  [EventKind.methodEntry, EventKind.methodExitWithReturnValue, EventKind.exception,
    EventKind.singleStep]

namespace History

/-- The request of that kind that the trace has installed: it was set more often than it was to be
cleared. A step that was asked for takes the place of an earlier one. -/
def Owns (h : History) (kind : UInt8) (id : RequestId) : Prop :=
  h.cleared.count (kind, id) < h.opened.count (kind, id) ∧
    (kind = EventKind.singleStep → h.awaited? = some id)

instance (h : History) (kind : UInt8) (id : RequestId) : Decidable (h.Owns kind id) :=
  inferInstanceAs (Decidable (_ ∧ _))

/-- The event does not belong to the trace on the thread, after `h`. -/
inductive Foreign (thread : ThreadId) (h : History) (e : Event) : Prop
  | elsewhere {t : ThreadId} (hthread : e.thread? = some t) (hne : t ≠ thread)
  | unasked (hkind : e.kind ∉ traceKinds) (halive : e ≠ .vmDeath)
  | unowned {id : RequestId} (hrequest : e.request? = some id) (hown : ¬h.Owns e.kind id)

/-- What was done, apart from the events. -/
def deeds (h : History) : History := h.filter fun m => m.event?.isNone

theorem deeds_append (h h' : History) : deeds (h ++ h') = h.deeds ++ h'.deeds :=
  List.filter_append ..

end History

/-! ## One event -/

/-- A session owns what it holds. -/
theorem SessionState.Listens.owns {p : TracePlan} {s : SessionState} (hl : s.Listens p h)
    {kind : UInt8} {id : RequestId} (hheld : (kind, id) ∈ s.held)
    (hstep : kind = EventKind.singleStep → s.step = some id) : h.Owns kind id :=
  ⟨hl.requests.count_lt hheld, fun hkind => hl.step ▸ hstep hkind⟩

theorem SessionState.mem_held_of_point {s : SessionState} {edge : MethodEdge} {k : Nat}
    {b : Breakpoint} {id : RequestId} (hb : s.point? edge k = some b) (hid : b.request = some id) :
    (b.kind.number, id) ∈ s.held := by
  obtain ⟨rest, hperm, -⟩ := held_setPoint hb
  rw [Breakpoint.held_of_some hid] at hperm
  exact hperm.symm.subset (List.mem_append_left _ List.mem_cons_self)

theorem SessionState.mem_held_of_step {s : SessionState} {id : RequestId}
    (hid : s.step = some id) : (EventKind.singleStep, id) ∈ s.held :=
  (held_of_step hid).symm.subset List.mem_cons_self

theorem SessionState.mem_held_of_guard {s : SessionState} {id : RequestId}
    (hid : s.guard = some id) : (EventKind.exception, id) ∈ s.held :=
  (held_of_guard hid).symm.subset List.mem_cons_self

theorem Routine.apply_get_bind {ε : Type} (s : σ) (f : σ → Routine ε σ α) :
    (get >>= f) s = f s s := rfl

/-- A session that rests takes no stage for that of a request that it does not own. -/
theorem stageOf?_eq_none {sigs : List MethodSignature} {p : TracePlan} {s : SessionState}
    (hr : s.BetweenEvents sigs h) (hl : s.Listens p h) {edge : MethodEdge} {id : RequestId}
    (hown : ¬h.Owns edge.number id) : s.stageOf? edge id = none := by
  by_contra hsome
  obtain ⟨k, hk⟩ := Option.ne_none_iff_exists'.mp hsome
  obtain ⟨b, hb, hid⟩ := point?_of_stageOf? hk
  have hheld := mem_held_of_point hb hid
  rw [(hr.consistent.placed edge k b hb).kind] at hheld
  exact hown (hl.owns hheld fun h => absurd h edge.number_ne_singleStep)

/-- A session passes over a foreign event. -/
theorem TracePlan.onEvent_foreign {sigs : List MethodSignature} {p : TracePlan} {s : SessionState}
    (hr : s.BetweenEvents sigs h) (hl : s.Listens p h) (hforeign : h.Foreign p.thread e) :
    p.onEvent e s = .done (.ok none, s) := by
  have hmethod : ∀ (edge : MethodEdge) (id : RequestId) (l : Location) (v : Value),
      ¬h.Owns edge.number id → (do
        TracePlan.failRunning (p.atMethodEvent edge id l v)
        return none : SessionStep (Option TracePlan.Finished)) s = .done (.ok none, s) := by
    intro edge id l v hown
    have hpass : p.atMethodEvent edge id l v s = .done (.ok (), s) := by
      unfold TracePlan.atMethodEvent
      rw [apply_get_bind, stageOf?_eq_none hr hl hown]
      rfl
    show ((p.atMethodEvent edge id l v s >>= _) >>= _) = _
    rw [hpass]
    rfl
  -- Another thread, another kind, or another request: each is told by one test of the session.
  unfold TracePlan.onEvent
  split
  next => rfl
  next hown =>
    cases hforeign with
    | elsewhere hthread hne => simp [hthread, hne] at hown
    | unasked hkind halive =>
        cases e with
        | vmDeath => exact (halive rfl).elim
        | breakpoint | methodExit | classPrepare | vmStart => rfl
        | methodEntry | methodExitWithValue | singleStep | exception =>
            simp [traceKinds, Event.kind] at hkind
    | @unowned id hrequest hown =>
        cases e with
        | vmDeath => cases hrequest
        | breakpoint | methodExit | classPrepare | vmStart => rfl
        | methodEntry own t l =>
            obtain rfl : own = id := Option.some.inj hrequest
            exact hmethod .entry own l .void hown
        | methodExitWithValue own t l v =>
            obtain rfl : own = id := Option.some.inj hrequest
            exact hmethod .exit own l v hown
        | singleStep own t l =>
            obtain rfl : own = id := Option.some.inj hrequest
            have hstep : s.step ≠ some own := fun hstep =>
              hown (hl.owns (mem_held_of_step hstep) fun _ => hstep)
            exact (apply_get_bind s _).trans (congrFun (if_neg hstep) s)
        | exception own t l thrown caught =>
            obtain rfl : own = id := Option.some.inj hrequest
            have hguard : s.guard ≠ some own := fun hguard =>
              hown (hl.owns (mem_held_of_guard hguard) nofun)
            exact (apply_get_bind s _).trans (congrFun (if_neg hguard) s)

/-- A trace that listens passes over a foreign event. -/
theorem TraceRun.onEvent_foreign (run : TraceRun options request h (.done (.listen t)))
    (hforeign : h.Foreign request.thread e) : t.onEvent e = .done (.listen t) := by
  obtain ⟨hthread, hr⟩ : t.Listens request.thread _ h := run.disciplined.2
  have hl := (Program.meets_done.mp run.lawful.2).2
  have hpass := TracePlan.onEvent_foreign hr hl (hthread ▸ hforeign)
  unfold ActiveTrace.onEvent
  rw [hpass]
  rfl

/-! ## Two runs -/

/-- The target replies as `answer` does, and what is done is recorded. -/
def recorded (answer : σ → (a : Action) → a.Reply × σ) (g : σ × History) (a : Action) :
    a.Reply × (σ × History) :=
  let (r, s) := answer g.1 a
  (r, (s, g.2 ++ [.did a r]))

/-- What a trace on a target has come to: what it goes on with, the target, and what happened. -/
abbrev Observation (σ : Type) := Continuation × σ × History

/-- The next event is delivered. Nobody listens any more once the trace has finished. -/
def Observation.hears (answer : σ → (a : Action) → a.Reply × σ) (o : Observation σ) (e : Event) :
    Observation σ :=
  match o with
  | (.finished, s, h) => (.finished, s, h)
  | (.listen t, s, h) => (t.onEvent e).run (recorded answer) (s, h ++ [.heard e])

/-- A requested trace on a target that is like `s`, up to these events. -/
def observe (answer : σ → (a : Action) → a.Reply × σ) (options : TraceOptions)
    (request : TraceRequest) (s : σ) (events : List Event) : Observation σ :=
  events.foldl (Observation.hears answer)
    ((ActiveTrace.start options request).run (recorded answer) (s, []))

/-- The second sequence of events is the first with foreign events in it, anywhere. -/
inductive Disturbs (answer : σ → (a : Action) → a.Reply × σ) (options : TraceOptions)
    (request : TraceRequest) (s : σ) : List Event → List Event → Prop
  | nil : Disturbs answer options request s [] []
  | both {events events' : List Event} (e : Event)
      (before : Disturbs answer options request s events events') :
    Disturbs answer options request s (events ++ [e]) (events' ++ [e])
  | foreign {events events' : List Event} {e : Event}
      (before : Disturbs answer options request s events events')
      (hforeign : (observe answer options request s events').2.2.Foreign request.thread e) :
    Disturbs answer options request s events (events' ++ [e])

variable {answer : σ → (a : Action) → a.Reply × σ} {s : σ} {events events' : List Event}

theorem observe_concat (events : List Event) (e : Event) :
    observe answer options request s (events ++ [e]) =
      (observe answer options request s events).hears answer e := by
  simp [observe]

/-- What a program does, and what it ends in, depends on the target but not on the record. -/
theorem run_recorded (answer : σ → (a : Action) → a.Reply × σ) (p : Program α) (s : σ) :
    ∃ (a : α) (s' : σ) (during : History), p.HasTranscript during a ∧
      ∀ h, p.run (recorded answer) (s, h) = (a, s', h ++ during) := by
  induction p generalizing s with
  | done a => exact ⟨a, s, [], .done a, fun h => by rw [List.append_nil]; rfl⟩
  | act x next ih =>
      obtain ⟨a, s', during, hplays, hrun⟩ := ih (answer s x).1 (answer s x).2
      refine ⟨a, s', .did x (answer s x).1 :: during, .act _ hplays, fun h => ?_⟩
      rw [Program.run]
      exact (hrun _).trans (by rw [List.append_assoc]; rfl)

/-- What was observed is a run of the trace. -/
theorem observe_run (answer : σ → (a : Action) → a.Reply × σ) (s : σ) (events : List Event) :
    TraceRun options request (observe answer options request s events).2.2
      (.done (observe answer options request s events).1) := by
  induction events using List.reverseRecOn with
  | nil =>
      obtain ⟨k, s', during, hplays, hrun⟩ :=
        run_recorded answer (ActiveTrace.start options request) s
      have hstart := TraceRun.start.hasTranscript hplays
      rw [observe, List.foldl_nil, hrun]
      exact hstart
  | append_singleton events e ih =>
      rw [observe_concat]
      generalize observe answer options request s events = o at ih
      obtain ⟨k, s, h⟩ := o
      cases k with
      | finished => exact ih
      | listen t =>
          obtain ⟨k, s', during, hplays, hrun⟩ := run_recorded answer (t.onEvent e) s
          have hnext := (ih.event e).hasTranscript hplays
          rw [Observation.hears, hrun]
          exact hnext

/-- The same goes on after what differs in events only. -/
theorem Observation.hears_congr {o o' : Observation σ} (e : Event) (hk : o'.1 = o.1)
    (hs : o'.2.1 = o.2.1) (hd : o'.2.2.deeds = o.2.2.deeds) :
    (o'.hears answer e).1 = (o.hears answer e).1 ∧
      (o'.hears answer e).2.1 = (o.hears answer e).2.1 ∧
        (o'.hears answer e).2.2.deeds = (o.hears answer e).2.2.deeds := by
  obtain ⟨k, s, h⟩ := o
  obtain ⟨k', s', h'⟩ := o'
  obtain rfl : k' = k := hk
  obtain rfl : s' = s := hs
  cases k' with
  | finished => exact ⟨rfl, rfl, hd⟩
  | listen t =>
      obtain ⟨k, s, during, -, hrun⟩ := run_recorded answer (t.onEvent e) s'
      rw [Observation.hears, Observation.hears, hrun, hrun]
      refine ⟨rfl, rfl, ?_⟩
      have hdeeds : History.deeds h' = History.deeds h := hd
      simp only [History.deeds_append, hdeeds]

/-- Nothing comes of a foreign event. -/
theorem observe_foreign
    (hforeign : (observe answer options request s events).2.2.Foreign request.thread e) :
    (observe answer options request s (events ++ [e])).1 =
        (observe answer options request s events).1 ∧
      (observe answer options request s (events ++ [e])).2.1 =
        (observe answer options request s events).2.1 ∧
      (observe answer options request s (events ++ [e])).2.2.deeds =
        (observe answer options request s events).2.2.deeds := by
  have run : TraceRun options request _ _ := observe_run answer s events
  rw [observe_concat]
  generalize observe answer options request s events = o at run hforeign
  obtain ⟨k, s, h⟩ := o
  cases k with
  | finished => exact ⟨rfl, rfl, rfl⟩
  | listen t =>
      rw [Observation.hears, run.onEvent_foreign hforeign]
      refine ⟨rfl, rfl, ?_⟩
      show History.deeds (h ++ [.heard e]) = History.deeds h
      rw [History.deeds_append]
      exact List.append_nil _

/-- Foreign events never disturb a trace. Whatever the target is like and whatever events are
delivered, the trace does the same with any number of foreign events among them: it sends the same
commands, publishes the same states and delivers the same reports, in the same order, gets the same
replies, and goes on in the same way. This holds for every order in which a set may hand out the
pins of the trace: the order comes with the request, so both sides have it. After all that, a
further foreign event has the trace do nothing, so the thread is not resumed; and a manager that
listens takes it from its inbox and listens on. -/
theorem observe_undisturbed (hd : Disturbs answer options request s events events') :
    ((observe answer options request s events').1 = (observe answer options request s events).1 ∧
      (observe answer options request s events').2.1 =
        (observe answer options request s events).2.1 ∧
      (observe answer options request s events').2.2.deeds =
        (observe answer options request s events).2.2.deeds) ∧
    ∀ e t, (observe answer options request s events').2.2.Foreign request.thread e →
      (observe answer options request s events').1 = .listen t →
      t.onEvent e = .done (.listen t) ∧
      ∀ (m : Manager) (rest : List Event), m.phase = .listening t → m.inbox = e :: rest →
        ∃ m', m.choose .event = some m' ∧ m'.choose .conclude = some { m with inbox := rest } := by
  constructor
  · induction hd with
    | nil => exact ⟨rfl, rfl, rfl⟩
    | both e _ ih =>
        rw [observe_concat, observe_concat]
        exact Observation.hears_congr e ih.1 ih.2.1 ih.2.2
    | foreign _ hforeign ih =>
        obtain ⟨hk, hs, hdeeds⟩ := observe_foreign hforeign
        exact ⟨hk.trans ih.1, hs.trans ih.2.1, hdeeds.trans ih.2.2⟩
  · intro e t hforeign hlisten
    have run : TraceRun options request _ _ := observe_run answer s events'
    rw [hlisten] at run
    have hpass := run.onEvent_foreign hforeign
    refine ⟨hpass, fun m rest hphase hinbox => ?_⟩
    refine ⟨{ m with phase := .working (t.onEvent e), inbox := rest }, ?_, ?_⟩
    · simp only [Manager.choose, hphase, hinbox]
    · simp only [Manager.choose, hpass, ← hphase]

/-! ### A trace among others -/

/-- The obliging debuggee, which never changes. -/
def obligingTarget (_ : Unit) (a : Action) : a.Reply × Unit := (obliging a, ())

/-- A breakpoint of another debugger on the thread, the same method on another thread, the event of
the trace, and what its thread reports late for the request that was cleared since. -/
def strayEvents : List Event :=
  let l : Location := { typeTag := TypeTag.classType, typeId := 2, methodId := 4, index := 0 }
  [.breakpoint 7 1 l, .methodEntry 40 2 l, countEntry, .methodEntry 40 1 l]

theorem strayEvents_disturb :
    Disturbs obligingTarget countOptions countRequest () [countEntry] strayEvents := by
  have hnil : Disturbs obligingTarget countOptions countRequest () [] [] := .nil
  have hbreak := hnil.foreign (.unasked (e := strayEvents[0]) (by decide) nofun)
  have hthread := hbreak.foreign (.elsewhere (e := strayEvents[1]) rfl (by decide))
  have hown := hthread.both countEntry
  exact hown.foreign (.unowned (e := strayEvents[3]) rfl (by decide +kernel))

/-- The trace goes on as if there was nothing but its own event: the exit of the method is
requested, and a breakpoint of the other debugger does not resume the thread. -/
theorem observe_undisturbed_stray :
    Disturbs obligingTarget countOptions countRequest () [countEntry] strayEvents ∧
      (observe obligingTarget countOptions countRequest () strayEvents).2.2.deeds =
        (observe obligingTarget countOptions countRequest () [countEntry]).2.2.deeds ∧
      ∃ t, (observe obligingTarget countOptions countRequest () strayEvents).1 = .listen t ∧
        (Continuation.listen t).request? .exit 0 = some 42 ∧
        t.onEvent strayEvents[0] = .done (.listen t) := by
  obtain ⟨⟨-, -, hdeeds⟩, hpass⟩ := observe_undisturbed strayEvents_disturb
  refine ⟨strayEvents_disturb, hdeeds, ?_⟩
  have hrequest : (observe obligingTarget countOptions countRequest () strayEvents).1.request?
      .exit 0 = some 42 := by decide +kernel
  cases hk : (observe obligingTarget countOptions countRequest () strayEvents).1 with
  | finished =>
      rw [hk] at hrequest
      cases hrequest
  | listen t =>
      rw [hk] at hrequest
      exact ⟨t, rfl, hrequest, (hpass strayEvents[0] t (.unasked (by decide) nofun) hk).1⟩

end StreamTrace
