import StreamTrace.Proofs.Debugger.ManagerRuns

/-!
# A manager that is asked to stop

A request to stop is noticed where the manager waits: for a request, where it may also be the next
request that is noticed first, and for an event of the trace in flight, which is then given up. So
the requests that wait are dropped, but for one: a manager that was idle may still begin with the
first of them. A trace that has begun ends in one final report, and after it the manager stops.
-/

namespace StreamTrace

/-- The request that is begun. -/
def Deed.begun? : Deed → Option TraceRequest
  | begins r => some r
  | _ => none

/-- The requests that were begun, in their order. -/
def Trail.begun (trail : Trail) : List TraceRequest := trail.filterMap Deed.begun?

@[simp] theorem Trail.begun_append (trail trail' : Trail) :
    begun (trail ++ trail') = trail.begun ++ trail'.begun := List.filterMap_append

namespace Manager

variable {options : TraceOptions} {trail trail' : Trail} {m m' m'' : Manager}

/-- What a manager that was asked to stop in the state `m` has come to: it has begun nothing, or it
was idle and has begun with the first request that waited or came. -/
structure AfterShutdown (m : Manager) (trail : Trail) (m' : Manager) : Prop where
  asked : m'.shutdown = true
  begun : trail.begun = [] ∧ (m'.phase = .idle → m.phase = .idle ∧
      m'.pending ++ m'.channel = m.pending ++ m.channel ++ trail.accepted) ∨
    ∃ r, trail.begun = [r] ∧ m.phase = .idle ∧ m'.phase ≠ .idle ∧
      (m.pending ++ m.channel ++ trail.accepted).head? = some r

/-- A step that begins nothing, and does not make the manager idle. -/
theorem AfterShutdown.goesOn (hc : m.AfterShutdown trail m') {d : Option Deed}
    (hasked : m'.shutdown = true → m''.shutdown = true) (hnone : d.bind Deed.begun? = none)
    (hidle : m''.phase = .idle → m'.phase = .idle ∧
      m''.pending ++ m''.channel = m'.pending ++ m'.channel ++ Trail.accepted d.toList) :
    m.AfterShutdown (trail ++ d.toList) m'' := by
  have hbegun : Trail.begun d.toList = [] := by
    cases d with
    | none => rfl
    | some d =>
        rw [Option.bind_some] at hnone
        simp [Trail.begun, hnone]
  refine ⟨hasked hc.asked, ?_⟩
  rcases hc.begun with ⟨hno, hwait⟩ | ⟨r, hone, hphase, hbusy, hhead⟩
  · refine .inl ⟨by simp [hno, hbegun], fun hphase => ?_⟩
    obtain ⟨hphase', hsame⟩ := hidle hphase
    obtain ⟨hfirst, hqueues⟩ := hwait hphase'
    exact ⟨hfirst, by rw [hsame, hqueues, Trail.accepted_append, List.append_assoc]⟩
  · refine .inr ⟨r, by simp [hone, hbegun], hphase, fun hback => hbusy (hidle hback).1, ?_⟩
    rw [Trail.accepted_append, ← List.append_assoc, List.head?_append, hhead]
    rfl

/-- A request is begun by an idle manager. -/
theorem AfterShutdown.begins (hc : m.AfterShutdown trail m') (hphase : m'.phase = .idle)
    {r : TraceRequest}
    {rest : List TraceRequest} (hwait : m'.pending ++ m'.channel = r :: rest)
    (hasked : m''.shutdown = m'.shutdown) (hbusy : m''.phase ≠ .idle) :
    m.AfterShutdown (trail ++ [.begins r]) m'' := by
  refine ⟨hasked.trans hc.asked, .inr ⟨r, ?_⟩⟩
  rcases hc.begun with ⟨hno, hqueues⟩ | ⟨-, -, -, hnever, -⟩
  · obtain ⟨hfirst, hsame⟩ := hqueues hphase
    refine ⟨by rw [Trail.begun_append, hno]; rfl, hfirst, hbusy, ?_⟩
    have haccepted : Trail.accepted (trail ++ [.begins r]) = trail.accepted := by
      simp [Trail.accepted, Deed.accepted?]
    rw [haccepted, ← hsame, hwait]
    rfl
  · exact absurd hphase hnever

theorem AfterShutdown.choice (hc : m.AfterShutdown trail m') {c : Choice}
    (hchosen : m'.Chosen c m'') :
    m.AfterShutdown (trail ++ (m'.deed c).toList) m'' := by
  cases hchosen with
  | resume r rest phase pending =>
      simp only [deed, pending, List.head?_cons, Option.map_some, Option.toList_some]
      exact hc.begins phase (by rw [pending]; rfl) rfl (by simp [start])
  | receive r rest phase pending reading channel =>
      simp only [deed, channel, List.head?_cons, Option.map_some, Option.toList_some]
      exact hc.begins phase (by rw [pending, channel]; rfl) rfl (by simp [start])
  | finish phase =>
      simp only [deed, phase]
      refine hc.goesOn id rfl fun hidle => ?_
      dsimp only at hidle
      rw [if_pos hc.asked] at hidle
      cases hidle
  | listen t phase =>
      simp only [deed, phase]
      exact hc.goesOn id rfl fun hidle => by cases hidle
  | event t event rest phase inbox =>
      simp only [deed, inbox, List.head?_cons, Option.map_some]
      exact hc.goesOn id rfl fun hidle => by cases hidle
  | queue t r rest phase | close t phase =>
      refine hc.goesOn id rfl fun hidle => ?_
      rw [phase] at hidle
      cases hidle
  | stop | cancel | lose => exact hc.goesOn id rfl fun hidle => by cases hidle

theorem AfterShutdown.does (hc : m.AfterShutdown trail m') {d : Option Deed} (hd : m'.Does d m'') :
    m.AfterShutdown (trail ++ d.toList) m'' := by
  cases hd with
  | choice c h => exact hc.choice (chosen_of_choose h)
  | action a next r h => exact hc.goesOn id rfl fun hidle => by cases hidle
  | request r h =>
      unfold Manager.request at h
      split at h
      · cases h
      · cases h
        exact hc.goesOn id rfl fun hidle => ⟨hidle, by simp [Trail.accepted, Deed.accepted?]⟩
  | shutdown =>
      exact hc.goesOn (fun _ => rfl) rfl fun hidle =>
        ⟨hidle, by simp [requestShutdown, Trail.accepted]⟩
  | closeChannel =>
      exact hc.goesOn id rfl fun hidle => ⟨hidle, by simp [closeChannel, Trail.accepted]⟩
  | event e =>
      obtain ⟨inbox, hnotify⟩ := notify_eq m' e
      rw [hnotify]
      exact hc.goesOn id rfl fun hidle => ⟨hidle, by simp [Trail.accepted]⟩
  | eventsEnd => exact hc.goesOn id rfl fun hidle => ⟨hidle, by simp [Trail.accepted]⟩

theorem Later.afterShutdown (later : m.requestShutdown.Later trail m') :
    m.AfterShutdown trail m' := by
  induction later with
  | refl =>
      refine ⟨rfl, .inl ⟨rfl, fun hidle => ⟨hidle, ?_⟩⟩⟩
      simp [requestShutdown, Trail.accepted]
  | step _ does _ ih => exact ih.does does

/-- A manager that was asked to stop can go on until it has stopped. -/
theorem goes_of_shutdown (hshutdown : m.shutdown = true) :
    m.phase = .stopped ∨ (∃ a next, m.phase = .working (.act a next)) ∨
      ∃ c m', m.choose c = some m' := by
  simp only [choose_iff]
  cases hphase : m.phase with
  | stopped => exact .inl rfl
  | idle =>
      refine .inr (.inr ?_)
      cases hpending : m.pending with
      | nil => exact ⟨_, _, .stop hphase hpending (.inr (.inl hshutdown))⟩
      | cons r rest => exact ⟨_, _, .resume r rest hphase hpending⟩
  | listening t => exact .inr (.inr ⟨_, _, .cancel t hphase hshutdown⟩)
  | working p =>
      cases p with
      | act a next => exact .inr (.inl ⟨a, next, rfl⟩)
      | done k =>
          cases k with
          | finished => exact .inr (.inr ⟨_, _, .finish hphase⟩)
          | listen t => exact .inr (.inr ⟨_, _, .listen t hphase⟩)

end Manager

/-- Once a manager is asked to stop, it goes on until it has stopped, and begins with no request
any more, unless it was idle: then it may still begin with the first one, and with no other. What it
did before and after comes in episodes. An episode that is over has told its outcome in one final
report, and so has the one in flight once the manager has stopped. A request that was not begun has
no episode, so nothing is done about it. -/
theorem Manager.Run.stops_after_shutdown {options : TraceOptions} {trail trail' : Trail}
    {m m' : Manager} (run : Manager.Run options trail m)
    (later : m.requestShutdown.Later trail' m') :
    (trail'.begun = [] ∨ m.phase = .idle ∧ ∃ r, trail'.begun = [r] ∧
        (m.pending ++ m.channel ++ trail'.accepted).head? = some r) ∧
      (m'.phase = .stopped ∨ (∃ a next, m'.phase = .working (.act a next)) ∨
        ∃ c m'', m'.choose c = some m'') ∧
      (∃ (done : List Episode) (current : Option Episode),
        trail.work ++ trail'.work =
            done.flatMap Episode.whole ++ current.toList.flatMap Episode.deeds ∧
          (∀ e ∈ done, e.IsOver) ∧
          (∀ e, current = some e → e.history.finals = [] ∨ e.IsTold) ∧
          (m'.phase = .stopped → current = none)) ∧
      ∀ r rest, m.phase = .idle → m.pending ++ m.channel = r :: rest →
        ∃ c m'', m.requestShutdown.choose c = some m'' ∧
          m.requestShutdown.deed c = some (.begins r) := by
  have hcloses := later.afterShutdown
  have hasked : Manager.Run options (trail ++ []) m.requestShutdown :=
    run.step .shutdown fun r h => by cases h
  rw [List.append_nil] at hasked
  obtain ⟨_, _, hbefore⟩ := hasked.episodeLog
  obtain ⟨done, current, ht⟩ := (hasked.append later).episodeLog
  refine ⟨?_, Manager.goes_of_shutdown hcloses.asked, ⟨done, current, ?_, ?_, ?_, ?_⟩, ?_⟩
  · rcases hcloses.begun with ⟨hnone, -⟩ | ⟨r, hone, hphase, -, hhead⟩
    · exact .inl hnone
    · exact .inr ⟨hphase, r, hone, hhead⟩
  · rw [← Trail.work_append, ht.work]
  · exact fun e he => (ht.complete e he).ends
  · exact fun e he => ht.inFlight.told he
  · intro hphase
    have hflight := ht.inFlight
    unfold Manager.InFlight at hflight
    rwa [hphase] at hflight
  · intro r rest hphase hwait
    have hphase' : m.requestShutdown.phase = .idle := hphase
    exact Manager.can_begin hphase' hwait fun h => (hbefore.closed h).1

/-! ### A request that is noticed too late -/

/-- A manager that waits, just when a request has arrived. -/
def askedManager : Manager := { options := countOptions, channel := [countRequest] }

/-- The history of a trace whose thread cannot be looked at. -/
def refusedHistory : History :=
  ((ActiveTrace.start countOptions countRequest).transcript refusing).1

/-- What it may do after it is asked to stop, if the debuggee refuses every command. -/
def lateTrail : Trail := [.begins countRequest] ++ refusedHistory.map .goesOn ++ [.ends]

def stoppedManager : Manager := { options := countOptions, phase := .stopped, shutdown := true }

theorem lateTrail_later : askedManager.requestShutdown.Later lateTrail stoppedManager := by
  have hstart : askedManager.requestShutdown.Later [] askedManager.requestShutdown := .refl
  have hbegun := hstart.step (.choice .receive rfl) fun _ h => by cases h
  have hdone := hbegun.transcript refusing rfl
  exact hdone.step (.choice .conclude rfl) fun _ h => by cases h

/-- It begins with the request, sends a command for it, and reports to its callback. -/
theorem Manager.Run.begins_after_shutdown :
    lateTrail.begun = [countRequest] ∧
      (∃ (c : Command) (r : c.Answer), .goesOn (.sent c r) ∈ lateTrail) ∧
      ∃ done : List Episode, lateTrail.work = done.flatMap Episode.whole ∧
        ∀ e ∈ done, e.IsOver := by
  have run : Manager.Run countOptions [.accepts countRequest] askedManager :=
    Manager.Run.start.step (.request countRequest rfl) fun _ _ => rfl
  obtain ⟨-, -, ⟨done, current, hwork, hover, -, hnone⟩, -⟩ :=
    Manager.Run.stops_after_shutdown run lateTrail_later
  rw [hnone rfl, Option.toList_none, List.flatMap_nil, List.append_nil] at hwork
  exact ⟨rfl, ⟨.frames countRequest.thread 0 1, .error .timeout, .tail _ (.head _)⟩, done, hwork,
    hover⟩

end StreamTrace
