import StreamTrace.Debugger.Manager

/-!
# The choices of a manager

What each choice needs and what it makes of the manager, the phase and the queues included. What
holds after a choice is shown case by case of `Manager.Chosen`, without a look at `Manager.choose`.
-/

namespace StreamTrace

namespace Manager

variable {m m' : Manager} {c : Choice}

/-- A choice that is open, and what comes of it. -/
inductive Chosen (m : Manager) : Choice → Manager → Prop where
  | resume (r : TraceRequest) (rest : List TraceRequest) (phase : m.phase = .idle)
      (pending : m.pending = r :: rest) : Chosen m .resume ({ m with pending := rest }.start r)
  | receive (r : TraceRequest) (rest : List TraceRequest) (phase : m.phase = .idle)
      (pending : m.pending = []) (reading : m.reading = true) (channel : m.channel = r :: rest) :
      Chosen m .receive ({ m with channel := rest }.start r)
  | stop (phase : m.phase = .idle) (pending : m.pending = [])
      (nothing : m.reading = false ∨ m.shutdown = true ∨ m.channel = [] ∧ m.channelOpen = false) :
      Chosen m .stop { m with phase := .stopped }
  | finish (phase : m.phase = .working (.done .finished)) :
      Chosen m .conclude { m with phase := if m.shutdown then .stopped else .idle, inbox := [] }
  | listen (t : ActiveTrace) (phase : m.phase = .working (.done (.listen t))) :
      Chosen m .conclude { m with phase := .listening t }
  | queue (t : ActiveTrace) (r : TraceRequest) (rest : List TraceRequest)
      (phase : m.phase = .listening t) (reading : m.reading = true)
      (channel : m.channel = r :: rest) :
      Chosen m .queue { m with channel := rest, pending := m.pending ++ [r] }
  | close (t : ActiveTrace) (phase : m.phase = .listening t) (reading : m.reading = true)
      (channel : m.channel = []) (closed : m.channelOpen = false) :
      Chosen m .close { m with reading := false }
  | event (t : ActiveTrace) (e : Event) (rest : List Event) (phase : m.phase = .listening t)
      (inbox : m.inbox = e :: rest) :
      Chosen m .event { m with phase := .working (t.onEvent e), inbox := rest }
  | cancel (t : ActiveTrace) (phase : m.phase = .listening t) (asked : m.shutdown = true) :
      Chosen m .cancel { m with phase := .working (t.giveUp ActiveTrace.shutDownFailure) }
  | lose (t : ActiveTrace) (phase : m.phase = .listening t) (inbox : m.inbox = [])
      (lost : m.eventsOpen = false) :
      Chosen m .lose { m with phase := .working (t.giveUp ActiveTrace.streamClosedFailure) }

theorem chosen_of_choose (h : m.choose c = some m') : m.Chosen c m' := by
  cases c with
  | stop =>
      simp only [choose] at h
      split at h
      next hphase hpending =>
        split at h <;> cases h
        next hover =>
          simp only [List.isEmpty_iff, Bool.not_eq_true] at hover
          exact .stop hphase hpending hover
      next => cases h
  | conclude =>
      simp only [choose] at h
      split at h <;> cases h
      next hphase => exact .finish hphase
      next t hphase => exact .listen t hphase
  | resume =>
      simp only [choose] at h
      split at h <;> cases h
      next hphase hpending => exact .resume _ _ hphase hpending
  | receive =>
      simp only [choose] at h
      split at h <;> cases h
      next hphase hpending hreading hchannel =>
        exact .receive _ _ hphase hpending hreading hchannel
  | queue =>
      simp only [choose] at h
      split at h <;> cases h
      next hphase hreading hchannel => exact .queue _ _ _ hphase hreading hchannel
  | close =>
      simp only [choose] at h
      split at h <;> cases h
      next hphase hreading hchannel hclosed => exact .close _ hphase hreading hchannel hclosed
  | event =>
      simp only [choose] at h
      split at h <;> cases h
      next hphase hinbox => exact .event _ _ _ hphase hinbox
  | cancel =>
      simp only [choose] at h
      split at h <;> cases h
      next hphase hasked => exact .cancel _ hphase hasked
  | lose =>
      simp only [choose] at h
      split at h <;> cases h
      next hphase hinbox hlost => exact .lose _ hphase hinbox hlost

/-- Nothing else than what a choice does is chosen, and it is open wherever it can be. -/
theorem choose_iff : m.choose c = some m' ↔ m.Chosen c m' := by
  constructor
  · exact chosen_of_choose
  · intro h
    cases h with
    | stop phase pending nothing =>
        simp only [choose, phase, pending]
        rw [if_pos]
        simpa using nothing
    | _ => simp only [choose, *]

end Manager

end StreamTrace
