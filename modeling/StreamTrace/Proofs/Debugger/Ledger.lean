import Mathlib.Data.List.Induction
import Mathlib.Data.List.TakeWhile
import StreamTrace.Proofs.Debugger.History

/-!
# The books of a trace

What a history tells about the things that a trace takes and has to give back: objects that are
kept from collection, requests that are set, the slot of the source variable, and the report that
its requester waits for. `Admits` lists what a trace may do next, as far as these are concerned, and
a history is `Lawful` when everything in it was admitted.

Nothing is assumed about the target. It may give the same identifier to two requests, so what is
set and what is cleared are compared as lists.
-/

namespace StreamTrace

/-- The state that is published before a report, if it is a final one. -/
def Report.outcome? : Report → Option TraceState
  | evaluated _ _ => some .completed
  | failed _ _ => some .failed
  | setupFailed _ => none

theorem Report.isFinal_iff (r : Report) : r.isFinal = true ↔ ∃ s, r.outcome? = some s := by
  cases r <;> simp [isFinal, outcome?]

namespace Command

/-- Whether the command lets an object be collected again. -/
def releases : Command → Bool
  | enableCollection _ => true
  | _ => false

/-- Whether the command lets the thread go on. -/
def resumes : Command → Bool
  | resumeVm => true
  | resumeThread _ => true
  | _ => false

/-- Whether the command is about nothing that is kept in the books. -/
def isMinor : Command → Bool
  | disableCollection _ => false
  | enableCollection _ => false
  | setRequest _ _ _ => false
  | clearRequest _ _ => false
  | setSlots _ _ _ => false
  | frameCount _ => false
  | resumeVm => false
  | resumeThread _ => false
  | _ => true

end Command

/-! ## Entries -/

namespace Moment

/-- The object that is to be kept from collection. -/
def disabled? : Moment → Option ObjectId
  | did (.command (.disableCollection id)) _ => some id
  | _ => none

/-- The object that is kept from collection from now on. -/
def pinned? : Moment → Option ObjectId
  | did (.command (.disableCollection id)) r =>
    match (r : Except JdwpError Unit) with
    | .ok () => some id
    | .error _ => none
  | _ => none

/-- The object that may be collected again. -/
def enabled? : Moment → Option ObjectId
  | did (.command (.enableCollection id)) _ => some id
  | _ => none

/-- The request that is set from now on. -/
def opened? : Moment → Option (UInt8 × RequestId)
  | did (.command (.setRequest kind _ _)) r =>
    match (r : Except JdwpError RequestId) with
    | .ok (id : RequestId) => some (kind, id)
    | .error _ => none
  | _ => none

/-- The request that is to be cleared. -/
def cleared? : Moment → Option (UInt8 × RequestId)
  | did (.command (.clearRequest kind id)) _ => some (kind, id)
  | _ => none

/-- What was written into a frame. -/
def wrote? : Moment → Option (FrameId × List (Nat × Value))
  | did (.command (.setSlots _ frame values)) r =>
    match (r : Except JdwpError Unit) with
    | .ok () => some (frame, values)
    | .error _ => none
  | _ => none

/-- How many frames the thread turned out to have. -/
def depth? : Moment → Option Int
  | did (.command (.frameCount _)) r =>
    match (r : Except JdwpError Int) with
    | .ok (n : Int) => some n
    | .error _ => none
  | _ => none

/-- The first of the frames that were asked for. -/
def frame? : Moment → Option FrameInfo
  | did (.command (.frames _ _ _)) r =>
    match (r : Except JdwpError (List FrameInfo)) with
    | .ok (frames : List FrameInfo) => frames.head?
    | .error _ => none
  | _ => none

/-- Whether the frames are to be counted. -/
def counts : Moment → Bool
  | did (.command (.frameCount _)) _ => true
  | _ => false

def report? : Moment → Option Report
  | did (.deliver r) _ => some r
  | _ => none

def state? : Moment → Option TraceState
  | did (.publish s) _ => some s
  | _ => none

/-- Whether the thread goes on from now on. -/
def resumes : Moment → Bool
  | did (.command .resumeVm) r => (r : Except JdwpError Unit).isOk
  | did (.command (.resumeThread _)) r => (r : Except JdwpError Unit).isOk
  | _ => false

/-- The step that is awaited, after `awaited` was: it was requested and not cleared yet. -/
def await (awaited : Option RequestId) : Moment → Option RequestId
  | did (.command (.setRequest kind _ _)) r =>
    match (r : Except JdwpError RequestId) with
    | .ok (id : RequestId) => if kind = EventKind.singleStep then some id else awaited
    | .error _ => awaited
  | did (.command (.clearRequest kind id)) _ =>
    if kind = EventKind.singleStep ∧ awaited = some id then none else awaited
  | _ => awaited

theorem await_set (awaited : Option RequestId) (policy : UInt8) (modifiers : List EventModifier)
    (id : RequestId) :
    (sent (.setRequest EventKind.singleStep policy modifiers) (.ok id)).await awaited =
      some id := by
  show (if EventKind.singleStep = EventKind.singleStep then some id else awaited) = some id
  rw [if_pos rfl]

theorem await_set_of_ne (awaited : Option RequestId) {kind : UInt8}
    (hkind : kind ≠ EventKind.singleStep) (policy : UInt8) (modifiers : List EventModifier)
    (r : (Command.setRequest kind policy modifiers).Answer) :
    (sent (.setRequest kind policy modifiers) r).await awaited = awaited := by
  cases r with
  | error e => rfl
  | ok id => exact if_neg hkind

theorem await_clear_of_ne (awaited : Option RequestId) {kind : UInt8}
    (hkind : kind ≠ EventKind.singleStep) (id : RequestId)
    (r : (Command.clearRequest kind id).Answer) :
    (sent (.clearRequest kind id) r).await awaited = awaited :=
  if_neg fun h => hkind h.1

theorem await_eq_some {awaited : Option RequestId} {id : RequestId} {m : Moment}
    (h : m.await awaited = some id) :
    awaited = some id ∨ m.opened? = some (EventKind.singleStep, id) := by
  unfold await at h
  split at h
  · split at h
    · split at h
      · rename_i kind _ _ _ _ _ hkind
        cases h
        subst hkind
        exact .inr rfl
      · exact .inl h
    · exact .inl h
  · split at h
    · cases h
    · exact .inl h
  · exact .inl h

/-- The event at which the thread stands, after it stood at `event`. -/
def stand (event : Option Event) : Moment → Option Event
  | heard e => some e
  | did (.command .resumeVm) r => if (r : Except JdwpError Unit).isOk then none else event
  | did (.command (.resumeThread _)) r => if (r : Except JdwpError Unit).isOk then none else event
  | _ => event

theorem stand_eq_some {event : Option Event} {e : Event} {m : Moment}
    (h : m.stand event = some e) : event = some e ∨ m = .heard e := by
  unfold stand at h
  split at h
  · exact .inr (congrArg heard (Option.some.inj h))
  · split at h
    · cases h
    · exact .inl h
  · split at h
    · cases h
    · exact .inl h
  · exact .inl h

/-- Whether the frames were counted last, after `counted` was. An event comes in between, and so
does a look at the values of a frame. -/
def count (counted : Bool) : Moment → Bool
  | did (.command (.frameCount _)) _ => true
  | did (.command (.slotValues _ _ _)) _ => false
  | heard _ => false
  | _ => counted

/-- The thread stays where it is; nothing is written, let go of or reported. -/
structure Stays (m : Moment) : Prop where
  event : m.event? = none
  finals : m.report?.toList.filter Report.isFinal = []
  enabled : m.enabled? = none
  wrote : m.wrote? = none
  resumes : m.resumes = false
  stand : ∀ event, m.stand event = event

/-- The thread stays where it is, and its frames are not counted. The moment may be about a request
or a pin. -/
structure Calm (m : Moment) : Prop extends Stays m where
  count : m.count false = false
  counts : m.counts = false

/-- A calm moment that is not about a request either. -/
structure Minor (m : Moment) : Prop extends Calm m where
  opened : m.opened? = none
  cleared : m.cleared? = none
  await : ∀ awaited, m.await awaited = awaited

/-- A minor moment that is not about a pin either. -/
structure Idle (m : Moment) : Prop extends Minor m where
  disabled : m.disabled? = none

/-- No event comes, and the moment is about no request, no pin and no final report. -/
structure Light (m : Moment) : Prop where
  event : m.event? = none
  finals : m.report?.toList.filter Report.isFinal = []
  enabled : m.enabled? = none
  disabled : m.disabled? = none
  opened : m.opened? = none
  cleared : m.cleared? = none

theorem Idle.light {m : Moment} (hm : m.Idle) : m.Light :=
  ⟨hm.event, hm.finals, hm.enabled, hm.disabled, hm.opened, hm.cleared⟩

theorem light_counted (t : ThreadId) (r : (Command.frameCount t).Answer) :
    (sent (.frameCount t) r).Light :=
  ⟨rfl, rfl, rfl, rfl, rfl, rfl⟩

theorem light_setSlots (t : ThreadId) (frame : FrameId) (values : List (Nat × Value))
    (r : (Command.setSlots t frame values).Answer) : (sent (.setSlots t frame values) r).Light :=
  ⟨rfl, rfl, rfl, rfl, rfl, rfl⟩

theorem pinned?_of_disabled? {m : Moment} (h : m.disabled? = none) : m.pinned? = none := by
  cases m with
  | heard e => rfl
  | did a r =>
      cases a with
      | command c => cases c <;> first | rfl | cases h
      | _ => rfl

theorem calm_cleared (kind : UInt8) (id : RequestId) (r : (Command.clearRequest kind id).Answer) :
    (sent (.clearRequest kind id) r).Calm :=
  ⟨⟨rfl, rfl, rfl, rfl, rfl, fun _ => rfl⟩, rfl, rfl⟩

theorem calm_set (kind policy : UInt8) (modifiers : List EventModifier)
    (r : (Command.setRequest kind policy modifiers).Answer) :
    (sent (.setRequest kind policy modifiers) r).Calm :=
  ⟨⟨rfl, rfl, rfl, rfl, rfl, fun _ => rfl⟩, rfl, rfl⟩

theorem idle_sent {c : Command} (hc : c.isMinor = true) (r : c.Answer) : (sent c r).Idle := by
  cases c <;> first
    | exact ⟨⟨⟨⟨rfl, rfl, rfl, rfl, rfl, fun _ => rfl⟩, rfl, rfl⟩, rfl, rfl, fun _ => rfl⟩, rfl⟩
    | cases hc

theorem minor_disabled (id : ObjectId) (r : (Command.disableCollection id).Answer) :
    (sent (.disableCollection id) r).Minor :=
  ⟨⟨⟨rfl, rfl, rfl, rfl, rfl, fun _ => rfl⟩, rfl, rfl⟩, rfl, rfl, fun _ => rfl⟩

theorem stays_counted (t : ThreadId) (r : (Command.frameCount t).Answer) :
    (sent (.frameCount t) r).Stays :=
  ⟨rfl, rfl, rfl, rfl, rfl, fun _ => rfl⟩

/-- A request that was refused. -/
theorem idle_refused (kind policy : UInt8) (modifiers : List EventModifier) (e : JdwpError) :
    (sent (.setRequest kind policy modifiers) (.error e)).Idle :=
  ⟨⟨calm_set _ _ _ _, rfl, rfl, fun _ => rfl⟩, rfl⟩

/-- A write that was refused. -/
theorem idle_unwritten (t : ThreadId) (frame : FrameId) (values : List (Nat × Value))
    (e : JdwpError) : (sent (.setSlots t frame values) (.error e)).Idle :=
  ⟨⟨⟨⟨rfl, rfl, rfl, rfl, rfl, fun _ => rfl⟩, rfl, rfl⟩, rfl, rfl, fun _ => rfl⟩, rfl⟩

theorem idle_publish (s : TraceState) (r : (Action.publish s).Reply) :
    (did (.publish s) r).Idle :=
  ⟨⟨⟨⟨rfl, rfl, rfl, rfl, rfl, fun _ => rfl⟩, rfl, rfl⟩, rfl, rfl, fun _ => rfl⟩, rfl⟩

theorem idle_clock (r : Action.clock.Reply) : (did .clock r).Idle :=
  ⟨⟨⟨⟨rfl, rfl, rfl, rfl, rfl, fun _ => rfl⟩, rfl, rfl⟩, rfl, rfl, fun _ => rfl⟩, rfl⟩

theorem idle_setupFailed (message : String) (r : (Action.deliver (.setupFailed message)).Reply) :
    (did (.deliver (.setupFailed message)) r).Idle :=
  ⟨⟨⟨⟨rfl, rfl, rfl, rfl, rfl, fun _ => rfl⟩, rfl, rfl⟩, rfl, rfl, fun _ => rfl⟩, rfl⟩

end Moment

/-! ## Books -/

namespace History

/-- The objects that were to be kept from collection. -/
def disabled (h : History) : List ObjectId := h.filterMap Moment.disabled?

def pinned (h : History) : List ObjectId := h.filterMap Moment.pinned?

/-- The objects that were to be let go of. -/
def enabled (h : History) : List ObjectId := h.filterMap Moment.enabled?

/-- The requests that were set. -/
def opened (h : History) : List (UInt8 × RequestId) := h.filterMap Moment.opened?

/-- The requests that were to be cleared. -/
def cleared (h : History) : List (UInt8 × RequestId) := h.filterMap Moment.cleared?

def writes (h : History) : List (FrameId × List (Nat × Value)) := h.filterMap Moment.wrote?

/-- The final reports. -/
def finals (h : History) : List Report := (h.filterMap Moment.report?).filter Report.isFinal

/-- The state that was published last. -/
def published? (h : History) : Option TraceState := (h.filterMap Moment.state?).getLast?

/-- How many frames there were at first. -/
def base? (h : History) : Option Int := (h.filterMap Moment.depth?).head?

/-- Where the frame that was looked at first stood. -/
def invoking? (h : History) : Option Location := (h.filterMap Moment.frame?).head?.map (·.location)

/-- The step that is awaited. -/
def awaited? (h : History) : Option RequestId := h.foldl Moment.await none

/-- The event at which the thread stands. -/
def event? (h : History) : Option Event := h.foldl Moment.stand none

/-- What happened since the thread was resumed last. -/
def still (h : History) : History :=
  h.foldl (fun still m => if m.resumes then [] else still ++ [m]) []

/-- What happened before something was written into a frame. -/
def unwritten (h : History) : History := h.takeWhile fun m => m.wrote?.isNone

/-- Whether the frames were counted last. -/
def counting (h : History) : Bool := h.foldl Moment.count false

/-- Whether the source was put back: where the frames were counted last, something was written. -/
def PutBack (h : History) : Prop :=
  ∃ (pre : History) (m : Moment), pre ++ [m] <+: h ∧ pre.counting = true ∧ m.wrote? ≠ none

/-- The source was replaced: something was written before any event came. -/
def Substituted (h : History) : Prop := h.writes ≠ [] ∧ ∀ e, .heard e ∉ h.unwritten

/-- No exit of a method was reported while a step was awaited. -/
def Orderly (h : History) : Prop :=
  ∀ (pre : History) id t l v, pre ++ [.heard (.methodExitWithValue id t l v)] <+: h →
    pre.awaited? = none

/-! ## One more moment -/

section

variable (h : History) (m : Moment)

theorem filterMap_snoc {α : Type} (f : Moment → Option α) :
    (h ++ [m]).filterMap f = h.filterMap f ++ (f m).toList := by
  cases hm : f m <;> simp [hm]

@[simp] theorem disabled_snoc : disabled (h ++ [m]) = h.disabled ++ m.disabled?.toList :=
  filterMap_snoc h m _

@[simp] theorem pinned_snoc : pinned (h ++ [m]) = h.pinned ++ m.pinned?.toList :=
  filterMap_snoc h m _

@[simp] theorem enabled_snoc : enabled (h ++ [m]) = h.enabled ++ m.enabled?.toList :=
  filterMap_snoc h m _

@[simp] theorem opened_snoc : opened (h ++ [m]) = h.opened ++ m.opened?.toList :=
  filterMap_snoc h m _

@[simp] theorem cleared_snoc : cleared (h ++ [m]) = h.cleared ++ m.cleared?.toList :=
  filterMap_snoc h m _

@[simp] theorem writes_snoc : writes (h ++ [m]) = h.writes ++ m.wrote?.toList :=
  filterMap_snoc h m _

@[simp] theorem finals_snoc :
    finals (h ++ [m]) = h.finals ++ m.report?.toList.filter Report.isFinal := by
  rw [finals, filterMap_snoc, List.filter_append]
  rfl

@[simp] theorem published?_snoc : published? (h ++ [m]) = m.state?.or h.published? := by
  cases hm : m.state? <;> simp [published?, hm]

@[simp] theorem base?_snoc : base? (h ++ [m]) = h.base?.or m.depth? := by
  cases hm : m.depth? <;> simp [base?, hm]

@[simp] theorem invoking?_snoc :
    invoking? (h ++ [m]) = h.invoking?.or (m.frame?.map (·.location)) := by
  unfold invoking?
  rw [filterMap_snoc, List.head?_append]
  cases (h.filterMap Moment.frame?).head? <;> cases m.frame? <;> rfl

@[simp] theorem awaited?_snoc : awaited? (h ++ [m]) = m.await h.awaited? := by
  simp [awaited?]

@[simp] theorem event?_snoc : event? (h ++ [m]) = m.stand h.event? := by
  simp [event?]

@[simp] theorem still_snoc : still (h ++ [m]) = if m.resumes then [] else h.still ++ [m] := by
  simp [still]

@[simp] theorem counting_snoc : counting (h ++ [m]) = m.count h.counting := by
  simp [counting]

@[simp] theorem putBack_snoc :
    PutBack (h ++ [m]) ↔ h.PutBack ∨ h.counting = true ∧ m.wrote? ≠ none := by
  unfold PutBack
  simp only [List.prefix_concat_iff, List.append_singleton_inj]
  constructor
  · rintro ⟨pre, m', ⟨rfl, rfl⟩ | hpre, hcount, hwrote⟩
    · exact .inr ⟨hcount, hwrote⟩
    · exact .inl ⟨pre, m', hpre, hcount, hwrote⟩
  · rintro (⟨pre, m', hpre, hcount, hwrote⟩ | ⟨hcount, hwrote⟩)
    · exact ⟨pre, m', .inr hpre, hcount, hwrote⟩
    · exact ⟨h, m, .inl ⟨rfl, rfl⟩, hcount, hwrote⟩

theorem orderly_snoc :
    Orderly (h ++ [m]) ↔ h.Orderly ∧
      ∀ id t l v, m = .heard (.methodExitWithValue id t l v) → h.awaited? = none := by
  unfold Orderly
  simp only [List.prefix_concat_iff, List.append_singleton_inj]
  constructor
  · intro ho
    exact ⟨fun pre id t l v hpre => ho pre id t l v (.inr hpre),
      fun id t l v hm => ho h id t l v (.inl ⟨rfl, hm.symm⟩)⟩
  · rintro ⟨ho, hlast⟩ pre id t l v (⟨rfl, hm⟩ | hpre)
    · exact hlast id t l v hm.symm
    · exact ho pre id t l v hpre

theorem unwritten_of_writes (hw : h.writes = []) : h.unwritten = h := by
  refine List.takeWhile_eq_self_iff.mpr fun m hm => ?_
  have hnone := List.filterMap_eq_nil_iff.mp hw m hm
  simp [hnone]

theorem not_putBack_of_writes (hw : h.writes = []) : ¬h.PutBack := by
  rintro ⟨pre, m, hpre, -, hwrote⟩
  have hmem : m ∈ h := hpre.subset (List.mem_append_right _ (List.mem_singleton.mpr rfl))
  exact hwrote (List.filterMap_eq_nil_iff.mp hw m hmem)

/-- Up to the first write everything counts. -/
theorem unwritten_snoc_wrote (hw : h.writes = []) (hm : m.wrote? ≠ none) :
    unwritten (h ++ [m]) = h := by
  have hself := unwritten_of_writes h hw
  have hlast : m.wrote?.isNone = false :=
    Option.isNone_eq_false_iff.mpr (Option.isSome_iff_ne_none.mpr hm)
  unfold unwritten at hself ⊢
  rw [List.takeWhile_append, hself, if_pos rfl, List.takeWhile_cons_of_neg (by simp [hlast]),
    List.append_nil]

theorem unwritten_snoc_of_ne (hw : h.writes ≠ []) : unwritten (h ++ [m]) = h.unwritten := by
  unfold unwritten
  rw [List.takeWhile_append, if_neg]
  intro hlength
  refine hw (List.filterMap_eq_nil_iff.mpr fun m hm => ?_)
  have hself := (List.takeWhile_prefix _).eq_of_length hlength
  simpa using List.takeWhile_eq_self_iff.mp hself m hm

end

theorem mem_unwritten_snoc {h : History} {m m' : Moment} (hm : m ∈ h.unwritten) :
    m ∈ unwritten (h ++ [m']) := by
  unfold unwritten at hm ⊢
  rw [List.takeWhile_append]
  split
  · exact List.mem_append_left _ (List.takeWhile_subset _ hm)
  · exact hm

theorem mem_still_snoc (h : History) {m : Moment} (hm : m.resumes = false) :
    m ∈ still (h ++ [m]) := by
  rw [still_snoc, hm]
  exact List.mem_append_right _ (List.mem_singleton.mpr rfl)

theorem mem_of_mem_still {h : History} {m : Moment} (hm : m ∈ h.still) : m ∈ h := by
  induction h using List.reverseRecOn with
  | nil => cases hm
  | append_singleton h m' ih =>
      rw [still_snoc] at hm
      split at hm
      · cases hm
      · rcases List.mem_append.mp hm with hm | hm
        · exact List.mem_append_left _ (ih hm)
        · exact List.mem_append_right _ hm

/-- The thread stands at an event that came. -/
theorem mem_of_event {h : History} {e : Event} (he : h.event? = some e) : .heard e ∈ h := by
  induction h using List.reverseRecOn with
  | nil => cases he
  | append_singleton h m ih =>
      rw [event?_snoc] at he
      rcases Moment.stand_eq_some he with hold | rfl
      · exact List.mem_append_left _ (ih hold)
      · exact List.mem_append_right _ (List.mem_singleton.mpr rfl)

/-! ## What the rules are about -/

/-- An exception that is caught at `caught` leaves the frames of the chain, as far as the thread was
looked at. -/
def Escaped (h : History) (base : Int) (caught : Location) : Prop :=
  (∃ t, ∃ n : Int, Moment.sent (.frameCount t) (.ok n) ∈ h.still ∧ n ≤ base) ∨
    ∃ t length, ∃ frames : List FrameInfo,
      Moment.sent (.frames t 0 length) (.ok frames) ∈ h.still ∧ 0 < length ∧
        ∀ f ∈ frames, f.location.sameMethod caught = false

/-- The thread stands at the end of a step, which was awaited. -/
def Arrived (h : History) (request : RequestId) : Prop :=
  ∃ (pre : History) (t : ThreadId) (l : Location) (post : History),
    h = pre ++ .heard (.singleStep request t l) :: post ∧ pre.awaited? = some request ∧
      ∀ m ∈ post, m.event? = none ∧ m.resumes = false

/-- The thread turned out to have more frames than at first. -/
def Deep (h : History) (base : Int) : Prop :=
  h.base? = some base ∧ ∃ t, ∃ n : Int, Moment.sent (.frameCount t) (.ok n) ∈ h.still ∧ base < n

/-- The thread is on its way back: the step that was awaited has ended, or an exception leaves the
frames of the chain. -/
def OnWayBack (h : History) (base : Int) : Prop :=
  (∃ request t l, h.event? = some (.singleStep request t l) ∧ h.Arrived request) ∨
    ∃ request t l exception caught, h.event? = some (.exception request t l exception caught) ∧
      ∀ place, caught = some place → h.Escaped base place

/-- When a step may be requested: behind the exit of the last stage, or on the way back, with more
frames than at first. -/
inductive MayStep (h : History) : List EventModifier → Prop where
  | out {request : RequestId} {t : ThreadId} {l : Location} {v : Value} (thread : ThreadId)
      (event : h.event? = some (.methodExitWithValue request t l v)) :
      MayStep h [.step thread StepSize.line StepDepth.out, .count 1]
  | into {base : Int} (thread : ThreadId) (deep : h.Deep base) (event : h.OnWayBack base) :
      MayStep h [.step thread StepSize.min StepDepth.into, .count 1]

/-- What may be written into a frame: the arguments of a method that was just entered, another
source into the variable that held one, and what the variable held, once. -/
inductive MayWrite (chain : StreamChain) (h : History) : FrameId → List (Nat × Value) → Prop where
  | arguments {request : RequestId} {t t' : ThreadId} {l : Location} {f : FrameInfo}
      {rest : List FrameInfo} {values : List (Nat × Value)}
      (event : h.event? = some (.methodEntry request t l))
      (top : .sent (.frames t' 0 1) (.ok (f :: rest)) ∈ h.still) (calm : h.counting = false) :
      MayWrite chain h f.frameId values
  | source {text name : String} {t t' : ThreadId} {f : FrameInfo} {rest : List FrameInfo} {n : Nat}
      {locals : List VariableInfo} {v : VariableInfo} {held stream : Value} {others : List Value}
      (named : chain.qualifier = .var text name) (fresh : h.writes = []) (early : ∀ e, .heard e ∉ h)
      (unmoved : h.still = h) (top : .sent (.frames t 0 1) (.ok (f :: rest)) ∈ h.still)
      (table : .sent (.variableTable f.location.typeId f.location.methodId) (.ok (n, locals)) ∈
        h.still)
      (visible : TracePlan.visibleVariable? locals name f.location.index = some v)
      (read : .sent (.slotValues t' f.frameId [(v.slot, v.signature)]) (.ok (held :: others)) ∈
        h.still) (calm : h.counting = false) :
      MayWrite chain h f.frameId [(v.slot, stream)]
  | back {t t' : ThreadId} {n base : Int} {f : FrameInfo} {rest : List FrameInfo} {frame : FrameId}
      {slot : Nat} {signature : String} {held stream : Value} {others : List Value}
      (made : h.writes.head? = some (frame, [(slot, stream)])) (early : ∀ e, .heard e ∉ h.unwritten)
      (read : .sent (.slotValues t' frame [(slot, signature)]) (.ok (held :: others)) ∈ h.unwritten)
      (once : ¬h.PutBack) (counting : h.counting = true)
      (counted : .sent (.frameCount t) (.ok n) ∈ h.still) (hbase : h.base? = some base)
      (deep : base ≤ n) (found : .sent (.frames t (n - base) 1) (.ok (f :: rest)) ∈ h.still) :
      MayWrite chain h f.frameId [(slot, held)]

/-- When the thread may be resumed: at first, and at an event; at the end of a step only if it was
awaited and has not led back. -/
def MayResume (h : History) : Prop :=
  (h.still = h ∧ ∀ e, .heard e ∉ h) ∨
    ∃ e, h.event? = some e ∧
      ∀ id t l, e = .singleStep id t l → h.Arrived id ∧ ∃ base, h.Deep base

/-- The frame of the source variable was looked for in vain, or could not be written. -/
inductive SourceMissed (base : Int) (invoking : Location) (t : ThreadId) :
    Except JdwpError Int → History → Prop where
  | uncounted (e : JdwpError) (post : History) : SourceMissed base invoking t (.error e) post
  | gone (n : Int) (post : History) (h : n < base) : SourceMissed base invoking t (.ok n) post
  | unseen (n : Int) (e : JdwpError) (post : History) :
      SourceMissed base invoking t (.ok n) (.sent (.frames t (n - base) 1) (.error e) :: post)
  | none (n : Int) (post : History) :
      SourceMissed base invoking t (.ok n) (.sent (.frames t (n - base) 1) (.ok []) :: post)
  | other (n : Int) (f : FrameInfo) (rest : List FrameInfo) (post : History)
      (h : f.location.sameMethod invoking = false) :
      SourceMissed base invoking t (.ok n)
        (.sent (.frames t (n - base) 1) (.ok (f :: rest)) :: post)
  | refused (n : Int) (f : FrameInfo) (rest : List FrameInfo) (values : List (Nat × Value))
      (e : JdwpError) (post : History) :
      SourceMissed base invoking t (.ok n) (.sent (.frames t (n - base) 1) (.ok (f :: rest)) ::
        .sent (.setSlots t f.frameId values) (.error e) :: post)

/-- After the frames were counted for the last time, the source was not put back. -/
def NotPutBack (h : History) : Prop :=
  ∃ (pre : History) (t : ThreadId) (r : Except JdwpError Int) (post : History) (base : Int)
    (invoking : Location), h = pre ++ .sent (.frameCount t) r :: post ∧
    (∀ m ∈ post, m.counts = false) ∧ pre.base? = some base ∧
      pre.invoking? = some invoking ∧ SourceMissed base invoking t r post

/-- Everything was given back that the final report speaks of. -/
structure Settled (h : History) : Prop where
  requests : h.Orderly → h.opened.Perm h.cleared
  source : h.Substituted → h.PutBack ∨ h.NotPutBack

/-! ## Rules -/

/-- The trace may do that next. -/
structure Admits (chain : StreamChain) (h : History) (a : Action) : Prop where
  /-- After the final report nothing is done but to release what is pinned, each object once. -/
  ended : (∀ id, a ≠ .command (.enableCollection id)) → h.finals = []
  release : ∀ id, a = .command (.enableCollection id) →
    h.finals ≠ [] ∧ ∃ rest, (h.enabled ++ id :: rest).Perm h.pinned
  final : ∀ r s, a = .deliver r → r.outcome? = some s → h.published? = some s ∧ h.Settled
  disable : ∀ id, a = .command (.disableCollection id) → id ∉ h.disabled
  step : ∀ policy modifiers, a = .command (.setRequest EventKind.singleStep policy modifiers) →
    (h.Orderly → h.awaited? = none) ∧ h.MayStep modifiers
  write : ∀ t frame values, a = .command (.setSlots t frame values) → h.MayWrite chain frame values
  resume : ∀ c, a = .command c → c.resumes = true → h.MayResume

/-- Everything that was done was admitted, and no event came after the final report. -/
structure Lawful (chain : StreamChain) (h : History) : Prop where
  admitted : ∀ (pre : History) a r, pre ++ [.did a r] <+: h → pre.Admits chain a
  hushed : ∀ (pre : History) e, pre ++ [.heard e] <+: h → pre.finals = []

/-! ## Lawful histories -/

section

variable {chain : StreamChain} {h h' h'' : History}

theorem lawful_nil : Lawful chain [] := by
  constructor
  · intro pre a r hpre
    simp at hpre
  · intro pre e hpre
    simp at hpre

theorem Lawful.did (hl : h.Lawful chain) {a : Action} (r : a.Reply) (ha : h.Admits chain a) :
    Lawful chain (h ++ [.did a r]) := by
  constructor
  · intro pre a' r' hpre
    rcases List.prefix_concat_iff.mp hpre with heq | hpre
    · obtain ⟨rfl, hm⟩ := List.append_singleton_inj.mp heq
      cases hm
      exact ha
    · exact hl.admitted pre a' r' hpre
  · intro pre e hpre
    rcases List.prefix_concat_iff.mp hpre with heq | hpre
    · obtain ⟨-, hm⟩ := List.append_singleton_inj.mp heq
      cases hm
    · exact hl.hushed pre e hpre

theorem Lawful.heard (hl : h.Lawful chain) (e : Event) (hf : h.finals = []) :
    Lawful chain (h ++ [.heard e]) := by
  constructor
  · intro pre a' r' hpre
    rcases List.prefix_concat_iff.mp hpre with heq | hpre
    · obtain ⟨-, hm⟩ := List.append_singleton_inj.mp heq
      cases hm
    · exact hl.admitted pre a' r' hpre
  · intro pre e' hpre
    rcases List.prefix_concat_iff.mp hpre with heq | hpre
    · obtain ⟨rfl, -⟩ := List.append_singleton_inj.mp heq
      exact hf
    · exact hl.hushed pre e' hpre

/-- An action that no rule but the first speaks of. -/
theorem Admits.free (hf : h.finals = []) {a : Action}
    (hdeliver : ∀ r, a = .deliver r → r.outcome? = none)
    (hcommand : ∀ c, a = .command c → c.isMinor = true ∨ (∃ t, c = .frameCount t) ∨
      (∃ kind id, c = .clearRequest kind id) ∨
        ∃ kind policy modifiers, c = .setRequest kind policy modifiers ∧
          kind ≠ EventKind.singleStep) :
    h.Admits chain a := by
  refine ⟨fun _ => hf, fun id ha => ?_, fun r s ha hs => ?_, fun id ha => ?_,
    fun policy modifiers ha => ?_, fun t frame values ha => ?_, fun c ha hc => ?_⟩
  · simpa [Command.isMinor] using hcommand _ ha
  · simp [hdeliver r ha] at hs
  · simpa [Command.isMinor] using hcommand _ ha
  · simpa [Command.isMinor] using hcommand _ ha
  · simpa [Command.isMinor] using hcommand _ ha
  · cases c <;> first
      | simpa [Command.isMinor] using hcommand _ ha
      | cases hc

theorem Admits.minor (hf : h.finals = []) {c : Command} (hc : c.isMinor = true) :
    h.Admits chain (.command c) := by
  refine .free hf (fun r hr => by cases hr) fun c' hc' => ?_
  cases hc'
  exact .inl hc

theorem Admits.clear (hf : h.finals = []) (kind : UInt8) (id : RequestId) :
    h.Admits chain (.command (.clearRequest kind id)) := by
  refine .free hf (fun r hr => by cases hr) fun c hc => ?_
  cases hc
  exact .inr (.inr (.inl ⟨kind, id, rfl⟩))

theorem Admits.count (hf : h.finals = []) (t : ThreadId) :
    h.Admits chain (.command (.frameCount t)) := by
  refine .free hf (fun r hr => by cases hr) fun c hc => ?_
  cases hc
  exact .inr (.inl ⟨t, rfl⟩)

theorem Admits.set (hf : h.finals = []) {kind : UInt8} (hkind : kind ≠ EventKind.singleStep)
    (policy : UInt8) (modifiers : List EventModifier) :
    h.Admits chain (.command (.setRequest kind policy modifiers)) := by
  refine .free hf (fun r hr => by cases hr) fun c hc => ?_
  cases hc
  exact .inr (.inr (.inr ⟨kind, policy, modifiers, rfl, hkind⟩))

theorem Admits.stepping (hf : h.finals = []) {policy : UInt8} {modifiers : List EventModifier}
    (ha : h.Orderly → h.awaited? = none) (hm : h.MayStep modifiers) :
    h.Admits chain (.command (.setRequest EventKind.singleStep policy modifiers)) := by
  refine ⟨fun _ => hf, fun _ ha => ?_, fun _ _ ha => ?_, fun _ ha => ?_, fun _ _ hstep => ?_,
    fun _ _ _ ha => ?_, fun c ha hc => ?_⟩
  · cases ha
  · cases ha
  · cases ha
  · cases hstep
    exact ⟨ha, hm⟩
  · cases ha
  · cases ha
    cases hc

theorem Admits.writing (hf : h.finals = []) {t : ThreadId} {frame : FrameId}
    {values : List (Nat × Value)} (hw : h.MayWrite chain frame values) :
    h.Admits chain (.command (.setSlots t frame values)) := by
  refine ⟨fun _ => hf, fun _ ha => ?_, fun _ _ ha => ?_, fun _ ha => ?_, fun _ _ ha => ?_,
    fun _ _ _ ha => ?_, fun c ha hc => ?_⟩
  · cases ha
  · cases ha
  · cases ha
  · cases ha
  · cases ha
    exact hw
  · cases ha
    cases hc

theorem Admits.resuming (hf : h.finals = []) {c : Command} (hc : c.resumes = true)
    (hr : h.MayResume) : h.Admits chain (.command c) := by
  refine ⟨fun _ => hf, fun _ ha => ?_, fun _ _ ha => ?_, fun _ ha => ?_, fun _ _ ha => ?_,
    fun _ _ _ ha => ?_, fun _ _ _ => hr⟩
  · cases ha
    cases hc
  · cases ha
  · cases ha
    cases hc
  · cases ha
    cases hc
  · cases ha
    cases hc

theorem Admits.finishing (hf : h.finals = []) {r : Report} {s : TraceState}
    (hr : r.outcome? = some s) (hs : h.published? = some s) (hsettled : h.Settled) :
    h.Admits chain (.deliver r) := by
  refine ⟨fun _ => hf, fun _ ha => ?_, fun r' s' ha hs' => ?_, fun _ ha => ?_, fun _ _ ha => ?_,
    fun _ _ _ ha => ?_, fun _ ha => ?_⟩
  · cases ha
  · cases ha
    rw [hr] at hs'
    cases hs'
    exact ⟨hs, hsettled⟩
  · cases ha
  · cases ha
  · cases ha
  · cases ha

theorem Admits.releasing (hf : h.finals ≠ []) {id : ObjectId} {rest : List ObjectId}
    (hp : (h.enabled ++ id :: rest).Perm h.pinned) :
    h.Admits chain (.command (.enableCollection id)) := by
  refine ⟨fun hne => absurd rfl (hne id), fun id' ha => ?_, fun _ _ ha => ?_, fun _ ha => ?_,
    fun _ _ ha => ?_, fun _ _ _ ha => ?_, fun c ha hc => ?_⟩
  · cases ha
    exact ⟨hf, rest, hp⟩
  · cases ha
  · cases ha
  · cases ha
  · cases ha
  · cases ha
    cases hc

theorem Admits.pin (hf : h.finals = []) {id : ObjectId} (hid : id ∉ h.disabled) :
    h.Admits chain (.command (.disableCollection id)) := by
  refine ⟨fun _ => hf, fun _ ha => ?_, fun _ _ ha => ?_, fun id' ha => ?_, fun _ _ ha => ?_,
    fun _ _ _ ha => ?_, fun c ha hc => ?_⟩
  · cases ha
  · cases ha
  · cases ha
    exact hid
  · cases ha
  · cases ha
  · cases ha
    cases hc

/-! ## Calm and minor moments -/

/-- Only moments of that kind came after `h`. -/
inductive ContinuedBy (P : Moment → Prop) (h : History) : History → Prop where
  | refl : ContinuedBy P h h
  | snoc {h' : History} {m : Moment} (before : ContinuedBy P h h') (kind : P m) :
      ContinuedBy P h (h' ++ [m])

namespace ContinuedBy

variable {P : Moment → Prop}

theorem trans (h₁ : h.ContinuedBy P h') (h₂ : h'.ContinuedBy P h'') : h.ContinuedBy P h'' := by
  induction h₂ with
  | refl => exact h₁
  | snoc _ kind ih => exact ih.snoc kind

theorem one {m : Moment} (hm : P m) : h.ContinuedBy P (h ++ [m]) := refl.snoc hm

theorem mono {P' : Moment → Prop} (h₁ : h.ContinuedBy P h') (hP : ∀ m, P m → P' m) :
    h.ContinuedBy P' h' := by
  induction h₁ with
  | refl => exact refl
  | snoc _ kind ih => exact ih.snoc (hP _ kind)

/-- What none of the moments changes. -/
theorem keeps {β : Type} (f : History → β) (hf : ∀ h m, P m → f (h ++ [m]) = f h)
    (h₁ : h.ContinuedBy P h') : f h' = f h := by
  induction h₁ with
  | refl => rfl
  | snoc _ kind ih => rw [hf _ _ kind, ih]

theorem mem (h₁ : h.ContinuedBy P h') {m : Moment} (hm : m ∈ h) : m ∈ h' := by
  induction h₁ with
  | refl => exact hm
  | snoc _ _ ih => exact List.mem_append_left _ ih

theorem base? (h₁ : h.ContinuedBy P h') {n : Int} (hn : h.base? = some n) : h'.base? = some n := by
  induction h₁ with
  | refl => exact hn
  | snoc _ _ ih => simp [ih]

theorem invoking? (h₁ : h.ContinuedBy P h') {l : Location} (hl : h.invoking? = some l) :
    h'.invoking? = some l := by
  induction h₁ with
  | refl => exact hl
  | snoc _ _ ih => simp [ih]

theorem minor (h₁ : h.ContinuedBy Moment.Idle h') : h.ContinuedBy Moment.Minor h' :=
  h₁.mono fun _ hm => hm.toMinor

theorem orderly_of_event (hP : ∀ m, P m → m.event? = none) (h₁ : h.ContinuedBy P h') :
    h'.Orderly ↔ h.Orderly := by
  induction h₁ with
  | refl => rfl
  | snoc _ kind ih =>
      rw [orderly_snoc, ih]
      refine and_iff_left fun id t l v hm => ?_
      have hevent := hP _ kind
      rw [hm] at hevent
      cases hevent

theorem calm (h₁ : h.ContinuedBy Moment.Minor h') : h.ContinuedBy Moment.Calm h' :=
    h₁.mono fun _ hm => hm.toCalm

/-! ### Minor moments -/

theorem opened (h₁ : h.ContinuedBy Moment.Minor h') : h'.opened = h.opened :=
  keeps History.opened (fun h m hm => by simp [hm.opened]) h₁

theorem cleared (h₁ : h.ContinuedBy Moment.Minor h') : h'.cleared = h.cleared :=
  keeps History.cleared (fun h m hm => by simp [hm.cleared]) h₁

theorem awaited? (h₁ : h.ContinuedBy Moment.Minor h') : h'.awaited? = h.awaited? :=
  keeps History.awaited? (fun h m hm => by simp [hm.await]) h₁

/-! ### Calm moments -/

theorem counting (h₁ : h.ContinuedBy Moment.Calm h') (hc : h.counting = false) :
    h'.counting = false := by
  induction h₁ with
  | refl => exact hc
  | snoc _ kind ih => rw [counting_snoc, ih, kind.count]

theorem stays (h₁ : h.ContinuedBy Moment.Calm h') : h.ContinuedBy Moment.Stays h' :=
  h₁.mono fun _ hm => hm.toStays

/-! ### Moments at which the thread stays where it is -/

theorem finals (h₁ : h.ContinuedBy Moment.Stays h') : h'.finals = h.finals :=
  keeps History.finals (fun h m hm => by simp [hm.finals]) h₁

theorem enabled (h₁ : h.ContinuedBy Moment.Stays h') : h'.enabled = h.enabled :=
  keeps History.enabled (fun h m hm => by simp [hm.enabled]) h₁

theorem writes (h₁ : h.ContinuedBy Moment.Stays h') : h'.writes = h.writes :=
  keeps History.writes (fun h m hm => by simp [hm.wrote]) h₁

theorem event? (h₁ : h.ContinuedBy Moment.Stays h') : h'.event? = h.event? :=
  keeps History.event? (fun h m hm => by simp [hm.stand]) h₁

theorem orderly (h₁ : h.ContinuedBy Moment.Stays h') : h'.Orderly ↔ h.Orderly :=
  orderly_of_event (fun _ hm => hm.event) h₁

/-- What happened since the thread was resumed is still known. -/
theorem still (h₁ : h.ContinuedBy Moment.Stays h') {m : Moment} (hm : m ∈ h.still) :
    m ∈ h'.still := by
  induction h₁ with
  | refl => exact hm
  | snoc _ kind ih =>
      rw [still_snoc, kind.resumes]
      exact List.mem_append_left _ ih

theorem early (h₁ : h.ContinuedBy Moment.Stays h') (he : ∀ e, .heard e ∉ h) :
    ∀ e, .heard e ∉ h' := by
  induction h₁ with
  | refl => exact he
  | snoc _ kind ih =>
      intro e hmem
      rcases List.mem_append.mp hmem with hmem | hmem
      · exact ih e hmem
      · have hevent := kind.event
        rw [← List.mem_singleton.mp hmem] at hevent
        cases hevent

theorem unresumed (h₁ : h.ContinuedBy Moment.Stays h') (hs : h.still = h) : h'.still = h' := by
  induction h₁ with
  | refl => exact hs
  | snoc _ kind ih => simp [still_snoc, kind.resumes, ih]

theorem escaped (h₁ : h.ContinuedBy Moment.Stays h') {base : Int} {caught : Location}
    (he : h.Escaped base caught) : h'.Escaped base caught := by
  rcases he with ⟨t, n, hmem, hn⟩ | ⟨t, length, frames, hmem, hpos, hframes⟩
  · exact .inl ⟨t, n, h₁.still hmem, hn⟩
  · exact .inr ⟨t, length, frames, h₁.still hmem, hpos, hframes⟩

theorem arrived (h₁ : h.ContinuedBy Moment.Stays h') {request : RequestId}
    (ha : h.Arrived request) :
    h'.Arrived request := by
  induction h₁ with
  | refl => exact ha
  | @snoc h' m _ kind ih =>
      obtain ⟨pre, t, l, post, rfl, hawaited, hpost⟩ := ih
      refine ⟨pre, t, l, post ++ [m], by simp, hawaited, fun m' hm => ?_⟩
      rcases List.mem_append.mp hm with hm | hm
      · exact hpost m' hm
      · rw [List.mem_singleton.mp hm]
        exact ⟨kind.event, kind.resumes⟩

theorem deep (h₁ : h.ContinuedBy Moment.Stays h') {base : Int} (hd : h.Deep base) :
    h'.Deep base := by
  obtain ⟨hbase, t, n, hmem, hn⟩ := hd
  exact ⟨h₁.base? hbase, t, n, h₁.still hmem, hn⟩

theorem onWayBack (h₁ : h.ContinuedBy Moment.Stays h') {base : Int} (hr : h.OnWayBack base) :
    h'.OnWayBack base := by
  unfold OnWayBack
  rw [h₁.event?]
  rcases hr with ⟨request, t, l, he, ha⟩ | ⟨request, t, l, exception, caught, he, hplace⟩
  · exact .inl ⟨request, t, l, he, h₁.arrived ha⟩
  · exact .inr ⟨request, t, l, exception, caught, he, fun place hc => h₁.escaped (hplace place hc)⟩

end ContinuedBy

/-- Nothing was pinned, let go of or reported. -/
structure KeepsPins (h h' : History) : Prop where
  disabled : h'.disabled = h.disabled
  pinned : h'.pinned = h.pinned
  enabled : h'.enabled = h.enabled
  finals : h'.finals = h.finals

theorem KeepsPins.refl (h : History) : h.KeepsPins h := ⟨rfl, rfl, rfl, rfl⟩

theorem KeepsPins.trans (h₁ : h.KeepsPins h') (h₂ : h'.KeepsPins h'') : h.KeepsPins h'' :=
  ⟨h₂.disabled.trans h₁.disabled, h₂.pinned.trans h₁.pinned, h₂.enabled.trans h₁.enabled,
    h₂.finals.trans h₁.finals⟩

theorem ContinuedBy.lightPins (hg : h.ContinuedBy Moment.Light h') : h.KeepsPins h' where
  disabled := hg.keeps History.disabled fun h m hm => by simp [hm.disabled]
  pinned := hg.keeps History.pinned fun h m hm => by
    simp [Moment.pinned?_of_disabled? hm.disabled]
  enabled := hg.keeps History.enabled fun h m hm => by simp [hm.enabled]
  finals := hg.keeps History.finals fun h m hm => by simp [hm.finals]

theorem ContinuedBy.keepsPins (hg : h.ContinuedBy Moment.Idle h') : h.KeepsPins h' :=
  (hg.mono fun _ hm => hm.light).lightPins

theorem keepsPins_snoc (h : History) {m : Moment} (hd : m.disabled? = none)
    (he : m.enabled? = none) (hf : m.report?.toList.filter Report.isFinal = []) :
    h.KeepsPins (h ++ [m]) := by
  refine ⟨?_, ?_, ?_, ?_⟩
  · simp [hd]
  · simp [Moment.pinned?_of_disabled? hd]
  · simp [he]
  · simp [hf]

/-- More than that comes, but the frames are not counted again. -/
theorem NotPutBack.snoc (ht : h.NotPutBack) {m : Moment} (hm : m.counts = false) :
    NotPutBack (h ++ [m]) := by
  obtain ⟨pre, t, r, post, base, invoking, rfl, hlast, hbase, hinvoking, hmiss⟩ := ht
  refine ⟨pre, t, r, post ++ [m], base, invoking, by simp, fun m' hmem => ?_, hbase, hinvoking, ?_⟩
  · rcases List.mem_append.mp hmem with hmem | hmem
    · exact hlast m' hmem
    · rw [List.mem_singleton.mp hmem]
      exact hm
  · cases hmiss with
    | uncounted e => exact .uncounted e _
    | gone n _ hn => exact .gone n _ hn
    | unseen n e post => exact .unseen n e _
    | none n post => exact .none n _
    | other n f rest post hf => exact .other n f rest _ hf
    | refused n f rest values e post => exact .refused n f rest values e _

theorem Settled.minor (hs : h.Settled) (hg : h.ContinuedBy Moment.Minor h') : h'.Settled := by
  induction hg with
  | refl => exact hs
  | @snoc h' m before kind ih =>
      have hone := ContinuedBy.one (h := h') kind
      refine ⟨fun ho => ?_, fun hsub => ?_⟩
      · rw [hone.opened, hone.cleared]
        exact ih.requests (hone.calm.stays.orderly.mp ho)
      · rw [Substituted, hone.calm.stays.writes] at hsub
        rcases ih.source ⟨hsub.1, fun e he => hsub.2 e (mem_unwritten_snoc he)⟩ with hput | htried
        · exact .inl ((putBack_snoc _ _).mpr (.inl hput))
        · exact .inr (htried.snoc kind.counts)

end

end History

end StreamTrace
