import StreamTrace.Debugger.Manager
import StreamTrace.Machine.Requests
import StreamTrace.Proofs.Debugger.Target

/-!
# Histories of a trace

What happens while a trace runs, oldest first: the actions that it performs, each with the reply it
got, and the events that are delivered to it in between. `TraceRun` lists the histories that a
trace can have on any target and with any events; nothing is assumed about either. What requests
are installed at a moment, and which method requests were set up to it, is read off the history.
-/

namespace StreamTrace

inductive Moment where
  | did (a : Action) (r : a.Reply)
  | heard (e : Event)

abbrev History := List Moment

/-- A command with its answer. -/
def Moment.sent (c : Command) (r : c.Answer) : Moment := .did (.command c) r

/-! ## Installed requests -/

/-- The requests that are installed after one more moment. A request whose clearing was refused
stays installed. -/
def Moment.install (installed : List (UInt8 × RequestId)) : Moment → List (UInt8 × RequestId)
  | did (.command (.setRequest kind _ _)) r =>
    match (r : Except JdwpError RequestId) with
    | .ok (id : RequestId) => installed ++ [(kind, id)]
    | .error _ => installed
  | did (.command (.clearRequest kind id)) r =>
    match (r : Except JdwpError Unit) with
    | .ok () => installed.filter (· ≠ (kind, id))
    | .error _ => installed
  | _ => installed

/-- A method request that was set, or that the target refused to set. -/
def Moment.methodSet? : Moment → Option (Command × Except JdwpError RequestId)
  | did (.command (.setRequest kind policy modifiers)) r =>
    if isMethodKind kind then some (.setRequest kind policy modifiers, r) else none
  | _ => none

def Moment.stage? : Moment → Option Nat
  | did (.publish (.stageActive k)) _ => some k
  | _ => none

def Moment.event? : Moment → Option Event
  | heard e => some e
  | did _ _ => none

/-- Whether it is not the refusal to clear a request. -/
def Moment.Clears : Moment → Prop
  | did (.command (.clearRequest _ _)) r => (r : Except JdwpError Unit) = .ok ()
  | _ => True

namespace History

def installed (h : History) : List (UInt8 × RequestId) := h.foldl Moment.install []

/-- The installed requests for entries and exits of methods. -/
def installedMethods (h : History) : List (UInt8 × RequestId) :=
  h.installed.filter fun x => isMethodKind x.1

/-- The installed requests for exceptions. -/
def installedGuards (h : History) : List (UInt8 × RequestId) :=
  h.installed.filter fun x => x.1 == EventKind.exception

/-- The method requests that were set so far, each with the reply. -/
def methodSets (h : History) : List (Command × Except JdwpError RequestId) :=
  h.filterMap Moment.methodSet?

/-- The stage that was published last as the active one. -/
def lastStage? (h : History) : Option Nat := (h.filterMap Moment.stage?).getLast?

/-- The event that was delivered last. -/
def lastEvent? (h : History) : Option Event := (h.filterMap Moment.event?).getLast?

/-- No request was refused to be cleared. -/
def ClearsSucceed (h : History) : Prop := ∀ m ∈ h, m.Clears

variable (h : History) (m : Moment)

@[simp] theorem installed_nil : installed [] = [] := rfl

@[simp] theorem installed_append_singleton : installed (h ++ [m]) = m.install h.installed := by
  simp [installed]

@[simp] theorem methodSets_nil : methodSets [] = [] := rfl

@[simp] theorem methodSets_append_singleton :
    methodSets (h ++ [m]) = h.methodSets ++ m.methodSet?.toList := by
  cases hm : m.methodSet? <;> simp [methodSets, hm]

@[simp] theorem lastStage?_append_singleton :
    lastStage? (h ++ [m]) = m.stage?.or h.lastStage? := by
  cases hm : m.stage? <;> simp [lastStage?, hm]

@[simp] theorem lastEvent?_append_singleton :
    lastEvent? (h ++ [m]) = m.event?.or h.lastEvent? := by
  cases hm : m.event? <;> simp [lastEvent?, hm]

@[simp] theorem clearsSucceed_nil : ClearsSucceed [] := by
  simp [ClearsSucceed]

@[simp] theorem clearsSucceed_append_singleton :
    ClearsSucceed (h ++ [m]) ↔ h.ClearsSucceed ∧ m.Clears := by
  simp [ClearsSucceed, or_imp, forall_and]

end History

/-! ## Runs of a trace -/

/-- The histories of a trace, each with the program that is left. A trace that listens goes on
with any event, or is given up. The replies are any. Only, a signature that is cut inside a
character has the debugger break off (see `JavaType.ofSignature?`); what is listed here after such
a reply says nothing about it. -/
inductive TraceRun (options : TraceOptions) (request : TraceRequest) :
    History → Program Continuation → Prop where
  | start : TraceRun options request [] (ActiveTrace.start options request)
  | act {h : History} {a : Action} {next : a.Reply → Program Continuation} (r : a.Reply)
      (run : TraceRun options request h (.act a next)) :
      TraceRun options request (h ++ [.did a r]) (next r)
  | event {h : History} {t : ActiveTrace} (e : Event)
      (run : TraceRun options request h (.done (.listen t))) :
      TraceRun options request (h ++ [.heard e]) (t.onEvent e)
  | cancel {h : History} {t : ActiveTrace} (failure : TraceFailure)
      (run : TraceRun options request h (.done (.listen t))) :
      TraceRun options request h (t.giveUp failure)

/-- The history of a program whose target has a fixed reply to every action, and what the program
ends in. -/
def Program.transcript {α : Type} (reply : (a : Action) → a.Reply) : Program α → History × α
  | done a => ([], a)
  | act a next =>
    let (h, k) := transcript reply (next (reply a))
    (.did a (reply a) :: h, k)

theorem Program.transcript_bind {α β : Type} (reply : (a : Action) → a.Reply) (p : Program α)
    (f : α → Program β) :
    ((p >>= f).transcript reply).2 = ((f (p.transcript reply).2).transcript reply).2 := by
  induction p with
  | done a => rfl
  | act a next ih => exact ih (reply a)

theorem Program.mem_transcript {α : Type} {reply : (a : Action) → a.Reply} {p : Program α}
    {m : Moment} (hm : m ∈ (p.transcript reply).1) : ∃ a, m = .did a (reply a) := by
  induction p with
  | done a => cases hm
  | act a next ih =>
      rcases List.mem_cons.mp hm with rfl | hm
      · exact ⟨a, rfl⟩
      · exact ih (reply a) hm

theorem TraceRun.transcript {options : TraceOptions} {request : TraceRequest}
    (reply : (a : Action) → a.Reply) {h : History} {p : Program Continuation}
    (run : TraceRun options request h p) :
    TraceRun options request (h ++ (p.transcript reply).1) (.done (p.transcript reply).2) := by
  induction p generalizing h with
  | done k => simpa [Program.transcript] using run
  | act a next ih => simpa [Program.transcript] using ih (reply a) (run.act (reply a))

/-- The target whose record is the history, and which replies as it likes. -/
def Target.recording (asks : History → Action → Prop) : Target History where
  asks := asks
  answers h a r h' := h' = h ++ [.did a r]

/-- What is asked at every action holds along every run of a trace, if the program of its start
meets it and so does what it does with every event. -/
theorem TraceRun.induction {options : TraceOptions} {request : TraceRequest}
    {asks : History → Action → Prop} {settles : Continuation → History → Prop}
    {always : History → Prop} {h : History} {p : Program Continuation}
    (start : (ActiveTrace.start options request).Meets (.recording asks) settles [])
    (onEvent : ∀ t h e, settles (.listen t) h → always h →
      (t.onEvent e).Meets (.recording asks) settles (h ++ [.heard e]))
    (giveUp : ∀ t h failure, settles (.listen t) h → always h →
      (t.giveUp failure).Meets (.recording asks) settles h)
    (nil : always [])
    (did : ∀ h a r, always h → asks h a → always (h ++ [.did a r]))
    (heard : ∀ t h e, settles (.listen t) h → always h → always (h ++ [.heard e]))
    (run : TraceRun options request h p) :
    always h ∧ p.Meets (.recording asks) settles h := by
  induction run with
  | start => exact ⟨nil, start⟩
  | act r _ ih =>
      obtain ⟨hh, hasks, hnext⟩ := ih
      exact ⟨did _ _ _ hh hasks, hnext r _ rfl⟩
  | event e _ ih =>
      obtain ⟨hh, hlisten⟩ := ih
      exact ⟨heard _ _ e hlisten hh, onEvent _ _ e hlisten hh⟩
  | cancel failure _ ih =>
      obtain ⟨hh, hlisten⟩ := ih
      exact ⟨hh, giveUp _ _ failure hlisten hh⟩

end StreamTrace
