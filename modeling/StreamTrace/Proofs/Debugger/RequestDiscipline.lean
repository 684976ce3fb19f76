import StreamTrace.Proofs.Debugger.BridgeCommands
import StreamTrace.Proofs.Debugger.History

/-!
# What a trace may send

The rules that every trace keeps to, as a condition on an action and on the history before it.
Nothing is invoked while a request for entries or exits of methods is installed, and no class is
searched for or defined while one for exceptions is. Such method requests are set one at a time,
in the order of the stages, and each but the first only because of an event of the one before.

`Quiet` moments change nothing that the rules speak of.
-/

namespace StreamTrace

/-- The turn of a breakpoint: the entry of the first stage has turn 0, its exit turn 1. -/
def MethodEdge.turn (edge : MethodEdge) (k : Nat) : Nat :=
  match edge with
  | .entry => 2 * k
  | .exit => 2 * k + 1

theorem MethodEdge.turn_inj {edge edge' : MethodEdge} {k k' : Nat}
    (h : edge.turn k = edge'.turn k') : edge = edge' ∧ k = k' := by
  cases edge <;> cases edge' <;> simp only [turn] at h <;>
    first
    | exact ⟨rfl, by omega⟩
    | omega

@[simp] theorem MethodEdge.isMethodKind_number (edge : MethodEdge) :
    isMethodKind edge.number = true := by
  cases edge <;> rfl

@[simp] theorem MethodEdge.number_inj {edge edge' : MethodEdge} :
    edge.number = edge'.number ↔ edge = edge' := by
  cases edge <;> cases edge' <;> decide

namespace Command

/-- Whether the command asks for entries or exits of methods. -/
def setsMethod : Command → Bool
  | setRequest kind _ _ => isMethodKind kind
  | _ => false

/-- Whether the command leaves the requests for methods and for exceptions alone. -/
def isQuiet : Command → Bool
  | setRequest kind _ _ => !isMethodKind kind && kind != EventKind.exception
  | clearRequest kind _ => !isMethodKind kind && kind != EventKind.exception
  | _ => true

/-- A quiet command that has no code of the debuggee run. -/
def isPlain (c : Command) : Bool := c.isQuiet && !c.isInvocation

variable {c : Command}

theorem isQuiet_of_servesBridge (h : c.servesBridge = true) : c.isQuiet = true := by
  cases c <;> first | rfl | cases h

theorem setsMethod_of_isQuiet (h : c.isQuiet = true) : c.setsMethod = false := by
  cases c <;> first | rfl | skip
  simp only [isQuiet, Bool.and_eq_true, Bool.not_eq_true'] at h
  exact h.1

theorem isInvocation_of_findsClass (h : c.findsClass = true) : c.isInvocation = true := by
  cases c <;> first | rfl | cases h

end Command

/-- The edge, the request, the thread and the place of an event of a method. -/
def Event.methodEdge? : Event → Option (MethodEdge × RequestId × ThreadId × Location)
  | methodEntry request thread l => some (.entry, request, thread, l)
  | methodExitWithValue request thread l _ => some (.exit, request, thread, l)
  | _ => none

/-! ## Quiet moments -/

/-- The requests for methods and for exceptions stay as they are. -/
structure Moment.LeavesRequests (m : Moment) : Prop where
  methods : ∀ l, (m.install l).filter (fun x => isMethodKind x.1) =
    l.filter fun x => isMethodKind x.1
  guards : ∀ l, (m.install l).filter (fun x => x.1 == EventKind.exception) =
    l.filter fun x => x.1 == EventKind.exception
  sets : m.methodSet? = none

/-- Nothing that the rules speak of changes. -/
structure Moment.Quiet (m : Moment) : Prop extends m.LeavesRequests where
  stage : m.stage? = none
  event : m.event? = none

theorem Moment.leavesRequests_publish (s : TraceState) (r : (Action.publish s).Reply) :
    (Moment.did (.publish s) r).LeavesRequests := ⟨fun _ => rfl, fun _ => rfl, rfl⟩

theorem Moment.leavesRequests_heard (e : Event) : (Moment.heard e).LeavesRequests :=
  ⟨fun _ => rfl, fun _ => rfl, rfl⟩

theorem Moment.quiet_sent {c : Command} (h : c.isQuiet = true) (r : c.Answer) :
    (Moment.sent c r).Quiet := by
  cases c with
  | setRequest kind policy modifiers =>
      simp only [Command.isQuiet, Bool.and_eq_true, Bool.not_eq_true', bne_iff_ne] at h
      refine ⟨⟨fun l => ?_, fun l => ?_, ?_⟩, rfl, rfl⟩
      · cases r with
        | error e => rfl
        | ok id => simp [sent, install, h.1]
      · cases r with
        | error e => rfl
        | ok id => simp [sent, install, h.2]
      · simp [sent, methodSet?, h.1]
  | clearRequest kind id =>
      simp only [Command.isQuiet, Bool.and_eq_true, Bool.not_eq_true', bne_iff_ne] at h
      refine ⟨⟨fun l => ?_, fun l => ?_, rfl⟩, rfl, rfl⟩
      · cases r with
        | error e => rfl
        | ok u =>
            show ((l.filter (· ≠ (kind, id))).filter _) = _
            rw [List.filter_filter]
            refine List.filter_congr fun x _ => ?_
            by_cases hx : x = (kind, id)
            · simp [hx, h.1]
            · simp [hx]
      · cases r with
        | error e => rfl
        | ok u =>
            show ((l.filter (· ≠ (kind, id))).filter _) = _
            rw [List.filter_filter]
            refine List.filter_congr fun x _ => ?_
            by_cases hx : x = (kind, id)
            · simp [hx, h.2]
            · simp [hx]
  | _ => exact ⟨⟨fun _ => rfl, fun _ => rfl, rfl⟩, rfl, rfl⟩

/-- A method request is set by a command, and the moment tells the reply. -/
theorem Moment.of_methodSet? {a : Action} {r : a.Reply}
    {set : Command × Except JdwpError RequestId} (h : (Moment.did a r).methodSet? = some set) :
    ∃ c, a = .command c ∧ c.setsMethod = true ∧ set.1 = c := by
  cases a with
  | command c =>
      cases c with
      | setRequest kind policy modifiers =>
          simp only [methodSet?] at h
          split at h
          · rename_i hkind
            obtain rfl := Option.some.inj h
            exact ⟨_, rfl, hkind, rfl⟩
          · cases h
      | _ => cases h
  | _ => cases h

theorem Moment.quiet_publish {s : TraceState} (h : ∀ k, s ≠ .stageActive k)
    (r : (Action.publish s).Reply) : (Moment.did (.publish s) r).Quiet := by
  refine ⟨leavesRequests_publish s r, ?_, rfl⟩
  cases s with
  | stageActive k => exact absurd rfl (h k)
  | _ => rfl

theorem Moment.quiet_deliver (report : Report) (r : (Action.deliver report).Reply) :
    (Moment.did (.deliver report) r).Quiet := ⟨⟨fun _ => rfl, fun _ => rfl, rfl⟩, rfl, rfl⟩

theorem Moment.quiet_clock (r : Action.clock.Reply) : (Moment.did .clock r).Quiet :=
  ⟨⟨fun _ => rfl, fun _ => rfl, rfl⟩, rfl, rfl⟩

namespace History

theorem installedMethods_leave (h : History) {m : Moment} (hm : m.LeavesRequests) :
    History.installedMethods (h ++ [m]) = h.installedMethods := by
  simp [History.installedMethods, hm.methods]

theorem installedGuards_leave (h : History) {m : Moment} (hm : m.LeavesRequests) :
    History.installedGuards (h ++ [m]) = h.installedGuards := by
  simp [History.installedGuards, hm.guards]

theorem methodSets_leave (h : History) {m : Moment} (hm : m.LeavesRequests) :
    History.methodSets (h ++ [m]) = h.methodSets := by
  simp [hm.sets]

variable {h h' h'' : History}

/-- Only quiet moments came after `h`. -/
inductive Then (h : History) : History → Prop where
  | refl : Then h h
  | snoc {h' : History} {m : Moment} (before : Then h h') (quiet : m.Quiet) : Then h (h' ++ [m])

namespace Then

theorem trans (h₁ : h.Then h') (h₂ : h'.Then h'') : h.Then h'' := by
  induction h₂ with
  | refl => exact h₁
  | snoc _ quiet ih => exact ih.snoc quiet

theorem one {m : Moment} (hm : m.Quiet) : h.Then (h ++ [m]) := refl.snoc hm

/-- What quiet moments keep. -/
theorem keeps {β : Type} (f : History → β)
    (hf : ∀ h m, Moment.Quiet m → f (h ++ [m]) = f h) (h₁ : h.Then h') : f h' = f h := by
  induction h₁ with
  | refl => rfl
  | snoc _ quiet ih => rw [hf _ _ quiet, ih]

theorem installedMethods (h₁ : h.Then h') : h'.installedMethods = h.installedMethods :=
  keeps History.installedMethods (fun h _ hm => installedMethods_leave h hm.toLeavesRequests) h₁

theorem installedGuards (h₁ : h.Then h') : h'.installedGuards = h.installedGuards :=
  keeps History.installedGuards (fun h _ hm => installedGuards_leave h hm.toLeavesRequests) h₁

theorem methodSets (h₁ : h.Then h') : h'.methodSets = h.methodSets :=
  keeps History.methodSets (fun h _ hm => methodSets_leave h hm.toLeavesRequests) h₁

theorem lastStage? (h₁ : h.Then h') : h'.lastStage? = h.lastStage? :=
  keeps History.lastStage? (fun h m hm => by simp [hm.stage]) h₁

theorem lastEvent? (h₁ : h.Then h') : h'.lastEvent? = h.lastEvent? :=
  keeps History.lastEvent? (fun h m hm => by simp [hm.event]) h₁

theorem clearsSucceed (h₁ : h.Then h') (hc : h'.ClearsSucceed) : h.ClearsSucceed := by
  induction h₁ with
  | refl => exact hc
  | snoc _ _ ih => exact ih (History.clearsSucceed_append_singleton _ _ |>.mp hc).1

theorem mem (h₁ : h.Then h') {m : Moment} (hm : m ∈ h) : m ∈ h' := by
  induction h₁ with
  | refl => exact hm
  | snoc _ _ ih => exact List.mem_append_left _ ih

theorem exists_append (h₁ : h.Then h') :
    ∃ during, h' = h ++ during ∧ ∀ m ∈ during, m.event? = none := by
  induction h₁ with
  | refl => exact ⟨[], by simp, by simp⟩
  | @snoc _ m _ quiet ih =>
      obtain ⟨during, rfl, hduring⟩ := ih
      refine ⟨during ++ [m], by simp, fun n hn => ?_⟩
      rcases List.mem_append.mp hn with hn | hn
      · exact hduring n hn
      · rw [List.mem_singleton.mp hn, quiet.event]

end Then

/-! ## Setting and clearing requests -/

/-- The request for events of a class's methods. -/
def methodRequest (thread : ThreadId) (edge : MethodEdge) (type : TypeId) : Command :=
  .setRequest edge.number suspendEventThread [.threadOnly thread, .classOnly type]

section

variable (h : History) (thread : ThreadId) (edge : MethodEdge) (type : TypeId) (id : RequestId)

theorem installedMethods_set :
    History.installedMethods (h ++ [.sent (methodRequest thread edge type) (.ok id)]) =
      h.installedMethods ++ [(edge.number, id)] := by
  unfold History.installedMethods
  rw [installed_append_singleton]
  show (h.installed ++ [((edge.number, id) : UInt8 × RequestId)]).filter _ = _
  simp

theorem installedGuards_set :
    History.installedGuards (h ++ [.sent (methodRequest thread edge type) (.ok id)]) =
      h.installedGuards := by
  unfold History.installedGuards
  rw [installed_append_singleton]
  show (h.installed ++ [((edge.number, id) : UInt8 × RequestId)]).filter _ = _
  cases edge <;> simp [MethodEdge.number, EventKind.methodEntry, EventKind.exception,
    EventKind.methodExitWithReturnValue]

theorem installedMethods_refused (e : JdwpError) :
    History.installedMethods (h ++ [.sent (methodRequest thread edge type) (.error e)]) =
      h.installedMethods := by
  unfold History.installedMethods
  rw [installed_append_singleton]
  rfl

theorem installedGuards_refused (e : JdwpError) :
    History.installedGuards (h ++ [.sent (methodRequest thread edge type) (.error e)]) =
      h.installedGuards := by
  unfold History.installedGuards
  rw [installed_append_singleton]
  rfl

theorem methodSets_set :
    History.methodSets (h ++ [.sent (methodRequest thread edge type) (.ok id)]) =
      h.methodSets ++ [(methodRequest thread edge type, .ok id)] := by
  have hset : (Moment.sent (methodRequest thread edge type) (.ok id)).methodSet? =
      some (methodRequest thread edge type, .ok id) := by
    cases edge <;> rfl
  rw [methodSets_append_singleton, hset]
  rfl

theorem lastStage?_set (r : (methodRequest thread edge type).Answer) :
    History.lastStage? (h ++ [.sent (methodRequest thread edge type) r]) = h.lastStage? := by
  rw [lastStage?_append_singleton]
  rfl

variable {kind policy : UInt8} {modifiers : List EventModifier}

theorem installedMethods_setOther (hk : isMethodKind kind = false)
    (r : (Command.setRequest kind policy modifiers).Answer) :
    History.installedMethods (h ++ [.sent (.setRequest kind policy modifiers) r]) =
      h.installedMethods := by
  unfold History.installedMethods
  rw [installed_append_singleton]
  cases r with
  | error e => rfl
  | ok id =>
      show (h.installed ++ [((kind, id) : UInt8 × RequestId)]).filter _ = _
      simp [hk]

theorem methodSets_setOther (hk : isMethodKind kind = false)
    (r : (Command.setRequest kind policy modifiers).Answer) :
    History.methodSets (h ++ [.sent (.setRequest kind policy modifiers) r]) = h.methodSets := by
  have hset : (Moment.sent (.setRequest kind policy modifiers) r).methodSet? = none := by
    simp [Moment.sent, Moment.methodSet?, hk]
  rw [methodSets_append_singleton, hset]
  exact List.append_nil _

theorem installedGuards_setRefused (e : JdwpError) :
    History.installedGuards (h ++ [.sent (.setRequest kind policy modifiers) (.error e)]) =
      h.installedGuards := by
  unfold History.installedGuards
  rw [installed_append_singleton]
  rfl

theorem installedGuards_setGuard :
    History.installedGuards
        (h ++ [.sent (.setRequest EventKind.exception policy modifiers) (.ok id)]) =
      h.installedGuards ++ [(EventKind.exception, id)] := by
  unfold History.installedGuards
  rw [installed_append_singleton]
  show (h.installed ++ [((EventKind.exception, id) : UInt8 × RequestId)]).filter _ = _
  simp

theorem installedMethods_clear :
    History.installedMethods (h ++ [.sent (.clearRequest edge.number id) (.ok ())]) =
      h.installedMethods.filter (· ≠ (edge.number, id)) := by
  unfold History.installedMethods
  rw [installed_append_singleton]
  show (h.installed.filter (· ≠ (edge.number, id))).filter _ = _
  rw [List.filter_filter, List.filter_filter]
  exact List.filter_congr fun x _ => Bool.and_comm _ _

theorem installedGuards_clear (hk : kind ≠ EventKind.exception)
    (r : (Command.clearRequest kind id).Answer) :
    History.installedGuards (h ++ [.sent (.clearRequest kind id) r]) = h.installedGuards := by
  unfold History.installedGuards
  rw [installed_append_singleton]
  cases r with
  | error e => rfl
  | ok u =>
      show (h.installed.filter (· ≠ (kind, id))).filter _ = _
      rw [List.filter_filter]
      refine List.filter_congr fun x _ => ?_
      by_cases hx : x = (kind, id) <;> simp [hx, hk]

theorem installedMethods_clear_guard (r : (Command.clearRequest EventKind.exception id).Answer) :
    History.installedMethods (h ++ [.sent (.clearRequest EventKind.exception id) r]) =
      h.installedMethods := by
  unfold History.installedMethods
  rw [installed_append_singleton]
  cases r with
  | error e => rfl
  | ok u =>
      show (h.installed.filter (· ≠ (EventKind.exception, id))).filter _ = _
      rw [List.filter_filter]
      refine List.filter_congr fun x _ => ?_
      by_cases hx : x = (EventKind.exception, id)
      · simp [hx, show isMethodKind EventKind.exception = false from rfl]
      · simp [hx]

theorem installedGuards_clear_guard :
    History.installedGuards (h ++ [.sent (.clearRequest EventKind.exception id) (.ok ())]) =
      h.installedGuards.filter (· ≠ (EventKind.exception, id)) := by
  unfold History.installedGuards
  rw [installed_append_singleton]
  show (h.installed.filter (· ≠ (EventKind.exception, id))).filter _ = _
  rw [List.filter_filter, List.filter_filter]
  exact List.filter_congr fun x _ => Bool.and_comm _ _

theorem methodSets_clear (r : (Command.clearRequest kind id).Answer) :
    History.methodSets (h ++ [.sent (.clearRequest kind id) r]) = h.methodSets := by
  rw [methodSets_append_singleton]
  exact List.append_nil _

theorem lastStage?_clear (r : (Command.clearRequest kind id).Answer) :
    History.lastStage? (h ++ [.sent (.clearRequest kind id) r]) = h.lastStage? := by
  rw [lastStage?_append_singleton]
  rfl

theorem not_clearsSucceed_refused (e : JdwpError) :
    ¬History.ClearsSucceed (h ++ [.sent (.clearRequest kind id) (.error e)]) := by
  rw [clearsSucceed_append_singleton]
  rintro ⟨-, hm⟩
  cases (show (Except.error e : Except JdwpError Unit) = .ok () from hm)

end

/-! ## The rules -/

/-- The debuggee named that type for the class of the method. -/
def Located (h : History) (sig : MethodSignature) (type : TypeId) : Prop :=
  ∃ classes : List ClassInfo,
    Moment.sent (.classesBySignature (typeNameToSignature sig.containingClass)) (.ok classes) ∈ h ∧
      classes.head?.map (·.typeId) = some type

/-- The debuggee listed these methods for the type. -/
def Listed (h : History) (type : TypeId) (methods : List MethodInfo) : Prop :=
  Moment.sent (.typeMethods type) (.ok methods) ∈ h

/-- By what the debuggee told about its methods, the place is in that method. -/
def Shows (h : History) (sig : MethodSignature) (l : Location) : Prop :=
  ∃ methods m, h.Listed l.typeId methods ∧ methods.find? (·.methodId == l.methodId) = some m ∧
    sig.Matches m.name m.signature = true

variable (thread : ThreadId) (sigs : List MethodSignature)

/-- The event is one of the only method request that is installed after `before`, the last that
was set, and `h` shows that it happened in the method of that request's stage. -/
def Accepted (before : History) (e : Event) (h : History) : Prop :=
  ∃ edge k id l sig, e.methodEdge? = some (edge, id, thread, l) ∧
    before.installedMethods = [(edge.number, id)] ∧ before.methodSets.length = edge.turn k + 1 ∧
    (∃ c, before.methodSets.getLast? = some (c, .ok id)) ∧ sigs[k]? = some sig ∧ h.Shows sig l

/-- An accepted event is being handled, and no method request was set since. -/
def Handles (h : History) : Prop :=
  ∃ before e during, h = before ++ .heard e :: during ∧ (∀ m ∈ during, m.event? = none) ∧
    h.methodSets = before.methodSets ∧ Accepted thread sigs before e h

/-- When a method request may be set, and which one: the first before any event, and each other
while an accepted event of the one before is handled. -/
def MaySet (h : History) (c : Command) : Prop :=
  h.installedMethods = [] ∧
    (∃ edge k sig type, h.methodSets.length = edge.turn k ∧ sigs[k]? = some sig ∧
      h.Located sig type ∧ c = methodRequest thread edge type) ∧
    (h.methodSets = [] ∧ h.lastEvent? = none ∨ Handles thread sigs h)

/-- What a trace keeps to. -/
structure Permits (h : History) (c : Command) : Prop where
  invocation : c.isInvocation = true → h.ClearsSucceed → h.installedMethods = []
  finding : c.findsClass = true → h.ClearsSucceed → h.installedGuards = []
  setting : c.setsMethod = true → MaySet thread sigs h c

theorem permits_of_not {c : Command} (hinvoke : c.isInvocation = false)
    (hset : c.setsMethod = false) : Permits thread sigs h c := by
  refine ⟨fun hi => ?_, fun hf => ?_, fun hs => ?_⟩
  · rw [hinvoke] at hi
    cases hi
  · rw [Command.isInvocation_of_findsClass hf] at hinvoke
    cases hinvoke
  · rw [hset] at hs
    cases hs

theorem permits_of_isPlain {c : Command} (hc : c.isPlain = true) : Permits thread sigs h c := by
  simp only [Command.isPlain, Bool.and_eq_true, Bool.not_eq_true'] at hc
  exact permits_of_not thread sigs hc.2 (Command.setsMethod_of_isQuiet hc.1)

/-- The target that replies as it likes and records, under the rules. -/
def target : Target History :=
  .recording fun h a => ∀ c, a = .command c → Permits thread sigs h c

variable {thread sigs}

theorem Located.mono {sig : MethodSignature} {type : TypeId} (hl : h.Located sig type)
    (hsub : ∀ m ∈ h, m ∈ h') : h'.Located sig type := by
  obtain ⟨classes, hmem, hhead⟩ := hl
  exact ⟨classes, hsub _ hmem, hhead⟩

theorem Shows.mono {sig : MethodSignature} {l : Location} (hs : h.Shows sig l)
    (hsub : ∀ m ∈ h, m ∈ h') : h'.Shows sig l := by
  obtain ⟨methods, m, hmem, hm⟩ := hs
  exact ⟨methods, m, hsub _ hmem, hm⟩

theorem Handles.did {a : Action} {r : a.Reply} (hh : Handles thread sigs h)
    (hm : (Moment.did a r).methodSet? = none) : Handles thread sigs (h ++ [.did a r]) := by
  obtain ⟨before, e, during, rfl, hduring, hsets, haccepted⟩ := hh
  obtain ⟨edge, k, id, l, sig, he, hi, hn, hl, hsig, hs⟩ := haccepted
  refine ⟨before, e, during ++ [.did a r], by simp, ?_, ?_, edge, k, id, l, sig, he, hi, hn, hl,
    hsig, hs.mono fun m hm => List.mem_append_left _ hm⟩
  · intro m hm
    rcases List.mem_append.mp hm with hm | hm
    · exact hduring m hm
    · rw [List.mem_singleton.mp hm]
      rfl
  · rw [History.methodSets_append_singleton, hm, hsets]
    simp

theorem Handles.then (hh : Handles thread sigs h) (h₁ : h.Then h') : Handles thread sigs h' := by
  induction h₁ with
  | refl => exact hh
  | @snoc _ m _ quiet ih =>
      cases m with
      | did a r => exact ih.did quiet.sets
      | heard e => cases quiet.event

/-- After an accepted event was delivered, and before anything is set, it is handled. -/
theorem Handles.of_heard {before : History} {e : Event}
    (hthen : History.Then (before ++ [.heard e]) h') (ha : Accepted thread sigs before e h') :
    Handles thread sigs h' := by
  have hsets := hthen.methodSets
  obtain ⟨during, rfl, hduring⟩ := hthen.exists_append
  rw [methodSets_leave before (Moment.leavesRequests_heard e)] at hsets
  exact ⟨before, e, during, by simp, hduring, hsets, ha⟩

/-! ## The order of the method requests -/

variable (thread sigs)

/-- The method requests that were set are those of the first stages, entry and exit in turn. -/
def SetInOrder (h : History) : Prop :=
  ∀ n set, h.methodSets[n]? = some set → ∃ edge k sig type, n = MethodEdge.turn edge k ∧
    sigs[k]? = some sig ∧ h.Located sig type ∧ set.1 = methodRequest thread edge type

variable {thread sigs}

theorem SetInOrder.did {a : Action} {r : a.Reply} (hh : SetInOrder thread sigs h)
    (ha : ∀ c, a = .command c → Permits thread sigs h c) :
    SetInOrder thread sigs (h ++ [.did a r]) := by
  have hsub : ∀ m ∈ h, m ∈ h ++ [.did a r] := fun m hm => List.mem_append_left _ hm
  intro n set hset
  rw [methodSets_append_singleton] at hset
  rcases Nat.lt_or_ge n h.methodSets.length with hn | hn
  · rw [List.getElem?_append_left hn] at hset
    obtain ⟨edge, k, sig, type, hturn, hsig, hloc, hc⟩ := hh n set hset
    exact ⟨edge, k, sig, type, hturn, hsig, hloc.mono hsub, hc⟩
  · rw [List.getElem?_append_right hn] at hset
    cases hm : (Moment.did a r).methodSet? with
    | none => simp [hm] at hset
    | some set' =>
        obtain ⟨c, rfl, hc, hset'⟩ := Moment.of_methodSet? hm
        obtain ⟨-, ⟨edge, k, sig, type, hturn, hsig, hloc, hreq⟩, -⟩ := (ha c rfl).setting hc
        simp only [hm, Option.toList_some, List.getElem?_singleton] at hset
        split at hset
        · obtain rfl := Option.some.inj hset
          exact ⟨edge, k, sig, type, by omega, hsig, hloc.mono hsub, hset'.trans hreq⟩
        · cases hset

/-- A method request is set only while none is installed, so there is never more than one. -/
theorem length_installedMethods_did {a : Action} {r : a.Reply} (hh : h.installedMethods.length ≤ 1)
    (ha : ∀ c, a = .command c → Permits thread sigs h c) :
    (History.installedMethods (h ++ [.did a r])).length ≤ 1 := by
  unfold History.installedMethods at hh ⊢
  rw [installed_append_singleton]
  cases a with
  | command c =>
      cases c with
      | setRequest kind policy modifiers =>
          cases r with
          | error e => exact hh
          | ok id =>
              show ((h.installed ++ [((kind, id) : UInt8 × RequestId)]).filter _).length ≤ 1
              rw [List.filter_append, List.length_append]
              cases hkind : isMethodKind kind with
              | false => simpa [hkind] using hh
              | true =>
                  have hnone := ((ha _ rfl).setting hkind).1
                  rw [History.installedMethods] at hnone
                  simp [hnone, hkind]
      | clearRequest kind id =>
          cases r with
          | error e => exact hh
          | ok u =>
              show ((h.installed.filter (· ≠ (kind, id))).filter _).length ≤ 1
              exact Nat.le_trans (List.filter_sublist.filter _).length_le hh
      | _ => exact hh
  | _ => exact hh

end History

end StreamTrace
