import StreamTrace.Proofs.Debugger.SetupDiscipline

/-!
# Traces under the rules

Every trace keeps to the rules, on any target, with any events and however it ends.
-/

namespace StreamTrace

open History (Then Permits target)
open Routine SessionState SessionRoutine

variable {thread : ThreadId} {sigs : List MethodSignature} {h : History}

namespace ActiveTrace

/-- The trace waits for an event, and its session rests. -/
def Listens (thread : ThreadId) (sigs : List MethodSignature) (t : ActiveTrace) (h : History) :
    Prop := t.plan.thread = thread ∧ t.state.BetweenEvents sigs h

/-- What is left when a program of a trace ends: a trace that listens, or no request at all. -/
def RequestsSettled (thread : ThreadId) (sigs : List MethodSignature) (k : Continuation)
    (h : History) :
    Prop :=
  match k with
  | .finished => h.Allows true
  | .listen t => t.Listens thread sigs h

theorem publish_meets (state : TraceState) (hs : ∀ k, state ≠ .stageActive k)
    {post : Unit → History → Prop} (hpost : ∀ h', Then h h' → post () h') :
    (Program.perform (.publish state)).Meets (target thread sigs) post h := by
  refine Program.meets_perform.mpr ⟨fun c hc => (nomatch hc), ?_⟩
  rintro r h' rfl
  exact hpost _ (.one (Moment.quiet_publish hs r))

theorem deliver_meets {report : Report} {post : Unit → History → Prop}
    (hpost : ∀ h', Then h h' → post () h') :
    (Program.perform (.deliver report)).Meets (target thread sigs) post h := by
  refine Program.meets_perform.mpr ⟨fun c hc => (nomatch hc), ?_⟩
  rintro r h' rfl
  exact hpost _ (.one (Moment.quiet_deliver report r))

theorem fail_meets (expression : String) (failure : TraceFailure) :
    (fail expression failure).Meets (target thread sigs) (fun _ h' => Then h h') h := by
  refine (Program.meets_bind _ _ _ _).mpr <|
    publish_meets .failed (fun _ => nofun) fun h₁ hthen => ?_
  exact (Program.meets_bind _ _ _ _).mpr <| deliver_meets fun h₂ hthen₂ => hthen.trans hthen₂

theorem dispose_program (s : SessionState) (ha : h.Allows true) :
    (do
      let _ ← (TracePlan.dispose : Routine Unit SessionState Unit) s
      return Continuation.finished : Program Continuation).Meets (target thread sigs)
        (RequestsSettled thread sigs) h :=
  (Program.meets_bind _ _ _ _).mpr <| Routine.Meets.program dispose_meets
    (fun _ _ _ hthen => ha.then hthen) fun _ _ _ hn => False.elim hn

theorem giveUp_meets (t : ActiveTrace) (failure : TraceFailure)
    (hk : t.state.KnowsRequests sigs h) :
    (t.giveUp failure).Meets (target thread sigs) (RequestsSettled thread sigs) h := by
  have hfinish : ∀ (s : SessionState) (h : History), h.Allows true → (do
      fail t.plan.chain.text failure
      let _ ← (TracePlan.dispose : Routine Unit SessionState Unit) s
      return Continuation.finished : Program Continuation).Meets (target thread sigs)
        (RequestsSettled thread sigs) h := fun s h ha =>
    (Program.meets_bind _ _ _ _).mpr <| Program.Meets.mono (fail_meets _ _) fun _ _ hthen =>
      dispose_program s (ha.then hthen)
  unfold giveUp
  exact (Program.meets_bind _ _ _ _).mpr <| Routine.Meets.program (takeBack_meets hk)
    (fun _ s' h' ha => hfinish s' h' ha) fun _ _ _ hn => False.elim hn

theorem succeed_meets (t : ActiveTrace) (finished : TracePlan.Finished) (ha : h.Allows true) :
    (t.succeed finished).Meets (target thread sigs) (RequestsSettled thread sigs) h := by
  unfold succeed
  refine (Program.meets_bind _ _ _ _).mpr <|
    publish_meets .completed (fun _ => nofun) fun h₁ hthen => ?_
  refine (Program.meets_bind _ _ _ _).mpr <| deliver_meets fun h₂ hthen₂ => ?_
  exact dispose_program _ (ha.then (hthen.trans hthen₂))

theorem onEvent_meets {t : ActiveTrace} {e : Event} (ht : t.Listens thread sigs h) :
    (t.onEvent e).Meets (target thread sigs) (RequestsSettled thread sigs) (h ++ [.heard e]) := by
  obtain ⟨hp, hr⟩ := ht
  unfold ActiveTrace.onEvent
  refine (Program.meets_bind _ _ _ _).mpr <| Routine.Meets.program (onEvent_ruleSafe hp hr) ?_ ?_
  · intro r s' h' hgoes
    cases r with
    | none => exact ⟨hp, hgoes⟩
    | some finished => exact succeed_meets _ finished hgoes
  · exact fun failure s' h' hk => giveUp_meets _ failure hk

theorem begin_meets {options : TraceOptions} {chain : StreamChain} :
    (TracePlan.begin options chain thread : Routine TraceError Unit TracePlan).Meets
      (target thread sigs)
      (fun p _ h' => Then h h' ∧ p.thread = thread ∧ p.options = options ∧ p.chain = chain)
      (fun _ _ h' => Then h h') () h := by
  unfold TracePlan.begin frameOnTop
  refine meets_bind.mpr <| meets_bind.mpr <| meets_plain rfl
    (fun (frames : List FrameInfo) h₁ hthen _ => ?_) fun _ _ hthen => hthen
  split
  · refine meets_pure.mpr <| meets_bind.mpr <| meets_plain rfl
      (fun (count : Int) h₂ hthen₂ _ => ?_) fun _ _ hthen₂ => hthen.trans hthen₂
    exact meets_pure.mpr ⟨hthen.trans hthen₂, rfl, rfl, rfl⟩
  · exact meets_throw.mpr hthen

theorem start_meets (options : TraceOptions) (request : TraceRequest) :
    (ActiveTrace.start options request).Meets
      (target request.thread (options.stageMethods request.chain))
      (RequestsSettled request.thread (options.stageMethods request.chain)) [] := by
  have hnil : History.Allows true [] := fun _ => ⟨rfl, fun _ => rfl⟩
  unfold ActiveTrace.start
  refine (Program.meets_bind _ _ _ _).mpr <| Routine.Meets.program begin_meets ?_ ?_
  · rintro p - h₁ ⟨hthen, hthread, hoptions, hchain⟩
    refine (Program.meets_bind _ _ _ _).mpr <| Routine.Meets.program
      (setup_ruleSafe hthread (by rw [hoptions, hchain]) hthen) ?_ ?_
    · exact fun _ s' h' hr => ⟨hthread, hr⟩
    · exact fun failure s' h' hk => giveUp_meets _ failure hk
  · intro e _ h' hthen
    refine (Program.meets_bind _ _ _ _).mpr <| Program.Meets.mono (fail_meets _ _)
      fun _ h'' hthen₂ => ?_
    exact hnil.then (hthen.trans hthen₂)

end ActiveTrace

/-! ## Runs -/

/-- At most one method request is installed, they were set in order, and every command that was
sent was permitted. -/
structure History.Disciplined (thread : ThreadId) (sigs : List MethodSignature) (h : History) :
    Prop where
  one : h.installedMethods.length ≤ 1
  order : h.SetInOrder thread sigs
  permitted : ∀ (before : History) c r after, h = before ++ .sent c r :: after →
    Permits thread sigs before c

theorem History.disciplined_nil : History.Disciplined thread sigs [] :=
  ⟨Nat.zero_le 1, fun n set hset => by simp at hset, fun before c r after hh => by simp at hh⟩

theorem History.Disciplined.did {a : Action} {r : a.Reply} (hd : h.Disciplined thread sigs)
    (ha : (target thread sigs).asks h a) : Disciplined thread sigs (h ++ [.did a r]) := by
  refine ⟨length_installedMethods_did hd.one ha, hd.order.did ha, fun before c r' after hh => ?_⟩
  rcases List.eq_nil_or_concat after with rfl | ⟨rest, last, rfl⟩
  · obtain ⟨rfl, hm⟩ := List.append_inj' hh rfl
    cases hm
    exact ha c rfl
  · rw [List.concat_eq_append, ← List.cons_append, ← List.append_assoc] at hh
    exact hd.permitted before c r' rest (List.append_inj' hh rfl).1

theorem History.Disciplined.heard (e : Event) (hd : h.Disciplined thread sigs) :
    Disciplined thread sigs (h ++ [.heard e]) := by
  have hm := Moment.leavesRequests_heard e
  refine ⟨?_, fun n set hset => ?_, fun before c r after hh => ?_⟩
  · rw [History.installedMethods_leave h hm]
    exact hd.one
  · rw [History.methodSets_leave h hm] at hset
    obtain ⟨edge, k, sig, type, hturn, hsig, hloc, hc⟩ := hd.order n set hset
    exact ⟨edge, k, sig, type, hturn, hsig, hloc.mono fun _ => List.mem_append_left _, hc⟩
  · rcases List.eq_nil_or_concat after with rfl | ⟨rest, last, rfl⟩
    · obtain ⟨-, hm⟩ := List.append_inj' hh rfl
      cases hm
    · rw [List.concat_eq_append, ← List.cons_append, ← List.append_assoc] at hh
      exact hd.permitted before c r rest (List.append_inj' hh rfl).1

/-- Along every run of a trace the requests are in order, and what is done next is permitted. -/
theorem TraceRun.disciplined {options : TraceOptions} {request : TraceRequest}
    {p : Program Continuation} (run : TraceRun options request h p) :
    h.Disciplined request.thread (options.stageMethods request.chain) ∧
      p.Meets (target request.thread (options.stageMethods request.chain))
        (ActiveTrace.RequestsSettled request.thread (options.stageMethods request.chain)) h :=
  TraceRun.induction (ActiveTrace.start_meets options request)
    (fun _ _ _ ht _ => ActiveTrace.onEvent_meets ht)
    (fun t _ failure ht _ => ActiveTrace.giveUp_meets t failure ht.2.consistent.knowsRequests)
    History.disciplined_nil
    (fun _ _ _ hd ha => hd.did ha) (fun _ _ e _ hd => hd.heard e) run

/-! ## A trace on an obliging debuggee -/

/-- A debuggee with one class, which goes by every name. -/
def obliging : (a : Action) → a.Reply
  | .command (.frames _ _ _) =>
    (.ok [{ frameId := 1, location := { typeTag := TypeTag.classType, typeId := 2, methodId := 3
                                        index := 0 } }] : Except JdwpError (List FrameInfo))
  | .command (.frameCount _) => (.ok 2 : Except JdwpError Int)
  | .command (.classesBySignature signature) =>
    (.ok [{ typeTag := TypeTag.classType, typeId := 2, signature, status := 7 }] :
      Except JdwpError (List ClassInfo))
  | .command (.typeMethods _) =>
    (.ok [{ methodId := 4, name := "count", signature := "()J", modifiers := 1 },
      { methodId := 5, name := "<init>", signature := "()V", modifiers := 1 }] :
      Except JdwpError (List MethodInfo))
  | .command (.newInstance _ _ _ _ _) =>
    (.ok { value := .object 6, exception := none } : Except JdwpError InvokeOutcome)
  | .command (.disableCollection _) => (.ok () : Except JdwpError Unit)
  | .command .resumeVm => (.ok () : Except JdwpError Unit)
  | .command (.resumeThread _) => (.ok () : Except JdwpError Unit)
  | .command (.setRequest kind _ _) => (.ok kind.toNat : Except JdwpError RequestId)
  | .command (.clearRequest _ _) => (.ok () : Except JdwpError Unit)
  | .command _ => .error .timeout
  | .publish _ => ()
  | .deliver _ => ()
  | .clock => (0 : Nat)

def countSignature : MethodSignature :=
  { containingClass := "Numbers", name := "count", argumentTypes := [], returnType := "long" }

def countOptions : TraceOptions :=
  { findPlaces := fun _ =>
      .ok { source := some countSignature, intermediate := [], terminal := countSignature } }

def countRequest : TraceRequest :=
  { thread := 1
    chain :=
      { text := "numbers().count()", qualifier := .call "numbers()" countSignature
        intermediate := []
        terminal :=
          { name := "count", arguments := [], declaringType := "Numbers", typeBefore := none
            typeAfter := none, resultType := "long" } } }

/-- The request that is set for a stage while the trace listens. -/
def Continuation.request? (k : Continuation) (edge : MethodEdge) (stage : Nat) :
    Option RequestId :=
  match k with
  | .finished => none
  | .listen t => (t.state.point? edge stage).bind (·.request)

/-- The trace of that chain up to the event of its first method. -/
def countStarted : History × Continuation :=
  (ActiveTrace.start countOptions countRequest).transcript obliging

def countEntry : Event :=
  .methodEntry 40 1 { typeTag := TypeTag.classType, typeId := 2, methodId := 4, index := 0 }

/-- The same up to the next event. -/
def countEntered : History × Continuation :=
  match countStarted with
  | (h, .finished) => (h, .finished)
  | (h, .listen t) =>
    let (during, k) := (t.onEvent countEntry).transcript obliging
    (h ++ .heard countEntry :: during, k)

theorem countStarted_run :
    TraceRun countOptions countRequest countStarted.1 (.done countStarted.2) :=
  TraceRun.start.transcript obliging

theorem countEntered_run :
    TraceRun countOptions countRequest countEntered.1 (.done countEntered.2) := by
  have hrun := countStarted_run
  unfold countEntered
  generalize countStarted = started at hrun
  obtain ⟨h, k⟩ := started
  cases k with
  | finished => exact hrun
  | listen t =>
      have hnext := (hrun.event countEntry).transcript obliging
      simpa using hnext

/-! ## The order of the method requests -/

/-- The method requests of a trace, on any target and with any events. At most one is installed;
they are set in the order of the stages, entry and exit in turn; each but the first is set only
while an accepted event of the one before is handled; and while the trace waits for an event, a
request that is enabled is the only one that is installed, and is one of the stage that was
published last. -/
theorem TraceRun.method_requests_in_order {options : TraceOptions} {request : TraceRequest}
    {p : Program Continuation} (run : TraceRun options request h p) :
    h.installedMethods.length ≤ 1 ∧
    h.SetInOrder request.thread (options.stageMethods request.chain) ∧
    (∀ (before : History) c r after, h = before ++ .sent c r :: after → c.setsMethod = true →
      before.MaySet request.thread (options.stageMethods request.chain) c) ∧
    ∀ t, p = .done (.listen t) → ∀ edge k b id, t.state.point? edge k = some b →
      b.request = some id →
        h.installedMethods = [(edge.number, id)] ∧ h.lastStage? = some k := by
  obtain ⟨hd, hmeets⟩ := run.disciplined
  refine ⟨hd.one, hd.order, fun before c r after hh hc => (hd.permitted _ c r _ hh).setting hc, ?_⟩
  rintro t rfl edge k b id hb hid
  obtain ⟨-, hr⟩ : t.Listens _ _ h := hmeets
  obtain ⟨hinst, hturn⟩ := (hr.consistent.request edge k b hb id).mp hid
  refine ⟨hinst, ?_⟩
  rw [hr.active (by rw [hinst]; simp), hturn]
  cases edge <;> simp only [MethodEdge.turn] <;> congr 1 <;> omega

/-- Once its entry was handled, the exit of the first stage is requested. -/
theorem TraceRun.exit_requested_of_entered :
    ∃ (h : History) (t : ActiveTrace), TraceRun countOptions countRequest h (.done (.listen t)) ∧
      h.methodSets.length = 2 ∧ (∃ b, t.state.point? .exit 0 = some b ∧ b.request = some 42) ∧
      h.installedMethods = [(MethodEdge.exit.number, 42)] ∧ h.lastStage? = some 0 := by
  have hrun := countEntered_run
  have hsets : countEntered.1.methodSets.length = 2 := by decide +kernel
  have hrequest : countEntered.2.request? .exit 0 = some 42 := by decide +kernel
  generalize countEntered = entered at hrun hsets hrequest
  obtain ⟨h, k⟩ := entered
  cases k with
  | finished => cases hrequest
  | listen t =>
      obtain ⟨b, hb, hid⟩ := Option.bind_eq_some_iff.mp hrequest
      exact ⟨h, t, hrun, hsets, ⟨b, hb, hid⟩,
        (TraceRun.method_requests_in_order hrun).2.2.2 t rfl .exit 0 b 42 hb hid⟩

end StreamTrace
