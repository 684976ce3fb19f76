import StreamTrace.Proofs.Debugger.TraceDiscipline

/-!
# Events handled to the end

What a trace has done between an event and the moment at which it waits for the next one. If the
event was one of a method request and happened in the method of the stage, that request was cleared
on the way, so the same breakpoint cannot answer twice. While no method request is installed no
event brings one back.
-/

namespace StreamTrace

open Routine SessionState

/-! ## Playing a program -/

/-- What a program does, with the replies it gets, and what it ends in. -/
inductive Program.HasTranscript {α : Type} : Program α → History → α → Prop where
  | done (a : α) : HasTranscript (.done a) [] a
  | act {x : Action} {next : x.Reply → Program α} {during : History} {a : α} (r : x.Reply)
      (rest : (next r).HasTranscript during a) : HasTranscript (.act x next) (.did x r :: during) a

namespace Program

variable {α : Type} {p : Program α} {during : History} {a : α}

theorem hasTranscript_transcript (reply : (x : Action) → x.Reply) (p : Program α) :
    p.HasTranscript (p.transcript reply).1 (p.transcript reply).2 := by
  induction p with
  | done a => exact .done a
  | act x next ih => exact .act (reply x) (ih (reply x))

/-- What a program is sure to meet holds however it is played. -/
theorem HasTranscript.meets {asks : History → Action → Prop} {post : α → History → Prop}
    {h : History}
    (hp : p.HasTranscript during a) (hm : p.Meets (.recording asks) post h) :
    post a (h ++ during) := by
  induction hp generalizing h with
  | done a => simpa using hm
  | act r _ ih => simpa using ih (hm.2 r _ rfl)

theorem HasTranscript.event? (hp : p.HasTranscript during a) : ∀ m ∈ during, m.event? = none := by
  induction hp with
  | done => exact fun _ hm => absurd hm List.not_mem_nil
  | act r _ ih =>
      intro m hm
      rcases List.mem_cons.mp hm with rfl | hm
      · rfl
      · exact ih m hm

end Program

theorem TraceRun.hasTranscript {options : TraceOptions} {request : TraceRequest}
    {h during : History}
    {p : Program Continuation} {k : Continuation} (run : TraceRun options request h p)
    (hp : p.HasTranscript during k) : TraceRun options request (h ++ during) (.done k) := by
  induction hp generalizing h with
  | done k => simpa using run
  | act r _ ih => simpa using ih (run.act r)

/-! ## Without conditions -/

/-- The target that replies as it likes and records. -/
def Target.free : Target History := .recording fun _ _ => True

theorem Program.meets_free {α : Type} {post : α → History → Prop} {h : History}
    (hpost : ∀ a h', h <+: h' → post a h') (p : Program α) : p.Meets .free post h := by
  induction p generalizing h with
  | done a => exact hpost a h List.prefix_rfl
  | act x next ih =>
      refine ⟨trivial, ?_⟩
      rintro r h' rfl
      exact ih r fun a h'' hpre => hpost a h'' ((List.prefix_append _ _).trans hpre)

/-- What is recorded on the way is how the program was played. -/
theorem Program.meets_hasTranscript {α : Type} (p : Program α) (h : History) :
    p.Meets .free (fun a h' => ∃ during, h' = h ++ during ∧ p.HasTranscript during a) h := by
  induction p generalizing h with
  | done a => exact ⟨[], by simp, .done a⟩
  | act x next ih =>
      refine ⟨trivial, ?_⟩
      rintro r h' rfl
      refine (ih r _).mono ?_
      rintro a h'' ⟨during, rfl, hp⟩
      exact ⟨.did x r :: during, by simp, .act r hp⟩

theorem Program.Meets.and {α τ : Type} {T : Target τ} {p : Program α} {post post' : α → τ → Prop}
    {g : τ} (h : p.Meets T post g) (h' : p.Meets T post' g) :
    p.Meets T (fun a g => post a g ∧ post' a g) g := by
  induction p generalizing g with
  | done a => exact ⟨h, h'⟩
  | act x next ih => exact ⟨h.1, fun r g' hr => ih r (h.2 r g' hr) (h'.2 r g' hr)⟩

namespace Routine

variable {ε σ α : Type} {ok : α → σ → History → Prop} {err : ε → σ → History → Prop} {s : σ}
  {h : History}

theorem meets_free (hok : ∀ a s' h', h <+: h' → ok a s' h')
    (herr : ∀ e s' h', h <+: h' → err e s' h') (t : Routine ε σ α) :
    t.Meets .free ok err s h := by
  unfold Routine.Meets
  refine Program.meets_free ?_ (t s)
  rintro ⟨r, s'⟩ h' hpre
  cases r with
  | ok a => exact hok a s' h' hpre
  | error e => exact herr e s' h' hpre

/-- What holds whenever the routine succeeds holds of a play in which it does. -/
theorem Meets.hasTranscript {t : Routine ε σ α} (hm : t.Meets .free ok (fun _ _ _ => True) s h) :
    t.Meets .free (fun a s' h' => ok a s' h' ∧ ∃ during, h' = h ++ during ∧
      (t s).HasTranscript during (.ok a, s')) (fun _ _ _ => True) s h := by
  unfold Routine.Meets at hm ⊢
  refine (hm.and (Program.meets_hasTranscript (t s) h)).mono ?_
  rintro ⟨r, s'⟩ h' hboth
  cases r with
  | ok a => exact hboth
  | error e => trivial

end Routine

/-- What a routine is sure to meet holds of a play in which it succeeds. -/
theorem Program.HasTranscript.meets_ok {ε σ α : Type} {t : Routine ε σ α}
    {asks : History → Action → Prop}
    {ok : α → σ → History → Prop} {err : ε → σ → History → Prop} {a : α} {s s' : σ}
    {h during : History} (hp : (t s).HasTranscript during (.ok a, s'))
    (hm : t.Meets (.recording asks) ok err s h) : ok a s' (h ++ during) := by
  unfold Routine.Meets at hm
  exact hp.meets hm

/-- A trace that is given up waits for nothing. -/
theorem ActiveTrace.giveUp_finishes (t : ActiveTrace) (failure : TraceFailure) (h : History) :
    (t.giveUp failure).Meets .free (fun k _ => k = .finished) h := by
  have hall : ∀ {α : Type} (p : Program α) (h : History), p.Meets .free (fun _ _ => True) h :=
    fun p h => Program.meets_free (fun _ _ _ => trivial) p
  unfold giveUp
  refine (Program.meets_bind _ _ _ _).mpr <| (hall _ _).mono fun _ _ _ => ?_
  refine (Program.meets_bind _ _ _ _).mpr <| (hall _ _).mono fun _ _ _ => ?_
  exact (Program.meets_bind _ _ _ _).mpr <| (hall _ _).mono fun _ _ _ => rfl

/-! ## Accepted events -/

/-- What the methods of the type, known before or told on the way, say about whether the place is
in the method of the breakpoint. -/
def Breakpoint.Judges (b : Breakpoint) (l : Location) (known : MethodLists) (during : History)
    (isAt : Bool) : Prop :=
  ∃ methods, (known.get? l.typeId = some methods ∨
      Moment.sent (.typeMethods l.typeId) (.ok methods) ∈ during) ∧
    ((methods.find? (·.methodId == l.methodId)).any fun m =>
      b.signature.Matches m.name m.signature) = isAt

theorem Breakpoint.Judges.later {b : Breakpoint} {l : Location} {known : MethodLists}
    {h h' : History} {isAt : Bool} (hj : b.Judges l known h isAt) (hpre : h <+: h') :
    b.Judges l known h' isAt := by
  obtain ⟨methods, htold, hno⟩ := hj
  exact ⟨methods, htold.imp_right fun hm => hpre.subset hm, hno⟩

theorem methodsOf_knows {type : TypeId} {known : MethodLists} {h : History} :
    (Breakpoint.methodsOf type).Meets .free
      (fun methods _ h' => known.get? type = some methods ∨
        Moment.sent (.typeMethods type) (.ok methods) ∈ h') (fun _ _ _ => True) known h := by
  unfold Breakpoint.methodsOf
  refine meets_bind.mpr <| meets_get.mpr ?_
  split
  · exact meets_pure.mpr (.inl ‹_›)
  · refine meets_bind.mpr <| meets_command.mpr ⟨trivial, ?_, fun _ _ _ => trivial⟩
    rintro (methods : List MethodInfo) h' rfl
    refine meets_bind.mpr <| meets_modify.mpr <| meets_pure.mpr (.inr ?_)
    exact List.mem_append_right _ (List.mem_singleton.mpr rfl)

theorem isAt_judges {b : Breakpoint} {l : Location} {known : MethodLists} {h : History} :
    (b.isAt l).Meets .free (fun isAt _ h' => b.Judges l known h' isAt) (fun _ _ _ => True)
      known h := by
  unfold Breakpoint.isAt
  refine meets_bind.mpr <| methodsOf_knows.mono (fun methods known' h' htold => ?_)
    fun _ _ _ _ => trivial
  split <;> exact meets_pure.mpr ⟨methods, htold, by simp [*]⟩

/-- What the session does at an event of the stage's own method. At an exit the handler of the
stage gets the returned value. -/
def TracePlan.passStage (p : TracePlan) (edge : MethodEdge) (k : Nat) (returned : Value) :
    SessionRoutine PUnit :=
  match edge with
  | .entry => p.enterStage k
  | .exit => p.leaveStage k returned

/-- The session takes the event for one of the stage. The request is that of the stage's
breakpoint, the check of the place says yes, and the session goes on with the stage. -/
structure TracePlan.Accepts (p : TracePlan) (s : SessionState) (edge : MethodEdge)
    (id : RequestId) (l : Location) (returned : Value) (k : Nat) (during : History) : Prop where
  own : s.stageOf? edge id = some k
  passes : ∃ stage check known acted outcome, s.stages[k]? = some stage ∧
    ((stage.point edge).isAt l s.methods).HasTranscript check (.ok true, known) ∧
    (p.passStage edge k returned { s with methods := known }).HasTranscript acted outcome ∧
    check ++ acted <+: during

theorem TracePlan.Accepts.later {p : TracePlan} {s : SessionState} {edge : MethodEdge}
    {id : RequestId} {l : Location} {returned : Value} {k : Nat} {during during' : History}
    (ha : p.Accepts s edge id l returned k during) (hpre : during <+: during') :
    p.Accepts s edge id l returned k during' := by
  obtain ⟨hown, stage, check, known, acted, outcome, hstage, hcheck, hacted, hextends⟩ := ha
  exact ⟨hown, stage, check, known, acted, outcome, hstage, hcheck, hacted, hextends.trans hpre⟩

variable {p : TracePlan} {s : SessionState} {edge : MethodEdge} {k : Nat} {stage : Stage}
  {id : RequestId} {l : Location} {v : Value} {h : History}

/-- Whatever comes behind it, consuming a breakpoint clears its request or fails. -/
theorem consume_then_clears {α : Type} {rest : SessionRoutine α} {b : Breakpoint}
    (hb : s.point? edge k = some b) (hkind : b.kind = edge) (hid : b.request = some id) :
    (do TracePlan.onPoint edge k Breakpoint.consume; rest).Meets .free
      (fun _ _ h' => Moment.sent (.clearRequest edge.number id) (.ok ()) ∈ h')
      (fun _ _ _ => True) s h := by
  refine meets_bind.mpr <| onPoint_meets (fun c hc => ?_) fun _ _ => trivial
  obtain rfl : b = c := Option.some.inj (hb.symm.trans hc)
  subst hkind
  refine consume_meets (fun _ => trivial) (fun hnone => ?_) (fun id' hid' => ?_)
    fun _ _ _ => trivial
  · rw [hid] at hnone
    cases hnone
  · obtain rfl : id = id' := Option.some.inj (hid.symm.trans hid')
    exact meets_free (fun _ _ _ hpre => hpre.subset (by simp)) (fun _ _ _ _ => trivial) _

theorem enterStage_clears {b : Breakpoint} (hb : s.point? .entry k = some b)
    (hkind : b.kind = .entry) (hid : b.request = some id) :
    (p.enterStage k).Meets .free
      (fun _ _ h' => Moment.sent (.clearRequest MethodEdge.entry.number id) (.ok ()) ∈ h')
      (fun _ _ _ => True) s h := by
  have hframe : (frameOnTop p.thread : SessionRoutine FrameInfo).Meets .free
      (fun _ s' _ => s' = s) (fun _ _ _ => True) s h := by
    unfold frameOnTop
    refine meets_bind.mpr <| meets_command.mpr ⟨trivial, ?_, fun _ _ _ => trivial⟩
    intro frames h' _
    split
    · exact meets_pure.mpr rfl
    · exact meets_throw.mpr trivial
  unfold TracePlan.enterStage
  refine meets_bind.mpr <| hframe.mono ?_ fun _ _ _ _ => trivial
  rintro frame s' h' rfl
  exact consume_then_clears hb hkind hid

theorem leaveStage_clears {b : Breakpoint} (hb : s.point? .exit k = some b) (hkind : b.kind = .exit)
    (hid : b.request = some id) :
    (p.leaveStage k v).Meets .free
      (fun _ _ h' => Moment.sent (.clearRequest MethodEdge.exit.number id) (.ok ()) ∈ h')
      (fun _ _ _ => True) s h :=
  consume_then_clears hb hkind hid

/-- Passing the stage of a breakpoint clears its request or fails. -/
theorem passStage_clears {b : Breakpoint} (hb : s.point? edge k = some b) (hkind : b.kind = edge)
    (hid : b.request = some id) :
    (p.passStage edge k v).Meets .free
      (fun _ _ h' => Moment.sent (.clearRequest edge.number id) (.ok ()) ∈ h')
      (fun _ _ _ => True) s h := by
  cases edge with
  | entry => exact enterStage_clears hb hkind hid
  | exit => exact leaveStage_clears hb hkind hid

/-- After an event of a breakpoint's request: the session accepted it and cleared the request, or
the place is in another method. -/
def TracePlan.Settled (p : TracePlan) (s : SessionState) (edge : MethodEdge) (id : RequestId)
    (l : Location) (v : Value) (k : Nat) (stage : Stage) (during : History) : Prop :=
  (Moment.sent (.clearRequest edge.number id) (.ok ()) ∈ during ∧
    p.Accepts s edge id l v k during) ∨ (stage.point edge).Judges l s.methods during false

theorem TracePlan.Settled.later {during during' : History}
    (hs : p.Settled s edge id l v k stage during) (hpre : during <+: during') :
    p.Settled s edge id l v k stage during' :=
  hs.imp (fun ⟨hclear, ha⟩ => ⟨hpre.subset hclear, ha.later hpre⟩) fun hj => hj.later hpre

theorem atMethodEvent_settles (hk : s.stageOf? edge id = some k)
    (hstage : s.stages[k]? = some stage) (hkind : (stage.point edge).kind = edge) :
    (p.atMethodEvent edge id l v).Meets .free
      (fun _ _ h' => p.Settled s edge id l v k stage h') (fun _ _ _ => True) s [] := by
  obtain ⟨b, hb, hid⟩ := point?_of_stageOf? hk
  obtain rfl : stage.point edge = b := by simpa [point?, hstage] using hb
  have hpass : (do
      if ← TracePlan.inMethods ((stage.point edge).isAt l) then p.passStage edge k v
      p.resume : SessionRoutine Unit).Meets .free
        (fun _ _ h' => p.Settled s edge id l v k stage h') (fun _ _ _ => True) s [] := by
    refine meets_bind.mpr <| meets_within.mpr <| isAt_judges.hasTranscript.mono ?_ fun _ _ _ _ =>
      trivial
    rintro isAt known check ⟨hjudged, _, rfl, hcheck⟩
    cases isAt with
    | true =>
      have hb' : SessionState.point? { s with methods := known } edge k =
          some (stage.point edge) := hb
      refine meets_bind.mpr <| (passStage_clears hb' hkind hid).hasTranscript.mono ?_ fun _ _ _ _ =>
        trivial
      rintro _ s' _ ⟨hclear, acted, rfl, hacted⟩
      refine meets_free (fun _ _ h' hpre => .inl ⟨hpre.subset hclear, hk, ?_⟩)
        (fun _ _ _ _ => trivial) _
      exact ⟨stage, check, known, acted, _, hstage, hcheck, hacted, hpre⟩
    | false =>
      exact meets_free (fun _ _ h' hpre => .inr (hjudged.later hpre)) (fun _ _ _ _ => trivial) _
  unfold TracePlan.atMethodEvent
  refine meets_bind.mpr <| meets_get.mpr ?_
  rw [hk]
  refine meets_bind.mpr ?_
  unfold TracePlan.stageAt
  refine meets_bind.mpr <| meets_get.mpr ?_
  rw [hstage]
  refine meets_pure.mpr ?_
  cases edge with
  | entry => exact hpass
  | exit => exact hpass

/-- The event of a request for entries, or for exits, of methods. -/
def MethodEdge.event (edge : MethodEdge) (id : RequestId) (thread : ThreadId) (l : Location)
    (returned : Value) : Event :=
  match edge with
  | .entry => .methodEntry id thread l
  | .exit => .methodExitWithValue id thread l returned

@[simp] theorem MethodEdge.methodEdge?_event (edge : MethodEdge) (id : RequestId)
    (thread : ThreadId) (l : Location) (v : Value) :
    (edge.event id thread l v).methodEdge? = some (edge, id, thread, l) := by
  cases edge <;> rfl

theorem onEvent_method (edge : MethodEdge) :
    p.onEvent (edge.event id p.thread l v) = (do
      TracePlan.failRunning (p.atMethodEvent edge id l
        (match edge with | .entry => .void | .exit => v))
      return none) := by
  unfold TracePlan.onEvent
  cases edge <;> simp [MethodEdge.event, Event.thread?]

/-- A trace that waits again after an event of a breakpoint's request has accepted the event and
cleared the request, unless the place is in another method. -/
theorem ActiveTrace.onEvent_settles {t : ActiveTrace} (hk : t.state.stageOf? edge id = some k)
    (hstage : t.state.stages[k]? = some stage) (hkind : (stage.point edge).kind = edge) :
    (t.onEvent (edge.event id t.plan.thread l v)).Meets .free
      (fun c h' => c = .finished ∨ t.plan.Settled t.state edge id l v k stage h') [] := by
  have hsession : (t.plan.onEvent (edge.event id t.plan.thread l v)).Meets .free
      (fun _ _ h' => t.plan.Settled t.state edge id l v k stage h') (fun _ _ _ => True)
        t.state [] := by
    rw [onEvent_method]
    refine meets_bind.mpr <| meets_mapError.mpr <|
      (atMethodEvent_settles hk hstage hkind).mono ?_ fun _ _ _ _ => trivial
    intro _ _ h' hsettled
    refine meets_pure.mpr (hsettled.imp_left fun ⟨hclear, ha⟩ => ⟨hclear, ha.own, ?_⟩)
    cases edge <;> exact ha.passes
  unfold onEvent
  refine (Program.meets_bind _ _ _ _).mpr <| hsession.program ?_ ?_
  · rintro r s' h' hsettled
    cases r with
    | none => exact .inr hsettled
    | some finished => exact Program.meets_free (fun _ _ hpre => .inr (hsettled.later hpre)) _
  · intro failure s' h' _
    exact (giveUp_finishes _ failure h').mono fun _ _ => .inl

/-! ## Method requests of one event -/

namespace History

variable {during : History} {m : Moment}

theorem methodSets_append (h during : History) :
    History.methodSets (h ++ during) = h.methodSets ++ during.filterMap Moment.methodSet? := by
  simp [History.methodSets]

/-- Only setting one brings a method request. -/
theorem mem_installedMethods_of_snoc {x : UInt8 × RequestId} (hm : m.methodSet? = none)
    (hx : x ∈ History.installedMethods (h ++ [m])) : x ∈ h.installedMethods := by
  unfold History.installedMethods at hx ⊢
  rw [installed_append_singleton] at hx
  cases m with
  | heard e => exact hx
  | did a r =>
      cases a with
      | command c =>
          cases c with
          | setRequest kind policy modifiers =>
              cases r with
              | error e => exact hx
              | ok id =>
                  have hkind : isMethodKind kind = false := by
                    simpa [Moment.methodSet?] using hm
                  obtain ⟨hx, hmethod⟩ := List.mem_filter.mp hx
                  rcases List.mem_append.mp hx with hx | hx
                  · exact List.mem_filter.mpr ⟨hx, hmethod⟩
                  · rw [List.mem_singleton.mp hx, hkind] at hmethod
                    cases hmethod
          | clearRequest kind id =>
              cases r with
              | error e => exact hx
              | ok u =>
                  obtain ⟨hx, hmethod⟩ := List.mem_filter.mp hx
                  exact List.mem_filter.mpr ⟨(List.mem_filter.mp hx).1, hmethod⟩
          | _ => exact hx
      | _ => exact hx

theorem mem_installedMethods_of_append {x : UInt8 × RequestId}
    (hsets : ∀ m ∈ during, m.methodSet? = none)
    (hx : x ∈ History.installedMethods (h ++ during)) : x ∈ h.installedMethods := by
  induction during generalizing h with
  | nil => simpa using hx
  | cons m during ih =>
      rw [List.append_cons] at hx
      have hx' := ih (fun m hm => hsets m (List.mem_cons_of_mem _ hm)) hx
      exact mem_installedMethods_of_snoc (hsets m List.mem_cons_self) hx'

/-- A request that was cleared, and not set again, is not installed. -/
theorem not_mem_installedMethods_of_clears
    (hsets : ∀ m ∈ during, m.methodSet? = none)
    (hclear : Moment.sent (.clearRequest edge.number id) (.ok ()) ∈ during) :
    (edge.number, id) ∉ History.installedMethods (h ++ during) := by
  obtain ⟨before, after, rfl⟩ := List.append_of_mem hclear
  intro hx
  rw [List.append_cons, ← List.append_assoc] at hx
  have hx := mem_installedMethods_of_append
    (fun m hm => hsets m (List.mem_append_right _ (List.mem_cons_of_mem _ hm))) hx
  rw [← List.append_assoc, History.installedMethods_clear] at hx
  simpa using (List.mem_filter.mp hx).2

/-- The last event of a history is found in one way only. -/
theorem heard_inj {before during' : History} {e e' : Event}
    (hduring : ∀ m ∈ during, m.event? = none) (hduring' : ∀ m ∈ during', m.event? = none)
    (heq : before ++ .heard e' :: during' = h ++ .heard e :: during) : before = h ∧ e' = e := by
  rcases List.append_eq_append_iff.mp heq with ⟨_ | ⟨m, gap⟩, rfl, hrest⟩ |
      ⟨_ | ⟨m, gap⟩, rfl, hrest⟩
  · cases hrest
    exact ⟨by simp, rfl⟩
  · obtain ⟨rfl, rfl⟩ := List.cons.inj hrest
    exact absurd (hduring' (.heard e) (by simp)) (Option.some_ne_none e)
  · cases hrest
    exact ⟨by simp, rfl⟩
  · obtain ⟨rfl, rfl⟩ := List.cons.inj hrest
    exact absurd (hduring (.heard e') (by simp)) (Option.some_ne_none e')

variable {thread : ThreadId} {sigs : List MethodSignature} {e : Event}

/-- The first method request that is set after an event is set because the event was accepted. -/
theorem Disciplined.accepted_of_set {rest : History} {set : Command × Except JdwpError RequestId}
    (hd : Disciplined thread sigs (h ++ .heard e :: (during ++ m :: rest)))
    (hevents : ∀ m ∈ during, m.event? = none) (hset : m.methodSet? = some set) :
    Accepted thread sigs h e (h ++ .heard e :: during) ∧ ∀ m ∈ during, m.methodSet? = none := by
  cases m with
  | heard e => cases hset
  | did a r =>
      obtain ⟨c, rfl, hc, -⟩ := Moment.of_methodSet? hset
      have hmay := (hd.permitted (h ++ .heard e :: during) c r rest (by simp [Moment.sent])).setting
        hc
      obtain ⟨-, -, ⟨-, hnone⟩ | ⟨before, e', during', heq, hduring', hsets, haccepted⟩⟩ := hmay
      · have hlast : History.lastEvent? (h ++ .heard e :: during) ≠ none := by
          simp [History.lastEvent?, Moment.event?]
        exact absurd hnone hlast
      · obtain ⟨rfl, rfl⟩ := heard_inj hevents hduring' heq.symm
        refine ⟨haccepted, ?_⟩
        rw [methodSets_append] at hsets
        simpa [Moment.methodSet?] using hsets

/-- After an event at most one method request is set, and only if the event was accepted. -/
theorem Disciplined.sets_of_event (hd : Disciplined thread sigs (h ++ .heard e :: during))
    (hevents : ∀ m ∈ during, m.event? = none) :
    (∀ m ∈ during, m.methodSet? = none) ∨
      (∃ set, during.filterMap Moment.methodSet? = [set]) ∧
        Accepted thread sigs h e (h ++ .heard e :: during) := by
  cases hsets : during.filterMap Moment.methodSet? with
  | nil => exact .inl (List.filterMap_eq_nil_iff.mp hsets)
  | cons set sets =>
      obtain ⟨before, m, after, rfl, -, hset, hafter⟩ := List.filterMap_eq_cons_iff.mp hsets
      have hbefore : ∀ m ∈ before, m.event? = none := fun m hm =>
        hevents m (List.mem_append_left _ hm)
      obtain ⟨edge, k, id, l, sig, he, hi, hn, hl, hsig, hshows⟩ :=
        (hd.accepted_of_set hbefore hset).1
      refine .inr ⟨⟨set, ?_⟩, edge, k, id, l, sig, he, hi, hn, hl, hsig,
        hshows.mono fun x hx => ?_⟩
      · -- A second one would have been set although the first came after the event.
        cases sets with
        | nil => rfl
        | cons set' sets' =>
            obtain ⟨between, m', rest, rfl, -, hset', -⟩ := List.filterMap_eq_cons_iff.mp hafter
            have hd' : Disciplined thread sigs
                (h ++ .heard e :: (before ++ m :: between ++ m' :: rest)) := by simpa using hd
            have hnone := (hd'.accepted_of_set (fun m hm => hevents m (by grind)) hset').2 m
              (by simp)
            rw [hset] at hnone
            cases hnone
      · have hpre : h ++ .heard e :: before <+: h ++ .heard e :: (before ++ m :: after) := by simp
        exact hpre.subset hx

/-- Without an event there is no second method request. -/
theorem Disciplined.length_sets_of_start (hd : Disciplined thread sigs h)
    (hevents : ∀ m ∈ h, m.event? = none) : h.methodSets.length ≤ 1 := by
  cases hsets : h.methodSets with
  | nil => exact Nat.zero_le 1
  | cons set sets =>
      obtain ⟨before, m, after, rfl, -, hset, hafter⟩ := List.filterMap_eq_cons_iff.mp hsets
      cases sets with
      | nil => exact Nat.le_refl 1
      | cons set' sets' =>
          obtain ⟨between, m', rest, rfl, -, hset', -⟩ := List.filterMap_eq_cons_iff.mp hafter
          cases m' with
          | heard e => cases hset'
          | did a r =>
              obtain ⟨c, rfl, hc, -⟩ := Moment.of_methodSet? hset'
              obtain ⟨-, -, ⟨hnone, -⟩ | ⟨before', e, during', heq, -⟩⟩ :=
                (hd.permitted (before ++ m :: between) c r rest (by simp [Moment.sent])).setting hc
              · have hnil := List.filterMap_eq_nil_iff.mp hnone m (by simp)
                rw [hset] at hnil
                cases hnil
              · have hmem : Moment.heard e ∈ before ++ m :: between := by simp [heq]
                exact absurd (hevents (.heard e) (by grind)) (Option.some_ne_none e)

/-- While no method request is installed no event brings one back. -/
theorem Disciplined.free_of_event (hd : Disciplined thread sigs (h ++ .heard e :: during))
    (hevents : ∀ m ∈ during, m.event? = none) (hfree : h.installedMethods = []) :
    History.installedMethods (h ++ .heard e :: during) = [] := by
  rcases hd.sets_of_event hevents with hnone | ⟨-, edge, k, id, l, sig, -, hi, -⟩
  · have hsets : ∀ m ∈ Moment.heard e :: during, m.methodSet? = none :=
      List.forall_mem_cons.mpr ⟨rfl, hnone⟩
    refine List.eq_nil_iff_forall_not_mem.mpr fun x hx => ?_
    have hx := mem_installedMethods_of_append hsets hx
    rw [hfree] at hx
    cases hx
  · rw [hfree] at hi
    cases hi

/-- Once the only method request was cleared after an event, another one was set or none is
installed. -/
theorem Disciplined.passed_of_clears (hd : Disciplined thread sigs (h ++ .heard e :: during))
    (hevents : ∀ m ∈ during, m.event? = none) (hone : h.installedMethods = [(edge.number, id)])
    (hclear : Moment.sent (.clearRequest edge.number id) (.ok ()) ∈ during) :
    History.installedMethods (h ++ .heard e :: during) = [] ∨
      h.methodSets.length < (History.methodSets (h ++ .heard e :: during)).length := by
  rcases hd.sets_of_event hevents with hnone | ⟨⟨set, hset⟩, -⟩
  · have hsets : ∀ m ∈ Moment.heard e :: during, m.methodSet? = none :=
      List.forall_mem_cons.mpr ⟨rfl, hnone⟩
    refine .inl (List.eq_nil_iff_forall_not_mem.mpr fun x hx => ?_)
    have hx' := mem_installedMethods_of_append hsets hx
    rw [hone, List.mem_singleton] at hx'
    subst hx'
    exact not_mem_installedMethods_of_clears hsets (List.mem_cons_of_mem _ hclear) hx
  · rw [methodSets_append]
    exact .inr (by simp [List.filterMap_cons, Moment.methodSet?, hset])

end History

end StreamTrace
