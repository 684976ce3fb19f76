import StreamTrace.Proofs.Debugger.RequestDiscipline

/-!
# Sessions under the rules

That a session keeps to the rules of a trace. `SessionState.Consistent` ties its breakpoints to the
history: a breakpoint has a request exactly when that request is installed and was set last, at the
breakpoint's turn. What only invokes, reads and writes leaves this alone (`SamePoints`), and so has
merely to be begun while no method request is installed; enabling and consuming a breakpoint are
the only steps that change it.
-/

namespace StreamTrace

open History (Then Permits target)

def Stage.point (stage : Stage) : MethodEdge → Breakpoint
  | .entry => stage.entry
  | .exit => stage.exit

/-- The breakpoint is that of its stage and edge, on the class that the debuggee named. -/
structure Breakpoint.Placed (b : Breakpoint) (edge : MethodEdge) (k : Nat)
    (sigs : List MethodSignature) (h : History) : Prop where
  kind : b.kind = edge
  signature : sigs[k]? = some b.signature
  located : h.Located b.signature b.declaringType

theorem Breakpoint.Placed.mono {b : Breakpoint} {edge : MethodEdge} {k : Nat}
    {sigs : List MethodSignature} {h h' : History} (hb : b.Placed edge k sigs h)
    (hsub : ∀ m ∈ h, m ∈ h') : b.Placed edge k sigs h' :=
  ⟨hb.kind, hb.signature, hb.located.mono hsub⟩

/-- The lists of methods are those that the debuggee told. -/
def MethodLists.Told (ms : MethodLists) (h : History) : Prop :=
  ∀ type methods, ms.get? type = some methods → h.Listed type methods

namespace SessionState

variable {sigs : List MethodSignature} {s s' s'' : SessionState} {h h' h'' : History}

/-- The breakpoints of the session, by stage. -/
def points (s : SessionState) : List (Breakpoint × Breakpoint) :=
  s.stages.map fun stage => (stage.entry, stage.exit)

def point? (s : SessionState) (edge : MethodEdge) (k : Nat) : Option Breakpoint :=
  s.stages[k]?.map (·.point edge)

/-- The classes that the steps of the handlers use are known. -/
def Ready (s : SessionState) : Prop := ∀ stage ∈ s.stages, stage.handler.CanStep false s.bridge

/-- What the session knows agrees with the history. -/
structure Consistent (sigs : List MethodSignature) (s : SessionState) (h : History) : Prop where
  placed : ∀ edge k b, s.point? edge k = some b → b.Placed edge k sigs h
  request : ∀ edge k b, s.point? edge k = some b → ∀ id,
    b.request = some id ↔
      h.installedMethods = [(edge.number, id)] ∧ h.methodSets.length = edge.turn k + 1
  own : ∀ x ∈ h.installedMethods, ∃ edge k b, s.point? edge k = some b ∧ b.request = some x.2
  latest : ∀ x ∈ h.installedMethods, ∃ c, h.methodSets.getLast? = some (c, .ok x.2)
  told : s.methods.Told h
  guard : h.ClearsSucceed → h.installedGuards = s.guard.toList.map (EventKind.exception, ·)

/-- The session went on without touching its breakpoints and its guard. -/
structure SamePoints (s : SessionState) (h : History) (s' : SessionState) (h' : History) :
    Prop where
  history : h.Then h'
  points : s'.points = s.points
  guard : s'.guard = s.guard
  ready : s.Ready → s'.Ready
  told : s.methods.Told h → s'.methods.Told h'

theorem SamePoints.refl (s : SessionState) (h : History) : s.SamePoints h s h :=
  ⟨.refl, rfl, rfl, id, id⟩

theorem SamePoints.trans (h₁ : s.SamePoints h s' h') (h₂ : s'.SamePoints h' s'' h'') :
    s.SamePoints h s'' h'' :=
  ⟨h₁.history.trans h₂.history, h₂.points.trans h₁.points, h₂.guard.trans h₁.guard,
    h₂.ready ∘ h₁.ready, h₂.told ∘ h₁.told⟩

theorem point?_congr (hp : s'.points = s.points) (edge : MethodEdge) (k : Nat) :
    s'.point? edge k = s.point? edge k := by
  have hk : s'.points[k]? = s.points[k]? := by rw [hp]
  simp only [points, List.getElem?_map] at hk
  unfold point?
  cases h₁ : s.stages[k]? <;> cases h₂ : s'.stages[k]? <;> simp [h₁, h₂] at hk ⊢
  obtain ⟨hentry, hexit⟩ := hk
  cases edge <;> simp [Stage.point, hentry, hexit]

/-- What the agreement depends on. -/
theorem Consistent.congr (hs : s.Consistent sigs h) (hp : s'.points = s.points)
    (hsub : ∀ m ∈ h, m ∈ h') (hmethods : h'.installedMethods = h.installedMethods)
    (hsets : h'.methodSets = h.methodSets) (htold : s'.methods.Told h')
    (hguard : h'.ClearsSucceed →
      h'.installedGuards = s'.guard.toList.map (EventKind.exception, ·)) :
    s'.Consistent sigs h' where
  placed edge k b hb := by
    rw [point?_congr hp] at hb
    exact (hs.placed edge k b hb).mono hsub
  request edge k b hb id := by
    rw [point?_congr hp] at hb
    rw [hmethods, hsets]
    exact hs.request edge k b hb id
  own x hx := by
    rw [hmethods] at hx
    obtain ⟨edge, k, b, hb, hid⟩ := hs.own x hx
    exact ⟨edge, k, b, by rw [point?_congr hp, hb], hid⟩
  latest x hx := by
    rw [hmethods] at hx
    rw [hsets]
    exact hs.latest x hx
  told := htold
  guard := hguard

theorem Consistent.samePoints (hs : s.Consistent sigs h) (hf : s.SamePoints h s' h') :
    s'.Consistent sigs h' := by
  refine hs.congr hf.points (fun _ => hf.history.mem) hf.history.installedMethods
    hf.history.methodSets (hf.told hs.told) fun hc => ?_
  rw [hf.history.installedGuards, hf.guard]
  exact hs.guard (hf.history.clearsSucceed hc)

/-- A moment that leaves the requests alone, such as an event that was delivered. -/
theorem Consistent.leave (hs : s.Consistent sigs h) {m : Moment} (hm : m.LeavesRequests) :
    s.Consistent sigs (h ++ [m]) := by
  have hsub : ∀ n ∈ h, n ∈ h ++ [m] := fun _ => List.mem_append_left _
  refine hs.congr rfl hsub (History.installedMethods_leave h hm) (History.methodSets_leave h hm)
    (fun type methods hget => hsub _ (hs.told type methods hget)) fun hc => ?_
  rw [History.installedGuards_leave h hm]
  exact hs.guard (History.clearsSucceed_append_singleton _ _ |>.mp hc).1

/-- The session knows of all its requests, unless the debuggee refused to clear one. -/
def KnowsRequests (sigs : List MethodSignature) (s : SessionState) (h : History) : Prop :=
  h.ClearsSucceed → s.Consistent sigs h

theorem Consistent.knowsRequests (hs : s.Consistent sigs h) : s.KnowsRequests sigs h := fun _ => hs

theorem KnowsRequests.samePoints (hk : s.KnowsRequests sigs h) (hf : s.SamePoints h s' h') :
    s'.KnowsRequests sigs h' :=
  fun hc => (hk (hf.history.clearsSucceed hc)).samePoints hf

end SessionState

/-- Nothing that an invocation would raise is installed; nor is a request for exceptions, if
`find`. -/
def History.Allows (find : Bool) (h : History) : Prop :=
  h.ClearsSucceed → h.installedMethods = [] ∧ (find = true → h.installedGuards = [])

theorem History.Allows.then {find : Bool} {h h' : History} (ha : h.Allows find) (h₁ : h.Then h') :
    h'.Allows find := by
  intro hc
  rw [h₁.installedMethods, h₁.installedGuards]
  exact ha (h₁.clearsSucceed hc)

namespace SessionRoutine

open Routine

variable {thread : ThreadId} {sigs : List MethodSignature} {α β : Type}
  {s : SessionState} {h : History}

/-- Started in `s` after `h`, the routine keeps to the rules and leaves the breakpoints alone. -/
def PointSafe (thread : ThreadId) (sigs : List MethodSignature) (t : SessionRoutine α)
    (s : SessionState) (h : History)
    (post : α → SessionState → History → Prop := fun _ _ _ => True) : Prop :=
  t.Meets (target thread sigs) (fun a s' h' => s.SamePoints h s' h' ∧ post a s' h')
    (fun _ s' h' => s.SamePoints h s' h') s h

theorem PointSafe.mono {t : SessionRoutine α} {post post' : α → SessionState → History → Prop}
    (ht : t.PointSafe thread sigs s h post)
    (hpost : ∀ a s' h', s.SamePoints h s' h' → post a s' h' → post' a s' h') :
    t.PointSafe thread sigs s h post' :=
  Meets.mono ht (fun a s' h' hp => ⟨hp.1, hpost a s' h' hp.1 hp.2⟩) fun _ _ _ hp => hp

theorem pointSafe_pure {a : α} {post : α → SessionState → History → Prop} (hp : post a s h) :
    PointSafe thread sigs (pure a : SessionRoutine α) s h post := by
  unfold PointSafe
  rw [meets_pure]
  exact ⟨.refl s h, hp⟩

theorem pointSafe_throw {e : TraceError} {post : α → SessionState → History → Prop} :
    PointSafe thread sigs (throw e : SessionRoutine α) s h post := by
  unfold PointSafe
  rw [meets_throw]
  exact .refl s h

theorem PointSafe.bind {t : SessionRoutine α} {f : α → SessionRoutine β}
    {post : α → SessionState → History → Prop} {post' : β → SessionState → History → Prop}
    (ht : t.PointSafe thread sigs s h post)
    (hf : ∀ a s' h', s.SamePoints h s' h' → post a s' h' →
      (f a).PointSafe thread sigs s' h' post') :
    PointSafe thread sigs (t >>= f) s h post' := by
  unfold PointSafe
  rw [meets_bind]
  refine Meets.mono ht ?_ fun _ _ _ hp => hp
  rintro a s' h' ⟨hs, hp⟩
  exact Meets.mono (hf a s' h' hs hp) (fun _ _ _ hp' => ⟨hs.trans hp'.1, hp'.2⟩)
    fun _ _ _ hp' => hs.trans hp'

/-- Started in `s` after `h`, the routine keeps to the rules and ends in `ok`; if it fails, the
session still knows of its requests. -/
def RuleSafe {ε : Type} (thread : ThreadId) (sigs : List MethodSignature)
    (t : Routine ε SessionState α) (s : SessionState) (h : History)
    (ok : α → SessionState → History → Prop) : Prop :=
  t.Meets (target thread sigs) ok (fun _ s' h' => s'.KnowsRequests sigs h') s h

theorem PointSafe.ruleSafe {t : SessionRoutine α} {post ok : α → SessionState → History → Prop}
    (ht : t.PointSafe thread sigs s h post) (hk : s.KnowsRequests sigs h)
    (hok : ∀ a s' h', s.SamePoints h s' h' → post a s' h' → ok a s' h') :
    RuleSafe thread sigs t s h ok :=
  Meets.mono ht (fun a s' h' hp => hok a s' h' hp.1 hp.2) fun _ _ _ hf => hk.samePoints hf

theorem RuleSafe.mono {ε : Type} {t : Routine ε SessionState α}
    {ok ok' : α → SessionState → History → Prop} (ht : RuleSafe thread sigs t s h ok)
    (hok : ∀ a s' h', ok a s' h' → ok' a s' h') : RuleSafe thread sigs t s h ok' :=
  Meets.mono ht hok fun _ _ _ hk => hk

theorem RuleSafe.bind {ε : Type} {t : Routine ε SessionState α} {f : α → Routine ε SessionState β}
    {ok : α → SessionState → History → Prop} {ok' : β → SessionState → History → Prop}
    (ht : RuleSafe thread sigs t s h ok)
    (hf : ∀ a s' h', ok a s' h' → RuleSafe thread sigs (f a) s' h' ok') :
    RuleSafe thread sigs (t >>= f) s h ok' :=
  meets_bind.mpr <| Meets.mono ht hf fun _ _ _ hk => hk

theorem ruleSafe_pure {ε : Type} {a : α} {ok : α → SessionState → History → Prop} (ha : ok a s h) :
    RuleSafe thread sigs (pure a : Routine ε SessionState α) s h ok := meets_pure.mpr ha

theorem ruleSafe_throw {ε : Type} {e : ε} {ok : α → SessionState → History → Prop}
    (hk : s.KnowsRequests sigs h) :
    RuleSafe thread sigs (throw e : Routine ε SessionState α) s h ok :=
  meets_throw.mpr hk

theorem ruleSafe_get_bind {ε : Type} {f : SessionState → Routine ε SessionState β}
    {ok : β → SessionState → History → Prop} (hf : RuleSafe thread sigs (f s) s h ok) :
    RuleSafe thread sigs (get >>= f) s h ok :=
  meets_bind.mpr <| meets_get.mpr hf

theorem ruleSafe_modify_bind {ε : Type} {f : SessionState → SessionState}
    {t : PUnit → Routine ε SessionState β} {ok : β → SessionState → History → Prop}
    (hf : RuleSafe thread sigs (t ⟨⟩) (f s) h ok) :
    RuleSafe thread sigs (modify f >>= t) s h ok :=
  meets_bind.mpr <| meets_modify.mpr hf

/-- A routine that passes, in front of one that may not. -/
theorem PointSafe.andThen {t : SessionRoutine α} {f : α → SessionRoutine β}
    {post : α → SessionState → History → Prop} {ok : β → SessionState → History → Prop}
    (ht : t.PointSafe thread sigs s h post) (hk : s.KnowsRequests sigs h)
    (hf : ∀ a s' h', s.SamePoints h s' h' → post a s' h' →
      RuleSafe thread sigs (f a) s' h' ok) :
    RuleSafe thread sigs (t >>= f) s h ok :=
  (ht.ruleSafe hk hf).bind fun _ _ _ hf => hf

theorem pointSafe_get_bind {f : SessionState → SessionRoutine β}
    {post : β → SessionState → History → Prop} (hf : (f s).PointSafe thread sigs s h post) :
    PointSafe thread sigs (get >>= f) s h post := by
  unfold PointSafe
  rw [meets_bind, meets_get]
  exact hf

theorem pointSafe_modify {f : SessionState → SessionState} (hf : s.SamePoints h (f s) h) :
    PointSafe thread sigs (modify f : SessionRoutine PUnit) s h := by
  unfold PointSafe
  rw [meets_modify]
  exact ⟨hf, trivial⟩

theorem pointSafe_ite {P : Prop} [Decidable P] {t e : SessionRoutine α}
    {post : α → SessionState → History → Prop} (ht : P → t.PointSafe thread sigs s h post)
    (he : ¬P → e.PointSafe thread sigs s h post) :
    PointSafe thread sigs (if P then t else e) s h post := by
  split
  · exact ht ‹_›
  · exact he ‹_›

/-! ## Commands -/

theorem samePoints_of_then {h' : History} (h₁ : h.Then h') : s.SamePoints h s h' :=
  ⟨h₁, rfl, rfl, id, fun ht type methods hm => h₁.mem (ht type methods hm)⟩

/-- A plain command is always permitted and changes nothing. -/
theorem meets_plain {σ : Type} {c : Command} {wrap : JdwpError → TraceError} {st : σ}
    {ok : c.Reply → σ → History → Prop} {err : TraceError → σ → History → Prop}
    (hc : c.isPlain = true)
    (hok : ∀ r h', h.Then h' → Moment.sent c (.ok r) ∈ h' → ok r st h')
    (herr : ∀ e h', h.Then h' → err e st h') :
    (commandOr c wrap).Meets (target thread sigs) ok err st h := by
  have hquiet : c.isQuiet = true := by
    rw [Command.isPlain, Bool.and_eq_true] at hc
    exact hc.1
  rw [meets_commandOr]
  refine ⟨?_, ?_, ?_⟩
  · rintro c' hc'
    cases hc'
    exact History.permits_of_isPlain thread sigs hc
  · rintro r h' rfl
    exact hok r _ (.one (Moment.quiet_sent hquiet _))
      (List.mem_append_right _ (List.mem_singleton.mpr rfl))
  · rintro e h' rfl
    exact herr _ _ (.one (Moment.quiet_sent hquiet _))

theorem pointSafe_plain {c : Command} {wrap : JdwpError → TraceError} (hc : c.isPlain = true) :
    PointSafe thread sigs (commandOr c wrap) s h :=
  meets_plain hc (fun _ _ h₁ _ => ⟨samePoints_of_then h₁, trivial⟩) fun _ _ h₁ =>
    samePoints_of_then h₁

theorem pointSafe_command {c : Command} (hc : c.isPlain = true) :
    PointSafe thread sigs (command c) s h := pointSafe_plain hc

theorem pointSafe_perform {a : Action} (ha : ∀ c, a ≠ .command c)
    (hq : ∀ r, (Moment.did a r).Quiet) :
    PointSafe thread sigs (perform a) s h := by
  unfold PointSafe
  rw [meets_perform]
  refine ⟨fun c hc => absurd hc (ha c), ?_⟩
  rintro r h' rfl
  exact ⟨samePoints_of_then (.one (hq r)), trivial⟩

theorem pointSafe_deliver (report : Report) :
    PointSafe thread sigs (perform (.deliver report)) s h :=
  pointSafe_perform (fun _ => nofun) (Moment.quiet_deliver report)

/-- Everything but the active stage may be published at any time. -/
theorem pointSafe_publish {state : TraceState} (hs : ∀ k, state ≠ .stageActive k) :
    PointSafe thread sigs (TracePlan.publish state) s h :=
  pointSafe_perform (fun _ => nofun) (Moment.quiet_publish hs)

theorem pointSafe_clock : PointSafe thread sigs (perform .clock) s h :=
  pointSafe_perform (fun _ => nofun) Moment.quiet_clock

/-! ## The bridge -/

theorem samePoints_of_bridge {h' : History} {bridge : BridgeState} (h₁ : h.Then h')
    (hb : s.bridge.Remembers bridge) : s.SamePoints h { s with bridge } h' where
  history := h₁
  points := rfl
  guard := rfl
  ready hr stage hstage := (hr stage hstage).remembers hb
  told ht type methods hm := h₁.mem (ht type methods hm)

/-- What a routine of the bridge does for a session, if its commands are permitted. -/
theorem pointSafe_bridge {t : BridgeRoutine α} {P : Command → Prop} {post : α → BridgeState → Prop}
    (ht : t.Sends P s.bridge post) (hserves : ∀ c, P c → c.servesBridge = true)
    (hpermits : ∀ c h', h.Then h' → P c → Permits thread sigs h' c) :
    PointSafe thread sigs (TracePlan.inBridge t) s h
      (fun a s' _ => (post a s'.bridge ∧ s.bridge.Remembers s'.bridge) ∧
        s' = { s with bridge := s'.bridge }) := by
  have hquiet : ∀ {c : Command} {r : c.Answer} {h' h''}, h.Then h' → P c →
      (target thread sigs).answers h' (.command c) r h'' → h.Then h'' := by
    rintro c r h' _ h₁ hc rfl
    exact h₁.snoc (Moment.quiet_sent (Command.isQuiet_of_servesBridge (hserves c hc)) r)
  have hmay : ∀ {c : Command} {h'}, h.Then h' → P c →
      (target thread sigs).asks h' (.command c) := by
    rintro c h' h₁ hc c' hc'
    cases hc'
    exact hpermits c h' h₁ hc
  have hhosts : (target thread sigs).Hosts P (fun _ h' => h.Then h') fun _ h' => h.Then h' := by
    refine ⟨fun h₁ hc _ => hmay h₁ hc, fun h₁ hc _ => hquiet h₁ hc, ?_, fun h₁ hc _ => hmay h₁ hc,
      fun _ h₁ hc _ => hquiet h₁ hc, fun h₁ hc _ => hquiet h₁ hc, id, fun _ _ h₁ => h₁⟩
    rintro _ h' type methods h'' h₁ rfl
    exact h₁.snoc (Moment.quiet_sent rfl _)
  unfold PointSafe TracePlan.inBridge
  rw [meets_within]
  refine Meets.mono (ht.meets hhosts .refl) ?_ ?_
  · rintro a b h' ⟨⟨hb, hp⟩, h₁⟩
    exact ⟨samePoints_of_bridge h₁ hb, ⟨hp, hb⟩, rfl⟩
  · rintro e b h' ⟨hb, h₁⟩
    exact samePoints_of_bridge h₁ hb

theorem pointSafe_inBridge {t : BridgeRoutine α} {find : Bool} {post : α → BridgeState → Prop}
    (ht : t.Sends (BridgeRoutine.BridgeCommand find) s.bridge post) (ha : h.Allows find) :
    PointSafe thread sigs (TracePlan.inBridge t) s h
      (fun a s' _ => (post a s'.bridge ∧ s.bridge.Remembers s'.bridge) ∧
        s' = { s with bridge := s'.bridge }) := by
  refine pointSafe_bridge ht (fun c hc => hc.1) ?_
  rintro c h' h₁ ⟨hserves, hfind⟩
  have ha' := ha.then h₁
  have hsets := Command.setsMethod_of_isQuiet (Command.isQuiet_of_servesBridge hserves)
  refine ⟨fun _ hc => (ha' hc).1, fun hf hc => (ha' hc).2 ?_, fun hset => ?_⟩
  · rcases hfind with hfind | hfind
    · exact hfind
    · rw [hf] at hfind
      cases hfind
  · rw [hset] at hsets
    cases hsets

/-- Looking at values is permitted at any time. -/
theorem pointSafe_bridgeQuery {t : BridgeRoutine α} {post : α → BridgeState → Prop}
    (ht : t.Sends BridgeRoutine.BridgeQuery s.bridge post) :
    PointSafe thread sigs (TracePlan.inBridge t) s h
      (fun a s' _ => (post a s'.bridge ∧ s.bridge.Remembers s'.bridge) ∧
        s' = { s with bridge := s'.bridge }) :=
  pointSafe_bridge ht (fun _ hc => hc.1) fun _ _ _ hc => History.permits_of_not thread sigs hc.2
    (Command.setsMethod_of_isQuiet (Command.isQuiet_of_servesBridge hc.1))

/-! ## Stages -/

theorem pointSafe_stageAt (k : Nat) :
    PointSafe thread sigs (TracePlan.stageAt k) s h
      (fun stage s' h' => s' = s ∧ h' = h ∧ s.stages[k]? = some stage) := by
  unfold TracePlan.stageAt
  refine pointSafe_get_bind ?_
  split
  · exact pointSafe_pure ⟨rfl, rfl, ‹_›⟩
  · exact pointSafe_throw

/-- A handler is replaced by one that needs the same classes. -/
theorem samePoints_setStage {k : Nat} {stage : Stage} {handler : StageHandler}
    (hstage : s.stages[k]? = some stage) (hm : handler.matcher? = stage.handler.matcher?) :
    s.SamePoints h (s.setStage k { stage with handler }) h where
  history := .refl
  points := by
    unfold SessionState.points SessionState.setStage
    obtain ⟨hk, rfl⟩ := List.getElem?_eq_some_iff.mp hstage
    refine List.ext_getElem (by simp) fun i h₁ h₂ => ?_
    by_cases hi : k = i <;> simp [hi]
  guard := rfl
  ready hr stage' hstage' := by
    rcases List.mem_or_eq_of_mem_set hstage' with hmem | rfl
    · exact hr stage' hmem
    · obtain ⟨hrecord, hmatch⟩ := hr stage (List.mem_of_getElem? hstage)
      exact ⟨hrecord, fun c hc => hmatch c (hm ▸ hc)⟩
  told := id

/-- A handler goes on while its stage's requests, and all others for methods, are not installed. -/
theorem pointSafe_onHandler {p : TracePlan} {k : Nat}
    {step : StageHandler → Probe → BridgeRoutine (StageHandler × α)}
    (hstep : ∀ handler probe bridge, handler.CanStep false bridge →
      (step handler probe).Sends (BridgeRoutine.BridgeCommand false) bridge
        fun r _ => r.1.matcher? = handler.matcher?)
    (hr : s.Ready) (ha : h.Allows false) :
    PointSafe thread sigs (p.onHandler k step) s h := by
  unfold TracePlan.onHandler
  refine (pointSafe_stageAt k).bind ?_
  rintro stage _ _ - ⟨rfl, rfl, hstage⟩
  refine pointSafe_get_bind ?_
  refine (pointSafe_inBridge (hstep _ _ _ (hr stage (List.mem_of_getElem? hstage))) ha).bind ?_
  rintro ⟨handler, a⟩ s' h' - ⟨⟨hm, -⟩, hs'⟩
  have hstage' : s'.stages[k]? = some stage := by rw [hs', hstage]
  exact (pointSafe_modify (samePoints_setStage hstage' hm)).bind fun _ _ _ _ _ =>
    pointSafe_pure trivial

/-! ## Methods of the debuggee -/

theorem methodsOf_meets {type : TypeId} {ms : MethodLists} (hms : ms.Told h) :
    (Breakpoint.methodsOf type).Meets (target thread sigs)
      (fun methods ms' h' => (h.Then h' ∧ ms'.Told h') ∧ h'.Listed type methods)
      (fun _ ms' h' => h.Then h' ∧ ms'.Told h') ms h := by
  unfold Breakpoint.methodsOf
  rw [meets_bind, meets_get]
  split
  · rename_i methods hget
    rw [meets_pure]
    exact ⟨⟨.refl, hms⟩, hms type methods hget⟩
  · refine meets_bind.mpr <| meets_plain rfl (fun (methods : List MethodInfo) h' h₁ hlisted => ?_)
      fun e h' h₁ => ⟨h₁, fun t m hm => h₁.mem (hms t m hm)⟩
    rw [meets_bind, meets_modify, meets_pure]
    refine ⟨⟨h₁, fun t m hm => ?_⟩, hlisted⟩
    rw [Table.get?_set] at hm
    split at hm
    · rename_i htype
      cases htype
      cases hm
      exact hlisted
    · exact h₁.mem (hms t m hm)

theorem isAt_meets {b : Breakpoint} {l : Location} {ms : MethodLists} (hms : ms.Told h) :
    (b.isAt l).Meets (target thread sigs)
      (fun isAt ms' h' => (h.Then h' ∧ ms'.Told h') ∧ (isAt = true → h'.Shows b.signature l))
      (fun _ ms' h' => h.Then h' ∧ ms'.Told h') ms h := by
  unfold Breakpoint.isAt
  rw [meets_bind]
  refine Meets.mono (methodsOf_meets hms) ?_ fun _ _ _ h' => h'
  rintro methods ms' h' ⟨hthen, hlisted⟩
  split
  · rw [meets_pure]
    exact ⟨hthen, nofun⟩
  · rename_i m hfind
    rw [meets_pure]
    exact ⟨hthen, fun hm => ⟨methods, m, hlisted, hfind, hm⟩⟩

/-- A new breakpoint is on the class that the debuggee named for its method, and not enabled. -/
theorem create_meets {edge : MethodEdge} {sig : MethodSignature} {ms : MethodLists}
    (hms : ms.Told h) :
    (Breakpoint.create edge sig).Meets (target thread sigs)
      (fun b ms' h' => (h.Then h' ∧ ms'.Told h') ∧ b.kind = edge ∧ b.signature = sig ∧
        b.request = none ∧ h'.Located sig b.declaringType)
      (fun _ ms' h' => h.Then h' ∧ ms'.Told h') ms h := by
  unfold Breakpoint.create
  extract_lets missing
  have htold : ∀ h', h.Then h' → ms.Told h' := fun h' h₁ t m hm => h₁.mem (hms t m hm)
  refine meets_bind.mpr <| meets_plain rfl (fun (classes : List ClassInfo) h₁ hthen hasked => ?_)
    fun _ h' h₁ => ⟨h₁, htold h' h₁⟩
  split
  · exact meets_throw.mpr ⟨hthen, htold h₁ hthen⟩
  · rename_i c hc
    refine meets_bind.mpr <| Meets.mono (methodsOf_meets (htold h₁ hthen)) ?_
      fun _ _ _ h' => ⟨hthen.trans h'.1, h'.2⟩
    rintro methods ms' h₂ ⟨⟨hthen₂, htold₂⟩, -⟩
    split
    · exact meets_throw.mpr ⟨hthen.trans hthen₂, htold₂⟩
    · refine meets_pure.mpr ⟨⟨hthen.trans hthen₂, htold₂⟩, rfl, rfl, rfl, classes, ?_, ?_⟩
      · exact hthen₂.mem hasked
      · rw [hc]
        rfl

theorem pointSafe_inMethods {t : Routine TraceError MethodLists α}
    {post : α → History → Prop}
    (ht : t.Meets (target thread sigs)
      (fun a ms' h' => (h.Then h' ∧ ms'.Told h') ∧ post a h')
      (fun _ ms' h' => h.Then h' ∧ ms'.Told h') s.methods h) :
    PointSafe thread sigs (TracePlan.inMethods t) s h
      (fun a s' h' => post a h' ∧ s'.stages = s.stages) := by
  unfold PointSafe TracePlan.inMethods
  rw [meets_within]
  refine Meets.mono ht ?_ ?_
  · rintro a ms' h' ⟨⟨h₁, htold⟩, hp⟩
    exact ⟨⟨h₁, rfl, rfl, id, fun _ => htold⟩, hp, rfl⟩
  · rintro e ms' h' ⟨h₁, htold⟩
    exact ⟨h₁, rfl, rfl, id, fun _ => htold⟩

/-! ## Frames, arguments and variables -/

theorem pointSafe_frameOnTop (t : ThreadId) : PointSafe thread sigs (frameOnTop t) s h := by
  unfold frameOnTop
  refine (pointSafe_command rfl).bind fun frames _ _ _ _ => ?_
  split
  · exact pointSafe_pure trivial
  · exact pointSafe_throw

theorem pointSafe_readArguments (b : Breakpoint) (t : ThreadId) (frame : FrameId) :
    PointSafe thread sigs (b.readArguments t frame) s h := by
  unfold Breakpoint.readArguments
  exact pointSafe_ite (fun _ => pointSafe_pure trivial) fun _ => pointSafe_command rfl

theorem pointSafe_writeArguments (b : Breakpoint) (t : ThreadId) (frame : FrameId)
    (old new : List Value) : PointSafe thread sigs (b.writeArguments t frame old new) s h := by
  unfold Breakpoint.writeArguments
  exact pointSafe_ite (fun _ => pointSafe_pure trivial) fun _ => pointSafe_plain rfl

theorem pointSafe_overlook (p : TracePlan) {write : SessionRoutine Unit}
    (hw : write.PointSafe thread sigs s h) : PointSafe thread sigs (p.overlook write) s h := by
  unfold TracePlan.overlook PointSafe
  rw [meets_bind, meets_attempt]
  refine Meets.mono hw ?_ ?_
  · rintro - s' h' ⟨hf, -⟩
    rw [meets_pure]
    exact ⟨hf, trivial⟩
  · rintro e s' h' hf
    have hreport : PointSafe thread sigs (do
        if e.category = .substitution ∧ ¬p.options.settings.failOnSubstitutionError then
          perform (.deliver (.setupFailed e.message))
        else throw e : SessionRoutine Unit) s' h' :=
      pointSafe_ite (fun _ => pointSafe_deliver _) fun _ => pointSafe_throw
    exact Meets.mono hreport (fun _ _ _ hp => ⟨hf.trans hp.1, trivial⟩)
      fun _ _ _ hp => hf.trans hp

theorem pointSafe_substitution (f : Option Substitution) :
    PointSafe thread sigs (modify fun s => { s with substitution := f }) s h :=
  pointSafe_modify ⟨.refl, rfl, rfl, id, id⟩

theorem pointSafe_restoreSource (p : TracePlan) : PointSafe thread sigs p.restoreSource s h := by
  unfold TracePlan.restoreSource
  refine pointSafe_get_bind ?_
  split
  · exact pointSafe_pure trivial
  · refine pointSafe_ite (fun _ => pointSafe_pure trivial) fun _ => ?_
    refine (pointSafe_substitution _).bind fun _ _ _ _ _ => ?_
    refine (pointSafe_command rfl).bind fun (count : Int) _ _ _ _ => ?_
    refine pointSafe_ite (fun _ => pointSafe_pure trivial) fun _ => ?_
    refine (pointSafe_command rfl).bind fun frames _ _ _ _ => ?_
    split
    · exact pointSafe_throw
    · exact pointSafe_ite (fun _ => pointSafe_plain rfl) fun _ => pointSafe_pure trivial

theorem pointSafe_escapes (p : TracePlan) (caught : Option Location) :
    PointSafe thread sigs (p.escapes caught) s h := by
  unfold TracePlan.escapes
  split
  · exact pointSafe_pure trivial
  · refine (pointSafe_command rfl).bind fun (count : Int) _ _ _ _ => ?_
    dsimp only
    refine pointSafe_ite (fun _ => pointSafe_pure trivial) fun _ => ?_
    exact (pointSafe_command rfl).bind fun frames _ _ _ _ => pointSafe_pure trivial

end SessionRoutine

end StreamTrace
