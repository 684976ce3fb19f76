import StreamTrace.Proofs.Debugger.SessionDiscipline

/-!
# Breakpoints under the rules

What enabling, consuming and clearing breakpoints does to a consistent session. It is
`BetweenRequests` while none of its method requests is installed and the next may be set: at the
beginning, and while it handles an accepted event. It is `BetweenEvents` when it waits.
-/

namespace StreamTrace

open History (Then Permits target)

/-! ## Replacing a breakpoint -/

def Stage.setPoint (stage : Stage) (edge : MethodEdge) (b : Breakpoint) : Stage :=
  match edge with
  | .entry => { stage with entry := b }
  | .exit => { stage with exit := b }

namespace SessionState

variable {thread : ThreadId} {sigs : List MethodSignature} {s : SessionState} {h : History}
  {edge : MethodEdge} {k : Nat} {b b' : Breakpoint} {id : RequestId}

def setPoint (s : SessionState) (edge : MethodEdge) (k : Nat) (b : Breakpoint) : SessionState :=
  { s with stages := s.stages.modify k (·.setPoint edge b) }

theorem setStage_eq_setPoint {stage : Stage} (hstage : s.stages[k]? = some stage)
    (edge : MethodEdge) (b : Breakpoint) :
    s.setStage k (stage.setPoint edge b) = s.setPoint edge k b := by
  have hset : s.stages.set k (stage.setPoint edge b) = s.stages.modify k (·.setPoint edge b) := by
    refine List.ext_getElem? fun i => ?_
    rw [List.getElem?_modify, List.getElem?_set]
    by_cases hi : k = i
    · subst hi
      obtain ⟨hlt, rfl⟩ := List.getElem?_eq_some_iff.mp hstage
      simp [hlt]
    · simp [hi]
  unfold setStage setPoint
  rw [hset]

theorem point?_setPoint_self (hb : s.point? edge k = some b) (b' : Breakpoint) :
    (s.setPoint edge k b').point? edge k = some b' := by
  obtain ⟨stage, hstage, -⟩ := Option.map_eq_some_iff.mp hb
  unfold point? setPoint
  rw [List.getElem?_modify, hstage]
  cases edge <;> simp [Stage.setPoint, Stage.point]

theorem point?_setPoint_of_ne (s : SessionState) (b' : Breakpoint) {edge' : MethodEdge} {k' : Nat}
    (hne : ¬(edge' = edge ∧ k' = k)) :
    (s.setPoint edge k b').point? edge' k' = s.point? edge' k' := by
  unfold point? setPoint
  rw [List.getElem?_modify]
  cases hstage : s.stages[k']? with
  | none => rfl
  | some stage =>
      by_cases hk : k = k'
      · cases edge <;> cases edge' <;> simp [Stage.setPoint, Stage.point, hk] at hne ⊢
      · simp [hk]

theorem ready_setPoint (hr : s.Ready) (edge : MethodEdge) (k : Nat) (b : Breakpoint) :
    (s.setPoint edge k b).Ready := by
  intro stage hstage
  obtain ⟨i, hi⟩ := List.mem_iff_getElem?.mp hstage
  unfold setPoint at hi
  rw [List.getElem?_modify] at hi
  obtain ⟨stage', hstage', rfl⟩ := Option.map_eq_some_iff.mp hi
  have hr' := hr stage' (List.mem_of_getElem? hstage')
  split
  · cases edge <;> exact hr'
  · exact hr'

/-- The same method, whatever is set. -/
def SameMethod (b b' : Breakpoint) : Prop :=
  b'.kind = b.kind ∧ b'.signature = b.signature ∧ b'.declaringType = b.declaringType

/-- Breakpoints stay at their places when one is replaced by another on the same method. -/
theorem Consistent.placed_setPoint {h' : History} (hs : s.Consistent sigs h)
    (hb : s.point? edge k = some b) (hsame : SameMethod b b') (hsub : ∀ m ∈ h, m ∈ h') :
    ∀ edge' k' c, (s.setPoint edge k b').point? edge' k' = some c → c.Placed edge' k' sigs h' := by
  intro edge' k' c hc
  by_cases hne : edge' = edge ∧ k' = k
  · obtain ⟨rfl, rfl⟩ := hne
    rw [point?_setPoint_self hb] at hc
    cases hc
    have hp := (hs.placed _ _ b hb).mono hsub
    obtain ⟨hkind, hsig, htype⟩ := hsame
    exact ⟨hkind.trans hp.kind, hsig ▸ hp.signature, hsig ▸ htype ▸ hp.located⟩
  · rw [point?_setPoint_of_ne s b' hne] at hc
    exact (hs.placed edge' k' c hc).mono hsub

theorem Consistent.setPoint (hs : s.Consistent sigs h) (hb : s.point? edge k = some b)
    (hsame : SameMethod b b') (hreq : b'.request = b.request) :
    (s.setPoint edge k b').Consistent sigs h where
  placed := hs.placed_setPoint hb hsame fun _ hm => hm
  request edge' k' c hc id := by
    by_cases hne : edge' = edge ∧ k' = k
    · obtain ⟨rfl, rfl⟩ := hne
      rw [point?_setPoint_self hb] at hc
      cases hc
      rw [hreq]
      exact hs.request _ _ b hb id
    · rw [point?_setPoint_of_ne s b' hne] at hc
      exact hs.request edge' k' c hc id
  own x hx := by
    obtain ⟨edge', k', c, hc, hid⟩ := hs.own x hx
    by_cases hne : edge' = edge ∧ k' = k
    · obtain ⟨rfl, rfl⟩ := hne
      obtain rfl : b = c := Option.some.inj (hb.symm.trans hc)
      exact ⟨_, _, b', point?_setPoint_self hb b', hreq.trans hid⟩
    · exact ⟨edge', k', c, (point?_setPoint_of_ne s b' hne).trans hc, hid⟩
  latest := hs.latest
  told := hs.told
  guard := hs.guard

/-- The request of the breakpoint is the only method request, so nothing is left without it. -/
theorem Consistent.installedMethods_clear (hs : s.Consistent sigs h) (hb : s.point? edge k = some b)
    (hid : b.request = some id) :
    History.installedMethods (h ++ [.sent (.clearRequest edge.number id) (.ok ())]) = [] := by
  rw [History.installedMethods_clear, ((hs.request edge k b hb id).mp hid).1]
  simp

theorem Consistent.clear (hs : s.Consistent sigs h) (hb : s.point? edge k = some b)
    (hid : b.request = some id) (hsame : SameMethod b b') (hreq : b'.request = none) :
    (s.setPoint edge k b').Consistent sigs
      (h ++ [.sent (.clearRequest edge.number id) (.ok ())]) where
  placed := hs.placed_setPoint hb hsame fun _ hm => List.mem_append_left _ hm
  request edge' k' c hc id' := by
    rw [hs.installedMethods_clear hb hid]
    obtain ⟨hinst, hturn⟩ := (hs.request edge k b hb id).mp hid
    constructor
    · intro hc'
      by_cases hne : edge' = edge ∧ k' = k
      · obtain ⟨rfl, rfl⟩ := hne
        rw [point?_setPoint_self hb] at hc
        cases hc
        rw [hreq] at hc'
        cases hc'
      · rw [point?_setPoint_of_ne s b' hne] at hc
        obtain ⟨-, hturn'⟩ := (hs.request edge' k' c hc id').mp hc'
        exact absurd (MethodEdge.turn_inj (by omega)) hne
    · rintro ⟨hnil, -⟩
      cases hnil
  own x hx := by
    rw [hs.installedMethods_clear hb hid] at hx
    cases hx
  latest x hx := by
    rw [hs.installedMethods_clear hb hid] at hx
    cases hx
  told type methods hm := List.mem_append_left _ (hs.told type methods hm)
  guard hc := by
    rw [History.installedGuards_clear]
    · exact hs.guard (History.clearsSucceed_append_singleton _ _ |>.mp hc).1
    · cases edge <;> decide

theorem Consistent.set {type : TypeId} (hs : s.Consistent sigs h) (hb : s.point? edge k = some b)
    (hnone : h.installedMethods = []) (hturn : h.methodSets.length = edge.turn k)
    (hsame : SameMethod b b') (hreq : b'.request = some id) :
    (s.setPoint edge k b').Consistent sigs
      (h ++ [.sent (History.methodRequest thread edge type) (.ok id)]) where
  placed := hs.placed_setPoint hb hsame fun _ hm => List.mem_append_left _ hm
  request edge' k' c hc id' := by
    rw [History.installedMethods_set, History.methodSets_set, hnone, List.length_append, hturn]
    by_cases hne : edge' = edge ∧ k' = k
    · obtain ⟨rfl, rfl⟩ := hne
      rw [point?_setPoint_self hb] at hc
      cases hc
      simp [hreq]
    · rw [point?_setPoint_of_ne s b' hne] at hc
      constructor
      · intro hc'
        obtain ⟨hinst, -⟩ := (hs.request edge' k' c hc id').mp hc'
        rw [hnone] at hinst
        cases hinst
      · rintro ⟨-, hturn'⟩
        exact absurd (MethodEdge.turn_inj (by simpa using hturn'.symm)) hne
  own x hx := by
    rw [History.installedMethods_set, hnone, List.nil_append, List.mem_singleton] at hx
    subst hx
    exact ⟨edge, k, b', point?_setPoint_self hb b', hreq⟩
  latest x hx := by
    rw [History.installedMethods_set, hnone, List.nil_append, List.mem_singleton] at hx
    subst hx
    exact ⟨_, by rw [History.methodSets_set, List.getLast?_concat]⟩
  told type' methods hm := List.mem_append_left _ (hs.told type' methods hm)
  guard hc := by
    rw [History.installedGuards_set]
    exact hs.guard (History.clearsSucceed_append_singleton _ _ |>.mp hc).1

/-- A method request that was refused changes nothing. -/
theorem Consistent.refused (hs : s.Consistent sigs h) (hnone : h.installedMethods = [])
    (type : TypeId)
    (e : JdwpError) :
    s.Consistent sigs (h ++ [.sent (History.methodRequest thread edge type) (.error e)]) := by
  have hrequest : ∀ edge' k' c, s.point? edge' k' = some c → c.request = none := by
    intro edge' k' c hc
    cases hreq : c.request with
    | none => rfl
    | some id =>
        obtain ⟨hinst, -⟩ := (hs.request edge' k' c hc id).mp hreq
        rw [hnone] at hinst
        cases hinst
  have hinst : History.installedMethods
      (h ++ [.sent (History.methodRequest thread edge type) (.error e)]) = [] := by
    rw [History.installedMethods_refused, hnone]
  refine ⟨fun edge' k' c hc => (hs.placed edge' k' c hc).mono fun _ => List.mem_append_left _,
    fun edge' k' c hc id => ?_, ?_, ?_, ?_, fun hc => ?_⟩
  · rw [hrequest edge' k' c hc, hinst]
    simp
  · rw [hinst]
    nofun
  · rw [hinst]
    nofun
  · exact fun type methods hget => List.mem_append_left _ (hs.told type methods hget)
  · rw [History.installedGuards_refused]
    exact hs.guard (History.clearsSucceed_append_singleton _ _ |>.mp hc).1

/-! ## Pausing and resting -/

/-- No method request is installed, and the one of that turn may be set. -/
structure BetweenRequests (thread : ThreadId) (sigs : List MethodSignature) (turn : Nat)
    (s : SessionState)
    (h : History) : Prop where
  consistent : s.Consistent sigs h
  ready : s.Ready
  free : h.installedMethods = []
  count : h.methodSets.length = turn
  prompt : h.methodSets = [] ∧ h.lastEvent? = none ∨ History.Handles thread sigs h

/-- Between two events: an enabled request is one of the stage that was published last. -/
structure BetweenEvents (sigs : List MethodSignature) (s : SessionState) (h : History) : Prop where
  consistent : s.Consistent sigs h
  ready : s.Ready
  active : h.installedMethods ≠ [] → h.lastStage? = some ((h.methodSets.length - 1) / 2)

theorem BetweenRequests.samePoints {turn : Nat} {s' : SessionState} {h' : History}
    (hp : s.BetweenRequests thread sigs turn h) (hf : s.SamePoints h s' h') :
    s'.BetweenRequests thread sigs turn h' where
  consistent := hp.consistent.samePoints hf
  ready := hf.ready hp.ready
  free := by rw [hf.history.installedMethods, hp.free]
  count := by rw [hf.history.methodSets, hp.count]
  prompt := by
    rw [hf.history.methodSets, hf.history.lastEvent?]
    exact hp.prompt.imp_right (·.then hf.history)

/-- The handlers of a pausing session may go on, unless they have to find classes. -/
theorem BetweenRequests.allows {turn : Nat} (hp : s.BetweenRequests thread sigs turn h) :
    h.Allows false :=
  fun _ => ⟨hp.free, nofun⟩

theorem BetweenRequests.betweenEvents {turn : Nat} (hp : s.BetweenRequests thread sigs turn h) :
    s.BetweenEvents sigs h :=
  ⟨hp.consistent, hp.ready, fun hne => absurd hp.free hne⟩

theorem BetweenEvents.samePoints {s' : SessionState} {h' : History} (hr : s.BetweenEvents sigs h)
    (hf : s.SamePoints h s' h') : s'.BetweenEvents sigs h' where
  consistent := hr.consistent.samePoints hf
  ready := hf.ready hr.ready
  active hne := by
    rw [hf.history.installedMethods] at hne
    rw [hf.history.methodSets, hf.history.lastStage?]
    exact hr.active hne

end SessionState

/-! ## Enabling, disabling and consuming -/

open Routine SessionState SessionRoutine

variable {thread : ThreadId} {sigs : List MethodSignature} {α : Type} {s : SessionState}
  {h : History} {edge : MethodEdge} {k : Nat} {b : Breakpoint}

/-- Lets a breakpoint of stage `k` do something. -/
def TracePlan.onPoint (edge : MethodEdge) (k : Nat) (t : Routine TraceError Breakpoint α) :
    SessionRoutine α :=
  match edge with
  | .entry => TracePlan.onEntryPoint k t
  | .exit => TracePlan.onExitPoint k t

theorem onPoint_meets {τ : Type} {T : Target τ} {g : τ} {t : Routine TraceError Breakpoint α}
    {ok : α → SessionState → τ → Prop} {err : TraceError → SessionState → τ → Prop}
    (ht : ∀ b, s.point? edge k = some b → t.Meets T
      (fun a b' g' => ok a (s.setPoint edge k b') g')
      (fun e b' g' => err e (s.setPoint edge k b') g') b g)
    (hnone : s.point? edge k = none → ∀ e, err e s g) :
    (TracePlan.onPoint edge k t).Meets T ok err s g := by
  cases hstage : s.stages[k]? with
  | none =>
      have herr := hnone (by simp [point?, hstage])
      cases edge <;>
        simp only [TracePlan.onPoint, TracePlan.onEntryPoint, TracePlan.onExitPoint,
          TracePlan.stageAt, meets_bind, meets_get, hstage, meets_throw] <;>
        exact herr _
  | some stage =>
      have ht' := ht (stage.point edge) (by simp [point?, hstage])
      cases edge <;>
        simp only [TracePlan.onPoint, TracePlan.onEntryPoint, TracePlan.onExitPoint,
          TracePlan.stageAt, meets_bind, meets_get, hstage, meets_pure, meets_within] <;>
        simp only [← setStage_eq_setPoint hstage] at ht' <;>
        exact ht'

section

variable {asks : History → Action → Prop}

theorem disable_meets {ok : Unit → Breakpoint → History → Prop}
    {err : TraceError → Breakpoint → History → Prop}
    (hmay : ∀ id, asks h (.command (.clearRequest b.kind.number id)))
    (hnone : b.request = none → ok () b h)
    (hok : ∀ id, b.request = some id → ok () { b with request := none }
      (h ++ [.sent (.clearRequest b.kind.number id) (.ok ())]))
    (herr : ∀ id e, b.request = some id → err (.jdwp e) { b with request := none }
      (h ++ [.sent (.clearRequest b.kind.number id) (.error e)])) :
    Breakpoint.disable.Meets (.recording asks) ok err b h := by
  unfold Breakpoint.disable
  rw [meets_bind, meets_get]
  split
  · exact meets_pure.mpr (hnone ‹_›)
  · rename_i id hid
    refine meets_bind.mpr <| meets_set.mpr <| meets_command.mpr ⟨hmay id, ?_, ?_⟩
    · rintro u h' rfl
      exact hok id hid
    · rintro e h' rfl
      exact herr id e hid

theorem consume_meets {ok : Unit → Breakpoint → History → Prop}
    {err : TraceError → Breakpoint → History → Prop}
    (hmay : ∀ id, asks h (.command (.clearRequest b.kind.number id)))
    (hnone : b.request = none → ok () { b with consumed := true } h)
    (hok : ∀ id, b.request = some id → ok () { b with consumed := true, request := none }
      (h ++ [.sent (.clearRequest b.kind.number id) (.ok ())]))
    (herr : ∀ id e, b.request = some id →
      err (.jdwp e) { b with consumed := true, request := none }
        (h ++ [.sent (.clearRequest b.kind.number id) (.error e)])) :
    Breakpoint.consume.Meets (.recording asks) ok err b h := by
  unfold Breakpoint.consume
  rw [meets_bind, meets_modify]
  exact disable_meets hmay hnone hok herr

theorem enable_meets {ok : Unit → Breakpoint → History → Prop}
    {err : TraceError → Breakpoint → History → Prop} (hskip : ok () b h)
    (hmay : asks h (.command (History.methodRequest thread b.kind b.declaringType)))
    (hok : ∀ id, b.request = none → ok () { b with request := some id }
      (h ++ [.sent (History.methodRequest thread b.kind b.declaringType) (.ok id)]))
    (herr : ∀ e, err (.jdwp e) b
      (h ++ [.sent (History.methodRequest thread b.kind b.declaringType) (.error e)])) :
    (Breakpoint.enable thread).Meets (.recording asks) ok err b h := by
  unfold Breakpoint.enable
  rw [meets_bind, meets_get]
  split
  · exact meets_pure.mpr hskip
  · rename_i hfree
    have hnone : b.request = none := by
      simp only [Breakpoint.isEnabled, Bool.or_eq_true, not_or] at hfree
      simpa using hfree.1
    refine meets_bind.mpr <| meets_command.mpr ⟨hmay, ?_, ?_⟩
    · rintro id h' rfl
      exact meets_modify.mpr (hok id hnone)
    · rintro e h' rfl
      exact herr e

end

/-- A request may be cleared at any time. -/
theorem may_clear (kind : UInt8) (id : RequestId) :
    ∀ c, Action.command (.clearRequest kind id) = .command c →
      History.Permits thread sigs h c := by
  rintro c hc
  cases hc
  exact History.permits_of_not thread sigs rfl rfl

/-- Consuming the breakpoint whose request is installed leaves no method request. -/
theorem onPoint_consume_ruleSafe (edge : MethodEdge) (k : Nat) {id : RequestId}
    (hs : s.Consistent sigs h) (hr : s.Ready) (hb : s.point? edge k = some b)
    (hid : b.request = some id) (hh : History.Handles thread sigs h) :
    RuleSafe thread sigs (TracePlan.onPoint edge k Breakpoint.consume) s h
      fun _ s' h' => s'.BetweenRequests thread sigs (edge.turn k + 1) h' ∧
        h'.lastStage? = h.lastStage? := by
  refine onPoint_meets (fun c hc => ?_) fun _ _ => hs.knowsRequests
  obtain rfl : b = c := Option.some.inj (hb.symm.trans hc)
  obtain rfl := (hs.placed edge k b hb).kind
  refine consume_meets (fun _ => may_clear _ _) (fun hnone => ?_) (fun id' hid' => ?_)
    fun id' e _ hc => ?_
  · rw [hid] at hnone
    cases hnone
  · refine ⟨⟨hs.clear hb hid' ⟨rfl, rfl, rfl⟩ rfl, ready_setPoint hr _ k _,
      hs.installedMethods_clear hb hid', ?_, .inr (hh.did rfl)⟩, ?_⟩
    · rw [History.methodSets_clear]
      exact ((hs.request _ k b hb id').mp hid').2
    · rw [History.lastStage?_clear]
  · exact absurd hc (History.not_clearsSucceed_refused _ _ _)

/-- What a session is like once the next breakpoint may be enabled. -/
theorem onPoint_enable_ruleSafe (edge : MethodEdge) (k : Nat)
    (hp : s.BetweenRequests thread sigs (edge.turn k) h) :
    RuleSafe thread sigs (TracePlan.onPoint edge k (Breakpoint.enable thread)) s h
      fun _ s' h' => s'.Consistent sigs h' ∧ s'.Ready ∧ h'.lastStage? = h.lastStage? ∧
        (h'.installedMethods ≠ [] → h'.methodSets.length = edge.turn k + 1) := by
  refine onPoint_meets (fun b hb => ?_) fun _ _ => hp.consistent.knowsRequests
  obtain ⟨rfl, hsig, hloc⟩ := hp.consistent.placed edge k b hb
  have hmay := (⟨hp.free, ⟨_, k, _, _, hp.count, hsig, hloc, rfl⟩, hp.prompt⟩ :
    History.MaySet thread sigs h (History.methodRequest thread b.kind b.declaringType))
  refine enable_meets ?_ ?_ (fun id _ => ?_) fun e _ => ?_
  · exact ⟨hp.consistent.setPoint hb ⟨rfl, rfl, rfl⟩ rfl, ready_setPoint hp.ready _ k b, rfl,
      fun hne => absurd hp.free hne⟩
  · rintro c hc
    cases hc
    exact ⟨nofun, nofun, fun _ => hmay⟩
  · refine ⟨hp.consistent.set hb hp.free hp.count ⟨rfl, rfl, rfl⟩ rfl,
      ready_setPoint hp.ready _ k _,
      History.lastStage?_set _ _ _ _ _, fun _ => ?_⟩
    rw [History.methodSets_set, List.length_append, hp.count]
    rfl
  · exact (hp.consistent.setPoint hb ⟨rfl, rfl, rfl⟩ rfl).refused hp.free _ _

/-- Publishing a stage changes nothing but which stage was published last. -/
theorem meets_publishStage {ε : Type} {ok : Unit → SessionState → History → Prop}
    {err : ε → SessionState → History → Prop}
    (hok : ∀ h', h'.installedMethods = h.installedMethods → h'.methodSets = h.methodSets →
      h'.lastStage? = some k → (s.Consistent sigs h → s.Consistent sigs h') → ok () s h') :
    (TracePlan.publish (.stageActive k) : Routine ε SessionState Unit).Meets (target thread sigs)
      ok err s h := by
  refine meets_perform.mpr ⟨fun c hc => (nomatch hc), ?_⟩
  rintro r h' rfl
  have hm := Moment.leavesRequests_publish (.stageActive k) r
  exact hok _ (History.installedMethods_leave h hm) (History.methodSets_leave h hm)
    (History.lastStage?_append_singleton h _) fun hs => hs.leave hm

/-! ## Entries and exits -/

variable {p : TracePlan}

theorem enterStage_ruleSafe {id : RequestId} (hp : p.thread = thread) (hs : s.Consistent sigs h)
    (hr : s.Ready) (hb : s.point? .entry k = some b) (hid : b.request = some id)
    (hactive : h.lastStage? = some k) (hh : History.Handles thread sigs h) :
    RuleSafe thread sigs (p.enterStage k) s h fun _ s' h' => s'.BetweenEvents sigs h' := by
  subst hp
  unfold TracePlan.enterStage
  refine (pointSafe_frameOnTop _).andThen hs.knowsRequests fun frame s₁ h₁ hf₁ _ => ?_
  have hb₁ : s₁.point? .entry k = some b := by rw [point?_congr hf₁.points, hb]
  refine (onPoint_consume_ruleSafe .entry k (hs.samePoints hf₁) (hf₁.ready hr) hb₁ hid
    (hh.then hf₁.history)).bind fun _ s₂ h₂ hpauses => ?_
  obtain ⟨hp₂, hstage₂⟩ := hpauses
  refine (pointSafe_stageAt k).andThen hp₂.consistent.knowsRequests fun stage s₃ h₃ hf₃ _ => ?_
  have hp₃ := hp₂.samePoints hf₃
  refine (pointSafe_readArguments _ _ _).andThen hp₃.consistent.knowsRequests
    fun arguments s₄ h₄ hf₄ _ => ?_
  have hp₄ := hp₃.samePoints hf₄
  refine (pointSafe_onHandler (fun handler probe bridge hstep =>
    handler.spliceArguments_sends probe hstep arguments) hp₄.ready hp₄.allows).andThen
    hp₄.consistent.knowsRequests fun substituted s₅ h₅ hf₅ _ => ?_
  have hp₅ := hp₄.samePoints hf₅
  refine (pointSafe_overlook p (pointSafe_writeArguments _ _ _ _ _)).andThen
    hp₅.consistent.knowsRequests
    fun _ s₆ h₆ hf₆ _ => ?_
  refine (onPoint_enable_ruleSafe .exit k (hp₅.samePoints hf₆)).mono fun _ s₇ h₇ henabled => ?_
  obtain ⟨hs₇, hr₇, hstage₇, hcount⟩ := henabled
  have hf := hf₃.trans (hf₄.trans (hf₅.trans hf₆))
  refine ⟨hs₇, hr₇, fun hne => ?_⟩
  rw [hstage₇, hf.history.lastStage?, hstage₂, hf₁.history.lastStage?, hactive, hcount hne]
  simp only [MethodEdge.turn]
  congr 1
  omega

theorem leaveStage_ruleSafe {id : RequestId} {returned : Value} (hp : p.thread = thread)
    (hs : s.Consistent sigs h) (hr : s.Ready) (hb : s.point? .exit k = some b)
    (hid : b.request = some id) (hh : History.Handles thread sigs h) :
    RuleSafe thread sigs (p.leaveStage k returned) s h fun _ s' h' => s'.BetweenEvents sigs h' := by
  subst hp
  unfold TracePlan.leaveStage
  refine (onPoint_consume_ruleSafe .exit k hs hr hb hid hh).bind fun _ s₁ h₁ hpauses => ?_
  obtain ⟨hp₁, -⟩ := hpauses
  refine ruleSafe_get_bind ?_
  -- With a stage behind this one its entry is requested; behind the last one there is a step.
  split
  · refine (pointSafe_onHandler (fun handler probe bridge hstep =>
      handler.afterCall_sends probe hstep returned) hp₁.ready hp₁.allows).andThen
      hp₁.consistent.knowsRequests fun v s₂ h₂ hf₂ _ => ?_
    have hp₂ := hp₁.samePoints hf₂
    refine (pointSafe_onHandler (fun handler probe bridge hstep =>
      handler.beforeCall_sends probe hstep v) hp₂.ready hp₂.allows).andThen
      hp₂.consistent.knowsRequests fun v s₃ h₃ hf₃ _ => ?_
    have hp₃ := hp₂.samePoints hf₃
    refine (onPoint_enable_ruleSafe .entry (k + 1) hp₃).bind fun _ s₄ h₄ henabled => ?_
    obtain ⟨hs₄, hr₄, -, hcount⟩ := henabled
    refine meets_bind.mpr <| meets_publishStage fun h₅ hinst hsets hstage hs₅ => ?_
    have hr₅ : s₄.BetweenEvents sigs h₅ := by
      refine ⟨hs₅ hs₄, hr₄, fun hne => ?_⟩
      rw [hstage, hsets, hcount (hinst ▸ hne)]
      simp only [MethodEdge.turn]
      congr 1
      omega
    have hforce : SessionRoutine.PointSafe p.thread sigs
        (if v.same returned then pure () else p.overlook (EventRequest.forceReturn p.thread v))
        s₄ h₅ :=
      pointSafe_ite (fun _ => pointSafe_pure trivial) fun _ =>
        pointSafe_overlook p (pointSafe_plain rfl)
    exact hforce.ruleSafe hr₅.consistent.knowsRequests fun _ _ _ hf _ => hr₅.samePoints hf
  · have hlast : SessionRoutine.PointSafe p.thread sigs (do
        let _ ← p.onHandler k fun h probe => h.afterCall probe returned
        let step ← EventRequest.stepOut p.thread
        modify fun s => { s with step := some step }
        TracePlan.publish .completing) s₁ h₁ := by
      refine (pointSafe_onHandler (fun handler probe bridge hstep =>
        handler.afterCall_sends probe hstep returned) hp₁.ready hp₁.allows).bind
        fun v s₂ h₂ hf₂ _ => ?_
      refine (pointSafe_command rfl).bind fun step s₃ h₃ hf₃ _ => ?_
      refine (pointSafe_modify ⟨.refl, rfl, rfl, fun hr => hr, fun ht => ht⟩).bind
        fun _ _ _ _ _ => ?_
      exact pointSafe_publish fun _ => by simp
    exact hlast.ruleSafe hp₁.consistent.knowsRequests fun _ _ _ hf _ =>
      hp₁.betweenEvents.samePoints hf

theorem point?_of_stageOf? {request : RequestId} (hk : s.stageOf? edge request = some k) :
    ∃ b, s.point? edge k = some b ∧ b.request = some request := by
  unfold SessionState.stageOf? at hk
  obtain ⟨hlt, hreq, -⟩ := List.findIdx?_eq_some_iff_getElem.mp hk
  refine ⟨s.stages[k].point edge, by simp [point?, hlt], ?_⟩
  cases edge <;> exact beq_iff_eq.mp hreq

/-- A session rests as before when an event is delivered that it does nothing with. -/
theorem SessionState.BetweenEvents.heard (hr : s.BetweenEvents sigs h) (e : Event) :
    s.BetweenEvents sigs (h ++ [.heard e]) := by
  have hm := Moment.leavesRequests_heard e
  refine ⟨hr.consistent.leave hm, hr.ready, ?_⟩
  rw [History.installedMethods_leave h hm, History.methodSets_leave h hm,
    History.lastStage?_append_singleton]
  exact hr.active

/-- An event of a method request, delivered to a session that rests. -/
theorem atMethodEvent_ruleSafe {request : RequestId} {l : Location} {returned : Value} {e : Event}
    {before : History} (hp : p.thread = thread) (hr : s.BetweenEvents sigs before)
    (he : e.methodEdge? = some (edge, request, thread, l)) :
    RuleSafe thread sigs (p.atMethodEvent edge request l returned) s (before ++ [.heard e])
      fun _ s' h' => s'.BetweenEvents sigs h' := by
  have hm := Moment.leavesRequests_heard e
  have hinst := History.installedMethods_leave before hm
  have hsets := History.methodSets_leave before hm
  have hrests := hr.heard e
  have hs := hrests.consistent
  unfold TracePlan.atMethodEvent
  refine ruleSafe_get_bind ?_
  split
  · exact ruleSafe_pure hrests
  · rename_i k hk
    obtain ⟨b, hb, hid⟩ := point?_of_stageOf? hk
    obtain ⟨hreq, hcount⟩ := (hs.request edge k b hb request).mp hid
    have hactive : History.lastStage? (before ++ [.heard e]) = some k := by
      rw [hrests.active (by rw [hreq]; simp), hcount]
      cases edge <;> simp only [MethodEdge.turn] <;> congr 1 <;> omega
    -- The event's request is installed, and it is the latest for a method: the stage is in turn.
    have hhandles : ∀ h', Then (before ++ [.heard e]) h' → h'.Shows b.signature l →
        History.Handles thread sigs h' := by
      intro h' hthen hshows
      refine .of_heard hthen ⟨edge, k, request, l, b.signature, he, ?_, ?_, ?_, ?_, hshows⟩
      · rw [← hinst, hreq]
      · rw [← hsets, hcount]
      · exact hr.consistent.latest (edge.number, request) (by rw [← hinst, hreq]; simp)
      · exact (hs.placed edge k b hb).signature
    refine (pointSafe_stageAt k).andThen hs.knowsRequests ?_
    rintro stage _ _ - ⟨rfl, rfl, hstageAt⟩
    obtain rfl : stage.point edge = b := by
      simpa [point?, hstageAt] using hb
    have hresume : ∀ s' h', s'.BetweenEvents sigs h' →
        RuleSafe thread sigs p.resume s' h' fun _ s' h' => s'.BetweenEvents sigs h' :=
          fun s' h' hr' =>
      PointSafe.ruleSafe (pointSafe_command rfl) hr'.consistent.knowsRequests fun _ _ _ hf _ =>
        hr'.samePoints hf
    cases edge with
    | entry =>
        refine (pointSafe_inMethods (isAt_meets hs.told)).andThen hs.knowsRequests
          fun isAt s₁ h₁ hf₁ hat => ?_
        split
        · refine (enterStage_ruleSafe hp (hs.samePoints hf₁) (hf₁.ready hr.ready)
            (by rw [point?_congr hf₁.points, hb]) hid ?_
            (hhandles _ hf₁.history (hat.1 ‹_›))).bind fun _ => hresume
          rw [hf₁.history.lastStage?, hactive]
        · exact hresume _ _ (hrests.samePoints hf₁)
    | exit =>
        refine (pointSafe_inMethods (isAt_meets hs.told)).andThen hs.knowsRequests
          fun isAt s₁ h₁ hf₁ hat => ?_
        split
        · exact (leaveStage_ruleSafe hp (hs.samePoints hf₁) (hf₁.ready hr.ready)
            (by rw [point?_congr hf₁.points, hb]) hid
            (hhandles _ hf₁.history (hat.1 ‹_›))).bind fun _ => hresume
        · exact hresume _ _ (hrests.samePoints hf₁)

/-! ## The way back -/

namespace SessionState

/-- No breakpoint got a request. -/
def NoNewRequests (s s' : SessionState) : Prop :=
  ∀ edge k b', s'.point? edge k = some b' →
    ∃ b, s.point? edge k = some b ∧ (b.request = none → b'.request = none)

theorem NoNewRequests.refl (s : SessionState) : s.NoNewRequests s := fun _ _ b hb => ⟨b, hb, id⟩

theorem NoNewRequests.trans {s' s'' : SessionState} (h₁ : s.NoNewRequests s')
    (h₂ : s'.NoNewRequests s'') :
    s.NoNewRequests s'' := by
  intro edge k b'' hb''
  obtain ⟨b', hb', hnone'⟩ := h₂ edge k b'' hb''
  obtain ⟨b, hb, hnone⟩ := h₁ edge k b' hb'
  exact ⟨b, hb, hnone' ∘ hnone⟩

theorem noNewRequests_setPoint {b' : Breakpoint} (hb : s.point? edge k = some b)
    (hreq : b'.request = none) : s.NoNewRequests (s.setPoint edge k b') := by
  intro edge' k' c hc
  by_cases hne : edge' = edge ∧ k' = k
  · obtain ⟨rfl, rfl⟩ := hne
    rw [point?_setPoint_self hb] at hc
    cases hc
    exact ⟨b, hb, fun _ => hreq⟩
  · rw [point?_setPoint_of_ne s b' hne] at hc
    exact ⟨c, hc, id⟩

/-- Requests were cleared, as far as the debuggee did so. -/
structure RequestsCleared (sigs : List MethodSignature) (s : SessionState) (h : History)
    (s' : SessionState)
    (h' : History) : Prop where
  consistent : (h.ClearsSucceed → s.Consistent sigs h) → h'.ClearsSucceed → s'.Consistent sigs h'
  points : s.NoNewRequests s'

theorem RequestsCleared.refl (s : SessionState) (h : History) : s.RequestsCleared sigs h s h :=
    ⟨id, .refl s⟩

theorem RequestsCleared.trans {s' s'' : SessionState} {h' h'' : History}
    (h₁ : s.RequestsCleared sigs h s' h')
    (h₂ : s'.RequestsCleared sigs h' s'' h'') : s.RequestsCleared sigs h s'' h'' :=
  ⟨h₂.consistent ∘ h₁.consistent, h₁.points.trans h₂.points⟩

theorem requestsCleared_setPoint {h' : History} {b' : Breakpoint} (hb : s.point? edge k = some b)
    (hreq : b'.request = none)
    (hs : (h.ClearsSucceed → s.Consistent sigs h) → h'.ClearsSucceed →
      (s.setPoint edge k b').Consistent sigs h') :
    s.RequestsCleared sigs h (s.setPoint edge k b') h' := ⟨hs, noNewRequests_setPoint hb hreq⟩

end SessionState

/-- Disabling a breakpoint leaves it without a request, whatever the debuggee answers. -/
theorem onPoint_disable_meets {ε : Type} {err : ε → SessionState → History → Prop}
    (edge : MethodEdge) (k : Nat) :
    (attempt (TracePlan.onPoint edge k Breakpoint.disable)).Meets (target thread sigs)
      (fun _ s' h' => s.RequestsCleared sigs h s' h' ∧ ∀ b, s'.point? edge k = some b →
        b.request = none)
      err s h := by
  refine meets_attempt.mpr <| onPoint_meets (fun b hb => ?_) fun hnone _ =>
    ⟨.refl s h, fun b hb => by rw [hnone] at hb; cases hb⟩
  have hself : ∀ b' : Breakpoint, b'.request = none → ∀ c,
      (s.setPoint edge k b').point? edge k = some c → c.request = none := by
    intro b' hb' c hc
    rw [point?_setPoint_self hb] at hc
    cases hc
    exact hb'
  refine disable_meets (fun _ => may_clear _ _) (fun hnone => ?_) (fun id hid => ?_)
    fun id e hid => ?_
  · exact ⟨requestsCleared_setPoint hb hnone fun hs hc => (hs hc).setPoint hb ⟨rfl, rfl, rfl⟩ rfl,
      hself _ hnone⟩
  · refine ⟨requestsCleared_setPoint hb rfl fun hs hc => ?_, hself _ rfl⟩
    have hs' := hs (History.clearsSucceed_append_singleton _ _ |>.mp hc).1
    obtain rfl := (hs'.placed edge k b hb).kind
    exact hs'.clear hb hid ⟨rfl, rfl, rfl⟩ rfl
  · exact ⟨requestsCleared_setPoint hb rfl fun _ hc =>
      absurd hc (History.not_clearsSucceed_refused _ _ _),
      hself _ rfl⟩

theorem clearStages_meets {err : TraceError → SessionState → History → Prop} (ks : List Nat) :
    (TracePlan.clearStages ks).Meets (target thread sigs)
      (fun _ s' h' => s.RequestsCleared sigs h s' h' ∧
        ∀ k ∈ ks, ∀ edge b, s'.point? edge k = some b → b.request = none)
      err s h := by
  induction ks generalizing s h with
  | nil => exact meets_pure.mpr ⟨.refl s h, nofun⟩
  | cons k rest ih =>
      unfold TracePlan.clearStages
      refine meets_bind.mpr <| Meets.mono (onPoint_disable_meets .entry k) ?_ fun _ _ _ hn => hn
      rintro - s₁ h₁ ⟨hc₁, hentry⟩
      refine meets_bind.mpr <| Meets.mono (onPoint_disable_meets .exit k) ?_ fun _ _ _ hn => hn
      rintro - s₂ h₂ ⟨hc₂, hexit⟩
      refine Meets.mono ih ?_ fun _ _ _ hn => hn
      rintro - s₃ h₃ ⟨hc₃, hrest⟩
      refine ⟨hc₁.trans (hc₂.trans hc₃), fun k' hk' edge b hb => ?_⟩
      rcases List.mem_cons.mp hk' with rfl | hmem
      · cases edge with
        | entry =>
            obtain ⟨b', hb', hnone⟩ := (hc₂.trans hc₃).points _ _ b hb
            exact hnone (hentry b' hb')
        | exit =>
            obtain ⟨b', hb', hnone⟩ := hc₃.points _ _ b hb
            exact hnone (hexit b' hb')
      · exact hrest k' hmem edge b hb

/-- The request for exceptions was cleared, if the debuggee did so. -/
structure History.GuardCleared (guard : Option RequestId) (h h' : History) : Prop where
  mem : ∀ m ∈ h, m ∈ h'
  methods : h'.installedMethods = h.installedMethods
  sets : h'.methodSets = h.methodSets
  stage : h'.lastStage? = h.lastStage?
  clears : h'.ClearsSucceed → h.ClearsSucceed
  guards : h'.ClearsSucceed →
    h.installedGuards = guard.toList.map (EventKind.exception, ·) → h'.installedGuards = []

theorem clearGuard_meets {σ : Type} {st : σ} {guard : Option RequestId}
    {ok : Unit → σ → History → Prop} {err : TraceError → σ → History → Prop}
    (hok : ∀ h', h.GuardCleared guard h' → ok () st h') :
    (TracePlan.clearIfSet EventKind.exception guard).Meets (target thread sigs) ok err st h := by
  cases guard with
  | none => exact meets_pure.mpr (hok h ⟨fun _ hm => hm, rfl, rfl, rfl, id, fun _ hg => hg⟩)
  | some id =>
      refine meets_commandAnyway.mpr ⟨?_, ?_⟩
      · rintro c hc
        cases hc
        exact History.permits_of_not thread sigs rfl rfl
      · rintro r h' rfl
        refine hok _ ⟨fun _ => List.mem_append_left _, History.installedMethods_clear_guard h id r,
          History.methodSets_clear h id r, History.lastStage?_clear h id r,
          fun hc => (History.clearsSucceed_append_singleton _ _ |>.mp hc).1, fun hc hg => ?_⟩
        cases r with
        | error e => exact absurd hc (History.not_clearsSucceed_refused _ _ _)
        | ok u =>
            refine (History.installedGuards_clear_guard h id).trans ?_
            rw [hg]
            simp

theorem clearStep_meets {step : Option RequestId} {ok : Unit → SessionState → History → Prop}
    {err : TraceError → SessionState → History → Prop} (hok : ∀ h', h.Then h' → ok () s h') :
    (TracePlan.clearIfSet EventKind.singleStep step).Meets (target thread sigs) ok err s h := by
  cases step with
  | none => exact meets_pure.mpr (hok h .refl)
  | some id =>
      refine meets_commandAnyway.mpr ⟨?_, ?_⟩
      · rintro c hc
        cases hc
        exact History.permits_of_not thread sigs rfl rfl
      · rintro r h' rfl
        exact hok _ (.one (Moment.quiet_sent rfl r))

/-- Without its guard a session stands as before. -/
theorem SessionState.Consistent.unguard (s' : SessionState) {h' : History}
    (hs : s.Consistent sigs h)
    (hstages : s'.stages = s.stages) (hmethods : s'.methods = s.methods) (hguard : s'.guard = none)
    (hu : h.GuardCleared s.guard h') : s'.Consistent sigs h' := by
  have hpoints : s'.points = s.points := by
    unfold points
    rw [hstages]
  refine hs.congr hpoints hu.mem hu.methods hu.sets ?_ fun hc => ?_
  · rw [hmethods]
    exact fun type methods hm => hu.mem _ (hs.told type methods hm)
  · rw [hguard]
    exact hu.guards hc (hs.guard (hu.clears hc))

/-- Once everything is cleared, anything may be invoked. Clearing does not fail. -/
theorem clearOwnRequests_meets {err : TraceError → SessionState → History → Prop}
    (hk : s.KnowsRequests sigs h) :
    TracePlan.clearOwnRequests.Meets (target thread sigs)
      (fun _ s' h' => s'.KnowsRequests sigs h' ∧ h'.Allows true) err s h := by
  unfold TracePlan.clearOwnRequests
  refine meets_bind.mpr <| meets_get.mpr <| meets_bind.mpr <|
    Meets.mono (clearStages_meets _) ?_ fun _ _ _ hn => hn
  rintro - s₁ h₁ ⟨hc₁, hnone⟩
  refine meets_bind.mpr <| meets_get.mpr <| meets_bind.mpr <| meets_modify.mpr <|
    meets_bind.mpr <| clearGuard_meets fun h₂ hu => clearStep_meets fun h₃ hthen => ?_
  have hk₂ : KnowsRequests sigs { s₁ with guard := none, step := none } h₂ := fun hc =>
    (hc₁.consistent hk (hu.clears hc)).unguard _ rfl rfl rfl hu
  have hallows : h₂.Allows true := by
    intro hc
    have hs₂ := hk₂ hc
    refine ⟨List.eq_nil_iff_forall_not_mem.mpr fun x hx => ?_, fun _ => hs₂.guard hc⟩
    obtain ⟨edge, k, b, hb, hid⟩ := hs₂.own x hx
    obtain ⟨b₀, hb₀, -⟩ := hc₁.points edge k b hb
    obtain ⟨stage, hstage, -⟩ := Option.map_eq_some_iff.mp hb₀
    have hk := hnone k (List.mem_range.mpr (List.getElem?_eq_some_iff.mp hstage).1) edge b hb
    rw [hk] at hid
    cases hid
  exact ⟨hk₂.samePoints (samePoints_of_then hthen), hallows.then hthen⟩

theorem pointSafe_gatherResults (p : TracePlan) (ha : h.Allows true) :
    PointSafe thread sigs p.gatherResults s h := by
  have hcollect : ∀ (s₀ : SessionState) (stages : List Stage) s h, h.Allows true →
      PointSafe thread sigs (TracePlan.gatherResults.collectReports p s₀ stages) s h := by
    intro s₀ stages
    induction stages with
    | nil => exact fun _ _ _ => pointSafe_pure trivial
    | cons stage rest ih =>
        intro s h ha
        refine (pointSafe_inBridge (stage.handler.result_sends _) ha).bind fun _ s₁ h₁ hf₁ _ => ?_
        exact (ih s₁ h₁ (ha.then hf₁.history)).bind fun _ _ _ _ _ => pointSafe_pure trivial
  unfold TracePlan.gatherResults
  refine pointSafe_get_bind <| (hcollect _ _ s h ha).bind fun reports _ _ _ _ => ?_
  refine pointSafe_clock.bind fun now _ _ _ _ => ?_
  split
  · exact pointSafe_throw
  · exact pointSafe_pure trivial

theorem ruleSafe_failAs {key : FailureKey} {t : SessionRoutine α}
    {ok : α → SessionState → History → Prop} (ht : RuleSafe thread sigs t s h ok) :
    RuleSafe thread sigs (TracePlan.failAs key t) s h ok :=
  meets_mapError.mpr ht

theorem ruleSafe_failRunning {t : SessionRoutine α} {ok : α → SessionState → History → Prop}
    (ht : RuleSafe thread sigs t s h ok) : RuleSafe thread sigs (TracePlan.failRunning t) s h ok :=
  meets_mapError.mpr ht

theorem meets_publish {ε : Type} {state : TraceState} {ok : Unit → SessionState → History → Prop}
    {err : ε → SessionState → History → Prop} (hs : ∀ k, state ≠ .stageActive k)
    (hok : ∀ h', h.Then h' → ok () s h') :
    (TracePlan.publish state : Routine ε SessionState Unit).Meets (target thread sigs) ok err s
      h := by
  refine meets_perform.mpr ⟨fun c hc => (nomatch hc), ?_⟩
  rintro r h' rfl
  exact hok _ (.one (Moment.quiet_publish hs r))

theorem complete_ruleSafe (hs : s.Consistent sigs h) :
    RuleSafe thread sigs p.complete s h fun _ s' h' => s'.KnowsRequests sigs h' ∧
    h'.Allows true := by
  unfold TracePlan.complete
  refine meets_bind.mpr <| meets_publish nofun fun h₁ hthen => ?_
  have hk₁ := hs.knowsRequests.samePoints (samePoints_of_then hthen)
  refine RuleSafe.bind (ruleSafe_failRunning (clearOwnRequests_meets hk₁))
    fun _ s₂ h₂ hcleared => ?_
  obtain ⟨hk₂, ha₂⟩ := hcleared
  refine RuleSafe.bind
    (ruleSafe_failRunning <| (pointSafe_overlook p (pointSafe_restoreSource p)).ruleSafe hk₂
    fun _ _ _ hf _ => hf) fun _ s₃ h₃ hf₃ => ?_
  have hk₃ := hk₂.samePoints hf₃
  have ha₃ := ha₂.then hf₃.history
  refine ruleSafe_failAs <| (pointSafe_gatherResults p ha₃).andThen hk₃ fun results _ _ hf₄ _ => ?_
  have hk₄ := hk₃.samePoints hf₄
  have ha₄ := ha₃.then hf₄.history
  refine (pointSafe_inBridge (Bridge.pack_sends _ _) ha₄).andThen hk₄ fun packed _ _ hf₅ _ => ?_
  have hk₅ := hk₄.samePoints hf₅
  have ha₅ := ha₄.then hf₅.history
  refine (pointSafe_inBridge (Bridge.interpret_sends _ _) ha₅).andThen hk₅ fun _ _ _ hf₆ _ => ?_
  exact ruleSafe_pure ⟨hk₅.samePoints hf₆, ha₅.then hf₆.history⟩

/-- A session goes on, or it has put everything back. -/
def SessionState.GoesOn (sigs : List MethodSignature) (r : Option TracePlan.Finished)
    (s : SessionState) (h : History) : Prop :=
  match r with
  | none => s.BetweenEvents sigs h
  | some _ => h.Allows true

theorem atPause_ruleSafe (hr : s.BetweenEvents sigs h) :
    RuleSafe thread sigs p.atPause s h (GoesOn sigs) := by
  unfold TracePlan.atPause
  refine RuleSafe.bind
    (ruleSafe_failRunning <| PointSafe.ruleSafe (pointSafe_command rfl) hr.consistent.knowsRequests
    fun _ _ _ hf _ => hf) fun (count : Int) s₁ h₁ hf₁ => ?_
  have hr₁ := hr.samePoints hf₁
  split
  · refine (complete_ruleSafe hr₁.consistent).bind fun finished s₂ h₂ hdone => ?_
    exact ruleSafe_pure hdone.2
  · extract_lets limit
    have hstep : SessionRoutine.PointSafe thread sigs (do
        modify fun s => { s with stepAttempts := s.stepAttempts + 1 }
        if limit < (← get).stepAttempts then
          throw (.tracing s!"did not return to the invoking frame after {limit} steps")
        let step ← EventRequest.stepInto p.thread
        modify fun s => { s with step := some step }
        p.resume) s₁ h₁ := by
      refine (pointSafe_modify ⟨.refl, rfl, rfl, id, id⟩).bind fun _ _ _ _ _ =>
        pointSafe_get_bind ?_
      refine pointSafe_ite (fun _ => pointSafe_throw) fun _ => ?_
      refine (pointSafe_command rfl).bind fun step _ _ _ _ => ?_
      refine (pointSafe_modify ⟨.refl, rfl, rfl, id, id⟩).bind fun _ _ _ _ _ => ?_
      exact pointSafe_command rfl
    refine RuleSafe.bind
      (ruleSafe_failRunning <| hstep.ruleSafe hr₁.consistent.knowsRequests fun _ _ _ hf _ => hf)
      fun _ s₂ h₂ hf₂ => ?_
    exact ruleSafe_pure (hr₁.samePoints hf₂)

theorem onException_ruleSafe {exception : ObjectId} {caught : Option Location}
    (hr : s.BetweenEvents sigs h) :
    RuleSafe thread sigs (p.onException exception caught) s h (GoesOn sigs) := by
  have hresume : ∀ s h, s.BetweenEvents sigs h → RuleSafe thread sigs (do
      TracePlan.failRunning p.resume
      return none : SessionStep (Option TracePlan.Finished)) s h (GoesOn sigs) := by
    intro s h hr
    refine RuleSafe.bind (ruleSafe_failRunning <|
      PointSafe.ruleSafe (pointSafe_command rfl) hr.consistent.knowsRequests
      fun _ _ _ hf _ => hf) fun _ s₁ h₁ hf₁ => ?_
    exact ruleSafe_pure (hr.samePoints hf₁)
  unfold TracePlan.onException
  refine ruleSafe_get_bind ?_
  split
  · exact hresume s h hr
  · refine RuleSafe.bind
      (ruleSafe_failRunning <| (pointSafe_escapes p caught).ruleSafe hr.consistent.knowsRequests
      fun _ _ _ hf _ => hf) fun escapes s₁ h₁ hf₁ => ?_
    have hr₁ := hr.samePoints hf₁
    split
    · refine RuleSafe.bind
        (ruleSafe_failRunning <| (pointSafe_bridgeQuery (Bridge.keep_bridgeQuery _)).ruleSafe
        hr₁.consistent.knowsRequests fun _ _ _ hf _ => hf) fun _ s₂ h₂ hf₂ => ?_
      have hr₂ := hr₁.samePoints hf₂
      refine ruleSafe_get_bind <| ruleSafe_modify_bind <| meets_bind.mpr <| ruleSafe_failRunning <|
        clearGuard_meets fun h₃ hu => ?_
      have hr₃ : BetweenEvents sigs { s₂ with thrown := some exception, guard := none } h₃ := by
        refine ⟨hr₂.consistent.unguard _ rfl rfl rfl hu, hr₂.ready, ?_⟩
        rw [hu.methods, hu.sets, hu.stage]
        exact hr₂.active
      refine meets_bind.mpr <| meets_publish nofun fun h₄ hthen => ?_
      exact atPause_ruleSafe (hr₃.samePoints (samePoints_of_then hthen))
    · exact hresume s₁ h₁ hr₁

theorem onEvent_ruleSafe {e : Event} {before : History} (hp : p.thread = thread)
    (hr : s.BetweenEvents sigs before) :
    RuleSafe thread sigs (p.onEvent e) s (before ++ [.heard e]) (GoesOn sigs) := by
  have hrests := hr.heard e
  have hidle : RuleSafe thread sigs (pure none : SessionStep (Option TracePlan.Finished)) s
      (before ++ [.heard e]) (GoesOn sigs) := ruleSafe_pure hrests
  unfold TracePlan.onEvent
  split
  · exact hidle
  · rename_i hthread
    have hmethod : ∀ edge request l returned,
        e.methodEdge? = some (edge, request, p.thread, l) → RuleSafe thread sigs (do
          TracePlan.failRunning (p.atMethodEvent edge request l returned)
          return none : SessionStep (Option TracePlan.Finished)) s (before ++ [.heard e])
            (GoesOn sigs) := by
      intro edge request l returned he
      refine (ruleSafe_failRunning (atMethodEvent_ruleSafe hp hr (hp ▸ he))).bind
        fun _ _ _ hr' => ?_
      exact ruleSafe_pure hr'
    cases e with
    | vmDeath => exact ruleSafe_throw hrests.consistent.knowsRequests
    | methodEntry request t l =>
        have ht : t = p.thread := by simpa [Event.thread?] using hthread
        exact hmethod .entry request l .void (by rw [ht]; rfl)
    | methodExitWithValue request t l v =>
        have ht : t = p.thread := by simpa [Event.thread?] using hthread
        exact hmethod .exit request l v (by rw [ht]; rfl)
    | singleStep request t l =>
        refine ruleSafe_get_bind ?_
        split
        · refine ruleSafe_modify_bind <| meets_bind.mpr <| meets_commandAnyway.mpr ⟨?_, ?_⟩
          · rintro c hc
            cases hc
            exact History.permits_of_not thread sigs rfl rfl
          · rintro r h' rfl
            refine atPause_ruleSafe
              (hrests.samePoints ⟨.one (Moment.quiet_sent rfl r), rfl, rfl, id, ?_⟩)
            exact fun ht type methods hget => List.mem_append_left _ (ht type methods hget)
        · exact hidle
    | exception request t l exception caught =>
        refine ruleSafe_get_bind ?_
        split
        · exact onException_ruleSafe hrests
        · exact hidle
    | _ => exact hidle

/-! ## Taking back -/

/-- A trace that is taken back leaves no request. Taking back does not fail. -/
theorem takeBack_meets {ε : Type} {err : ε → SessionState → History → Prop}
    (hk : s.KnowsRequests sigs h) :
    (p.takeBack : Routine ε SessionState Unit).Meets (target thread sigs)
      (fun _ _ h' => h'.Allows true) err s h := by
  have hrestore : ∀ (s : SessionState) (h : History), h.Allows true →
      (do let _ ← attempt p.restoreSource : Routine ε SessionState Unit).Meets
        (target thread sigs) (fun _ _ h' => h'.Allows true) err s h := fun s h ha =>
    meets_bind.mpr <| meets_attempt.mpr <| Meets.mono (pointSafe_restoreSource p)
      (fun _ _ _ hf => meets_pure.mpr (ha.then hf.1.history))
      fun _ _ _ hf => meets_pure.mpr (ha.then hf.history)
  unfold TracePlan.takeBack
  exact meets_bind.mpr <| meets_attempt.mpr <| Meets.mono (clearOwnRequests_meets hk)
    (fun _ s' h' hcleared => hrestore s' h' hcleared.2) fun _ _ _ hn => False.elim hn

/-- Nothing is requested or invoked when the pinned objects are released. -/
theorem dispose_meets {ε : Type} {err : ε → SessionState → History → Prop} :
    (TracePlan.dispose : Routine ε SessionState Unit).Meets (target thread sigs)
      (fun _ _ h' => h.Then h') err s h := by
  have hall : ∀ (ids : List ObjectId) (bridge : BridgeState) (h : History)
      (err : ε → BridgeState → History → Prop),
      (Bridge.enableAll ids : Routine ε BridgeState Unit).Meets (target thread sigs)
        (fun _ _ h' => h.Then h') err bridge h := by
    intro ids
    induction ids with
    | nil => exact fun _ _ _ => meets_pure.mpr .refl
    | cons id rest ih =>
        intro bridge h err
        refine meets_bind.mpr <| meets_commandAnyway.mpr ⟨?_, ?_⟩
        · rintro c hc
          cases hc
          exact History.permits_of_isPlain thread sigs rfl
        · rintro r h' rfl
          exact Meets.mono (ih _ _ _)
            (fun _ _ _ hthen => (History.Then.one (Moment.quiet_sent rfl r)).trans hthen)
            fun _ _ _ hn => hn
  unfold TracePlan.dispose Bridge.dispose
  refine meets_bind.mpr <| meets_within.mpr <| meets_bind.mpr <| meets_get.mpr ?_
  split
  · exact meets_pure.mpr (meets_pure.mpr .refl)
  · exact meets_bind.mpr <| meets_set.mpr <| meets_bind.mpr <| Meets.mono (hall _ _ _ _)
      (fun _ _ _ hthen => meets_pure.mpr (meets_pure.mpr hthen)) fun _ _ _ hn => False.elim hn

end StreamTrace
