import StreamTrace.Proofs.Debugger.StageDiscipline

/-!
# Setting up under the rules

That a session stands once it is set up: its breakpoints are placed one after another, the classes
of all handlers are found before the request for exceptions is set, and the first method request is
set last.
-/

namespace StreamTrace

open History (Then Permits target)
open Routine SessionState SessionRoutine

/-- The methods behind the calls of a chain, in the order in which they are met. -/
def TraceOptions.stageMethods (options : TraceOptions) (chain : StreamChain) :
    List MethodSignature :=
  match options.findPlaces chain with
  | .ok places =>
    places.all.take (places.source.toList.length + chain.intermediate.length + 1)
  | .error _ => []

theorem TracePlan.map_snd_zip_handlers (p : TracePlan) {places : Places}
    (h : p.options.findPlaces p.chain = .ok places) :
    ((p.handlers places).zip places.all).map (·.2) = p.options.stageMethods p.chain := by
  have hlength : (p.handlers places).length =
      places.source.toList.length + p.chain.intermediate.length + 1 := by
    simp [TracePlan.handlers, Nat.add_assoc]
  unfold TraceOptions.stageMethods
  rw [h]
  dsimp only
  rw [← hlength]
  generalize p.handlers places = handlers
  generalize places.all = methods
  induction handlers generalizing methods with
  | nil => simp
  | cons handler rest ih => cases methods <;> simp [ih]

namespace SessionState

variable {sigs : List MethodSignature} {s : SessionState} {h : History}

/-- Before anything is requested. -/
structure Unrequested (sigs : List MethodSignature) (s : SessionState) (h : History) : Prop where
  consistent : s.Consistent sigs h
  free : h.installedMethods = []
  sets : h.methodSets = []
  events : h.lastEvent? = none
  guard : s.guard = none

theorem Unrequested.samePoints {s' : SessionState} {h' : History} (ho : s.Unrequested sigs h)
    (hf : s.SamePoints h s' h') : s'.Unrequested sigs h' where
  consistent := ho.consistent.samePoints hf
  free := by rw [hf.history.installedMethods, ho.free]
  sets := by rw [hf.history.methodSets, ho.sets]
  events := by rw [hf.history.lastEvent?, ho.events]
  guard := by rw [hf.guard, ho.guard]

theorem Unrequested.allows (ho : s.Unrequested sigs h) : h.Allows true := fun hc =>
  ⟨ho.free, fun _ => by rw [ho.consistent.guard hc, ho.guard]; rfl⟩

/-- A session without stages, before anything is requested. -/
theorem unrequested_of_then {s : SessionState} (hstages : s.stages = []) (hmethods : s.methods = {})
    (hguard : s.guard = none) (hthen : Then [] h) : s.Unrequested sigs h := by
  have hpoint : ∀ edge k b, s.point? edge k ≠ some b := by
    intro edge k b
    simp [point?, hstages]
  refine ⟨⟨?_, ?_, ?_, ?_, ?_, ?_⟩, hthen.installedMethods, hthen.methodSets, hthen.lastEvent?,
    hguard⟩
  · exact fun edge k b hb => absurd hb (hpoint edge k b)
  · exact fun edge k b hb => absurd hb (hpoint edge k b)
  · intro x hx
    rw [hthen.installedMethods] at hx
    cases hx
  · intro x hx
    rw [hthen.installedMethods] at hx
    cases hx
  · intro type methods hm
    rw [hmethods] at hm
    cases hm
  · rw [hthen.installedGuards, hguard]
    exact fun _ => rfl

/-- One more stage, with breakpoints that are not enabled. -/
theorem Unrequested.addStage {stage : Stage} (ho : s.Unrequested sigs h)
    (hplaced : ∀ edge, (stage.point edge).Placed edge s.stages.length sigs h)
    (hnone : ∀ edge, (stage.point edge).request = none) :
    Unrequested sigs { s with stages := s.stages ++ [stage] } h := by
  have hpoint : ∀ edge k b, point? { s with stages := s.stages ++ [stage] } edge k = some b →
      s.point? edge k = some b ∨ k = s.stages.length ∧ b = stage.point edge := by
    intro edge k b hb
    obtain ⟨stage', hstage', rfl⟩ := Option.map_eq_some_iff.mp hb
    rcases Nat.lt_trichotomy k s.stages.length with hk | rfl | hk
    · rw [List.getElem?_append_left hk] at hstage'
      exact .inl (by simp [point?, hstage'])
    · rw [List.getElem?_concat_length] at hstage'
      exact .inr ⟨rfl, by rw [Option.some.inj hstage']⟩
    · rw [List.getElem?_eq_none (by simp; omega)] at hstage'
      cases hstage'
  refine ⟨⟨?_, ?_, ?_, ?_, ho.consistent.told, ho.consistent.guard⟩, ho.free, ho.sets, ho.events,
    ho.guard⟩
  · intro edge k b hb
    rcases hpoint edge k b hb with hb | ⟨rfl, rfl⟩
    · exact ho.consistent.placed edge k b hb
    · exact hplaced edge
  · intro edge k b hb id
    rcases hpoint edge k b hb with hb | ⟨rfl, rfl⟩
    · exact ho.consistent.request edge k b hb id
    · rw [hnone, ho.free]
      simp
  · intro x hx
    rw [ho.free] at hx
    cases hx
  · intro x hx
    rw [ho.free] at hx
    cases hx

end SessionState

variable {thread : ThreadId} {sigs : List MethodSignature} {s : SessionState} {h : History}
  {p : TracePlan}

theorem placeStages_ruleSafe (rest : List (StageHandler × MethodSignature))
    (ho : s.Unrequested sigs h)
    (hrest : sigs.drop s.stages.length = rest.map (·.2)) :
    RuleSafe thread sigs (TracePlan.placeStages rest) s h fun _ s' h' =>
    s'.Unrequested sigs h' := by
  induction rest generalizing s h with
  | nil => exact ruleSafe_pure ho
  | cons first rest ih =>
      obtain ⟨handler, sig⟩ := first
      have hsig : sigs[s.stages.length]? = some sig := by
        rw [← List.head?_drop, hrest]
        rfl
      unfold TracePlan.placeStages
      refine (pointSafe_inMethods (create_meets ho.consistent.told)).andThen
        ho.consistent.knowsRequests ?_
      rintro entry s₁ h₁ hf₁ ⟨⟨hkind₁, hsig₁, hreq₁, hloc₁⟩, hstages₁⟩
      have ho₁ := ho.samePoints hf₁
      refine (pointSafe_inMethods (create_meets ho₁.consistent.told)).andThen
        ho₁.consistent.knowsRequests ?_
      rintro exit s₂ h₂ hf₂ ⟨⟨hkind₂, hsig₂, hreq₂, hloc₂⟩, hstages₂⟩
      have hstages : s₂.stages = s.stages := hstages₂.trans hstages₁
      refine ruleSafe_modify_bind <|
        ih ((ho₁.samePoints hf₂).addStage (fun edge => ?_) fun edge => ?_) ?_
      · rw [hstages]
        cases edge with
        | entry =>
            exact ⟨hkind₁, by rw [hsig]; exact congrArg some hsig₁.symm,
              (hsig₁ ▸ hloc₁).mono fun _ => hf₂.history.mem⟩
        | exit => exact ⟨hkind₂, by rw [hsig]; exact congrArg some hsig₂.symm, hsig₂ ▸ hloc₂⟩
      · cases edge with
        | entry => exact hreq₁
        | exit => exact hreq₂
      · rw [List.length_append, hstages, ← List.drop_drop, hrest]
        rfl

/-! ## Classes and the source variable -/

theorem pointSafe_preload (p : TracePlan) (names : List String) (ha : h.Allows true) :
    PointSafe thread sigs (p.preload names) s h
      (fun _ s' _ => (∀ name ∈ names, s'.bridge.Knows name) ∧ s.bridge.Remembers s'.bridge ∧
        s'.stages = s.stages) := by
  induction names generalizing s h with
  | nil => exact pointSafe_pure ⟨nofun, .refl _, rfl⟩
  | cons name rest ih =>
      unfold TracePlan.preload
      refine (pointSafe_inBridge (Bridge.resolveType_sends _ (.inl rfl)) ha).bind ?_
      rintro type s₁ h₁ hf₁ ⟨⟨hknows, hrem⟩, hs₁⟩
      refine (ih (ha.then hf₁.history)).mono ?_
      rintro - s₂ h₂ - ⟨hrest, hrem₂, hstages⟩
      refine ⟨fun name' hname' => ?_, hrem.trans hrem₂, hstages.trans (by rw [hs₁])⟩
      rcases List.mem_cons.mp hname' with rfl | hmem
      · exact hrem₂ _ hknows
      · exact hrest name' hmem

theorem pointSafe_substituteSource (p : TracePlan) (hr : s.Ready) (ha : h.Allows true) :
    PointSafe thread sigs p.substituteSource s h := by
  unfold TracePlan.substituteSource
  split
  · exact pointSafe_pure trivial
  · refine pointSafe_get_bind <| pointSafe_ite (fun _ => pointSafe_throw) fun _ => ?_
    refine (pointSafe_frameOnTop _).bind fun frame s₁ h₁ hf₁ _ => ?_
    refine (pointSafe_command rfl).bind fun (table : Nat × List VariableInfo) s₂ h₂ hf₂ _ => ?_
    split
    · exact pointSafe_throw
    · refine (pointSafe_command rfl).bind fun (values : List Value) s₃ h₃ hf₃ _ => ?_
      split
      · exact pointSafe_throw
      · extract_lets source write
        have hwrite : ∀ stream s h, PointSafe thread sigs (write stream) s h := by
          intro stream s h
          refine (pointSafe_plain rfl).bind fun _ _ _ _ _ => ?_
          exact pointSafe_modify ⟨.refl, rfl, rfl, id, id⟩
        have hf₃ := hf₁.trans (hf₂.trans hf₃)
        have hsource : source.CanStep true s₃.bridge := ⟨⟨.inl rfl, .inl rfl⟩, fun _ _ => .inl rfl⟩
        refine pointSafe_get_bind <| (pointSafe_inBridge (source.afterCall_sends _ hsource _)
          (ha.then hf₃.history)).bind ?_
        rintro ⟨-, stream⟩ s₄ h₄ hf₄ -
        have hf₄ := hf₃.trans hf₄
        have ha₄ : h₄.Allows false := fun hc => ⟨(ha.then hf₄.history hc).1, nofun⟩
        refine pointSafe_get_bind <| pointSafe_ite (fun _ => hwrite _ _ _) fun _ => ?_
        refine (pointSafe_onHandler (fun handler probe bridge hstep =>
          handler.beforeCall_sends probe hstep stream) (hf₄.ready hr) ha₄).bind
          fun _ _ _ _ _ => hwrite _ _ _

/-! ## Setup -/

/-- With the guard set, no class may be searched for any more. -/
theorem guard_ruleSafe (ho : s.Unrequested sigs h) (hr : s.Ready) :
    RuleSafe thread sigs (EventRequest.guard p.thread) s h fun id s' h' =>
      { s' with guard := some id : SessionState }.BetweenRequests thread sigs 0 h' := by
  have hkind : isMethodKind EventKind.exception = false := rfl
  have htold : ∀ m, s.methods.Told (h ++ [m]) := fun m type methods hget =>
    List.mem_append_left _ (ho.consistent.told type methods hget)
  refine meets_command.mpr ⟨?_, ?_, ?_⟩
  · rintro c hc
    cases hc
    exact History.permits_of_not thread sigs rfl rfl
  · rintro id h' rfl
    have hmethods := History.installedMethods_setOther h hkind (.ok id)
    have hsets := History.methodSets_setOther h hkind (.ok id)
    refine ⟨ho.consistent.congr rfl (fun _ => List.mem_append_left _) hmethods hsets (htold _)
      fun hc => ?_, hr, hmethods.trans ho.free, ?_, .inl ⟨hsets.trans ho.sets, ?_⟩⟩
    · have hc' := (History.clearsSucceed_append_singleton _ _ |>.mp hc).1
      refine (History.installedGuards_setGuard h id).trans ?_
      rw [ho.consistent.guard hc', ho.guard]
      rfl
    · exact (congrArg List.length hsets).trans (by rw [ho.sets]; rfl)
    · exact (History.lastEvent?_append_singleton h _).trans ho.events
  · rintro e h' rfl -
    refine ho.consistent.congr rfl (fun _ => List.mem_append_left _)
      (History.installedMethods_setOther h hkind (.error e))
      (History.methodSets_setOther h hkind (.error e)) (htold _) fun hc => ?_
    have hc' := (History.clearsSucceed_append_singleton _ _ |>.mp hc).1
    exact (History.installedGuards_setRefused h e).trans (ho.consistent.guard hc')

theorem prepare_ruleSafe {order : Arrangement} {places : Places} (hp : p.thread = thread)
    (hplaces : p.options.findPlaces p.chain = .ok places)
    (hsigs : sigs = p.options.stageMethods p.chain) (hthen : Then [] h) :
    RuleSafe thread sigs (p.prepare places) (.start order) h fun _ s' h' =>
      s'.Consistent sigs h' ∧ s'.Ready ∧ (h'.installedMethods ≠ [] → h'.methodSets.length = 1) := by
  subst hp
  unfold TracePlan.prepare
  refine ruleSafe_modify_bind ?_
  have ho : SessionState.Unrequested sigs
      { SessionState.start order with hasSourceStage := places.source.isSome } h :=
    unrequested_of_then rfl rfl rfl hthen
  refine (placeStages_ruleSafe _ ho ?_).bind fun _ s₁ h₁ ho₁ => ruleSafe_get_bind ?_
  · rw [hsigs, p.map_snd_zip_handlers hplaces]
    rfl
  extract_lets matchers finish
  refine (pointSafe_preload p _ ho₁.allows).andThen ho₁.consistent.knowsRequests ?_
  rintro - s₂ h₂ hf₂ ⟨hknows, -, hstages⟩
  have hr₂ : s₂.Ready := by
    intro stage hstage
    refine ⟨⟨.inr (hknows _ ?_), .inr (hknows _ ?_)⟩, fun c hc => .inr (hknows _ ?_)⟩
    · simp [TracePlan.preloaded]
    · simp [TracePlan.preloaded]
    · rw [hstages] at hstage
      exact List.mem_append_right _ (List.mem_filterMap.mpr ⟨stage, hstage, by rw [hc]; rfl⟩)
  have ho₂ := ho₁.samePoints hf₂
  refine (pointSafe_inBridge (Probe.new_sends _ (.inl rfl)) ho₂.allows).andThen
    ho₂.consistent.knowsRequests ?_
  rintro probe s₃ h₃ hf₃ -
  refine (pointSafe_modify ⟨.refl, rfl, rfl, id, id⟩).andThen
    (ho₂.samePoints hf₃).consistent.knowsRequests
    fun _ s₄ h₄ hf₄ _ => ?_
  have hf₄ := hf₃.trans hf₄
  -- Whether a source is substituted or not, the guard and the first entry are requested last.
  have hfinish : ∀ s' h', s₄.SamePoints h₄ s' h' → RuleSafe p.thread sigs (finish ()) s' h'
      fun _ s' h' => s'.Consistent sigs h' ∧ s'.Ready ∧
        (h'.installedMethods ≠ [] → h'.methodSets.length = 1) := by
    intro s' h' hf'
    have hf' := hf₄.trans hf'
    refine (guard_ruleSafe (ho₂.samePoints hf') (hf'.ready hr₂)).bind fun id s'' h'' hp =>
      ruleSafe_modify_bind <| ruleSafe_get_bind ?_
    split
    · exact (onPoint_enable_ruleSafe .entry 0 hp).mono fun _ _ _ henabled =>
        ⟨henabled.1, henabled.2.1, henabled.2.2.2⟩
    · exact ruleSafe_pure ⟨hp.consistent, hp.ready, fun hne => absurd hp.free hne⟩
  refine ruleSafe_get_bind ?_
  split
  · refine PointSafe.andThen (pointSafe_publish nofun) (ho₂.samePoints hf₄).consistent.knowsRequests
      fun _ s₅ h₅ hf₅ _ => ?_
    have hf₂₅ := hf₄.trans hf₅
    have ho₅ := ho₂.samePoints hf₂₅
    refine (pointSafe_substituteSource p (hf₂₅.ready hr₂) ho₅.allows).andThen
      ho₅.consistent.knowsRequests
      fun _ s₆ h₆ hf₆ _ => ?_
    exact hfinish s₆ h₆ (hf₅.trans hf₆)
  · exact hfinish s₄ h₄ (.refl _ _)

theorem setup_ruleSafe {order : Arrangement} (hp : p.thread = thread)
    (hsigs : sigs = p.options.stageMethods p.chain) (hthen : Then [] h) :
    RuleSafe thread sigs p.setup (.start order) h fun _ s' h' => s'.BetweenEvents sigs h' := by
  have hk : ∀ h', Then [] h' → KnowsRequests sigs (.start order) h' := fun h' hthen' =>
    (unrequested_of_then rfl rfl rfl hthen').consistent.knowsRequests
  unfold TracePlan.setup
  refine meets_bind.mpr <| meets_publish nofun fun h₁ hthen₁ => ?_
  have hthen₁ := hthen.trans hthen₁
  refine meets_bind.mpr <| ruleSafe_failAs <| meets_ofExcept.mpr ⟨?_, fun _ _ => hk _ hthen₁⟩
  intro places hplaces
  refine (ruleSafe_failAs (prepare_ruleSafe hp hplaces hsigs hthen₁)).bind
    fun _ s₂ h₂ hprepared => ?_
  obtain ⟨hs₂, hr₂, hcount⟩ := hprepared
  refine meets_bind.mpr <| meets_publishStage fun h₃ hmethods hsets hstage hs₃ => ?_
  have hr₃ : s₂.BetweenEvents sigs h₃ := by
    refine ⟨hs₃ hs₂, hr₂, fun hne => ?_⟩
    rw [hstage, hsets, hcount (hmethods ▸ hne)]
  refine meets_bind.mpr <| meets_perform.mpr ⟨fun c hc => (nomatch hc), ?_⟩
  rintro now h₄ rfl
  refine ruleSafe_modify_bind <| ruleSafe_failRunning ?_
  have hf₄ : s₂.SamePoints h₃ { s₂ with startedAt := now } (h₃ ++ [.did .clock now]) :=
    (samePoints_of_then (.one (Moment.quiet_clock now))).trans ⟨.refl, rfl, rfl, id, id⟩
  have hr₄ := hr₃.samePoints hf₄
  exact PointSafe.ruleSafe (pointSafe_command rfl) hr₄.consistent.knowsRequests fun _ _ _ hf₅ _ =>
    hr₄.samePoints hf₅

end StreamTrace
