import StreamTrace.Proofs.Debugger.WayBack

/-!
# The books at events

What a session does with an event. It steps only behind the last stage or on the way back, it
writes only the arguments of a method that was entered, and it resumes the thread only where it was
stopped. Whatever it does, its accounts stay right; a session that is done has `Closed` them.
-/

namespace StreamTrace

open History (ContinuedBy KeepsPins)
open Moment (Minor Idle Calm Stays Light)
open Routine SessionState SessionRoutine

variable {p : TracePlan} {h h' : History} {α : Type} {s s' : SessionState} {k : Nat} {e : Event}

namespace SessionState

/-- Nothing is owed but the release of what is pinned. -/
structure Closed (p : TracePlan) (s : SessionState) (h : History) : Prop extends
    s.Accounts p h where
  nothing : s.held = []
  restored : s.Restored

theorem Closed.onlyMinor (hc : s.Closed p h) (hp : s.OnlyMinor h s' h') : s'.Closed p h' where
  toAccounts := hc.toAccounts.onlyMinor hp
  nothing := by rw [hp.held, hc.nothing]
  restored := by
    unfold Restored
    rw [hp.substitution]
    exact hc.restored

/-- A session that has closed its accounts may tell the outcome. -/
theorem Closed.settled (hc : s.Closed p h) : h.Settled where
  requests ho := by
    have hperm := hc.requests.balance ho
    rwa [hc.nothing, List.append_nil] at hperm
  source hsub := by
    have hsource := hc.source
    cases hs : s.substitution with
    | none =>
        rw [hs] at hsource
        rcases hsource.1 with hnil | ⟨e, he⟩
        · exact absurd hnil hsub.1
        · exact absurd he (hsub.2 e)
    | some sub =>
        rw [hs] at hsource
        have hdone := hsource.2
        rwa [if_pos (hc.restored sub hs)] at hdone

end SessionState

namespace SessionRoutine

/-! ## The way back -/

theorem complete_closes (hl : s.Listens p h) :
    AccountSafe p p.complete s h fun _ s' h' => s'.Closed p h' := by
  unfold TracePlan.complete
  refine (quiet_publish _ hl.balanced).andThen hl.toAccounts fun _ s₁ h₁ hp₁ hb₁ _ => ?_
  have ha₁ := hl.toAccounts.onlyMinor hp₁
  refine AccountSafe.bind (accountSafe_failRunning (clearOwnRequests_accounts ha₁)) ?_
  rintro - s₂ h₂ ⟨ha₂, hm₂, hnil₂⟩
  have hb₂ := hm₂.balanced hb₁
  -- The source is put back before the results are read, and its refusal may be overlooked.
  have hrestore : (p.overlook p.restoreSource).Meets p.keeper
      (fun _ s' h' => s'.Closed p h' ∧ s'.bridge.Balanced h') (fun _ s' h' => s'.Accounts p h')
      s₂ h₂ := by
    refine meets_overlook (fun s h hc => hc.1.pins.finals) (fun s h h' hc hg => ?_)
      (fun e s h hc => hc.1.toAccounts) ?_
    · exact ⟨hc.1.onlyMinor (onlyMinor_of_idle hc.1.pins hg), hc.2.idle hg⟩
    · have hdone : ∀ s' h', s₂.PutsBack p h₂ s' h' → s'.Closed p h' ∧ s'.bridge.Balanced h' :=
        fun s' h' hput => ⟨⟨hput.accounts, hput.held.trans hnil₂, hput.restored⟩,
          hb₂.keeps (by rw [hput.bridge]) hput.pins⟩
      exact Meets.mono (restoreSource_putsBack ha₂) (fun _ => hdone) fun _ => hdone
  refine AccountSafe.bind (accountSafe_failRunning hrestore) ?_
  rintro - s₃ h₃ ⟨hc₃, hb₃⟩
  have hread : Quiet p (do
      let results ← p.gatherResults
      let packed ← TracePlan.inBridge (p.bridge.pack results)
      let trace ← TracePlan.inBridge (Bridge.interpret p.chain packed)
      return (trace, { thread := p.thread, location := p.invoking }) :
        SessionRoutine TracePlan.Finished) s₃ h₃ := by
    refine (quiet_gatherResults hb₃).bind fun results s₄ h₄ _ hb₄ _ => ?_
    refine (quiet_inBridge (Bridge.pack_sends _ results) hb₄).bind fun packed s₅ h₅ _ hb₅ _ => ?_
    have hsends : (Bridge.interpret p.chain packed).Sends (BridgeRoutine.BridgeCommand true)
      s₅.bridge :=
      Bridge.interpret_sends _ packed
    refine (quiet_inBridge hsends hb₅).bind fun trace s₆ h₆ _ hb₆ _ => ?_
    exact quiet_pure hb₆ trivial
  exact accountSafe_failAs (hread.accountSafe hc₃.toAccounts fun _ _ _ hp _ _ => hc₃.onlyMinor hp)

/-- A session that was given up has closed its accounts as well. -/
theorem takeBack_closes {ε : Type} {err : ε → SessionState → History → Prop}
    (ha : s.Accounts p h) :
    (p.takeBack : Routine ε SessionState Unit).Meets p.keeper (fun _ s' h' => s'.Closed p h') err
      s h := by
  unfold TracePlan.takeBack
  refine meets_bind.mpr <| meets_attempt.mpr <| Meets.mono (clearOwnRequests_accounts ha) ?_
    fun _ _ _ (hn : False) => hn.elim
  rintro - s₁ h₁ ⟨ha₁, -, hnil⟩
  have hdone : ∀ s' h', s₁.PutsBack p h₁ s' h' → s'.Closed p h' := fun s' h' hput =>
    ⟨hput.accounts, hput.held.trans hnil, hput.restored⟩
  exact meets_bind.mpr <| meets_attempt.mpr <| Meets.mono (restoreSource_putsBack ha₁)
    (fun _ s' h' hput => meets_pure.mpr (hdone s' h' hput)) fun _ s' h' hput =>
      meets_pure.mpr (hdone s' h' hput)

/-- What a session comes to at an event: it listens on, or it is done. -/
def ListensOrClosed (p : TracePlan) (r : Option TracePlan.Finished) (s : SessionState)
    (h : History) :
    Prop :=
  match r with
  | none => s.Listens p h
  | some _ => s.Closed p h

/-- A step is requested, unless one is awaited. -/
theorem step_accountSafe {size depth : UInt32} (hl : s.Listens p h)
    (hstep : h.Orderly → s.step = none)
    (hm : h.MayStep [.step p.thread size depth, .count 1]) :
    AccountSafe p (EventRequest.step p.thread size depth) s h fun id s' h' =>
      s' = s ∧ Listens p { s with step := some id } h' ∧ h.ContinuedBy Calm h' := by
  refine meets_command.mpr ⟨.stepping hl.pins.finals (fun ho => ?_) hm, ?_, ?_⟩
  · rw [← hl.step, hstep ho]
  · rintro id h' rfl
    have hmoves : s.RequestsMoved h { s with step := some id } _ :=
      requestsMoved_set EventKind.singleStep suspendEventThread
        [.step p.thread size depth, .count 1]
        (.ok id) rfl rfl
    have ha := hl.toAccounts.set (fun ho => by rw [hstep ho]; rfl) held_step hmoves
    refine ⟨rfl, ⟨ha, hmoves.balanced hl.balanced, ?_, hl.unrestored⟩, hmoves.continuedBy⟩
    exact (History.awaited?_snoc _ _).trans (Moment.await_set _ _ _ id) |>.symm
  · rintro e h' rfl
    exact hl.toAccounts.onlyMinor (onlyMinor_of_idle hl.pins (.one (Moment.idle_refused _ _ _ e)))

theorem mayResume_of_onWayBack {base : Int} (hr : h.OnWayBack base) (hdeep : h.Deep base) :
    h.MayResume := by
  rcases hr with ⟨request, t, l, he, ha⟩ | ⟨request, t, l, exception, caught, he, -⟩
  · refine .inr ⟨_, he, fun id t' l' heq => ?_⟩
    cases heq
    exact ⟨ha, base, hdeep⟩
  · exact .inr ⟨_, he, fun id t' l' heq => by cases heq⟩

/-- The thread is on its way back, and another step may be requested. -/
structure OnWayBack (p : TracePlan) (s : SessionState) (h : History) : Prop where
  listens : s.Listens p h
  step : s.step = none
  onWayBack : h.OnWayBack p.baseDepth

theorem OnWayBack.onlyMinor (ht : OnWayBack p s h) (hp : s.OnlyMinor h s' h')
    (hb : s'.bridge.Balanced h') : OnWayBack p s' h' :=
  ⟨ht.listens.onlyMinor hp hb, hp.step.trans ht.step,
    hp.continuedBy.calm.stays.onWayBack ht.onWayBack⟩

theorem atPause_listensOrClosed (ht : OnWayBack p s h) :
    AccountSafe p p.atPause s h (ListensOrClosed p) := by
  obtain ⟨hl, hstep, hr⟩ := ht
  unfold TracePlan.atPause
  refine AccountSafe.bind (accountSafe_failRunning (count_accountSafe _ hl)) ?_
  rintro (count : Int) s₁ h₁ ⟨rfl, hl₁, hg₁, hcounted⟩
  refine accountSafe_ite (fun _ => ?_) fun hcount => ?_
  · refine (complete_closes hl₁).bind fun finished s₂ h₂ hc => ?_
    exact accountSafe_pure hc
  extract_lets limit
  have hr₁ := hg₁.onWayBack hr
  have hdeep : h₁.Deep p.baseDepth :=
    ⟨hl₁.base, p.thread, count, hcounted, Int.not_le.mp hcount⟩
  have hgo : AccountSafe p (do
      modify fun s => { s with stepAttempts := s.stepAttempts + 1 }
      if limit < (← get).stepAttempts then
        throw (.tracing s!"did not return to the invoking frame after {limit} steps")
      let step ← EventRequest.stepInto p.thread
      modify fun s => { s with step := some step }
      p.resume) s₁ h₁ fun _ s' h' => s'.Listens p h' := by
    refine accountSafe_modify_bind <| accountSafe_get_bind ?_
    have hl₂ : Listens p { s₁ with stepAttempts := s₁.stepAttempts + 1 } h₁ :=
      hl₁.onlyMinor ⟨.refl, rfl, rfl, rfl, rfl, hl₁.pins⟩ hl₁.balanced
    refine accountSafe_ite (fun _ => accountSafe_throw hl₂.toAccounts) fun _ => ?_
    have hmay : h₁.MayStep [.step p.thread StepSize.min StepDepth.into, .count 1] :=
      .into p.thread hdeep hr₁
    refine (step_accountSafe hl₂ (fun _ => hstep) hmay).bind ?_
    rintro id s₂ h₂ ⟨rfl, hl₃, hg₃⟩
    exact accountSafe_modify_bind <|
      resume_accountSafe rfl hl₃
        (mayResume_of_onWayBack (hg₃.stays.onWayBack hr₁) (hg₃.stays.deep hdeep))
  refine AccountSafe.bind (accountSafe_failRunning hgo) fun _ s₂ h₂ hl₂ => ?_
  exact accountSafe_pure hl₂

/-! ## Exceptions -/

/-- Whether an exception escapes is seen in the frames. -/
theorem escapes_accountSafe (caught : Option Location) (hl : s.Listens p h) :
    AccountSafe p (p.escapes caught) s h fun r s' h' =>
      s' = s ∧ s.Listens p h' ∧ h.ContinuedBy Stays h' ∧
        (r = true → ∀ place, caught = some place → h'.Escaped p.baseDepth place) := by
  unfold TracePlan.escapes
  split
  · exact accountSafe_pure ⟨rfl, hl, .refl, fun _ _ hplace => by cases hplace⟩
  · rename_i l
    refine (count_accountSafe _ hl).bind ?_
    rintro (count : Int) _ h₁ ⟨rfl, hl₁, hg₁, hcounted⟩
    extract_lets inner
    refine accountSafe_ite (fun hout => accountSafe_pure ⟨rfl, hl₁, hg₁, ?_⟩) fun hin => ?_
    · rintro - place hplace
      exact .inl ⟨p.thread, count, hcounted, by omega⟩
    · refine meets_bind.mpr <| meets_minor rfl hl₁.pins.finals (fun (frames : List FrameInfo) => ?_)
        fun e => ?_
      · have hm := Moment.idle_sent (c := .frames p.thread 0 inner) rfl (.ok frames)
        refine meets_pure.mpr ⟨rfl, hl₁.idle (.one hm), hg₁.snoc hm.toStays, ?_⟩
        intro hr place hplace
        cases hplace
        refine .inr ⟨p.thread, inner, frames, mem_still_sent rfl _, by omega, fun f hf => ?_⟩
        have hnone : ∀ f ∈ frames, f.location.sameMethod l = false := by simpa using hr
        exact hnone f hf
      · exact (hl₁.idle (.one (Moment.idle_sent rfl _))).toAccounts

/-- The thread goes on from an event that ended no step. -/
theorem resume_of_event (hl : s.Listens p h) (he : h.event? = some e)
    (hstep : ∀ id t l, e ≠ .singleStep id t l) :
    AccountSafe p p.resume s h fun _ s' h' => s'.Listens p h' :=
  resume_accountSafe rfl hl (.inr ⟨e, he, fun id t l heq => absurd heq (hstep id t l)⟩)

theorem onException_listensOrClosed {request : RequestId} {t : ThreadId} {l : Location}
    {exception : ObjectId} {caught : Option Location} (hl : s.Listens p h)
    (he : h.event? = some (.exception request t l exception caught)) :
    AccountSafe p (p.onException exception caught) s h (ListensOrClosed p) := by
  have hresume : ∀ s h, s.Listens p h →
      h.event? = some (.exception request t l exception caught) → AccountSafe p (do
        TracePlan.failRunning p.resume
        return none : SessionStep (Option TracePlan.Finished)) s h (ListensOrClosed p) := by
    intro s h hl he
    refine AccountSafe.bind (accountSafe_failRunning (resume_of_event hl he fun _ _ _ => by simp))
      ?_
    exact fun _ _ _ hl' => accountSafe_pure hl'
  unfold TracePlan.onException
  refine accountSafe_get_bind <| accountSafe_ite (fun _ => hresume s h hl he) fun hstep => ?_
  have hnone : s.step = none := by simpa using hstep
  refine AccountSafe.bind (accountSafe_failRunning (escapes_accountSafe caught hl)) ?_
  rintro escapes s₁ h₁ ⟨rfl, hl₁, hg₁, hescaped⟩
  have he₁ := hg₁.event?.trans he
  refine accountSafe_ite (fun hescapes => ?_) fun _ => hresume _ _ hl₁ he₁
  have ht₁ : OnWayBack p s₁ h₁ :=
    ⟨hl₁, hnone, .inr ⟨request, t, l, exception, caught, he₁, hescaped hescapes⟩⟩
  have hsends : (Bridge.keep (.object exception)).Sends (BridgeRoutine.BridgeCommand true)
    s₁.bridge :=
    Bridge.keep_sends _
  have hkeep : AccountSafe p (TracePlan.failRunning (TracePlan.inBridge
      (Bridge.keep (.object exception)))) s₁ h₁ fun _ => OnWayBack p :=
    accountSafe_failRunning <| (quiet_inBridge hsends hl₁.balanced).accountSafe hl₁.toAccounts
      fun _ _ _ hp hb _ => ht₁.onlyMinor hp hb
  refine hkeep.bind fun _ s₂ h₂ ht₂ => accountSafe_get_bind <| accountSafe_modify_bind ?_
  obtain ⟨hl₂, hnone₂, hr₂⟩ := ht₂
  have hunguard : AccountSafe p (TracePlan.failRunning (TracePlan.clearIfSet EventKind.exception
      s₂.guard)) { s₂ with thrown := some exception, guard := none } h₂ fun _ => OnWayBack p := by
    refine accountSafe_failRunning <| clearIfSet_accounts hl₂.pins.finals (fun hguard => ?_)
      fun id r hguard => ?_
    · refine ⟨hl₂.onlyMinor ⟨.refl, ?_, ?_, rfl, rfl, hl₂.pins⟩ hl₂.balanced, hnone₂, hr₂⟩
      · unfold held
        rw [hguard]
      · exact hguard.symm
    · have hm : s₂.RequestsMoved h₂ { s₂ with thrown := some exception, guard := none }
          (h₂ ++ [.sent (.clearRequest EventKind.exception id) r]) :=
            requestsMoved_cleared _ _ _ rfl rfl
      have hheld : (held { s₂ with thrown := some exception, guard := none }).Perm
          (held { s₂ with guard := none }) := .refl _
      have ha := hl₂.toAccounts.clear (held_of_guard hguard) hheld hm
      refine ⟨hl₂.requestsMoved ha hm rfl ?_, hnone₂, hm.continuedBy.stays.onWayBack hr₂⟩
      rw [History.awaited?_snoc, Moment.await_clear_of_ne _ (by decide)]
  refine hunguard.bind fun _ s₃ h₃ ht₃ => ?_
  refine (quiet_publish _ ht₃.listens.balanced).andThen ht₃.listens.toAccounts
    fun _ s₄ h₄ hp₄ hb₄ _ => ?_
  exact atPause_listensOrClosed (ht₃.onlyMinor hp₄ hb₄)

/-! ## Entries and exits -/

/-- What is kept while a method event is handled. -/
def AtMethodEvent (p : TracePlan) (e : Event) (s : SessionState) (h : History) : Prop :=
  s.Listens p h ∧ h.event? = some e

theorem AtMethodEvent.idle (hat : AtMethodEvent p e s h) (hg : h.ContinuedBy Idle h') :
    AtMethodEvent p e s h' :=
  ⟨hat.1.idle hg, hg.minor.calm.stays.event?.trans hat.2⟩

theorem AtMethodEvent.onlyMinor (hat : AtMethodEvent p e s h) (hp : s.OnlyMinor h s' h')
    (hb : s'.bridge.Balanced h') : AtMethodEvent p e s' h' :=
  ⟨hat.1.onlyMinor hp hb, hp.continuedBy.calm.stays.event?.trans hat.2⟩

theorem AtMethodEvent.calm (hat : AtMethodEvent p e s h) (hl : s'.Listens p h')
    (hg : h.ContinuedBy Calm h') :
    AtMethodEvent p e s' h' :=
  ⟨hl, hg.stays.event?.trans hat.2⟩

/-- A refused write of what a method event allows is overlooked. -/
theorem overlook_atMethodEvent {write : SessionRoutine Unit}
    (hw : write.Meets p.keeper (fun _ => AtMethodEvent p e) (fun _ => AtMethodEvent p e) s h) :
    AccountSafe p (p.overlook write) s h fun _ => AtMethodEvent p e :=
  meets_overlook (fun _ _ hat => hat.1.pins.finals) (fun _ _ _ hat hg => hat.idle hg)
    (fun _ _ _ hat => hat.1.toAccounts) hw

/-- The arguments of the method that was entered are replaced. -/
theorem writeArguments_atMethodEvent {request : RequestId} {t t' : ThreadId} {l : Location}
    {f : FrameInfo} {rest : List FrameInfo} (b : Breakpoint) (old new : List Value)
    (hat : AtMethodEvent p (.methodEntry request t l) s h)
    (htop : .sent (.frames t' 0 1) (.ok (f :: rest)) ∈ h.still) (hc : h.counting = false) :
    (b.writeArguments p.thread f.frameId old new).Meets p.keeper
      (fun _ => AtMethodEvent p (.methodEntry request t l))
      (fun _ => AtMethodEvent p (.methodEntry request t l))
      s h := by
  obtain ⟨hl, he⟩ := hat
  unfold Breakpoint.writeArguments
  refine meets_ite (fun _ => meets_pure.mpr ⟨hl, he⟩) fun _ => ?_
  refine meets_commandOr.mpr ⟨.writing hl.pins.finals (.arguments he htop hc), ?_, ?_⟩
  · rintro r h' rfl
    refine ⟨hl.next (hl.toAccounts.next rfl (History.keepsPins_snoc h rfl rfl rfl)
      (hl.requests.snoc rfl rfl) ?_)
      rfl (History.keepsPins_snoc h rfl rfl rfl) ?_ hl.unrestored, ?_⟩
    · exact hl.source.snoc (.inr ⟨hc, _, History.mem_of_event he⟩) (.inl rfl)
    · exact hl.step
    · rw [History.event?_snoc, he]
      rfl
  · rintro error h' rfl
    exact AtMethodEvent.idle ⟨hl, he⟩ (.one (Moment.idle_unwritten _ _ _ error))

theorem enterStage_atMethodEvent {request : RequestId} {t : ThreadId} {l : Location}
    (hat : AtMethodEvent p (.methodEntry request t l) s h) (hc : h.counting = false) :
    AccountSafe p (p.enterStage k) s h fun _ => AtMethodEvent p (.methodEntry request t l) := by
  unfold TracePlan.enterStage
  refine (quiet_frameOnTop _ hat.1.balanced).andThen hat.1.toAccounts ?_
  rintro frame s₁ h₁ hp₁ hb₁ ⟨rest, htop⟩
  have hat₁ := hat.onlyMinor hp₁ hb₁
  refine (consume_accountSafe .entry k hat₁.1).bind ?_
  rintro - s₂ h₂ ⟨hl₂, -, hg₂⟩
  have hat₂ := hat₁.calm hl₂ hg₂
  refine (quiet_stageAt k hl₂.balanced).andThen hl₂.toAccounts fun stage s₃ h₃ hp₃ hb₃ _ => ?_
  have hat₃ := hat₂.onlyMinor hp₃ hb₃
  refine (quiet_readArguments _ _ _ hb₃).andThen hat₃.1.toAccounts
    fun arguments s₄ h₄ hp₄ hb₄ _ => ?_
  have hat₄ := hat₃.onlyMinor hp₄ hb₄
  refine (quiet_onHandler (fun handler probe bridge hstep =>
    handler.spliceArguments_sends probe hstep arguments) hb₄).andThen hat₄.1.toAccounts
    fun substituted s₅ h₅ hp₅ hb₅ _ => ?_
  have hat₅ := hat₄.onlyMinor hp₅ hb₅
  have hg : h₁.ContinuedBy Calm h₅ := hg₂.trans (hp₃.trans (hp₄.trans hp₅)).continuedBy.calm
  refine (overlook_atMethodEvent (writeArguments_atMethodEvent _ _ _ hat₅ (hg.stays.still htop)
    ((hp₁.continuedBy.calm.trans hg).counting hc))).bind fun _ s₆ h₆ hat₆ => ?_
  refine (enable_accountSafe .exit k hat₆.1).mono ?_
  rintro - s₇ h₇ ⟨hl₇, -, hg₇⟩
  exact hat₆.calm hl₇ hg₇

theorem leaveStage_atMethodEvent {request : RequestId} {t : ThreadId} {l : Location}
    {v returned : Value} (hat : AtMethodEvent p (.methodExitWithValue request t l v) s h)
    (hstep : h.Orderly → s.step = none) :
    AccountSafe p (p.leaveStage k returned) s h fun _ =>
      AtMethodEvent p (.methodExitWithValue request t l v) := by
  unfold TracePlan.leaveStage
  refine (consume_accountSafe .exit k hat.1).bind ?_
  rintro - s₁ h₁ ⟨hl₁, hstep₁, hg₁⟩
  have hat₁ := hat.calm hl₁ hg₁
  refine accountSafe_get_bind <| accountSafe_ite (fun _ => ?_) fun _ => ?_
  · refine (quiet_onHandler (fun handler probe bridge hstep =>
      handler.afterCall_sends probe hstep returned) hl₁.balanced).andThen hl₁.toAccounts
      fun v₂ s₂ h₂ hp₂ hb₂ _ => ?_
    have hat₂ := hat₁.onlyMinor hp₂ hb₂
    refine (quiet_onHandler (fun handler probe bridge hstep =>
      handler.beforeCall_sends probe hstep v₂) hb₂).andThen hat₂.1.toAccounts
      fun v₃ s₃ h₃ hp₃ hb₃ _ => ?_
    have hat₃ := hat₂.onlyMinor hp₃ hb₃
    refine (enable_accountSafe .entry (k + 1) hat₃.1).bind ?_
    rintro - s₄ h₄ ⟨hl₄, -, hg₄⟩
    refine (quiet_publish _ hl₄.balanced).andThen hl₄.toAccounts fun _ s₅ h₅ hp₅ hb₅ _ => ?_
    have hat₅ := (hat₃.calm hl₄ hg₄).onlyMinor hp₅ hb₅
    refine accountSafe_ite (fun _ => accountSafe_pure hat₅) fun _ => overlook_atMethodEvent ?_
    refine meets_minor rfl hat₅.1.pins.finals (fun _ => ?_) fun _ => ?_
    · exact hat₅.idle (.one (Moment.idle_sent rfl _))
    · exact hat₅.idle (.one (Moment.idle_sent rfl _))
  · refine (quiet_onHandler (fun handler probe bridge hstep =>
      handler.afterCall_sends probe hstep returned) hl₁.balanced).andThen hl₁.toAccounts
      fun _ s₂ h₂ hp₂ hb₂ _ => ?_
    have hat₂ := hat₁.onlyMinor hp₂ hb₂
    refine (step_accountSafe hat₂.1 (fun ho => ?_) (.out p.thread hat₂.2)).bind ?_
    · have horderly := (hg₁.trans hp₂.continuedBy.calm).stays.orderly.mp ho
      rw [hp₂.step, hstep₁, hstep horderly]
    · rintro id s₃ h₃ ⟨rfl, hl₃, hg₃⟩
      refine accountSafe_modify_bind <| (quiet_publish _ hl₃.balanced).accountSafe hl₃.toAccounts
        fun _ s₄ h₄ hp₄ hb₄ _ => ?_
      exact (hat₂.calm hl₃ hg₃).onlyMinor hp₄ hb₄

/-- An event of a method request. -/
theorem atMethodEvent_listens {edge : MethodEdge} {request : RequestId} {t : ThreadId}
    {l : Location} {returned : Value} (hat : AtMethodEvent p e s h)
    (he : e.methodEdge? = some (edge, request, t, l)) (hc : h.counting = false)
    (hstep : edge = .exit → h.Orderly → s.step = none) :
    AccountSafe p (p.atMethodEvent edge request l returned) s h fun _ s' h' => s'.Listens p h' := by
  unfold TracePlan.atMethodEvent
  refine accountSafe_get_bind ?_
  split
  · exact accountSafe_pure hat.1
  rename_i k _
  refine (quiet_stageAt k hat.1.balanced).andThen hat.1.toAccounts ?_
  rintro stage s₁ h₁ - - ⟨rfl, rfl, -⟩
  have hresume : ∀ s' h', AtMethodEvent p e s' h' →
      AccountSafe p p.resume s' h' fun _ s' h' => s'.Listens p h' := by
    intro s' h' hat'
    refine resume_of_event hat'.1 hat'.2 fun id t l heq => ?_
    rw [heq] at he
    cases he
  cases edge with
  | entry =>
      obtain ⟨t', rfl⟩ : ∃ t, e = .methodEntry request t l := by
        cases e <;> cases he
        exact ⟨_, rfl⟩
      refine (quiet_isAt _ l hat.1.balanced).andThen hat.1.toAccounts fun isAt s₂ h₂ hp₂ hb₂ _ => ?_
      have hat₂ := hat.onlyMinor hp₂ hb₂
      split
      · exact (enterStage_atMethodEvent hat₂ (hp₂.continuedBy.calm.counting hc)).bind fun _ =>
          hresume
      · exact hresume _ _ hat₂
  | exit =>
      obtain ⟨t', v, rfl⟩ : ∃ t v, e = .methodExitWithValue request t l v := by
        cases e <;> cases he
        exact ⟨_, _, rfl⟩
      refine (quiet_isAt _ l hat.1.balanced).andThen hat.1.toAccounts fun isAt s₂ h₂ hp₂ hb₂ _ => ?_
      have hat₂ := hat.onlyMinor hp₂ hb₂
      split
      · refine (leaveStage_atMethodEvent hat₂ fun ho => ?_).bind fun _ => hresume
        rw [hp₂.step, hstep rfl (hp₂.continuedBy.calm.stays.orderly.mp ho)]
      · exact hresume _ _ hat₂

/-! ## Events -/

theorem onEvent_listensOrClosed (hl : s.Listens p h) (e : Event) :
    AccountSafe p (p.onEvent e) s (h ++ [.heard e]) (ListensOrClosed p) := by
  have hl₁ := hl.heard e
  have hat : AtMethodEvent p e s (h ++ [.heard e]) := ⟨hl₁, History.event?_snoc _ _⟩
  have hidle : AccountSafe p (pure none : SessionStep (Option TracePlan.Finished)) s
      (h ++ [.heard e]) (ListensOrClosed p) := accountSafe_pure hl₁
  have hmethod : ∀ edge request t l returned, e.methodEdge? = some (edge, request, t, l) →
      (edge = .exit → History.Orderly (h ++ [.heard e]) → s.step = none) → AccountSafe p (do
        TracePlan.failRunning (p.atMethodEvent edge request l returned)
        return none : SessionStep (Option TracePlan.Finished)) s (h ++ [.heard e])
          (ListensOrClosed p) := by
    intro edge request t l returned he hstep
    refine AccountSafe.bind (accountSafe_failRunning <| atMethodEvent_listens hat he
      (History.counting_snoc _ _) hstep) fun _ _ _ hl' => ?_
    exact accountSafe_pure hl'
  unfold TracePlan.onEvent
  refine accountSafe_ite (fun _ => hidle) fun _ => ?_
  cases e with
  | vmDeath => exact accountSafe_throw hl₁.toAccounts
  | methodEntry request t l => exact hmethod .entry request t l .void rfl nofun
  | methodExitWithValue request t l v =>
      refine hmethod .exit request t l v rfl fun _ ho => ?_
      have horderly := (History.orderly_snoc _ _).mp ho
      rw [hl.step]
      exact horderly.2 request t l v rfl
  | singleStep request t l =>
      refine accountSafe_get_bind <| accountSafe_ite (fun hown => ?_) fun _ => hidle
      refine accountSafe_modify_bind <| meets_bind.mpr <| meets_commandAnyway.mpr
        ⟨.clear hl₁.pins.finals _ _, ?_⟩
      rintro r h' rfl
      refine atPause_listensOrClosed ⟨hl₁.stepped hown r, rfl, .inl ⟨request, t, l, ?_, ?_⟩⟩
      · rw [History.event?_snoc, hat.2]
        rfl
      · refine ⟨h, t, l, [.sent (.clearRequest EventKind.singleStep request) r],
          List.append_assoc h _ _, hl.step.symm.trans hown, fun m hm => ?_⟩
        rw [List.mem_singleton.mp hm]
        exact ⟨rfl, rfl⟩
  | exception request t l exception caught =>
      refine accountSafe_get_bind <| accountSafe_ite (fun _ => ?_) fun _ => hidle
      exact onException_listensOrClosed hl₁ hat.2
  | _ => exact hidle

end SessionRoutine

end StreamTrace
