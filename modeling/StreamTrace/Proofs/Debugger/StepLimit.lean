import StreamTrace.Proofs.Debugger.ExitPairing
import StreamTrace.Proofs.Debugger.StepDiscipline

/-!
# The steps of a trace, from its start to its end

At any time at most two requests for a step are installed, and only one unless an exit came in
while a step was requested. A trace makes at most so many steps into what is ahead as its settings
say: where it would need one more it is given up.
-/

namespace StreamTrace

open History (ContinuedBy MaySetStep)
open Moment (Level)
open Routine SessionState SessionRoutine

variable {limit : UInt32} {s s' : SessionState} {h h' : History} {ε α β : Type} {p : TracePlan}
  {k : Nat}

/-! ## What a session knows about steps -/

namespace SessionState

/-- What the session knows about steps agrees with the history. -/
structure StepsKnown (limit : UInt32) (s : SessionState) (h : History) : Prop where
  attempts : s.stepAttempts = UInt32.ofNat (h.stepsTo StepDepth.into)
  limited : limit.toNat + 1 < UInt32.size → h.stepsTo StepDepth.into ≤ limit.toNat
  out : h.stepsTo StepDepth.out = 0 ∨ s.Left
  /-- Beside the step that the session knows, one that it asked for earlier may be requested. -/
  steps : ∃ older : Option RequestId, h.steps.Sublist (older.toList ++ s.step.toList) ∧
    (h.stepsTo StepDepth.out = 0 ∨ h.Undisturbed → older = none)

theorem StepsKnown.kept (hp : s.StepsKnown limit h) (hk : s.Kept s')
    (hg : h.ContinuedBy Level h') :
    s'.StepsKnown limit h' where
  attempts := by rw [hk.attempts, hg.stepsTo, hp.attempts]
  limited := by
    rw [hg.stepsTo]
    exact hp.limited
  out := by
    rw [hg.stepsTo]
    exact hp.out.imp_right hk.left
  steps := by
    rw [hg.steps, hg.stepsTo, hg.undisturbed, hk.step]
    exact hp.steps

/-- Fewer steps are requested, and none was asked for. -/
theorem StepsKnown.snoc (hp : s.StepsKnown limit h) {m : Moment} (hm : ¬m.SetsStep) :
    s.StepsKnown limit (h ++ [m]) := by
  have hdepth := Moment.stepDepth?_of_not_setsStep hm
  refine ⟨?_, ?_, ?_, ?_⟩
  · rw [History.stepsTo_snoc, hdepth]
    exact hp.attempts
  · rw [History.stepsTo_snoc, hdepth]
    exact hp.limited
  · rw [History.stepsTo_snoc, hdepth]
    exact hp.out
  · obtain ⟨older, hsub, holder⟩ := hp.steps
    refine ⟨older, ?_, fun hcase => holder ?_⟩
    · rw [History.steps_snoc]
      exact (Moment.pace_sublist hm _).trans hsub
    · rw [History.stepsTo_snoc, hdepth] at hcase
      exact hcase.imp_right fun hu => ((History.undisturbed_snoc h m).mp hu).1

theorem StepsKnown.heard (hp : s.StepsKnown limit h) (e : Event) :
    s.StepsKnown limit (h ++ [.heard e]) := by
  refine hp.snoc ?_
  rintro ⟨c, r, heq, -⟩
  cases heq

theorem StepsKnown.cleared (hp : s.StepsKnown limit h) (kind : UInt8) (id : RequestId)
    (r : (Command.clearRequest kind id).Answer) :
    s.StepsKnown limit (h ++ [.sent (.clearRequest kind id) r]) := by
  refine hp.snoc ?_
  rintro ⟨c, r', heq, policy, modifiers, rfl⟩
  cases heq

/-- The step that the session waited for has ended. -/
theorem StepsKnown.ended (hp : s.StepsKnown limit h) {id : RequestId} (hstep : s.step = some id)
    (t : ThreadId) (l : Location) :
    StepsKnown limit { s with step := none } (h ++ [.heard (.singleStep id t l)]) := by
  have hp' := hp.heard (.singleStep id t l)
  refine ⟨hp'.attempts, hp'.limited, hp'.out, ?_⟩
  obtain ⟨older, hsub, holder⟩ := hp.steps
  refine ⟨older, ?_, fun hcase => holder ?_⟩
  · rw [hstep] at hsub
    have hfilter := hsub.filter (· ≠ id)
    rw [List.filter_append, show (some id).toList.filter (· ≠ id) = [] by simp,
      List.append_nil] at hfilter
    rw [History.steps_snoc]
    exact (hfilter.trans List.filter_sublist).trans (by simp)
  · rw [History.stepsTo_snoc] at hcase
    exact hcase.imp_right fun hu => ((History.undisturbed_snoc h _).mp hu).1

/-- As long as the steps can be counted, the count tells whether one more exceeds the limit. -/
theorem StepsKnown.exceeds (hp : s.StepsKnown limit h)
    (hcount : h.stepsTo StepDepth.into + 1 < UInt32.size) :
    limit < s.stepAttempts + 1 ↔ limit.toNat ≤ h.stepsTo StepDepth.into := by
  have hattempts : s.stepAttempts.toNat = h.stepsTo StepDepth.into := by
    rw [hp.attempts]
    exact UInt32.toNat_ofNat_of_lt (Nat.lt_of_succ_lt hcount)
  have hnext : (s.stepAttempts + 1).toNat = h.stepsTo StepDepth.into + 1 := by
    rw [UInt32.toNat_add, hattempts]
    exact Nat.mod_eq_of_lt hcount
  rw [UInt32.lt_iff_toNat_lt, hnext]
  exact Nat.lt_succ_iff

/-- Without a step to wait for, the next may be asked for. -/
theorem StepsKnown.free (hp : s.StepsKnown limit h) (hstep : s.step = none) :
    h.steps.length ≤ 1 ∧ (h.Undisturbed → h.steps = []) := by
  obtain ⟨older, hsub, holder⟩ := hp.steps
  rw [hstep, Option.toList_none, List.append_nil] at hsub
  refine ⟨hsub.length_le.trans (by cases older <;> simp), fun hu => ?_⟩
  rw [holder (.inr hu)] at hsub
  exact List.sublist_nil.mp hsub

end SessionState

/-! ## Routines that may ask for steps -/

/-- The routine asks only for steps that it may make and, if it does not fail, ends in `Q`. -/
def Routine.StepSafe (limit : UInt32) (t : Routine ε SessionState α) (s : SessionState)
    (h : History)
    (Q : α → SessionState → History → Prop) : Prop :=
  t.Meets (.stepping limit) Q (fun _ _ _ => True) s h

namespace Routine

variable {Q : α → SessionState → History → Prop} {Q' : β → SessionState → History → Prop}

theorem StepSafe.bind {t : Routine ε SessionState α} {f : α → Routine ε SessionState β}
    (ht : t.StepSafe limit s h Q) (hf : ∀ a s' h', Q a s' h' → (f a).StepSafe limit s' h' Q') :
    (t >>= f).StepSafe limit s h Q' :=
  meets_bind.mpr <| Meets.mono ht hf fun _ _ _ _ => trivial

theorem stepSafe_pure {a : α} (ha : Q a s h) :
    (pure a : Routine ε SessionState α).StepSafe limit s h Q :=
  meets_pure.mpr ha

theorem stepSafe_throw {e : ε} : (throw e : Routine ε SessionState α).StepSafe limit s h Q :=
  meets_throw.mpr trivial

theorem stepSafe_get_bind {f : SessionState → Routine ε SessionState β}
    (hf : (f s).StepSafe limit s h Q') : (get >>= f).StepSafe limit s h Q' :=
  meets_bind.mpr <| meets_get.mpr hf

theorem stepSafe_modify_bind {f : SessionState → SessionState}
    {t : PUnit → Routine ε SessionState β}
    (ht : (t ⟨⟩).StepSafe limit (f s) h Q') : (modify f >>= t).StepSafe limit s h Q' :=
  meets_bind.mpr <| meets_modify.mpr ht

theorem stepSafe_ite {P : Prop} [Decidable P] {t e : Routine ε SessionState α}
    (ht : P → t.StepSafe limit s h Q) (he : ¬P → e.StepSafe limit s h Q) :
    (if P then t else e).StepSafe limit s h Q :=
  meets_ite ht he

theorem stepSafe_mapError {ε' : Type} {f : ε → ε'} {t : Routine ε SessionState α}
    (ht : t.StepSafe limit s h Q) : (mapError f t).StepSafe limit s h Q :=
  meets_mapError.mpr ht

theorem stepSafe_attempt {ε' : Type} {t : Routine ε SessionState α}
    {R : Except ε α → SessionState → History → Prop} (ht : t.StepSafe limit s h fun _ _ _ => True)
    (hok : ∀ r s' h', R r s' h') :
    (attempt t : Routine ε' SessionState (Except ε α)).StepSafe limit s h R :=
  meets_attempt.mpr <| Meets.mono ht (fun _ _ _ _ => hok _ _ _) fun _ _ _ _ => hok _ _ _

theorem StepFree.stepSafe {t : Routine ε SessionState α} (ht : t.StepFree limit)
    (hok : ∀ a s' h', s.Kept s' → h.ContinuedBy Level h' → Q a s' h') : t.StepSafe limit s h Q :=
  ht.meets hok fun _ _ _ _ _ => trivial

/-- A routine that is about no step, and another behind it. -/
theorem StepFree.andThen {t : Routine ε SessionState α} {f : α → Routine ε SessionState β}
    (ht : t.StepFree limit)
    (hf : ∀ a s' h', s.Kept s' → h.ContinuedBy Level h' → (f a).StepSafe limit s' h' Q') :
    (t >>= f).StepSafe limit s h Q' :=
  StepSafe.bind (ht.stepSafe fun _ s' h' hk hg => (⟨hk, hg⟩ : s.Kept s' ∧ h.ContinuedBy Level h'))
    fun a s' h' hkept => hf a s' h' hkept.1 hkept.2

theorem stepSafe_clear {kind : UInt8} {id : RequestId} {Q : Unit → SessionState → History → Prop}
    (hok : ∀ r, Q () s (h ++ [.sent (.clearRequest kind id) r])) :
    (commandAnyway (.clearRequest kind id) : Routine ε SessionState Unit).StepSafe limit s h Q := by
  refine meets_commandAnyway.mpr ⟨History.maySetStep_clear _ _, ?_⟩
  rintro r h' rfl
  exact hok r

end Routine

namespace SessionRoutine

/-! ## The end of a trace -/

theorem stepFree_clearStages (ks : List Nat) : (TracePlan.clearStages ks).StepFree limit := by
  induction ks with
  | nil => exact stepFree_pure _
  | cons k rest ih =>
      refine StepFree.bind (stepFree_attempt (stepFree_disable .entry k)) fun _ => ?_
      exact StepFree.bind (stepFree_attempt (stepFree_disable .exit k)) fun _ => ih

theorem stepSafe_clearOwnRequests :
    TracePlan.clearOwnRequests.StepSafe limit s h fun _ _ _ => True := by
  have hclear : ∀ (kind : UInt8) (r : Option RequestId) s h,
      (TracePlan.clearIfSet kind r : SessionRoutine Unit).StepSafe limit s h fun _ _ _ => True := by
    intro kind r s h
    cases r with
    | none => exact stepSafe_pure trivial
    | some id => exact stepSafe_clear fun _ => trivial
  refine stepSafe_get_bind <| (stepFree_clearStages _).andThen fun _ s₁ h₁ _ _ => ?_
  refine stepSafe_get_bind <| stepSafe_modify_bind ?_
  exact StepSafe.bind (hclear _ _ _ _) fun _ s₂ h₂ _ => hclear _ _ _ _

theorem stepFree_gatherResults (p : TracePlan) : p.gatherResults.StepFree limit := by
  have hcollect : ∀ (s₀ : SessionState) (stages : List Stage),
      (TracePlan.gatherResults.collectReports p s₀ stages).StepFree limit := by
    intro s₀ stages
    induction stages with
    | nil => exact stepFree_pure _
    | cons stage rest ih =>
        refine StepFree.bind (stepFree_inBridge fun _ => stage.handler.result_sends _) fun _ => ?_
        exact StepFree.bind ih fun _ => stepFree_pure _
  refine stepFree_get_bind fun s => StepFree.bind (hcollect _ _) fun reports => ?_
  refine StepFree.bind (stepFree_perform fun c hc => ?_) fun (now : Nat) => ?_
  · cases hc
  · split
    · exact stepFree_throw _
    · exact stepFree_pure _

theorem stepSafe_complete (p : TracePlan) : p.complete.StepSafe limit s h fun _ _ _ => True := by
  refine (stepFree_publish _).andThen fun _ s₁ h₁ _ _ => ?_
  refine StepSafe.bind (stepSafe_mapError stepSafe_clearOwnRequests) fun _ s₂ h₂ _ => ?_
  refine (stepFree_mapError (stepFree_overlook (stepFree_restoreSource p))).andThen
    fun _ s₃ h₃ _ _ => ?_
  refine stepSafe_mapError ?_
  refine (stepFree_gatherResults p).andThen fun results s₄ h₄ _ _ => ?_
  refine (stepFree_inBridge fun _ => Bridge.pack_sends _ results).andThen fun packed s₅ h₅ _ _ => ?_
  exact (stepFree_inBridge fun _ => Bridge.interpret_sends _ packed).andThen fun trace s₆ h₆ _ _ =>
    stepSafe_pure trivial

theorem stepSafe_takeBack (p : TracePlan) :
    (p.takeBack : Routine ε SessionState Unit).StepSafe limit s h fun _ _ _ => True := by
  refine StepSafe.bind (stepSafe_attempt (R := fun _ _ _ => True) stepSafe_clearOwnRequests
    fun _ _ _ => trivial) fun _ s₁ h₁ _ => ?_
  exact (stepFree_attempt (stepFree_restoreSource p)).andThen fun _ s₂ h₂ _ _ =>
    stepSafe_pure trivial

/-! ## Steps -/

/-- A step is asked for where that is allowed. -/
theorem step_stepSafe {thread : ThreadId} {size depth : UInt32}
    {Q : RequestId → SessionState → History → Prop}
    (hfree : h.steps.length ≤ 1 ∧ (h.Undisturbed → h.steps = []))
    (hinto : depth = StepDepth.into → limit.toNat + 1 < UInt32.size →
      h.stepsTo StepDepth.into < limit.toNat)
    (hok : ∀ (id : RequestId) h', h'.steps = h.steps ++ [id] →
      (∀ d, h'.stepsTo d = h.stepsTo d + if depth = d then 1 else 0) →
      (h'.Undisturbed ↔ h.Undisturbed) → Q id s h') :
    (EventRequest.step thread size depth : SessionRoutine RequestId).StepSafe limit s h Q := by
  refine meets_command.mpr ⟨?_, ?_, fun _ _ _ => trivial⟩
  · rintro policy modifiers heq
    cases heq
    exact ⟨hfree.1, hfree.2, fun hd => hinto (Option.some.inj hd)⟩
  · rintro (id : RequestId) h' rfl
    refine hok id _ ?_ (fun d => ?_) ?_
    · exact (History.steps_snoc h _).trans (Moment.pace_set _ _ _ id)
    · rw [History.stepsTo_snoc]
      have hdepth : (Moment.did (.command (.setRequest EventKind.singleStep suspendEventThread
          [.step thread size depth, .count 1])) (.ok id)).stepDepth? = some depth := by
        simp only [Moment.stepDepth?, Command.stepDepth?, if_true]
        rfl
      rw [hdepth]
      by_cases hd : depth = d <;> simp [hd]
    · rw [History.undisturbed_snoc]
      refine and_iff_left fun _ _ _ _ hm => ?_
      cases hm

/-- What a session comes to at an event: it listens on, or it is done. -/
def AfterEvent (limit : UInt32) (r : Option TracePlan.Finished) (s : SessionState) (h : History) :
    Prop :=
  r = none → s.StepsKnown limit h

/-- On the way back another step is made, unless the limit is reached. -/
theorem stepSafe_atPause (hlimit : p.options.settings.maxStepAttempts = limit)
    (hp : s.StepsKnown limit h) (hstep : s.step = none) :
    p.atPause.StepSafe limit s h (AfterEvent limit) := by
  refine (stepFree_mapError (stepFree_command rfl)).andThen fun (count : Int) s₁ h₁ hk hg => ?_
  have hp₁ := hp.kept hk hg
  have hstep₁ : s₁.step = none := hk.step.trans hstep
  refine stepSafe_ite (fun _ => ?_) fun _ => ?_
  · refine (stepSafe_complete p).bind fun finished s₂ h₂ _ => stepSafe_pure ?_
    intro hnone
    cases hnone
  extract_lets most
  have hmost : most = limit := hlimit
  have hgo : (do
      modify fun s => { s with stepAttempts := s.stepAttempts + 1 }
      if most < (← get).stepAttempts then
        throw (.tracing s!"did not return to the invoking frame after {most} steps")
      let step ← EventRequest.stepInto p.thread
      modify fun s => { s with step := some step }
      p.resume : SessionRoutine Unit).StepSafe limit s₁ h₁ fun _ => StepsKnown limit := by
    refine stepSafe_modify_bind <| stepSafe_get_bind ?_
    refine stepSafe_ite (fun _ => stepSafe_throw) fun hmore => ?_
    -- The count went up by one and is compared as a number of 32 bits, which a limit below the
    -- greatest one keeps from wrapping around.
    have hless : limit.toNat + 1 < UInt32.size → h₁.stepsTo StepDepth.into < limit.toNat := by
      intro hsize
      have hle := hp₁.limited hsize
      rw [hmost] at hmore
      exact Nat.not_le.mp fun hreached => hmore ((hp₁.exceeds (by omega)).mpr hreached)
    refine StepSafe.bind (step_stepSafe (hp₁.free hstep₁) (fun _ => hless)
      (Q := fun id s' h' => s' = { s₁ with stepAttempts := s₁.stepAttempts + 1 } ∧
        StepsKnown limit { s' with step := some id } h') fun id h₂ hsteps hcount hu => ⟨rfl, ?_⟩) ?_
    · refine ⟨?_, ?_, ?_, ?_⟩
      · show s₁.stepAttempts + 1 = _
        rw [hcount, if_pos rfl, hp₁.attempts]
        exact (UInt32.ofNat_add _ 1).symm
      · rw [hcount, if_pos rfl]
        exact fun hsize => hless hsize
      · rw [hcount]
        exact hp₁.out
      · obtain ⟨older, hsub, holder⟩ := hp₁.steps
        rw [hstep₁, Option.toList_none, List.append_nil] at hsub
        refine ⟨older, ?_, fun hcase => holder ?_⟩
        · rw [hsteps]
          exact hsub.append_right _
        · rw [hcount] at hcase
          exact hcase.imp_right hu.mp
    · rintro id s₂ h₂ ⟨rfl, hp₂⟩
      exact stepSafe_modify_bind <| (stepFree_resume p).stepSafe fun _ _ _ => hp₂.kept
  exact StepSafe.bind (stepSafe_mapError hgo) fun _ s₂ h₂ hp₂ => stepSafe_pure fun _ => hp₂

theorem stepSafe_onException (hlimit : p.options.settings.maxStepAttempts = limit)
    (hp : s.StepsKnown limit h) (exception : ObjectId) (caught : Option Location) :
    (p.onException exception caught).StepSafe limit s h (AfterEvent limit) := by
  have hresume : ∀ s h, s.StepsKnown limit h → (do
      TracePlan.failRunning p.resume
      return none : SessionStep (Option TracePlan.Finished)).StepSafe limit s h
        (AfterEvent limit) :=
    fun s h hp => (stepFree_mapError (stepFree_resume p)).andThen fun _ s₁ h₁ hk hg =>
      stepSafe_pure fun _ => hp.kept hk hg
  refine stepSafe_get_bind <| stepSafe_ite (fun _ => hresume s h hp) fun hstep => ?_
  have hnone : s.step = none := by simpa using hstep
  refine (stepFree_mapError (stepFree_escapes p caught)).andThen fun escapes s₁ h₁ hk₁ hg₁ => ?_
  have hp₁ := hp.kept hk₁ hg₁
  refine stepSafe_ite (fun _ => ?_) fun _ => hresume s₁ h₁ hp₁
  refine (stepFree_mapError (stepFree_inBridge fun _ => Bridge.keep_sends _)).andThen
    fun _ s₂ h₂ hk₂ hg₂ => ?_
  have hp₂ := hp₁.kept hk₂ hg₂
  refine stepSafe_get_bind <| stepSafe_modify_bind ?_
  have hk₃ : s₂.Kept { s₂ with thrown := some exception, guard := none } :=
    kept_of_stages rfl rfl rfl
  have hclear : (TracePlan.clearIfSet EventKind.exception s₂.guard :
      SessionRoutine Unit).StepFree limit := by
    cases s₂.guard with
    | none => exact stepFree_pure _
    | some id => exact stepFree_commandAnyway rfl
  refine (stepFree_mapError hclear).andThen fun _ s₄ h₄ hk₄ hg₄ => ?_
  refine (stepFree_publish _).andThen fun _ s₅ h₅ hk₅ hg₅ => ?_
  refine stepSafe_atPause hlimit (((hp₂.kept hk₃ .refl).kept hk₄ hg₄).kept hk₅ hg₅) ?_
  exact (hk₁.trans (hk₂.trans (hk₃.trans (hk₄.trans hk₅)))).step.trans hnone

/-! ## Entries and exits -/

/-- The exit of the last stage asks for a step out, the only one of the trace. -/
theorem stepSafe_leaveStage (hp : s.StepsKnown limit h) (hu : h.Undisturbed → h.steps = [])
    (hout : s.stages.length ≤ k + 1 → h.stepsTo StepDepth.out = 0) (returned : Value) :
    (p.leaveStage k returned).StepSafe limit s h fun _ => StepsKnown limit := by
  have hconsume : (TracePlan.onPoint .exit k Breakpoint.consume).StepSafe limit s h fun _ s' h' =>
      s.Kept s' ∧ h.ContinuedBy Level h' ∧ (s.stages.length ≤ k + 1 → s'.Left) :=
    consume_meets_left .exit k (fun s' h' hk hg hleft => ⟨hk, hg, hleft rfl⟩)
      fun _ _ _ _ _ => trivial
  refine hconsume.bind ?_
  rintro - s₁ h₁ ⟨hk₁, hg₁, hleft₁⟩
  have hp₁ := hp.kept hk₁ hg₁
  refine stepSafe_get_bind <| stepSafe_ite (fun _ => ?_) fun hlast => ?_
  · exact (stepFree_passOn p k returned).stepSafe fun _ _ _ => hp₁.kept
  have hlength : s.stages.length ≤ k + 1 := by
    rw [← hk₁.length]
    exact Nat.not_lt.mp hlast
  refine (stepFree_onHandler fun handler probe bridge hstep =>
    handler.afterCall_sends probe hstep returned).andThen fun _ s₂ h₂ hk₂ hg₂ => ?_
  have hp₂ := hp₁.kept hk₂ hg₂
  have hg := hg₁.trans hg₂
  have hleft : s₂.Left := hk₂.left (hleft₁ hlength)
  have hout₂ : h₂.stepsTo StepDepth.out = 0 := (hg.stepsTo _).trans (hout hlength)
  have hu₂ : h₂.Undisturbed → h₂.steps = [] := by
    rw [hg.undisturbed, hg.steps]
    exact hu
  obtain ⟨older, hsub, holder⟩ := hp₂.steps
  rw [holder (.inl hout₂), Option.toList_none, List.nil_append] at hsub
  have hone : h₂.steps.length ≤ 1 :=
    hsub.length_le.trans (by cases s₂.step <;> simp)
  refine StepSafe.bind (step_stepSafe ⟨hone, hu₂⟩ (fun hd => absurd hd (by decide))
    (Q := fun id s' h' => s' = s₂ ∧ StepsKnown limit { s₂ with step := some id } h')
    fun id h₃ hsteps hcount hu₃ => ⟨rfl, ?_⟩) ?_
  · -- A step that was requested already is still requested, beside the new one.
    refine ⟨?_, ?_, .inr hleft, ?_⟩
    · rw [hcount]
      exact hp₂.attempts
    · rw [hcount]
      exact hp₂.limited
    · classical
      refine ⟨if h₂.Undisturbed then none else s₂.step, ?_, ?_⟩
      · rw [hsteps]
        by_cases hquiet : h₂.Undisturbed
        · rw [if_pos hquiet, hu₂ hquiet]
          exact .refl _
        · rw [if_neg hquiet]
          exact hsub.append_right _
      · rw [hcount, hu₃]
        rintro (hzero | hquiet)
        · simp at hzero
        · exact if_pos hquiet
  · rintro id s₃ h₃ ⟨rfl, hp₃⟩
    exact stepSafe_modify_bind <| (stepFree_publish _).stepSafe fun _ _ _ => hp₃.kept

/-- The stage whose exit is requested was not left for good. -/
theorem out_of_stageOf? {request : RequestId} (hp : s.StepsKnown limit h)
    (hk : s.stageOf? .exit request = some k) (hlast : s.stages.length ≤ k + 1) :
    h.stepsTo StepDepth.out = 0 := by
  rcases hp.out with hzero | ⟨b, hb, hnone, -⟩
  · exact hzero
  · obtain ⟨c, hc, hrequest⟩ := point?_of_stageOf? hk
    obtain ⟨stage, hstage, -⟩ := Option.map_eq_some_iff.mp hc
    have hlt := (List.getElem?_eq_some_iff.mp hstage).1
    rw [show s.stages.length - 1 = k by omega, hc] at hb
    rw [← Option.some.inj hb, hrequest] at hnone
    cases hnone

theorem stepSafe_atMethodEvent {edge : MethodEdge} {request : RequestId} {l : Location}
    {returned : Value} (hp : s.StepsKnown limit h)
    (hu : edge = .exit → h.Undisturbed → h.steps = []) :
    (p.atMethodEvent edge request l returned).StepSafe limit s h fun _ => StepsKnown limit := by
  refine stepSafe_get_bind ?_
  split
  · exact stepSafe_pure hp
  rename_i k hk
  refine (stepFree_stageAt k).andThen fun stage s₁ h₁ hk₁ hg₁ => ?_
  have hp₁ := hp.kept hk₁ hg₁
  have hresume : ∀ s' h', s'.StepsKnown limit h' → (p.resume).StepSafe limit s' h' fun _ =>
    StepsKnown limit :=
    fun s' h' hp' => (stepFree_resume p).stepSafe fun _ _ _ => hp'.kept
  cases edge with
  | entry =>
      refine (stepFree_inMethods (plain_isAt stage.entry l)).andThen fun isAt s₂ h₂ hk₂ hg₂ => ?_
      have hp₂ := hp₁.kept hk₂ hg₂
      split
      · exact (stepFree_enterStage p k).andThen fun _ s₃ h₃ hk₃ hg₃ =>
          hresume _ _ (hp₂.kept hk₃ hg₃)
      · exact hresume _ _ hp₂
  | exit =>
      refine (stepFree_inMethods (plain_isAt stage.exit l)).andThen fun isAt s₂ h₂ hk₂ hg₂ => ?_
      have hp₂ := hp₁.kept hk₂ hg₂
      have hkept := hk₁.trans hk₂
      have hg := hg₁.trans hg₂
      split
      · refine StepSafe.bind (stepSafe_leaveStage hp₂ ?_ (fun hlast => ?_) returned) fun _ =>
          hresume
        · rw [hg.undisturbed, hg.steps]
          exact hu rfl
        · rw [hg.stepsTo]
          exact out_of_stageOf? hp hk (hkept.length ▸ hlast)
      · exact hresume _ _ hp₂

/-! ## Events -/

theorem stepSafe_onEvent (hlimit : p.options.settings.maxStepAttempts = limit)
    (hp : s.StepsKnown limit h) (e : Event) :
    (p.onEvent e).StepSafe limit s (h ++ [.heard e]) (AfterEvent limit) := by
  have hp₁ := hp.heard e
  have hidle : (pure none : SessionStep (Option TracePlan.Finished)).StepSafe limit s
      (h ++ [.heard e]) (AfterEvent limit) := stepSafe_pure fun _ => hp₁
  have hmethod : ∀ edge request l returned,
      (edge = .exit → History.Undisturbed (h ++ [.heard e]) →
        History.steps (h ++ [.heard e]) = []) → (do
        TracePlan.failRunning (p.atMethodEvent edge request l returned)
        return none : SessionStep (Option TracePlan.Finished)).StepSafe limit s (h ++ [.heard e])
          (AfterEvent limit) := fun edge request l returned hu =>
    StepSafe.bind (stepSafe_mapError (stepSafe_atMethodEvent hp₁ hu)) fun _ _ _ hp₂ =>
      stepSafe_pure fun _ => hp₂
  unfold TracePlan.onEvent
  refine stepSafe_ite (fun _ => hidle) fun _ => ?_
  cases e with
  | vmDeath => exact stepSafe_throw
  | methodEntry request t l =>
      refine hmethod .entry request l .void fun hedge => ?_
      cases hedge
  | methodExitWithValue request t l v =>
      refine hmethod .exit request l v fun _ hu => ?_
      rw [History.steps_snoc]
      exact ((History.undisturbed_snoc h _).mp hu).2 request t l v rfl
  | singleStep request t l =>
      refine stepSafe_get_bind <| stepSafe_ite (fun hown => ?_) fun _ => hidle
      refine stepSafe_modify_bind <| StepSafe.bind (stepSafe_clear (Q := fun _ s' h' =>
        s'.StepsKnown limit h' ∧ s'.step = none) fun r => ⟨?_, rfl⟩) fun _ s₁ h₁ hp₂ => ?_
      · exact (hp.ended hown t l).cleared _ _ r
      · exact stepSafe_atPause hlimit hp₂.1 hp₂.2
  | exception request t l exception caught =>
      exact stepSafe_get_bind <|
        stepSafe_ite (fun _ => stepSafe_onException hlimit hp₁ exception caught)
        fun _ => hidle
  | _ => exact hidle

/-! ## Setting up -/

/-- Nothing happened about steps since the trace began. -/
structure Unmoved (s : SessionState) (h : History) : Prop where
  step : s.step = none
  attempts : s.stepAttempts = 0
  continuedBy : History.ContinuedBy Level [] h

theorem Unmoved.kept (hu : Unmoved s h) (hk : s.Kept s') (hg : h.ContinuedBy Level h') :
    Unmoved s' h' :=
  ⟨hk.step.trans hu.step, hk.attempts.trans hu.attempts, hu.continuedBy.trans hg⟩

theorem Unmoved.stepsKnown (hu : Unmoved s h) : s.StepsKnown limit h where
  attempts := by
    rw [hu.attempts, hu.continuedBy.stepsTo]
    rfl
  limited := by
    rw [hu.continuedBy.stepsTo]
    exact fun _ => Nat.zero_le limit.toNat
  out := .inl (hu.continuedBy.stepsTo _)
  steps := ⟨none, by rw [hu.continuedBy.steps]; exact List.nil_sublist _, fun _ => rfl⟩

theorem stepSafe_placeStages (calls : List (StageHandler × MethodSignature)) (hu : Unmoved s h) :
    (TracePlan.placeStages calls).StepSafe limit s h fun _ => Unmoved := by
  induction calls generalizing s h with
  | nil => exact stepSafe_pure hu
  | cons call rest ih =>
      obtain ⟨handler, signature⟩ := call
      refine (stepFree_inMethods (plain_create .entry signature)).andThen
        fun entry s₁ h₁ hk₁ hg₁ => ?_
      refine (stepFree_inMethods (plain_create .exit signature)).andThen
        fun exit s₂ h₂ hk₂ hg₂ => ?_
      have hu₂ := (hu.kept hk₁ hg₁).kept hk₂ hg₂
      exact stepSafe_modify_bind (ih ⟨hu₂.step, hu₂.attempts, hu₂.continuedBy⟩)

theorem stepFree_preload (p : TracePlan) (names : List String) :
    (p.preload names).StepFree limit := by
  induction names with
  | nil => exact stepFree_pure _
  | cons name rest ih =>
      exact StepFree.bind (stepFree_inBridge fun _ =>
        (Bridge.resolveType_sends p.bridge (.inl rfl)).mono fun _ _ _ => trivial) fun _ => ih

theorem stepFree_substituteSource (p : TracePlan) : p.substituteSource.StepFree limit := by
  unfold TracePlan.substituteSource
  split
  · exact stepFree_pure _
  · refine stepFree_get_bind fun _ => stepFree_ite (fun _ => stepFree_throw _) fun _ => ?_
    refine StepFree.bind (stepFree_frameOnTop _) fun frame => ?_
    refine StepFree.bind (stepFree_command rfl) fun (table : Nat × List VariableInfo) => ?_
    split
    · exact stepFree_throw _
    · refine StepFree.bind (stepFree_command rfl) fun (values : List Value) => ?_
      split
      · exact stepFree_throw _
      · extract_lets source write
        have hwrite : ∀ stream, (write stream).StepFree limit := fun stream =>
          StepFree.bind (stepFree_commandOr rfl) fun _ =>
            stepFree_modify fun _ => kept_of_stages rfl rfl rfl
        have hsource : ∀ bridge, source.CanStep true bridge := fun bridge =>
          ⟨⟨.inl rfl, .inl rfl⟩, fun _ _ => .inl rfl⟩
        refine stepFree_get_bind fun s => ?_
        refine StepFree.bind (stepFree_inBridge fun bridge =>
          (source.afterCall_sends _ (hsource bridge) _).mono fun _ _ _ => trivial) fun stream => ?_
        refine stepFree_get_bind fun s' => stepFree_ite (fun _ => hwrite _) fun _ => ?_
        exact StepFree.bind (stepFree_onHandler fun handler probe bridge hstep =>
          handler.beforeCall_sends probe hstep _) fun _ => hwrite _

theorem stepSafe_prepare (p : TracePlan) (places : Places) (hu : Unmoved s h) :
    (p.prepare places).StepSafe limit s h fun _ => Unmoved := by
  refine stepSafe_modify_bind ?_
  have hu₀ : Unmoved { s with hasSourceStage := places.source.isSome } h :=
    ⟨hu.step, hu.attempts, hu.continuedBy⟩
  refine (stepSafe_placeStages _ hu₀).bind fun _ s₁ h₁ hu₁ => stepSafe_get_bind ?_
  extract_lets matchers finish
  have hfinish : (finish ()).StepFree limit := by
    refine StepFree.bind (stepFree_command rfl) fun (guard : RequestId) => ?_
    refine StepFree.bind (stepFree_modify fun _ => kept_of_stages rfl rfl rfl) fun _ => ?_
    refine stepFree_get_bind fun s => stepFree_ite (fun _ => ?_) fun _ => stepFree_pure _
    exact stepFree_enable .entry 0 p.thread
  refine (stepFree_preload p _).andThen fun _ s₂ h₂ hk₂ hg₂ => ?_
  refine (stepFree_inBridge fun _ => Probe.new_sends _ (.inl rfl)).andThen
    fun probe s₃ h₃ hk₃ hg₃ => ?_
  have hu₃ := (hu₁.kept hk₂ hg₂).kept hk₃ hg₃
  refine stepSafe_modify_bind ?_
  have hu₄ : Unmoved { s₃ with clock := probe.clock } h₃ :=
    ⟨hu₃.step, hu₃.attempts, hu₃.continuedBy⟩
  refine stepSafe_get_bind <| stepSafe_ite (fun _ => ?_) fun _ => hfinish.stepSafe fun _ _ _ =>
    hu₄.kept
  refine (stepFree_publish _).andThen fun _ s₅ h₅ hk₅ hg₅ => ?_
  refine (stepFree_substituteSource p).andThen fun _ s₆ h₆ hk₆ hg₆ => ?_
  have hu₆ := (hu₄.kept hk₅ hg₅).kept hk₆ hg₆
  exact hfinish.stepSafe fun _ _ _ => hu₆.kept

theorem stepSafe_setup (p : TracePlan) (hu : Unmoved s h) :
    p.setup.StepSafe limit s h fun _ => StepsKnown limit := by
  refine (stepFree_publish _).andThen fun _ s₁ h₁ hk₁ hg₁ => ?_
  have hu₁ := hu.kept hk₁ hg₁
  refine StepSafe.bind
    (stepSafe_mapError (meets_ofExcept.mpr ⟨fun places _ => hu₁, fun _ _ => trivial⟩ :
    (Routine.ofExcept (p.options.findPlaces p.chain) : SessionRoutine Places).StepSafe limit s₁ h₁
      fun _ => Unmoved)) fun places s₂ h₂ hu₂ => ?_
  refine StepSafe.bind (stepSafe_mapError (stepSafe_prepare p places hu₂)) fun _ s₃ h₃ hu₃ => ?_
  refine (stepFree_publish _).andThen fun _ s₄ h₄ hk₄ hg₄ => ?_
  refine (stepFree_perform fun c hc => ?_).andThen fun (now : Nat) s₅ h₅ hk₅ hg₅ => ?_
  · cases hc
  have hu₅ := (hu₃.kept hk₄ hg₄).kept hk₅ hg₅
  refine stepSafe_modify_bind <| stepSafe_mapError <|
    (stepFree_command rfl).stepSafe fun _ s₆ h₆ hk₆ hg₆ => ?_
  have hu' : Unmoved { s₅ with startedAt := now } h₅ := ⟨hu₅.step, hu₅.attempts, hu₅.continuedBy⟩
  exact (hu'.kept hk₆ hg₆).stepsKnown

end SessionRoutine

/-! ## Programs of a trace -/

namespace ActiveTrace

/-- What is left when a program of a trace ends: nothing, or a trace that listens and knows about
its steps. -/
def StepsKnown (limit : UInt32) (k : Continuation) (h : History) : Prop :=
  match k with
  | .finished => True
  | .listen t => t.plan.options.settings.maxStepAttempts = limit ∧ t.state.StepsKnown limit h

/-- Nothing but steps is limited. -/
theorem perform_stepSafe {a : Action} (ha : ∀ c, a = .command c → ¬c.SetsStep)
    {post : a.Reply → History → Prop} (hpost : ∀ r h', post r h') :
    (Program.perform a).Meets (.stepping limit) post h :=
  Program.meets_perform.mpr ⟨History.maySetStep_of_not_setsStep ha, fun r h' _ => hpost r h'⟩

theorem fail_stepSafe (expression : String) (failure : TraceFailure) :
    (fail expression failure).Meets (.stepping limit) (fun _ _ => True) h := by
  unfold fail
  refine (Program.meets_bind _ _ _ _).mpr <| perform_stepSafe (fun c hc => ?_) fun _ h₁ => ?_
  · cases hc
  refine (Program.meets_bind _ _ _ _).mpr <| perform_stepSafe (fun c hc => ?_) fun _ h₂ => trivial
  cases hc

theorem stepSafe_dispose :
    (TracePlan.dispose : Routine ε SessionState Unit).StepSafe limit s h fun _ _ _ => True := by
  have hall : ∀ (ids : List ObjectId) (bridge : BridgeState) (h : History),
      (Bridge.enableAll ids : Routine ε BridgeState Unit).Meets (.stepping limit)
        (fun _ _ _ => True) (fun _ _ _ => True) bridge h := by
    intro ids
    induction ids with
    | nil => exact fun _ _ => meets_pure.mpr trivial
    | cons id rest ih =>
        intro bridge h
        refine meets_bind.mpr <| meets_commandAnyway.mpr ⟨?_, fun _ h' _ => ih bridge h'⟩
        refine History.maySetStep_of_not_setsStep fun c hc => ?_
        cases hc
        exact Command.not_setsStep_of_isLevel rfl
  unfold TracePlan.dispose Bridge.dispose
  refine StepSafe.bind (Q := fun _ _ _ => True) ?_ fun _ _ _ _ => stepSafe_pure trivial
  refine meets_within.mpr <| meets_bind.mpr <| meets_get.mpr ?_
  split
  · exact meets_pure.mpr trivial
  · refine meets_bind.mpr <| meets_set.mpr <| meets_bind.mpr <| Meets.mono (hall _ _ _) ?_ ?_
    · exact fun _ _ _ _ => meets_pure.mpr trivial
    · exact fun _ _ _ _ => trivial

theorem finish_stepSafe (s : SessionState) :
    (do
      let _ ← (TracePlan.dispose : Routine Unit SessionState Unit) s
      return Continuation.finished : Program Continuation).Meets (.stepping limit)
        (StepsKnown limit)
        h :=
  (Program.meets_bind _ _ _ _).mpr <| Routine.Meets.program stepSafe_dispose
    (fun _ _ _ _ => trivial) fun _ _ _ _ => trivial

theorem giveUp_stepSafe (t : ActiveTrace) (failure : TraceFailure) :
    (t.giveUp failure).Meets (.stepping limit) (StepsKnown limit) h := by
  have hfinish : ∀ (s : SessionState) (h : History), (do
      fail t.plan.chain.text failure
      let _ ← (TracePlan.dispose : Routine Unit SessionState Unit) s
      return Continuation.finished : Program Continuation).Meets (.stepping limit)
        (StepsKnown limit)
        h := fun s h =>
    (Program.meets_bind _ _ _ _).mpr <| Program.Meets.mono (fail_stepSafe _ _) fun _ h' _ =>
      finish_stepSafe s
  unfold giveUp
  exact (Program.meets_bind _ _ _ _).mpr <| Routine.Meets.program (stepSafe_takeBack t.plan)
    (fun _ s' h' _ => hfinish s' h') fun _ s' h' _ => hfinish s' h'

theorem succeed_stepSafe (t : ActiveTrace) (finished : TracePlan.Finished) :
    (t.succeed finished).Meets (.stepping limit) (StepsKnown limit) h := by
  unfold succeed
  refine (Program.meets_bind _ _ _ _).mpr <| perform_stepSafe (fun c hc => ?_) fun _ h₁ => ?_
  · cases hc
  refine (Program.meets_bind _ _ _ _).mpr <| perform_stepSafe (fun c hc => ?_) fun _ h₂ => ?_
  · cases hc
  exact finish_stepSafe t.state

theorem onEvent_stepSafe {t : ActiveTrace}
    (hlimit : t.plan.options.settings.maxStepAttempts = limit) (hp : t.state.StepsKnown limit h)
    (e : Event) : (t.onEvent e).Meets (.stepping limit) (StepsKnown limit) (h ++ [.heard e]) := by
  unfold ActiveTrace.onEvent
  refine (Program.meets_bind _ _ _ _).mpr <| Routine.Meets.program (stepSafe_onEvent hlimit hp e)
    ?_ ?_
  · intro r s' h' honward
    cases r with
    | none => exact ⟨hlimit, honward rfl⟩
    | some finished => exact succeed_stepSafe _ finished
  · exact fun failure s' h' _ => giveUp_stepSafe _ failure

theorem begin_stepSafe (options : TraceOptions) (chain : StreamChain) (thread : ThreadId) :
    (TracePlan.begin options chain thread : Routine TraceError Unit TracePlan).Meets
      (.stepping limit) (fun p _ h' => h.ContinuedBy Level h' ∧ p.options = options)
      (fun _ _ _ => True) () h := by
  unfold TracePlan.begin frameOnTop
  refine meets_bind.mpr <| meets_bind.mpr <| Meets.mono (plain_command rfl () h)
    (fun (frames : List FrameInfo) _ h₁ hg₁ => ?_) fun _ _ _ _ => trivial
  split
  · refine meets_pure.mpr <| meets_bind.mpr <| Meets.mono (plain_command rfl () h₁)
      (fun (count : Int) _ h₂ hg₂ => ?_) fun _ _ _ _ => trivial
    exact meets_pure.mpr ⟨hg₁.trans hg₂, rfl⟩
  · exact meets_throw.mpr trivial

theorem start_stepSafe (options : TraceOptions) (request : TraceRequest) :
    (ActiveTrace.start options request).Meets
      (.stepping options.settings.maxStepAttempts)
      (StepsKnown options.settings.maxStepAttempts) [] := by
  unfold ActiveTrace.start
  refine (Program.meets_bind _ _ _ _).mpr <| Routine.Meets.program (begin_stepSafe _ _ _) ?_ ?_
  · rintro p - h₁ ⟨hg, hoptions⟩
    refine (Program.meets_bind _ _ _ _).mpr <| Routine.Meets.program
      (stepSafe_setup p ⟨rfl, rfl, hg⟩) ?_ ?_
    · exact fun _ s' h' hp => ⟨by rw [hoptions], hp⟩
    · exact fun failure s' h' _ => giveUp_stepSafe _ failure
  · intro e _ h' _
    exact (Program.meets_bind _ _ _ _).mpr <| Program.Meets.mono (fail_stepSafe _ _)
      fun _ h'' _ => trivial

end ActiveTrace

/-- Along every run of a trace the steps are bounded. -/
theorem TraceRun.stepBounds {options : TraceOptions} {request : TraceRequest}
    {q : Program Continuation} (run : TraceRun options request h q) :
    h.StepBounds options.settings.maxStepAttempts ∧
      q.Meets (.stepping options.settings.maxStepAttempts)
        (ActiveTrace.StepsKnown options.settings.maxStepAttempts) h :=
  TraceRun.induction (ActiveTrace.start_stepSafe options request)
    (fun _ _ e hq _ => ActiveTrace.onEvent_stepSafe hq.1 hq.2 e)
    (fun t _ failure _ _ => ActiveTrace.giveUp_stepSafe t failure)
    .nil (fun _ _ r hs ha => hs.did r ha) (fun _ _ e _ hs => hs.heard e) run

/-! ## Too many steps -/

/-- The thread did not come back in that many steps. -/
def TraceFailure.astray (limit : UInt32) : TraceFailure :=
  .ofError (.tracing s!"did not return to the invoking frame after {limit} steps")

/-- The request for a step into what is ahead. -/
def Command.stepInto (thread : ThreadId) : Command :=
  .setRequest EventKind.singleStep suspendEventThread
    [.step thread StepSize.min StepDepth.into, .count 1]

/-- What is done with the answer to how many frames there are, on the way back. -/
def TracePlan.GoesBack (p : TracePlan) (attempts : UInt32)
    (counted : Except JdwpError Int →
      Program (Except TraceFailure (Option TracePlan.Finished) × SessionState)) : Prop :=
  ∀ n : Int, p.baseDepth < n →
    (¬p.options.settings.maxStepAttempts < attempts + 1 →
      ∃ next, counted (.ok n) = .act (.command (.stepInto p.thread)) next) ∧
    (p.options.settings.maxStepAttempts < attempts + 1 → ∃ s',
      counted (.ok n) = .done (.error (.astray p.options.settings.maxStepAttempts), s'))

theorem TracePlan.atPause_counts (p : TracePlan) (s : SessionState) :
    ∃ counted, p.atPause s = .act (.command (.frameCount p.thread)) counted ∧
      p.GoesBack s.stepAttempts counted := by
  refine ⟨_, rfl, fun n hn => ?_⟩
  have hdeep : ¬n ≤ p.baseDepth := by omega
  constructor
  · intro hmore
    show ∃ next, (if n ≤ p.baseDepth then _ else _ : SessionStep (Option TracePlan.Finished)) s = _
    rw [if_neg hdeep]
    show ∃ next, ((if p.options.settings.maxStepAttempts < s.stepAttempts + 1 then _
      else _ : SessionRoutine Unit) _ >>= _) >>= _ = _
    rw [if_neg hmore]
    exact ⟨_, rfl⟩
  · intro hmore
    show ∃ s', (if n ≤ p.baseDepth then _ else _ : SessionStep (Option TracePlan.Finished)) s = _
    rw [if_neg hdeep]
    show ∃ s', ((if p.options.settings.maxStepAttempts < s.stepAttempts + 1 then _
      else _ : SessionRoutine Unit) _ >>= _) >>= _ = _
    rw [if_pos hmore]
    exact ⟨_, rfl⟩

/-- What a trace does with what its session came to at an event. -/
def ActiveTrace.conclude (t : ActiveTrace)
    (x : Except TraceFailure (Option TracePlan.Finished) × SessionState) : Program Continuation :=
  match x.1 with
  | .ok none => return .listen { t with state := x.2 }
  | .ok (some finished) => succeed { t with state := x.2 } finished
  | .error failure => giveUp { t with state := x.2 } failure

/-- When the step that the session waits for has ended, its request is cleared and the way back is
gone on with. -/
theorem TracePlan.onEvent_stepped {id : RequestId} (hstep : s.step = some id) (l : Location) :
    p.onEvent (.singleStep id p.thread l) s =
      .act (.command (.clearRequest EventKind.singleStep id)) fun _ =>
        p.atPause { s with step := none } := by
  unfold TracePlan.onEvent
  rw [if_neg (by simp [Event.thread?])]
  show (if s.step = some id then _ else _ : SessionStep (Option TracePlan.Finished)) s = _
  rw [if_pos hstep]
  rfl

/-- If the trace finds its thread too deep then, it makes one more step, or is given up. -/
theorem ActiveTrace.onEvent_stepped {t : ActiveTrace} {id : RequestId}
    (hstep : t.state.step = some id) (l : Location) :
    ∃ counted : Except JdwpError Int → Program Continuation,
      t.onEvent (.singleStep id t.plan.thread l) =
        .act (.command (.clearRequest EventKind.singleStep id)) (fun _ =>
          .act (.command (.frameCount t.plan.thread)) counted) ∧
      ∀ n : Int, t.plan.baseDepth < n →
        (¬t.plan.options.settings.maxStepAttempts < t.state.stepAttempts + 1 →
          ∃ next, counted (.ok n) = .act (.command (.stepInto t.plan.thread)) next) ∧
        (t.plan.options.settings.maxStepAttempts < t.state.stepAttempts + 1 → ∃ t',
          counted (.ok n) = giveUp t' (.astray t.plan.options.settings.maxStepAttempts)) := by
  obtain ⟨counted, hcounts, hback⟩ := t.plan.atPause_counts { t.state with step := none }
  refine ⟨fun r => counted r >>= t.conclude, ?_, fun n hn => ⟨fun hmore => ?_, fun hmore => ?_⟩⟩
  · show t.plan.onEvent (.singleStep id t.plan.thread l) t.state >>= t.conclude = _
    rw [TracePlan.onEvent_stepped hstep, hcounts]
    rfl
  · obtain ⟨next, hnext⟩ := (hback n hn).1 hmore
    exact ⟨fun r => next r >>= t.conclude, congrArg (· >>= t.conclude) hnext⟩
  · obtain ⟨s', hs'⟩ := (hback n hn).2 hmore
    exact ⟨{ t with state := s' }, congrArg (· >>= t.conclude) hs'⟩

/-- The steps of a trace, on any target and with any events. At any time at most two requests for a
step are installed, and two only if the exit of a method was reported while one was. The trace asks
for no more steps into what is ahead than its settings allow. Where the step that it waits for ends
too deep it asks for another, and is given up if it has asked for that many. Only the greatest
limit that there is, which the count of the steps cannot exceed, is no limit. -/
theorem TraceRun.steps_limited {options : TraceOptions} {request : TraceRequest}
    {q : Program Continuation} (run : TraceRun options request h q) :
    h.steps.length ≤ 2 ∧ (h.Undisturbed → h.steps.length ≤ 1) ∧
    (options.settings.maxStepAttempts.toNat + 1 < UInt32.size →
      h.stepsTo StepDepth.into ≤ options.settings.maxStepAttempts.toNat) ∧
    ∀ t id l, q = .done (.listen t) → t.state.step = some id →
      ∃ counted : Except JdwpError Int → Program Continuation,
        t.onEvent (.singleStep id t.plan.thread l) =
          .act (.command (.clearRequest EventKind.singleStep id)) (fun _ =>
            .act (.command (.frameCount t.plan.thread)) counted) ∧
        ∀ n : Int, t.plan.baseDepth < n →
          (h.stepsTo StepDepth.into < options.settings.maxStepAttempts.toNat →
            ∃ next, counted (.ok n) = .act (.command (.stepInto t.plan.thread)) next) ∧
          (options.settings.maxStepAttempts.toNat + 1 < UInt32.size →
            h.stepsTo StepDepth.into = options.settings.maxStepAttempts.toNat → ∃ t',
              counted (.ok n) =
                ActiveTrace.giveUp t' (.astray options.settings.maxStepAttempts)) := by
  obtain ⟨hbounds, hmeets⟩ := run.stepBounds
  refine ⟨hbounds.two, hbounds.one, hbounds.limited, ?_⟩
  rintro t id l rfl hstep
  obtain ⟨hlimit, hknown⟩ : t.plan.options.settings.maxStepAttempts =
    options.settings.maxStepAttempts ∧ t.state.StepsKnown options.settings.maxStepAttempts h :=
      hmeets
  obtain ⟨counted, hevent, hback⟩ := ActiveTrace.onEvent_stepped hstep l
  rw [hlimit] at hback
  refine ⟨counted, hevent, fun n hn => ⟨fun hless => ?_, fun hsize hreached => ?_⟩⟩
  · have hfits := options.settings.maxStepAttempts.toNat_lt_size
    refine (hback n hn).1 fun hmore => ?_
    exact Nat.not_le.mpr hless ((hknown.exceeds (by omega)).mp hmore)
  · exact (hback n hn).2 ((hknown.exceeds (by omega)).mpr hreached.ge)

/-! ## An exit that comes too early -/

/-- The same debuggee with a frame more, and with a name for its class. Requests for steps are told
apart by their depth. -/
def obligingDeeper : (a : Action) → a.Reply
  | .command (.frameCount _) => (.ok 3 : Except JdwpError Int)
  | .command (.objectType _) => (.ok 2 : Except JdwpError TypeId)
  | .command (.typeSignature _) => (.ok "LNumbers;" : Except JdwpError String)
  | .command (.setRequest kind _ modifiers) =>
    let id : Nat := match modifiers.findSome? EventModifier.stepDepth? with
      | some depth => 10 + depth.toNat
      | none => kind.toNat
    (.ok id : Except JdwpError RequestId)
  | a => obliging a

/-- The trace of that chain inside its last method. -/
def countAwaited : History × Continuation :=
  countLeft.2.handling obliging (MethodEdge.entry.event 40 1 countPlace .void)

/-- The same after an exception that nobody catches. -/
def countThrown : History × Continuation :=
  countAwaited.2.handling obligingDeeper (.exception 4 1 countPlace 9 none)

/-- The same after the method has returned nevertheless. -/
def countOvertaken : History × Continuation :=
  countThrown.2.handling obligingDeeper (MethodEdge.exit.event 42 1 countPlace (.long 7))

def countOvertakenHistory : History :=
  countStarted.1 ++ countInside.1 ++ countLeft.1 ++ countAwaited.1 ++ countThrown.1 ++
    countOvertaken.1

theorem TraceRun.handling {options : TraceOptions} {request : TraceRequest} {c : Continuation}
    (run : TraceRun options request h (.done c)) (reply : (a : Action) → a.Reply) (e : Event) :
    TraceRun options request (h ++ (c.handling reply e).1) (.done (c.handling reply e).2) := by
  cases c with
  | finished => simpa [Continuation.handling] using run
  | listen t => simpa [Continuation.handling] using (run.event e).transcript reply

theorem countOvertaken_run :
    TraceRun countOptions countRequest countOvertakenHistory (.done countOvertaken.2) :=
  ((((countStarted_run.handling obliging _).handling obliging _).handling obliging _).handling
    obligingDeeper _).handling obligingDeeper _

/-- An exit that comes in while a step is requested leaves two requests for a step. -/
theorem TraceRun.steps_limited_of_overtaken :
    ∃ h k, TraceRun countOptions countRequest h (.done k) ∧ h.steps = [10, 12] ∧
      h.stepsTo StepDepth.into = 1 ∧ ¬h.Undisturbed := by
  have hsteps : countOvertakenHistory.steps = [10, 12] := by decide +kernel
  refine ⟨_, _, countOvertaken_run, hsteps, by decide +kernel, fun hu => ?_⟩
  have hone := (TraceRun.steps_limited countOvertaken_run).2.1 hu
  rw [hsteps] at hone
  exact absurd hone (by decide)

end StreamTrace
