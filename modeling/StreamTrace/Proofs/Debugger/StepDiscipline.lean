import StreamTrace.Proofs.Debugger.Accounts
import StreamTrace.Proofs.Debugger.HandledEvents
import StreamTrace.Proofs.Debugger.StepLedger

/-!
# Steps of a session

A session knows the step it asked for last, and counts the steps into what is ahead. It asks for a
step out once, behind its last stage, whose exit is never requested again; a step into what is ahead
follows on a step that has ended, or on the exception that ends the chain.

Most of what a session does is about no step: its routines are `StepFree`.
-/

namespace StreamTrace

open History (ContinuedBy MaySetStep)
open Moment (Level)
open Routine

variable {limit : UInt32} {s s' : SessionState} {h h' : History} {ε α β : Type} {p : TracePlan}
  {k : Nat}

/-- The target that replies as it likes and records, while the steps are bounded. -/
def Target.stepping (limit : UInt32) : Target History := .recording (MaySetStep limit)

/-! ## What is kept -/

namespace SessionState

/-- The last stage was left. Its exit is never requested again. -/
def Left (s : SessionState) : Prop :=
  ∃ b, s.point? .exit (s.stages.length - 1) = some b ∧ b.request = none ∧ b.consumed = true

/-- The session noted nothing about steps, and a last stage that was left stays so. -/
structure Kept (s s' : SessionState) : Prop where
  step : s'.step = s.step
  attempts : s'.stepAttempts = s.stepAttempts
  length : s'.stages.length = s.stages.length
  left : s.Left → s'.Left

theorem Kept.refl (s : SessionState) : s.Kept s := ⟨rfl, rfl, rfl, id⟩

theorem Kept.trans {s'' : SessionState} (h₁ : s.Kept s') (h₂ : s'.Kept s'') : s.Kept s'' :=
  ⟨h₂.step.trans h₁.step, h₂.attempts.trans h₁.attempts, h₂.length.trans h₁.length,
    fun hl => h₂.left (h₁.left hl)⟩

theorem kept_of_stages (hstep : s'.step = s.step) (hattempts : s'.stepAttempts = s.stepAttempts)
    (hstages : s'.stages = s.stages) : s.Kept s' := by
  refine ⟨hstep, hattempts, by rw [hstages], ?_⟩
  unfold Left point?
  rw [hstages]
  exact id

/-- Only the handler of a stage is replaced. -/
theorem kept_setStage {stage : Stage} {handler : StageHandler}
    (hstage : s.stages[k]? = some stage) : s.Kept (s.setStage k { stage with handler }) := by
  have hlength : (s.setStage k { stage with handler }).stages.length = s.stages.length :=
    List.length_set
  refine ⟨rfl, rfl, hlength, ?_⟩
  rintro ⟨b, hb, hleft⟩
  refine ⟨b, ?_, hleft⟩
  rw [hlength, point?, setStage, List.getElem?_set]
  unfold point? at hb
  split
  · rename_i hk
    subst hk
    rw [hstage] at hb
    rw [if_pos (List.getElem?_eq_some_iff.mp hstage).1]
    exact hb
  · exact hb

/-- Another breakpoint is put in the place of one. The exit of the last stage stays as it is once
the stage was left. -/
theorem kept_setPoint {edge : MethodEdge} {b b' : Breakpoint} (hb : s.point? edge k = some b)
    (hkeep : edge = .exit → b.request = none → b.consumed = true →
      b'.request = none ∧ b'.consumed = true) : s.Kept (s.setPoint edge k b') := by
  have hlength : (s.setPoint edge k b').stages.length = s.stages.length := List.length_modify ..
  refine ⟨rfl, rfl, hlength, ?_⟩
  rintro ⟨c, hc, hnone, hconsumed⟩
  rw [Left, hlength]
  by_cases heq : MethodEdge.exit = edge ∧ s.stages.length - 1 = k
  · obtain ⟨rfl, rfl⟩ := heq
    obtain rfl : b = c := Option.some.inj (hb.symm.trans hc)
    exact ⟨b', point?_setPoint_self hb b', hkeep rfl hnone hconsumed⟩
  · exact ⟨c, by rw [point?_setPoint_of_ne s b' heq, hc], hnone, hconsumed⟩

end SessionState

open SessionState

/-! ## Routines that ask for no step -/

/-- While the routine runs, nothing happens about steps. -/
def Routine.StepFree (limit : UInt32) (t : Routine ε SessionState α) : Prop :=
  ∀ s h, t.Meets (.stepping limit) (fun _ s' h' => s.Kept s' ∧ h.ContinuedBy Level h')
    (fun _ s' h' => s.Kept s' ∧ h.ContinuedBy Level h') s h

namespace Routine

theorem StepFree.meets {t : Routine ε SessionState α} (ht : t.StepFree limit)
    {ok : α → SessionState → History → Prop} {err : ε → SessionState → History → Prop}
    (hok : ∀ a s' h', s.Kept s' → h.ContinuedBy Level h' → ok a s' h')
    (herr : ∀ e s' h', s.Kept s' → h.ContinuedBy Level h' → err e s' h') :
    t.Meets (.stepping limit) ok err s h :=
  (ht s h).mono (fun a s' h' hk => hok a s' h' hk.1 hk.2) fun e s' h' hk => herr e s' h' hk.1 hk.2

theorem stepFree_pure (a : α) : (pure a : Routine ε SessionState α).StepFree limit := fun s _ =>
  meets_pure.mpr ⟨.refl s, .refl⟩

theorem stepFree_throw (e : ε) : (throw e : Routine ε SessionState α).StepFree limit := fun s _ =>
  meets_throw.mpr ⟨.refl s, .refl⟩

theorem StepFree.bind {t : Routine ε SessionState α} {f : α → Routine ε SessionState β}
    (ht : t.StepFree limit) (hf : ∀ a, (f a).StepFree limit) : (t >>= f).StepFree limit := by
  intro s h
  refine meets_bind.mpr <| ht.meets (fun a s' h' hk hg => ?_) fun e s' h' hk hg => ⟨hk, hg⟩
  exact (hf a).meets (fun _ s'' h'' hk' hg' => ⟨hk.trans hk', hg.trans hg'⟩)
    fun _ s'' h'' hk' hg' => ⟨hk.trans hk', hg.trans hg'⟩

theorem stepFree_get_bind {f : SessionState → Routine ε SessionState β}
    (hf : ∀ s, (f s).StepFree limit) : (get >>= f).StepFree limit := fun s h =>
  meets_bind.mpr <| meets_get.mpr (hf s s h)

theorem stepFree_modify {f : SessionState → SessionState}
    (hf : ∀ s : SessionState, s.Kept (f s)) :
    (modify f : Routine ε SessionState PUnit).StepFree limit := fun s _ =>
  meets_modify.mpr ⟨hf s, .refl⟩

theorem stepFree_ite {P : Prop} [Decidable P] {t e : Routine ε SessionState α}
    (ht : P → t.StepFree limit) (he : ¬P → e.StepFree limit) :
    (if P then t else e).StepFree limit := by
  split
  · exact ht ‹_›
  · exact he ‹_›

theorem stepFree_attempt {ε' : Type} {t : Routine ε SessionState α} (ht : t.StepFree limit) :
    (attempt t : Routine ε' SessionState (Except ε α)).StepFree limit := fun s h =>
  meets_attempt.mpr (ht s h)

theorem stepFree_mapError {ε' : Type} {f : ε → ε'} {t : Routine ε SessionState α}
    (ht : t.StepFree limit) : (mapError f t).StepFree limit := fun s h =>
  meets_mapError.mpr (ht s h)

theorem stepFree_perform {a : Action} (ha : ∀ c, a = .command c → c.isLevel = true) :
    (perform a : Routine ε SessionState a.Reply).StepFree limit := by
  intro s h
  refine meets_perform.mpr ⟨History.maySetStep_of_not_setsStep fun c hc => ?_, ?_⟩
  · exact Command.not_setsStep_of_isLevel (ha c hc)
  · rintro r h' rfl
    exact ⟨.refl s, .one (Moment.level_did ha r)⟩

theorem stepFree_commandOr {c : Command} {wrap : JdwpError → TraceError}
    (hc : c.isLevel = true) : (commandOr c wrap : Routine _ SessionState _).StepFree limit := by
  refine StepFree.bind (stepFree_perform ?_) fun r => ?_
  · rintro c' heq
    cases heq
    exact hc
  · cases r with
    | ok reply => exact stepFree_pure reply
    | error e => exact stepFree_throw _

theorem stepFree_command {c : Command} (hc : c.isLevel = true) :
    (command c : Routine _ SessionState _).StepFree limit :=
  stepFree_commandOr hc

theorem stepFree_commandAnyway {c : Command} (hc : c.isLevel = true) :
    (commandAnyway c : Routine ε SessionState Unit).StepFree limit := by
  refine StepFree.bind (stepFree_perform ?_) fun _ => stepFree_pure _
  rintro c' heq
  cases heq
  exact hc

theorem stepFree_publish (state : TraceState) :
    (TracePlan.publish state : Routine ε SessionState Unit).StepFree limit :=
  stepFree_perform fun _ hc => by cases hc

end Routine

namespace SessionRoutine

/-- What the bridge sends is about no step. -/
theorem hosts_stepping (h₀ : History) :
    (Target.stepping limit).Hosts (BridgeRoutine.BridgeCommand true)
    (fun _ h => h₀.ContinuedBy Level h)
      (fun _ h => h₀.ContinuedBy Level h) where
  asks _ hc _ := History.maySetStep_of_not_setsStep fun c' heq => by
    cases heq
    exact Command.not_setsStep_of_isLevel (Command.isLevel_of_servesBridge hc.1)
  answers := by
    rintro s g c r _ hg hc - rfl
    exact hg.snoc (Moment.level_sent (Command.isLevel_of_servesBridge hc.1) r)
  lists := by
    rintro s g type methods _ hg rfl
    exact hg.snoc (Moment.level_sent (c := .typeMethods type) rfl _)
  admits _ hc _ := History.maySetStep_of_not_setsStep fun c' heq => by
    cases heq
    exact Command.not_setsStep_of_isLevel rfl
  pins := by
    rintro s g id _ className hg - - rfl
    exact hg.snoc (Moment.level_sent (c := .disableCollection id) rfl _)
  refuses := by
    rintro s g id e _ hg - - rfl
    exact hg.snoc (Moment.level_sent (c := .disableCollection id) rfl _)
  fails hg := hg
  others _ _ hg := hg

theorem stepFree_inBridge {t : BridgeRoutine α}
    (ht : ∀ bridge, t.Sends (BridgeRoutine.BridgeCommand true) bridge) :
    (TracePlan.inBridge t).StepFree limit := by
  intro s h
  refine meets_within.mpr <| Meets.mono ((ht s.bridge).meets (hosts_stepping h) .refl) ?_ ?_
  · rintro a bridge h' ⟨-, hg⟩
    exact ⟨kept_of_stages rfl rfl rfl, hg⟩
  · rintro e bridge h' ⟨-, hg⟩
    exact ⟨kept_of_stages rfl rfl rfl, hg⟩

theorem stepFree_stageAt (k : Nat) : (TracePlan.stageAt k).StepFree limit := by
  refine stepFree_get_bind fun s => ?_
  split
  · exact stepFree_pure _
  · exact stepFree_throw _

theorem stepFree_onHandler {step : StageHandler → Probe → BridgeRoutine (StageHandler × α)}
    (hstep : ∀ handler probe bridge, handler.CanStep true bridge →
      (step handler probe).Sends (BridgeRoutine.BridgeCommand true) bridge fun r _ =>
        r.1.matcher? = handler.matcher?) : (p.onHandler k step).StepFree limit := by
  intro s h
  unfold TracePlan.onHandler TracePlan.stageAt
  refine meets_bind.mpr <| meets_bind.mpr <| meets_get.mpr ?_
  split
  · rename_i stage hstage
    refine meets_pure.mpr <| meets_bind.mpr <| meets_get.mpr ?_
    have hsends := hstep stage.handler (p.probe s) s.bridge
      ⟨⟨.inl rfl, .inl rfl⟩, fun _ _ => .inl rfl⟩
    refine meets_bind.mpr <| meets_within.mpr <|
      Meets.mono (hsends.meets (hosts_stepping h) .refl) ?_ ?_
    · rintro ⟨handler, a⟩ bridge h' ⟨-, hg⟩
      refine meets_bind.mpr <| meets_modify.mpr <| meets_pure.mpr ⟨?_, hg⟩
      have hbridge : s.Kept { s with bridge } := kept_of_stages rfl rfl rfl
      exact hbridge.trans (kept_setStage hstage)
    · rintro e bridge h' ⟨-, hg⟩
      exact ⟨kept_of_stages rfl rfl rfl, hg⟩
  · exact meets_throw.mpr ⟨.refl s, .refl⟩

/-! ### Breakpoints -/

/-- What the routine does about breakpoints and methods is about no step. -/
def Plain {σ : Type} (limit : UInt32) (t : Routine TraceError σ α) : Prop :=
  ∀ st h, t.Meets (.stepping limit) (fun _ _ h' => h.ContinuedBy Level h')
    (fun _ _ h' => h.ContinuedBy Level h')
    st h

theorem plain_command {σ : Type} {c : Command} (hc : c.isLevel = true) :
    Plain limit (command c : Routine TraceError σ c.Reply) := by
  intro st h
  refine meets_command.mpr ⟨History.maySetStep_of_not_setsStep ?_, ?_, ?_⟩
  · rintro c' heq
    cases heq
    exact Command.not_setsStep_of_isLevel hc
  · rintro r h' rfl
    exact .one (Moment.level_sent hc _)
  · rintro e h' rfl
    exact .one (Moment.level_sent hc _)

theorem Plain.bind {σ : Type} {t : Routine TraceError σ α} {f : α → Routine TraceError σ β}
    (ht : Plain limit t) (hf : ∀ a, Plain limit (f a)) : Plain limit (t >>= f) := by
  intro st h
  refine meets_bind.mpr <| (ht st h).mono (fun a st' h' hg => ?_) fun _ _ _ hg => hg
  exact (hf a st' h').mono (fun _ _ _ hg' => hg.trans hg') fun _ _ _ hg' => hg.trans hg'

theorem plain_methodsOf (type : TypeId) : Plain limit (Breakpoint.methodsOf type) := by
  intro methods h
  unfold Breakpoint.methodsOf
  refine meets_bind.mpr <| meets_get.mpr ?_
  split
  · exact meets_pure.mpr .refl
  · have hnote : ∀ listed : List MethodInfo, Plain limit (do
        modify (·.set type listed)
        return listed : Routine TraceError MethodLists (List MethodInfo)) := fun listed _ _ =>
      meets_bind.mpr <| meets_modify.mpr <| meets_pure.mpr .refl
    exact (plain_command (c := .typeMethods type) rfl).bind hnote methods h

theorem plain_isAt (b : Breakpoint) (l : Location) : Plain limit (b.isAt l) := by
  refine Plain.bind (plain_methodsOf _) fun methods st h => ?_
  split <;> exact meets_pure.mpr .refl

theorem plain_create (edge : MethodEdge) (signature : MethodSignature) :
    Plain limit (Breakpoint.create edge signature) := by
  unfold Breakpoint.create
  refine Plain.bind (plain_command rfl) fun (classes : List ClassInfo) => ?_
  split
  · exact fun _ _ => meets_throw.mpr .refl
  · refine Plain.bind (plain_methodsOf _) fun methods st h => ?_
    split
    · exact meets_throw.mpr .refl
    · exact meets_pure.mpr .refl

theorem stepFree_inMethods {t : Routine TraceError MethodLists α} (ht : Plain limit t) :
    (TracePlan.inMethods t).StepFree limit := fun s h =>
  meets_within.mpr <| (ht s.methods h).mono (fun _ _ _ hg => ⟨kept_of_stages rfl rfl rfl, hg⟩)
    fun _ _ _ hg => ⟨kept_of_stages rfl rfl rfl, hg⟩

/-- A consumed breakpoint is not enabled again. -/
theorem stepFree_enable (edge : MethodEdge) (k : Nat) (thread : ThreadId) :
    (TracePlan.onPoint edge k (Breakpoint.enable thread)).StepFree limit := by
  intro s h
  refine onPoint_meets (fun b hb => ?_) fun _ _ => ⟨.refl s, .refl⟩
  have hsame : s.Kept (s.setPoint edge k b) := kept_setPoint hb fun _ hnone hc => ⟨hnone, hc⟩
  unfold Breakpoint.enable
  refine meets_bind.mpr <| meets_get.mpr <| meets_ite (fun _ => ?_) fun hfree => ?_
  · exact meets_pure.mpr ⟨hsame, .refl⟩
  · have hunconsumed : b.consumed ≠ true := by
      intro hc
      exact hfree (by simp [hc])
    have hkind : b.kind.number ≠ EventKind.singleStep := b.kind.number_ne_singleStep
    have hlevel : (Command.setRequest b.kind.number suspendEventThread
        [.threadOnly thread, .classOnly b.declaringType]).isLevel = true := by
      simpa [Command.isLevel] using hkind
    refine meets_bind.mpr <| meets_command.mpr ⟨History.maySetStep_of_not_setsStep ?_, ?_, ?_⟩
    · rintro c heq
      cases heq
      exact Command.not_setsStep_of_isLevel hlevel
    · rintro id h' rfl
      refine meets_modify.mpr ⟨kept_setPoint hb fun _ _ hc => absurd hc hunconsumed, ?_⟩
      exact .one (Moment.level_sent hlevel _)
    · rintro e h' rfl
      exact ⟨hsame, .one (Moment.level_sent hlevel _)⟩

/-- Clearing a breakpoint, for good or not. -/
theorem plainly_clears {edge : MethodEdge} {b d : Breakpoint} (hb : s.point? edge k = some b)
    (hd : d.request = none) (hconsumed : d.consumed = b.consumed ∨ d.consumed = true)
    {h' : History} (hg : h.ContinuedBy Level h') :
    s.Kept (s.setPoint edge k d) ∧ h.ContinuedBy Level h' := by
  refine ⟨kept_setPoint hb fun _ _ hc => ⟨hd, ?_⟩, hg⟩
  rcases hconsumed with heq | heq
  · rw [heq, hc]
  · exact heq

theorem isLevel_clear (b : Breakpoint) (id : RequestId) :
    (Command.clearRequest b.kind.number id).isLevel = true := by
  have hkind := b.kind.number_ne_singleStep
  simpa [Command.isLevel] using hkind

theorem stepFree_disable (edge : MethodEdge) (k : Nat) :
    (TracePlan.onPoint edge k Breakpoint.disable).StepFree limit := by
  intro s h
  refine onPoint_meets (fun b hb => ?_) fun _ _ => ⟨.refl s, .refl⟩
  refine disable_meets (fun id => History.maySetStep_clear _ _) (fun hnone => ?_)
    (fun id _ => ?_) fun id e _ => ?_
  · exact plainly_clears hb hnone (.inl rfl) .refl
  · exact plainly_clears hb (d := { b with request := none }) rfl (.inl rfl)
      (.one (Moment.level_sent (isLevel_clear b id) _))
  · exact plainly_clears hb (d := { b with request := none }) rfl (.inl rfl)
      (.one (Moment.level_sent (isLevel_clear b id) _))

/-- Once the exit of the last stage is consumed, the stage was left. -/
theorem consume_meets_left (edge : MethodEdge) (k : Nat) {ok : Unit → SessionState → History → Prop}
    {err : TraceError → SessionState → History → Prop}
    (hok : ∀ s' h', s.Kept s' → h.ContinuedBy Level h' →
      (edge = .exit → s.stages.length ≤ k + 1 → s'.Left) → ok () s' h')
    (herr : ∀ e s' h', s.Kept s' → h.ContinuedBy Level h' → err e s' h') :
    (TracePlan.onPoint edge k Breakpoint.consume).Meets (.stepping limit) ok err s h := by
  refine onPoint_meets (fun b hb => ?_) fun _ e => herr e s h (.refl s) .refl
  have hleft : ∀ b', b'.request = none → b'.consumed = true → edge = .exit →
      s.stages.length ≤ k + 1 → (s.setPoint edge k b').Left := by
    rintro b' hnone hconsumed rfl hlast
    obtain ⟨stage, hstage, -⟩ := Option.map_eq_some_iff.mp hb
    have hk := (List.getElem?_eq_some_iff.mp hstage).1
    have hlength : (s.setPoint .exit k b').stages.length = s.stages.length :=
      List.length_modify ..
    refine ⟨b', ?_, hnone, hconsumed⟩
    rw [hlength, show s.stages.length - 1 = k by omega]
    exact point?_setPoint_self hb b'
  refine consume_meets (fun id => History.maySetStep_clear _ _) (fun hnone => ?_)
    (fun id _ => ?_) fun id e _ => ?_
  · have hspent : ({ b with consumed := true } : Breakpoint).request = none := hnone
    have hkept := plainly_clears (h := h) hb hspent (.inr rfl) .refl
    exact hok _ _ hkept.1 .refl (hleft _ hnone rfl)
  · have hkept := plainly_clears hb (d := { b with consumed := true, request := none }) rfl
      (.inr rfl) (.one (Moment.level_sent (isLevel_clear b id) (.ok ())) : h.ContinuedBy Level _)
    exact hok _ _ hkept.1 hkept.2 (hleft _ rfl rfl)
  · have hkept := plainly_clears hb (d := { b with consumed := true, request := none }) rfl
      (.inr rfl) (.one (Moment.level_sent (isLevel_clear b id) (.error e)) : h.ContinuedBy Level _)
    exact herr _ _ _ hkept.1 hkept.2

theorem stepFree_consume (edge : MethodEdge) (k : Nat) :
    (TracePlan.onPoint edge k Breakpoint.consume).StepFree limit := fun _ _ =>
  consume_meets_left edge k (fun _ _ hk hg _ => ⟨hk, hg⟩) fun _ _ _ hk hg => ⟨hk, hg⟩

/-! ### Frames and writes -/

theorem stepFree_frameOnTop (thread : ThreadId) :
    (frameOnTop thread : SessionRoutine FrameInfo).StepFree limit := by
  refine StepFree.bind (stepFree_command rfl) fun (frames : List FrameInfo) => ?_
  split
  · exact stepFree_pure _
  · exact stepFree_throw _

theorem stepFree_readArguments (b : Breakpoint) (thread : ThreadId) (frame : FrameId) :
    (b.readArguments thread frame : SessionRoutine (List Value)).StepFree limit :=
  stepFree_ite (fun _ => stepFree_pure _) fun _ => stepFree_command rfl

theorem stepFree_writeArguments (b : Breakpoint) (thread : ThreadId) (frame : FrameId)
    (old new : List Value) :
    (b.writeArguments thread frame old new : SessionRoutine Unit).StepFree limit :=
  stepFree_ite (fun _ => stepFree_pure _) fun _ => stepFree_commandOr rfl

theorem stepFree_overlook {write : SessionRoutine Unit} (hw : write.StepFree limit) :
    (p.overlook write).StepFree limit := by
  refine StepFree.bind (stepFree_attempt hw) fun r => ?_
  cases r with
  | ok u => exact stepFree_pure _
  | error e =>
      refine stepFree_ite (fun _ => stepFree_perform fun c hc => ?_) fun _ => stepFree_throw _
      cases hc

theorem stepFree_restoreSource (p : TracePlan) : p.restoreSource.StepFree limit := by
  refine stepFree_get_bind fun s => ?_
  split
  · exact stepFree_pure _
  · refine stepFree_ite (fun _ => stepFree_pure _) fun _ => ?_
    refine StepFree.bind (stepFree_modify fun s => kept_of_stages rfl rfl rfl) fun _ => ?_
    refine StepFree.bind (stepFree_command rfl) fun (count : Int) => ?_
    refine stepFree_ite (fun _ => stepFree_pure _) fun _ => ?_
    refine StepFree.bind (stepFree_command rfl) fun (frames : List FrameInfo) => ?_
    split
    · exact stepFree_throw _
    · exact stepFree_ite (fun _ => stepFree_commandOr rfl) fun _ => stepFree_pure _

theorem stepFree_resume (p : TracePlan) : p.resume.StepFree limit := stepFree_command rfl

theorem stepFree_escapes (p : TracePlan) (caught : Option Location) :
    (p.escapes caught).StepFree limit := by
  unfold TracePlan.escapes
  split
  · exact stepFree_pure _
  · refine StepFree.bind (stepFree_command rfl) fun (count : Int) => ?_
    refine stepFree_ite (fun _ => stepFree_pure _) fun _ => ?_
    exact StepFree.bind (stepFree_command rfl) fun (frames : List FrameInfo) => stepFree_pure _

/-! ### Stages -/

theorem stepFree_enterStage (p : TracePlan) (k : Nat) : (p.enterStage k).StepFree limit := by
  refine StepFree.bind (stepFree_frameOnTop _) fun frame => ?_
  refine StepFree.bind (stepFree_consume .entry k) fun _ => ?_
  refine StepFree.bind (stepFree_stageAt k) fun stage => ?_
  refine StepFree.bind (stepFree_readArguments _ _ _) fun arguments => ?_
  refine StepFree.bind (stepFree_onHandler fun handler probe bridge hstep =>
    handler.spliceArguments_sends probe hstep arguments) fun substituted => ?_
  refine StepFree.bind (stepFree_overlook (stepFree_writeArguments _ _ _ _ _)) fun _ => ?_
  exact stepFree_enable .exit k p.thread

/-- The way from one stage to the next. -/
theorem stepFree_passOn (p : TracePlan) (k : Nat) (returned : Value) :
    (do
      let v ← p.onHandler k fun h probe => h.afterCall probe returned
      let v ← p.onHandler (k + 1) fun h probe => h.beforeCall probe v
      TracePlan.onEntryPoint (k + 1) (Breakpoint.enable p.thread)
      TracePlan.publish (.stageActive (k + 1))
      if v.same returned then return ()
      else p.overlook (EventRequest.forceReturn p.thread v) : SessionRoutine Unit).StepFree
        limit := by
  refine StepFree.bind (stepFree_onHandler fun handler probe bridge hstep =>
    handler.afterCall_sends probe hstep returned) fun v => ?_
  refine StepFree.bind (stepFree_onHandler fun handler probe bridge hstep =>
    handler.beforeCall_sends probe hstep v) fun v' => ?_
  refine StepFree.bind (stepFree_enable .entry (k + 1) p.thread) fun _ => ?_
  refine StepFree.bind (stepFree_publish _) fun _ => ?_
  exact stepFree_ite (fun _ => stepFree_pure _) fun _ => stepFree_overlook (stepFree_commandOr rfl)

end SessionRoutine

end StreamTrace
