import StreamTrace.Proofs.Debugger.Accounts

/-!
# The way back

How a session gives back what it holds: clearing its requests leaves none, whatever the debuggee
answers, and the source variable is put back or was searched for in vain. Both can be told of every
session whose accounts are right, also of one that failed.
-/

namespace StreamTrace

open History (ContinuedBy KeepsPins)
open Moment (Minor Idle Calm Stays Light)
open Routine SessionState SessionRoutine

variable {p : TracePlan} {h h' : History} {α : Type} {s s' : SessionState} {k : Nat}

/-! ## Moments at which nothing is entered -/

/-- A moment that is about no request and no pin, and at which nothing is written. -/
theorem SessionState.Listens.free (hl : s.Listens p h) {m : Moment} (ho : m.opened? = none)
    (hc : m.cleared? = none) (hw : m.wrote? = none) (ha : m.await h.awaited? = h.awaited?)
    (hk : h.KeepsPins (h ++ [m])) : s.Listens p (h ++ [m]) := by
  refine hl.next (hl.toAccounts.next rfl hk (hl.requests.snoc ho hc) ?_) rfl hk ?_ hl.unrestored
  · exact hl.source.snoc (.inl hw) (.inr hl.unrestored)
  · rw [ha, hl.step]

theorem SessionState.Listens.heard (hl : s.Listens p h) (e : Event) :
    s.Listens p (h ++ [.heard e]) :=
  hl.free rfl rfl rfl rfl (History.keepsPins_snoc h rfl rfl rfl)

/-- The step that the session awaited has ended, and its request is cleared. -/
theorem SessionState.Listens.stepped (hl : s.Listens p h) {id : RequestId} (hid : s.step = some id)
    (r : (Command.clearRequest EventKind.singleStep id).Answer) :
    SessionState.Listens p { s with step := none }
      (h ++ [.sent (.clearRequest EventKind.singleStep id) r]) := by
  have hm : s.RequestsMoved h { s with step := none }
      (h ++ [.sent (.clearRequest EventKind.singleStep id) r]) :=
        requestsMoved_cleared _ _ _ rfl rfl
  refine ⟨hl.toAccounts.clear (held_of_step hid) (.refl _) hm, hm.balanced hl.balanced, ?_,
    hl.unrestored⟩
  rw [History.awaited?_snoc, ← hl.step, hid]
  exact (if_pos ⟨rfl, rfl⟩).symm

namespace SessionRoutine

theorem resume_accountSafe {c : Command} (hc : c.resumes = true) (hl : s.Listens p h)
    (hr : h.MayResume) : AccountSafe p (command c) s h fun _ s' h' => s'.Listens p h' := by
  have hm : ∀ r : c.Answer, s.Listens p (h ++ [.sent c r]) := by
    intro r
    cases c <;> first
      | exact hl.free rfl rfl rfl rfl (History.keepsPins_snoc h rfl rfl rfl)
      | cases hc
  refine meets_command.mpr ⟨.resuming hl.pins.finals hc hr, ?_, ?_⟩
  · rintro r h' rfl
    exact hm _
  · rintro e h' rfl
    exact (hm _).toAccounts

theorem counted (hl : s.Listens p h) (t : ThreadId) (r : (Command.frameCount t).Answer) :
    s.Listens p (h ++ [.sent (.frameCount t) r]) :=
  hl.free rfl rfl rfl rfl (History.keepsPins_snoc h rfl rfl rfl)

/-- The thread's frames are counted. -/
theorem count_accountSafe (t : ThreadId) (hl : s.Listens p h) :
    AccountSafe p (command (.frameCount t)) s h fun n s' h' =>
      s' = s ∧ s.Listens p h' ∧ h.ContinuedBy Stays h' ∧
        .sent (.frameCount t) (.ok n) ∈ h'.still := by
  refine meets_command.mpr ⟨.count hl.pins.finals t, ?_, ?_⟩
  · rintro n h' rfl
    have hm := Moment.stays_counted t (.ok n)
    exact ⟨rfl, counted hl t _, .one hm, History.mem_still_snoc h hm.resumes⟩
  · rintro e h' rfl
    exact (counted hl t _).toAccounts

/-! ## Clearing everything -/

/-- Disabling a breakpoint, whatever the debuggee answers. -/
theorem disable_accounts {ε : Type} {err : ε → SessionState → History → Prop} (edge : MethodEdge)
    (k : Nat) (ha : s.Accounts p h) :
    (attempt (TracePlan.onPoint edge k Breakpoint.disable)).Meets p.keeper
      (fun _ s' h' => s'.Accounts p h' ∧ s.RequestsMoved h s' h' ∧
        (s.NoNewRequests s' ∧ s'.guard = s.guard ∧ s'.step = s.step) ∧
          ∀ b, s'.point? edge k = some b → b.request = none) err s h := by
  refine meets_attempt.mpr <| onPoint_meets (fun b hb => ?_) fun hnone _ =>
    ⟨ha, .refl s h, ⟨.refl s, rfl, rfl⟩, fun b hb => by rw [hnone] at hb; cases hb⟩
  have hself : ∀ b' : Breakpoint, b'.request = none → ∀ c,
      (s.setPoint edge k b').point? edge k = some c → c.request = none := by
    intro b' hb' c hc
    rw [point?_setPoint_self hb] at hc
    cases hc
    exact hb'
  have hcleared : ∀ id, b.request = some id → ∀ r : (Command.clearRequest b.kind.number id).Answer,
      (s.setPoint edge k { b with request := none }).Accounts p
        (h ++ [.sent (.clearRequest b.kind.number id) r]) := fun id hid r =>
    accounts_clearPoint ha hb hid rfl r
  refine disable_meets (fun id => .clear ha.pins.finals _ id) (fun hnone => ?_) (fun id hid => ?_)
    fun id e hid => ?_
  · exact ⟨accounts_setPoint ha hb rfl, ⟨.refl, .refl h, rfl, rfl⟩,
      ⟨noNewRequests_setPoint hb hnone, rfl, rfl⟩, hself _ hnone⟩
  · exact ⟨hcleared id hid _, requestsMoved_cleared _ _ _ rfl rfl,
      ⟨noNewRequests_setPoint hb rfl, rfl, rfl⟩,
      hself _ rfl⟩
  · exact ⟨hcleared id hid _, requestsMoved_cleared _ _ _ rfl rfl,
      ⟨noNewRequests_setPoint hb rfl, rfl, rfl⟩,
      hself _ rfl⟩

theorem clearStages_accounts {err : TraceError → SessionState → History → Prop} (ks : List Nat)
    (ha : s.Accounts p h) :
    (TracePlan.clearStages ks).Meets p.keeper
      (fun _ s' h' => s'.Accounts p h' ∧ s.RequestsMoved h s' h' ∧
        (s.NoNewRequests s' ∧ s'.guard = s.guard ∧ s'.step = s.step) ∧
          ∀ k ∈ ks, ∀ edge b, s'.point? edge k = some b → b.request = none) err s h := by
  induction ks generalizing s h with
  | nil => exact meets_pure.mpr ⟨ha, .refl s h, ⟨.refl s, rfl, rfl⟩, fun _ hk => by cases hk⟩
  | cons k rest ih =>
      unfold TracePlan.clearStages
      refine meets_bind.mpr <| Meets.mono (disable_accounts .entry k ha) ?_ fun _ _ _ hn => hn
      rintro - s₁ h₁ ⟨ha₁, hm₁, ⟨hsheds₁, hguard₁, hstep₁⟩, hentry⟩
      refine meets_bind.mpr <| Meets.mono (disable_accounts .exit k ha₁) ?_ fun _ _ _ hn => hn
      rintro - s₂ h₂ ⟨ha₂, hm₂, ⟨hsheds₂, hguard₂, hstep₂⟩, hexit⟩
      refine Meets.mono (ih ha₂) ?_ fun _ _ _ hn => hn
      rintro - s₃ h₃ ⟨ha₃, hm₃, ⟨hsheds₃, hguard₃, hstep₃⟩, hrest⟩
      refine ⟨ha₃, hm₁.trans (hm₂.trans hm₃), ⟨hsheds₁.trans (hsheds₂.trans hsheds₃),
        hguard₃.trans (hguard₂.trans hguard₁), hstep₃.trans (hstep₂.trans hstep₁)⟩,
        fun k' hk' edge b hb => ?_⟩
      rcases List.mem_cons.mp hk' with rfl | hmem
      · cases edge with
        | entry =>
            obtain ⟨b', hb', hnone⟩ := hsheds₂.trans hsheds₃ _ _ b hb
            exact hnone (hentry b' hb')
        | exit =>
            obtain ⟨b', hb', hnone⟩ := hsheds₃ _ _ b hb
            exact hnone (hexit b' hb')
      · exact hrest k' hmem edge b hb

/-- Without requests of its stages a session holds its guard and its step only. -/
theorem held_eq_nil (hpoints : ∀ edge k b, s.point? edge k = some b → b.request = none) :
    s.stages.flatMap Stage.held = [] := by
  refine List.flatMap_eq_nil_iff.mpr fun stage hstage => ?_
  obtain ⟨k, hk⟩ := List.mem_iff_getElem?.mp hstage
  have hentry := hpoints .entry k stage.entry (by simp [point?, hk, Stage.point])
  have hexit := hpoints .exit k stage.exit (by simp [point?, hk, Stage.point])
  unfold Stage.held
  rw [Breakpoint.held_of_none hentry, Breakpoint.held_of_none hexit]
  rfl

/-- Clearing a request that the session held, and of which it has made an entry. -/
theorem clearIfSet_accounts {err : TraceError → SessionState → History → Prop} {kind : UInt8}
    {request : Option RequestId} {ok : Unit → SessionState → History → Prop}
    (hf : h.finals = [])
    (hnone : request = none → ok () s h)
    (hsome : ∀ id (r : (Command.clearRequest kind id).Answer), request = some id →
      ok () s (h ++ [.sent (.clearRequest kind id) r])) :
    (TracePlan.clearIfSet kind request).Meets p.keeper ok err s h := by
  cases request with
  | none => exact meets_pure.mpr (hnone rfl)
  | some id =>
      refine meets_commandAnyway.mpr ⟨.clear hf kind id, ?_⟩
      rintro r h' rfl
      exact hsome id r rfl

theorem clearOwnRequests_accounts {err : TraceError → SessionState → History → Prop}
    (ha : s.Accounts p h) :
    TracePlan.clearOwnRequests.Meets p.keeper
      (fun _ s' h' => s'.Accounts p h' ∧ s.RequestsMoved h s' h' ∧ s'.held = []) err s h := by
  unfold TracePlan.clearOwnRequests
  refine meets_bind.mpr <| meets_get.mpr <| meets_bind.mpr <|
    Meets.mono (clearStages_accounts _ ha) ?_ fun _ _ _ hn => hn
  rintro - s₁ h₁ ⟨ha₁, hm₁, ⟨hsheds, -, -⟩, hnone⟩
  have hstages : s₁.stages.flatMap Stage.held = [] := by
    refine held_eq_nil fun edge k b hb => ?_
    obtain ⟨b₀, hb₀, -⟩ := hsheds edge k b hb
    obtain ⟨stage, hstage, -⟩ := Option.map_eq_some_iff.mp hb₀
    exact hnone k (List.mem_range.mpr (List.getElem?_eq_some_iff.mp hstage).1) edge b hb
  have hheld : (held { s₁ with guard := none, step := none }) = [] := by
    unfold held
    rw [hstages]
    rfl
  refine meets_bind.mpr <| meets_get.mpr <| meets_bind.mpr <| meets_modify.mpr <| meets_bind.mpr ?_
  -- The session forgets both requests at once; they are cleared one after the other.
  have hstep : ∀ h₂, Accounts p { s₁ with guard := none } h₂ →
      s.RequestsMoved h { s₁ with guard := none } h₂ →
      (TracePlan.clearIfSet EventKind.singleStep s₁.step).Meets p.keeper
        (fun _ s' h' => s'.Accounts p h' ∧ s.RequestsMoved h s' h' ∧ s'.held = []) err
          { s₁ with guard := none, step := none } h₂ := by
    intro h₂ ha₂ hm₂
    refine clearIfSet_accounts ha₂.pins.finals (fun hnone => ?_) fun id r hid => ?_
    · have hs : ({ s₁ with guard := none, step := none } : SessionState) =
          { s₁ with guard := none } := by simp [hnone]
      rw [hs] at hheld ⊢
      exact ⟨ha₂, hm₂, hheld⟩
    · have hm : RequestsMoved { s₁ with guard := none } h₂ { s₁ with guard := none, step := none }
          (h₂ ++ [.sent (.clearRequest EventKind.singleStep id) r]) :=
            requestsMoved_cleared _ _ _ rfl rfl
      exact ⟨ha₂.clear (held_of_step (s := { s₁ with guard := none }) hid) (.refl _) hm,
        hm₂.trans hm, hheld⟩
  refine clearIfSet_accounts ha₁.pins.finals (fun hnone => ?_) fun id r hid => ?_
  · have hs : ({ s₁ with guard := none } : SessionState) = s₁ := by simp [← hnone]
    exact hstep h₁ (hs ▸ ha₁) (hs ▸ hm₁)
  · have hm : s₁.RequestsMoved h₁ { s₁ with guard := none }
        (h₁ ++ [.sent (.clearRequest EventKind.exception id) r]) :=
          requestsMoved_cleared _ _ _ rfl rfl
    exact hstep _ (ha₁.clear (held_of_guard hid) (.refl _) hm) (hm₁.trans hm)

end SessionRoutine

/-! ## Putting the source back -/

theorem History.Swapped.continuedBy {P : Moment → Prop} {sub : Substitution} (hs : h.Swapped sub)
    (hg : h.ContinuedBy P h') : h'.Swapped sub := by
  induction hg with
  | refl => exact hs
  | snoc _ _ ih => exact ih.snoc _

namespace SessionState

/-- Nothing is left to be put back. -/
def Restored (s : SessionState) : Prop := ∀ sub, s.substitution = some sub → sub.restored = true

/-- The session is done with the source variable, and nothing else has changed. -/
structure PutsBack (p : TracePlan) (s : SessionState) (h : History) (s' : SessionState)
    (h' : History) : Prop where
  accounts : s'.Accounts p h'
  restored : s'.Restored
  held : s'.held = s.held
  bridge : s'.bridge = s.bridge
  pins : h.KeepsPins h'

theorem PutsBack.done (ha : s.Accounts p h) (hr : s.Restored) : s.PutsBack p h s h :=
  ⟨ha, hr, rfl, rfl, .refl h⟩

/-- The source was put back, or it was tried in vain. -/
theorem Accounts.putsBack {sub : Substitution} (ha : s.Accounts p h)
    (hsub : s.substitution = some sub) (hg : h.ContinuedBy Light h')
    (hdone : h'.PutBack ∨ h'.NotPutBack) :
    s.PutsBack p h { s with substitution := some { sub with restored := true } } h' where
  accounts :=
    { pins := ha.pins.keeps rfl hg.lightPins
      requests := ha.requests.keeps (hg.keeps History.opened fun h m hm => by simp [hm.opened])
        (hg.keeps History.cleared fun h m hm => by simp [hm.cleared])
        (ContinuedBy.orderly_of_event (fun _ hm => hm.event) hg).mp
      base := hg.base? ha.base
      invoking := hg.invoking? ha.invoking
      source := by
        have hsource := ha.source
        rw [hsub] at hsource
        obtain ⟨frame, stream, t, signature, others, hswapped⟩ := hsource.1.continuedBy hg
        exact ⟨⟨frame, stream, t, signature, others, hswapped⟩, hdone⟩ }
  restored sub' hsome := by
    cases hsome
    rfl
  held := rfl
  bridge := rfl
  pins := hg.lightPins

end SessionState

namespace SessionRoutine

/-- The thread was counted to have `n` frames, and `f` is the one that stands where the statement
stood. -/
def lookedUp (p : TracePlan) (h : History) (n : Int) (frames : List FrameInfo) : History :=
  h ++ [.sent (.frameCount p.thread) (.ok n)] ++
    [.sent (.frames p.thread (n - p.baseDepth) 1) (.ok frames)]

theorem continuedBy_counted (p : TracePlan) (h : History)
    (r : (Command.frameCount p.thread).Answer) :
    h.ContinuedBy Light (h ++ [.sent (.frameCount p.thread) r]) := .one (Moment.light_counted _ r)

theorem continuedBy_lookedUp (p : TracePlan) (h : History) (n : Int) (frames : List FrameInfo) :
    h.ContinuedBy Light (lookedUp p h n frames) :=
  (continuedBy_counted p h _).snoc (Moment.idle_sent rfl _).light

/-- The last count of the frames, and what came after it says why nothing was put back. -/
theorem notPutBack_of_sourceMissed (ha : s.Accounts p h) {r : Except JdwpError Int} {post : History}
    (heq : h' = h ++ .sent (.frameCount p.thread) r :: post) (hpost : ∀ m ∈ post, m.counts = false)
    (hmiss : History.SourceMissed p.baseDepth p.invoking p.thread r post) : h'.NotPutBack :=
  ⟨h, p.thread, r, post, p.baseDepth, p.invoking, heq, hpost, ha.base, ha.invoking, hmiss⟩

/-- The variable is written where the statement stands. -/
theorem writeBack_putsBack {sub : Substitution} {n : Int} {f : FrameInfo} {rest : List FrameInfo}
    (ha : s.Accounts p h) (hsub : s.substitution = some sub) (hopen : ¬sub.restored = true)
    (hdeep : ¬n < p.baseDepth) :
    (commandOr (.setSlots p.thread f.frameId [(sub.slot, sub.held)]) TraceError.ofWrite).Meets
      p.keeper (fun _ s' h' => s.PutsBack p h s' h') (fun _ s' h' => s.PutsBack p h s' h')
      { s with substitution := some { sub with restored := true } }
      (lookedUp p h n (f :: rest)) := by
  have hg := continuedBy_lookedUp p h n (f :: rest)
  have hsource := ha.source
  rw [hsub] at hsource
  obtain ⟨hswapped, hnot⟩ := hsource
  rw [if_neg hopen] at hnot
  have hcounting : (lookedUp p h n (f :: rest)).counting = true := by
    rw [lookedUp, History.counting_snoc, History.counting_snoc]
    rfl
  have hput : ¬(lookedUp p h n (f :: rest)).PutBack := by
    rw [lookedUp, History.putBack_snoc, History.putBack_snoc]
    rintro ((hput | ⟨-, hwrote⟩) | ⟨-, hwrote⟩)
    · exact hnot hput
    · exact hwrote rfl
    · exact hwrote rfl
  obtain ⟨frame, stream, t, signature, others, hmade, hearly, hread⟩ := hswapped.continuedBy hg
  refine meets_commandOr.mpr ⟨.writing (hg.lightPins.finals.trans ha.pins.finals) ?_, ?_, ?_⟩
  · have hfound : .sent (.frames p.thread (n - p.baseDepth) 1) (.ok (f :: rest)) ∈
        (lookedUp p h n (f :: rest)).still := History.mem_still_snoc _ rfl
    have hcounted : .sent (.frameCount p.thread) (.ok n) ∈ (lookedUp p h n (f :: rest)).still :=
      ContinuedBy.still (.one (Moment.idle_sent rfl _).toStays) (History.mem_still_snoc h rfl)
    exact .back hmade hearly hread hput hcounting hcounted (hg.base? ha.base)
      (Int.not_lt.mp hdeep) hfound
  · rintro r h' rfl
    refine ha.putsBack hsub (hg.snoc (Moment.light_setSlots _ _ _ _)) (.inl ?_)
    exact (History.putBack_snoc _ _).mpr (.inr ⟨hcounting, fun hnone => by cases hnone⟩)
  · rintro e h' rfl
    refine ha.putsBack hsub (hg.snoc (Moment.light_setSlots _ _ _ _)) (.inr <|
      notPutBack_of_sourceMissed ha ((List.append_assoc _ _ _).trans (List.append_assoc _ _ _)) ?_
        (.refused n f rest _ e []))
    intro m hm
    rcases List.mem_cons.mp hm with rfl | hm
    · rfl
    · obtain rfl := List.mem_singleton.mp hm
      rfl

/-- However the search for the variable goes, the session is done with it. -/
theorem restoreSource_putsBack (ha : s.Accounts p h) :
    p.restoreSource.Meets p.keeper (fun _ s' h' => s.PutsBack p h s' h')
      (fun _ s' h' => s.PutsBack p h s' h') s h := by
  unfold TracePlan.restoreSource
  rw [meets_bind, meets_get]
  split
  · rename_i hsub
    refine meets_pure.mpr (.done ha fun sub hsome => ?_)
    rw [hsub] at hsome
    cases hsome
  rename_i sub hsub
  refine meets_ite (fun hrestored => ?_) fun hopen => ?_
  · refine meets_pure.mpr (.done ha fun sub' hsome => ?_)
    rw [hsub] at hsome
    cases hsome
    exact hrestored
  -- From here on every way out has a reason that the history shows: the count was refused, the
  -- frame is gone, was not shown, is another one, or the write itself was answered.
  refine meets_bind.mpr <| meets_modify.mpr <| meets_bind.mpr <|
    meets_command.mpr ⟨.count ha.pins.finals _, ?_, ?_⟩
  · rintro (n : Int) h₁ rfl
    have hg₁ := continuedBy_counted p h (.ok n)
    refine meets_ite (fun hgone => meets_pure.mpr ?_) fun hdeep => ?_
    · exact ha.putsBack hsub hg₁
        (.inr (notPutBack_of_sourceMissed ha rfl (by simp) (.gone n [] hgone)))
    refine meets_bind.mpr <| meets_minor rfl (hg₁.lightPins.finals.trans ha.pins.finals)
      (fun (frames : List FrameInfo) => ?_) fun e => ?_
    · have hg₂ := continuedBy_lookedUp p h n frames
      split
      · rename_i hnil
        obtain rfl := List.head?_eq_none_iff.mp hnil
        refine meets_throw.mpr (ha.putsBack hsub hg₂ (.inr <|
          notPutBack_of_sourceMissed ha (List.append_assoc _ _ _) ?_ (.none n [])))
        intro m hm
        obtain rfl := List.mem_singleton.mp hm
        rfl
      · rename_i f hframe
        obtain ⟨rest, rfl⟩ := List.head?_eq_some_iff.mp hframe
        refine meets_ite (fun _ => writeBack_putsBack ha hsub hopen hdeep) fun hother =>
          meets_pure.mpr (ha.putsBack hsub hg₂ (.inr <| notPutBack_of_sourceMissed ha
            (List.append_assoc _ _ _) ?_ (.other n f rest [] (by simpa using hother))))
        intro m hm
        obtain rfl := List.mem_singleton.mp hm
        rfl
    · refine ha.putsBack hsub (hg₁.snoc (Moment.idle_sent rfl _).light) (.inr <|
        notPutBack_of_sourceMissed ha (List.append_assoc _ _ _) ?_ (.unseen n e []))
      intro m hm
      obtain rfl := List.mem_singleton.mp hm
      rfl
  · rintro e h' rfl
    exact ha.putsBack hsub (continuedBy_counted p h _)
      (.inr (notPutBack_of_sourceMissed ha rfl (by simp) (.uncounted e [])))

end SessionRoutine

end StreamTrace
