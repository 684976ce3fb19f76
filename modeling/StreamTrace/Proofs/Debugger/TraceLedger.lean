import Mathlib.Data.List.Perm.Subperm
import StreamTrace.Proofs.Debugger.EventLedger
import StreamTrace.Proofs.Debugger.TraceDiscipline

/-!
# The books of a trace, from its start to the last release

Every history of a trace is lawful, on any target and with any events. The final report comes once,
after everything but the pins was given back, and what follows it lets go of what was pinned.
-/

namespace StreamTrace

open History (ContinuedBy KeepsPins Lawful)
open Moment (Minor Idle Calm Stays Light)
open Routine SessionState SessionRoutine

variable {p : TracePlan} {h h' : History} {α : Type} {s s' : SessionState} {k : Nat} {e : Event}

/-! ## Setting up -/

namespace SessionState

/-- A session before its thread is resumed. -/
structure BeforeResume (p : TracePlan) (s : SessionState) (h : History) :
    Prop extends s.Listens p h where
  unmoved : h.still = h
  early : ∀ e, .heard e ∉ h

theorem BeforeResume.calm (hs : s.BeforeResume p h) (hl : s'.Listens p h')
    (hg : h.ContinuedBy Calm h') :
    s'.BeforeResume p h' :=
  ⟨hl, hg.stays.unresumed hs.unmoved, hg.stays.early hs.early⟩

theorem BeforeResume.onlyMinor (hs : s.BeforeResume p h) (hp : s.OnlyMinor h s' h')
    (hb : s'.bridge.Balanced h') :
    s'.BeforeResume p h' :=
  hs.calm (hs.toListens.onlyMinor hp hb) hp.continuedBy.calm

/-- Without an event, what the session has not replaced was not written. -/
theorem BeforeResume.fresh (hs : s.BeforeResume p h) (hnone : s.substitution = none) :
    h.writes = [] := by
  have hsource := hs.source
  rw [hnone] at hsource
  rcases hsource.1 with hnil | ⟨e, he⟩
  · exact hnil
  · exact absurd (List.takeWhile_subset _ he) (hs.early e)

end SessionState

namespace SessionRoutine

theorem quiet_placeStages (calls : List (StageHandler × MethodSignature))
    (hb : s.bridge.Balanced h) : Quiet p (TracePlan.placeStages calls) s h := by
  induction calls generalizing s h with
  | nil => exact quiet_pure hb trivial
  | cons call rest ih =>
      obtain ⟨handler, signature⟩ := call
      have hcreate : ∀ edge s h, s.bridge.Balanced h →
          Quiet p (TracePlan.inMethods (Breakpoint.create edge signature)) s h
            fun b _ _ => b.request = none := fun edge s h hb =>
        quiet_inMethods (create_idle edge signature hb.finals) hb
      unfold TracePlan.placeStages
      refine (hcreate .entry s h hb).bind fun entry s₁ h₁ _ hb₁ hentry => ?_
      refine (hcreate .exit s₁ h₁ hb₁).bind fun exit s₂ h₂ _ hb₂ hexit => ?_
      refine (quiet_modify hb₂ ?_ rfl rfl rfl rfl).bind fun _ _ _ _ hb₃ _ => ih hb₃
      unfold held
      simp [Stage.held, Breakpoint.held_of_none hentry, Breakpoint.held_of_none hexit]

theorem quiet_preload (names : List String) (hb : s.bridge.Balanced h) :
    Quiet p (p.preload names) s h := by
  induction names generalizing s h with
  | nil => exact quiet_pure hb trivial
  | cons name rest ih =>
      unfold TracePlan.preload
      exact (quiet_inBridge (Bridge.resolveType_sends _ (.inl rfl)) hb).bind
        fun _ _ _ _ hb₁ _ => ih hb₁

/-- A slot is read; the frames were not counted since. -/
theorem quiet_slotValues (thread : ThreadId) (frame : FrameId) (slots : List (Nat × String))
    (hb : s.bridge.Balanced h) :
    Quiet p (command (.slotValues thread frame slots)) s h fun values _ h' =>
      .sent (.slotValues thread frame slots) (.ok values) ∈ h'.still ∧ h'.counting = false := by
  have hgoes : ∀ r, h.ContinuedBy Idle (h ++ [.sent (.slotValues thread frame slots) r]) := fun r =>
    .one (Moment.idle_sent rfl r)
  refine meets_minor rfl hb.finals (fun r => ⟨⟨onlyMinor_of_idle hb.toPins (hgoes _),
    hb.idle (hgoes _)⟩, mem_still_sent rfl _, ?_⟩) fun e => onlyMinor_of_idle hb.toPins (hgoes _)
  exact History.counting_snoc _ _

/-- The variable is written, after what it held was read. -/
theorem writeSource_beforeResume {text name : String} {t t' : ThreadId} {f : FrameInfo}
    {rest : List FrameInfo} {n : Nat} {locals : List VariableInfo} {v : VariableInfo}
    {held stream : Value} {others : List Value} (hs : s.BeforeResume p h)
    (hnone : s.substitution = none)
    (hnamed : p.chain.qualifier = .var text name)
    (htop : .sent (.frames t 0 1) (.ok (f :: rest)) ∈ h.still)
    (htable : .sent (.variableTable f.location.typeId f.location.methodId) (.ok (n, locals)) ∈
      h.still)
    (hvisible : TracePlan.visibleVariable? locals name f.location.index = some v)
    (hread : .sent (.slotValues t' f.frameId [(v.slot, v.signature)]) (.ok (held :: others)) ∈
      h.still) (hcalm : h.counting = false) :
    AccountSafe p (do
      commandOr (.setSlots p.thread f.frameId [(v.slot, stream)]) TraceError.ofWrite
      modify fun s => { s with substitution := some { slot := v.slot, held } } :
        SessionRoutine Unit) s h fun _ s' h' => s'.BeforeResume p h' ∧ s'.guard = s.guard := by
  have hfresh := hs.fresh hnone
  refine meets_bind.mpr <| meets_commandOr.mpr ⟨.writing hs.pins.finals
    (.source hnamed hfresh hs.early hs.unmoved htop htable hvisible hread hcalm), ?_, ?_⟩
  · rintro r h' rfl
    refine meets_modify.mpr ⟨⟨⟨hs.toAccounts.next rfl (History.keepsPins_snoc h rfl rfl rfl)
      (hs.requests.snoc rfl rfl) ⟨⟨f.frameId, stream, t', v.signature, others, ?_, ?_, ?_⟩, ?_⟩,
      ?_, ?_, ?_⟩, ?_, ?_⟩, rfl⟩
    · rw [History.writes_snoc, hfresh]
      rfl
    · rw [History.unwritten_snoc_wrote h _ hfresh (fun hn => by cases hn)]
      exact hs.early
    · rw [History.unwritten_snoc_wrote h _ hfresh (fun hn => by cases hn)]
      exact History.mem_of_mem_still hread
    · refine (if_neg (by simp)).mpr fun hput => ?_
      rcases (History.putBack_snoc _ _).mp hput with hput | ⟨hcounting, -⟩
      · exact History.not_putBack_of_writes h hfresh hput
      · rw [hcalm] at hcounting
        cases hcounting
    · exact hs.balanced.keeps rfl (History.keepsPins_snoc h rfl rfl rfl)
    · rw [History.awaited?_snoc, ← hs.step]
      rfl
    · rintro sub hsome
      cases hsome
      rfl
    · rw [History.still_snoc, hs.unmoved]
      rfl
    · intro e he
      rcases List.mem_append.mp he with he | he
      · exact hs.early e he
      · cases List.mem_singleton.mp he
  · rintro error h' rfl
    exact hs.toAccounts.onlyMinor
      (onlyMinor_of_idle hs.pins (.one (Moment.idle_unwritten _ _ _ error)))

theorem substituteSource_beforeResume (hs : s.BeforeResume p h) :
    AccountSafe p p.substituteSource s h fun _ s' h' => s'.BeforeResume p h' ∧
    s'.guard = s.guard := by
  unfold TracePlan.substituteSource
  split
  · exact accountSafe_pure ⟨hs, rfl⟩
  rename_i text name hnamed
  refine accountSafe_get_bind <| accountSafe_ite (fun _ => accountSafe_throw hs.toAccounts)
    fun hsub => ?_
  have hnone : s.substitution = none := by simpa using hsub
  refine (quiet_frameOnTop _ hs.balanced).andThen hs.toAccounts ?_
  rintro f s₁ h₁ hp₁ hb₁ ⟨rest, htop⟩
  refine (quiet_command rfl hb₁).andThen (hs.toAccounts.onlyMinor hp₁) ?_
  rintro ⟨n, locals⟩ s₂ h₂ hp₁₂ hb₂ htable
  have hp₂ := hp₁.trans hp₁₂
  split
  · exact accountSafe_throw (hs.toAccounts.onlyMinor hp₂)
  rename_i v hvisible
  refine (quiet_slotValues _ _ _ hb₂).andThen (hs.toAccounts.onlyMinor hp₂) ?_
  rintro (values : List Value) s₃ h₃ hp₂₃ hb₃ ⟨hread, hcalm⟩
  have hp₃ := hp₂.trans hp₂₃
  split
  · exact accountSafe_throw (hs.toAccounts.onlyMinor hp₃)
  rename_i held hheld
  obtain ⟨others, rfl⟩ := List.head?_eq_some_iff.mp hheld
  extract_lets source write
  have hwrite : ∀ stream s' h', s₃.OnlyMinor h₃ s' h' → s'.bridge.Balanced h' →
      AccountSafe p (write stream) s' h' fun _ s' h' => s'.BeforeResume p h' ∧
        s'.guard = s.guard := by
    intro stream s' h' hp' hb'
    have hp := hp₃.trans hp'
    have hg₂ : h₂.ContinuedBy Calm h' := (hp₂₃.continuedBy.trans hp'.continuedBy).calm
    have hg₁ : h₁.ContinuedBy Calm h' := hp₁₂.continuedBy.calm.trans hg₂
    refine (writeSource_beforeResume (hs.onlyMinor hp hb') (hp.substitution.trans hnone) hnamed
      (hg₁.stays.still htop) (hg₂.stays.still htable) hvisible
      (hp'.continuedBy.calm.stays.still hread) (hp'.continuedBy.calm.counting hcalm)).mono ?_
    rintro - s'' h'' ⟨hs'', hguard⟩
    exact ⟨hs'', hguard.trans hp.guard⟩
  have hsource : source.CanStep true s₃.bridge := ⟨⟨.inl rfl, .inl rfl⟩, fun _ _ => .inl rfl⟩
  refine accountSafe_get_bind <| (quiet_inBridge (source.afterCall_sends _ hsource _) hb₃).andThen
    (hs.toAccounts.onlyMinor hp₃) ?_
  rintro ⟨-, stream⟩ s₄ h₄ hp₄ hb₄ -
  refine accountSafe_get_bind <| accountSafe_ite (fun _ => hwrite _ _ _ hp₄ hb₄) fun _ => ?_
  refine (quiet_onHandler (fun handler probe bridge hstep =>
    handler.beforeCall_sends probe hstep stream) hb₄).andThen (hs.toAccounts.onlyMinor
      (hp₃.trans hp₄)) fun _ _ _ hp₅ hb₅ _ => hwrite _ _ _ (hp₄.trans hp₅) hb₅

/-! ### Requests and start -/

theorem guard_beforeResume (hs : s.BeforeResume p h) (hnone : s.guard = none) :
    AccountSafe p (EventRequest.guard p.thread) s h fun id s' h' =>
      BeforeResume p { s' with guard := some id } h' := by
  have hkind : EventKind.exception ≠ EventKind.singleStep := by decide
  refine meets_command.mpr ⟨.set hs.pins.finals hkind _ _, ?_, ?_⟩
  · rintro id h' rfl
    have hm : s.RequestsMoved h { s with guard := some id } _ :=
      requestsMoved_set EventKind.exception suspendEventThread
        [.exceptionOnly 0 true true, .threadOnly p.thread] (.ok id) rfl rfl
    have ha := hs.toAccounts.set (fun _ => rfl) (by simpa using held_guard hnone) hm
    refine hs.calm (hs.toListens.requestsMoved ha hm rfl ?_) hm.continuedBy
    exact (History.awaited?_snoc _ _).trans (Moment.await_set_of_ne _ hkind _ _ _)
  · rintro e h' rfl
    exact hs.toAccounts.onlyMinor (onlyMinor_of_idle hs.pins (.one (Moment.idle_refused _ _ _ e)))

theorem prepare_beforeResume {places : Places} (hs : s.BeforeResume p h) (hnone : s.guard = none) :
    AccountSafe p (p.prepare places) s h fun _ s' h' => s'.BeforeResume p h' := by
  unfold TracePlan.prepare
  refine (quiet_modify hs.balanced rfl rfl rfl rfl rfl).andThen hs.toAccounts
    fun _ s₁ h₁ hp₁ hb₁ _ => ?_
  refine (quiet_placeStages _ hb₁).andThen (hs.toAccounts.onlyMinor hp₁) fun _ s₂ h₂ hp₂ hb₂ _ => ?_
  have hp₂ := hp₁.trans hp₂
  refine accountSafe_get_bind ?_
  extract_lets matchers finish
  refine (quiet_preload _ hb₂).andThen (hs.toAccounts.onlyMinor hp₂) fun _ s₃ h₃ hp₃ hb₃ _ => ?_
  have hp₃ := hp₂.trans hp₃
  refine (quiet_inBridge (Probe.new_sends _ (.inl rfl)) hb₃).andThen (hs.toAccounts.onlyMinor hp₃)
    fun probe s₄ h₄ hp₄ hb₄ _ => ?_
  have hp₄ := hp₃.trans hp₄
  refine (quiet_modify hb₄ rfl rfl rfl rfl rfl).andThen (hs.toAccounts.onlyMinor hp₄)
    fun _ s₅ h₅ hp₅ hb₅ _ => ?_
  have hp₅ := hp₄.trans hp₅
  have hs₅ := hs.onlyMinor hp₅ hb₅
  have hfinish : ∀ s' h', s'.BeforeResume p h' → s'.guard = none →
      AccountSafe p (finish ()) s' h' fun _ s' h' => s'.BeforeResume p h' := by
    intro s' h' hs' hnone'
    refine (guard_beforeResume hs' hnone').bind fun id s'' h'' hs'' => ?_
    refine accountSafe_modify_bind <| accountSafe_get_bind <| accountSafe_ite (fun _ => ?_) fun _ =>
      accountSafe_pure hs''
    refine (enable_accountSafe .entry 0 hs''.toListens).mono ?_
    rintro - s₆ h₆ ⟨hl₆, -, hg₆⟩
    exact hs''.calm hl₆ hg₆
  refine accountSafe_get_bind <| accountSafe_ite (fun _ => ?_) fun _ =>
    hfinish _ _ hs₅ (hp₅.guard.trans hnone)
  refine (quiet_publish _ hb₅).andThen hs₅.toAccounts fun _ s₆ h₆ hp₆ hb₆ _ => ?_
  refine (substituteSource_beforeResume (hs₅.onlyMinor hp₆ hb₆)).bind ?_
  rintro - s₇ h₇ ⟨hs₇, hguard⟩
  exact hfinish _ _ hs₇ (hguard.trans (hp₆.guard.trans (hp₅.guard.trans hnone)))

theorem setup_listens (hs : s.BeforeResume p h) (hnone : s.guard = none) :
    AccountSafe p p.setup s h fun _ s' h' => s'.Listens p h' := by
  unfold TracePlan.setup
  refine (quiet_publish _ hs.balanced).andThen hs.toAccounts fun _ s₁ h₁ hp₁ hb₁ _ => ?_
  have hs₁ := hs.onlyMinor hp₁ hb₁
  refine meets_bind.mpr <| accountSafe_failAs <| meets_ofExcept.mpr
    ⟨fun places _ => ?_, fun _ _ => hs₁.toAccounts⟩
  refine (accountSafe_failAs (prepare_beforeResume hs₁ (hp₁.guard.trans hnone))).bind
    fun _ s₂ h₂ hs₂ => ?_
  refine (quiet_publish _ hs₂.balanced).andThen hs₂.toAccounts fun _ s₃ h₃ hp₃ hb₃ _ => ?_
  have hs₃ := hs₂.onlyMinor hp₃ hb₃
  refine (quiet_clock hb₃).andThen hs₃.toAccounts fun now s₄ h₄ hp₄ hb₄ _ => ?_
  have hs₄ := hs₃.onlyMinor hp₄ hb₄
  have hstarted : OnlyMinor s₄ h₄ { s₄ with startedAt := now } h₄ :=
    ⟨.refl, rfl, rfl, rfl, rfl, hs₄.pins⟩
  have hs₅ := hs₄.onlyMinor hstarted hb₄
  exact accountSafe_modify_bind <| accountSafe_failRunning <|
    resume_accountSafe rfl hs₅.toListens (.inl ⟨hs₅.unmoved, hs₅.early⟩)

end SessionRoutine

/-! ## The programs of a trace -/

namespace ActiveTrace

variable {chain : StreamChain} {β : Type}

/-- What is left when a program of a trace ends: a trace that listens, or everything is reported
and let go of. -/
def BooksSquared (chain : StreamChain) (k : Continuation) (h : History) : Prop :=
  match k with
  | .finished => h.finals ≠ [] ∧ h.enabled.Perm h.pinned
  | .listen t => t.plan.chain = chain ∧ t.state.Listens t.plan h

/-- The outcome is published and then delivered. -/
theorem announce_meets {state : TraceState} {r : Report} {rest : Program β}
    {post : β → History → Prop} (hr : r.outcome? = some state) (hf : h.finals = [])
    (hs : h.Settled)
    (hrest : ∀ h', h'.finals ≠ [] → h'.pinned = h.pinned → h'.enabled = h.enabled →
      rest.Meets (.recording (History.Admits chain)) post h') :
    (do
      let _ ← Program.perform (.publish state)
      let _ ← Program.perform (.deliver r)
      rest).Meets (.recording (History.Admits chain)) post h := by
  refine (Program.meets_bind _ _ _ _).mpr <| Program.meets_perform.mpr
    ⟨.free hf (fun r hr => by cases hr) (fun c hc => by cases hc), ?_⟩
  rintro u h₁ rfl
  have hg := ContinuedBy.one (h := h) (Moment.idle_publish state u)
  have hf₁ := hg.keepsPins.finals.trans hf
  have hpublished : History.published? (h ++ [.did (.publish state) u]) = some state :=
    (History.published?_snoc _ _).trans rfl
  refine (Program.meets_bind _ _ _ _).mpr <| Program.meets_perform.mpr
    ⟨.finishing hf₁ hr hpublished (hs.minor hg.minor), ?_⟩
  rintro u' h₂ rfl
  refine hrest _ ?_ ?_ ?_
  · have hfinal : r.isFinal = true := r.isFinal_iff.mpr ⟨state, hr⟩
    rw [History.finals_snoc]
    simp [Moment.report?, hfinal]
  · rw [History.pinned_snoc, hg.keepsPins.pinned]
    exact List.append_nil _
  · rw [History.enabled_snoc, hg.keepsPins.enabled]
    exact List.append_nil _

/-- What is pinned is let go of, in that order. -/
theorem enableAll_meets {ε σ : Type} {st : σ} {err : ε → σ → History → Prop} (ids : List ObjectId)
    (hf : h.finals ≠ []) (hp : (h.enabled ++ ids).Perm h.pinned) :
    (Bridge.enableAll ids : Routine ε σ Unit).Meets (.recording (History.Admits chain))
      (fun _ _ h' => h'.finals ≠ [] ∧ h'.enabled.Perm h'.pinned) err st h := by
  induction ids generalizing h with
  | nil => exact meets_pure.mpr ⟨hf, by simpa using hp⟩
  | cons id rest ih =>
      refine meets_bind.mpr <| meets_commandAnyway.mpr ⟨.releasing hf hp, ?_⟩
      rintro r h' rfl
      refine ih ?_ ?_
      · rw [History.finals_snoc]
        exact List.append_ne_nil_of_left_ne_nil hf _
      · rw [History.pinned_snoc, History.enabled_snoc]
        simpa [Moment.pinned?, Moment.enabled?, Moment.sent] using hp

theorem dispose_booksSquared {s : SessionState} (hf : h.finals ≠ [])
    (hopen : s.bridge.storage.released = false) (hp : h.pinned = s.bridge.storage.pinned)
    (he : h.enabled = []) :
    (do
      let _ ← (TracePlan.dispose : Routine Unit SessionState Unit) s
      return Continuation.finished : Program Continuation).Meets
        (.recording (History.Admits chain)) (BooksSquared chain) h := by
  have hrelease : s.bridge.storage.release =
      some (s.bridge.storage.arranged,
        { s.bridge.storage with byClass := {}, pinned := [], released := true }) :=
    if_neg (by simp [hopen])
  -- Whatever the order, the objects that are handed out are those that were pinned.
  have hall : (h.enabled ++ s.bridge.storage.arranged).Perm h.pinned := by
    rw [he, hp]
    exact s.bridge.storage.arranged_perm
  have hdispose : (TracePlan.dispose : Routine Unit SessionState Unit).Meets
      (.recording (History.Admits chain))
      (fun _ _ h' => h'.finals ≠ [] ∧ h'.enabled.Perm h'.pinned) (fun _ _ _ => False) s h := by
    unfold TracePlan.dispose Bridge.dispose
    refine meets_bind.mpr <| meets_within.mpr <| meets_bind.mpr <| meets_get.mpr ?_
    rw [hrelease]
    refine meets_bind.mpr <| meets_set.mpr <| meets_bind.mpr <|
      Meets.mono (enableAll_meets _ hf hall) ?_ fun _ _ _ (hn : False) => hn.elim
    exact fun _ _ _ hdone => meets_pure.mpr (meets_pure.mpr hdone)
  exact (Program.meets_bind _ _ _ _).mpr <| Routine.Meets.program hdispose
    (fun _ _ _ hdone => hdone) fun _ _ _ hn => hn.elim

theorem giveUp_booksSquared (t : ActiveTrace) (failure : TraceFailure)
    (hchain : t.plan.chain = chain)
    (ha : t.state.Accounts t.plan h) :
    (t.giveUp failure).Meets (.recording (History.Admits chain)) (BooksSquared chain) h := by
  subst hchain
  unfold giveUp
  refine (Program.meets_bind _ _ _ _).mpr <| Routine.Meets.program (takeBack_closes ha) ?_
    fun _ _ _ (hn : False) => hn.elim
  intro _ s' h' hc
  refine (Program.meets_bind _ _ _ _).mpr <| announce_meets rfl hc.pins.finals hc.settled
    fun h'' hf hp he => Program.meets_done.mpr ?_
  exact dispose_booksSquared hf hc.pins.unreleased (hp.trans hc.pins.kept)
    (he.trans hc.pins.enabled)

theorem succeed_booksSquared (t : ActiveTrace) (finished : TracePlan.Finished)
    (hc : t.state.Closed t.plan h) :
    (t.succeed finished).Meets (.recording (History.Admits chain)) (BooksSquared chain) h := by
  unfold succeed
  refine announce_meets rfl hc.pins.finals hc.settled fun h'' hf hp he => ?_
  exact dispose_booksSquared hf hc.pins.unreleased (hp.trans hc.pins.kept)
    (he.trans hc.pins.enabled)

theorem onEvent_booksSquared {t : ActiveTrace} (e : Event) (hchain : t.plan.chain = chain)
    (hl : t.state.Listens t.plan h) :
    (t.onEvent e).Meets (.recording (History.Admits chain)) (BooksSquared chain)
    (h ++ [.heard e]) := by
  subst hchain
  unfold ActiveTrace.onEvent
  refine (Program.meets_bind _ _ _ _).mpr <| Routine.Meets.program (onEvent_listensOrClosed hl e)
    ?_ ?_
  · intro r s' h' hgoes
    cases r with
    | none => exact ⟨rfl, hgoes⟩
    | some finished => exact succeed_booksSquared { plan := t.plan, state := s' } finished hgoes
  · exact fun failure s' h' ha => giveUp_booksSquared { plan := t.plan, state := s' } failure rfl ha

/-- What is known when the statement's place was read: the plan of the trace, and nothing else. -/
theorem begin_beforeResume (order : Arrangement) {options : TraceOptions} {thread : ThreadId} :
    (TracePlan.begin options chain thread : Routine TraceError Unit TracePlan).Meets
      (.recording (History.Admits chain))
      (fun p _ h' => p.chain = chain ∧ SessionState.BeforeResume p (.start order) h')
      (fun _ _ h' => (h'.finals = [] ∧ h'.Settled) ∧ h'.enabled = h'.pinned) () [] := by
  -- Before the plan stands, the trace has only looked: nothing is requested, written or pinned.
  have hfailed : ∀ h : History, History.ContinuedBy (fun m => Light m ∧ m.wrote? = none) [] h →
      (h.finals = [] ∧ h.Settled) ∧ h.enabled = h.pinned := by
    intro h hg
    have hk := (hg.mono fun _ hm => hm.1).lightPins
    have hwrites : h.writes = [] := hg.keeps History.writes fun h m hm => by simp [hm.2]
    refine ⟨⟨hk.finals, fun _ => ?_, fun hsub => absurd hwrites hsub.1⟩, ?_⟩
    · rw [hg.keeps History.opened fun h m hm => by simp [hm.1.opened],
        hg.keeps History.cleared fun h m hm => by simp [hm.1.cleared]]
      exact .refl _
    · rw [hk.enabled, hk.pinned]
      rfl
  have hlook : ∀ r : (Command.frames thread 0 1).Answer,
      Light (.sent (.frames thread 0 1) r) ∧ Moment.wrote? (.sent (.frames thread 0 1) r) = none :=
    fun r => ⟨(Moment.idle_sent rfl r).light, (Moment.idle_sent rfl r).wrote⟩
  unfold TracePlan.begin frameOnTop
  refine meets_bind.mpr <| meets_bind.mpr <| meets_command.mpr ⟨.minor rfl rfl, ?_, ?_⟩
  · rintro (frames : List FrameInfo) h₁ rfl
    split
    · rename_i f hframe
      obtain ⟨rest, rfl⟩ := List.head?_eq_some_iff.mp hframe
      refine meets_pure.mpr <| meets_bind.mpr <| meets_command.mpr ⟨.count rfl _, ?_, ?_⟩
      · rintro (n : Int) h₂ rfl
        refine meets_pure.mpr ⟨rfl, ⟨⟨⟨⟨rfl, rfl, .nil, rfl, rfl⟩, ⟨[], fun _ => rfl, .refl _⟩, rfl,
          rfl, ?_⟩,
          ⟨⟨rfl, rfl, .nil, rfl, rfl⟩, rfl⟩, rfl, fun sub hsub => by cases hsub⟩, rfl, ?_⟩⟩
        · exact ⟨.inl rfl, History.not_putBack_of_writes _ rfl⟩
        · intro e he
          rcases List.mem_cons.mp he with he | he
          · cases he
          · cases List.mem_singleton.mp he
      · rintro e h₂ rfl
        exact hfailed _ (.snoc (.one (hlook _)) ⟨Moment.light_counted _ _, rfl⟩)
    · exact meets_throw.mpr (hfailed _ (.one (hlook _)))
  · rintro e h₁ rfl
    exact hfailed _ (.one (hlook _))

theorem start_booksSquared (options : TraceOptions) (request : TraceRequest) :
    (ActiveTrace.start options request).Meets (.recording (History.Admits request.chain))
      (BooksSquared request.chain) [] := by
  unfold ActiveTrace.start
  refine (Program.meets_bind _ _ _ _).mpr <| Routine.Meets.program
    (begin_beforeResume request.order) ?_ ?_
  · rintro p - h₁ ⟨hchain, hs⟩
    rw [← hchain]
    refine (Program.meets_bind _ _ _ _).mpr <| Routine.Meets.program (setup_listens hs rfl) ?_ ?_
    · exact fun _ s' h' hl => ⟨rfl, hl⟩
    · exact fun failure s' h' ha => giveUp_booksSquared { plan := p, state := s' } failure rfl ha
  · rintro e - h' ⟨⟨hf, hs⟩, hequal⟩
    refine (Program.meets_bind _ _ _ _).mpr <| announce_meets rfl hf hs fun h'' hf' hp he =>
      Program.meets_done.mpr ?_
    exact ⟨hf', by rw [he, hp, hequal]⟩

end ActiveTrace

/-! ## Runs -/

/-- Every history of a trace is lawful, and so is what the trace does next. -/
theorem TraceRun.lawful {options : TraceOptions} {request : TraceRequest}
    {q : Program Continuation} (run : TraceRun options request h q) :
    h.Lawful request.chain ∧ q.Meets (.recording (History.Admits request.chain))
      (ActiveTrace.BooksSquared request.chain) h :=
  TraceRun.induction (ActiveTrace.start_booksSquared options request)
    (fun _ _ e hq _ => ActiveTrace.onEvent_booksSquared e hq.1 hq.2)
    (fun t _ failure hq _ => ActiveTrace.giveUp_booksSquared t failure hq.1 hq.2.toAccounts)
    History.lawful_nil (fun _ _ r hl ha => hl.did r ha)
    (fun _ _ e hq hl => hl.heard e hq.2.pins.finals) run

/-! ## Endings -/

namespace History

variable {chain : StreamChain}

theorem pinned_append (h h' : History) : pinned (h ++ h') = h.pinned ++ h'.pinned :=
  List.filterMap_append

theorem enabled_append (h h' : History) : enabled (h ++ h') = h.enabled ++ h'.enabled :=
  List.filterMap_append

theorem finals_append (h h' : History) : finals (h ++ h') = h.finals ++ h'.finals := by
  simp [finals]

theorem pinned_report (r : Report) (h : History) :
    pinned (.did (.deliver r) () :: h) = h.pinned := rfl

theorem enabled_report (r : Report) (h : History) :
    enabled (.did (.deliver r) () :: h) = h.enabled := rfl

/-- Only objects are let go of. -/
def Releasing (h : History) : Prop :=
  ∀ m ∈ h, ∃ id, ∃ r : (Command.enableCollection id).Answer, m = .sent (.enableCollection id) r

theorem Releasing.pinned (hr : h.Releasing) : h.pinned = [] := by
  refine List.filterMap_eq_nil_iff.mpr fun m hm => ?_
  obtain ⟨id, r, rfl⟩ := hr m hm
  rfl

theorem Releasing.finals (hr : h.Releasing) : h.finals = [] := by
  have hnone : h.filterMap Moment.report? = [] := by
    refine List.filterMap_eq_nil_iff.mpr fun m hm => ?_
    obtain ⟨id, r, rfl⟩ := hr m hm
    rfl
  rw [History.finals, hnone]
  rfl

/-- How a trace ends: a final report that tells the published state, when all that the trace set
was cleared and the source was put back; then the pins are let go of, each once. -/
structure Ends (before : History) (r : Report) (after : History) : Prop where
  first : before.finals = []
  held : before.enabled = []
  outcome : ∃ s, r.outcome? = some s ∧ before.published? = some s
  settled : before.Settled
  releasing : after.Releasing
  once : after.enabled.Subperm before.pinned

/-- Nothing is let go of before the final report. -/
theorem Lawful.enabled_eq_nil (hl : h.Lawful chain) (hf : h.finals = []) : h.enabled = [] := by
  refine List.filterMap_eq_nil_iff.mpr fun m hm => ?_
  obtain ⟨pre, post, rfl⟩ := List.append_of_mem hm
  have hpre : finals pre = [] := by
    rw [finals_append] at hf
    exact (List.append_eq_nil_iff.mp hf).1
  cases henabled : m.enabled? with
  | none => rfl
  | some id =>
      obtain ⟨r, rfl⟩ : ∃ r, m = .did (.command (.enableCollection id)) r := by
        unfold Moment.enabled? at henabled
        split at henabled
        · cases henabled
          exact ⟨_, rfl⟩
        · cases henabled
      exact absurd hpre ((hl.admitted pre _ r ⟨post, by simp⟩).release id rfl).1

theorem Lawful.of_prefix (hl : h.Lawful chain) (hpre : h' <+: h) : h'.Lawful chain :=
  ⟨fun pre a r hp => hl.admitted pre a r (hp.trans hpre),
    fun pre e hp => hl.hushed pre e (hp.trans hpre)⟩

/-- One more release, in its turn. -/
theorem Ends.snoc {before after : History} {r : Report} (he : before.Ends r after) {id : ObjectId}
    {rest : List ObjectId} (hnext : (after.enabled ++ id :: rest).Perm before.pinned)
    (answer : (Command.enableCollection id).Answer) :
    before.Ends r (after ++ [.sent (.enableCollection id) answer]) where
  first := he.first
  held := he.held
  outcome := he.outcome
  settled := he.settled
  releasing m hm := by
    rcases List.mem_append.mp hm with hm | hm
    · exact he.releasing m hm
    · exact ⟨id, answer, List.mem_singleton.mp hm⟩
  once := by
    have hmore : (after.enabled ++ [id]).Sublist (after.enabled ++ id :: rest) := by simp
    rw [enabled_snoc]
    exact hmore.subperm.trans hnext.subperm

/-- A trace with a final report has ended. -/
theorem Lawful.ends (hl : h.Lawful chain) (hf : h.finals ≠ []) :
    ∃ (before : History) (r : Report) (after : History),
      h = before ++ .did (.deliver r) () :: after ∧ before.Ends r after := by
  induction h using List.reverseRecOn with
  | nil => exact absurd rfl hf
  | append_singleton h m ih =>
      have hl' := hl.of_prefix ⟨[m], rfl⟩
      by_cases hfinals : finals h = []
      · -- The last moment is the final report.
        rw [finals_snoc, hfinals, List.nil_append] at hf
        obtain ⟨r, u, rfl, hfinal⟩ : ∃ r u, m = .did (.deliver r) u ∧ r.isFinal = true := by
          cases hr : m.report? with
          | none => simp [hr] at hf
          | some r =>
              refine ⟨r, ?_⟩
              unfold Moment.report? at hr
              split at hr
              · cases hr
                exact ⟨_, rfl, by simpa [Moment.report?] using hf⟩
              · cases hr
        obtain ⟨s, hs⟩ := r.isFinal_iff.mp hfinal
        have hfinal := (hl.admitted h (.deliver r) u ⟨[], List.append_nil _⟩).final r s rfl hs
        exact ⟨h, r, [], rfl, hfinals, hl'.enabled_eq_nil hfinals, ⟨s, hs, hfinal.1⟩, hfinal.2,
          fun m hm => absurd hm List.not_mem_nil, List.nil_subperm⟩
      · obtain ⟨before, r, after, rfl, he⟩ := ih hl' hfinals
        cases m with
        | heard e => exact absurd (hl.hushed _ e ⟨[], List.append_nil _⟩) hfinals
        | did a u =>
            have hadmits := hl.admitted (before ++ .did (.deliver r) () :: after) a u
              ⟨[], List.append_nil _⟩
            obtain ⟨id, rfl⟩ : ∃ id, a = .command (.enableCollection id) := by
              by_contra hne
              exact hfinals (hadmits.ended fun id ha => hne ⟨id, ha⟩)
            obtain ⟨-, rest, hnext⟩ := hadmits.release id rfl
            rw [pinned_append, enabled_append, pinned_report, enabled_report, he.releasing.pinned,
              List.append_nil, he.held, List.nil_append] at hnext
            exact ⟨before, r, after ++ [.sent (.enableCollection id) u], by simp [Moment.sent],
              he.snoc hnext u⟩

/-- A trace reports its end once, so what comes before and after a final report is known. -/
theorem Ends.unique {before after before' after' : History} {r r' : Report}
    (he : before.Ends r after) (hfinal : r'.isFinal = true)
    (hsame : before ++ .did (.deliver r) () :: after =
      before' ++ .did (.deliver r') () :: after') :
    before = before' ∧ r = r' ∧ after = after' := by
  have hfinals : finals (Moment.did (.deliver r') () :: after') ≠ [] := by
    simp [finals, Moment.report?, hfinal]
  rcases List.append_eq_append_iff.mp hsame with ⟨between, rfl, hrest⟩ | ⟨between, rfl, hrest⟩
  · cases between with
    | nil =>
        obtain ⟨hr, rfl⟩ := List.cons.inj hrest
        cases hr
        exact ⟨(List.append_nil _).symm, rfl, rfl⟩
    | cons m between =>
        have hafter : after = between ++ .did (.deliver r') () :: after' := (List.cons.inj hrest).2
        have hnone := he.releasing.finals
        rw [hafter, finals_append] at hnone
        exact absurd (List.append_eq_nil_iff.mp hnone).2 hfinals
  · cases between with
    | nil =>
        obtain ⟨hr, rfl⟩ := List.cons.inj hrest
        cases hr
        exact ⟨List.append_nil _, rfl, rfl⟩
    | cons m between =>
        obtain ⟨rfl, -⟩ := List.cons.inj hrest
        have hnone := he.first
        rw [finals_append] at hnone
        have hlast := (List.append_eq_nil_iff.mp hnone).2
        simp [finals, Moment.report?, hfinal] at hlast

end History

/-- A trace that has finished let go of everything that it pinned. -/
theorem TraceRun.ends {options : TraceOptions} {request : TraceRequest}
    (run : TraceRun options request h (.done .finished)) :
    ∃ (before : History) (r : Report) (after : History),
      h = before ++ .did (.deliver r) () :: after ∧ before.Ends r after ∧
        after.enabled.Perm before.pinned := by
  obtain ⟨hl, hf, hequal⟩ := run.lawful
  obtain ⟨before, r, after, rfl, he⟩ := hl.ends hf
  refine ⟨before, r, after, rfl, he, ?_⟩
  rw [History.pinned_append, History.enabled_append, History.pinned_report,
    History.enabled_report, he.releasing.pinned, List.append_nil, he.held,
    List.nil_append] at hequal
  exact hequal

end StreamTrace
