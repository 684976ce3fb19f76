import StreamTrace.Proofs.Machine.RestorableSessions

/-!
# Traces that change nothing

A trace that is set up, that hears of the event at which its thread has stopped, or that is given
up leaves a machine that may be handed back. As long as it listens, the thread runs; once it is
over, no request is left. So the program never notices it, and never waits for it.
-/

namespace StreamTrace

open Scene SessionRoutine Routine SessionState BridgeRoutine

variable {S : Scene} {vm₀ vm vm' : Vm} {base : Int} {s s' : SessionState} {p : TracePlan}
  {α : Type} {k : Nat}

/-! ## Where the thread stands -/

/-- Only the frames of the one thread can be counted. -/
theorem Vm.answer_frameCount_thread {thread : ThreadId} {n : Int}
    (h : (vm.answer (.frameCount thread)).1 = .ok n) : thread = mainThread := by
  by_contra hne
  have hrefused : (Vm.stopped thread).run.run vm = (.error (.vm ErrorCode.invalidThread), vm) := by
    rw [Vm.run_stopped, if_pos hne]
  let count : Unit → VmCommand Int := fun _ => do return ((← get).frames.length : Int)
  have hbind : vm.answer (.frameCount thread) =
      (ExceptT.bindCont count ((Vm.stopped thread).run.run vm).1).run
        ((Vm.stopped thread).run.run vm).2 := rfl
  rw [hbind, hrefused] at h
  cases h

namespace SessionState

/-- What is in a variable of the statement stays what it is. -/
theorem Restorable.settled (h : s.Restorable S vm₀ base vm) {slot : Nat} {v : Value}
    (hv : vm.slotOf S.frame slot = some v) : vm.Settled v := by
  have hsteady := h.halted.toSteady.progress h.handed.toProgress h.handed.tidy
  obtain ⟨f, hf, hslot⟩ := Option.bind_eq_some_iff.mp hv
  have hid : f.id = S.frame := by simpa using List.find?_some hf
  exact hsteady.settled f (List.mem_of_find?_eq_some hf) hid slot v hslot

/-- A frame on top whose variables are known is the statement's. -/
theorem Restorable.on_top (h : s.Restorable S vm₀ base vm) {frame : FrameId} {l : Location}
    (htop : vm.places[0]? = some (frame, l)) (hshown : ¬vm.Hides l) :
    frame = S.frame ∧ vm.frames.length = 2 := by
  have hsteady := h.halted.toSteady.progress h.handed.toProgress h.handed.tidy
  obtain ⟨l', hstatement⟩ := h.statement
  obtain ⟨hle, hplace⟩ := hstatement.place
  have hframe : frame = S.frame := by
    by_contra hne
    rw [Vm.places, List.getElem?_map, Option.map_eq_some_iff] at htop
    obtain ⟨f, hf, heq⟩ := htop
    obtain ⟨rfl, rfl⟩ := Prod.mk.inj heq
    exact hshown (hsteady.hidden f (List.mem_of_getElem? hf) hne)
  refine ⟨hframe, ?_⟩
  have hids : (vm.places.map Prod.fst).Nodup := by
    have hnodup := h.halted.progress_ids h.handed.toProgress
    rwa [show vm.frames.map (·.id) = vm.places.map Prod.fst by simp [Vm.places]] at hnodup
  -- The same frame cannot be at two places.
  have hsame : (vm.places.map Prod.fst)[0]? = (vm.places.map Prod.fst)[vm.places.length - 2]? := by
    rw [List.getElem?_map, List.getElem?_map, htop, hplace, hframe]
    rfl
  by_contra hne
  refine List.nodup_iff_getElem?_ne_getElem?.mp hids 0 (vm.places.length - 2) ?_ ?_ hsame
  · rw [← Vm.length_places] at hne
    omega
  · rw [List.length_map]
    omega

/-- Once the source is to be put back, it does not matter any more what was taken. -/
theorem Restorable.forgets (h : s.Restorable S vm₀ base vm) (x : Substitution) :
    Restorable S vm₀ base { s with substitution := some { x with restored := true } } vm := by
  refine ⟨h.halted, h.handed, h.lists, h.held, h.edges, ?_⟩
  rintro _ ⟨⟩ hopen
  cases hopen

/-- A stage whose requests are not set is added. -/
theorem Restorable.addStage (h : s.Restorable S vm₀ base vm) {stage : Stage}
    (hedge : ∀ edge, (stage.point edge).kind = edge)
    (hnone : ∀ edge, (stage.point edge).request = none) :
    Restorable S vm₀ base { s with stages := s.stages ++ [stage] } vm := by
  have hentry : stage.entry.held = [] := Breakpoint.held_of_none (hnone .entry)
  have hexit : stage.exit.held = [] := Breakpoint.held_of_none (hnone .exit)
  have hheld : SessionState.held { s with stages := s.stages ++ [stage] } = s.held := by
    simp only [SessionState.held, Stage.held, List.flatMap_append, List.flatMap_singleton, hentry,
      hexit, List.append_nil]
  refine h.books rfl (fun x hx => hheld ▸ hx) (fun edge k b hb => ?_) rfl
  obtain ⟨stage', hstage', rfl⟩ := Option.map_eq_some_iff.mp hb
  have hmem : stage' ∈ s.stages ++ [stage] := List.mem_of_getElem? hstage'
  rcases List.mem_append.mp hmem with hold | hnew
  · obtain ⟨i, hi⟩ := List.mem_iff_getElem?.mp hold
    exact h.edges edge i _ (by rw [point?, hi]; rfl)
  · obtain rfl := List.mem_singleton.mp hnew
    exact hedge edge

end SessionState

namespace SessionRoutine

/-! ## What the handlers put in -/

theorem frameSafe_beforeCall (k : Nat) {stream : Value} (h : s.Restorable S vm₀ base vm)
    (hsettled : vm.Settled stream) :
    FrameSafe S vm₀ base (p.onHandler k fun handler probe => handler.beforeCall probe stream) s vm
      fun stream' _ vm' => vm'.Alike (some stream) (some stream') :=
  frameSafe_onHandler (fun handler => handler.beforeCall_handBackSafe _ h.handed h.lists hsettled) h

theorem frameSafe_afterCall (k : Nat) {returned : Value} (h : s.Restorable S vm₀ base vm)
    (hsettled : vm.Settled returned) :
    FrameSafe S vm₀ base (p.onHandler k fun handler probe => handler.afterCall probe returned) s vm
      fun stream _ vm' => vm'.Alike (some returned) (some stream) :=
  frameSafe_onHandler (fun handler => handler.afterCall_handBackSafe _ h.handed h.lists hsettled) h

theorem frameSafe_spliceArguments (k : Nat) (args : List Value) (h : s.Restorable S vm₀ base vm) :
    FrameSafe S vm₀ base
      (p.onHandler k fun handler probe => handler.spliceArguments probe args) s vm
      fun args' _ vm' => Substitutes vm' args args' :=
  frameSafe_onHandler (fun handler => handler.spliceArguments_handBackSafe _ args h.handed h.lists)
    h

/-! ## Setting up -/

theorem frameSafe_placeStages (rest : List (StageHandler × MethodSignature))
    (h : s.Restorable S vm₀ base vm) : FrameSafe S vm₀ base (TracePlan.placeStages rest) s vm := by
  induction rest generalizing s vm with
  | nil => exact frameSafe_pure h trivial
  | cons first rest ih =>
      obtain ⟨handler, sig⟩ := first
      unfold TracePlan.placeStages
      refine (frameSafe_inMethods (create_works .entry sig (.begin h.handed h.lists)) h).bind ?_
      rintro entry s₁ vm₁ h₁ ⟨⟨hkind₁, hnone₁⟩, -⟩
      refine (frameSafe_inMethods
        (create_works .exit sig (.begin h₁.restorable.handed h₁.restorable.lists))
        h₁.restorable).bind ?_
      rintro exit s₂ vm₂ h₂ ⟨⟨hkind₂, hnone₂⟩, -⟩
      let stage : Stage := { handler, entry, exit }
      have hadded : Restorable S vm₀ base { s₂ with stages := s₂.stages ++ [stage] } vm₂ :=
        h₂.restorable.addStage (fun edge => by cases edge <;> assumption)
          fun edge => by cases edge <;> assumption
      exact (frameSafe_modify hadded rfl rfl).bind fun _ s₃ vm₃ h₃ _ => ih h₃.restorable

theorem frameSafe_preload (names : List String) (h : s.Restorable S vm₀ base vm) :
    FrameSafe S vm₀ base (p.preload names) s vm := by
  induction names generalizing s vm with
  | nil => exact frameSafe_pure h trivial
  | cons name rest ih =>
      unfold TracePlan.preload
      exact (frameSafe_inBridge_of_sends (Bridge.resolveType_sends _ (.inl rfl)) h).bind
        fun _ s₁ vm₁ h₁ _ => ih h₁.restorable

/-- The variable of the statement gets a stream that stands for the one it holds. -/
theorem writeSource_keepsRestorable {thread : ThreadId} {slot : Nat} {held stream : Value}
    (h : s.Restorable S vm₀ base vm) (hbase : base = 2) (hheld : vm.slotOf S.frame slot = some held)
    (halike : vm.Alike (some held) (some stream)) :
    KeepsRestorable S vm₀ base (do
      commandOr (.setSlots thread S.frame [(slot, stream)]) TraceError.ofWrite
      modify fun s => { s with substitution := some { slot, held } }) s vm fun _ s' vm' =>
        s'.Restorable S vm₀ base vm' ∧ s'.guard = s.guard ∧ s'.step = s.step := by
  refine meets_bind.mpr (meets_writeSource h (hheld ▸ halike) (fun vm' hhanded hg hsame hslot => ?_)
    fun _ => h)
  refine meets_modify.mpr ⟨⟨h.halted, hhanded, h.lists.grows hg,
    fun r hr => h.held r (hsame ▸ hr), h.edges, ?_⟩, rfl, rfl⟩
  rintro _ ⟨⟩ -
  exact ⟨hbase, hslot ▸ halike.grows hg⟩

theorem substituteSource_keepsRestorable (h : s.Restorable S vm₀ p.baseDepth vm)
    (hbase : p.baseDepth = vm₀.frames.length) :
    KeepsRestorable S vm₀ p.baseDepth p.substituteSource s vm fun _ s' vm' =>
      s'.Restorable S vm₀ p.baseDepth vm' ∧ s'.guard = s.guard ∧ s'.step = s.step := by
  unfold TracePlan.substituteSource
  split
  · exact keepsRestorable_pure ⟨h, rfl, rfl⟩
  refine keepsRestorable_get_bind
    (keepsRestorable_ite (fun _ => keepsRestorable_throw h) fun _ => ?_)
  refine (frameSafe_frameOnTop _ h).andThen ?_
  rintro frame s₁ vm₁ h₁ ⟨-, hplace⟩
  have htop₁ : vm₁.places[0]? = some (frame.frameId, frame.location) := by
    rw [(progress_of_evolved (S := S) h₁.evolved).places, hplace]
  -- The variables are hidden in every method but the statement's, so a table tells the frame.
  have htable : ∀ (table : Nat × List VariableInfo) vm',
      vm₁.answer (.variableTable frame.location.typeId frame.location.methodId) =
        (.ok table, vm') → vm₁.Evolved vm' → ¬vm₁.Hides frame.location :=
    fun table _ hr _ => Vm.answer_variableTable_shown (congrArg Prod.fst hr)
  refine (frameSafe_command (c := .variableTable frame.location.typeId frame.location.methodId)
    h₁.restorable rfl rfl htable).andThen ?_
  rintro (table : Nat × List VariableInfo) s₂ vm₂ h₂ hshown
  obtain ⟨hframe, htwo⟩ := h₁.restorable.on_top htop₁ hshown
  have hbase₂ : p.baseDepth = 2 := by
    have hplaces := h₁.restorable.handed.toProgress.places
    rw [hbase, ← Vm.length_places, ← hplaces, Vm.length_places, htwo]
    rfl
  split
  · exact keepsRestorable_throw h₂.restorable
  rename_i v _
  have hslots : ∀ (values : List Value) vm',
      vm₂.answer (.slotValues p.thread frame.frameId [(v.slot, v.signature)]) = (.ok values, vm') →
        vm₂.Evolved vm' →
          ∃ held, values = [held] ∧ vm₂.slotOf frame.frameId v.slot = some held := by
    intro values _ hr _
    obtain ⟨f, hf, hall⟩ := Vm.answer_slotValues_all (congrArg Prod.fst hr)
    cases hall with
    | @cons _ held _ rest hheld hrest =>
        cases hrest
        exact ⟨held, rfl, by rw [Vm.slotOf, hf]; exact hheld⟩
  refine (frameSafe_command (c := .slotValues p.thread frame.frameId [(v.slot, v.signature)])
    h₂.restorable rfl rfl hslots).andThen ?_
  rintro (values : List Value) s₃ vm₃ h₃ ⟨held, rfl, hheld⟩
  rw [hframe] at hheld ⊢
  split
  · rename_i hnone
    cases hnone
  rename_i held' hhead
  obtain rfl : held = held' := Option.some.inj hhead
  extract_lets source write
  have hslot : ∀ {vm'}, vm₂.Evolved vm' → vm'.slotOf S.frame v.slot = some held :=
    fun hevolved => by rw [Vm.slotOf, hevolved.frames, ← hheld, Vm.slotOf]
  -- With or without a first stage to splice, the stream that is written shows what was held.
  have hwrite : ∀ stream s' vm', s₃.RestorableProgress S vm₀ p.baseDepth vm₃ s' vm' →
      vm'.Alike (some held) (some stream) → KeepsRestorable S vm₀ p.baseDepth (write stream) s' vm'
        fun _ s'' vm'' => s''.Restorable S vm₀ p.baseDepth vm'' ∧ s''.guard = s.guard ∧
          s''.step = s.step := by
    intro stream s' vm' h' halike
    have hall := h₁.trans (h₂.trans (h₃.trans h'))
    refine (writeSource_keepsRestorable h'.restorable hbase₂ (hslot (h₃.evolved.trans h'.evolved))
      halike).mono ?_
    rintro - s'' vm'' ⟨hrestorable, hguard, hstep⟩
    exact ⟨hrestorable, hguard.trans hall.guard, hstep.trans hall.step⟩
  have hsettled := h₃.restorable.settled (hslot h₃.evolved)
  refine keepsRestorable_get_bind
    ((frameSafe_inBridge (source.afterCall_handBackSafe (p.probe s₃) h₃.restorable.handed
    h₃.restorable.lists hsettled) h₃.restorable).andThen ?_)
  rintro ⟨_, stream⟩ s₄ vm₄ h₄ ⟨(halike : vm₄.Alike (some held) (some stream)), -⟩
  refine keepsRestorable_get_bind
    (keepsRestorable_ite (fun _ => hwrite stream s₄ vm₄ h₄ halike) fun _ => ?_)
  have hsettled₄ := (hsettled.grows h₄.evolved.grows).alike halike
  refine (frameSafe_beforeCall 0 h₄.restorable hsettled₄).andThen
    fun stream' s₅ vm₅ h₅ halike₅ => ?_
  exact hwrite stream' s₅ vm₅ (h₄.trans h₅) ((halike.grows h₅.evolved.grows).trans halike₅)

/-- When everything is prepared, no step is awaited. -/
theorem prepare_keepsRestorable {order : Arrangement} {places : Places}
    (h : Restorable S vm₀ p.baseDepth (.start order) vm)
    (hbase : p.baseDepth = vm₀.frames.length) :
    KeepsRestorable S vm₀ p.baseDepth (p.prepare places) (.start order) vm fun _ s' vm' =>
      s'.Restorable S vm₀ p.baseDepth vm' ∧ s'.step = none := by
  unfold TracePlan.prepare
  refine keepsRestorable_modify_bind ?_
  have h₀ : Restorable S vm₀ p.baseDepth
      { SessionState.start order with hasSourceStage := places.source.isSome } vm :=
    h.books rfl (fun _ hx => hx) h.edges rfl
  refine (frameSafe_placeStages _ h₀).andThen fun _ s₁ vm₁ h₁ _ => keepsRestorable_get_bind ?_
  extract_lets matchers finish
  refine (frameSafe_preload _ h₁.restorable).andThen fun _ s₂ vm₂ h₂ _ => ?_
  refine (frameSafe_inBridge_of_sends (Probe.new_sends _ (.inl rfl)) h₂.restorable).andThen
    fun probe s₃ vm₃ h₃ _ => ?_
  have hclock : Restorable S vm₀ p.baseDepth { s₃ with clock := probe.clock } vm₃ :=
    h₃.restorable.books rfl (fun _ hx => hx) h₃.restorable.edges rfl
  refine (frameSafe_modify hclock rfl rfl).andThen fun _ s₄ vm₄ h₄ _ => keepsRestorable_get_bind ?_
  have hall := h₁.trans (h₂.trans (h₃.trans h₄))
  have hfinish : ∀ s' vm', s'.Restorable S vm₀ p.baseDepth vm' → s'.guard = s₄.guard →
      s'.step = s₄.step → KeepsRestorable S vm₀ p.baseDepth (finish ()) s' vm' fun _ s'' vm'' =>
        s''.Restorable S vm₀ p.baseDepth vm'' ∧ s''.step = none := by
    intro s' vm' h' hguard hstep
    refine keepsRestorable_guard h' (hguard.trans hall.guard) fun id vm'' h'' _ =>
      keepsRestorable_modify_bind
        (keepsRestorable_get_bind (keepsRestorable_ite (fun _ => ?_) fun _ => ?_))
    · exact (frameSafe_enable .entry 0 p.thread h'').keepsRestorable fun _ s₅ vm₅ h₅ _ =>
        ⟨h₅.restorable, h₅.step.trans (hstep.trans hall.step)⟩
    · exact keepsRestorable_pure ⟨h'', hstep.trans hall.step⟩
  refine keepsRestorable_ite (fun _ => ?_) fun _ => hfinish s₄ vm₄ h₄.restorable rfl rfl
  refine (frameSafe_publish _ h₄.restorable).andThen fun _ s₅ vm₅ h₅ _ => ?_
  refine (substituteSource_keepsRestorable h₅.restorable hbase).bind ?_
  rintro - s₆ vm₆ ⟨h₆, hguard, hstep⟩
  exact hfinish s₆ vm₆ h₆ (hguard.trans h₅.guard) (hstep.trans h₅.step)

theorem setup_keepsRestorable {order : Arrangement}
    (h : Restorable S vm₀ p.baseDepth (.start order) vm)
    (hbase : p.baseDepth = vm₀.frames.length) :
    KeepsRestorable S vm₀ p.baseDepth p.setup (.start order) vm fun _ s' vm' =>
      s'.Restorable S vm₀ p.baseDepth vm' ∧ vm'.suspended = false ∧ s'.step = none := by
  unfold TracePlan.setup
  refine meets_bind.mpr (meets_beside (fun _ hc => by cases hc) fun _ => meets_bind.mpr ?_)
  refine keepsRestorable_failAs (meets_ofExcept.mpr ⟨fun places _ => ?_, fun _ _ => h⟩)
  refine KeepsRestorable.bind (keepsRestorable_failAs (prepare_keepsRestorable h hbase)) ?_
  rintro - s₁ vm₁ ⟨h₁, hstep⟩
  refine (frameSafe_publish _ h₁).andThen fun _ s₂ vm₂ h₂ _ => ?_
  refine (frameSafe_clock h₂.restorable).andThen fun now s₃ vm₃ h₃ _ =>
    keepsRestorable_modify_bind ?_
  have hstarted : Restorable S vm₀ p.baseDepth { s₃ with startedAt := now } vm₃ :=
    h₃.restorable.books rfl (fun _ hx => hx) h₃.restorable.edges rfl
  refine keepsRestorable_failRunning (meets_resume hstarted (.inl rfl) ?_)
  rintro - vm₄ rfl h₄
  exact ⟨h₄, rfl, h₃.step.trans (h₂.step.trans hstep)⟩

/-! ## Giving back -/

theorem meets_clearStages {err : TraceError → SessionState → Vm → Prop} (ks : List Nat)
    (h : s.Restorable S vm₀ base vm) :
    (TracePlan.clearStages ks).Meets (.handed S vm₀)
      (fun _ s' vm' => s.RestorableProgress S vm₀ base vm s' vm' ∧ s.NoNewRequests s' ∧
        ∀ k ∈ ks, ∀ edge b, s'.point? edge k = some b → b.request = none) err s vm := by
  induction ks generalizing s vm with
  | nil => exact meets_pure.mpr ⟨.refl h, .refl s, fun _ hk => by cases hk⟩
  | cons k rest ih =>
      unfold TracePlan.clearStages
      refine meets_bind.mpr (Meets.mono (meets_disable .entry k h) ?_ fun _ _ _ hn => hn)
      rintro - s₁ vm₁ ⟨h₁, hsheds₁, hentry⟩
      refine meets_bind.mpr (Meets.mono (meets_disable .exit k h₁.restorable) ?_ fun _ _ _ hn => hn)
      rintro - s₂ vm₂ ⟨h₂, hsheds₂, hexit⟩
      refine Meets.mono (ih h₂.restorable) ?_ fun _ _ _ hn => hn
      rintro - s₃ vm₃ ⟨h₃, hsheds₃, hrest⟩
      refine ⟨h₁.trans (h₂.trans h₃), hsheds₁.trans (hsheds₂.trans hsheds₃),
        fun k' hk' edge b hb => ?_⟩
      rcases List.mem_cons.mp hk' with rfl | hmem
      · cases edge with
        | entry =>
            obtain ⟨b', hb', hnone⟩ := hsheds₂.trans hsheds₃ _ _ b hb
            exact hnone (hentry b' hb')
        | exit =>
            obtain ⟨b', hb', hnone⟩ := hsheds₃ _ _ b hb
            exact hnone (hexit b' hb')
      · exact hrest k' hmem edge b hb

theorem meets_clearIfSet {σ : Type} {st : σ} {kind : UInt8} {request : Option RequestId}
    {ok : Unit → σ → Vm → Prop} {err : TraceError → σ → Vm → Prop} (halive : vm.dead = false)
    (h : S.Handed vm₀ vm) (hok : ∀ vm', vm.Evolved vm' → S.Handed vm₀ vm' →
      (∀ r ∈ vm'.requests, r ∈ vm.requests ∧ (r.kind, r.id) ∉ request.toList.map (kind, ·)) →
        ok () st vm') :
    (TracePlan.clearIfSet kind request).Meets (.handed S vm₀) ok err st vm := by
  cases request with
  | none => exact meets_pure.mpr (hok vm (.refl vm) h fun r hr => ⟨hr, List.not_mem_nil⟩)
  | some id =>
      refine meets_clearAnyway halive h fun vm' hevolved hhanded hrequests =>
        hok vm' hevolved hhanded fun r hr => ?_
      obtain ⟨hmem, hne⟩ := hrequests r hr
      exact ⟨hmem, fun hown => hne (List.mem_singleton.mp hown)⟩

/-- Nothing that the session has asked for is left. -/
theorem meets_clearOwnRequests {err : TraceError → SessionState → Vm → Prop}
    (h : s.Restorable S vm₀ base vm) :
    TracePlan.clearOwnRequests.Meets (.handed S vm₀)
      (fun _ s' vm' => s'.Restorable S vm₀ base vm' ∧ s'.held = []) err s vm := by
  unfold TracePlan.clearOwnRequests
  refine meets_bind.mpr <| meets_get.mpr <| meets_bind.mpr <|
    Meets.mono (meets_clearStages _ h) ?_ fun _ _ _ hn => hn
  rintro - s₁ vm₁ ⟨h₁, hsheds, hnone⟩
  have hstages : s₁.stages.flatMap Stage.held = [] := by
    refine held_eq_nil fun edge k b hb => ?_
    obtain ⟨b₀, hb₀, -⟩ := hsheds edge k b hb
    obtain ⟨stage, hstage, -⟩ := Option.map_eq_some_iff.mp hb₀
    exact hnone k (List.mem_range.mpr (List.getElem?_eq_some_iff.mp hstage).1) edge b hb
  have hheld : (held { s₁ with guard := none, step := none }) = [] := by
    unfold held
    rw [hstages]
    rfl
  refine meets_bind.mpr <| meets_get.mpr <| meets_bind.mpr <| meets_modify.mpr <| meets_bind.mpr ?_
  refine meets_clearIfSet h₁.restorable.alive h₁.restorable.handed
    fun vm₂ hevolved₂ hhanded₂ hguard => ?_
  refine meets_clearIfSet (hevolved₂.dead.trans h₁.restorable.alive) hhanded₂
    fun vm₃ hevolved₃ hhanded₃ hstep => ⟨?_, hheld⟩
  have hevolved := hevolved₂.trans hevolved₃
  refine h₁.restorable.evolves hevolved hhanded₃ (h₁.restorable.lists.grows hevolved.grows)
    (fun r hr => ?_)
    h₁.restorable.edges rfl
  obtain ⟨hmem₂, hnotstep⟩ := hstep r hr
  obtain ⟨hmem₁, hnotguard⟩ := hguard r hmem₂
  have howned := h₁.restorable.held r hmem₁
  unfold held at howned
  rw [hstages, List.nil_append, List.mem_append] at howned
  exact (howned.elim hnotguard hnotstep).elim

/-- What was taken out of the source variable is put back, or stays out of sight. -/
theorem meets_restoreSource (h : s.Restorable S vm₀ p.baseDepth vm) :
    p.restoreSource.Meets (.handed S vm₀)
      (fun _ s' vm' => s'.Restorable S vm₀ p.baseDepth vm' ∧ s'.held = s.held)
      (fun _ s' vm' => s'.Restorable S vm₀ p.baseDepth vm' ∧ s'.held = s.held) s vm := by
  unfold TracePlan.restoreSource
  refine meets_bind.mpr (meets_get.mpr ?_)
  split
  · exact meets_pure.mpr ⟨h, rfl⟩
  rename_i x hx
  refine meets_ite (fun _ => meets_pure.mpr ⟨h, rfl⟩) fun hopen => ?_
  obtain ⟨hbase, halike⟩ := h.source x hx (by simpa using hopen)
  have h₀ := h.forgets x
  refine meets_bind.mpr (meets_modify.mpr (meets_bind.mpr ?_))
  refine meets_aside h₀ rfl rfl (fun (count : Int) vm₁ hr₁ h₁ => ?_)
    fun _ _ hw => ⟨hw.restorable, rfl⟩
  obtain ⟨-, hcount⟩ := Vm.answer_frameCount (congrArg Prod.fst hr₁)
  refine meets_ite (fun _ => meets_pure.mpr ⟨h₁.restorable, rfl⟩) fun _ => ?_
  refine meets_bind.mpr
    (meets_aside h₁.restorable rfl rfl (fun (frames : List FrameInfo) vm₂ hr₂ h₂ => ?_)
    fun _ _ hw => ⟨hw.restorable, rfl⟩)
  obtain ⟨-, hframes⟩ := Vm.answer_frames (congrArg Prod.fst hr₂)
  split
  · exact meets_throw.mpr ⟨h₂.restorable, rfl⟩
  rename_i frame hframe
  have hplace : frame.frameId = S.frame := by
    obtain ⟨l, hl⟩ := h₁.restorable.statement
    have hcounted : count = vm₁.frames.length := by rw [hcount, ← h₁.evolved.frames]
    rw [hframes, hbase, hl.framesFrom hcounted] at hframe
    rw [← Option.some.inj hframe]
  refine meets_ite (fun _ => ?_) fun _ => meets_pure.mpr ⟨h₂.restorable, rfl⟩
  have hevolved := h₁.evolved.trans h₂.evolved
  have hback : vm₂.Alike (vm₂.slotOf S.frame x.slot) (some x.held) := by
    have hslot : vm₂.slotOf S.frame x.slot = vm.slotOf S.frame x.slot := by
      rw [Vm.slotOf, hevolved.frames, Vm.slotOf]
    exact hslot ▸ (halike.grows hevolved.grows).symm
  rw [hplace]
  refine meets_writeSource h₂.restorable hback (fun vm₃ hhanded hg hrequests hslot => ?_)
    fun _ => ⟨h₂.restorable, rfl⟩
  refine ⟨⟨h.halted, hhanded, h₂.restorable.lists.grows hg, fun r hr =>
    h₂.restorable.held r (hrequests ▸ hr),
    h₂.restorable.edges, ?_⟩, rfl⟩
  rintro _ ⟨⟩ hagain
  cases hagain

/-! ## Entries and exits -/

/-- The arguments of the method that was entered are replaced. -/
theorem enterStage_keepsRestorable {request : RequestId} {t : ThreadId} {l : Location}
    (h : s.Restorable S vm₀ base vm) (hframes : vm.frames = vm₀.frames)
    (hentry : Event.methodEntry request t l ∈ vm₀.outbox) :
    KeepsRestorable S vm₀ base (p.enterStage k) s vm fun _ s' vm' =>
      s'.Restorable S vm₀ base vm' ∧ s'.step = s.step := by
  unfold TracePlan.enterStage
  refine (frameSafe_frameOnTop _ h).andThen ?_
  rintro frame s₁ vm₁ h₁ ⟨-, htop⟩
  have hne : frame.frameId ≠ S.frame := by
    rw [Vm.places, List.getElem?_map, Option.map_eq_some_iff] at htop
    obtain ⟨f, hf, hplace⟩ := htop
    rw [hframes, ← List.head?_eq_getElem?] at hf
    rw [← (Prod.mk.inj hplace).1]
    exact h.halted.entries request t l hentry f hf
  refine (frameSafe_consume .entry k h₁.restorable).andThen fun _ s₂ vm₂ h₂ _ => ?_
  refine (frameSafe_stageAt h₂.restorable).andThen ?_
  rintro stage s₃ vm₃ - ⟨rfl, rfl, -⟩
  refine (frameSafe_readArguments _ _ h₂.restorable).andThen fun arguments s₄ vm₄ h₄ hread => ?_
  refine (frameSafe_spliceArguments k arguments h₄.restorable).andThen
    fun substituted s₅ vm₅ h₅ hnew => ?_
  have hall := h₁.trans (h₂.trans (h₄.trans h₅))
  have htop₅ : vm₅.places[0]? = some (frame.frameId, frame.location) := by
    rw [(progress_of_evolved (S := S) hall.evolved).places, htop]
  have hread₅ : List.Forall₂ (fun slot v => vm₅.slotOf frame.frameId slot.1 = some v)
      stage.entry.slots arguments := by
    refine List.Forall₂.imp (fun slot v hv => ?_) hread
    rw [← hv, Vm.slotOf, Vm.slotOf, (h₄.trans h₅).evolved.frames]
  refine KeepsRestorable.bind
    (keepsRestorable_overlook (J := fun s' vm' => s' = s₅ ∧ s₅.Restorable S vm₀ base vm')
    (fun _ _ hJ => hJ.1 ▸ hJ.2) (meets_writeArguments h₅.restorable
      (hall.evolved.frames.trans hframes) htop₅ hne hread₅ hnew)) ?_
  rintro - _ vm₆ ⟨rfl, h₆⟩
  exact (frameSafe_enable .exit k p.thread h₆).keepsRestorable fun _ s₇ vm₇ h₇ _ =>
    ⟨h₇.restorable, h₇.step.trans hall.step⟩

/-- The value that is returned is replaced, or the way back begins. -/
theorem leaveStage_keepsRestorable {request : RequestId} {t : ThreadId} {l : Location} {v : Value}
    (h : s.Restorable S vm₀ base vm) (hdeep : 3 ≤ vm.frames.length)
    (hexit : Event.methodExitWithValue request t l v ∈ vm₀.outbox) (hstep : s.step = none) :
    KeepsRestorable S vm₀ base (p.leaveStage k v) s vm fun _ s' vm' =>
      s'.Restorable S vm₀ base vm' ∧ (s'.step.isSome = true → vm'.Armed) := by
  have hsettled : ∀ {vm'}, vm.Evolved vm' → vm'.Settled v := fun hevolved =>
    ((h.halted.exits request t l v hexit).grows h.handed.toProgress.grows).grows hevolved.grows
  have hnone : ∀ {s' : SessionState} {vm' : Vm}, s'.step = none → s'.step.isSome = true →
      vm'.Armed := by
    intro s' vm' hnone hsome
    rw [hnone] at hsome
    cases hsome
  unfold TracePlan.leaveStage
  refine (frameSafe_consume .exit k h).andThen fun _ s₁ vm₁ h₁ _ => ?_
  refine keepsRestorable_get_bind (keepsRestorable_ite (fun _ => ?_) fun _ => ?_)
  · refine (frameSafe_afterCall k h₁.restorable (hsettled h₁.evolved)).andThen
      fun stream s₂ vm₂ h₂ halike₂ => ?_
    have hsettled₂ := (hsettled (h₁.trans h₂).evolved).alike halike₂
    refine (frameSafe_beforeCall (k + 1) h₂.restorable hsettled₂).andThen
      fun stream' s₃ vm₃ h₃ halike₃ => ?_
    refine (frameSafe_enable .entry (k + 1) p.thread h₃.restorable).andThen fun _ s₄ vm₄ h₄ _ => ?_
    refine (frameSafe_publish _ h₄.restorable).andThen fun _ s₅ vm₅ h₅ _ => ?_
    have hall := h₁.trans (h₂.trans (h₃.trans (h₄.trans h₅)))
    have hfree := hall.step.trans hstep
    refine keepsRestorable_ite (fun _ => keepsRestorable_pure ⟨h₅.restorable, hnone hfree⟩)
      fun _ => ?_
    have halike : vm₅.Alike (some v) (some stream') :=
      ((halike₂.grows h₃.evolved.grows).trans halike₃).grows (h₄.trans h₅).evolved.grows
    refine KeepsRestorable.mono
      (keepsRestorable_overlook (J := fun s' vm' => s' = s₅ ∧ s₅.Restorable S vm₀ base vm')
      (fun _ _ hJ => hJ.1 ▸ hJ.2) (meets_forceReturn h₅.restorable hexit halike)) ?_
    rintro - _ vm₆ ⟨rfl, h₆⟩
    exact ⟨h₆, hnone hfree⟩
  · refine (frameSafe_afterCall k h₁.restorable (hsettled h₁.evolved)).andThen
      fun _ s₂ vm₂ h₂ _ => ?_
    have hall := h₁.trans h₂
    refine keepsRestorable_step h₂.restorable (hall.step.trans hstep)
      (.inr ⟨rfl, hall.evolved.frames ▸ hdeep⟩) fun id vm₃ h₃ _ harmed =>
        keepsRestorable_modify_bind ?_
    exact meets_beside (fun _ hc => by cases hc) fun _ => ⟨h₃, fun _ => harmed⟩

/-- If a step is awaited, the thread goes back to the statement, where it ends. -/
def LedHome (e : Event) (s : SessionState) (vm : Vm) : Prop :=
  s.step.isSome = true → vm.Armed ∧ e.isHomeward = true

theorem ledHome_of_none {e : Event} (h : s.step = none) : LedHome e s vm := by
  intro hsome
  rw [h] at hsome
  cases hsome

/-- After an event the thread goes on, or nothing is asked for any more. -/
def ResumedOrOver (S : Scene) (vm₀ : Vm) (base : Int) (e : Event) (r : Option TracePlan.Finished)
    (s : SessionState) (vm : Vm) : Prop :=
  s.Restorable S vm₀ base vm ∧
    match r with
    | none => vm.suspended = false ∧ LedHome e s vm
    | some _ => s.held = []

/-- What is held is held by a stage, or it is the guard, or the step. -/
theorem held_cases {x : UInt8 × RequestId} (hx : x ∈ s.held) :
    (∃ stage ∈ s.stages, x ∈ stage.held ∧ ∃ edge : MethodEdge, x.1 = edge.number) ∨
      (∃ id, s.guard = some id ∧ x = (EventKind.exception, id)) ∨
        ∃ id, s.step = some id ∧ x = (EventKind.singleStep, id) := by
  rcases List.mem_append.mp hx with hx | hx
  · obtain ⟨stage, hstage, hmem⟩ := List.mem_flatMap.mp hx
    refine .inl ⟨stage, hstage, hmem, ?_⟩
    rcases List.mem_append.mp hmem with hmem | hmem
    · obtain ⟨_, -, rfl⟩ := List.mem_map.mp hmem
      exact ⟨_, rfl⟩
    · obtain ⟨_, -, rfl⟩ := List.mem_map.mp hmem
      exact ⟨_, rfl⟩
  · rcases List.mem_append.mp hx with hx | hx
    · obtain ⟨id, hid, rfl⟩ := List.mem_map.mp hx
      exact .inr (.inl ⟨id, Option.mem_toList.mp hid, rfl⟩)
    · obtain ⟨id, hid, rfl⟩ := List.mem_map.mp hx
      exact .inr (.inr ⟨id, Option.mem_toList.mp hid, rfl⟩)

theorem guard_of_held {id : RequestId} (h : (EventKind.exception, id) ∈ s.held) :
    s.guard = some id := by
  rcases held_cases h with ⟨-, -, -, edge, hkind⟩ | ⟨id', hid, heq⟩ | ⟨id', -, heq⟩
  · cases edge <;> cases hkind
  · rw [hid, (Prod.mk.inj heq).2]
  · cases (Prod.mk.inj heq).1

theorem step_of_held {id : RequestId} (h : (EventKind.singleStep, id) ∈ s.held) :
    s.step = some id := by
  rcases held_cases h with ⟨-, -, -, edge, hkind⟩ | ⟨id', -, heq⟩ | ⟨id', hid, heq⟩
  · cases edge <;> cases hkind
  · cases (Prod.mk.inj heq).1
  · rw [hid, (Prod.mk.inj heq).2]

/-- A request for a method belongs to a stage. -/
theorem stageOf_of_held {edge : MethodEdge} {request : RequestId} (h : s.Restorable S vm₀ base vm)
    (hown : (edge.number, request) ∈ s.held) : ∃ k, s.stageOf? edge request = some k := by
  obtain ⟨stage, hstage, hmem⟩ : ∃ stage ∈ s.stages, (edge.number, request) ∈ stage.held := by
    rcases held_cases hown with ⟨stage, hstage, hmem, -⟩ | ⟨_, -, heq⟩ | ⟨_, -, heq⟩
    · exact ⟨stage, hstage, hmem⟩
    · cases edge <;> cases (Prod.mk.inj heq).1
    · cases edge <;> cases (Prod.mk.inj heq).1
  obtain ⟨i, hi⟩ := List.mem_iff_getElem?.mp hstage
  have hpoint : ∀ edge', (edge.number, request) ∈ (stage.point edge').held →
      (stage.point edge).request = some request := by
    intro edge' hmem
    obtain ⟨id, hid, heq⟩ := List.mem_map.mp hmem
    obtain ⟨hnumber, rfl⟩ := Prod.mk.inj heq
    rw [h.edges edge' i _ (by rw [point?, hi]; rfl)] at hnumber
    obtain rfl : edge' = edge := by
      cases edge <;> cases edge' <;> first | rfl | cases hnumber
    exact Option.mem_toList.mp hid
  have hrequest : (stage.point edge).request = some request := by
    rcases List.mem_append.mp hmem with hmem | hmem
    · exact hpoint .entry hmem
    · exact hpoint .exit hmem
  have hsome : (s.stageOf? edge request).isSome = true := by
    rw [stageOf?, List.findIdx?_isSome, List.any_eq_true]
    refine ⟨stage, hstage, ?_⟩
    cases edge <;> exact beq_iff_eq.mpr hrequest
  exact Option.isSome_iff_exists.mp hsome

/-- The thread goes on from an event of a method, whatever the method is. -/
theorem atMethodEvent_keepsRestorable {edge : MethodEdge} {request : RequestId} {l : Location}
    {returned : Value} {e : Event} (hp : p.thread = mainThread) (h : s.Restorable S vm₀ base vm)
    (hown : (edge.number, request) ∈ s.held) (hstep : s.step = none)
    (henter : edge = .entry → ∀ k s' vm', s.RestorableProgress S vm₀ base vm s' vm' →
      KeepsRestorable S vm₀ base (p.enterStage k) s' vm' fun _ s'' vm'' =>
        s''.Restorable S vm₀ base vm'' ∧ LedHome e s'' vm'')
    (hleave : edge = .exit → ∀ k s' vm', s.RestorableProgress S vm₀ base vm s' vm' →
      KeepsRestorable S vm₀ base (p.leaveStage k returned) s' vm' fun _ s'' vm'' =>
        s''.Restorable S vm₀ base vm'' ∧ LedHome e s'' vm'') :
    KeepsRestorable S vm₀ base (p.atMethodEvent edge request l returned) s vm fun _ s' vm' =>
      s'.Restorable S vm₀ base vm' ∧ vm'.suspended = false ∧ LedHome e s' vm' := by
  have hresume : ∀ s' vm', s'.Restorable S vm₀ base vm' ∧ LedHome e s' vm' →
      KeepsRestorable S vm₀ base p.resume s' vm' fun _ s'' vm'' =>
        s''.Restorable S vm₀ base vm'' ∧ vm''.suspended = false ∧ LedHome e s'' vm'' := by
    rintro s' vm' ⟨h', hled⟩
    refine meets_resume h' (.inr (by rw [hp])) ?_
    rintro - vm'' rfl h''
    exact ⟨h'', rfl, hled⟩
  unfold TracePlan.atMethodEvent
  refine keepsRestorable_get_bind ?_
  obtain ⟨k, hk⟩ := stageOf_of_held h hown
  rw [hk]
  refine (frameSafe_stageAt h).andThen ?_
  rintro stage s₁ vm₁ - ⟨rfl, rfl, -⟩
  cases edge with
  | entry =>
      refine (frameSafe_isAt _ l h).andThen fun isAt s₂ vm₂ h₂ _ => ?_
      split
      · exact (henter rfl k s₂ vm₂ h₂).bind fun _ => hresume
      · exact hresume _ _ ⟨h₂.restorable, ledHome_of_none (h₂.step.trans hstep)⟩
  | exit =>
      refine (frameSafe_isAt _ l h).andThen fun isAt s₂ vm₂ h₂ _ => ?_
      split
      · exact (hleave rfl k s₂ vm₂ h₂).bind fun _ => hresume
      · exact hresume _ _ ⟨h₂.restorable, ledHome_of_none (h₂.step.trans hstep)⟩

/-! ## The way back -/

theorem frameSafe_gatherResults (h : s.Restorable S vm₀ base vm) :
    FrameSafe S vm₀ base p.gatherResults s vm fun _ s' _ => s'.held = s.held := by
  have hcollect : ∀ (s₀ : SessionState) (stages : List Stage) s vm, s.Restorable S vm₀ base vm →
      FrameSafe S vm₀ base (TracePlan.gatherResults.collectReports p s₀ stages) s vm
        fun _ s' _ => s'.held = s.held := by
    intro s₀ stages
    induction stages with
    | nil => exact fun _ _ h => frameSafe_pure h rfl
    | cons stage rest ih =>
        intro s vm h
        refine (frameSafe_inBridge_of_sends (stage.handler.result_sends _) h).bind
          fun _ s₁ vm₁ h₁ hs₁ => ?_
        refine (ih s₁ vm₁ h₁.restorable).bind fun _ s₂ vm₂ h₂ hheld =>
          frameSafe_pure h₂.restorable ?_
        rw [hheld, hs₁]
        rfl
  unfold TracePlan.gatherResults
  refine frameSafe_get_bind ((hcollect _ _ s vm h).bind fun reports s₁ vm₁ h₁ hheld => ?_)
  refine meets_bind.mpr (meets_beside (fun _ hc => by cases hc) fun now => ?_)
  split
  · exact frameSafe_throw h₁.restorable
  · exact frameSafe_pure h₁.restorable hheld

/-- When the results are read, nothing is asked for any more. -/
theorem complete_keepsRestorable (h : s.Restorable S vm₀ p.baseDepth vm) :
    KeepsRestorable S vm₀ p.baseDepth p.complete s vm fun _ s' vm' =>
      s'.Restorable S vm₀ p.baseDepth vm' ∧ s'.held = [] := by
  unfold TracePlan.complete
  refine (frameSafe_publish _ h).andThen fun _ s₁ vm₁ h₁ _ => ?_
  refine KeepsRestorable.bind (keepsRestorable_failRunning (meets_clearOwnRequests h₁.restorable))
    ?_
  rintro - s₂ vm₂ ⟨h₂, hnil₂⟩
  have hrestore : KeepsRestorable S vm₀ p.baseDepth (p.overlook p.restoreSource) s₂ vm₂
    fun _ s' vm' =>
      s'.Restorable S vm₀ p.baseDepth vm' ∧ s'.held = s₂.held :=
    keepsRestorable_overlook (J := fun s' vm' => s'.Restorable S vm₀ p.baseDepth vm' ∧
      s'.held = s₂.held)
      (fun _ _ hJ => hJ.1) (meets_restoreSource h₂)
  refine KeepsRestorable.bind (keepsRestorable_failRunning hrestore) ?_
  rintro - s₃ vm₃ ⟨h₃, hheld₃⟩
  refine keepsRestorable_failAs
    ((frameSafe_gatherResults h₃).andThen fun results s₄ vm₄ h₄ hheld₄ => ?_)
  refine (frameSafe_inBridge_of_sends (Bridge.pack_sends _ results) h₄.restorable).andThen
    fun packed s₅ vm₅ h₅ hs₅ => ?_
  have hsends : (Bridge.interpret p.chain packed).Sends (BridgeRoutine.BridgeCommand true)
    s₅.bridge :=
    Bridge.interpret_sends _ packed
  refine (frameSafe_inBridge_of_sends hsends h₅.restorable).andThen fun trace s₆ vm₆ h₆ hs₆ => ?_
  refine keepsRestorable_pure ⟨h₆.restorable, ?_⟩
  rw [hs₆, hs₅]
  exact hheld₄.trans (hheld₃.trans hnil₂)

/-- The thread has arrived, or it goes another step. -/
theorem atPause_keepsRestorable {e : Event} (hp : p.thread = mainThread)
    (h : s.Restorable S vm₀ p.baseDepth vm) (hstep : s.step = none)
    (hhome : p.baseDepth < vm.frames.length → e.isHomeward = true) :
    KeepsRestorable S vm₀ p.baseDepth p.atPause s vm (ResumedOrOver S vm₀ p.baseDepth e) := by
  unfold TracePlan.atPause
  have hcount : ∀ (count : Int) vm', vm.answer (.frameCount p.thread) = (.ok count, vm') →
      vm.Evolved vm' → count = vm.frames.length :=
    fun count _ hr _ => (Vm.answer_frameCount (congrArg Prod.fst hr)).2
  have hcounts := frameSafe_command (c := .frameCount p.thread) h rfl rfl hcount
  refine (frameSafe_failRunning hcounts).andThen ?_
  rintro (count : Int) s₁ vm₁ h₁ hframes
  refine keepsRestorable_ite (fun _ => ?_) fun hcount => ?_
  · refine (complete_keepsRestorable h₁.restorable).bind ?_
    rintro finished s₂ vm₂ ⟨h₂, hnil⟩
    exact keepsRestorable_pure ⟨h₂, hnil⟩
  extract_lets limit
  have hhomeward := hhome (by omega)
  have hgo : KeepsRestorable S vm₀ p.baseDepth (do
      modify fun s => { s with stepAttempts := s.stepAttempts + 1 }
      if limit < (← get).stepAttempts then
        throw (.tracing s!"did not return to the invoking frame after {limit} steps")
      let step ← EventRequest.stepInto p.thread
      modify fun s => { s with step := some step }
      p.resume) s₁ vm₁ fun _ s' vm' =>
        s'.Restorable S vm₀ p.baseDepth vm' ∧ vm'.suspended = false ∧ LedHome e s' vm' := by
    have hcounted :
        Restorable S vm₀ p.baseDepth { s₁ with stepAttempts := s₁.stepAttempts + 1 } vm₁ :=
      h₁.restorable.books rfl (fun _ hx => hx) h₁.restorable.edges rfl
    refine keepsRestorable_modify_bind (keepsRestorable_get_bind ?_)
    refine keepsRestorable_ite (fun _ => keepsRestorable_throw hcounted) fun _ => ?_
    refine keepsRestorable_step hcounted (h₁.step.trans hstep) (.inl rfl) fun id vm₂ h₂ _ harmed =>
      keepsRestorable_modify_bind (meets_resume h₂ (.inr (by rw [hp])) ?_)
    rintro - vm₃ rfl h₃
    exact ⟨h₃, rfl, fun _ => ⟨harmed, hhomeward⟩⟩
  refine KeepsRestorable.bind (keepsRestorable_failRunning hgo) fun _ s₂ vm₂ h₂ => ?_
  exact keepsRestorable_pure h₂

/-! ## Exceptions -/

/-- An exception that is caught in the method on top does not escape from the chain, unless the
chain is left already. -/
theorem frameSafe_escapes {caught : Option Location} (h : s.Restorable S vm₀ base vm)
    (hat : ∀ l, caught = some l → ∃ place, vm.places.head? = some place ∧
      place.2.sameMethod l = true) :
    FrameSafe S vm₀ base (p.escapes caught) s vm fun escapes _ _ => escapes = true →
      caught = none ∨ (vm.frames.length : Int) ≤ p.baseDepth := by
  unfold TracePlan.escapes
  split
  · exact frameSafe_pure h fun _ => .inl rfl
  rename_i l
  have hcount : ∀ (count : Int) vm', vm.answer (.frameCount p.thread) = (.ok count, vm') →
      vm.Evolved vm' → count = vm.frames.length :=
    fun count _ hr _ => (Vm.answer_frameCount (congrArg Prod.fst hr)).2
  refine (frameSafe_command (c := .frameCount p.thread) h rfl rfl hcount).bind ?_
  rintro (count : Int) s₁ vm₁ h₁ hcount
  extract_lets inner
  refine frameSafe_ite (fun hout => frameSafe_pure h₁.restorable fun _ => .inr (by omega))
    fun hin => ?_
  have hframes : ∀ (frames : List FrameInfo) vm', vm₁.answer (.frames p.thread 0 inner) =
      (.ok frames, vm') → vm₁.Evolved vm' → frames = vm₁.framesFrom 0 inner :=
    fun frames _ hr _ => (Vm.answer_frames (congrArg Prod.fst hr)).2
  refine (frameSafe_command (c := .frames p.thread 0 inner) h₁.restorable rfl rfl hframes).bind ?_
  rintro (frames : List FrameInfo) s₂ vm₂ h₂ rfl
  refine frameSafe_pure h₂.restorable fun hescapes => ?_
  exfalso
  obtain ⟨place, hplace, hsame⟩ := hat l rfl
  rw [Vm.places, List.head?_map, Option.map_eq_some_iff] at hplace
  obtain ⟨f, hf, rfl⟩ := hplace
  have hmem : ({ frameId := f.id, location := f.location } : FrameInfo) ∈
      vm₁.framesFrom 0 inner := by
    obtain ⟨rest, hrest⟩ := List.head?_eq_some_iff.mp (h₁.evolved.frames ▸ hf)
    obtain ⟨n, hn⟩ := Int.eq_succ_of_zero_lt (Int.not_le.mp hin)
    rw [Vm.framesFrom, hrest, hn]
    exact List.mem_cons_self
  have hnone : ∀ f ∈ vm₁.framesFrom 0 inner, f.location.sameMethod l = false := by
    simpa using hescapes
  exact absurd (hnone _ hmem) (by simp [hsame])

theorem onException_keepsRestorable {e : Event} {exception : ObjectId} {caught : Option Location}
    {request : RequestId} {t : ThreadId} {l : Location}
    (he : e = .exception request t l exception caught) (hp : p.thread = mainThread)
    (h : s.Restorable S vm₀ p.baseDepth vm) (hat : vm.IsAt e)
    (hled : s.step.isSome = true → vm.Armed ∧ e.isUncaught = true) :
    KeepsRestorable S vm₀ p.baseDepth (p.onException exception caught) s vm
      (ResumedOrOver S vm₀ p.baseDepth e) := by
  -- An exception is passed over in two cases: on the way home, and inside the chain.
  have hresume : ∀ s' vm', s'.Restorable S vm₀ p.baseDepth vm' → LedHome e s' vm' →
      KeepsRestorable S vm₀ p.baseDepth (do
        TracePlan.failRunning p.resume
        return none : SessionStep (Option TracePlan.Finished)) s' vm'
          (ResumedOrOver S vm₀ p.baseDepth e) := by
    intro s' vm' h' hled'
    refine meets_bind.mpr (keepsRestorable_failRunning (meets_resume h' (.inr (by rw [hp])) ?_))
    rintro - vm'' rfl h''
    exact keepsRestorable_pure ⟨h'', rfl, hled'⟩
  unfold TracePlan.onException
  refine keepsRestorable_get_bind
    (keepsRestorable_ite (fun _ => hresume s vm h fun hsome => ?_) fun hstep => ?_)
  · obtain ⟨harmed, huncaught⟩ := hled hsome
    exact ⟨harmed, by rw [Event.isHomeward, huncaught, Bool.or_true]⟩
  have hnone : s.step = none := by simpa using hstep
  have hescapes : FrameSafe S vm₀ p.baseDepth (p.escapes caught) s vm fun escapes _ _ =>
      escapes = true → caught = none ∨ (vm.frames.length : Int) ≤ p.baseDepth := by
    refine frameSafe_escapes h fun place hplace => ?_
    rw [he, hplace] at hat
    exact hat
  refine (frameSafe_failRunning hescapes).andThen fun escapes s₁ vm₁ h₁ houtside => ?_
  refine keepsRestorable_ite (fun hescaped => ?_) fun _ =>
    hresume s₁ vm₁ h₁.restorable (ledHome_of_none (h₁.step.trans hnone))
  have hsends : (Bridge.keep (.object exception)).Sends (BridgeRoutine.BridgeCommand true)
    s₁.bridge :=
    Bridge.keep_sends _
  have hkeep := frameSafe_inBridge_of_sends hsends h₁.restorable
  refine (frameSafe_failRunning hkeep).andThen fun _ s₂ vm₂ h₂ _ => ?_
  refine keepsRestorable_get_bind (keepsRestorable_modify_bind (meets_bind.mpr ?_))
  refine keepsRestorable_failRunning (meets_clearIfSet h₂.restorable.alive h₂.restorable.handed
    fun vm₃ hevolved hhanded hrequests => ?_)
  have h₃ : Restorable S vm₀ p.baseDepth { s₂ with thrown := some exception, guard :=
    none } vm₃ := by
    refine h₂.restorable.evolves hevolved hhanded (h₂.restorable.lists.grows hevolved.grows)
      (fun r hr => ?_) h₂.restorable.edges rfl
    obtain ⟨hmem, hnotguard⟩ := hrequests r hr
    rcases List.mem_append.mp (h₂.restorable.held r hmem) with hstage | hother
    · exact List.mem_append_left _ hstage
    · exact List.mem_append_right _
        (List.mem_append_right _ ((List.mem_append.mp hother).resolve_left hnotguard))
  refine meets_bind.mpr (meets_beside (fun _ hc => by cases hc) fun _ => ?_)
  refine atPause_keepsRestorable hp h₃ (h₂.step.trans (h₁.step.trans hnone)) fun hinside => ?_
  rcases houtside hescaped with hcaught | hout
  · rw [he, hcaught]
    rfl
  · rw [hevolved.frames, h₂.evolved.frames, h₁.evolved.frames] at hinside
    omega

/-! ## Events -/

/-- The event of a request that the session holds. -/
theorem onEvent_keepsRestorable {e : Event} {r : InstalledRequest} (hp : p.thread = mainThread)
    (hbase : 2 ≤ p.baseDepth) (h : s.Restorable S vm₀ p.baseDepth vm)
    (hframes : vm.frames = vm₀.frames)
    (hmem : e ∈ vm₀.outbox) (hat : vm.IsAt e) (hraised : Vm.RaisedBy r e)
    (hown : (r.kind, r.id) ∈ s.held)
    (hled : s.step.isSome = true →
      vm.Armed ∧ e.isUncaught = true ∨ e.isStep = true ∧ vm.frames.length = 2) :
    KeepsRestorable S vm₀ p.baseDepth (p.onEvent e) s vm (ResumedOrOver S vm₀ p.baseDepth e) := by
  have hkind : ∀ {kind : UInt8}, r.kind = kind → (kind, r.id) ∈ s.held := fun heq => heq ▸ hown
  have hthread : (e.thread?.any (· ≠ p.thread)) = false := by
    cases hraised <;> simp [Event.thread?, hp]
  have hmethod : ∀ (t : SessionRoutine Unit),
    (KeepsRestorable S vm₀ p.baseDepth t s vm fun _ s' vm' =>
      s'.Restorable S vm₀ p.baseDepth vm' ∧ vm'.suspended = false ∧ LedHome e s' vm') →
        KeepsRestorable S vm₀ p.baseDepth (do
          TracePlan.failRunning t
          return none : SessionStep (Option TracePlan.Finished)) s vm
            (ResumedOrOver S vm₀ p.baseDepth e) := fun t ht =>
    KeepsRestorable.bind (keepsRestorable_failRunning ht) fun _ _ _ h' => keepsRestorable_pure h'
  -- While a step is awaited, nothing else stops the thread than the step and an uncaught exception.
  have hfree : e.isUncaught = false → e.isStep = false → s.step = none := by
    intro hcaught hnostep
    by_contra hsome
    rcases hled (Option.isSome_iff_ne_none.mpr hsome) with ⟨-, huncaught⟩ | ⟨hisstep, -⟩
    · rw [hcaught] at huncaught
      cases huncaught
    · rw [hnostep] at hisstep
      cases hisstep
  unfold TracePlan.onEvent
  refine keepsRestorable_ite (fun hother => ?_) fun _ => ?_
  · rw [hthread] at hother
    cases hother
  cases hraised with
  | entry l hk =>
      have hnone := hfree rfl rfl
      refine hmethod _ (atMethodEvent_keepsRestorable hp h (hkind hk) hnone
        (fun _ k s' vm' h' => ?_)
        fun hedge => by cases hedge)
      refine (enterStage_keepsRestorable h'.restorable (h'.evolved.frames.trans hframes) hmem).mono
        ?_
      rintro - s'' vm'' ⟨h'', hstep⟩
      exact ⟨h'', ledHome_of_none (hstep.trans (h'.step.trans hnone))⟩
  | exit l v hk =>
      have hnone := hfree rfl rfl
      have hdeep : 3 ≤ vm.frames.length := by
        rw [← Vm.length_places]
        exact hat
      refine hmethod _ (atMethodEvent_keepsRestorable hp h (hkind hk) hnone
        (fun hedge => by cases hedge)
        fun _ k s' vm' h' => ?_)
      refine (leaveStage_keepsRestorable h'.restorable (h'.evolved.frames ▸ hdeep) hmem
        (h'.step.trans hnone)).mono ?_
      rintro - s'' vm'' ⟨h'', harmed⟩
      exact ⟨h'', fun hsome => ⟨harmed hsome, rfl⟩⟩
  | step l hk =>
      have hstep : s.step = some r.id := step_of_held (hkind hk)
      have hlength : vm.frames.length = 2 := by
        rcases hled (by rw [hstep]; rfl) with ⟨-, huncaught⟩ | ⟨-, hlength⟩
        · cases huncaught
        · exact hlength
      refine keepsRestorable_get_bind
        (keepsRestorable_ite (fun _ => ?_) fun hother => absurd hstep hother)
      refine keepsRestorable_modify_bind (meets_bind.mpr (meets_clearAnyway h.alive h.handed
        fun vm₁ hevolved hhanded hrequests => ?_))
      refine atPause_keepsRestorable hp ?_ rfl fun hinside => ?_
      · refine h.evolves hevolved hhanded (h.lists.grows hevolved.grows) (fun r' hr' => ?_) h.edges
          rfl
        obtain ⟨hmem', hne⟩ := hrequests r' hr'
        rcases List.mem_append.mp (h.held r' hmem') with hstage | hother
        · exact List.mem_append_left _ hstage
        · rw [hstep] at hother
          refine List.mem_append_right _ (List.mem_append_left _ ?_)
          exact (List.mem_append.mp hother).resolve_right
            fun hown' => hne (List.mem_singleton.mp hown')
      · rw [hevolved.frames, hlength] at hinside
        omega
  | exception l exception caught hk =>
      have hguard : s.guard = some r.id := guard_of_held (hkind hk)
      refine keepsRestorable_get_bind
        (keepsRestorable_ite (fun _ => ?_) fun hother => absurd hguard hother)
      refine onException_keepsRestorable rfl hp h hat fun hsome => ?_
      rcases hled hsome with hled | ⟨hisstep, -⟩
      · exact hled
      · cases hisstep

/-! ## The end of a trace -/

/-- A trace that was given up asks for nothing any more. -/
theorem meets_takeBack {ε : Type} {err : ε → SessionState → Vm → Prop}
    (h : s.Restorable S vm₀ p.baseDepth vm) :
    (p.takeBack : Routine ε SessionState Unit).Meets (.handed S vm₀)
      (fun _ s' vm' => s'.Restorable S vm₀ p.baseDepth vm' ∧ s'.held = []) err s vm := by
  unfold TracePlan.takeBack
  refine meets_bind.mpr <| meets_attempt.mpr <| Meets.mono (meets_clearOwnRequests h) ?_
    fun _ _ _ (hn : False) => hn.elim
  rintro - s₁ vm₁ ⟨h₁, hnil⟩
  have hdone : ∀ (s' : SessionState) vm', s'.Restorable S vm₀ p.baseDepth vm' ∧ s'.held = s₁.held →
      s'.Restorable S vm₀ p.baseDepth vm' ∧ s'.held = [] := fun _ _ h => ⟨h.1, h.2.trans hnil⟩
  exact meets_bind.mpr <| meets_attempt.mpr <| Meets.mono (meets_restoreSource h₁)
    (fun _ s' vm' h' => meets_pure.mpr (hdone s' vm' h')) fun _ s' vm' h' =>
      meets_pure.mpr (hdone s' vm' h')

theorem meets_enableAll {ε σ : Type} {st : σ} {err : ε → σ → Vm → Prop} (ids : List ObjectId)
    (h : S.Handed vm₀ vm) (hnone : vm.requests = []) :
    (Bridge.enableAll ids : Routine ε σ Unit).Meets (.handed S vm₀)
      (fun _ _ vm' => S.Handed vm₀ vm' ∧ vm'.requests = []) err st vm := by
  induction ids generalizing vm with
  | nil => exact meets_pure.mpr ⟨h, hnone⟩
  | cons id rest ih =>
      have hhanded : S.Handed vm₀ (vm.answer (.enableCollection id)).2 := h.answer rfl
      have hrequests : (vm.answer (.enableCollection id)).2.requests = [] :=
        ((Vm.answered vm (.enableCollection id)).asked_of_ne rfl).1.trans hnone
      refine meets_bind.mpr (meets_commandAnyway.mpr ⟨fun c hc => ?_, fun r vm' hr => ?_⟩)
      · cases hc
        exact hhanded
      · rw [hr.answer] at hhanded hrequests
        exact ih hhanded hrequests

/-- What the trace has kept from collection is let go of. -/
theorem dispose_meets (h : S.Handed vm₀ vm) (hnone : vm.requests = []) :
    (do
      let _ ← (TracePlan.dispose : Routine Unit SessionState Unit) s
      return Continuation.finished : Program Continuation).Meets (.handed S vm₀)
        (fun k vm' => k = .finished ∧ S.Handed vm₀ vm' ∧ vm'.requests = []) vm := by
  have hdispose : (TracePlan.dispose : Routine Unit SessionState Unit).Meets (.handed S vm₀)
      (fun _ _ vm' => S.Handed vm₀ vm' ∧ vm'.requests = []) (fun _ _ _ => False) s vm := by
    unfold TracePlan.dispose Bridge.dispose
    refine meets_bind.mpr <| meets_within.mpr <| meets_bind.mpr <| meets_get.mpr ?_
    split
    · exact meets_pure.mpr (meets_pure.mpr ⟨h, hnone⟩)
    · exact meets_bind.mpr <| meets_set.mpr <| meets_bind.mpr <|
        Meets.mono (meets_enableAll _ h hnone) (fun _ _ _ h' => meets_pure.mpr (meets_pure.mpr h'))
          fun _ _ _ hn => hn
  exact (Program.meets_bind _ _ _ _).mpr <| Routine.Meets.program hdispose
    (fun _ _ _ h' => ⟨rfl, h'⟩) fun _ _ _ hn => hn.elim

end SessionRoutine

/-! ## Traces -/

/-- A trace that waits for an event has let the thread go on. -/
structure ActiveTrace.ThreadResumed (S : Scene) (vm₀ : Vm) (t : ActiveTrace) (vm : Vm) : Prop where
  restorable : t.state.Restorable S vm₀ t.plan.baseDepth vm
  awake : vm.suspended = false
  led : t.state.step.isSome = true → vm.Armed ∧ ∃ e ∈ vm₀.outbox, e.isHomeward = true
  thread : t.plan.thread = mainThread
  depth : 2 ≤ t.plan.baseDepth

/-- A trace that has done what it could has changed nothing that matters to the program. -/
def Continuation.Harmless (S : Scene) (vm₀ : Vm) (k : Continuation) (vm : Vm) : Prop :=
  match k with
  | .finished => S.Handed vm₀ vm ∧ vm.requests = []
  | .listen t => t.ThreadResumed S vm₀ vm

namespace ActiveTrace

variable {t : ActiveTrace} {e : Event}

theorem meets_besides {α : Type} {a : Action} {next : a.Reply → Program α} {post : α → Vm → Prop}
    (ha : ∀ c, a ≠ .command c) (hnext : ∀ r, (next r).Meets (.handed S vm₀) post vm) :
    (Program.act a next).Meets (.handed S vm₀) post vm := by
  refine ⟨fun c hc => absurd hc (ha c), fun r vm' hr => ?_⟩
  cases hr with
  | command c => exact absurd rfl (ha c)
  | beside r => exact hnext r

theorem dispose_harmless (h : S.Handed vm₀ vm) (hnone : vm.requests = []) :
    (do
      let _ ← (TracePlan.dispose : Routine Unit SessionState Unit) s
      return Continuation.finished : Program Continuation).Meets (.handed S vm₀)
        (Continuation.Harmless S vm₀) vm :=
  Program.Meets.mono (SessionRoutine.dispose_meets h hnone) fun _ _ ⟨hk, h'⟩ => hk ▸ h'

/-- The session holds all that is set. -/
theorem requests_of_held (h : s.Restorable S vm₀ base vm) (hnil : s.held = []) : vm.requests = [] :=
  List.eq_nil_iff_forall_not_mem.mpr fun r hr => by
    have howned := h.held r hr
    rw [hnil] at howned
    cases howned

theorem giveUp_harmless (failure : TraceFailure)
    (h : t.state.Restorable S vm₀ t.plan.baseDepth vm) :
    (t.giveUp failure).Meets (.handed S vm₀) (Continuation.Harmless S vm₀) vm := by
  unfold giveUp
  refine (Program.meets_bind _ _ _ _).mpr (Routine.Meets.program (meets_takeBack h) ?_
    fun _ _ _ (hn : False) => hn.elim)
  rintro - s' vm' ⟨h', hnil⟩
  refine meets_besides (fun _ hc => by cases hc) fun _ => ?_
  refine meets_besides (fun _ hc => by cases hc) fun _ => ?_
  exact dispose_harmless h'.handed (requests_of_held h' hnil)

theorem succeed_harmless (finished : TracePlan.Finished)
    (h : t.state.Restorable S vm₀ t.plan.baseDepth vm) (hnil : t.state.held = []) :
    (t.succeed finished).Meets (.handed S vm₀) (Continuation.Harmless S vm₀) vm := by
  unfold succeed
  refine meets_besides (fun _ hc => by cases hc) fun _ => ?_
  refine meets_besides (fun _ hc => by cases hc) fun _ => ?_
  exact dispose_harmless h.handed (requests_of_held h hnil)

/-- A trace that hears of the event at which its thread has stopped. -/
theorem onEvent_harmless {r : InstalledRequest} (hp : t.plan.thread = mainThread)
    (hbase : 2 ≤ t.plan.baseDepth) (h : t.state.Restorable S vm₀ t.plan.baseDepth vm)
    (hframes : vm.frames = vm₀.frames) (hmem : e ∈ vm₀.outbox) (hat : vm.IsAt e)
    (hraised : Vm.RaisedBy r e) (hown : (r.kind, r.id) ∈ t.state.held)
    (hled : t.state.step.isSome = true →
      vm.Armed ∧ e.isUncaught = true ∨ e.isStep = true ∧ vm.frames.length = 2) :
    (t.onEvent e).Meets (.handed S vm₀) (Continuation.Harmless S vm₀) vm := by
  unfold ActiveTrace.onEvent
  refine (Program.meets_bind _ _ _ _).mpr (Routine.Meets.program
    (onEvent_keepsRestorable hp hbase h hframes hmem hat hraised hown hled) ?_ ?_)
  · rintro (_ | finished) s' vm' ⟨h', hrest⟩
    · exact ⟨h', hrest.1, fun hsome => ⟨(hrest.2 hsome).1, e, hmem, (hrest.2 hsome).2⟩, hp, hbase⟩
    · exact succeed_harmless (t := { t with state := s' }) finished h' hrest
  · exact fun failure s' vm' h' => giveUp_harmless (t := { t with state := s' }) failure h'

/-- A trace that begins while nothing is asked for. -/
theorem start_harmless (options : TraceOptions) (request : TraceRequest) (hs : S.Halted vm₀)
    (h : S.Handed vm₀ vm) (hnone : vm.requests = []) :
    (start options request).Meets (.handed S vm₀) (Continuation.Harmless S vm₀) vm := by
  have hnext : ∀ {c : Command} {vm' : Vm}, c.touchesThread = false → c.asks = false →
      S.Handed vm₀ vm' ∧ vm'.requests = [] →
        S.Handed vm₀ (vm'.answer c).2 ∧ (vm'.answer c).2.requests = [] := fun htouch hasks h' =>
    ⟨h'.1.answer htouch, ((Vm.answered _ _).asked_of_ne hasks).1.trans h'.2⟩
  have hbegin : (TracePlan.begin options request.chain request.thread :
      Routine TraceError Unit TracePlan).Meets (.handed S vm₀)
      (fun plan _ vm' => (S.Handed vm₀ vm' ∧ vm'.requests = []) ∧ plan.thread = mainThread ∧
        plan.baseDepth = vm₀.frames.length)
      (fun _ _ vm' => S.Handed vm₀ vm' ∧ vm'.requests = []) () vm := by
    unfold TracePlan.begin frameOnTop
    have h₁ := hnext (c := .frames request.thread 0 1) rfl rfl ⟨h, hnone⟩
    refine meets_bind.mpr (meets_bind.mpr (meets_handed h₁.1 (fun frames vm₁ hr₁ => ?_)
      fun e vm₁ he => by rwa [he] at h₁))
    rw [hr₁] at h₁
    split
    · have h₂ := hnext (c := .frameCount request.thread) rfl rfl h₁
      refine meets_pure.mpr (meets_bind.mpr (meets_handed h₂.1 (fun (n : Int) vm₂ hr₂ => ?_)
        fun e vm₂ he => by rwa [he] at h₂))
      rw [hr₂] at h₂
      have hcount := congrArg Prod.fst hr₂
      refine meets_pure.mpr ⟨h₂, Vm.answer_frameCount_thread hcount, ?_⟩
      rw [← Vm.length_places, ← h₁.1.toProgress.places, Vm.length_places]
      exact (Vm.answer_frameCount hcount).2
    · exact meets_throw.mpr h₁
  unfold start
  refine (Program.meets_bind _ _ _ _).mpr (Routine.Meets.program hbegin ?_ ?_)
  · rintro plan - vm' ⟨⟨h', hnone'⟩, hthread, hdepth⟩
    have hrestorable : SessionState.Restorable S vm₀ plan.baseDepth (.start request.order) vm' := by
      refine ⟨hs, h', BridgeState.lists_empty vm', fun r hr => ?_, fun edge k b hb => ?_,
        fun x hx => ?_⟩
      · rw [hnone'] at hr
        cases hr
      · cases hb
      · cases hx
    have hdeep : 2 ≤ plan.baseDepth := by
      obtain ⟨l, hl⟩ := hs.statement
      have hle := hl.place.1
      rw [Vm.length_places] at hle
      omega
    refine (Program.meets_bind _ _ _ _).mpr (Routine.Meets.program
      (setup_keepsRestorable hrestorable hdepth) ?_ ?_)
    · rintro - s' vm'' ⟨h'', hawake, hstep⟩
      refine ⟨h'', hawake, fun hsome => ?_, hthread, hdeep⟩
      rw [show ({ plan, state := s' } : ActiveTrace).state.step = none from hstep] at hsome
      cases hsome
    · exact fun failure s' vm'' h'' => giveUp_harmless (t := { plan, state := s' }) failure h''
  · intro _ _ vm' h'
    refine meets_besides (fun _ hc => by cases hc) fun _ => ?_
    exact meets_besides (fun _ hc => by cases hc) fun _ => h'

end ActiveTrace

end StreamTrace
