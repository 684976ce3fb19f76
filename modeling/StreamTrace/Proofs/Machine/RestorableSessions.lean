import StreamTrace.Proofs.Debugger.WayBack
import StreamTrace.Proofs.Machine.RestoredSource
import StreamTrace.Proofs.Machine.SplicedStages

/-!
# Sessions that can put everything back

While its thread has stopped, a trace works on a machine that may be handed back at any time. It
holds every request that is set, and what it has taken out of the source variable stands for what
is in there now. Such a session is `Restorable`, and here it is kept so by all that does not concern
a single event: looking, invoking, asking for events, and writing into frames.
-/

namespace StreamTrace

open Scene

variable {S : Scene} {vm₀ vm vm' vm'' : Vm} {base : Int}

/-! ## Frames -/

namespace Vm

open VmCommand

theorem Alike.symm {o o' : Option Value} (h : vm.Alike o o') : vm.Alike o' o := by
  rcases h with rfl | ⟨v, v', m, hv, hv', hm, hm'⟩
  · exact .refl vm _
  · exact .inr ⟨v', v, m, hv', hv, hm', hm⟩

/-- The frame with that identifier is the only one. -/
theorem slotOf_of_mem {f : Frame} (hids : (vm.frames.map (·.id)).Nodup) (hf : f ∈ vm.frames)
    (slot : Nat) : vm.slotOf f.id slot = f.slots.get? slot := by
  have hsome : (vm.frames.find? (·.id == f.id)).isSome := List.find?_isSome.mpr ⟨f, hf, by simp⟩
  obtain ⟨g, hg⟩ := Option.isSome_iff_exists.mp hsome
  have hid : g.id = f.id := by simpa using List.find?_some hg
  obtain rfl := List.inj_on_of_nodup_map hids (List.mem_of_find?_eq_some hg) hf hid
  rw [slotOf, hg]
  rfl

theorem answer_slotValues_all {thread : ThreadId} {frame : FrameId} {slots : List (Nat × String)}
    {values : List Value} (h : (vm.answer (.slotValues thread frame slots)).1 = .ok values) :
    ∃ f, vm.frames.find? (·.id == frame) = some f ∧
      List.Forall₂ (fun slot v => f.slots.get? slot.1 = some v) slots values := by
  have hread : Yields Still (stopped thread >>= fun _ =>
      getFrame frame >>= fun f => readSlots f slots) vm fun values _ => ∃ f,
        vm.frames.find? (·.id == frame) = some f ∧
          List.Forall₂ (fun slot v => f.slots.get? slot.1 = some v) slots values := by
    refine stopped_then fun _ => Yields.bind ((getFrame_yields frame).mono ?_)
    rintro f vm' - ⟨rfl, hf⟩
    exact (readSlots_yields f _).mono fun values _ _ hvalues => ⟨f, hf, hvalues.2⟩
  exact hread.2 _ h

/-- Variables are known only of methods that do not hide them. -/
theorem answer_variableTable_shown {l : Location} {table : Nat × List VariableInfo}
    (h : (vm.answer (.variableTable l.typeId l.methodId)).1 = .ok table) : ¬vm.Hides l := by
  rintro ⟨c, hc, hnone⟩
  have hread : Yields Still (respond (.variableTable l.typeId l.methodId)) vm
      fun (_ : Nat × List VariableInfo) _ =>
        ∃ c', vm.classes.byId? l.typeId = some c' ∧ c'.locals.get? l.methodId ≠ none := by
    refine alive_then fun _ => Yields.bind ((getClass_yields _).mono ?_)
    rintro c' vm' - ⟨rfl, hc'⟩
    split
    · rename_i hlocals
      exact yields_pure ⟨c', hc', by simp [hlocals]⟩
    · exact yields_refuse _
  obtain ⟨c', hc', hsome⟩ := hread.2 _ h
  obtain rfl := Option.some.inj (hc.symm.trans hc')
  exact hsome hnone

end Vm

namespace Scene

/-- The thread has stopped in the statement or above it, and its frames can be told apart. -/
structure Halted (S : Scene) (vm : Vm) : Prop extends S.Stopped vm where
  ids : (vm.frames.map (·.id)).Nodup
  statement : ∃ l, vm.HasStatement S.frame l

theorem Progress.places (h : S.Progress vm vm') : vm'.places = vm.places := by
  have hmap : ∀ {frames frames' : List Frame}, S.FramesKept vm' frames frames' →
      frames'.map (fun f => (f.id, f.location)) = frames.map fun f => (f.id, f.location) := by
    intro frames frames' hframes
    induction hframes with
    | nil => rfl
    | cons hf _ ih => rw [List.map_cons, List.map_cons, ih, hf.id, hf.location]
  exact hmap h.frames

theorem Halted.progress_ids (h : S.Halted vm) (hgoes : S.Progress vm vm') :
    (vm'.frames.map (·.id)).Nodup := Vm.ids_of_places hgoes.places ▸ h.ids

/-- Two lists of frames, one as `FramesKept` and one as it was written. -/
theorem FramesKept.written {values : List (Nat × Value)} {frame : FrameId}
    {frames frames' : List Frame}
    (h : List.Forall₂ (Vm.FrameWritten frame values) frames frames')
    (halike : frame = S.frame → ∀ f ∈ frames, f.id = frame → ∀ slot v, (slot, v) ∈ values →
      vm.Alike (f.slots.get? slot) (some v)) : S.FramesKept vm frames frames' := by
  induction h with
  | nil => exact .nil
  | @cons f f' _ _ hf _ ih =>
      refine .cons ⟨hf.id, hf.location, fun hid slot => ?_⟩ (ih fun heq g hg => halike heq g
        (List.mem_cons_of_mem _ hg))
      rcases hf.slots slot with hsame | ⟨hframe, v, hmem, hv⟩
      · exact .inl hsame
      · rw [hv]
        exact halike (hframe.symm.trans hid) f List.mem_cons_self hframe slot v hmem

variable {frames : List Frame} {values : List (Nat × Value)}
  {frameWrites : List (FrameId × Nat × Value)}

theorem head_written {frame : FrameId} {frames' : List Frame} {f f' : Frame}
    (h : List.Forall₂ (Vm.FrameWritten frame values) frames frames')
    (hf : frames.head? = some f) (hf' : frames'.head? = some f') :
    Vm.FrameWritten frame values f f' := by
  cases h with
  | nil => cases hf
  | cons hwritten _ =>
      obtain rfl := Option.some.inj hf
      obtain rfl := Option.some.inj hf'
      exact hwritten

/-- Into the frame of the statement only streams are written that stand for the same. -/
theorem Handed.writesStatement (h : S.Handed vm₀ vm)
    (hw : List.Forall₂ (Vm.FrameWritten S.frame values) vm.frames frames)
    (halike : ∀ f ∈ vm.frames, f.id = S.frame → ∀ slot v, (slot, v) ∈ values →
      vm.Alike (f.slots.get? slot) (some v)) :
    S.Handed vm₀ { vm with frames, frameWrites } := by
  have hg : vm.Grows { vm with frames, frameWrites } := .of_eq rfl rfl rfl rfl
  refine h.next ⟨hg, FramesKept.written hw fun _ f hf hid slot v hv =>
    (halike f hf hid slot v hv).grows hg, rfl, rfl⟩ (h.tidy.of_eq rfl rfl rfl)
    (fun f f' hf hf' hne slot => ?_) rfl rfl rfl
  exact ((head_written hw hf hf').slots slot).resolve_right fun hown => hne hown.1

/-- Into another frame on top only what was there is written, or a matcher around it. -/
theorem Handed.writesTop (h : S.Handed vm₀ vm) (hframes : vm.frames = vm₀.frames) {top : Frame}
    (htop : vm.frames.head? = some top) (hne : top.id ≠ S.frame)
    (hw : List.Forall₂ (Vm.FrameWritten top.id values) vm.frames frames)
    (hvalues : ∀ slot v', (slot, v') ∈ values → ∃ v, top.slots.get? slot = some v ∧
      (v' = v ∨ vm.Wrapped v v')) :
    S.Handed vm₀ { vm with frames, frameWrites } := by
  have hg : vm.Grows { vm with frames, frameWrites } := .of_eq rfl rfl rfl rfl
  have hgoes : S.Progress vm { vm with frames, frameWrites } :=
    ⟨hg, FramesKept.written hw fun heq => absurd heq hne, rfl, rfl⟩
  refine ⟨h.toProgress.trans hgoes, h.tidy.of_eq rfl rfl rfl, fun f f' hf hf' _ slot => ?_,
    fun v' hv' => ?_, h.dead, h.outbox⟩
  · rw [← hframes, htop] at hf
    obtain rfl := Option.some.inj hf
    rcases (head_written hw htop hf').slots slot with hsame | ⟨-, v', hmem, hv'⟩
    · exact .inl hsame
    · obtain ⟨v, hv, hsame | hwrapped⟩ := hvalues slot v' hmem
      · exact .inl (by rw [hv', hv, hsame])
      · exact .inr ⟨v, v', hv, hv', hwrapped.grows hg⟩
  · obtain ⟨request, thread, l, v, hmem, halike⟩ := h.forced v' hv'
    exact ⟨request, thread, l, v, hmem, halike.grows hg⟩

/-- Where a method exits, a stream that stands for its value may be put in its place. -/
theorem Handed.forces (h : S.Handed vm₀ vm) {request : RequestId} {thread : ThreadId}
    {l : Location} {v v' : Value}
    (hexit : Event.methodExitWithValue request thread l v ∈ vm₀.outbox)
    (halike : vm.Alike (some v) (some v')) :
    S.Handed vm₀ { vm with forcedReturn := some v' } := by
  have hg : vm.Grows { vm with forcedReturn := some v' } := .of_eq rfl rfl rfl rfl
  refine ⟨h.toProgress.trans ⟨hg, .refl _ _, rfl, rfl⟩, h.tidy.of_eq rfl rfl rfl,
    fun f f' hf hf' hne slot => ?_, ?_, h.dead, h.outbox⟩
  · rcases h.top f f' hf hf' hne slot with hsame | ⟨v, v', hv, hv', hwrapped⟩
    · exact .inl hsame
    · exact .inr ⟨v, v', hv, hv', hwrapped.grows hg⟩
  · rintro _ ⟨⟩
    exact ⟨request, thread, l, v, hexit, halike.grows hg⟩

/-- The thread may go on. -/
theorem Handed.awake (h : S.Handed vm₀ vm) : S.Handed vm₀ { vm with suspended := false } := by
  refine h.next ⟨.of_eq rfl rfl rfl rfl, .refl _ _, rfl, rfl⟩ (h.tidy.of_eq rfl rfl rfl)
    (fun f f' hf hf' _ slot => ?_) rfl rfl rfl
  rw [Option.some.inj (hf.symm.trans hf')]

/-- The machine as it stopped, once its event was told. -/
theorem Halted.handed (h : S.Halted vm) : S.Handed vm { vm with outbox := [] } := by
  refine ⟨⟨.of_eq rfl rfl rfl rfl, .refl _ _, rfl, rfl⟩, h.tidy.of_eq rfl rfl rfl,
    fun f f' hf hf' _ slot => ?_, fun v' hv' => ?_, rfl, rfl⟩
  · obtain rfl := Option.some.inj (hf.symm.trans hf')
    exact .inl rfl
  · exact absurd (h.forced.symm.trans hv') (by simp)

end Scene

/-! ## Restorable sessions -/

namespace SessionState

open BridgeRoutine

variable {s s' s'' : SessionState} {edge : MethodEdge} {k : Nat} {b b' : Breakpoint}

/-- A session at a stop of the thread, from which it has taken no more than it can put back. -/
structure Restorable (S : Scene) (vm₀ : Vm) (base : Int) (s : SessionState) (vm : Vm) : Prop where
  halted : S.Halted vm₀
  handed : S.Handed vm₀ vm
  lists : s.bridge.Lists vm
  held : ∀ r ∈ vm.requests, (r.kind, r.id) ∈ s.held
  edges : ∀ edge k b, s.point? edge k = some b → b.kind = edge
  source : ∀ x, s.substitution = some x → x.restored = false →
    base = 2 ∧ vm.Alike (some x.held) (vm.slotOf S.frame x.slot)

theorem Restorable.alive (h : s.Restorable S vm₀ base vm) : vm.dead = false :=
    h.handed.dead.trans h.halted.alive

theorem Restorable.statement (h : s.Restorable S vm₀ base vm) : ∃ l, vm.HasStatement S.frame l := by
  obtain ⟨l, hl⟩ := h.halted.statement
  exact ⟨l, hl.of_places h.handed.toProgress.places⟩

/-- The machine has evolved, and the session has changed no more than its books tell. -/
theorem Restorable.evolves (h : s.Restorable S vm₀ base vm) (hevolved : vm.Evolved vm')
    (hhanded : S.Handed vm₀ vm') (hlists : s'.bridge.Lists vm')
    (hheld : ∀ r ∈ vm'.requests, (r.kind, r.id) ∈ s'.held)
    (hedges : ∀ edge k b, s'.point? edge k = some b → b.kind = edge)
    (hsub : s'.substitution = s.substitution) : s'.Restorable S vm₀ base vm' := by
  refine ⟨h.halted, hhanded, hlists, hheld, hedges, fun x hx hopen => ?_⟩
  obtain ⟨hbase, halike⟩ := h.source x (hsub ▸ hx) hopen
  have hslot : vm'.slotOf S.frame x.slot = vm.slotOf S.frame x.slot := by
    rw [Vm.slotOf, hevolved.frames, Vm.slotOf]
  exact ⟨hbase, hslot ▸ halike.grows hevolved.grows⟩

theorem Restorable.stillHanded (h : s.Restorable S vm₀ base vm) {bridge : BridgeState}
    (hw : StillHanded S vm₀ vm bridge vm') : Restorable S vm₀ base { s with bridge } vm' :=
  h.evolves hw.evolved hw.handed hw.lists (fun r hr => h.held r (hw.requests ▸ hr)) h.edges rfl

/-- The session itself was changed, but not what it can put back. -/
theorem Restorable.books (h : s.Restorable S vm₀ base vm) (hbridge : s'.bridge = s.bridge)
    (hheld : ∀ x ∈ s.held, x ∈ s'.held)
    (hedges : ∀ edge k b, s'.point? edge k = some b → b.kind = edge)
    (hsub : s'.substitution = s.substitution) : s'.Restorable S vm₀ base vm :=
  h.evolves (.refl vm) h.handed (hbridge ▸ h.lists) (fun r hr => hheld _ (h.held r hr)) hedges hsub

/-- The machine was changed, but neither its requests nor what the session has to put back. -/
theorem Restorable.next (h : s.Restorable S vm₀ base vm)
    (hhanded : S.Handed vm₀ vm') (hg : vm.Grows vm') (hrequests : vm'.requests = vm.requests)
    (hslots : ∀ slot, vm'.slotOf S.frame slot = vm.slotOf S.frame slot) :
    s.Restorable S vm₀ base vm' := by
  refine ⟨h.halted, hhanded, h.lists.grows hg, fun r hr => h.held r (hrequests ▸ hr), h.edges,
    fun x hx hopen => ?_⟩
  obtain ⟨hbase, halike⟩ := h.source x hx hopen
  exact ⟨hbase, hslots x.slot ▸ halike.grows hg⟩

/-- The session has worked on, without writing into a frame. -/
structure RestorableProgress (S : Scene) (vm₀ : Vm) (base : Int) (s : SessionState) (vm : Vm)
    (s' : SessionState) (vm' : Vm) : Prop where
  restorable : s'.Restorable S vm₀ base vm'
  evolved : vm.Evolved vm'
  guard : s'.guard = s.guard
  step : s'.step = s.step

theorem RestorableProgress.refl (h : s.Restorable S vm₀ base vm) :
    s.RestorableProgress S vm₀ base vm s vm :=
  ⟨h, .refl vm, rfl, rfl⟩

theorem RestorableProgress.trans (h : s.RestorableProgress S vm₀ base vm s' vm')
    (h' : s'.RestorableProgress S vm₀ base vm' s'' vm'') :
    s.RestorableProgress S vm₀ base vm s'' vm'' :=
  ⟨h'.restorable, h.evolved.trans h'.evolved, h'.guard.trans h.guard, h'.step.trans h.step⟩

theorem Restorable.restorableProgress (h : s.Restorable S vm₀ base vm) {bridge : BridgeState}
    (hw : StillHanded S vm₀ vm bridge vm') :
    s.RestorableProgress S vm₀ base vm { s with bridge } vm' :=
    ⟨h.stillHanded hw, hw.evolved, rfl, rfl⟩

/-! ### Breakpoints -/

theorem edges_setPoint (h : s.Restorable S vm₀ base vm) (hb : s.point? edge k = some b)
    (hkind : b'.kind = b.kind) :
    ∀ edge' k' c, (s.setPoint edge k b').point? edge' k' = some c → c.kind = edge' := by
  intro edge' k' c hc
  by_cases hne : edge' = edge ∧ k' = k
  · obtain ⟨rfl, rfl⟩ := hne
    rw [point?_setPoint_self hb] at hc
    obtain rfl := Option.some.inj hc
    exact hkind.trans (h.edges _ _ b hb)
  · rw [point?_setPoint_of_ne s b' hne] at hc
    exact h.edges edge' k' c hc

theorem mem_held_setPoint (hb : s.point? edge k = some b) {x : UInt8 × RequestId} (hx : x ∈ s.held)
    (hkept : x ∈ b.held → x ∈ b'.held) : x ∈ (s.setPoint edge k b').held := by
  obtain ⟨rest, hold, hnew⟩ := held_setPoint hb
  rw [(hnew b').mem_iff, List.mem_append]
  rw [hold.mem_iff, List.mem_append] at hx
  exact hx.imp_left hkept

/-- A handler is replaced. -/
theorem points_setStage {stage : Stage} {handler : StageHandler}
    (hstage : s.stages[k]? = some stage) :
    (s.setStage k { stage with handler }).points = s.points := by
  unfold points setStage
  obtain ⟨hk, rfl⟩ := List.getElem?_eq_some_iff.mp hstage
  refine List.ext_getElem (by simp) fun i h₁ h₂ => ?_
  by_cases hi : k = i <;> simp [hi]

end SessionState

/-! ## Routines that only work -/

namespace SessionRoutine

open Routine SessionState BridgeRoutine

variable {ε α β : Type} {s s' : SessionState} {k : Nat} {p : TracePlan}

/-- The session works, writing into no frame, and what comes of it satisfies `post`. -/
def FrameSafe (S : Scene) (vm₀ : Vm) (base : Int) (t : Routine ε SessionState α) (s : SessionState)
    (vm : Vm) (post : α → SessionState → Vm → Prop := fun _ _ _ => True) : Prop :=
  t.Meets (.handed S vm₀) (fun a s' vm' => s.RestorableProgress S vm₀ base vm s' vm' ∧
    post a s' vm')
    (fun _ s' vm' => s.RestorableProgress S vm₀ base vm s' vm') s vm

variable {post : α → SessionState → Vm → Prop}

theorem FrameSafe.mono {t : Routine ε SessionState α} {post' : α → SessionState → Vm → Prop}
    (h : FrameSafe S vm₀ base t s vm post)
    (hpost : ∀ a s' vm', s.RestorableProgress S vm₀ base vm s' vm' → post a s' vm' →
      post' a s' vm') :
    FrameSafe S vm₀ base t s vm post' :=
  Meets.mono h (fun a s' vm' h => ⟨h.1, hpost a s' vm' h.1 h.2⟩) fun _ _ _ h => h

theorem FrameSafe.bind {t : Routine ε SessionState α} {f : α → Routine ε SessionState β}
    {post' : β → SessionState → Vm → Prop} (h : FrameSafe S vm₀ base t s vm post)
    (hf : ∀ a s' vm', s.RestorableProgress S vm₀ base vm s' vm' → post a s' vm' →
      FrameSafe S vm₀ base (f a) s' vm' post') : FrameSafe S vm₀ base (t >>= f) s vm post' := by
  refine meets_bind.mpr (Meets.mono h ?_ fun _ _ _ h => h)
  rintro a s' vm' ⟨hs, ha⟩
  exact Meets.mono (hf a s' vm' hs ha) (fun _ _ _ h => ⟨hs.trans h.1, h.2⟩)
    fun _ _ _ h => hs.trans h

theorem frameSafe_pure {a : α} (h : s.Restorable S vm₀ base vm) (ha : post a s vm) :
    FrameSafe S vm₀ base (pure a : Routine ε SessionState α) s vm post :=
  meets_pure.mpr ⟨.refl h, ha⟩

theorem frameSafe_throw {e : ε} (h : s.Restorable S vm₀ base vm) :
    FrameSafe S vm₀ base (throw e : Routine ε SessionState α) s vm post := meets_throw.mpr (.refl h)

theorem frameSafe_get_bind {f : SessionState → Routine ε SessionState β}
    {post : β → SessionState → Vm → Prop} (hf : FrameSafe S vm₀ base (f s) s vm post) :
    FrameSafe S vm₀ base (get >>= f) s vm post := meets_bind.mpr (meets_get.mpr hf)

theorem frameSafe_modify {f : SessionState → SessionState} (h : (f s).Restorable S vm₀ base vm)
    (hguard : (f s).guard = s.guard) (hstep : (f s).step = s.step) :
    FrameSafe S vm₀ base (modify f : Routine ε SessionState PUnit) s vm
      fun _ s' vm' => s' = f s ∧ vm' = vm :=
  meets_modify.mpr ⟨⟨h, .refl vm, hguard, hstep⟩, rfl, rfl⟩

theorem frameSafe_ite {P : Prop} [Decidable P] {t e : Routine ε SessionState α}
    (ht : P → FrameSafe S vm₀ base t s vm post) (he : ¬P → FrameSafe S vm₀ base e s vm post) :
    FrameSafe S vm₀ base (if P then t else e) s vm post := by
  split
  · exact ht ‹_›
  · exact he ‹_›

/-- What is no command does not concern the machine. -/
theorem meets_beside {σ : Type} {a : Action} {ok : a.Reply → σ → Vm → Prop}
    {err : ε → σ → Vm → Prop} {st : σ} (ha : ∀ c, a ≠ .command c) (hok : ∀ r, ok r st vm) :
    (perform a : Routine ε σ a.Reply).Meets (.handed S vm₀) ok err st vm := by
  refine meets_perform.mpr ⟨fun c hc => absurd hc (ha c), fun r vm' hr => ?_⟩
  cases hr with
  | command c => exact absurd rfl (ha c)
  | beside r => exact hok r

theorem frameSafe_publish (state : TraceState) (h : s.Restorable S vm₀ base vm) :
    FrameSafe S vm₀ base (TracePlan.publish state : Routine ε SessionState Unit) s vm :=
  meets_beside (fun _ hc => by cases hc) fun _ => ⟨.refl h, trivial⟩

theorem frameSafe_clock (h : s.Restorable S vm₀ base vm) :
    FrameSafe S vm₀ base (perform .clock : Routine ε SessionState Nat) s vm :=
  meets_beside (fun _ hc => by cases hc) fun _ => ⟨.refl h, trivial⟩

/-- A command that leaves the thread alone and is not about events. -/
theorem meets_aside {c : Command} {wrap : JdwpError → TraceError}
    {ok : c.Reply → SessionState → Vm → Prop} {err : TraceError → SessionState → Vm → Prop}
    (h : s.Restorable S vm₀ base vm) (htouch : c.touchesThread = false) (hasks : c.asks = false)
    (hok : ∀ r vm', vm.answer c = (.ok r, vm') →
      s.RestorableProgress S vm₀ base vm s vm' → ok r s vm')
    (herr : ∀ e vm', s.RestorableProgress S vm₀ base vm s vm' → err (wrap e) s vm') :
    (commandOr c wrap).Meets (.handed S vm₀) ok err s vm := by
  have hworked := (StillHanded.begin h.handed h.lists).answer htouch hasks
  refine meets_handed (h.handed.answer htouch) (fun r vm' hr => ?_) fun e vm' he => ?_
  · rw [hr] at hworked
    exact hok r vm' hr (h.restorableProgress hworked)
  · rw [he] at hworked
    exact herr e vm' (h.restorableProgress hworked)

theorem frameSafe_commandOr {c : Command} {wrap : JdwpError → TraceError}
    {post : c.Reply → Vm → Prop}
    (h : s.Restorable S vm₀ base vm) (htouch : c.touchesThread = false) (hasks : c.asks = false)
    (hpost : ∀ r vm', vm.answer c = (.ok r, vm') → vm.Evolved vm' → post r vm') :
    FrameSafe S vm₀ base (commandOr c wrap) s vm fun r _ vm' => post r vm' :=
  meets_aside h htouch hasks (fun r vm' hr hw => ⟨hw, hpost r vm' hr hw.evolved⟩)
    fun _ _ hw => hw

theorem frameSafe_command {c : Command} {post : c.Reply → Vm → Prop}
    (h : s.Restorable S vm₀ base vm)
    (htouch : c.touchesThread = false) (hasks : c.asks = false)
    (hpost : ∀ r vm', vm.answer c = (.ok r, vm') → vm.Evolved vm' → post r vm') :
    FrameSafe S vm₀ base (command c) s vm fun r _ vm' => post r vm' :=
  frameSafe_commandOr h htouch hasks hpost

/-! ### The bridge and the handlers -/

theorem frameSafe_inBridge {t : BridgeRoutine α} {post : α → BridgeState → Vm → Prop}
    (ht : t.HandBackSafe S vm₀ s.bridge vm post) (h : s.Restorable S vm₀ base vm) :
    FrameSafe S vm₀ base (TracePlan.inBridge t) s vm
      fun a s' vm' => post a s'.bridge vm' ∧ s' = { s with bridge := s'.bridge } := by
  refine meets_within.mpr (Meets.mono ht ?_ ?_)
  · rintro a bridge vm' ⟨hw, ha⟩
    exact ⟨h.restorableProgress hw, ha, rfl⟩
  · intro e bridge vm' hw
    exact h.restorableProgress hw

theorem frameSafe_inBridge_of_sends {t : BridgeRoutine α} {post : α → BridgeState → Prop}
    (ht : t.Sends (BridgeRoutine.BridgeCommand true) s.bridge post)
    (h : s.Restorable S vm₀ base vm) :
    FrameSafe S vm₀ base (TracePlan.inBridge t) s vm fun _ s' _ => s' =
    { s with bridge := s'.bridge } :=
  (frameSafe_inBridge (handBackSafe_of_sends ht h.handed h.lists) h).mono fun _ _ _ _ hs => hs.2

theorem frameSafe_stageAt (h : s.Restorable S vm₀ base vm) :
    FrameSafe S vm₀ base (TracePlan.stageAt k) s vm
      fun stage s' vm' => s' = s ∧ vm' = vm ∧ s.stages[k]? = some stage := by
  unfold TracePlan.stageAt
  refine frameSafe_get_bind ?_
  split
  · exact frameSafe_pure h ⟨rfl, rfl, ‹_›⟩
  · exact frameSafe_throw h

theorem frameSafe_onHandler {post : α → Vm → Prop}
    {step : StageHandler → Probe → BridgeRoutine (StageHandler × α)}
    (hstep : ∀ handler : StageHandler, (step handler (p.probe s)).HandBackSafe S vm₀ s.bridge vm
      fun r _ vm' => post r.2 vm') (h : s.Restorable S vm₀ base vm) :
    FrameSafe S vm₀ base (p.onHandler k step) s vm fun a _ vm' => post a vm' := by
  unfold TracePlan.onHandler
  refine (frameSafe_stageAt h).bind ?_
  rintro stage s₁ vm₁ - ⟨rfl, rfl, hstage⟩
  refine frameSafe_get_bind ((frameSafe_inBridge (hstep stage.handler) h).bind ?_)
  rintro ⟨handler, a⟩ s₂ vm₂ h₂ ⟨ha, hs₂⟩
  have hstage₂ : s₂.stages[k]? = some stage := by rw [hs₂, hstage]
  have hmodified : (s₂.setStage k { stage with handler }).Restorable S vm₀ base vm₂ := by
    refine h₂.restorable.books rfl (fun x hx => held_setStage hstage₂ ▸ hx)
      (fun edge k' b hb => ?_) rfl
    rw [point?_congr (points_setStage hstage₂)] at hb
    exact h₂.restorable.edges edge k' b hb
  refine (frameSafe_modify hmodified rfl rfl).bind ?_
  rintro - s₃ vm₃ h₃ ⟨-, rfl⟩
  exact frameSafe_pure h₃.restorable ha

/-! ### Methods and frames -/

section

variable {bridge : BridgeState} {methods : MethodLists}

theorem methodsOf_works (type : TypeId) (hw : StillHanded S vm₀ vm bridge vm') :
    (Breakpoint.methodsOf type).Meets (.handed S vm₀)
    (fun _ _ vm'' => StillHanded S vm₀ vm bridge vm'')
      (fun _ _ vm'' => StillHanded S vm₀ vm bridge vm'') methods vm' := by
  have hnext : StillHanded S vm₀ vm bridge (vm'.answer (.typeMethods type)).2 := hw.answer rfl rfl
  unfold Breakpoint.methodsOf
  refine meets_bind.mpr (meets_get.mpr ?_)
  split
  · exact meets_pure.mpr hw
  · refine meets_bind.mpr (meets_handed (hw.handed.answer rfl) (fun r vm'' hr => ?_)
      fun e vm'' he => ?_)
    · rw [hr] at hnext
      exact meets_bind.mpr (meets_modify.mpr (meets_pure.mpr hnext))
    · rwa [he] at hnext

theorem isAt_works (b : Breakpoint) (l : Location) (hw : StillHanded S vm₀ vm bridge vm') :
    (b.isAt l).Meets (.handed S vm₀) (fun _ _ vm'' => StillHanded S vm₀ vm bridge vm'')
      (fun _ _ vm'' => StillHanded S vm₀ vm bridge vm'') methods vm' := by
  unfold Breakpoint.isAt
  refine meets_bind.mpr (Meets.mono (methodsOf_works _ hw) ?_ fun _ _ _ hw => hw)
  intro found _ vm'' hw
  split
  · exact meets_pure.mpr hw
  · exact meets_pure.mpr hw

theorem create_works (edge : MethodEdge) (sig : MethodSignature)
    (hw : StillHanded S vm₀ vm bridge vm') :
    (Breakpoint.create edge sig).Meets (.handed S vm₀)
      (fun b _ vm'' => StillHanded S vm₀ vm bridge vm'' ∧ b.kind = edge ∧ b.request = none)
      (fun _ _ vm'' => StillHanded S vm₀ vm bridge vm'') methods vm' := by
  unfold Breakpoint.create
  extract_lets missing
  refine meets_bind.mpr (meets_handed (hw.handed.answer rfl) (fun classes vm₁ hr => ?_)
    fun e vm₁ he => ?_)
  · have hw₁ := hw.answer (c := .classesBySignature (typeNameToSignature sig.containingClass))
      rfl rfl
    rw [hr] at hw₁
    split
    · exact meets_throw.mpr hw₁
    · refine meets_bind.mpr (Meets.mono (methodsOf_works _ hw₁) ?_ fun _ _ _ hw => hw)
      intro found _ vm₂ hw₂
      split
      · exact meets_throw.mpr hw₂
      · exact meets_pure.mpr ⟨hw₂, rfl, rfl⟩
  · have hw₁ := hw.answer (c := .classesBySignature (typeNameToSignature sig.containingClass))
      rfl rfl
    rwa [he] at hw₁

end

theorem frameSafe_inMethods {t : Routine TraceError MethodLists α} {post : α → Prop}
    (ht : t.Meets (.handed S vm₀) (fun a _ vm' => StillHanded S vm₀ vm s.bridge vm' ∧ post a)
      (fun _ _ vm' => StillHanded S vm₀ vm s.bridge vm') s.methods vm)
        (h : s.Restorable S vm₀ base vm) :
    FrameSafe S vm₀ base (TracePlan.inMethods t) s vm
      fun a s' _ => post a ∧ s'.stages = s.stages := by
  have hkept : ∀ (methods : MethodLists) vm', StillHanded S vm₀ vm s.bridge vm' →
      s.RestorableProgress S vm₀ base vm { s with methods } vm' := fun methods vm' hw =>
    ⟨(h.stillHanded hw).books rfl (fun _ hx => hx) (h.stillHanded hw).edges rfl, hw.evolved, rfl,
      rfl⟩
  refine meets_within.mpr (Meets.mono ht ?_ ?_)
  · rintro a methods vm' ⟨hw, ha⟩
    exact ⟨hkept methods vm' hw, ha, rfl⟩
  · intro e methods vm' hw
    exact hkept methods vm' hw

theorem frameSafe_isAt (b : Breakpoint) (l : Location) (h : s.Restorable S vm₀ base vm) :
    FrameSafe S vm₀ base (TracePlan.inMethods (b.isAt l)) s vm := by
  have hreads : (b.isAt l).Meets (.handed S vm₀)
      (fun _ _ vm' => StillHanded S vm₀ vm s.bridge vm' ∧ True)
      (fun _ _ vm' => StillHanded S vm₀ vm s.bridge vm') s.methods vm :=
    Meets.mono (isAt_works b l (.begin h.handed h.lists)) (fun _ _ _ hw => ⟨hw, trivial⟩)
      fun _ _ _ hw => hw
  exact (frameSafe_inMethods hreads h).mono fun _ _ _ _ _ => trivial

/-- The frame on top is that of a thread that is stopped. -/
theorem frameSafe_frameOnTop (thread : ThreadId) (h : s.Restorable S vm₀ base vm) :
    FrameSafe S vm₀ base (frameOnTop thread) s vm fun frame _ _ =>
      vm.suspended = true ∧ vm.places[0]? = some (frame.frameId, frame.location) := by
  unfold frameOnTop
  have hread : ∀ (frames : List FrameInfo) vm', vm.answer (.frames thread 0 1) = (.ok frames, vm') →
      vm.Evolved vm' → vm.suspended = true ∧ frames = vm.framesFrom 0 1 :=
    fun frames _ hr _ => Vm.answer_frames (congrArg Prod.fst hr)
  refine (frameSafe_command (c := .frames thread 0 1) h rfl rfl hread).bind ?_
  rintro (frames : List FrameInfo) s₁ vm₁ h₁ ⟨hsuspended, hframes⟩
  split
  · rename_i frame hframe
    obtain ⟨rest, hrest⟩ := List.head?_eq_some_iff.mp hframe
    exact frameSafe_pure h₁.restorable ⟨hsuspended, Vm.framesFrom_top (hrest.symm.trans hframes)⟩
  · exact frameSafe_throw h₁.restorable

/-- The arguments of a method are the variables in which they are handed over. -/
theorem frameSafe_readArguments (b : Breakpoint) (thread : ThreadId) {frame : FrameId}
    (h : s.Restorable S vm₀ base vm) :
    FrameSafe S vm₀ base (b.readArguments thread frame) s vm fun args _ _ =>
      List.Forall₂ (fun slot v => vm.slotOf frame slot.1 = some v) b.slots args := by
  unfold Breakpoint.readArguments
  refine frameSafe_ite (fun hnone => frameSafe_pure h ?_) fun _ => ?_
  · rw [List.isEmpty_iff.mp hnone]
    exact .nil
  · have hread : ∀ (args : List Value) vm', vm.answer (.slotValues thread frame b.slots) =
        (.ok args, vm') → vm.Evolved vm' →
          List.Forall₂ (fun slot v => vm.slotOf frame slot.1 = some v) b.slots args := by
      intro args _ hr _
      obtain ⟨f, hf, hall⟩ := Vm.answer_slotValues_all (congrArg Prod.fst hr)
      refine List.Forall₂.imp (fun slot v hv => ?_) hall
      rw [Vm.slotOf, hf]
      exact hv
    exact frameSafe_command (c := .slotValues thread frame b.slots) h rfl rfl hread

/-! ## What changes more -/

/-- The routine ends in `ok`; if it fails, the session is still restorable. -/
def KeepsRestorable (S : Scene) (vm₀ : Vm) (base : Int) (t : Routine ε SessionState α)
    (s : SessionState)
    (vm : Vm) (ok : α → SessionState → Vm → Prop) : Prop :=
  t.Meets (.handed S vm₀) ok (fun _ s' vm' => s'.Restorable S vm₀ base vm') s vm

variable {ok : α → SessionState → Vm → Prop}

theorem KeepsRestorable.mono {t : Routine ε SessionState α} {ok' : α → SessionState → Vm → Prop}
    (h : KeepsRestorable S vm₀ base t s vm ok) (hok : ∀ a s' vm', ok a s' vm' → ok' a s' vm') :
    KeepsRestorable S vm₀ base t s vm ok' := Meets.mono h hok fun _ _ _ h => h

theorem KeepsRestorable.bind {t : Routine ε SessionState α} {f : α → Routine ε SessionState β}
    {ok' : β → SessionState → Vm → Prop} (h : KeepsRestorable S vm₀ base t s vm ok)
    (hf : ∀ a s' vm', ok a s' vm' → KeepsRestorable S vm₀ base (f a) s' vm' ok') :
    KeepsRestorable S vm₀ base (t >>= f) s vm ok' :=
    meets_bind.mpr (Meets.mono h hf fun _ _ _ h => h)

theorem FrameSafe.keepsRestorable {t : Routine ε SessionState α}
    (h : FrameSafe S vm₀ base t s vm post)
    (hok : ∀ a s' vm', s.RestorableProgress S vm₀ base vm s' vm' → post a s' vm' → ok a s' vm') :
    KeepsRestorable S vm₀ base t s vm ok :=
  Meets.mono h (fun a s' vm' h => hok a s' vm' h.1 h.2) fun _ _ _ h => h.restorable

/-- Work in front of what changes more. -/
theorem FrameSafe.andThen {t : Routine ε SessionState α} {f : α → Routine ε SessionState β}
    {ok : β → SessionState → Vm → Prop} (h : FrameSafe S vm₀ base t s vm post)
    (hf : ∀ a s' vm', s.RestorableProgress S vm₀ base vm s' vm' → post a s' vm' →
      KeepsRestorable S vm₀ base (f a) s' vm' ok) : KeepsRestorable S vm₀ base (t >>= f) s vm ok :=
  (h.keepsRestorable hf).bind fun _ _ _ hf => hf

theorem keepsRestorable_pure {a : α} (ha : ok a s vm) :
    KeepsRestorable S vm₀ base (pure a : Routine ε SessionState α) s vm ok := meets_pure.mpr ha

theorem keepsRestorable_throw {e : ε} (h : s.Restorable S vm₀ base vm) :
    KeepsRestorable S vm₀ base (throw e : Routine ε SessionState α) s vm ok := meets_throw.mpr h

theorem keepsRestorable_get_bind {f : SessionState → Routine ε SessionState β}
    {ok : β → SessionState → Vm → Prop} (hf : KeepsRestorable S vm₀ base (f s) s vm ok) :
    KeepsRestorable S vm₀ base (get >>= f) s vm ok := meets_bind.mpr (meets_get.mpr hf)

theorem keepsRestorable_modify_bind {f : SessionState → SessionState}
    {t : PUnit → Routine ε SessionState β}
    {ok : β → SessionState → Vm → Prop} (hf : KeepsRestorable S vm₀ base (t ⟨⟩) (f s) vm ok) :
    KeepsRestorable S vm₀ base (modify f >>= t) s vm ok := meets_bind.mpr (meets_modify.mpr hf)

theorem keepsRestorable_ite {P : Prop} [Decidable P] {t e : Routine ε SessionState α}
    (ht : P → KeepsRestorable S vm₀ base t s vm ok)
    (he : ¬P → KeepsRestorable S vm₀ base e s vm ok) :
    KeepsRestorable S vm₀ base (if P then t else e) s vm ok := by
  split
  · exact ht ‹_›
  · exact he ‹_›

theorem frameSafe_failRunning {t : SessionRoutine α} (ht : FrameSafe S vm₀ base t s vm post) :
    FrameSafe S vm₀ base (TracePlan.failRunning t) s vm post := meets_mapError.mpr ht

theorem keepsRestorable_failRunning {t : SessionRoutine α}
    (ht : KeepsRestorable S vm₀ base t s vm ok) :
    KeepsRestorable S vm₀ base (TracePlan.failRunning t) s vm ok := meets_mapError.mpr ht

theorem keepsRestorable_failAs {key : FailureKey} {t : SessionRoutine α}
    (ht : KeepsRestorable S vm₀ base t s vm ok) :
    KeepsRestorable S vm₀ base (TracePlan.failAs key t) s vm ok :=
  meets_mapError.mpr ht

/-- A refused write is overlooked, or the session fails; it is restorable either way. -/
theorem keepsRestorable_overlook {write : SessionRoutine Unit} {J : SessionState → Vm → Prop}
    (hJ : ∀ s vm, J s vm → s.Restorable S vm₀ base vm)
    (hw : write.Meets (.handed S vm₀) (fun _ => J) (fun _ => J) s vm) :
    KeepsRestorable S vm₀ base (p.overlook write) s vm fun _ => J := by
  unfold TracePlan.overlook
  refine meets_bind.mpr (meets_attempt.mpr (Meets.mono hw
    (fun _ _ _ h => meets_pure.mpr h) fun e s' vm' h => ?_))
  refine meets_ite (fun _ => ?_) fun _ => meets_throw.mpr (hJ s' vm' h)
  exact meets_beside (fun _ hc => by cases hc) fun _ => h

/-! ### Requests -/

section

variable {edge : MethodEdge} {b : Breakpoint}

/-- A request that is cleared is gone. -/
theorem meets_clearRequest {σ : Type} {st : σ} {kind : UInt8} {id : RequestId}
    {ok : Unit → σ → Vm → Prop} {err : TraceError → σ → Vm → Prop} (halive : vm.dead = false)
    (h : S.Handed vm₀ vm) (hok : ∀ vm', vm.Evolved vm' → S.Handed vm₀ vm' →
      (∀ r ∈ vm'.requests, r ∈ vm.requests ∧ (r.kind, r.id) ≠ (kind, id)) → ok () st vm') :
    (command (.clearRequest kind id)).Meets (.handed S vm₀) ok err st vm := by
  have hanswer := Vm.answer_clearRequest vm kind id
  rw [if_neg (by simp [halive])] at hanswer
  have hhanded : S.Handed vm₀ (vm.answer (.clearRequest kind id)).2 := h.answer rfl
  have hevolved : vm.Evolved (vm.answer (.clearRequest kind id)).2 := h.evolved rfl
  refine meets_handed hhanded (fun r vm' hr => ?_) fun e vm' he => ?_
  · rw [hr] at hhanded hevolved
    refine hok vm' hevolved hhanded fun r hr' => ?_
    rw [← (Prod.mk.inj (hanswer.symm.trans hr)).2] at hr'
    obtain ⟨hmem, hkept⟩ := List.mem_filter.mp hr'
    refine ⟨hmem, fun heq => ?_⟩
    obtain ⟨hkind, hid⟩ := Prod.mk.inj heq
    simp [hkind, hid] at hkept
  · cases (Prod.mk.inj (hanswer.symm.trans he)).1

/-- So is one that is cleared without looking at the reply. -/
theorem meets_clearAnyway {σ : Type} {st : σ} {kind : UInt8} {id : RequestId}
    {ok : Unit → σ → Vm → Prop} {err : ε → σ → Vm → Prop} (halive : vm.dead = false)
    (h : S.Handed vm₀ vm) (hok : ∀ vm', vm.Evolved vm' → S.Handed vm₀ vm' →
      (∀ r ∈ vm'.requests, r ∈ vm.requests ∧ (r.kind, r.id) ≠ (kind, id)) → ok () st vm') :
    (commandAnyway (.clearRequest kind id)).Meets (.handed S vm₀) ok err st vm := by
  have hclears : (command (.clearRequest kind id)).Meets (.handed S vm₀) ok
      (fun _ _ _ => False) st vm := meets_clearRequest halive h hok
  have hcleared := meets_commandOr.mp hclears
  refine meets_commandAnyway.mpr ⟨hcleared.1, fun r vm' hr => ?_⟩
  cases r with
  | ok r => exact hcleared.2.1 r vm' hr
  | error e => exact (hcleared.2.2 e vm' hr).elim

/-- A request that is set is added. -/
theorem meets_setRequest {σ : Type} {st : σ} {kind policy : UInt8} {modifiers : List EventModifier}
    {ok : RequestId → σ → Vm → Prop} {err : TraceError → σ → Vm → Prop} (halive : vm.dead = false)
    (h : S.Handed vm₀ vm) (hok : ∀ id vm', vm.Evolved vm' → S.Handed vm₀ vm' →
      vm'.requests = vm.requests ++ [{ id, kind, modifiers, depth := vm.frames.length }] →
        ok id st vm') :
    (command (.setRequest kind policy modifiers)).Meets (.handed S vm₀) ok err st vm := by
  have hanswer := Vm.answer_setRequest vm kind policy modifiers
  rw [if_neg (by simp [halive])] at hanswer
  have hhanded : S.Handed vm₀ (vm.answer (.setRequest kind policy modifiers)).2 := h.answer rfl
  have hevolved : vm.Evolved (vm.answer (.setRequest kind policy modifiers)).2 := h.evolved rfl
  refine meets_handed hhanded (fun id vm' hr => ?_) fun e vm' he => ?_
  · rw [hr] at hhanded hevolved
    obtain ⟨hid, hvm⟩ := Prod.mk.inj (hanswer.symm.trans hr)
    refine hok id vm' hevolved hhanded ?_
    obtain ⟨_, _, hinstalled⟩ := Vm.installRequest_state vm kind modifiers
    have hnumber := Except.ok.inj hid
    rw [Vm.installRequest_fst] at hnumber
    rw [← hvm, hinstalled, ← hnumber]
  · cases (Prod.mk.inj (hanswer.symm.trans he)).1

/-- The breakpoint, or one on the same method with the same request, is cleared. -/
theorem disable_works (b₁ : Breakpoint) (h : s.Restorable S vm₀ base vm)
    (hb : s.point? edge k = some b)
    (hkind : b₁.kind = b.kind) (hrequest : b₁.request = b.request)
    {err : TraceError → Breakpoint → Vm → Prop} :
    Breakpoint.disable.Meets (.handed S vm₀)
      (fun _ b' vm' => s.RestorableProgress S vm₀ base vm (s.setPoint edge k b') vm' ∧
        b'.request = none)
      err b₁ vm := by
  unfold Breakpoint.disable
  refine meets_bind.mpr (meets_get.mpr ?_)
  split
  · rename_i hnone
    have hheld : b.held = [] := Breakpoint.held_of_none (hrequest.symm.trans hnone)
    refine meets_pure.mpr ⟨⟨?_, .refl vm, rfl, rfl⟩, hnone⟩
    refine h.books rfl (fun x hx => mem_held_setPoint hb hx fun hmem => ?_)
      (edges_setPoint h hb hkind) rfl
    rw [hheld] at hmem
    cases hmem
  · rename_i id hid
    have hheld := Breakpoint.held_of_some (hrequest.symm.trans hid)
    refine meets_bind.mpr (meets_set.mpr (meets_clearRequest h.alive h.handed
      fun vm' hevolved hhanded hrequests => ⟨⟨?_, hevolved, rfl, rfl⟩, rfl⟩))
    refine h.evolves hevolved hhanded (h.lists.grows hevolved.grows) (fun r hr => ?_)
      (edges_setPoint h hb hkind) rfl
    obtain ⟨hmem, hne⟩ := hrequests r hr
    refine mem_held_setPoint hb (h.held r hmem) fun hown => ?_
    rw [hheld, List.mem_singleton, ← hkind] at hown
    exact absurd hown hne

theorem frameSafe_consume (edge : MethodEdge) (k : Nat) (h : s.Restorable S vm₀ base vm) :
    FrameSafe S vm₀ base (TracePlan.onPoint edge k Breakpoint.consume) s vm := by
  refine onPoint_meets (fun b hb => ?_) fun _ _ => .refl h
  have hdisable : Breakpoint.disable.Meets (.handed S vm₀)
      (fun _ b' vm' => s.RestorableProgress S vm₀ base vm (s.setPoint edge k b') vm' ∧
        b'.request = none)
      (fun _ _ _ => False) { b with consumed := true } vm :=
    disable_works { b with consumed := true } h hb rfl rfl
  unfold Breakpoint.consume
  exact meets_bind.mpr (meets_modify.mpr (Meets.mono hdisable
    (fun _ _ _ hw => ⟨hw.1, trivial⟩) fun _ _ _ hn => hn.elim))

/-- Clearing the request of a breakpoint does not fail. -/
theorem meets_disable {err : ε → SessionState → Vm → Prop} (edge : MethodEdge) (k : Nat)
    (h : s.Restorable S vm₀ base vm) :
    (attempt (TracePlan.onPoint edge k Breakpoint.disable)).Meets (.handed S vm₀)
      (fun _ s' vm' => s.RestorableProgress S vm₀ base vm s' vm' ∧ s.NoNewRequests s' ∧
        ∀ b, s'.point? edge k = some b → b.request = none) err s vm := by
  refine meets_attempt.mpr (onPoint_meets (fun b hb => ?_) fun hnone _ =>
    ⟨.refl h, .refl s, fun b hb => ?_⟩)
  · refine Meets.mono (disable_works b h hb rfl rfl) ?_ fun _ _ _ (hn : False) => hn.elim
    rintro - b' vm' ⟨hworks, hnone⟩
    refine ⟨hworks, noNewRequests_setPoint hb hnone, fun c hc => ?_⟩
    rw [point?_setPoint_self hb] at hc
    obtain rfl := Option.some.inj hc
    exact hnone
  · rw [hnone] at hb
    cases hb

theorem frameSafe_enable (edge : MethodEdge) (k : Nat) (thread : ThreadId)
    (h : s.Restorable S vm₀ base vm) :
    FrameSafe S vm₀ base (TracePlan.onPoint edge k (Breakpoint.enable thread)) s vm := by
  refine onPoint_meets (fun b hb => ?_) fun _ _ => .refl h
  unfold Breakpoint.enable
  refine meets_bind.mpr (meets_get.mpr ?_)
  split
  · refine meets_pure.mpr ⟨⟨?_, .refl vm, rfl, rfl⟩, trivial⟩
    exact h.books rfl (fun x hx => mem_held_setPoint hb hx id) (edges_setPoint h hb rfl) rfl
  · rename_i hfree
    have hnone : b.request = none := by
      simp only [Breakpoint.isEnabled, Bool.or_eq_true, not_or] at hfree
      simpa using hfree.1
    refine meets_bind.mpr (meets_setRequest h.alive h.handed
      fun id vm' hevolved hhanded hrequests =>
        meets_modify.mpr ⟨⟨?_, hevolved, rfl, rfl⟩, trivial⟩)
    refine h.evolves hevolved hhanded (h.lists.grows hevolved.grows) (fun r hr => ?_)
      (edges_setPoint h hb rfl) rfl
    rw [hrequests, List.mem_append, List.mem_singleton] at hr
    rcases hr with hmem | rfl
    · refine mem_held_setPoint hb (h.held r hmem) fun hown => ?_
      rw [Breakpoint.held_of_none hnone] at hown
      cases hown
    · obtain ⟨rest, -, hnew⟩ := held_setPoint hb
      rw [(hnew _).mem_iff, Breakpoint.held_of_some rfl]
      exact List.mem_append_left _ List.mem_cons_self

/-- A request for exceptions is set, and has to be noted next. -/
theorem keepsRestorable_guard {thread : ThreadId} {f : RequestId → SessionRoutine α}
    {ok : α → SessionState → Vm → Prop} (h : s.Restorable S vm₀ base vm) (hnone : s.guard = none)
    (hf : ∀ id vm', Restorable S vm₀ base { s with guard := some id } vm' → vm.Evolved vm' →
      KeepsRestorable S vm₀ base (f id) s vm' ok) :
    KeepsRestorable S vm₀ base (EventRequest.guard thread >>= f) s vm ok := by
  refine meets_bind.mpr (meets_setRequest h.alive h.handed fun id vm' hevolved hhanded hrequests =>
    hf id vm' ?_ hevolved)
  refine h.evolves hevolved hhanded (h.lists.grows hevolved.grows) (fun r hr => ?_) h.edges rfl
  rw [hrequests, List.mem_append, List.mem_singleton] at hr
  rw [(held_guard hnone).mem_iff]
  rcases hr with hmem | rfl
  · exact List.mem_cons_of_mem _ (h.held r hmem)
  · exact List.mem_cons_self

/-- So is one for a step, which ends where the thread is back in the statement. -/
theorem keepsRestorable_step {thread : ThreadId} {size depth : UInt32}
    {f : RequestId → SessionRoutine α}
    {ok : α → SessionState → Vm → Prop} (h : s.Restorable S vm₀ base vm) (hnone : s.step = none)
    (hdepth : depth = StepDepth.into ∨ depth = StepDepth.out ∧ 3 ≤ vm.frames.length)
    (hf : ∀ id vm', Restorable S vm₀ base { s with step := some id } vm' → vm.Evolved vm' →
      vm'.Armed →
      KeepsRestorable S vm₀ base (f id) s vm' ok) :
    KeepsRestorable S vm₀ base (EventRequest.step thread size depth >>= f) s vm ok := by
  refine meets_bind.mpr (meets_setRequest h.alive h.handed fun id vm' hevolved hhanded hrequests =>
    hf id vm' ?_ hevolved ?_)
  · refine h.evolves hevolved hhanded (h.lists.grows hevolved.grows) (fun r hr => ?_) h.edges rfl
    rw [hrequests, List.mem_append, List.mem_singleton] at hr
    have hheld : (held { s with step := some id }).Perm ((EventKind.singleStep, id) :: s.held) := by
      have hperm : (held { s with step := some id } ++
          s.step.toList.map (EventKind.singleStep, ·)).Perm _ := held_step
      rwa [hnone, Option.toList_none, List.map_nil, List.append_nil] at hperm
    rw [hheld.mem_iff]
    rcases hr with hmem | rfl
    · exact List.mem_cons_of_mem _ (h.held r hmem)
    · exact List.mem_cons_self
  · refine ⟨_, hrequests ▸ List.mem_append_right _ (List.mem_singleton_self _), ?_⟩
    rcases hdepth with rfl | ⟨rfl, hdeep⟩
    · rfl
    · simp only [InstalledRequest.acceptsStep, Bool.and_eq_true, List.any_cons, List.any_nil]
      simp
      omega

end

/-! ### Writes -/

/-- The thread goes on. -/
theorem meets_resume {c : Command} {ok : c.Reply → SessionState → Vm → Prop}
    {err : TraceError → SessionState → Vm → Prop} (h : s.Restorable S vm₀ base vm)
    (hc : c = .resumeVm ∨ c = .resumeThread mainThread)
    (hok : ∀ r vm', vm' = { vm with suspended := false } → s.Restorable S vm₀ base vm' →
      ok r s vm') :
    (command c).Meets (.handed S vm₀) ok err s vm := by
  have hanswer : ∃ r : c.Reply, vm.answer c = (.ok r, { vm with suspended := false }) := by
    have halive : ¬vm.dead = true := by simp [h.alive]
    rcases hc with rfl | rfl
    · exact ⟨(), (Vm.answer_resumeVm vm).trans (if_neg halive)⟩
    · exact ⟨(), (Vm.answer_resumeThread vm).trans (if_neg halive)⟩
  obtain ⟨r, hr⟩ := hanswer
  have hhanded := h.handed.awake
  refine meets_handed (by rw [hr]; exact hhanded) (fun r' vm' hr' => ?_) fun e vm' he => ?_
  · obtain rfl := (Prod.mk.inj (hr.symm.trans hr')).2
    exact hok r' _ rfl (h.next hhanded (.of_eq rfl rfl rfl rfl) rfl fun _ => rfl)
  · cases (Prod.mk.inj (hr.symm.trans he)).1

/-- In place of the value of the method that exits, a stream that stands for the same may be
returned. -/
theorem meets_forceReturn {thread : ThreadId} {request : RequestId} {t : ThreadId} {l : Location}
    {v v' : Value} {wrap : JdwpError → TraceError} (h : s.Restorable S vm₀ base vm)
    (hexit : Event.methodExitWithValue request t l v ∈ vm₀.outbox)
    (halike : vm.Alike (some v) (some v')) :
    (commandOr (.forceReturn thread v') wrap).Meets (.handed S vm₀)
      (fun _ s' vm' => s' = s ∧ s.Restorable S vm₀ base vm')
      (fun _ s' vm' => s' = s ∧ s.Restorable S vm₀ base vm') s vm := by
  have hforced : s.Restorable S vm₀ base { vm with forcedReturn := some v' } :=
    h.next (h.handed.forces hexit halike) (.of_eq rfl rfl rfl rfl) rfl fun _ => rfl
  have hrestorable : s.Restorable S vm₀ base (vm.answer (.forceReturn thread v')).2 := by
    rcases Vm.answer_forceReturn vm thread v' with hvm | hvm
    · rwa [hvm]
    · rwa [hvm]
  refine meets_handed hrestorable.handed (fun r vm' hr => ?_) fun e vm' he => ?_
  · rw [hr] at hrestorable
    exact ⟨rfl, hrestorable⟩
  · rw [he] at hrestorable
    exact ⟨rfl, hrestorable⟩

/-- What may be written in place of the arguments of a method. -/
def Substitutes (vm : Vm) (old new : List Value) : Prop :=
  new = old ∨ ∃ v v', old = [v] ∧ new = [v'] ∧ vm.Wrapped v v'

/-- Each slot that changes held one of the old values, and gets one that may be in its place. -/
theorem mem_changedSlots {b : Breakpoint} {frame : FrameId} {old new : List Value} {slot : Nat}
    {v' : Value} (hread : List.Forall₂ (fun slot v => vm.slotOf frame slot.1 = some v) b.slots old)
    (hnew : Substitutes vm' old new) (hmem : (slot, v') ∈ b.changedSlots old new) :
    ∃ v, vm.slotOf frame slot = some v ∧ (v' = v ∨ vm'.Wrapped v v') := by
  unfold Breakpoint.changedSlots at hmem
  obtain ⟨⟨x, before, after⟩, hx, hsome⟩ := List.mem_filterMap.mp hmem
  obtain ⟨i, hi⟩ := List.mem_iff_getElem?.mp hx
  obtain ⟨hslot, hpair⟩ := List.getElem?_zip_eq_some.mp hi
  obtain ⟨hold, hafter⟩ := List.getElem?_zip_eq_some.mp hpair
  dsimp only at hsome hslot hold hafter
  split at hsome
  · cases hsome
  · obtain ⟨rfl, rfl⟩ := Prod.mk.inj (Option.some.inj hsome)
    have hzip : (x, before) ∈ b.slots.zip old :=
      List.mem_iff_getElem?.mpr ⟨i, List.getElem?_zip_eq_some.mpr ⟨hslot, hold⟩⟩
    refine ⟨before, List.forall₂_zip hread hzip, ?_⟩
    rcases hnew with rfl | ⟨v, w, rfl, rfl, hwrapped⟩
    · exact .inl (Option.some.inj (hafter.symm.trans hold))
    · cases i with
      | succ i => cases hold
      | zero =>
          obtain rfl := Option.some.inj hold
          obtain rfl := Option.some.inj hafter
          exact .inr hwrapped

/-- The arguments of the method on top are replaced, if they are read as they were when the thread
stopped. -/
theorem meets_writeArguments {b : Breakpoint} {thread : ThreadId} {frame : FrameId} {l : Location}
    {old new : List Value} (h : s.Restorable S vm₀ base vm) (hframes : vm.frames = vm₀.frames)
    (htop : vm.places[0]? = some (frame, l)) (hne : frame ≠ S.frame)
    (hread : List.Forall₂ (fun slot v => vm.slotOf frame slot.1 = some v) b.slots old)
    (hnew : Substitutes vm old new) :
    (b.writeArguments thread frame old new).Meets (.handed S vm₀)
      (fun _ s' vm' => s' = s ∧ s.Restorable S vm₀ base vm')
      (fun _ s' vm' => s' = s ∧ s.Restorable S vm₀ base vm') s vm := by
  unfold Breakpoint.writeArguments
  refine meets_ite (fun _ => meets_pure.mpr ⟨rfl, h⟩) fun _ => ?_
  let c : Command := .setSlots thread frame (b.changedSlots old new)
  have hrestorable : s.Restorable S vm₀ base (vm.answer c).2 := by
    have hperforms : vm.Performed (.command c) (vm.answer c).1 (vm.answer c).2 := .served c
    have hspares : vm.Spares S.frame (vm.answer c).2 := hperforms.spares fun t values heq => by
      obtain ⟨-, hframe, -⟩ := Command.setSlots.inj (Action.command.inj heq)
      exact hne hframe
    have hrequests := ((Vm.answered vm c).asked_of_ne rfl).1
    obtain ⟨top, hhead, rfl⟩ : ∃ top, vm.frames.head? = some top ∧ top.id = frame := by
      rw [Vm.places, List.getElem?_map, Option.map_eq_some_iff] at htop
      obtain ⟨top, hhead, hplace⟩ := htop
      exact ⟨top, by rw [List.head?_eq_getElem?, hhead], (Prod.mk.inj hplace).1⟩
    have hids := h.halted.progress_ids h.handed.toProgress
    obtain ⟨frames, noted, hvm, -, hwritten⟩ := Vm.answer_setSlots vm thread top.id
      (b.changedSlots old new)
    have hhanded : S.Handed vm₀ (vm.answer c).2 := by
      refine hvm ▸ h.handed.writesTop hframes hhead hne hwritten fun slot v' hmem => ?_
      obtain ⟨v, hv, hsame⟩ := mem_changedSlots hread hnew hmem
      exact ⟨v, (Vm.slotOf_of_mem hids (List.mem_of_head? hhead) slot).symm.trans hv, hsame⟩
    exact h.next hhanded (hvm ▸ .of_eq rfl rfl rfl rfl) hrequests hspares.slots
  refine meets_handed hrestorable.handed (fun r vm' hr => ?_) fun e vm' he => ?_
  · rw [show vm.answer c = _ from hr] at hrestorable
    exact ⟨rfl, hrestorable⟩
  · rw [show vm.answer c = _ from he] at hrestorable
    exact ⟨rfl, hrestorable⟩

/-- A stream that stands for the same is written into the source variable. -/
theorem meets_writeSource {thread : ThreadId} {slot : Nat} {v : Value}
    {wrap : JdwpError → TraceError} {ok : Unit → SessionState → Vm → Prop}
    {err : TraceError → SessionState → Vm → Prop} (h : s.Restorable S vm₀ base vm)
    (halike : vm.Alike (vm.slotOf S.frame slot) (some v))
    (hok : ∀ vm', S.Handed vm₀ vm' → vm.Grows vm' → vm'.requests = vm.requests →
      vm'.slotOf S.frame slot = some v → ok () s vm')
    (herr : ∀ e, err e s vm) :
    (commandOr (.setSlots thread S.frame [(slot, v)]) wrap).Meets (.handed S vm₀) ok err s vm := by
  have hids := h.halted.progress_ids h.handed.toProgress
  obtain ⟨frames, noted, hvm, -, hwritten⟩ := Vm.answer_setSlots vm thread S.frame [(slot, v)]
  have hhanded : S.Handed vm₀ (vm.answer (.setSlots thread S.frame [(slot, v)])).2 := by
    refine hvm ▸ h.handed.writesStatement hwritten fun f hf hid slot' v' hmem => ?_
    obtain ⟨rfl, rfl⟩ := Prod.mk.inj (List.mem_singleton.mp hmem)
    rwa [← Vm.slotOf_of_mem hids hf, hid]
  have hg : vm.Grows (vm.answer (.setSlots thread S.frame [(slot, v)])).2 :=
    hvm ▸ .of_eq rfl rfl rfl rfl
  have hrequests := ((Vm.answered vm (.setSlots thread S.frame [(slot, v)])).asked_of_ne rfl).1
  refine meets_handed hhanded (fun r vm' hr => ?_) fun e vm' he => ?_
  · rw [hr] at hhanded hg hrequests
    refine hok vm' hhanded hg hrequests ?_
    rcases Vm.answer_setSlots_one vm thread S.frame slot v with ⟨e, he⟩ | ⟨⟨f, hf⟩, hdone⟩
    · cases (Prod.mk.inj (he.symm.trans hr)).1
    · rw [← (Prod.mk.inj (hdone.symm.trans hr)).2]
      exact (Vm.slotOf_setSlot hf slot).trans (if_pos rfl)
  · rcases Vm.answer_setSlots_one vm thread S.frame slot v with ⟨e', he'⟩ | ⟨-, hdone⟩
    · rw [← (Prod.mk.inj (he'.symm.trans he)).2]
      exact herr _
    · cases (Prod.mk.inj (hdone.symm.trans he)).1

end SessionRoutine

end StreamTrace
