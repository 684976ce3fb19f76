import StreamTrace.Proofs.Debugger.Ledger
import StreamTrace.Proofs.Debugger.SetupDiscipline

/-!
# The books of a session

That what a session knows agrees with its books. A session is `Quiet` while it only invokes, reads
and pins: its requests and the source variable are left alone, and of every object that was to be
pinned it knows, unless pinning it failed.
-/

namespace StreamTrace

open History (ContinuedBy)
open Moment (Minor Idle Calm Stays)
open Routine

/-- The target that replies as it likes and records, while the books of the chain are kept. -/
def TracePlan.keeper (p : TracePlan) : Target History := .recording (History.Admits p.chain)

variable {p : TracePlan} {h h' h'' : History} {α β : Type}

/-! ## Pins -/

theorem Command.isMinor_of_servesBridge {c : Command} (h : c.servesBridge = true)
    (hpins : c.pins = false) : c.isMinor = true := by
  cases c <;> simp_all [Command.servesBridge, Command.pins, Command.isMinor]

namespace BridgeState

/-- The bridge knows of the objects that are kept from collection; none was let go of. -/
structure Pins (s : BridgeState) (h : History) : Prop where
  unreleased : s.storage.released = false
  kept : h.pinned = s.storage.pinned
  once : h.disabled.Nodup
  enabled : h.enabled = []
  finals : h.finals = []

/-- The bridge also knows of every object that was to be kept. -/
structure Balanced (s : BridgeState) (h : History) : Prop extends s.Pins h where
  all : h.disabled = s.storage.pinned

variable {s s' : BridgeState}

theorem Pins.keeps (hp : s.Pins h) (hs : s'.storage = s.storage) (hk : h.KeepsPins h') :
    s'.Pins h' where
  unreleased := by rw [hs, hp.unreleased]
  kept := by rw [hs, hk.pinned, hp.kept]
  once := by rw [hk.disabled]; exact hp.once
  enabled := by rw [hk.enabled, hp.enabled]
  finals := by rw [hk.finals, hp.finals]

theorem Balanced.keeps (hb : s.Balanced h) (hs : s'.storage = s.storage) (hk : h.KeepsPins h') :
    s'.Balanced h' where
  toPins := hb.toPins.keeps hs hk
  all := by rw [hs, hk.disabled, hb.all]

theorem Balanced.idle (hb : s.Balanced h) (hg : h.ContinuedBy Idle h') : s.Balanced h' :=
  hb.keeps rfl hg.keepsPins

theorem Pins.idle (hp : s.Pins h) (hg : h.ContinuedBy Idle h') : s.Pins h' :=
    hp.keeps rfl hg.keepsPins

theorem not_mem_of_absent {id : ObjectId} (ha : s.storage.admission id = .absent) :
    id ∉ s.storage.pinned := by
  unfold Storage.admission at ha
  split at ha
  · cases ha
  · split at ha
    · cases ha
    · assumption

theorem Balanced.mayPin (hb : s.Balanced h) {id : ObjectId}
    (ha : s.storage.admission id = .absent) : id ∉ h.disabled := by
  rw [hb.all]
  exact not_mem_of_absent ha

theorem Balanced.pin (hb : s.Balanced h) {id : ObjectId} (ha : s.storage.admission id = .absent)
    (className : String) :
    Balanced { s with storage := s.storage.pin className id }
      (h ++ [.sent (.disableCollection id) (.ok ())]) := by
  have hpinned : (s.storage.pin className id).pinned = s.storage.pinned ++ [id] :=
    if_neg (not_mem_of_absent ha)
  have hm := Moment.minor_disabled id (.ok ())
  refine ⟨⟨hb.unreleased, ?_, ?_, ?_, ?_⟩, ?_⟩
  · rw [History.pinned_snoc, hb.kept]
    exact hpinned.symm
  · rw [History.disabled_snoc]
    refine List.nodup_append.mpr ⟨hb.once, List.pairwise_singleton _ _, ?_⟩
    rintro x hx y hy rfl
    obtain rfl := List.mem_singleton.mp hy
    exact hb.mayPin ha hx
  · rw [History.enabled_snoc, hm.enabled, hb.enabled]
    rfl
  · rw [History.finals_snoc, hm.finals, hb.finals]
    rfl
  · rw [History.disabled_snoc, hb.all]
    exact hpinned.symm

/-- An object that could not be pinned is not noted. -/
theorem Balanced.unpinned (hb : s.Balanced h) {id : ObjectId}
    (ha : s.storage.admission id = .absent) (e : JdwpError) :
    s.Pins (h ++ [.sent (.disableCollection id) (.error e)]) := by
  have hm := Moment.minor_disabled id (.error e)
  refine ⟨hb.unreleased, ?_, ?_, ?_, ?_⟩
  · rw [History.pinned_snoc, hb.kept]
    exact List.append_nil _
  · rw [History.disabled_snoc]
    refine List.nodup_append.mpr ⟨hb.once, List.pairwise_singleton _ _, ?_⟩
    rintro x hx y hy rfl
    obtain rfl := List.mem_singleton.mp hy
    exact hb.mayPin ha hx
  · rw [History.enabled_snoc, hm.enabled, hb.enabled]
    rfl
  · rw [History.finals_snoc, hm.finals, hb.finals]
    rfl

end BridgeState

/-- What the bridge sends is minor, and it pins an object only once. -/
theorem hosts_keeper (h₀ : History) :
    p.keeper.Hosts (BridgeRoutine.BridgeCommand true)
    (fun s h => h₀.ContinuedBy Minor h ∧ s.Balanced h)
      (fun s h => h₀.ContinuedBy Minor h ∧ s.Pins h) where
  asks hJ hc hpins := .minor hJ.2.finals (Command.isMinor_of_servesBridge hc.1 hpins)
  answers := by
    rintro s g c r _ ⟨hgoes, hb⟩ hc hpins rfl
    have hm := Moment.idle_sent (Command.isMinor_of_servesBridge hc.1 hpins) r
    exact ⟨hgoes.snoc hm.toMinor, hb.idle (.one hm)⟩
  lists := by
    rintro s g type methods _ ⟨hgoes, hb⟩ rfl
    have hm : Idle (.sent (.typeMethods type) (.ok methods)) := Moment.idle_sent rfl _
    exact ⟨hgoes.snoc hm.toMinor, hb.keeps rfl (ContinuedBy.one hm).keepsPins⟩
  admits hJ _ ha := .pin hJ.2.finals (hJ.2.mayPin ha)
  pins := by
    rintro s g id _ className ⟨hgoes, hb⟩ - ha rfl
    exact ⟨hgoes.snoc (Moment.minor_disabled id _), hb.pin ha className⟩
  refuses := by
    rintro s g id e _ ⟨hgoes, hb⟩ - ha rfl
    exact ⟨hgoes.snoc (Moment.minor_disabled id _), hb.unpinned ha e⟩
  fails hJ := ⟨hJ.1, hJ.2.toPins⟩
  others := by
    rintro s s' g - hstorage ⟨hgoes, hb⟩
    exact ⟨hgoes, hb.keeps hstorage (.refl g)⟩

/-! ## Requests that are held -/

/-- The request of the breakpoint, while one is set. -/
def Breakpoint.held (b : Breakpoint) : List (UInt8 × RequestId) :=
  b.request.toList.map (b.kind.number, ·)

theorem Breakpoint.held_of_none {b : Breakpoint} (h : b.request = none) : b.held = [] := by
  simp [held, h]

theorem Breakpoint.held_of_some {b : Breakpoint} {id : RequestId} (h : b.request = some id) :
    b.held = [(b.kind.number, id)] := by
  simp [held, h]

def Stage.held (stage : Stage) : List (UInt8 × RequestId) := stage.entry.held ++ stage.exit.held

theorem Stage.held_setPoint (stage : Stage) (edge : MethodEdge) :
    ∃ rest, stage.held.Perm ((stage.point edge).held ++ rest) ∧
      ∀ b, (stage.setPoint edge b).held.Perm (b.held ++ rest) := by
  cases edge with
  | entry => exact ⟨stage.exit.held, .refl _, fun _ => .refl _⟩
  | exit => exact ⟨stage.entry.held, List.perm_append_comm, fun _ => List.perm_append_comm⟩

namespace SessionState

variable {s s' s'' : SessionState} {edge : MethodEdge} {k : Nat} {b : Breakpoint}

/-- The requests that the session knows to be set. -/
def held (s : SessionState) : List (UInt8 × RequestId) :=
  s.stages.flatMap Stage.held ++
    (s.guard.toList.map (EventKind.exception, ·) ++ s.step.toList.map (EventKind.singleStep, ·))

theorem flatMap_held_eq (hlt : k < s.stages.length) :
    s.stages.flatMap Stage.held = (s.stages.take k).flatMap Stage.held ++
      (s.stages[k].held ++ (s.stages.drop (k + 1)).flatMap Stage.held) := by
  have hsplit : s.stages.take k ++ s.stages[k] :: s.stages.drop (k + 1) = s.stages := by simp
  have hflat := congrArg (List.flatMap Stage.held) hsplit
  rw [List.flatMap_append, List.flatMap_cons] at hflat
  exact hflat.symm

/-- Replacing a breakpoint replaces its request among those that are held. -/
theorem held_setPoint (hb : s.point? edge k = some b) :
    ∃ rest, s.held.Perm (b.held ++ rest) ∧
      ∀ b', (s.setPoint edge k b').held.Perm (b'.held ++ rest) := by
  obtain ⟨stage, hstage, rfl⟩ := Option.map_eq_some_iff.mp hb
  obtain ⟨hlt, rfl⟩ := List.getElem?_eq_some_iff.mp hstage
  obtain ⟨rest, hrest, hset⟩ := s.stages[k].held_setPoint edge
  -- What is held by this stage goes to the front, whatever is held around it.
  have hmove : ∀ before x others y : List (UInt8 × RequestId), x.Perm (y ++ rest) →
      (before ++ (x ++ others)).Perm (y ++ (rest ++ (before ++ others))) := by
    intro before x others y hxy
    have hfront : (before ++ (x ++ others)).Perm (x ++ (before ++ others)) := by
      rw [← List.append_assoc, ← List.append_assoc]
      exact List.perm_append_comm.append_right others
    refine hfront.trans ?_
    rw [← List.append_assoc y]
    exact hxy.append_right _
  refine ⟨rest ++ ((s.stages.take k).flatMap Stage.held ++
    ((s.stages.drop (k + 1)).flatMap Stage.held ++ (s.guard.toList.map (EventKind.exception, ·) ++
      s.step.toList.map (EventKind.singleStep, ·)))), ?_, fun b' => ?_⟩
  · rw [held, flatMap_held_eq hlt, List.append_assoc, List.append_assoc]
    exact hmove _ _ _ _ hrest
  · rw [held, setPoint, List.modify_eq_take_cons_drop hlt, List.flatMap_append, List.flatMap_cons,
      List.append_assoc, List.append_assoc]
    exact hmove _ _ _ _ (hset b')

/-- Only the handler of a stage is replaced. -/
theorem held_setStage {stage : Stage} {handler : StageHandler}
    (hstage : s.stages[k]? = some stage) :
    (s.setStage k { stage with handler }).held = s.held := by
  obtain ⟨hlt, rfl⟩ := List.getElem?_eq_some_iff.mp hstage
  rw [held, held, flatMap_held_eq hlt, setStage, List.set_eq_take_append_cons_drop, if_pos hlt,
    List.flatMap_append, List.flatMap_cons]
  rfl

end SessionState

/-! ## Quiet routines -/

namespace SessionState

/-- Only minor things happened to the session. -/
structure OnlyMinor (s : SessionState) (h : History) (s' : SessionState) (h' : History) : Prop where
  continuedBy : h.ContinuedBy Minor h'
  held : s'.held = s.held
  guard : s'.guard = s.guard
  step : s'.step = s.step
  substitution : s'.substitution = s.substitution
  pins : s'.bridge.Pins h'

variable {s s' s'' : SessionState}

theorem OnlyMinor.refl (hp : s.bridge.Pins h) : s.OnlyMinor h s h := ⟨.refl, rfl, rfl, rfl, rfl, hp⟩

theorem OnlyMinor.trans (h₁ : s.OnlyMinor h s' h') (h₂ : s'.OnlyMinor h' s'' h'') :
    s.OnlyMinor h s'' h'' :=
  ⟨h₁.continuedBy.trans h₂.continuedBy, h₂.held.trans h₁.held, h₂.guard.trans h₁.guard,
    h₂.step.trans h₁.step,
    h₂.substitution.trans h₁.substitution, h₂.pins⟩

theorem onlyMinor_of_idle (hp : s.bridge.Pins h) (hg : h.ContinuedBy Idle h') :
    s.OnlyMinor h s h' :=
  ⟨hg.minor, rfl, rfl, rfl, rfl, hp.idle hg⟩

end SessionState

namespace SessionRoutine

open SessionState

variable {ε : Type} {s : SessionState}

/-- Only minor things happen while the routine runs, and while it goes well the session knows of
every object that was to be pinned. -/
def Quiet (p : TracePlan) (t : Routine ε SessionState α) (s : SessionState) (h : History)
    (post : α → SessionState → History → Prop := fun _ _ _ => True) : Prop :=
  t.Meets p.keeper (fun a s' h' => (s.OnlyMinor h s' h' ∧ s'.bridge.Balanced h') ∧ post a s' h')
    (fun _ s' h' => s.OnlyMinor h s' h') s h

theorem Quiet.mono {t : Routine ε SessionState α} {post post' : α → SessionState → History → Prop}
    (ht : Quiet p t s h post)
    (hpost : ∀ a s' h', s.OnlyMinor h s' h' → post a s' h' → post' a s' h') :
    Quiet p t s h post' :=
  Meets.mono ht (fun a s' h' hq => ⟨hq.1, hpost a s' h' hq.1.1 hq.2⟩) fun _ _ _ hq => hq

theorem quiet_pure {a : α} {post : α → SessionState → History → Prop}
    (hb : s.bridge.Balanced h) (ha : post a s h) :
    Quiet p (pure a : Routine ε SessionState α) s h post :=
  meets_pure.mpr ⟨⟨.refl hb.toPins, hb⟩, ha⟩

theorem quiet_throw {e : ε} {post : α → SessionState → History → Prop} (hb : s.bridge.Pins h) :
    Quiet p (throw e : Routine ε SessionState α) s h post :=
  meets_throw.mpr (.refl hb)

theorem Quiet.bind {t : Routine ε SessionState α} {f : α → Routine ε SessionState β}
    {post : α → SessionState → History → Prop} {post' : β → SessionState → History → Prop}
    (ht : Quiet p t s h post)
    (hf : ∀ a s' h', s.OnlyMinor h s' h' → s'.bridge.Balanced h' → post a s' h' →
      Quiet p (f a) s' h' post') :
    Quiet p (t >>= f) s h post' := by
  refine meets_bind.mpr <| Meets.mono ht ?_ fun _ _ _ hq => hq
  rintro a s' h' ⟨⟨hs, hb⟩, ha⟩
  exact Meets.mono (hf a s' h' hs hb ha) (fun _ _ _ hq => ⟨⟨hs.trans hq.1.1, hq.1.2⟩, hq.2⟩)
    fun _ _ _ hq => hs.trans hq

theorem quiet_get_bind {f : SessionState → Routine ε SessionState β}
    {post : β → SessionState → History → Prop} (hf : Quiet p (f s) s h post) :
    Quiet p (get >>= f) s h post :=
  meets_bind.mpr <| meets_get.mpr hf

theorem quiet_modify {f : SessionState → SessionState} (hb : s.bridge.Balanced h)
    (hheld : (f s).held = s.held) (hguard : (f s).guard = s.guard) (hstep : (f s).step = s.step)
    (hsub : (f s).substitution = s.substitution) (hbridge : (f s).bridge = s.bridge) :
    Quiet p (modify f : Routine ε SessionState PUnit) s h fun _ s' _ => s' = f s :=
  meets_modify.mpr ⟨⟨⟨.refl, hheld, hguard, hstep, hsub, hbridge ▸ hb.toPins⟩, hbridge ▸ hb⟩, rfl⟩

theorem quiet_ite {P : Prop} [Decidable P] {t e : Routine ε SessionState α}
    {post : α → SessionState → History → Prop} (ht : P → Quiet p t s h post)
    (he : ¬P → Quiet p e s h post) : Quiet p (if P then t else e) s h post := by
  split
  · exact ht ‹_›
  · exact he ‹_›

/-! ### Commands -/

/-- A minor command is always admitted before the final report. -/
theorem meets_minor {σ : Type} {c : Command} {wrap : JdwpError → TraceError} {st : σ}
    {ok : c.Reply → σ → History → Prop} {err : TraceError → σ → History → Prop}
    (hc : c.isMinor = true) (hf : h.finals = [])
    (hok : ∀ r, ok r st (h ++ [.sent c (.ok r)]))
    (herr : ∀ e, err (wrap e) st (h ++ [.sent c (.error e)])) :
    (commandOr c wrap).Meets p.keeper ok err st h := by
  refine meets_commandOr.mpr ⟨.minor hf hc, ?_, ?_⟩
  · rintro r h' rfl
    exact hok r
  · rintro e h' rfl
    exact herr e

/-- What the debuggee told is known while the thread stands where it is. -/
theorem mem_still_sent {c : Command} (hc : c.isMinor = true) (r : c.Answer) :
    Moment.sent c r ∈ History.still (h ++ [.sent c r]) :=
  History.mem_still_snoc h (Moment.idle_sent hc r).resumes

theorem quiet_commandOr {c : Command} {wrap : JdwpError → TraceError} (hc : c.isMinor = true)
    (hb : s.bridge.Balanced h) :
    Quiet p (commandOr c wrap) s h fun r _ h' => .sent c (.ok r) ∈ h'.still := by
  have hgoes : ∀ r : c.Answer, h.ContinuedBy Idle (h ++ [.sent c r]) := fun r =>
    .one (Moment.idle_sent hc r)
  exact meets_minor hc hb.finals
    (fun r => ⟨⟨onlyMinor_of_idle hb.toPins (hgoes _), hb.idle (hgoes _)⟩, mem_still_sent hc _⟩)
    fun e => onlyMinor_of_idle hb.toPins (hgoes _)

theorem quiet_command {c : Command} (hc : c.isMinor = true) (hb : s.bridge.Balanced h) :
    Quiet p (command c) s h fun r _ h' => .sent c (.ok r) ∈ h'.still :=
  quiet_commandOr hc hb

/-- An action that is no command, and no final report. -/
theorem quiet_perform {a : Action} (ha : ∀ c, a ≠ .command c)
    (hm : ∀ r, Idle (.did a r)) (hdeliver : ∀ r, a = .deliver r → r.outcome? = none)
    (hb : s.bridge.Balanced h) : Quiet p (perform a : Routine ε SessionState _) s h := by
  refine meets_perform.mpr ⟨.free hb.finals hdeliver fun c hc => absurd hc (ha c), ?_⟩
  rintro r h' rfl
  have hgoes := ContinuedBy.one (h := h) (hm r)
  exact ⟨⟨onlyMinor_of_idle hb.toPins hgoes, hb.idle hgoes⟩, trivial⟩

theorem quiet_publish (state : TraceState) (hb : s.bridge.Balanced h) :
    Quiet p (TracePlan.publish state : Routine ε SessionState Unit) s h :=
  quiet_perform (fun _ hc => by cases hc) (Moment.idle_publish state) (fun _ hr => by cases hr) hb

theorem quiet_clock (hb : s.bridge.Balanced h) :
    Quiet p (perform .clock : Routine ε SessionState Nat) s h :=
  quiet_perform (fun _ hc => by cases hc) Moment.idle_clock (fun _ hr => by cases hr) hb

/-! ### The bridge and the handlers -/

theorem quiet_inBridge {t : BridgeRoutine α} {find : Bool} {post : α → BridgeState → Prop}
    (ht : t.Sends (BridgeRoutine.BridgeCommand find) s.bridge post) (hb : s.bridge.Balanced h) :
    Quiet p (TracePlan.inBridge t) s h
      fun a s' _ => post a s'.bridge ∧ s' = { s with bridge := s'.bridge } := by
  have ht' : t.Sends (BridgeRoutine.BridgeCommand true) s.bridge post :=
    ht.weaken fun _ hc => ⟨hc.1, .inl rfl⟩
  refine meets_within.mpr <| Meets.mono (ht'.meets (hosts_keeper h) ⟨.refl, hb⟩) ?_ ?_
  · rintro a b h' ⟨⟨-, ha⟩, hgoes, hb'⟩
    exact ⟨⟨⟨hgoes, rfl, rfl, rfl, rfl, hb'.toPins⟩, hb'⟩, ha, rfl⟩
  · rintro e b h' ⟨-, hgoes, hp'⟩
    exact ⟨hgoes, rfl, rfl, rfl, rfl, hp'⟩

theorem quiet_stageAt (k : Nat) (hb : s.bridge.Balanced h) :
    Quiet p (TracePlan.stageAt k) s h
      fun stage s' h' => s' = s ∧ h' = h ∧ s.stages[k]? = some stage := by
  unfold TracePlan.stageAt
  refine quiet_get_bind ?_
  split
  · exact quiet_pure hb ⟨rfl, rfl, ‹_›⟩
  · exact quiet_throw hb.toPins

theorem quiet_onHandler {k : Nat}
    {step : StageHandler → Probe → BridgeRoutine (StageHandler × α)}
    (hstep : ∀ handler probe bridge, handler.CanStep true bridge →
      (step handler probe).Sends (BridgeRoutine.BridgeCommand true) bridge fun r _ =>
        r.1.matcher? = handler.matcher?)
    (hb : s.bridge.Balanced h) : Quiet p (p.onHandler k step) s h := by
  unfold TracePlan.onHandler
  refine (quiet_stageAt k hb).bind ?_
  rintro stage s₁ h₁ - - ⟨rfl, rfl, hstage⟩
  refine quiet_get_bind ?_
  have hcan : stage.handler.CanStep true s₁.bridge := ⟨⟨.inl rfl, .inl rfl⟩, fun _ _ => .inl rfl⟩
  refine (quiet_inBridge (hstep _ _ _ hcan) hb).bind ?_
  rintro ⟨handler, a⟩ s' h' - hb' ⟨-, hs'⟩
  have hstage' : s'.stages[k]? = some stage := by rw [hs', hstage]
  refine (quiet_modify hb' (held_setStage hstage') rfl rfl rfl rfl).bind fun _ _ _ _ hb'' _ => ?_
  exact quiet_pure hb'' trivial

/-! ### Methods and frames -/

/-- Asking for methods is idle. -/
theorem methodsOf_idle (type : TypeId) {methods : MethodLists} (hf : h.finals = []) :
    (Breakpoint.methodsOf type).Meets p.keeper (fun _ _ h' => h.ContinuedBy Idle h')
      (fun _ _ h' => h.ContinuedBy Idle h') methods h := by
  unfold Breakpoint.methodsOf
  rw [meets_bind, meets_get]
  split
  · exact meets_pure.mpr .refl
  · refine meets_bind.mpr <| meets_minor rfl hf (fun (methods : List MethodInfo) => ?_) fun e => ?_
    · rw [meets_bind, meets_modify, meets_pure]
      exact .one (Moment.idle_sent rfl _)
    · exact .one (Moment.idle_sent rfl _)

theorem isAt_idle (b : Breakpoint) (l : Location) {methods : MethodLists} (hf : h.finals = []) :
    (b.isAt l).Meets p.keeper (fun _ _ h' => h.ContinuedBy Idle h')
    (fun _ _ h' => h.ContinuedBy Idle h')
      methods h := by
  unfold Breakpoint.isAt
  refine meets_bind.mpr <| Meets.mono (methodsOf_idle _ hf) ?_ fun _ _ _ hg => hg
  intro found _ h' hg
  split
  · exact meets_pure.mpr hg
  · exact meets_pure.mpr hg

theorem create_idle (edge : MethodEdge) (sig : MethodSignature) {methods : MethodLists}
    (hf : h.finals = []) :
    (Breakpoint.create edge sig).Meets p.keeper
      (fun b _ h' => h.ContinuedBy Idle h' ∧ b.request = none) (fun _ _ h' => h.ContinuedBy Idle h')
      methods h := by
  unfold Breakpoint.create
  extract_lets missing
  refine meets_bind.mpr <| meets_minor rfl hf (fun classes => ?_) fun e => ?_
  · have hone : h.ContinuedBy Idle (h ++ [.sent (.classesBySignature _) (.ok classes)]) :=
      .one (Moment.idle_sent rfl _)
    split
    · exact meets_throw.mpr hone
    · have hf₁ := hone.minor.calm.stays.finals.trans hf
      refine meets_bind.mpr <| Meets.mono (methodsOf_idle _ hf₁) ?_ fun _ _ _ hg => hone.trans hg
      intro found _ h' hg
      split
      · exact meets_throw.mpr (hone.trans hg)
      · exact meets_pure.mpr ⟨hone.trans hg, rfl⟩
  · exact .one (Moment.idle_sent rfl _)

theorem quiet_inMethods {t : Routine TraceError MethodLists α} {post : α → Prop}
    (ht : t.Meets p.keeper (fun a _ h' => h.ContinuedBy Idle h' ∧ post a)
      (fun _ _ h' => h.ContinuedBy Idle h')
      s.methods h) (hb : s.bridge.Balanced h) :
    Quiet p (TracePlan.inMethods t) s h fun a _ _ => post a := by
  refine meets_within.mpr <| Meets.mono ht ?_ ?_
  · rintro a methods h' ⟨hg, ha⟩
    exact ⟨⟨⟨hg.minor, rfl, rfl, rfl, rfl, hb.toPins.idle hg⟩, hb.idle hg⟩, ha⟩
  · intro e methods h' hg
    exact ⟨hg.minor, rfl, rfl, rfl, rfl, hb.toPins.idle hg⟩

theorem quiet_isAt (b : Breakpoint) (l : Location) (hb : s.bridge.Balanced h) :
    Quiet p (TracePlan.inMethods (b.isAt l)) s h :=
  quiet_inMethods (Meets.mono (isAt_idle b l hb.finals) (fun _ _ _ hg => ⟨hg, trivial⟩)
    fun _ _ _ hg => hg) hb

/-- The frame on top is the first of those that were asked for. -/
theorem quiet_frameOnTop (thread : ThreadId) (hb : s.bridge.Balanced h) :
    Quiet p (frameOnTop thread) s h fun frame _ h' =>
      ∃ rest, .sent (.frames thread 0 1) (.ok (frame :: rest)) ∈ h'.still := by
  unfold frameOnTop
  refine (quiet_command rfl hb).bind fun (frames : List FrameInfo) s' h' _ hb' hmem => ?_
  split
  · rename_i frame hframe
    obtain ⟨rest, rfl⟩ := List.head?_eq_some_iff.mp hframe
    exact quiet_pure hb' ⟨rest, hmem⟩
  · exact quiet_throw hb'.toPins

theorem quiet_readArguments (b : Breakpoint) (thread : ThreadId) (frame : FrameId)
    (hb : s.bridge.Balanced h) : Quiet p (b.readArguments thread frame) s h := by
  unfold Breakpoint.readArguments
  exact quiet_ite (fun _ => quiet_pure hb trivial) fun _ =>
    (quiet_command rfl hb).mono fun _ _ _ _ _ => trivial

/-- A write that keeps the books keeps them when its refusal is overlooked. -/
theorem meets_overlook {write : SessionRoutine Unit} {ok : SessionState → History → Prop}
    {err : TraceError → SessionState → History → Prop}
    (hfinals : ∀ s h, ok s h → h.finals = [])
    (hidle : ∀ s h h', ok s h → h.ContinuedBy Idle h' → ok s h')
    (herr : ∀ e s h, ok s h → err e s h)
    (hw : write.Meets p.keeper (fun _ => ok) (fun _ => ok) s h) :
    (p.overlook write).Meets p.keeper (fun _ => ok) err s h := by
  unfold TracePlan.overlook
  refine meets_bind.mpr <| meets_attempt.mpr <| Meets.mono hw
    (fun _ _ _ hok => meets_pure.mpr hok) ?_
  intro e s' h' hok
  refine meets_ite (fun _ => ?_) fun _ => meets_throw.mpr (herr e _ _ hok)
  refine meets_perform.mpr ⟨.free (hfinals _ _ hok) ?_ (fun _ hc => by cases hc), ?_⟩
  · rintro r hr
    cases hr
    rfl
  · rintro r h'' rfl
    exact hidle _ _ _ hok (.one (Moment.idle_setupFailed _ r))

/-! ### Results -/

theorem quiet_gatherResults (hb : s.bridge.Balanced h) : Quiet p p.gatherResults s h := by
  have hcollect : ∀ (s₀ : SessionState) (stages : List Stage) s h, s.bridge.Balanced h →
      Quiet p (TracePlan.gatherResults.collectReports p s₀ stages) s h := by
    intro s₀ stages
    induction stages with
    | nil => exact fun _ _ hb => quiet_pure hb trivial
    | cons stage rest ih =>
        intro s h hb
        refine (quiet_inBridge (stage.handler.result_sends _) hb).bind fun _ s₁ h₁ _ hb₁ _ => ?_
        exact (ih s₁ h₁ hb₁).bind fun _ _ _ _ hb₂ _ => quiet_pure hb₂ trivial
  unfold TracePlan.gatherResults
  refine quiet_get_bind <| (hcollect _ _ s h hb).bind fun reports _ _ _ hb₁ _ => ?_
  refine (quiet_clock hb₁).bind fun now _ _ _ hb₂ _ => ?_
  split
  · exact quiet_throw hb₂.toPins
  · exact quiet_pure hb₂ trivial

end SessionRoutine

end StreamTrace
