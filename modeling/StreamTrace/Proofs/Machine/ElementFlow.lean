import StreamTrace.Proofs.Machine.StatementValues

/-!
# Elements on their way

The code that passes elements through a pipeline, followed across its stops: lambdas, collectors and
matchers give what they compute, and the elements of a source come to what the terminal call makes
of them, whatever the debugger does meanwhile.
-/

namespace StreamTrace

/-! ## Going on from a stop -/

namespace Vm

/-- An event is raised by a request, at the location on top. -/
theorem eventFor_event {accepts : Vm → Location → InstalledRequest → Bool}
    {make : RequestId → Location → Event} {vm : Vm} {e : Event}
    (h : ((eventFor accepts make).run vm).1 = some e) : ∃ request l, e = make request l := by
  unfold eventFor at h
  rw [run_get_bind] at h
  split at h
  · cases h
  · rename_i l _
    obtain ⟨request, -, rfl⟩ := Option.map_eq_some_iff.mp h
    exact ⟨request, l, rfl⟩

/-- What stops the thread in a method that it has entered is no exit. -/
theorem enteredEvent_event {vm : Vm} {e : Event} (h : (enteredEvent.run vm).1 = some e) :
    (∃ request l, e = .methodEntry request mainThread l) ∨
      ∃ request l, e = .singleStep request mainThread l := by
  unfold enteredEvent at h
  rw [run_bind] at h
  split at h
  · rename_i e' he'
    obtain rfl : e' = e := Option.some.inj h
    exact .inl (eventFor_event he')
  · exact .inr (eventFor_event h)

end Vm

namespace Scene

variable {S : Scene} {vm vm' : Vm}

/-- The machine when the thread has passed the place where the event `e?` was due. -/
structure Passed (S : Scene) (e? : Option Event) (vm vm' : Vm) : Prop
    extends S.Progress vm vm', S.Steady vm' where
  top : S.TopKept vm' vm.frames vm'.frames
  forced : ∀ v', vm'.forcedReturn = some v' → ∃ request thread l v,
    e? = some (.methodExitWithValue request thread l v) ∧ vm'.Alike (some v) (some v')
  dead : vm'.dead = false
  outbox : vm'.outbox = []

theorem TopKept.refl (vm : Vm) (frames : List Frame) : S.TopKept vm frames frames := by
  intro f f' hf hf' _ slot
  obtain rfl := Option.some.inj (hf.symm.trans hf')
  exact .inl rfl

/-- Unless the event was an exit, the thread runs on. -/
theorem Passed.running {e? : Option Event} (h : S.Passed e? vm vm')
    (hplain : ∀ request thread l v, e? ≠ some (.methodExitWithValue request thread l v)) :
    S.Running vm' := by
  refine ⟨h.toSteady, ?_, h.dead, h.outbox⟩
  cases hforced : vm'.forcedReturn with
  | none => rfl
  | some v' =>
      obtain ⟨request, thread, l, v, he, -⟩ := h.forced v' hforced
      exact absurd he (hplain request thread l v)

end Scene

namespace Code

open Scene

variable {S : Scene} {α β γ : Type} {vm : Vm}

theorem stop_run {due : StateM Vm (Option Event)} (h : S.Running vm)
    (hdue : Vm.Keeps Vm.Evolves due)
    (hexit : ∀ request thread l v,
      (due.run vm).1 = some (.methodExitWithValue request thread l v) → vm.Settled v)
    (hentry : ∀ request thread l, (due.run vm).1 = some (.methodEntry request thread l) →
      ∀ f, vm.frames.head? = some f → f.id ≠ S.frame) :
    Run.Correct S (fun r vm' => r = .ok () ∧ S.Passed (due.run vm).1 vm vm') ((stop due).run vm)
      vm := by
  obtain ⟨htidy, hevolved⟩ := hdue vm h.tidy
  obtain ⟨hruns, hgoes, hsince⟩ := h.evolved (hdue vm)
  show Run.Correct S _ (stop due vm) vm
  unfold stop
  rw [if_neg (by rw [h.dead]; decide)]
  rcases hr : due.run vm with ⟨e?, vm₁⟩
  rw [hr] at hexit hentry hruns hgoes hevolved hsince
  change S.Running vm₁ at hruns
  cases e? with
  | none =>
      refine ⟨hsince, rfl, hgoes, hruns.toSteady, ?_, fun v' hv' => ?_, hruns.dead, hruns.outbox⟩
      · rw [hevolved.frames]
        exact .refl vm₁ _
      · rw [hruns.forced] at hv'
        cases hv'
  | some e =>
      let vm₂ : Vm := { vm₁ with suspended := true, outbox := vm₁.outbox ++ [e] }
      have houtbox : ∀ e', e' ∈ vm₂.outbox → e' = e := fun e' he' => by
        simpa [vm₂, hruns.outbox] using he'
      have hgoes₂ : S.Progress vm₁ vm₂ := ⟨.of_eq rfl rfl rfl rfl, .refl vm₂ _, rfl, rfl⟩
      have hsteady := hruns.toSteady.progress hgoes₂ (hruns.tidy.of_eq rfl rfl rfl)
      show Run.Correct S _ (if vm₂.dead then _ else if ¬vm₂.suspended then _ else _) vm
      rw [if_neg (by rw [show vm₂.dead = vm₁.dead from rfl, hruns.dead]; decide),
        if_neg (by simp [vm₂])]
      refine ⟨⟨(hgoes.trans hgoes₂).grows, by simp, hsteady, hruns.forced, hruns.dead,
        fun request thread l v hmem => ?_, fun request thread l hmem f hf => ?_⟩,
        fun vm₃ hback => ?_⟩
      · exact (hexit request thread l v (houtbox _ hmem ▸ rfl)).grows (hgoes.trans hgoes₂).grows
      · refine hentry request thread l (houtbox _ hmem ▸ rfl) f ?_
        rw [← hevolved.frames]
        exact hf
      · have hdead : vm₃.dead = false := hback.dead.trans hruns.dead
        show vm₃.Unstopped vm₃ ∧ (if vm₃.dead then _ else _) = _ ∧ _
        rw [hdead]
        refine ⟨.refl vm₃, rfl, (hgoes.trans hgoes₂).trans hback.toProgress,
          hsteady.progress hback.toProgress hback.tidy, ?_, ?_, hdead, hback.outbox⟩
        · rw [← hevolved.frames]
          exact hback.top
        · intro v' hv'
          obtain ⟨request, thread, l, v, hmem, halike⟩ := hback.forced v' hv'
          exact ⟨request, thread, l, v, by rw [houtbox _ hmem], halike⟩

/-- A stop that is neither at an entry nor at an exit changes nothing that matters. -/
theorem stop_correct {due : StateM Vm (Option Event)} {rel : Vm → Unit → Unit → Prop}
    (h : S.Running vm) (hdue : Vm.Keeps Vm.Evolves due)
    (hplain : ∀ e, (due.run vm).1 = some e → (∀ request thread l v,
      e ≠ .methodExitWithValue request thread l v) ∧ ∀ request thread l,
      e ≠ .methodEntry request thread l) (hrel : ∀ vm', rel vm' () ()) :
    (stop due).Correct S (.ok ()) rel vm := by
  have hrun := stop_run h hdue (fun request thread l v he => absurd rfl ((hplain _ he).1 _ _ _ _))
    fun request thread l he => absurd rfl ((hplain _ he).2 _ _ _)
  refine Run.Correct.mono hrun ?_
  rintro r vm' ⟨rfl, hpassed⟩
  exact ⟨hpassed.toProgress, hpassed.running fun _ _ _ _ he => (hplain _ he).1 _ _ _ _ rfl,
    hrel vm'⟩

theorem stepEvent_correct (point : StepEnd) (h : S.Running vm) :
    (stop (Vm.stepEvent point)).Correct S (.ok ()) (fun _ _ _ => True) vm := by
  refine stop_correct h (Vm.stepEvent_keeps point) (fun e he => ?_) fun _ => trivial
  obtain ⟨request, l, rfl⟩ := Vm.eventFor_event he
  exact ⟨nofun, nofun⟩

theorem exceptionEvent_correct (exception : ObjectId) (caught : Option Location)
    (h : S.Running vm) :
    (stop (Vm.exceptionEvent exception caught)).Correct S (.ok ()) (fun _ _ _ => True) vm := by
  refine stop_correct h (Vm.exceptionEvent_keeps exception caught) (fun e he => ?_) fun _ => trivial
  obtain ⟨request, l, rfl⟩ := Vm.eventFor_event he
  exact ⟨nofun, nofun⟩

theorem raise_correct {rel : Vm → β → α → Prop} (className : String) (h : S.Running vm) :
    (raise className : Code α).Correct S (.error .thrown) rel vm := by
  refine correct_use_bind h (Vm.makeThrowable_keeps className) fun vm₁ _ _ hruns => ?_
  subst_vars
  exact (exceptionEvent_correct _ _ hruns).andThen fun _ _ _ hruns' _ => correct_thrown hruns'

end Code

/-! ## Frames -/

namespace Vm

/-- The debugger finds no variables in that method. -/
def HidesMethod (vm : Vm) (type : TypeId) (method : MethodId) : Prop :=
  ∃ c, vm.classes.byId? type = some c ∧ c.locals.get? method = none

theorem HidesMethod.grows {vm vm' : Vm} {type : TypeId} {method : MethodId}
    (h : vm.HidesMethod type method) (hg : vm.Grows vm') : vm'.HidesMethod type method := by
  obtain ⟨c, hc, hnone⟩ := h
  obtain ⟨c', hc', hsame⟩ := hg.classes hc
  exact ⟨c', hc', hsame.locals ▸ hnone⟩

/-- The machine with a new frame on top. -/
def entering (vm : Vm) (type : TypeId) (method : MethodId) (slots : Table Nat Value) : Vm :=
  { vm with
    nextId := vm.nextId + 1
    frames :=
      { id := vm.nextId + 1, location := vm.location type method 0, slots } :: vm.frames }

/-- The machine without its frame on top. -/
def leaving (vm : Vm) : Vm := { vm with frames := vm.frames.tail }

theorem grows_entering (vm : Vm) (type : TypeId) (method : MethodId) (slots : Table Nat Value) :
    vm.Grows (vm.entering type method slots) :=
  ⟨Nat.le_succ _, fun h _ => h, fun h => ⟨_, h, .refl _⟩, fun h => h, Nat.le_refl _, rfl⟩

theorem grows_leaving (vm : Vm) : vm.Grows vm.leaving := .of_eq rfl rfl rfl rfl

end Vm

namespace Scene

variable {S : Scene} {vm vm' : Vm}

theorem Steady.leaving (h : S.Steady vm) : S.Steady vm.leaving := by
  refine ⟨h.tidy.of_eq rfl rfl rfl, h.grown.trans vm.grows_leaving, fun f hf hid slot v hv => ?_,
    fun f hf hid => (h.hidden f (List.mem_of_mem_tail hf) hid).grows vm.grows_leaving,
    S.stable vm.grows_leaving rfl rfl h.notes⟩
  exact (h.settled f (List.mem_of_mem_tail hf) hid slot v hv).grows vm.grows_leaving

theorem Running.leaving (h : S.Running vm) : S.Running vm.leaving :=
  ⟨h.toSteady.leaving, h.forced, h.dead, h.outbox⟩

/-- A new frame is not the statement's, since its identifier is new. -/
theorem Running.entering (h : S.Running vm) {type : TypeId} {method : MethodId}
    (hhides : vm.HidesMethod type method) (slots : Table Nat Value) :
    S.Running (vm.entering type method slots) := by
  have hgrows := vm.grows_entering type method slots
  refine ⟨⟨⟨fun he => Nat.le_succ_of_le (h.tidy.objects he), h.tidy.fits⟩, h.grown.trans hgrows,
    fun f hf hid slot v hv => ?_, fun f hf hid => ?_, S.stable hgrows rfl rfl h.notes⟩,
    h.forced, h.dead, h.outbox⟩
  · rcases List.mem_cons.mp hf with rfl | hf
    · have hlt : S.frame < vm.nextId + 1 :=
        Nat.lt_succ_of_le (Nat.le_trans S.fresh h.grown.nextId)
      exact absurd hid (Nat.ne_of_gt hlt)
    · exact (h.settled f hf hid slot v hv).grows hgrows
  · rcases List.mem_cons.mp hf with rfl | hf
    · exact hhides.grows hgrows
    · exact (h.hidden f hf hid).grows hgrows

/-- What went on above a frame leaves the frames below as they were. -/
theorem progress_of_frame {type : TypeId} {method : MethodId} {slots : Table Nat Value}
    (h : S.Progress (vm.entering type method slots) vm') : S.Progress vm vm'.leaving := by
  refine ⟨((vm.grows_entering type method slots).trans h.grows).trans vm'.grows_leaving, ?_,
    h.programResult, h.evaluations⟩
  exact h.frames.tail.grows vm'.grows_leaving

end Scene

namespace Code

open Scene

variable {S : Scene} {α β γ : Type} {vm : Vm} {x : Fate β} {rel : Vm → β → α → Prop}

/-- The frame on top as it was when its method was entered; the debugger may have wrapped
predicates in it. -/
def Entered (slots : Table Nat Value) (vm : Vm) (f : Frame) : Prop :=
  ∀ slot, f.slots.get? slot = slots.get? slot ∨
    ∃ v v', slots.get? slot = some v ∧ f.slots.get? slot = some v' ∧ vm.Wrapped v v'

/-- Code that runs in a frame of its own, from the stop at its entry on. -/
theorem inFrame_correct {type : TypeId} {method : MethodId} {slots : Table Nat Value}
    {body : Code α} (h : S.Running vm) (hhides : vm.HidesMethod type method)
    (hrel : ∀ {vm vm' b a}, vm.Grows vm' → rel vm b a → rel vm' b a)
    (hbody : ∀ vm' f, vm.Grows vm' → S.Running vm' → vm'.frames.head? = some f →
      Entered slots vm' f → body.Correct S x rel vm') :
    (inFrame type method slots (do stop Vm.enteredEvent; body)).Correct S x rel vm := by
  let vm₁ := vm.entering type method slots
  have hruns : S.Running vm₁ := h.entering hhides slots
  have hlt : S.frame < vm.nextId + 1 := Nat.lt_succ_of_le (Nat.le_trans S.fresh h.grown.nextId)
  -- At the entry a predicate in the new frame may be wrapped, and nothing else.
  have hentered : (do stop Vm.enteredEvent; body : Code α).Correct S x rel vm₁ := by
    have hstop := stop_run hruns Vm.enteredEvent_keeps (fun request thread l v he => by
      rcases Vm.enteredEvent_event he with ⟨_, _, h⟩ | ⟨_, _, h⟩ <;> cases h)
      fun request thread l _ f hf => by
        obtain rfl := Option.some.inj hf
        exact Nat.ne_of_gt hlt
    refine Run.Correct.bind hstop ?_
    rintro r vm₂ ⟨rfl, hpassed⟩
    have hruns₂ := hpassed.running fun request thread l v he => by
      rcases Vm.enteredEvent_event he with ⟨_, _, h⟩ | ⟨_, _, h⟩ <;> cases h
    obtain ⟨f, hf, -⟩ := hpassed.frames.head rfl
    refine (hbody vm₂ f ((vm.grows_entering type method slots).trans hpassed.grows) hruns₂ hf
      fun slot => ?_).after hpassed.toProgress
    exact hpassed.top _ f rfl hf (Nat.ne_of_gt hlt) slot
  show Run.Correct S _ (Run.bind ((do stop Vm.enteredEvent; body : Code α).run vm₁) _) vm
  refine (Run.Correct.bind hentered ?_).since ⟨vm.grows_entering type method slots, rfl⟩
  rintro r vm₂ ⟨hgoes, hend⟩
  refine ⟨⟨vm₂.grows_leaving, rfl⟩, progress_of_frame hgoes, ?_⟩
  cases x with
  | ok b =>
      cases r with
      | ok a => exact ⟨hend.1.leaving, hrel vm₂.grows_leaving hend.2⟩
      | error i => exact hend.elim
  | error i =>
      cases r with
      | ok a => cases i <;> exact hend.elim
      | error j =>
          cases i <;> cases j <;> first
            | exact hend.elim
            | exact Running.leaving hend
            | exact ⟨hend.1.leaving, hend.2⟩

/-- Behind a method that has returned, the thread may stop once more. -/
theorem Correct.returned {c : Code α} (h : c.Correct S x rel vm)
    (hrel : ∀ {vm vm' b a}, vm.Grows vm' → rel vm b a → rel vm' b a) :
    (do
      let a ← c
      stop (Vm.stepEvent .returned)
      return a : Code α).Correct S x rel vm := by
  rw [← bind_pure x]
  refine Correct.bind (y := pure) h fun b a vm' _ _ hruns hb => ?_
  exact (stepEvent_correct .returned hruns).andThen fun _ vm'' hgoes hruns' _ =>
    correct_pure hruns' (hrel hgoes.grows hb)

/-! ## Lambdas -/

/-- Both are the same, wherever they are. -/
abbrev Exactly (_ : Vm) (b a : α) : Prop := a = b

theorem lambdaBody_correct (o : LambdaOutcome) (h : S.Running vm) :
    (lambdaBody o).Correct S o.fate Exactly vm := by
  cases o with
  | value e => exact correct_pure h rfl
  | raise exception caught =>
      cases caught with
      | none => exact raise_correct exception h
      | some fallback =>
          refine correct_read_bind (correct_use_bind h (Vm.makeThrowable_keeps _) ?_)
          intro vm₁ hvm₁ _ hruns
          exact (exceptionEvent_correct _ _ hruns).andThen fun _ _ _ hruns' _ =>
            correct_pure hruns' rfl
  | raiseReplaced exception replacement =>
      refine correct_use_bind h (Vm.makeThrowable_keeps _) fun vm₁ _ _ hruns => ?_
      exact (exceptionEvent_correct _ _ hruns).andThen fun _ _ _ hruns' _ =>
        raise_correct replacement hruns'
  | exitVm =>
      have hkill : vm.kill = { vm with dead := true, outbox := vm.outbox ++ [.vmDeath] } := by
        simp [Vm.kill, h.dead]
      have hgoes : S.Progress vm vm.kill := by
        rw [hkill]
        exact ⟨.of_eq rfl rfl rfl rfl, .refl _ _, rfl, rfl⟩
      have hsteady := h.toSteady.progress hgoes (by rw [hkill]; exact h.tidy.of_eq rfl rfl rfl)
      refine ⟨⟨hgoes.grows, by rw [hkill]⟩, hgoes, hsteady, ?_, ?_⟩
      · rw [hkill]
        exact h.forced
      · rw [hkill]

theorem runLambda_correct {function : ObjectId} {f : Lambda} (h : S.Running vm)
    (hf : vm.IsLambda function f) (e : Element) :
    (runLambda function f e).Correct S (f.run e) Exactly vm := by
  obtain ⟨type, c, m, he, hc, hm, hnone⟩ := hf
  have hmethod : vm.lambdaMethod? function = some (type, m) := by
    simp [Vm.lambdaMethod?, he, hc, hm]
  refine correct_read_bind ?_
  rw [hmethod]
  refine correct_use_bind h (Vm.materialize_keeps _ _) fun vm₁ _ hgoes hruns => ?_
  have hhides : vm₁.HidesMethod type m.id := Vm.HidesMethod.grows ⟨c, hc, hnone⟩ hgoes.grows
  refine correct_read_bind (Correct.returned ?_ fun _ h => h)
  exact inFrame_correct hruns hhides (fun _ h => h) fun vm₂ _ _ hruns₂ _ _ =>
    lambdaBody_correct (f e) hruns₂

theorem object?_of_lookup {id : ObjectId} {e : TypedObject} (he : vm.lookup? id = some e) :
    vm.object? id = some e.object := by
  simp [Vm.object?, he]

/-- An object that computes `f` gives what `f` gives. -/
theorem apply_correct {function : ObjectId} {f : Element → Fate Element} (h : S.Running vm)
    (hf : vm.Computes function f) (e : Element) :
    (apply function e).Correct S (f e) Exactly vm := by
  unfold apply
  refine correct_read_bind ?_
  cases hf with
  | @lambda f hf =>
      obtain ⟨type, _, _, he, _⟩ := id hf
      rw [object?_of_lookup he]
      exact runLambda_correct h hf e
  | @collector type map time tick he =>
      rw [object?_of_lookup he]
      refine correct_use_bind h ?_ fun vm₁ _ _ hruns => correct_pure hruns rfl
      refine (Vm.tick_keeps time tick).bind fun now => ?_
      cases map with
      | none => exact Vm.keeps_pure _
      | some map => exact Vm.put_keeps map now e
  | @matcher before after time predicate type f he hf =>
      rw [object?_of_lookup he]
      refine correct_use_bind h
        ((Vm.tick_keeps time false).bind fun now => Vm.put_keeps before now e)
        fun vm₁ _ hgoes hruns => ?_
      have hf₁ := hf.grows hgoes.grows
      obtain ⟨type', _, _, he', _⟩ := id hf₁
      refine correct_read_bind ?_
      rw [object?_of_lookup he']
      show Correct S (runLambda predicate f e >>= _) (f.run e) Exactly vm₁
      rw [← bind_pure (f.run e)]
      refine Correct.bind (y := pure) (runLambda_correct hruns hf₁ e)
        fun b a vm₂ _ _ hruns₂ hab => ?_
      subst hab
      refine correct_ite (fun _ => ?_) fun _ => correct_pure hruns₂ rfl
      exact correct_use_bind hruns₂
        ((Vm.tick_keeps time true).bind fun now => Vm.put_keeps after now e)
        fun vm₃ _ _ hruns₃ => correct_pure hruns₃ rfl

/-! ## Pipelines -/

/-- Steps that meant something once make the same of an element whenever it goes through them. -/
theorem through_correct {vm₀ : Vm} {ops : List PipelineStep} {ks : List Passage}
    (hops : List.Forall₂ vm₀.StepMeans ops ks) (hgrows : vm₀.Grows vm) (h : S.Running vm)
    (e : Element) : (through ops e).Correct S (Passage.through ks e) Exactly vm := by
  induction hops generalizing vm e with
  | nil => exact correct_pure h rfl
  | @cons op k ops ks hop _ ih =>
      have hrest : ∀ {vm'} (e' : Element), S.Progress vm vm' → S.Running vm' →
          (through ops e').Correct S (Passage.through ks e') Exactly vm' :=
        fun e' hgoes hruns => ih (hgrows.trans hgoes.grows) hruns e'
      cases hop.grows hgrows with
      | @filter predicate f hf =>
          show Correct S (apply predicate e >>= _) ((f e >>= _) >>= _) Exactly vm
          rw [bind_assoc]
          refine Correct.bind (apply_correct h hf e) fun b a vm' _ hgoes hruns hab => ?_
          subst hab
          show Correct S (if a.isTrue then _ else _)
            ((if a.isTrue then pure (some e) else pure none : Fate (Option Element)) >>= _) _ vm'
          cases a.isTrue with
          | true => exact hrest e hgoes hruns
          | false => exact correct_pure hruns rfl
      | @map function f hf =>
          show Correct S (apply function e >>= _) ((f e >>= _) >>= _) Exactly vm
          rw [bind_assoc]
          refine Correct.bind (apply_correct h hf e) fun b a vm' _ hgoes hruns hab => ?_
          subst hab
          exact hrest _ hgoes hruns
      | @peek consumer f hf =>
          show Correct S (apply consumer e >>= _) ((f e >>= _) >>= _) Exactly vm
          rw [bind_assoc]
          exact Correct.bind (apply_correct h hf e) fun b a vm' _ hgoes hruns _ =>
            hrest e hgoes hruns

end Code

namespace Vm

/-- What the end of a pipeline is in the statement. -/
inductive EndMeans (vm : Vm) : PipelineEnd → ProgramTerminal → Prop where
  | count : EndMeans vm .count .count
  | anyMatch {predicate : ObjectId} {f : Lambda} (h : vm.Computes predicate f.run) :
      EndMeans vm (.anyMatch predicate) (.anyMatch f)
  | findFirst : EndMeans vm .findFirst .findFirst
  | toList : EndMeans vm .toList .toList
  | forEach {consumer : ObjectId} {f : Lambda} (h : vm.Computes consumer f.run) :
      EndMeans vm (.forEach consumer) (.forEach f)

theorem EndMeans.grows {vm vm' : Vm} {ending : PipelineEnd} {t : ProgramTerminal}
    (h : vm.EndMeans ending t) (hg : vm.Grows vm') : vm'.EndMeans ending t := by
  cases h with
  | count => exact .count
  | anyMatch h => exact .anyMatch (h.grows hg)
  | findFirst => exact .findFirst
  | toList => exact .toList
  | forEach h => exact .forEach (h.grows hg)

/-- Making an object of the class of that name, and the value that refers to it. -/
theorem run_allocOf (className : String) (object : HeapObject) (vm : Vm) :
    ∃ tag, (do
      let id ← allocOf className object
      return (← get).valueOf id : StateM Vm Value).run vm =
        (.reference tag (vm.nextId + 1),
          { vm with
            nextId := vm.nextId + 1
            heap := vm.heap.set (vm.nextId + 1) { type := vm.appClass className, object } }) :=
  ⟨_, rfl⟩

theorem allocOf_keeps_value {R : Vm → Vm → Prop} [Upkeep R] (className : String)
    (object : HeapObject) : Keeps R (do
      let id ← allocOf className object
      return (← get).valueOf id : StateM Vm Value) :=
  (allocOf_keeps _ _).bind fun _ => keeps_get.bind fun _ => keeps_pure _

end Vm

namespace Code

open Scene

variable {S : Scene} {α β γ : Type} {vm : Vm}

theorem newOptional_correct (element : ElementType) (content : Option Element) (h : S.Running vm) :
    (newOptional element content).Correct S (.ok (.optional content)) Vm.Shows vm := by
  refine correct_use h (Vm.allocOf_keeps_value _ _) ?_
  obtain ⟨tag, hrun⟩ := Vm.run_allocOf
    (if element = .int then "java.util.OptionalInt" else "java.util.Optional")
    (.optional content) vm
  rw [hrun]
  exact .optional (by simp [Value.objectId?]) (Table.get?_set_self _ _ _)

theorem finish_correct (element : ElementType) (taken : Nat) (kept : List Element)
    {ending : PipelineEnd} {t : ProgramTerminal} (hend : vm.EndMeans ending t) (h : S.Running vm) :
    (finish element taken kept ending).Correct S (.ok (t.finish taken kept)) Vm.Shows vm := by
  cases hend with
  | count => exact correct_pure h (.plain rfl)
  | anyMatch _ => exact correct_pure h (.plain rfl)
  | findFirst => exact newOptional_correct element none h
  | toList =>
      refine correct_use h (Vm.allocOf_keeps_value _ _) ?_
      obtain ⟨tag, hrun⟩ := Vm.run_allocOf "java.util.ArrayList" (.list kept) vm
      rw [hrun]
      exact .list (by simp [Value.objectId?]) (Table.get?_set_self _ _ _)
  | forEach _ => exact correct_pure h (.plain rfl)

/-- The elements of a source, consumed one by one, come to what the terminal call makes of them. -/
theorem drain_correct {vm₀ : Vm} (element : ElementType) {ops : List PipelineStep}
    {ks : List Passage} {ending : PipelineEnd} {t : ProgramTerminal}
    (hops : List.Forall₂ vm₀.StepMeans ops ks) (hend : vm₀.EndMeans ending t)
    (hgrows : vm₀.Grows vm) (h : S.Running vm) (taken : Nat) (kept items : List Element) :
    (drain element ops ending taken kept items).Correct S
      (t.drain (.through ks) taken kept items) Vm.Shows vm := by
  induction items generalizing vm taken kept with
  | nil => exact finish_correct element taken kept (hend.grows hgrows) h
  | cons e rest ih =>
      have hrest : ∀ {vm'} taken kept, S.Progress vm vm' → S.Running vm' →
          (drain element ops ending taken kept rest).Correct S
            (t.drain (.through ks) taken kept rest) Vm.Shows vm' :=
        fun taken kept hgoes hruns => ih (hgrows.trans hgoes.grows) hruns taken kept
      refine Correct.bind (through_correct hops hgrows h e) fun b a vm₁ _ hgoes hruns hab => ?_
      subst hab
      cases a with
      | none => exact hrest taken kept hgoes hruns
      | some e =>
          cases hend.grows (hgrows.trans hgoes.grows) with
          | count => exact hrest (taken + 1) kept hgoes hruns
          | @anyMatch predicate f hf =>
              refine Correct.bind (apply_correct hruns hf e) fun b a vm₂ _ hgoes₂ hruns₂ hab => ?_
              subst hab
              show Correct S (if a.isTrue then _ else _) (if a.isTrue then _ else _) _ vm₂
              cases a.isTrue with
              | true => exact correct_pure hruns₂ (.plain rfl)
              | false => exact hrest taken kept (hgoes.trans hgoes₂) hruns₂
          | findFirst => exact newOptional_correct element (some e) hruns
          | toList => exact hrest taken (kept ++ [e]) hgoes hruns
          | @forEach consumer f hf =>
              exact Correct.bind (apply_correct hruns hf e) fun b a vm₂ _ hgoes₂ hruns₂ _ =>
                hrest taken kept (hgoes.trans hgoes₂) hruns₂

end Code

end StreamTrace
