import StreamTrace.Proofs.Machine.ElementFlow

/-!
# Calls and evaluations

The calls of the statement on one another's values, and its evaluations one after another. A stream
that a call returns may be replaced by one with the same meaning, so what is known of a value is
what it means.
-/

namespace StreamTrace

/-! ## Methods of streams -/

namespace Vm

variable {vm vm' : Vm}

/-- The function that a call of the statement takes. -/
inductive CallFunction (vm : Vm) : CallArgument → Option ObjectId → Prop where
  | none : CallFunction vm .none none
  | null : CallFunction vm .null none
  | lambda {id : ObjectId} {f : Lambda} (h : vm.Computes id f.run) :
      CallFunction vm (.lambda f) (some id)

theorem CallFunction.grows {a : CallArgument} {function : Option ObjectId}
    (h : vm.CallFunction a function)
    (hg : vm.Grows vm') : vm'.CallFunction a function := by
  cases h with
  | none => exact .none
  | null => exact .null
  | lambda h => exact .lambda (h.grows hg)

/-- A stream made out of another one. -/
theorem derived_carries {receiver : ObjectId} {m : StreamMeaning} (h : vm.Tidy)
    (hm : vm.StreamMeans receiver m) (element : ElementType) {op : StreamOp} {k : Passage}
    (hop : vm.OperationMeans op receiver k) :
    let r := (allocValue m.type (.stream element op)).run vm
    r.2.Carries r.1 (m.behind k) := by
  obtain ⟨tag, hrun⟩ := run_allocValue m.type (.stream element op) vm
  obtain ⟨_, _, hlookup⟩ := hm.lookup
  show Vm.Carries _ _ _
  rw [hrun]
  have hg := grows_alloc h { type := m.type, object := .stream element op }
  exact ⟨vm.nextId + 1, by simp [Value.objectId?], .step (Table.get?_set_self _ _ _)
    (hop.grows hg) (Nat.lt_succ_of_le (h.objects hlookup)) (hm.grows hg)⟩

end Vm

namespace Code

open Scene

variable {S : Scene} {α β γ : Type} {vm : Vm}

/-- The meaning of a stream against the value that carries it. -/
abbrev Carried (vm : Vm) (m : StreamMeaning) (v : Value) : Prop := vm.Carries v m

theorem derive_correct {receiver : ObjectId} {m : StreamMeaning} (h : S.Running vm)
    (hm : vm.StreamMeans receiver m) (element : ElementType) {op : StreamOp} {k : Passage}
    (hop : vm.OperationMeans op receiver k) :
    (derive m.type element op).Correct S (.ok (m.behind k)) Carried vm :=
  correct_use h (Vm.allocValue_keeps _ _) (Vm.derived_carries h.tidy hm element hop)

theorem methodBody_of_stream {receiver : ObjectId} {type : TypeId} {element : ElementType}
    {op : StreamOp} (he : vm.lookup? receiver = some { type, object := .stream element op })
    (name : String) (args : List Value) :
    (methodBody receiver name args).run vm =
      (if takesFunction name then
        match (args.head?.bind Value.objectId?).bind fun f => stepOf? receiver f name with
        | some op => derive type element op
        | none => raise nullPointerException
      else if name = "parallel" ∨ name = "sequential" then derive type element (.pass receiver)
      else do
        let ending ← pipelineEndOf name (args.head?.bind Value.objectId?)
        let (items, ops) ← read (·.pipeline receiver)
        drain element ops ending 0 [] items : Code Value).run vm := by
  have hread (f : Option TypedObject → Code Value) :
      (read (·.lookup? receiver) >>= f).run vm =
        (f (some { type, object := .stream element op })).run vm :=
    congrArg (fun found => (f found).run vm) he
  exact hread _

/-- The body of an intermediate call makes the stream behind the stage. -/
theorem stage_correct (s : ProgramStage) {receiver : ObjectId} {m : StreamMeaning}
    {args : List Value} (h : S.Running vm) (hm : vm.StreamMeans receiver m)
    (hargs : vm.CallFunction s.argument (args.head?.bind Value.objectId?)) :
    (methodBody receiver s.name args).Correct S (s.passage.map m.behind) Carried vm := by
  obtain ⟨element, op, he⟩ := hm.lookup
  unfold Correct
  rw [methodBody_of_stream he]
  generalize args.head?.bind Value.objectId? = function at hargs
  cases s with
  | filter f =>
      cases hargs with
      | lambda hf => exact derive_correct h hm element (.filter hf)
  | map f =>
      cases hargs with
      | lambda hf => exact derive_correct h hm element (.map hf)
  | mapNull =>
      cases hargs
      exact raise_correct nullPointerException h
  | peek f =>
      cases hargs with
      | lambda hf => exact derive_correct h hm element (.peek hf)
  | parallel => exact derive_correct h hm element .pass

/-- The body of the terminal call consumes the stream. -/
theorem terminal_correct (t : ProgramTerminal) {receiver : ObjectId} {m : StreamMeaning}
    {args : List Value} (h : S.Running vm) (hm : vm.StreamMeans receiver m)
    (hargs : vm.CallFunction t.argument (args.head?.bind Value.objectId?)) :
    (methodBody receiver t.name args).Correct S (t.drain m.run 0 [] m.items) Vm.Shows vm := by
  obtain ⟨element, op, he⟩ := hm.lookup
  obtain ⟨ops, ks, hpipeline, hsteps, hrun⟩ := hm.pipeline
  unfold Correct
  rw [methodBody_of_stream he]
  generalize args.head?.bind Value.objectId? = function at hargs
  have hdrain : ∀ {ending}, vm.EndMeans ending t →
      (do
        let (items, ops) ← read (·.pipeline receiver)
        drain element ops ending 0 [] items : Code Value).Correct S
        (t.drain m.run 0 [] m.items) Vm.Shows vm := by
    intro ending hend
    refine correct_read_bind ?_
    rw [hpipeline, hrun]
    exact drain_correct element hsteps hend (.refl vm) h 0 [] m.items
  cases t with
  | count => exact hdrain .count
  | anyMatch f =>
      cases hargs with
      | lambda hf => exact hdrain (.anyMatch hf)
  | findFirst => exact hdrain .findFirst
  | toList => exact hdrain .toList
  | forEach f =>
      cases hargs with
      | lambda hf => exact hdrain (.forEach hf)

/-- A collection that is asked for its stream. -/
theorem stream_correct {vm₀ : Vm} {receiver : ObjectId} {type pipeline : TypeId}
    {items : List Element} {args : List Value} (h : S.Running vm) (hgrows : vm₀.Grows vm)
    (he : vm.lookup? receiver = some { type, object := .list items })
    (hp : vm₀.classes.named? "java.util.stream.ReferencePipeline" vm₀.appLoader = some pipeline) :
    (methodBody receiver "stream" args).Correct S
      (.ok { type := pipeline, items, run := .all }) Carried vm := by
  have hclass : vm.appClass "java.util.stream.ReferencePipeline" = pipeline := by
    simp [Vm.appClass, hgrows.appLoader, hgrows.named hp]
  refine correct_read_bind ?_
  rw [he]
  refine correct_read_bind ?_
  rw [hclass]
  refine correct_use h (Vm.allocValue_keeps _ _) ?_
  obtain ⟨tag, hrun⟩ := Vm.run_allocValue pipeline (.stream .object (.source items)) vm
  rw [hrun]
  exact ⟨vm.nextId + 1, by simp [Value.objectId?], .source (Table.get?_set_self _ _ _)⟩

end Code

/-! ## Calls -/

namespace Vm

variable {vm vm' : Vm}

/-- The call hands the function over in its first argument. -/
inductive PassesFunction (vm : Vm) (c : ProgramCall) : CallArgument → Prop where
  | none (h : c.args = []) : PassesFunction vm c .none
  | null (h : c.args = [.null]) : PassesFunction vm c .null
  | lambda {v : Value} {id : ObjectId} {f : Lambda} (h : c.args = [v])
      (hid : v.objectId? = some id) (hf : vm.IsLambda id f) (hslot : frameSlots c.descriptor ≠ []) :
      PassesFunction vm c (.lambda f)

theorem PassesFunction.grows {c : ProgramCall} {a : CallArgument} (h : vm.PassesFunction c a)
    (hg : vm.Grows vm') : vm'.PassesFunction c a := by
  cases h with
  | none h => exact .none h
  | null h => exact .null h
  | lambda h hid hf hslot => exact .lambda h hid (hf.grows hg) hslot

/-- However the machine grows, the method is found where it is found now, if at all, and the
debugger finds no variables in it. -/
structure Dispatches (vm : Vm) (type : TypeId) (name descriptor : String)
    (found : Option (TypeId × MethodId)) : Prop where
  dispatch : ∀ {vm'}, vm.Grows vm' → vm'.classes.dispatch type name descriptor = found
  hides : ∀ {t code}, found = some (t, code) → vm.HidesMethod t code

end Vm

namespace Code

open Scene

variable {S : Scene} {α β γ : Type} {vm : Vm}

/-- The first slot of an argument is not that of the receiver. -/
theorem currentArguments_callFunction {c : ProgramCall} {a : CallArgument} {receiver : Value}
    {f : Frame}
    (hsupplies : vm.PassesFunction c a) (hf : vm.frames.head? = some f)
    (hentered : Entered ⟨(0, receiver) :: (frameSlots c.descriptor).zip c.args⟩ vm f) :
    vm.CallFunction a ((currentArguments c.descriptor c.args vm).head?.bind Value.objectId?) := by
  unfold currentArguments
  rw [hf]
  have hslots : frameSlots c.descriptor = [] ∨ ∃ rest, frameSlots c.descriptor = 1 :: rest := by
    unfold frameSlots
    cases parameterLetters c.descriptor with
    | nil => exact .inl rfl
    | cons t rest => exact .inr ⟨_, rfl⟩
  cases hsupplies with
  | none h =>
      rw [h]
      simp only [List.zip_nil_right, List.map_nil]
      exact .none
  | null h =>
      rw [h] at hentered ⊢
      rcases hslots with hslots | ⟨rest, hslots⟩
      · rw [hslots]
        exact .null
      · rw [hslots] at hentered ⊢
        have hnull : ∀ o, (f.slots.get? 1 = o) → (o.getD .null).objectId? = .none := by
          rintro o rfl
          rcases hentered 1 with hsame | ⟨v, v', hv, -, hwrapped⟩
          · rw [hsame]
            rfl
          · obtain rfl : Value.null = v := Option.some.inj hv
            obtain ⟨_, _, _, _, _, _, -, -, hnone⟩ := hwrapped
            cases hnone
        simp [hnull _ rfl]
        exact .null
  | @lambda v id g h hid hg hslot =>
      rw [h] at hentered ⊢
      rcases hslots with hslots | ⟨rest, hslots⟩
      · exact absurd hslots hslot
      · rw [hslots] at hentered ⊢
        rcases hentered 1 with hsame | ⟨v₀, v', hv, hv', hwrapped⟩
        · have hv : f.slots.get? 1 = some v := hsame
          simp [hv, hid]
          exact .lambda (.lambda hg)
        · obtain rfl : v = v₀ := Option.some.inj hv
          obtain ⟨id', type, before, after, time, predicate, hid', he, hpredicate⟩ := hwrapped
          obtain rfl := Option.some.inj (hid.symm.trans hpredicate)
          simp [hv', hid']
          exact .lambda (.matcher he hg)

/-- Values that a call may return: they are settled, and may be replaced by what is alike. -/
structure Returns (rel : Vm → β → Value → Prop) : Prop where
  grows : ∀ {vm vm' b v}, vm.Grows vm' → rel vm b v → rel vm' b v
  settled : ∀ {vm b v}, rel vm b v → vm.Settled v
  alike : ∀ {vm b v v'}, rel vm b v → vm.Alike (some v) (some v') → rel vm b v'

theorem carried_returns : Returns Carried where
  grows hg h := h.grows hg
  settled h := .stream h
  alike h halike := by
    rcases halike with hsame | ⟨_, _, m, hv, hv', hm, hm'⟩
    · cases hsame
      exact h
    · cases hv
      cases hv'
      rw [h.unique hm]
      exact hm'

theorem shows_returns : Returns Vm.Shows where
  grows hg h := h.grows hg
  settled h := h.settled
  alike h halike := by
    rcases halike with hsame | ⟨_, _, m, hv, _, hm, _⟩
    · cases hsame
      exact h
    · cases hv
      exact absurd hm h.not_carries

/-- At its exit a call may be made to return another value, which is alike. -/
theorem exit_correct {rel : Vm → β → Value → Prop} (hrel : Returns rel) {b : β} {v : Value}
    (h : S.Running vm) (hv : rel vm b v) :
    (do
      stop (Vm.exitEvent v)
      use (takeForced v) : Code Value).Correct S (.ok b) rel vm := by
  have hstop := stop_run h (Vm.exitEvent_keeps v)
    (fun request thread l v' he => by
      obtain ⟨_, _, he'⟩ := Vm.eventFor_event he
      cases he'
      exact hrel.settled hv)
    fun request thread l he => by
      obtain ⟨_, _, he'⟩ := Vm.eventFor_event he
      cases he'
  refine Run.Correct.bind hstop ?_
  rintro r vm₁ ⟨rfl, hpassed⟩
  let vm₂ : Vm := { vm₁ with forcedReturn := none }
  have hgoes : S.Progress vm₁ vm₂ := ⟨.of_eq rfl rfl rfl rfl, .refl vm₂ _, rfl, rfl⟩
  have hruns : S.Running vm₂ :=
    ⟨hpassed.toSteady.progress hgoes (hpassed.tidy.of_eq rfl rfl rfl), rfl, hpassed.dead,
      hpassed.outbox⟩
  have hv₁ := hrel.grows hpassed.grows hv
  refine ⟨⟨hgoes.grows, rfl⟩, hpassed.toProgress.trans hgoes, hruns, ?_⟩
  show rel vm₂ b (vm₁.forcedReturn.getD v)
  cases hforced : vm₁.forcedReturn with
  | none => exact hrel.grows hgoes.grows hv₁
  | some v' =>
      obtain ⟨_, _, _, v₀, he, halike⟩ := hpassed.forced v' hforced
      obtain ⟨_, _, he'⟩ := Vm.eventFor_event he
      cases he'
      exact hrel.grows hgoes.grows (hrel.alike hv₁ halike)

/-- A call comes to what its body comes to, if its method is found. -/
theorem call_correct {rel : Vm → β → Value → Prop} (hrel : Returns rel) {x : Fate β}
    {receiver : Value} {id : ObjectId} {e : TypedObject} {c : ProgramCall} {a : CallArgument}
    {found : Option (TypeId × MethodId)} (h : S.Running vm) (hid : receiver.objectId? = some id)
    (he : vm.lookup? id = some e) (hd : S.base.Dispatches e.type c.name c.descriptor found)
    (hsupplies : vm.PassesFunction c a)
    (hbody : ∀ vm' args, vm.Grows vm' → S.Running vm' →
      vm'.CallFunction a (args.head?.bind Value.objectId?) →
      (methodBody id c.name args).Correct S x rel vm') :
    (call receiver c).Correct S (if found.isSome then x else .error .thrown) rel vm := by
  unfold call
  rw [hid]
  refine correct_read_bind ?_
  rw [he, Option.bind_some, hd.dispatch h.grown]
  cases found with
  | none => exact raise_correct illegalStateException h
  | some code =>
      obtain ⟨t, method⟩ := code
      refine Correct.returned ?_ hrel.grows
      refine inFrame_correct h ((hd.hides rfl).grows h.grown) hrel.grows ?_
      intro vm' f hgrows hruns hf hentered
      refine correct_read_bind ?_
      show Correct S _ x rel vm'
      rw [← bind_pure x]
      refine Correct.bind (y := pure) (hbody vm' _ hgrows hruns
        (currentArguments_callFunction (hsupplies.grows hgrows) hf hentered)) ?_
      intro b v vm'' _ _ hruns' hv
      exact exit_correct hrel hruns' hv

end Code

/-! ## The statement -/

namespace Vm

variable {vm vm' : Vm}

/-- The call as the statement has it. -/
structure IsCall (vm : Vm) (element : ElementType) (c : ProgramCall) (name : String)
    (a : CallArgument) : Prop where
  called : c.name = name
  descriptor : c.descriptor = StreamProgram.descriptor element name
  passesFunction : vm.PassesFunction c a

/-- The methods of the calls on streams of this type. -/
structure FindsCalls (vm : Vm) (element : ElementType) (type : TypeId)
    (found : String → Option (TypeId × MethodId)) : Prop where
  stages : ∀ s : ProgramStage,
    vm.Dispatches type s.name (StreamProgram.descriptor element s.name) (found s.name)
  terminals : ∀ t : ProgramTerminal,
    vm.Dispatches type t.name (StreamProgram.descriptor element t.name) (found t.name)

/-- These are the calls of the program's statement. -/
inductive Calls (vm : Vm) (p : StreamProgram) : List ProgramCall → Prop where
  | mk {cs : List ProgramCall} {c : ProgramCall}
      (stages : List.Forall₂ (fun c (s : ProgramStage) => vm.IsCall p.element c s.name s.argument)
        cs p.stages)
      (terminal : vm.IsCall p.element c p.terminal.name p.terminal.argument) :
      Calls vm p (cs ++ [c])

end Vm

namespace Scene

/-- Where the statement finds the stream that stands for `m`. -/
inductive Source (S : Scene) (m : StreamMeaning) (vm : Vm) : CallTarget → Prop where
  | slot {f : Frame} {slot : Nat} {v : Value} (hf : vm.frames.head? = some f)
      (hid : f.id = S.frame) (hv : f.slots.get? slot = some v) (hm : vm.Carries v m) :
      Source S m vm (.slot slot)
  | collection {v : Value} {id : ObjectId} {type pipeline : TypeId} {items : List Element}
      {code : TypeId × MethodId} (hid : v.objectId? = some id)
      (he : vm.lookup? id = some { type, object := .list items })
      (hd : S.base.Dispatches type "stream" "()Ljava/util/stream/Stream;" (some code))
      (hp : S.base.classes.named? "java.util.stream.ReferencePipeline" S.base.appLoader =
        some pipeline) (hm : m = { type := pipeline, items, run := .all }) :
      Source S m vm (.collection v)

theorem Source.progress {S : Scene} {m : StreamMeaning} {vm vm' : Vm} {r : CallTarget}
    (h : S.Source m vm r) (hgoes : S.Progress vm vm') : S.Source m vm' r := by
  cases h with
  | @slot f slot v hf hid hv hm =>
      obtain ⟨f', hf', hkept⟩ := hgoes.frames.head hf
      have halike := hkept.slots hid slot
      rw [hv] at halike
      obtain ⟨v', hv', hm'⟩ := halike.carries (hm.grows hgoes.grows)
      exact .slot hf' (hkept.id.trans hid) hv' hm'
  | collection hid he hd hp hm => exact .collection hid (hgoes.grows.objects he rfl) hd hp hm

end Scene

end StreamTrace
