import StreamTrace.Proofs.Machine.MethodDispatch

/-!
# Evaluating the statement over and over

A statement comes to `StreamProgram.value` however often its thread is stopped on the way and
whatever is done to the machine there, within what `Handed` allows. `Run.Repeats` says so of all
its evaluations: wherever the thread stands, those that are over have ended as they were to end,
and so will those to come.
-/

namespace StreamTrace

open Code Scene

/-! ## One evaluation -/

namespace Vm

variable {vm vm' : Vm}

theorem IsCall.grows {element : ElementType} {c : ProgramCall} {name : String} {a : CallArgument}
    (h : vm.IsCall element c name a) (hg : vm.Grows vm') : vm'.IsCall element c name a :=
  ⟨h.called, h.descriptor, h.passesFunction.grows hg⟩

theorem Calls.grows {p : StreamProgram} {cs : List ProgramCall} (h : vm.Calls p cs)
    (hg : vm.Grows vm') : vm'.Calls p cs := by
  cases h with
  | mk stages terminal =>
      exact .mk (List.Forall₂.imp (fun _ _ hc => hc.grows hg) stages) (terminal.grows hg)

end Vm

/-- The value of a chain that begins with a stage. -/
theorem StreamProgram.value_cons (p : StreamProgram) (found : String → Bool) (s : ProgramStage)
    (rest : List ProgramStage) (m : StreamMeaning) :
    ({ p with stages := s :: rest } : StreamProgram).value found (.ok m) =
      ((if found s.name then s.passage.map m.behind else .error .thrown) >>= fun m =>
        ({ p with stages := rest } : StreamProgram).value found (.ok m)) := by
  show (through found (s :: rest) m >>= _) = _
  rw [through]
  cases found s.name with
  | false => rfl
  | true => cases s.passage <;> rfl

namespace Code

variable {S : Scene} {vm : Vm} {element : ElementType} {m : StreamMeaning}
  {found : String → Option (TypeId × MethodId)}

/-- A call of the chain on a stream comes to what its body comes to, if its method is found. -/
theorem callOn_correct {β : Type} {rel : Vm → β → Value → Prop} (hrel : Returns rel) {x : Fate β}
    {v : Value} {c : ProgramCall} {name : String} {a : CallArgument} (h : S.Running vm)
    (hm : vm.Carries v m) (hc : vm.IsCall element c name a)
    (hd : S.base.Dispatches m.type name (StreamProgram.descriptor element name) (found name))
    (hbody : ∀ vm' id args, vm'.StreamMeans id m → S.Running vm' →
      vm'.CallFunction a (args.head?.bind Value.objectId?) →
        (methodBody id name args).Correct S x rel vm') :
    (call v c).Correct S (if (found name).isSome then x else .error .thrown) rel vm := by
  obtain ⟨id, hid, hstream⟩ := hm
  obtain ⟨_, _, he⟩ := hstream.lookup
  refine call_correct hrel h hid he ?_ hc.passesFunction fun vm' args hgrows hruns htakes => ?_
  · rw [hc.called, hc.descriptor]
    exact hd
  · rw [hc.called]
    exact hbody vm' id args (hstream.grows hgrows) hruns htakes

theorem Correct.alone {α β : Type} {c : Code α} {x : Fate β} {rel : Vm → β → α → Prop}
    (h : c.Correct S x rel vm) : (c >>= pure).Correct S x rel vm := by
  rw [← bind_pure x]
  exact Correct.bind h fun _ _ _ _ _ hruns hrel => correct_pure hruns hrel

/-- The calls of a chain, made on the stream that stands for `m`. -/
theorem callAll_correct (p : StreamProgram) {vm₀ : Vm} {cs : List ProgramCall}
    {stages : List ProgramStage} {c : ProgramCall} {v : Value} (h : S.Running vm)
    (hm : vm.Carries v m) (hfinds : S.base.FindsCalls p.element m.type found)
    (hstages : List.Forall₂ (fun c (s : ProgramStage) => vm₀.IsCall p.element c s.name s.argument)
      cs stages) (hterminal : vm₀.IsCall p.element c p.terminal.name p.terminal.argument)
    (hgrows : vm₀.Grows vm) :
    (callAll (cs ++ [c]) v).Correct S
      (({ p with stages } : StreamProgram).value (fun name => (found name).isSome) (.ok m))
      Vm.Shows vm := by
  induction hstages generalizing vm m v with
  | nil =>
      exact (callOn_correct shows_returns h hm (hterminal.grows hgrows)
        (hfinds.terminals p.terminal) fun vm' id args hstream hruns htakes =>
          terminal_correct p.terminal hruns hstream htakes).alone
  | @cons c' s cs stages hc hrest ih =>
      have hcall := callOn_correct carried_returns h hm (hc.grows hgrows) (hfinds.stages s)
        fun vm' id args hstream hruns htakes => stage_correct s hruns hstream htakes
      rw [StreamProgram.value_cons]
      refine Correct.bind hcall fun m' v' vm' hm' hgoes hruns hcarries => ?_
      have htype : m'.type = m.type := by
        cases hfound : (found s.name).isSome with
        | false => simp [hfound] at hm'
        | true =>
            rw [hfound, if_pos rfl] at hm'
            cases hpassage : s.passage with
            | error i => simp [hpassage, Except.map] at hm'
            | ok k =>
                rw [hpassage] at hm'
                obtain rfl := Except.ok.inj hm'
                rfl
      exact ih hruns hcarries (htype ▸ hfinds) (hgrows.trans hgoes.grows)

/-- The statement comes to the value of the program. -/
theorem evaluate_correct {s : Repetition} {p : StreamProgram} (h : S.Running vm)
    (hcalls : vm.Calls p s.calls) (hsource : S.Source m vm s.receiver)
    (hfinds : S.base.FindsCalls p.element m.type found) :
    (evaluate s).Correct S (p.value (fun name => (found name).isSome) (.ok m)) Vm.Shows vm := by
  unfold evaluate
  generalize s.receiver = receiver at hsource
  generalize s.calls = calls at hcalls
  cases hcalls with
  | mk hstages hterminal =>
      cases hsource with
      | @slot f slot v hf hid hv hm =>
          have hread : (vm.frames.head?.bind (·.slots.get? slot)).getD .null = v := by
            rw [hf, Option.bind_some, hv]
            rfl
          refine correct_read_bind ?_
          rw [hread]
          exact callAll_correct p h hm hfinds hstages hterminal (.refl vm)
      | @collection v id type pipeline items code hid he hd hp hm =>
          subst hm
          let c : ProgramCall :=
            { name := "stream", descriptor := "()Ljava/util/stream/Stream;", args := [] }
          have hstream : (call v c).Correct S
              (if (some code).isSome then .ok { type := pipeline, items, run := .all }
                else .error .thrown) Carried vm :=
            call_correct carried_returns h hid he hd (.none rfl) fun vm' args hgrows hruns _ =>
              stream_correct hruns hruns.grown (hgrows.objects he rfl) hp
          refine Correct.andThen hstream fun v' vm' hgoes hruns hcarries => ?_
          exact callAll_correct p hruns hcarries hfinds hstages hterminal hgoes.grows

end Code

/-! ## All evaluations -/

/-- How so many evaluations end that each come to the same, unless they end the machine. -/
def outcomes (value : Fate Shown) : (runs : Nat) → List (Fate Shown)
  | 0 => []
  | runs + 1 =>
    match value with
    | .error .exited => [value]
    | _ => value :: outcomes value runs

namespace Vm

variable {vm vm' : Vm}

/-- An evaluation has ended as it was to end. -/
def Ended (vm : Vm) : Fate Shown → Except Interruption Value → Prop
  | .ok s, .ok v => vm.Shows s v
  | .error i, .error j => j = i
  | _, _ => False

theorem Ended.grows {x : Fate Shown} {r : Except Interruption Value} (h : vm.Ended x r)
    (hg : vm.Grows vm') : vm'.Ended x r := by
  cases x <;> cases r
  · exact h
  · exact h
  · exact h
  · exact Shows.grows h hg

/-- What the evaluations so far have come to, one after another. -/
structure Noted (vm : Vm) (done : List (Fate Shown)) : Prop where
  evaluations : List.Forall₂ vm.Ended done vm.evaluations
  programResult : vm.programResult = (vm.evaluations.filterMap Except.toOption).getLast?

theorem Noted.grows {done : List (Fate Shown)} (h : vm.Noted done) (hg : vm.Grows vm')
    (hevaluations : vm'.evaluations = vm.evaluations)
    (hresult : vm'.programResult = vm.programResult) : vm'.Noted done := by
  refine ⟨?_, ?_⟩
  · rw [hevaluations]
    exact List.Forall₂.imp (fun _ _ hended => hended.grows hg) h.evaluations
  · rw [hresult, hevaluations]
    exact h.programResult

theorem grows_noteEvaluation (vm : Vm) (r : Except Interruption Value) :
    vm.Grows (vm.noteEvaluation r) := .of_eq rfl rfl rfl rfl

theorem Noted.note {done : List (Fate Shown)} {x : Fate Shown} {r : Except Interruption Value}
    (h : vm.Noted done) (hended : vm.Ended x r) : (vm.noteEvaluation r).Noted (done ++ [x]) := by
  have hgrows := vm.grows_noteEvaluation r
  refine ⟨?_, ?_⟩
  · exact List.rel_append (List.Forall₂.imp (fun _ _ h => h.grows hgrows) h.evaluations)
      (.cons (hended.grows hgrows) .nil)
  · show r.toOption.or vm.programResult =
      ((vm.evaluations ++ [r]).filterMap Except.toOption).getLast?
    rw [h.programResult, List.filterMap_append]
    cases r with
    | error i => simp [Except.toOption]
    | ok v => simp [Except.toOption]

end Vm

namespace Scene

variable {S : Scene} {vm vm' : Vm} {done : List (Fate Shown)}

/-- The same statement, once these evaluations are over. -/
def noting (S : Scene) (done : List (Fate Shown)) : Scene where
  frame := S.frame
  base := S.base
  fresh := S.fresh
  notes vm := vm.Noted done
  stable hg hevaluations hresult h := h.grows hg hevaluations hresult

theorem source_noting {m : StreamMeaning} {r : CallTarget} :
    (S.noting done).Source m vm r ↔ S.Source m vm r := by
  constructor <;> intro h <;> cases h
  · exact .slot ‹_› ‹_› ‹_› ‹_›
  · exact .collection ‹_› ‹_› ‹_› ‹_› ‹_›
  · exact .slot ‹_› ‹_› ‹_› ‹_›
  · exact .collection ‹_› ‹_› ‹_› ‹_› ‹_›

theorem Source.note {m : StreamMeaning} {target : CallTarget} (h : S.Source m vm target)
    (r : Except Interruption Value) : S.Source m (vm.noteEvaluation r) target := by
  cases h with
  | slot hf hid hv hm => exact .slot hf hid hv (hm.grows (vm.grows_noteEvaluation r))
  | collection hid he hd hp hm => exact .collection hid he hd hp hm

/-- An evaluation is over. -/
theorem Steady.note (h : (S.noting done).Steady vm) {x : Fate Shown}
    {r : Except Interruption Value} (hended : vm.Ended x r) :
    (S.noting (done ++ [x])).Steady (vm.noteEvaluation r) := by
  have hgrows := vm.grows_noteEvaluation r
  exact ⟨h.tidy.of_eq rfl rfl rfl, h.grown.trans hgrows,
    fun f hf hid slot v hv => (h.settled f hf hid slot v hv).grows hgrows,
    fun f hf hid => (h.hidden f hf hid).grows hgrows, h.notes.note hended⟩

/-- Where nothing was raised, the machine is handed back to a thread that may run. -/
theorem Handed.running (h : S.Handed vm vm') (hruns : S.Running vm) : S.Running vm' := by
  refine ⟨hruns.toSteady.progress h.toProgress h.tidy, ?_, h.dead.trans hruns.dead, h.outbox⟩
  cases hforced : vm'.forcedReturn with
  | none => rfl
  | some v =>
      obtain ⟨_, _, _, _, hmem, -⟩ := h.forced v hforced
      rw [hruns.outbox] at hmem
      cases hmem

end Scene

/-- Wherever the thread stands, the evaluations that are over have ended as they were to end, and
however the machine is handed back, so will all. `since` is the machine when the thread was
resumed last; one that was not suspended then stops at events only. -/
def Run.Repeats (S : Scene) (final : List (Fate Shown)) : Run Unit → (since : Vm) → Prop
  | .ended () vm, since =>
    since.Grows vm ∧ vm.Tidy ∧ vm.Noted final ∧ (vm.dead = true ↔ .error .exited ∈ final)
  | .waiting vm resume, since => since.Grows vm ∧ (since.suspended = false → vm.outbox ≠ []) ∧
      ∃ done, done <+: final ∧ .error .exited ∉ done ∧ (S.noting done).Stopped vm ∧
        ∀ vm', (S.noting done).Handed vm vm' → (resume vm').Repeats S final vm'

namespace Run

variable {S : Scene} {final done : List (Fate Shown)} {vm vm' : Vm}

theorem Repeats.since {r : Run Unit} (h : r.Repeats S final vm') (hsince : vm.Unstopped vm') :
    r.Repeats S final vm := by
  cases r with
  | ended a vm'' => exact ⟨hsince.grows.trans h.1, h.2⟩
  | waiting vm'' resume =>
      exact ⟨hsince.grows.trans h.1, fun hfree => h.2.1 (hsince.suspended.trans hfree), h.2.2⟩

theorem Correct.repeats {α : Type} {post : α → Vm → Prop} {r : Run α} {f : α → Vm → Run Unit}
    (h : r.Correct (S.noting done) post vm) (hdone : done <+: final)
    (halive : .error .exited ∉ done)
    (hf : ∀ a vm', post a vm' → (f a vm').Repeats S final vm') :
    (r.bind f).Repeats S final vm := by
  induction r generalizing vm with
  | ended a vm' => exact (hf a vm' h.2).since h.1
  | waiting vm' resume ih =>
      obtain ⟨⟨hgrows, houtbox, hstops⟩, hback⟩ := h
      exact ⟨hgrows, fun _ => houtbox, done, hdone, halive, hstops,
        fun vm'' hvm => ih vm'' (hback vm'' hvm)⟩

end Run

/-- In front of an evaluation the thread waits until it is resumed. -/
theorem Code.awaitResume_repeats {S : Scene} {final done : List (Fate Shown)} {vm : Vm}
    {f : Except Interruption Unit → Vm → Run Unit} (h : (S.noting done).Running vm)
    (hdone : done <+: final) (halive : .error .exited ∉ done)
    (hf : ∀ vm', vm.Grows vm' → (S.noting done).Progress vm vm' → (S.noting done).Running vm' →
      (f (.ok ()) vm').Repeats S final vm') :
    ((awaitResume vm).bind f).Repeats S final vm := by
  have hlives : ¬vm.dead = true := by simp [h.dead]
  by_cases hsuspended : vm.suspended = true
  · rw [awaitResume_of_suspended hlives hsuspended]
    refine ⟨.refl vm, fun hfree => ?_, done, hdone, halive, ?_, fun vm' hback => ?_⟩
    · rw [hsuspended] at hfree
      cases hfree
    · refine ⟨h.toSteady, h.forced, h.dead, fun request thread l v hmem => ?_,
        fun request thread l hmem => ?_⟩ <;>
      · rw [h.outbox] at hmem
        cases hmem
    · have hruns := hback.running h
      show (f (if vm'.dead = true then .error .exited else .ok ()) vm').Repeats S final vm'
      rw [if_neg (by simp [hruns.dead])]
      exact hf vm' hback.grows hback.toProgress hruns
  · have hrun : awaitResume vm = .ended (.ok ()) vm := by
      unfold awaitResume
      rw [if_neg hlives, if_pos hsuspended]
    rw [hrun]
    exact hf vm (.refl vm) (.refl vm) h

namespace Repetition

variable {S : Scene} {final : List (Fate Shown)} {vm : Vm} {p : StreamProgram} {m : StreamMeaning}
  {found : String → Option (TypeId × MethodId)}

/-- All evaluations that are left come to the value of the program. -/
theorem loop_repeats {s : Repetition} {value : Fate Shown}
    (hvalue : p.value (fun name => (found name).isSome) (.ok m) = value)
    (hfinds : S.base.FindsCalls p.element m.type found) {runs : Nat} {done : List (Fate Shown)}
    (h : (S.noting done).Running vm) (hcalls : vm.Calls p s.calls)
    (hsource : S.Source m vm s.receiver)
    (hfinal : final = done ++ outcomes value runs) (halive : .error .exited ∉ done) :
    (s.loop runs vm).Repeats S final vm := by
  -- By the evaluations that are left. Those that are done stand in the scene as its notes.
  induction runs generalizing vm done with
  | zero =>
      rw [outcomes, List.append_nil] at hfinal
      subst hfinal
      refine ⟨.refl vm, h.tidy, h.notes, ?_⟩
      simp [h.dead, halive]
  | succ runs ih =>
      have hdone : done <+: final := ⟨_, hfinal.symm⟩
      refine Code.awaitResume_repeats h hdone halive fun vm₁ _ hgoes₁ hruns₁ => ?_
      have hsource₁ := (source_noting.mpr hsource).progress hgoes₁
      have hgives : (evaluate s).Correct (S.noting done)
          (p.value (fun name => (found name).isSome) (.ok m)) Vm.Shows vm₁ :=
        evaluate_correct hruns₁ (hcalls.grows hgoes₁.grows) hsource₁ hfinds
      rw [hvalue] at hgives
      refine Run.Correct.repeats hgives hdone halive fun r vm₂ ⟨hgoes₂, hends⟩ => ?_
      let vm₃ := vm₂.noteEvaluation r
      have hsince : vm₂.Unstopped vm₃ := ⟨vm₂.grows_noteEvaluation r, rfl⟩
      have hcalls₃ := hcalls.grows ((hgoes₁.trans hgoes₂).grows.trans hsince.grows)
      have hsource₃ := (source_noting.mp (hsource₁.progress hgoes₂)).note r
      -- Unless the machine has exited, the next evaluation finds everything as this one did.
      have hrest : ∀ {vm' : Vm}, (S.noting (done ++ [value])).Running vm' →
          (S.noting (done ++ [value])).Progress vm₃ vm' → value ≠ .error .exited →
            (s.loop runs vm').Repeats S final vm' := by
        intro vm' hruns hgoes hstays
        refine ih hruns (hcalls₃.grows hgoes.grows)
          (source_noting.mp ((source_noting.mpr hsource₃).progress hgoes)) ?_ ?_
        · rw [hfinal, List.append_assoc]
          cases value with
          | ok shown => rfl
          | error i =>
              cases i with
              | thrown => rfl
              | exited => exact absurd rfl hstays
        · simp [halive, hstays.symm]
      refine Run.Repeats.since ?_ hsince
      cases r with
      | ok v =>
          cases value with
          | error i => cases i <;> exact hends.elim
          | ok shown =>
              obtain ⟨hruns₂, hshows⟩ := hends
              have hended : vm₂.Ended (.ok shown) (.ok v) := hshows
              exact hrest ⟨hruns₂.toSteady.note hended, hruns₂.forced, hruns₂.dead, hruns₂.outbox⟩
                (.refl vm₃) (by simp)
      | error i =>
          cases value with
          | ok shown => cases i <;> exact hends.elim
          | error j =>
              have hij : i = j := by cases i <;> cases j <;> first | rfl | exact hends.elim
              subst hij
              have hended : vm₂.Ended (.error i) (.error i) := rfl
              cases i with
              | exited =>
                  obtain ⟨hsteady, -, hdead⟩ := hends
                  have hlast : final = done ++ [.error .exited] := hfinal
                  rw [hlast]
                  have hsteady₃ := hsteady.note hended
                  refine ⟨.refl vm₃, hsteady₃.tidy, hsteady₃.notes, ?_⟩
                  show vm₂.dead = true ↔ _
                  simp [hdead]
              | thrown =>
                  have hruns₃ : (S.noting (done ++ [.error .thrown])).Running vm₃ :=
                    ⟨hends.toSteady.note hended, hends.forced, hends.dead, hends.outbox⟩
                  have hdone₃ : done ++ [.error .thrown] <+: final :=
                    ⟨_, by rw [hfinal, List.append_assoc]; rfl⟩
                  show (Run.bind ((stop (Vm.stepEvent .returned)).run vm₃) _).Repeats S final vm₃
                  have halive₃ : .error .exited ∉ done ++ [.error .thrown] := by simp [halive]
                  refine Run.Correct.repeats (stepEvent_correct .returned hruns₃) hdone₃ halive₃
                    fun r vm₄ ⟨hgoes₄, hends₄⟩ => ?_
                  cases r with
                  | error i => cases i <;> exact hends₄.elim
                  | ok u => exact hrest hends₄.1 hgoes₄ (by simp)

end Repetition

end StreamTrace
