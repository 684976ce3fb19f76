import StreamTrace.Proofs.Machine.Turns

/-!
# A traced program computes what it would have computed

Traces are asked for at any time, any number of them, of any chain and with any options, and the
thread is let go on when nothing moves any more. Compared with the program left alone, every
evaluation comes to the same: lists and optionals hold the same, the same evaluations end with an
exception, and the machine ends in the same evaluation, if at all.
-/

namespace StreamTrace

variable {p : StreamProgram} {options : TraceOptions} {w w' : World}

/-! ## What a program has computed -/

namespace Vm

variable {vm : Vm} {done : List (Fate Shown)}

/-- How the evaluations so far have ended, with the content of lists and optionals. -/
def results (vm : Vm) : List (Fate Shown) := vm.evaluations.map (·.map vm.shown)

/-- The result of the program so far, with the content of lists and optionals. -/
def result? (vm : Vm) : Option Shown := vm.programResult.map vm.shown

theorem Noted.results_eq (h : vm.Noted done) : vm.results = done := by
  obtain ⟨hended, -⟩ := h
  unfold results
  generalize vm.evaluations = evaluations at hended
  induction hended with
  | nil => rfl
  | @cons x r _ _ hr _ ih =>
      rw [List.map_cons, ih]
      congr 1
      cases x <;> cases r
      · exact congrArg Except.error hr
      · exact hr.elim
      · exact hr.elim
      · exact congrArg Except.ok hr.shown_eq

theorem Noted.result_eq (h : vm.Noted done) :
    vm.result? = (vm.results.filterMap Except.toOption).getLast? := by
  have hvalues : vm.results.filterMap Except.toOption =
      (vm.evaluations.filterMap Except.toOption).map vm.shown := by
    unfold results
    rw [List.filterMap_map, List.map_filterMap]
    refine List.filterMap_congr fun r _ => ?_
    cases r <;> rfl
  rw [hvalues, List.getLast?_map, ← h.programResult, result?]

end Vm

/-! ## Tracing -/

namespace World

/-- What may become of a program whose thread is let go on only when nothing moves any more. -/
inductive Traced (p : StreamProgram) (options : TraceOptions) : World → Prop where
  | launched : Traced p options ((World.launch p).startManager options)
  /-- From now on the machine rejects forced returns. -/
  | rejecting {w : World} (h : Traced p options w) :
      Traced p options { w with vm := { w.vm with rejectsForcedReturns := true } }
  /-- Time passes. -/
  | later {w : World} (h : Traced p options w) (now : Nat) : Traced p options { w with now }
  | asked {w w' : World} (h : Traced p options w) (r : TraceRequest)
      (accepted : w.request r = .ok w') : Traced p options w'
  | settled {w : World} (h : Traced p options w) : Traced p options w.settle
  | resumed {w : World} (h : Traced p options w) : Traced p options w.resumed

variable {home : Home} {S : Scene} {final done : List (Fate Shown)} {stop : Option Event} {vm₀ : Vm}

/-- The evaluations so far have ended as `done` tells. -/
structure EvaluatedTo (done : List (Fate Shown)) (w : World) : Prop where
  results : w.vm.results = done
  result : w.vm.result? = (done.filterMap Except.toOption).getLast?
  dead : w.vm.dead = true ↔ .error .exited ∈ done

theorem Over.evaluatedTo (h : w.Over final) : w.EvaluatedTo final :=
  ⟨h.noted.results_eq, h.noted.results_eq ▸ h.noted.result_eq, h.dead⟩

theorem Free.evaluatedTo (h : w.Free home S final done stop vm₀) : w.EvaluatedTo done := by
  have hkept : vm₀.Noted done := h.halted.notes
  have hgoes := h.handed.toProgress
  have hnoted := hkept.grows hgoes.grows hgoes.evaluations hgoes.programResult
  refine ⟨hnoted.results_eq, hnoted.results_eq ▸ hnoted.result_eq, ?_⟩
  rw [h.handed.dead, h.halted.alive]
  simp [h.lives]

/-- A launched program has ended, or it waits in front of its first evaluation. -/
theorem launch_free (p : StreamProgram) : ∃ S final, (World.launch p).Over final ∨
    ∃ done vm₀, (World.launch p).Free p.home S final done none vm₀ := by
  obtain ⟨hbegins, -⟩ := p.launch_atStatement
  obtain ⟨S, ⟨f, hf, hid⟩, hrepeats⟩ := p.launch_repeats
  have hparked := launch_parked p fun _ _ => none
  refine ⟨S, p.final Vm.booted, ?_⟩
  generalize p.final Vm.booted = final at hrepeats ⊢
  unfold launch at hparked ⊢
  generalize p.launch = run at hbegins hf hrepeats hparked
  cases run with
  | ended u vm =>
      obtain ⟨-, htidy, hnoted, hdead⟩ := hrepeats
      exact .inl ⟨rfl, htidy, hnoted, hdead⟩
  | waiting vm resume =>
      obtain ⟨-, -, done, hreached, hlives, hstops, hnext⟩ := hrepeats
      have hquiet : vm.outbox = [] := hbegins.outbox
      have hstatement : vm.HasStatement S.frame f.location := by
        rw [Vm.HasStatement, Vm.places, ← List.map_reverse, List.getElem?_map, ← hid]
        exact congrArg _ hf
      have hhalts : (S.noting done).Halted vm := ⟨hstops, hbegins.ids, f.location, hstatement⟩
      have hhanded : (S.noting done).Handed vm vm := by
        have hhanded := hhalts.handed
        rwa [← hquiet] at hhanded
      exact .inr ⟨done, vm, ⟨⟨fun _ _ => rfl, hquiet, hparked, hhalts, hquiet, hreached, hlives,
        resume, rfl, hnext⟩, hhanded, hbegins.requests⟩⟩

/-- What leaves the thread and its machine alone leaves it free to go on. -/
theorem Calm.next (h : w.Calm home S final) (hthread : w'.thread = w.thread)
    (hintercept : w'.intercept = w.intercept) (hmanager : w'.manager = w.manager)
    (hplace : w.vm.InPlace w'.vm) (hremembers : w.vm.Tidy → w.vm.ProgramUnmoved w'.vm)
    (hhanded : ∀ {S : Scene} {vm}, S.Handed vm w.vm → S.Handed vm w'.vm)
    (hrequests : w'.vm.requests = w.vm.requests) : w'.Calm home S final := by
  rcases h with hover | ⟨done, stop, vm₀, m, hfree, hm, hopen, hidle⟩
  · exact .inl (hover.next (hthread.trans hover.thread) (hremembers hover.tidy))
  · exact .inr ⟨done, stop, vm₀, m, ⟨hfree.toHalted.next hthread hintercept hplace,
      hhanded hfree.handed, hrequests.trans hfree.unasked⟩, hmanager.trans hm, hopen, hidle⟩

/-- Where a traced program may be. -/
theorem Traced.calm (h : Traced p options w) (hlaunch : (launch p).Over final ∨
      ∃ done vm₀, (launch p).Free p.home S final done none vm₀) : w.Calm p.home S final := by
  induction h with
  | launched =>
      rcases hlaunch with hover | ⟨done, vm₀, hfree⟩
      · exact .inl (hover.next hover.thread ⟨hover.tidy, .refl _, rfl, rfl, rfl⟩)
      · exact .inr ⟨done, none, vm₀, { options }, ⟨hfree.toHalted.next rfl rfl (.refl _),
          hfree.handed, hfree.unasked⟩, rfl, ⟨rfl, rfl, rfl, rfl⟩, rfl⟩
  | rejecting h ih =>
      refine ih.next rfl rfl rfl ?_ (fun htidy => ?_) (fun hhanded => ?_) rfl
      · exact ⟨Nat.le_refl _, fun _ hhome => hhome.of_eq (Nat.le_refl _) rfl, rfl, fun _ h => h,
          rfl, rfl⟩
      · exact ⟨htidy.of_eq rfl rfl rfl, .of_eq rfl rfl rfl rfl, rfl, rfl, rfl⟩
      · refine hhanded.next ⟨.of_eq rfl rfl rfl rfl, .refl _ _, rfl, rfl⟩
          (hhanded.tidy.of_eq rfl rfl rfl) (fun f f' hf hf' _ slot => ?_) rfl rfl rfl
        rw [Option.some.inj (hf.symm.trans hf')]
  | later h now ih =>
      exact ih.next rfl rfl rfl (.refl _) (fun htidy => ⟨htidy, .refl _, rfl, rfl, rfl⟩)
        (fun hhanded => hhanded) rfl
  | asked h r accepted ih => exact ih.request accepted
  | settled h ih => exact ih.inProgress.settle.calm
  | resumed h ih => exact ih.resumed

/-- Tracing never changes what a program computes. However often and for whatever chains traces
were asked for, each evaluation so far has ended as if the thread had simply been resumed. So have
all when the thread has ended, and it ends once no trace is in flight and it is resumed. -/
theorem Traced.computes_same (h : Traced p options w) :
    let plain := (launch p).resumed
    w.vm.results <+: plain.vm.results ∧
      w.vm.result? = (w.vm.results.filterMap Except.toOption).getLast? ∧
      (w.vm.dead = true ↔ .error .exited ∈ w.vm.results) ∧
      (w.thread = none → w.vm.results = plain.vm.results ∧ w.vm.result? = plain.vm.result? ∧
        w.vm.dead = plain.vm.dead) ∧
      plain.thread = none ∧ w.settle.resumed.thread = none := by
  intro plain
  obtain ⟨S, final, hlaunch⟩ := launch_free p
  have hplain : plain.Over final := by
    rcases hlaunch with hover | ⟨done, vm₀, hfree⟩
    · exact (hover.command _).settle
    · refine hfree.resumed fun m hm => ?_
      have hmanager : (launch p).manager = none := by unfold launch; split <;> rfl
      cases hmanager.symm.trans hm
  have hcalm := h.calm hlaunch
  have hends := hcalm.inProgress.settle.resumed.thread
  have htold := hplain.evaluatedTo
  rcases hcalm with hover | ⟨done, stop, vm₀, m, hfree, -⟩
  · have htells := hover.evaluatedTo
    have hsame := htells.results.trans htold.results.symm
    refine ⟨hsame ▸ List.prefix_rfl, htells.results ▸ htells.result, htells.results ▸ htells.dead,
      fun _ => ⟨hsame, htells.result.trans htold.result.symm, ?_⟩, hplain.thread, hends⟩
    exact Bool.eq_iff_iff.mpr (htells.dead.trans htold.dead.symm)
  · have htells := hfree.evaluatedTo
    obtain ⟨resume, hthread, -⟩ := hfree.resumes
    refine ⟨?_, htells.results ▸ htells.result, htells.results ▸ htells.dead, fun hnone => ?_,
      hplain.thread, hends⟩
    · rw [htells.results, htold.results]
      exact hfree.reached
    · cases hnone.symm.trans hthread

/-- A program that counts twice. -/
def twiceCounted : StreamProgram := (StreamProgram.ints [1, 2]).repeated 2

theorem twiceCounted_results : (launch twiceCounted).resumed.vm.results =
    [.ok (.plain (.long 2)), .ok (.plain (.long 2))] := by
  decide +kernel

def twiceCountedOptions : TraceOptions := { classFiles := HelperClass.files }

def twiceCountedRequest : TraceRequest := { chain := twiceCounted.chain, thread := mainThread }

theorem computes_same_of_twiceCounted : ∃ w,
    ((launch twiceCounted).startManager twiceCountedOptions).request twiceCountedRequest = .ok w ∧
      w.settle.resumed.thread = none ∧
        w.settle.resumed.vm.results = [.ok (.plain (.long 2)), .ok (.plain (.long 2))] := by
  let manager : Manager := { options := twiceCountedOptions, channel := [twiceCountedRequest] }
  let w : World :=
    { (launch twiceCounted).startManager twiceCountedOptions with manager := some manager }
  have htraced : Traced twiceCounted twiceCountedOptions w := .asked .launched _ rfl
  obtain ⟨-, -, -, -, -, hends⟩ := htraced.computes_same
  obtain ⟨-, -, -, hover, -⟩ := (Traced.resumed (.settled htraced)).computes_same
  exact ⟨w, rfl, hends, (hover hends).1.trans twiceCounted_results⟩

end World

end StreamTrace
