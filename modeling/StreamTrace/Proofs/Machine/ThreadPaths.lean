import StreamTrace.Proofs.Machine.RunContinuity
import StreamTrace.Proofs.Machine.ThreadPosition

/-!
# Where the thread goes

The thread stops at the events that are asked for, and goes on from there whatever was done to the
machine in the meantime, as long as its frames are left where they are. It may then be `bound`: it
was resumed on its way back to the statement, with a step requested that ends there. Until that
step ends it enters no method and leaves none by a value.
-/

namespace StreamTrace

open Vm

variable {α β : Type} {home : Home} {n : Nat}

/-! ## Runs -/

/-- The machine stands with `n` frames, and if the thread is bound, the step is requested. -/
structure Vm.StepSet (vm : Vm) (home : Home) (n : Nat) (bound : Prop) : Prop extends
    vm.Stands home where
  depth : vm.frames.length = n
  armed : bound → vm.Armed

/-- What the thread does from `vm` on until it stops, and so on from each stop: the machine goes on
in any case; and if `ok`, only frames above the lowest `n` are changed, and the code ends with `n`
frames as `post` says. A thread that was resumed is `ok` if its frames were left where they are. -/
def Run.Homeward (home : Home) (n : Nat) (post : Prop → α → Prop) : Run α → (ok bound : Prop) →
    Vm → Prop
  | .ended a vm', ok, bound, vm =>
    vm.Continues vm' ∧
      (ok → vm.Ran n vm' ∧ vm'.Stands home ∧ vm'.frames.length = n ∧ post bound a)
  | .waiting vm' resume, ok, bound, vm =>
    vm.Continues vm' ∧ vm'.suspended = true ∧ ∃ event : Option Event,
      (ok → (∃ vm₀, vm.Ran n vm₀ ∧ Stops bound event vm₀ vm') ∧ vm'.Stands home) ∧
      ∀ (bound' : Prop) (vm₁ : Vm), (resume vm₁).Homeward home n post
        (ok ∧ vm₁.Stands home ∧ vm₁.places = vm'.places ∧
          (bound' → vm₁.Armed ∧ ∃ e, event = some e ∧ e.isHomeward = true)) bound' vm₁

namespace Run

variable {post : Prop → α → Prop} {post' : Prop → β → Prop} {r : Run α} {ok bound : Prop} {vm : Vm}

theorem Homeward.after {vm' : Vm} (h : r.Homeward home n post ok bound vm')
    (hc : vm.Continues vm') (hran : ok → vm.Ran n vm') : r.Homeward home n post ok bound vm := by
  cases r with
  | ended a vm'' =>
      refine ⟨hc.trans h.1, fun hok => ?_⟩
      obtain ⟨hran', hrest⟩ := h.2 hok
      exact ⟨(hran hok).trans hran', hrest⟩
  | waiting vm'' resume =>
      obtain ⟨hc', hsuspended, event, hstop, hresume⟩ := h
      refine ⟨hc.trans hc', hsuspended, event, fun hok => ?_, hresume⟩
      obtain ⟨⟨vm₀, hran₀, hstops⟩, hstands⟩ := hstop hok
      exact ⟨⟨vm₀, (hran hok).trans hran₀, hstops⟩, hstands⟩

theorem Homeward.mono (h : r.Homeward home n post ok bound vm)
    {post' : Prop → α → Prop} (hpost : ∀ bound a, post bound a → post' bound a) :
    r.Homeward home n post' ok bound vm := by
  induction r generalizing ok bound vm with
  | ended a vm' =>
      refine ⟨h.1, fun hok => ?_⟩
      obtain ⟨hran, hstands, hdepth, ha⟩ := h.2 hok
      exact ⟨hran, hstands, hdepth, hpost _ _ ha⟩
  | waiting vm' resume ih =>
      obtain ⟨hc, hsuspended, event, hstop, hresume⟩ := h
      exact ⟨hc, hsuspended, event, hstop, fun bound' vm₁ => ih vm₁ (hresume bound' vm₁)⟩

/-- What comes next goes on from where the first part has ended. -/
theorem Homeward.bind {f : α → Vm → Run β} (h : r.Homeward home n post ok bound vm)
    (harmed : ok → bound → vm.Armed)
    (hf : ∀ (ok' bound : Prop) a vm', (ok' → ok) →
      (ok' → vm'.StepSet home n bound ∧ post bound a) →
        (f a vm').Homeward home n post' ok' bound vm') :
    (r.bind f).Homeward home n post' ok bound vm := by
  induction r generalizing ok bound vm with
  | ended a vm' =>
      obtain ⟨hc, hend⟩ := h
      have hnext : (f a vm').Homeward home n post' ok bound vm' := by
        refine hf ok bound a vm' id fun hok => ?_
        obtain ⟨hran, hstands, hdepth, ha⟩ := hend hok
        refine ⟨⟨hstands, hdepth, fun hbound => ?_⟩, ha⟩
        obtain ⟨request, hmem, haccepts⟩ := harmed hok hbound
        exact ⟨request, hran.asked ▸ hmem, haccepts⟩
      exact hnext.after hc fun hok => (hend hok).1
  | waiting vm' resume ih =>
      obtain ⟨hc, hsuspended, event, hstop, hresume⟩ := h
      refine ⟨hc, hsuspended, event, hstop, fun bound' vm₁ => ?_⟩
      exact ih vm₁ (hresume bound' vm₁) (fun hok hbound => (hok.2.2.2 hbound).1)
        fun ok' bound a vm' hok => hf ok' bound a vm' fun h => (hok h).1

/-- A frame is removed in the end. -/
theorem Homeward.pop (h : r.Homeward home (n + 1) post ok bound vm) :
    (r.bind fun a vm => .ended a { vm with frames := vm.frames.tail }).Homeward home n post ok bound
      vm := by
  induction r generalizing ok bound vm with
  | ended a vm' =>
      obtain ⟨hc, hend⟩ := h
      refine ⟨hc.trans (.of_eq rfl rfl rfl rfl id), fun hok => ?_⟩
      obtain ⟨hran, hstands, hdepth, ha⟩ := hend hok
      refine ⟨(hran.of_le (Nat.le_succ n)).trans (ran_pop hdepth), hstands.pop, ?_, ha⟩
      rw [List.length_tail, hdepth, Nat.add_sub_cancel]
  | waiting vm' resume ih =>
      obtain ⟨hc, hsuspended, event, hstop, hresume⟩ := h
      refine ⟨hc, hsuspended, event, fun hok => ?_, fun bound' vm₁ => ih vm₁ (hresume bound' vm₁)⟩
      obtain ⟨⟨vm₀, hran, hstops⟩, hstands⟩ := hstop hok
      exact ⟨⟨vm₀, hran.of_le (Nat.le_succ n), hstops⟩, hstands⟩

/-- In any case the machine goes on. -/
theorem Homeward.keeps (h : r.Homeward home n post ok bound vm) : r.Keeps vm := by
  induction r generalizing ok bound vm with
  | ended a vm' => exact h.1
  | waiting vm' resume ih =>
      obtain ⟨hc, hsuspended, event, -, hresume⟩ := h
      exact ⟨hc, hsuspended, fun vm₁ => ih vm₁ (hresume False vm₁)⟩

end Run

/-! ## Code -/

namespace Code

variable {given : Prop} {pre : Prop → Prop}

/-- Code that is run with `n` frames and, as `pre` says, perhaps by a thread that is bound. It may
be assumed what is `given`. -/
def Homeward (given : Prop) (home : Home) (n : Nat) (pre : Prop → Prop)
    (post : Prop → Except Interruption α → Prop) (c : Code α) : Prop :=
  ∀ (ok bound : Prop) (vm : Vm), (ok → given) → (ok → vm.StepSet home n bound ∧ pre bound) →
    Run.Homeward home n post (c.run vm) ok bound vm

/-- A thread that is bound is so because of an exception that is on its way. -/
def BoundByThrow (bound : Prop) (r : Except Interruption α) : Prop := bound → ∃ i, r = .error i

/-- Code that is run by a thread that is not bound, and leaves none bound but by an exception. -/
def Unbound (given : Prop) (home : Home) (n : Nat) (c : Code α) : Prop :=
  c.Homeward given home n Not BoundByThrow

variable {post : Prop → Except Interruption α → Prop} {post' : Prop → Except Interruption β → Prop}
  {c : Code α} {f : α → Code β}

theorem Homeward.mono (h : c.Homeward given home n pre post) {pre' : Prop → Prop}
    {post' : Prop → Except Interruption α → Prop} (hpre : ∀ bound, pre' bound → pre bound)
    (hpost : ∀ bound r, post bound r → post' bound r) : c.Homeward given home n pre' post' :=
  fun ok bound vm hgiven hvm =>
    (h ok bound vm hgiven fun hok => ⟨(hvm hok).1, hpre _ (hvm hok).2⟩).mono hpost

theorem bind_homeward {ok bound : Prop} {vm : Vm}
    (h : Run.Homeward home n post (c.run vm) ok bound vm) (harmed : ok → bound → vm.Armed)
    (hgiven : ok → given)
    (hf : ∀ a, (f a).Homeward given home n (fun bound => post bound (.ok a)) post')
    (herror : ∀ bound i, post bound (.error i) → post' bound (.error i)) :
    Run.Homeward home n post' ((c >>= f).run vm) ok bound vm := by
  refine Run.Homeward.bind h harmed fun ok' bound r vm' hok hvm' => ?_
  cases r with
  | ok a => exact hf a ok' bound vm' (fun h => hgiven (hok h)) hvm'
  | error i =>
      refine ⟨.refl vm', fun hok' => ?_⟩
      obtain ⟨hsets, hi⟩ := hvm' hok'
      exact ⟨.refl n vm', hsets.toStands, hsets.depth, herror _ _ hi⟩

theorem Homeward.bind (h : c.Homeward given home n pre post)
    (hf : ∀ a, (f a).Homeward given home n (fun bound => post bound (.ok a)) post')
    (herror : ∀ bound i, post bound (.error i) → post' bound (.error i)) :
    (c >>= f).Homeward given home n pre post' := fun ok bound vm hgiven hvm =>
  bind_homeward (h ok bound vm hgiven hvm) (fun hok => (hvm hok).1.armed) hgiven hf herror

theorem BoundByThrow.free {bound : Prop} {a : α}
    (h : BoundByThrow bound (.ok a : Except Interruption α)) :
    ¬bound := by
  intro hbound
  obtain ⟨i, hi⟩ := h hbound
  cases hi

theorem Unbound.andThen (h : c.Unbound given home n)
    (hf : ∀ a, (f a).Homeward given home n Not post')
    (herror : ∀ bound i, post' bound (.error i)) : (c >>= f).Homeward given home n Not post' :=
  Homeward.bind h (fun a => (hf a).mono (fun _ hrests => hrests.free) fun _ _ h => h)
    fun bound i _ => herror bound i

theorem Unbound.bind (h : c.Unbound given home n) (hf : ∀ a, (f a).Unbound given home n) :
    (c >>= f).Unbound given home n := h.andThen hf fun _ i _ => ⟨i, rfl⟩

/-- Code that changes nothing of the frames and raises no event. -/
theorem homeward_ended {c : Code α} {r : Vm → Except Interruption α} {g : Vm → Vm}
    (hrun : ∀ vm, c.run vm = .ended (r vm) (g vm)) (hc : ∀ vm : Vm, vm.Continues (g vm))
    (hran : ∀ vm : Vm, vm.Ran n (g vm)) (hstands : ∀ vm : Vm, vm.Stands home → (g vm).Stands home)
    (hframes : ∀ vm, (g vm).frames = vm.frames)
    (hpost : ∀ bound vm, pre bound → post bound (r vm)) :
    c.Homeward given home n pre post := by
  intro ok bound vm _ hvm
  rw [hrun]
  refine ⟨hc vm, fun hok => ?_⟩
  obtain ⟨hsets, hpre⟩ := hvm hok
  exact ⟨hran vm, hstands vm hsets.toStands, (hframes vm).symm ▸ hsets.depth, hpost _ _ hpre⟩

theorem homeward_pure (a : α) (h : ∀ bound, pre bound → post bound (.ok a)) :
    Homeward given home n pre post (pure a) :=
  homeward_ended (fun _ => rfl) .refl (.refl n) (fun _ h => h) (fun _ => rfl) fun bound _ => h bound

theorem homeward_throw (i : Interruption) (h : ∀ bound, pre bound → post bound (.error i)) :
    Homeward given home n pre post (throw i : Code α) :=
  homeward_ended (fun _ => rfl) .refl (.refl n) (fun _ h => h) (fun _ => rfl) fun bound _ => h bound

theorem homeward_use {m : StateM Vm α} (hc : Vm.Keeps Continues m) (hs : Vm.Keeps Still m)
    (h : ∀ bound a, pre bound → post bound (.ok a)) : Homeward given home n pre post (use m) :=
  homeward_ended (r := fun vm => .ok (m.run vm).1) (fun _ => rfl) hc (fun vm => (hs vm).ran n)
    (fun vm => (hs vm).stands) (fun vm => (hs vm).frames) fun bound _ => h bound _

theorem unbound_pure (a : α) : Unbound given home n (pure a) :=
  homeward_pure a fun _ hfree hbound => absurd hbound hfree

theorem unbound_throw (i : Interruption) : Unbound given home n (throw i : Code α) :=
  homeward_throw i fun _ _ _ => ⟨i, rfl⟩

theorem unbound_use {m : StateM Vm α} (h : ∀ {R : Vm → Vm → Prop} [Chores R], Vm.Keeps R m) :
    Unbound given home n (use m) :=
  homeward_use h h fun _ _ hfree hbound => absurd hbound hfree

theorem unbound_read (f : Vm → α) : Unbound given home n (read f) :=
  homeward_ended (fun _ => rfl) .refl (.refl n) (fun _ h => h) (fun _ => rfl)
    fun _ _ hfree hbound => absurd hbound hfree

/-- What is read of a machine is known to be so of it. -/
theorem Unbound.read_bind {f : Vm → α} {k : α → Code β} {P : α → Prop}
    (hf : ∀ vm : Vm, vm.Stands home → P (f vm)) (hk : ∀ a, (k a).Unbound (given ∧ P a) home n) :
    (read f >>= k).Unbound given home n := fun ok bound vm hgiven hvm =>
  hk (f vm) ok bound vm (fun hok => ⟨hgiven hok, hf vm (hvm hok).1.toStands⟩) hvm

theorem unbound_ite {p : Prop} [Decidable p] {c c' : Code α} (h : c.Unbound given home n)
    (h' : c'.Unbound given home n) : Unbound given home n (if p then c else c') := by
  split
  · exact h
  · exact h'

/-! ## Stops -/

theorem stop_of_dead {due : StateM Vm (Option Event)} {vm : Vm} (hdead : vm.dead = true) :
    stop due vm = .ended (.error .exited) vm := if_pos hdead

theorem stop_of_none {due : StateM Vm (Option Event)} {vm vm' : Vm} (hdead : ¬vm.dead = true)
    (hdue : due.run vm = (none, vm')) : stop due vm = .ended (.ok ()) vm' := by
  unfold stop
  rw [if_neg hdead, hdue]

theorem awaitResume_of_suspended {vm : Vm} (hdead : ¬vm.dead = true)
    (hsuspended : vm.suspended = true) :
    awaitResume vm =
      .waiting vm fun vm => .ended (if vm.dead then .error .exited else .ok ()) vm := by
  unfold awaitResume
  rw [if_neg hdead, if_neg (not_not_intro hsuspended)]

theorem stop_of_some {due : StateM Vm (Option Event)} {vm vm' : Vm} {e : Event}
    (hdead : ¬vm.dead = true) (hdue : due.run vm = (some e, vm')) (hdead' : ¬vm'.dead = true) :
    stop due vm = .waiting { vm' with suspended := true, outbox := vm'.outbox ++ [e] }
      fun vm => .ended (if vm.dead then .error .exited else .ok ()) vm := by
  unfold stop
  rw [if_neg hdead, hdue]
  exact awaitResume_of_suspended hdead' rfl

/-- The thread stops if an event is due, and goes on from there. -/
theorem stop_homeward {P : Event → Prop} {due : StateM Vm (Option Event)} {ok bound : Prop}
    {vm : Vm}
    {post : Prop → Except Interruption Unit → Prop} (hdue : Raises P due)
    (hvm : ok → vm.StepSet home n bound) (hplace : ok → ∀ e, P e → vm.IsAt e)
    (hhomeward : ok → bound → ∀ e, P e → e.isUncaught = true ∨ e.isStep = true ∧ n = 2)
    (hpass : ok → due.run vm = (none, vm) → post bound (.ok ()))
    (hnext : ok → ∀ bound e, P e → (bound → e.isHomeward = true) → post bound (.ok ()))
    (hexit : ∀ bound, post bound (.error .exited)) :
    Run.Homeward home n post (stop due vm) ok bound vm := by
  have hrest : ok → vm.Ran n vm ∧ vm.Stands home ∧ vm.frames.length = n :=
    fun hok => ⟨.refl n vm, (hvm hok).toStands, (hvm hok).depth⟩
  -- A dead machine ends at once, one without a due event goes on, and one with an event waits.
  by_cases hdead : vm.dead = true
  · rw [stop_of_dead hdead]
    refine ⟨.refl vm, fun hok => ?_⟩
    obtain ⟨hran, hstands, hdepth⟩ := hrest hok
    exact ⟨hran, hstands, hdepth, hexit bound⟩
  · rcases hdue vm with hnone | ⟨e, requests, hrun, hasked, hused, hspared, he⟩
    · rw [stop_of_none hdead hnone]
      refine ⟨.refl vm, fun hok => ?_⟩
      obtain ⟨hran, hstands, hdepth⟩ := hrest hok
      exact ⟨hran, hstands, hdepth, hpass hok hnone⟩
    · rw [stop_of_some hdead hrun hdead]
      obtain ⟨request, hrequest, hraised⟩ := hasked
      refine ⟨⟨rfl, hused, id, id, fun hnone _ => absurd hnone (List.ne_nil_of_mem hrequest)⟩, rfl,
        some e, fun hok => ?_, fun bound' vm₁ => ⟨.refl vm₁, fun hok => ?_⟩⟩
      · have hstops : Stops bound (some e) vm
            { vm with requests, suspended := true, outbox := vm.outbox ++ [e] } := by
          refine ⟨⟨requests, rfl⟩, hused, ?_, ?_, ?_, fun hbound => ⟨e, rfl, ?_⟩⟩
          · rintro _ ⟨⟩ hexception
            exact hspared hexception
          · rintro _ ⟨⟩
            exact hplace hok e he
          · rintro _ ⟨⟩
            exact ⟨request, hrequest, hraised⟩
          · rw [(hvm hok).depth]
            exact hhomeward hok hbound e he
        exact ⟨⟨vm, .refl n vm, hstops⟩, hstops.stands (hvm hok).toStands⟩
      · obtain ⟨hok, hstands, hplaces, hbound⟩ := hok
        refine ⟨.refl n vm₁, hstands, (length_of_places hplaces).trans (hvm hok).depth, ?_⟩
        split
        · exact hexit bound'
        · refine hnext hok bound' e he fun hb => ?_
          obtain ⟨-, e', he', hhome⟩ := hbound hb
          cases he'
          exact hhome

theorem boundByThrow_exited (bound : Prop) :
    BoundByThrow bound (.error .exited : Except Interruption α) :=
  fun _ => ⟨_, rfl⟩

/-- At the entry of a method that is called from the statement or from above it. -/
theorem stop_entered_unbound (hn : 3 ≤ n) : (stop enteredEvent).Unbound given home n := by
  intro ok bound vm _ hvm
  refine stop_homeward enteredEvent_raises (fun hok => (hvm hok).1) (fun hok e he => ?_)
    (fun hok hbound => absurd hbound (hvm hok).2) (fun hok _ hbound => absurd hbound (hvm hok).2)
    (fun _ bound e he hhome hbound => ?_) boundByThrow_exited
  · have hdepth : 3 ≤ vm.places.length := by
      rw [length_places, (hvm hok).1.depth]
      exact hn
    cases e <;> first | exact hdepth | trivial | simp [Event.isEntry, Event.isStep] at he
  · have hno : e.isHomeward = false :=
      he.elim Event.isHomeward_of_isEntry Event.isHomeward_of_isStep
    rw [hhome hbound] at hno
    cases hno

/-- In front of the end of a method, behind which the thread may be bound. -/
theorem stop_exit_homeward (v : Value) (hn : 3 ≤ n) :
    (stop (exitEvent v)).Homeward given home n Not fun _ _ => True := by
  intro ok bound vm _ hvm
  refine stop_homeward (exitEvent_raises v) (fun hok => (hvm hok).1) (fun hok e he => ?_)
    (fun hok hbound => absurd hbound (hvm hok).2) (fun _ _ => trivial) (fun _ _ _ _ _ => trivial)
    fun _ => trivial
  have hdepth : 3 ≤ vm.places.length := by rw [length_places, (hvm hok).1.depth]; exact hn
  cases e <;> first | exact hdepth | cases he

/-- Behind a method that has returned a thread that is bound stops. -/
theorem stop_step_homeward :
    (stop (stepEvent .returned)).Homeward given home n (fun bound => bound → n = 2)
    BoundByThrow := by
  intro ok bound vm _ hvm
  refine stop_homeward (stepEvent_raises _) (fun hok => (hvm hok).1) (fun hok e he => ?_)
    (fun hok hbound e he => .inr ⟨he, (hvm hok).2 hbound⟩) (fun hok hnone hbound => ?_)
    (fun _ bound e he hhome hbound => ?_) boundByThrow_exited
  · cases e <;> trivial
  · obtain ⟨hsets, htwo⟩ := hvm hok
    exact absurd hnone ((hsets.armed hbound).due (hsets.depth.trans (htwo hbound)))
  · have hno := Event.isHomeward_of_isStep he
    rw [hhome hbound] at hno
    cases hno

theorem stop_step_unbound : (stop (stepEvent .returned)).Unbound given home n :=
  stop_step_homeward.mono (fun _ hfree hbound => absurd hbound hfree) fun _ _ h => h

/-- At an exception that nothing catches. -/
theorem stop_uncaught_homeward (exception : ObjectId) :
    (stop (exceptionEvent exception none)).Homeward given home n (fun _ => True)
      fun _ _ => True := by
  intro ok bound vm _ hvm
  refine stop_homeward (exceptionEvent_raises _ _) (fun hok => (hvm hok).1) (fun hok e he => ?_)
    (fun hok hbound e he => .inl ?_) (fun _ _ => trivial) (fun _ _ _ _ _ => trivial)
    fun _ => trivial
  · obtain ⟨request, t, l, rfl⟩ := he
    trivial
  · obtain ⟨request, t, l, rfl⟩ := he
    rfl

/-- At an exception that the method on top catches itself. -/
theorem stop_caught_homeward (exception : ObjectId) {ok bound : Prop} {vm : Vm} {caught : Location}
    {p : FrameId × Location} (htop : ok → vm.places.head? = some p ∧ p.2.sameMethod caught = true)
    (hvm : ok → vm.StepSet home n bound ∧ ¬bound) :
    Run.Homeward home n BoundByThrow (stop (exceptionEvent exception (some caught)) vm)
      ok bound vm := by
  refine stop_homeward (exceptionEvent_raises _ _) (fun hok => (hvm hok).1) (fun hok e he => ?_)
    (fun hok hbound => absurd hbound (hvm hok).2) (fun hok _ hbound => absurd hbound (hvm hok).2)
    (fun _ bound e he hhome hbound => ?_) boundByThrow_exited
  · obtain ⟨request, t, l, rfl⟩ := he
    exact ⟨p, htop hok⟩
  · obtain ⟨request, t, l, rfl⟩ := he
    cases hhome hbound

/-- An exception may come up while another one was on its way. -/
theorem raise_homeward (className : String) :
    (raise className : Code α).Homeward given home n (fun _ => True) BoundByThrow := by
  have huse : (use (makeThrowable className)).Homeward given home n (fun _ => True)
      fun _ _ => True :=
    homeward_use (makeThrowable_keeps _) (makeThrowable_keeps _) fun _ _ _ => trivial
  refine huse.bind (fun exception => ?_) fun _ i _ _ => ⟨i, rfl⟩
  refine (stop_uncaught_homeward exception).bind (fun _ => ?_) fun _ i _ _ => ⟨i, rfl⟩
  exact homeward_throw _ fun _ _ _ => ⟨_, rfl⟩

theorem raise_unbound (className : String) : (raise className : Code α).Unbound given home n :=
  (raise_homeward className).mono (fun _ _ => trivial) fun _ _ h => h

/-! ## Frames -/

/-- The code of another method than the statement's runs in a frame of its own. -/
theorem inFrame_homeward {type : TypeId} {method : MethodId} {slots : Table Nat Value}
    {body : Code α} {post : Prop → Except Interruption α → Prop}
    (h : body.Homeward given home (n + 1) Not post)
    (hmethod : given → home.IsElsewhere type method) :
    (inFrame type method slots body).Homeward given home n Not post := by
  intro ok bound vm hgiven hvm
  let f : Frame := { id := vm.nextId + 1, location := vm.location type method 0, slots }
  let pushed : Vm := { vm with nextId := vm.nextId + 1, frames := f :: vm.frames }
  have hbody : Run.Homeward home (n + 1) post (body.run pushed) ok bound pushed := by
    refine h ok bound pushed hgiven fun hok => ?_
    obtain ⟨hsets, hfree⟩ := hvm hok
    refine ⟨⟨?_, by simp [pushed, hsets.depth], fun hbound => absurd hbound hfree⟩, hfree⟩
    exact hsets.toStands.push (hmethod (hgiven hok)) slots
  have hpop := hbody.pop
  exact hpop.after (.of_eq rfl rfl rfl rfl id) fun hok =>
    ran_push (Nat.le_of_eq (hvm hok).1.depth.symm) f

/-! ## Lambdas -/

/-- An exception that the lambda handles itself. -/
theorem caught_unbound (exception : String) (fallback : Element) (hn : 0 < n) :
    (lambdaBody (.raise exception (some fallback))).Unbound given home n := by
  intro ok bound vm hgiven hvm
  let made := (makeThrowable exception).run vm
  have hmade : vm.Still made.2 := makeThrowable_keeps exception vm
  have hcontinues : vm.Continues made.2 := makeThrowable_keeps exception vm
  have hsets : ok → made.2.StepSet home n bound ∧ ¬bound := fun hok => by
    obtain ⟨hsets, hfree⟩ := hvm hok
    exact ⟨⟨hmade.stands hsets.toStands, (congrArg _ hmade.frames).trans hsets.depth,
      fun hbound => absurd hbound hfree⟩, hfree⟩
  let caught := vm.topLocation?.map fun l => { l with index := l.index + 4 }
  have hstop : Run.Homeward home n BoundByThrow (stop (exceptionEvent made.1 caught) made.2)
      ok bound made.2 := by
    cases hframes : vm.frames with
    | nil =>
        -- Without a frame nothing would catch the exception, but the code runs in one.
        have hno : ¬ok := fun hok => by
          have hdepth := (hvm hok).1.depth
          rw [hframes] at hdepth
          exact absurd hdepth.symm (Nat.ne_of_gt hn)
        exact stop_homeward (exceptionEvent_raises _ _) (fun hok => absurd hok hno)
          (fun hok => absurd hok hno) (fun hok => absurd hok hno) (fun hok => absurd hok hno)
          (fun hok => absurd hok hno) boundByThrow_exited
    | cons top rest =>
        have hcaught : caught = some { top.location with index := top.location.index + 4 } := by
          simp [caught, topLocation?, hframes]
        have hplaces : made.2.places.head? = some (top.id, top.location) := by
          simp [places, hmade.frames, hframes]
        rw [hcaught]
        exact stop_caught_homeward made.1 (fun _ => ⟨hplaces, by simp [Location.sameMethod]⟩) hsets
  have hrest : Run.Homeward home n BoundByThrow
      ((stop (exceptionEvent made.1 caught) >>= fun _ => pure fallback).run made.2)
      ok bound made.2 :=
    bind_homeward hstop (fun hok hbound => absurd hbound (hsets hok).2) hgiven
      (fun _ => (unbound_pure fallback).mono (fun _ h => h.free) fun _ _ h => h)
      fun _ i _ _ => ⟨i, rfl⟩
  exact hrest.after hcontinues fun _ => hmade.ran n

theorem lambdaBody_unbound (o : LambdaOutcome) (hn : 0 < n) :
    (lambdaBody o).Unbound given home n := by
  cases o with
  | value e => exact unbound_pure e
  | raise exception caught =>
      cases caught with
      | some fallback => exact caught_unbound exception fallback hn
      | none => exact raise_unbound _
  | raiseReplaced exception replacement =>
      refine Unbound.bind (unbound_use (makeThrowable_keeps _)) fun thrown => ?_
      have hstop : (stop (exceptionEvent thrown none)).Homeward given home n Not fun _ _ => True :=
        (stop_uncaught_homeward thrown).mono (fun _ _ => trivial) fun _ _ h => h
      exact hstop.bind (fun _ => raise_homeward _) fun _ i _ _ => ⟨i, rfl⟩
  | exitVm =>
      have hkill : (use (modify Vm.kill)).Unbound given home n := by
        refine homeward_ended (r := fun _ => .ok ()) (fun _ => rfl) kill_continues
          (fun vm => ran_kill vm n) (fun _ h => h.kill) (fun vm => ?_)
          fun _ _ hfree hbound => absurd hbound hfree
        unfold Vm.kill
        split <;> rfl
      exact hkill.bind fun _ => unbound_throw _

theorem runLambda_unbound (function : ObjectId) (f : Lambda) (e : Element) (hn : 2 ≤ n) :
    (runLambda function f e).Unbound given home n := by
  have hread : ∀ vm : Vm, vm.Stands home → ∀ found, vm.lambdaMethod? function = some found →
      home.IsElsewhere found.1 found.2.id :=
    fun vm hvm found hfound => hvm.toHasHome.elsewhere_of_lambda hfound
  refine Unbound.read_bind (P := fun found => ∀ x, found = some x →
    home.IsElsewhere x.1 x.2.id) hread fun found => ?_
  cases found with
  | none => exact raise_unbound _
  | some found =>
      refine (unbound_use (materialize_keeps _ _)).bind fun _ => (unbound_read _).bind fun _ => ?_
      refine Unbound.bind (inFrame_homeward ?_ fun h => h.2 found rfl) fun result =>
        stop_step_unbound.bind fun _ => unbound_pure result
      exact (stop_entered_unbound (Nat.succ_le_succ hn)).bind fun _ =>
        lambdaBody_unbound _ (Nat.succ_pos n)

theorem apply_unbound (function : ObjectId) (e : Element) (hn : 2 ≤ n) :
    (apply function e).Unbound given home n := by
  refine (unbound_read _).bind fun object => ?_
  split
  · exact runLambda_unbound _ _ _ hn
  · refine Unbound.bind (unbound_use ((tick_keeps _ _).bind fun now => ?_)) fun _ => unbound_pure _
    split
    · exact put_keeps _ _ _
    · exact Vm.keeps_pure _
  · refine Unbound.bind (unbound_use ((tick_keeps _ _).bind fun _ => put_keeps _ _ _)) fun _ => ?_
    refine (unbound_read _).bind fun predicate => ?_
    split
    · refine (runLambda_unbound _ _ _ hn).bind fun result => ?_
      extract_lets jp
      refine unbound_ite ?_ (unbound_pure _)
      exact Unbound.bind (unbound_use ((tick_keeps _ _).bind fun _ => put_keeps _ _ _)) fun _ =>
        unbound_pure _
    · exact raise_unbound _
  · exact raise_unbound _

/-! ## Pipelines -/

theorem through_unbound (ops : List PipelineStep) (e : Element) (hn : 2 ≤ n) :
    (through ops e).Unbound given home n := by
  induction ops generalizing e with
  | nil => exact unbound_pure _
  | cons op ops ih =>
      cases op with
      | filter predicate =>
          exact (apply_unbound _ _ hn).bind fun _ => unbound_ite (ih e) (unbound_pure _)
      | map function => exact (apply_unbound _ _ hn).bind fun e => ih e
      | peek consumer => exact (apply_unbound _ _ hn).bind fun _ => ih e

theorem newOptional_unbound (element : ElementType) (content : Option Element) :
    (newOptional element content).Unbound given home n :=
  unbound_use ((allocOf_keeps _ _).bind fun _ => keeps_get.bind fun _ => Vm.keeps_pure _)

theorem finish_unbound (element : ElementType) (taken : Nat) (kept : List Element)
    (ending : PipelineEnd) : (finish element taken kept ending).Unbound given home n := by
  cases ending with
  | findFirst => exact newOptional_unbound _ _
  | toList =>
      unfold finish
      exact unbound_use ((allocOf_keeps _ _).bind fun _ => keeps_get.bind fun _ => Vm.keeps_pure _)
  | _ => exact unbound_pure _

theorem drain_unbound (element : ElementType) (ops : List PipelineStep) (ending : PipelineEnd)
    (taken : Nat) (kept items : List Element) (hn : 2 ≤ n) :
    (drain element ops ending taken kept items).Unbound given home n := by
  induction items generalizing taken kept with
  | nil => exact finish_unbound _ _ _ _
  | cons e rest ih =>
      refine (through_unbound ops e hn).bind fun e => ?_
      cases e with
      | none => exact ih taken kept
      | some e =>
          cases ending with
          | count => exact ih _ _
          | anyMatch predicate =>
              exact (apply_unbound _ _ hn).bind fun _ => unbound_ite (unbound_pure _) (ih _ _)
          | findFirst => exact newOptional_unbound _ _
          | toList => exact ih _ _
          | forEach consumer => exact (apply_unbound _ _ hn).bind fun _ => ih _ _

theorem pipelineEndOf_unbound (name : String) (function : Option ObjectId) :
    (pipelineEndOf name function).Unbound given home n := by
  unfold pipelineEndOf
  split <;> first | exact unbound_pure _ | exact raise_unbound _

theorem derive_unbound (type : TypeId) (element : ElementType) (op : StreamOp) :
    (derive type element op).Unbound given home n := unbound_use (allocValue_keeps _ _)

theorem methodBody_unbound (receiver : ObjectId) (name : String) (args : List Value) (hn : 2 ≤ n) :
    (methodBody receiver name args).Unbound given home n := by
  unfold methodBody
  extract_lets function
  refine (unbound_read _).bind fun found => ?_
  split
  · exact unbound_ite ((unbound_read _).bind fun _ => derive_unbound _ _ _) (raise_unbound _)
  · refine unbound_ite ?_ (unbound_ite (derive_unbound _ _ _) ?_)
    · split
      · exact derive_unbound _ _ _
      · exact raise_unbound _
    · exact (pipelineEndOf_unbound _ _).bind fun _ => (unbound_read _).bind fun _ =>
        drain_unbound _ _ _ _ _ _ hn
  · exact raise_unbound _

/-! ## Calls -/

theorem takeForced_still (v : Value) : Vm.Keeps Still (takeForced v) := fun _ =>
  ⟨Nat.le_refl _, fun _ h => h, fun _ h => h.of_eq (Nat.le_refl _) rfl, rfl, rfl, rfl, rfl, rfl,
    rfl, rfl, rfl⟩

theorem takeForced_continues (v : Value) : Vm.Keeps Continues (takeForced v) :=
  keeps_modifyGet fun _ => .of_eq rfl rfl rfl rfl id

/-- A method that is left by a value may leave the thread bound. -/
theorem method_homeward (id : ObjectId) (c : ProgramCall) :
    Homeward given home 3 Not (fun _ _ => True) (do
      stop enteredEvent
      let args ← read (currentArguments c.descriptor c.args)
      let v ← methodBody id c.name args
      stop (exitEvent v)
      use (takeForced v)) := by
  refine (stop_entered_unbound (Nat.le_refl 3)).andThen (fun _ => ?_) fun _ _ => trivial
  refine (unbound_read _).andThen (fun args => ?_) fun _ _ => trivial
  refine (methodBody_unbound _ _ args (by decide)).andThen (fun v => ?_) fun _ _ => trivial
  refine (stop_exit_homeward v (Nat.le_refl 3)).bind (fun _ => ?_) fun _ _ _ => trivial
  exact homeward_use (takeForced_continues v) (takeForced_still v) fun _ _ _ => trivial

/-- Behind its end a thread that is bound stops. -/
theorem call_unbound (receiver : Value) {c : ProgramCall} (hname : c.name ≠ "run") :
    (call receiver c).Unbound given home 2 := by
  unfold call
  split
  · exact raise_unbound _
  · rename_i id _
    have hread : ∀ vm : Vm, vm.Stands home → ∀ found,
        ((vm.lookup? id).bind fun e => vm.classes.dispatch e.type c.name c.descriptor) =
          some found → home.IsElsewhere found.1 found.2 := by
      intro vm hvm found hfound
      obtain ⟨e, -, hcode⟩ := Option.bind_eq_some_iff.mp hfound
      exact hvm.toHasHome.elsewhere_of_dispatch hcode hname
    refine Unbound.read_bind (P := fun found => ∀ x, found = some x → home.IsElsewhere x.1 x.2)
      hread fun code => ?_
    cases code with
    | none => exact raise_unbound _
    | some code =>
        refine (inFrame_homeward (method_homeward id c) fun h => h.2 code rfl).bind
          (fun v => ?_) fun _ i _ _ => ⟨i, rfl⟩
        refine (stop_step_homeward.mono (fun _ _ _ => rfl) fun _ _ h => h).bind (fun _ => ?_)
          fun _ i _ _ => ⟨i, rfl⟩
        exact (unbound_pure v).mono (fun _ h => h.free) fun _ _ h => h

theorem callAll_unbound {calls : List ProgramCall} (hnames : ∀ c ∈ calls, c.name ≠ "run")
    (v : Value) : (callAll calls v).Unbound given home 2 := by
  induction calls generalizing v with
  | nil => exact unbound_pure v
  | cons c rest ih =>
      exact (call_unbound v (hnames c List.mem_cons_self)).bind fun v =>
        ih (fun c' hc' => hnames c' (List.mem_cons_of_mem _ hc')) v

theorem evaluate_unbound {s : Repetition} (hnames : ∀ c ∈ s.calls, c.name ≠ "run") :
    (evaluate s).Unbound given home 2 := by
  unfold evaluate
  split
  · exact (unbound_read _).bind fun _ => callAll_unbound hnames _
  · exact (call_unbound _ (by decide)).bind fun _ => callAll_unbound hnames _

end Code

/-! ## The statement -/

open Code

theorem noteEvaluation_still (vm : Vm) (r : Except Interruption Value) :
    vm.Still (vm.noteEvaluation r) :=
  ⟨Nat.le_refl _, fun _ h => h, fun _ h => h.of_eq (Nat.le_refl _) rfl, rfl, rfl, rfl, rfl, rfl,
    rfl, rfl, rfl⟩

/-- Nothing is due, but the thread may be suspended. -/
theorem awaitResume_unbound : awaitResume.Unbound True home n := by
  intro ok bound vm _ hvm
  have hrest : ok → vm.Ran n vm ∧ vm.Stands home ∧ vm.frames.length = n :=
    fun hok => ⟨.refl n vm, (hvm hok).1.toStands, (hvm hok).1.depth⟩
  have hended : ∀ r : Except Interruption Unit,
      Run.Homeward home n BoundByThrow (.ended r vm) ok bound vm := fun r => by
    refine ⟨.refl vm, fun hok => ?_⟩
    obtain ⟨hran, hstands, hdepth⟩ := hrest hok
    exact ⟨hran, hstands, hdepth, fun hbound => absurd hbound (hvm hok).2⟩
  by_cases hdead : vm.dead = true
  · have hrun : awaitResume vm = .ended (.error .exited) vm := if_pos hdead
    rw [ExceptT.run, hrun]
    exact hended _
  by_cases hsuspended : vm.suspended = true
  · rw [ExceptT.run, awaitResume_of_suspended hdead hsuspended]
    refine ⟨.refl vm, hsuspended, none, fun hok => ⟨⟨vm, .refl n vm, ?_⟩, (hvm hok).1.toStands⟩,
      fun bound' vm₁ => ⟨.refl vm₁, fun hok => ?_⟩⟩
    · refine ⟨⟨vm.requests, ?_⟩, fun _ h => h, nofun, nofun, nofun,
        fun hbound => absurd hbound (hvm hok).2⟩
      rw [Option.toList_none, List.append_nil, ← hsuspended]
    · obtain ⟨hok, hstands, hplaces, hbound⟩ := hok
      refine ⟨.refl n vm₁, hstands, (length_of_places hplaces).trans (hvm hok).1.depth,
        fun hb => ?_⟩
      obtain ⟨-, e, he, -⟩ := hbound hb
      cases he
  · have hrun : awaitResume vm = .ended (.ok ()) vm := by
      unfold awaitResume
      rw [if_neg hdead, if_pos hsuspended]
    rw [ExceptT.run, hrun]
    exact hended _

/-- The thread goes through all evaluations of the statement. -/
theorem Repetition.loop_homeward {s : Repetition} (hnames : ∀ c ∈ s.calls, c.name ≠ "run")
    (runs : Nat) {ok bound : Prop} {vm : Vm} (hvm : ok → vm.StepSet home 2 bound ∧ ¬bound) :
    Run.Homeward home 2 (fun _ _ => True) (s.loop runs vm) ok bound vm := by
  have hended : ∀ {ok bound : Prop} {vm : Vm}, (ok → vm.StepSet home 2 bound) →
      Run.Homeward home 2 (fun _ _ => True) (.ended () vm) ok bound vm := fun hvm =>
    ⟨.refl _, fun hok => ⟨.refl 2 _, (hvm hok).toStands, (hvm hok).depth, trivial⟩⟩
  induction runs generalizing ok bound vm with
  | zero => exact hended fun hok => (hvm hok).1
  | succ runs ih =>
      refine Run.Homeward.bind (awaitResume_unbound ok bound vm (fun _ => trivial) hvm)
        (fun hok => (hvm hok).1.armed) fun ok₁ bound₁ r vm₁ _ hvm₁ => ?_
      cases r with
      | error i => exact hended fun hok => (hvm₁ hok).1
      | ok u =>
          have hfree₁ : ok₁ → vm₁.StepSet home 2 bound₁ ∧ ¬bound₁ :=
            fun hok => ⟨(hvm₁ hok).1, (hvm₁ hok).2.free⟩
          have heval : (evaluate s).Unbound True home 2 := evaluate_unbound hnames
          refine Run.Homeward.bind (heval ok₁ bound₁ vm₁ (fun _ => trivial) hfree₁)
            (fun hok => (hvm₁ hok).1.armed) fun ok₂ bound₂ r vm₂ _ hvm₂ => ?_
          have hnote : Code.Homeward True home 2 (fun bound => BoundByThrow bound r)
              (fun bound _ => BoundByThrow bound r)
              (use (modify (·.noteEvaluation r))) :=
            homeward_use (Vm.keeps_modify fun _ => .of_eq rfl rfl rfl rfl id)
              (Vm.keeps_modify fun vm => noteEvaluation_still vm r) fun _ _ h => h
          refine Run.Homeward.bind (hnote ok₂ bound₂ vm₂ (fun _ => trivial) hvm₂)
            (fun hok => (hvm₂ hok).1.armed) fun ok₃ bound₃ u vm₃ _ hvm₃ => ?_
          split
          · exact ih fun hok => ⟨(hvm₃ hok).1, (hvm₃ hok).2.free⟩
          · exact hended fun hok => (hvm₃ hok).1
          · have hstop : (stop (stepEvent .returned)).Homeward True home 2
                (fun bound => bound → 2 = 2) BoundByThrow := stop_step_homeward
            refine Run.Homeward.bind (hstop ok₃ bound₃ vm₃ (fun _ => trivial)
              fun hok => ⟨(hvm₃ hok).1, fun _ => rfl⟩) (fun hok => (hvm₃ hok).1.armed)
              fun ok₄ bound₄ r vm₄ _ hvm₄ => ?_
            cases r with
            | error i => exact hended fun hok => (hvm₄ hok).1
            | ok u => exact ih fun hok => ⟨(hvm₄ hok).1, (hvm₄ hok).2.free⟩

end StreamTrace
