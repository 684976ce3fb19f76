import StreamTrace.Proofs.Machine.Commands

/-!
# What a running program keeps

No invocation gets stuck, no request comes up, a dead machine stays dead, and a thread that nobody
watches does not stop. `Continues` says so of two states of the machine. It holds across whatever
the program does, wherever it stops and whatever is done to the machine in the meantime, and across
the commands of a debugger whose invocations meet no request.
-/

namespace StreamTrace

/-! ## Machines that go on -/

namespace Vm

/-- The machine has gone on from `vm` to `vm'`. -/
structure Continues (vm vm' : Vm) : Prop where
  stalled : vm'.stalled = vm.stalled
  requests : ∀ r ∈ vm'.requests, r ∈ vm.requests
  fits : vm.classes.Fits → vm'.classes.Fits
  dead : vm.dead = true → vm'.dead = true
  awake : vm.requests = [] → vm.suspended = false → vm'.suspended = false

namespace Continues

variable {vm vm' vm'' : Vm}

theorem refl (vm : Vm) : vm.Continues vm := ⟨rfl, fun _ h => h, id, id, fun _ h => h⟩

theorem unasked (h : vm.Continues vm') (hnone : vm.requests = []) : vm'.requests = [] :=
  List.eq_nil_iff_forall_not_mem.mpr fun r hr => by
    have hmem := h.requests r hr
    rw [hnone] at hmem
    cases hmem

theorem trans (h : vm.Continues vm') (h' : vm'.Continues vm'') : vm.Continues vm'' :=
  ⟨h'.stalled.trans h.stalled, fun r hr => h.requests r (h'.requests r hr),
    fun hf => h'.fits (h.fits hf), fun hd => h'.dead (h.dead hd),
    fun hr hs => h'.awake (h.unasked hr) (h.awake hr hs)⟩

/-- Nothing has changed that matters here. -/
theorem of_eq (hstalled : vm'.stalled = vm.stalled) (hrequests : vm'.requests = vm.requests)
    (hclasses : vm'.classes = vm.classes) (hdead : vm'.dead = vm.dead)
    (hawake : vm.suspended = false → vm'.suspended = false) : vm.Continues vm' :=
  ⟨hstalled, fun _ h => hrequests ▸ h, fun h => hclasses ▸ h, fun h => hdead.trans h,
    fun _ h => hawake h⟩

end Continues

instance : Service Continues where
  refl := .refl
  trans := .trans
  quiet := True
  alloc _ _ := .of_eq rfl rfl rfl rfl id
  change _ _ _ _ := .of_eq rfl rfl rfl rfl id
  load _ _ _ hc := ⟨rfl, fun _ h => h, fun h => h.append hc.fits, id, fun _ h => h⟩
  stand _ _ _ :=
    ⟨rfl, fun _ h => h, fun h => h.update _ (fun _ => rfl) fun _ => rfl, id, fun _ h => h⟩
  note _ _ _ := .of_eq rfl rfl rfl rfl id
  pin _ _ := .of_eq rfl rfl rfl rfl id
  take _ _ h := ⟨rfl, h, id, id, fun _ h => h⟩
  stall _ _ h := absurd trivial h
  calm _ h := h.requests

/-- Every command but one that sets a request lets the machine go on, as long as an invocation
meets no request. -/
theorem answer_continues {vm : Vm} {c : Command} (hset : c.setsRequest = false)
    (hrun : c.isInvocation = true → vm.dead = false →
      vm.classes.Fits ∧ vm.Unwatched ∧ (c.findsClass = true → vm.Unguarded)) :
    vm.Continues (vm.answer c).2 := by
  cases htouch : c.touchesThread with
  | false => exact (respond_yields hset htouch fun _ => hrun).1
  | true =>
      have hresume : vm.Continues (if vm.dead then
          ((.error .connectionClosed, vm) : Except JdwpError Unit × Vm)
          else (.ok (), { vm with suspended := false })).2 := by
        split
        · exact .refl vm
        · exact .of_eq rfl rfl rfl rfl fun _ => rfl
      cases c with
      | setSlots thread frame values =>
          obtain ⟨frames, writes, hvm, -⟩ := answer_setSlots vm thread frame values
          rw [hvm]
          exact .of_eq rfl rfl rfl rfl id
      | forceReturn thread v =>
          rcases answer_forceReturn vm thread v with hvm | hvm
          · rw [hvm]
            exact .refl vm
          · rw [hvm]
            exact .of_eq rfl rfl rfl rfl id
      | resumeVm =>
          rw [answer_resumeVm]
          exact hresume
      | resumeThread thread =>
          by_cases hthread : thread = mainThread
          · rw [hthread, answer_resumeThread]
            exact hresume
          · rw [answer_resumeThread_of_ne vm hthread]
            exact .refl vm
      | _ => cases htouch

end Vm

namespace StreamProgram

open Vm

theorem pushFrame_keeps (type : TypeId) (method : MethodId) (index : UInt64)
    (slots : Table Nat Value) : Keeps Continues (pushFrame type method index slots) :=
  fun _ => .of_eq rfl rfl rfl rfl id

theorem prepare_keeps (p : StreamProgram) : Keeps Continues (prepare p) := by
  unfold prepare
  refine (prepareCalls_keeps _ _).bind fun _ => (prepareSource_keeps p).bind fun _ => ?_
  refine keeps_get.bind fun _ => (alloc_keeps _ _).bind fun _ => ?_
  refine Keeps.bind (keeps_modify fun _ => ?_) fun _ => ?_
  · exact ⟨rfl, fun _ h => h, fun h => h.update _ (fun _ => rfl) fun _ => rfl, id, fun _ h => h⟩
  · exact (pushFrame_keeps _ _ _ _).bind fun _ =>
      (pushFrame_keeps _ _ _ _).bind fun _ => keeps_pure _

end StreamProgram

/-! ## Runs -/

variable {α β : Type}

/-- Up to where the code stops, which takes that the thread is suspended, the machine goes on from
`vm`, and so it does from any machine with which the code is resumed. -/
def Run.Keeps (vm : Vm) : Run α → Prop
  | .ended _ vm' => vm.Continues vm'
  | .waiting vm' resume =>
    vm.Continues vm' ∧ vm'.suspended = true ∧ ∀ vm₁, (resume vm₁).Keeps vm₁

theorem Run.Keeps.after {r : Run α} {vm vm' : Vm} (hc : vm.Continues vm') (h : r.Keeps vm') :
    r.Keeps vm := by
  cases r with
  | ended a vm'' => exact hc.trans h
  | waiting vm'' resume => exact ⟨hc.trans h.1, h.2⟩

/-! ## Death -/

namespace Vm

theorem kill_continues (vm : Vm) : vm.Continues vm.kill := by
  unfold kill
  split
  · exact .refl vm
  · exact ⟨rfl, fun _ h => h, id, fun _ => rfl, fun _ h => h⟩

end Vm

end StreamTrace
