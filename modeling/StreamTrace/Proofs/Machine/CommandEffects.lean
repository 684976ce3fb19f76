import StreamTrace.Proofs.Debugger.Ledger
import StreamTrace.Proofs.Machine.ThreadPosition

/-!
# What a command changes

Commands of a debugger leave the thread where it is. What else they change of a machine depends on
what they are about: `Answered` lists that once, and what a command leaves alone is read off it.
`Performed` adds that a command may be kept from the machine and refused.
-/

namespace StreamTrace

namespace Command

/-- Whether the command is about event requests. -/
def asks : Command → Bool
  | setRequest _ _ _ => true
  | clearRequest _ _ => true
  | _ => false

/-- Whether the command writes into a frame. -/
def writes : Command → Bool
  | setSlots _ _ _ => true
  | _ => false

end Command

namespace Vm

open VmCommand

variable {home : Home} {vm vm' : Vm} {c : Command}

/-! ## Where the thread is -/

/-- The thread stands where it stood, whatever its frames hold. -/
theorem Stands.of_places (h : vm.Stands home) (hplaces : vm'.places = vm.places)
    (hnext : vm.nextId ≤ vm'.nextId) (hhome : vm'.HasHome home) : vm'.Stands home := by
  refine ⟨hhome, ids_of_places hplaces ▸ h.ids, fun f hf => ?_, fun k f hf hk => ?_⟩
  · have hid : f.id ∈ vm.frames.map (·.id) := ids_of_places hplaces ▸ List.mem_map_of_mem hf
    obtain ⟨f', hf', heq⟩ := List.mem_map.mp hid
    exact heq ▸ Nat.le_trans (h.given f' hf') hnext
  · have hlocation : (vm.frames.map (·.location)).reverse[k]? = some f.location := by
      rw [← locations_of_places hplaces, ← List.map_reverse, List.getElem?_map, hf]
      rfl
    rw [← List.map_reverse, List.getElem?_map, Option.map_eq_some_iff] at hlocation
    obtain ⟨f', hf', heq⟩ := hlocation
    exact heq ▸ h.once k f' hf' hk

theorem places_of_written {frame : FrameId} {values : List (Nat × Value)} {frames : List Frame}
    (h : List.Forall₂ (FrameWritten frame values) vm.frames frames) (frameWrites) :
    places { vm with frames, frameWrites } = vm.places := by
  have hmap : ∀ {l l' : List Frame}, List.Forall₂ (FrameWritten frame values) l l' →
      l'.map (fun f => (f.id, f.location)) = l.map fun f => (f.id, f.location) := by
    intro l l' h
    induction h with
    | nil => rfl
    | cons hf _ ih => rw [List.map_cons, List.map_cons, ih, hf.id, hf.location]
  exact hmap h

/-- No command has moved the thread, made it raise an event or lost an object. -/
structure InPlace (vm vm' : Vm) : Prop where
  next : vm.nextId ≤ vm'.nextId
  home : ∀ home, vm.HasHome home → vm'.HasHome home
  places : vm'.places = vm.places
  objects : ∀ id, (vm.lookup? id).isSome → (vm'.lookup? id).isSome
  alive : vm'.dead = vm.dead
  outbox : vm'.outbox = vm.outbox

theorem InPlace.refl (vm : Vm) : vm.InPlace vm :=
  ⟨Nat.le_refl _, fun _ h => h, rfl, fun _ h => h, rfl, rfl⟩

theorem InPlace.trans {vm'' : Vm} (h : vm.InPlace vm') (h' : vm'.InPlace vm'') : vm.InPlace vm'' :=
  ⟨Nat.le_trans h.next h'.next, fun home hhome => h'.home home (h.home home hhome),
    h'.places.trans h.places, fun id hid => h'.objects id (h.objects id hid),
    h'.alive.trans h.alive, h'.outbox.trans h.outbox⟩

theorem InPlace.stands (h : vm.InPlace vm') (hs : vm.Stands home) : vm'.Stands home :=
  hs.of_places h.places h.next (h.home home hs.toHasHome)

theorem InPlace.length (h : vm.InPlace vm') : vm'.frames.length = vm.frames.length :=
  length_of_places h.places

theorem IsAt.of_places {e : Event} (he : vm.IsAt e) (hplaces : vm'.places = vm.places) :
    vm'.IsAt e := by
  unfold IsAt at he ⊢
  rw [hplaces]
  exact he

theorem InPlace.framesFrom (h : vm.InPlace vm') (start length : Int) :
    vm'.framesFrom start length = vm.framesFrom start length := by
  have hall : ∀ vm : Vm, (vm.frames.drop start.toNat).map
      (fun f => ({ frameId := f.id, location := f.location } : FrameInfo)) =
      (vm.places.drop start.toNat).map fun p => { frameId := p.1, location := p.2 } := fun vm => by
    rw [Vm.places, ← List.map_drop, List.map_map]
    rfl
  unfold Vm.framesFrom
  rw [hall, hall, h.places]

/-! ## Answers -/

/-- What becomes of a machine that answers a command. -/
inductive Answered (vm : Vm) : Command → Vm → Prop where
  | still {c : Command} {vm' : Vm} (h : vm.Still vm') : Answered vm c vm'
  | disabled (object : ObjectId) (pins : Table ObjectId Nat) :
      Answered vm (.disableCollection object) { vm with pins }
  | enabled (object : ObjectId) (pins : Table ObjectId Nat) :
      Answered vm (.enableCollection object) { vm with pins }
  | asked (kind policy : UInt8) (modifiers : List EventModifier) (requests : List InstalledRequest)
      (nextRequest : RequestId) (methodRequestsSet maxMethodRequests : Nat) :
      Answered vm (.setRequest kind policy modifiers)
        { vm with requests, nextRequest, methodRequestsSet, maxMethodRequests }
  | cleared (kind : UInt8) (id : RequestId) (requests : List InstalledRequest) :
      Answered vm (.clearRequest kind id) { vm with requests }
  | forced (thread : ThreadId) (v : Value) :
      Answered vm (.forceReturn thread v) { vm with forcedReturn := some v }
  | resumed {c : Command} (h : c.resumes = true) : Answered vm c { vm with suspended := false }
  | written (thread : ThreadId) (frame : FrameId) (values : List (Nat × Value))
      (frames : List Frame) (noted : List (FrameId × Nat × Value))
      (only : ∀ x ∈ noted, x.1 = frame)
      (h : List.Forall₂ (FrameWritten frame values) vm.frames frames) :
      Answered vm (.setSlots thread frame values)
        { vm with frames, frameWrites := vm.frameWrites ++ noted }

theorem run_getEntry_bind {α : Type} (f : TypedObject → VmCommand α) (vm : Vm) (id : ObjectId) :
    (getEntry id >>= f).run.run vm =
      match vm.lookup? id with
      | some e => (f e).run.run vm
      | none => (.error (.vm ErrorCode.invalidObject), vm) := by
  show (ExceptT.bindCont f ((getEntry id).run.run vm).1).run ((getEntry id).run.run vm).2 = _
  have hrun : (getEntry id).run.run vm = match vm.lookup? id with
      | some e => (.ok e, vm)
      | none => (.error (.vm ErrorCode.invalidObject), vm) := by
    show (match vm.lookup? id with
      | some e => (pure e : VmCommand TypedObject)
      | none => refuse ErrorCode.invalidObject).run.run vm = _
    split <;> rfl
  rw [hrun]
  split <;> rfl

theorem answer_disableCollection (vm : Vm) (object : ObjectId) :
    vm.answer (.disableCollection object) =
      if vm.dead then (.error .connectionClosed, vm)
      else match vm.lookup? object with
        | some _ => (.ok (),
            { vm with pins := vm.pins.set object ((vm.pins.get? object).getD 0 + 1) })
        | none => (.error (.vm ErrorCode.invalidObject), vm) := by
  refine (run_alive_bind _ vm).trans ?_
  split
  · rfl
  · exact run_getEntry_bind _ vm object

theorem answer_enableCollection (vm : Vm) (object : ObjectId) :
    vm.answer (.enableCollection object) =
      if vm.dead then (.error .connectionClosed, vm)
      else match vm.lookup? object with
        | some _ => (.ok (), match vm.pins.get? object with
            | none => vm
            | some n =>
              if n ≤ 1 then { vm with pins := vm.pins.erase object }
              else { vm with pins := vm.pins.set object (n - 1) })
        | none => (.error (.vm ErrorCode.invalidObject), vm) := by
  refine (run_alive_bind _ vm).trans ?_
  split
  · rfl
  · exact run_getEntry_bind _ vm object

theorem installRequest_state (vm : Vm) (kind : UInt8) (modifiers : List EventModifier) :
    ∃ methodRequestsSet maxMethodRequests, ((installRequest kind modifiers).run vm).2 =
      { vm with
        requests := vm.requests ++
          [{ id := vm.nextRequest, kind, modifiers, depth := vm.frames.length }]
        nextRequest := vm.nextRequest + 1
        methodRequestsSet
        maxMethodRequests } := by
  unfold installRequest
  rw [run_modifyGet]
  dsimp only
  split
  · exact ⟨_, _, rfl⟩
  · exact ⟨_, _, rfl⟩

theorem answered (vm : Vm) (c : Command) : vm.Answered c (vm.answer c).2 := by
  -- A chore changes nothing that is told apart here; each of the other commands has its own case.
  cases hchore : c.isChore with
  | true => exact .still (answer_still vm hchore)
  | false =>
      cases c with
      | disableCollection object =>
          rw [answer_disableCollection]
          split
          · exact .still (.refl vm)
          · split
            · exact .disabled object _
            · exact .still (.refl vm)
      | enableCollection object =>
          rw [answer_enableCollection]
          split
          · exact .still (.refl vm)
          · split
            · dsimp only
              split
              · exact .still (.refl vm)
              · split
                · exact .enabled object _
                · exact .enabled object _
            · exact .still (.refl vm)
      | setRequest kind policy modifiers =>
          rw [answer_setRequest]
          split
          · exact .still (.refl vm)
          · obtain ⟨n, most, hvm⟩ := installRequest_state vm kind modifiers
            rw [hvm]
            exact .asked ..
      | clearRequest kind id =>
          rw [answer_clearRequest]
          split
          · exact .still (.refl vm)
          · exact .cleared kind id _
      | setSlots thread frame values =>
          obtain ⟨frames, noted, hvm, only, h⟩ := answer_setSlots vm thread frame values
          rw [hvm]
          exact .written thread frame values frames noted only h
      | forceReturn thread v =>
          rcases answer_forceReturn vm thread v with hvm | hvm
          · rw [hvm]
            exact .still (.refl vm)
          · rw [hvm]
            exact .forced thread v
      | resumeVm =>
          rw [answer_resumeVm]
          split
          · exact .still (.refl vm)
          · exact .resumed rfl
      | resumeThread thread =>
          by_cases hthread : thread = mainThread
          · rw [hthread, answer_resumeThread]
            split
            · exact .still (.refl vm)
            · exact .resumed rfl
          · rw [answer_resumeThread_of_ne vm hthread]
            exact .still (.refl vm)
      | _ => cases hchore

/-! ### What is left alone -/

theorem Answered.inPlace (h : vm.Answered c vm') : vm.InPlace vm' := by
  cases h with
  | still h =>
      refine ⟨h.next, h.home, ?_, h.objects, h.alive, h.outbox⟩
      unfold Vm.places
      rw [h.frames]
  | written thread frame values frames noted only h =>
      exact ⟨Nat.le_refl _, fun _ hhome => hhome.of_eq (Nat.le_refl _) rfl,
        places_of_written h _, fun _ h => h, rfl, rfl⟩
  | _ =>
      exact ⟨Nat.le_refl _, fun _ hhome => hhome.of_eq (Nat.le_refl _) rfl, rfl, fun _ h => h, rfl,
        rfl⟩

theorem Answered.asked_of_ne (h : vm.Answered c vm') (hc : c.asks = false) :
    vm'.requests = vm.requests ∧ vm'.nextRequest = vm.nextRequest := by
  cases h with
  | still h => exact ⟨h.asked, h.numbers⟩
  | asked => cases hc
  | cleared => cases hc
  | _ => exact ⟨rfl, rfl⟩

theorem Answered.pins_of_ne (h : vm.Answered c vm') (hpin : c.pins = false)
    (hrelease : c.releases = false) : vm'.pins = vm.pins := by
  cases h with
  | still h => exact h.pins
  | disabled => cases hpin
  | enabled => cases hrelease
  | _ => rfl

theorem Answered.suspended_of_ne (h : vm.Answered c vm') (hc : c.resumes = false) :
    vm'.suspended = vm.suspended := by
  cases h with
  | still h => exact h.suspended
  | resumed h =>
      rw [hc] at h
      cases h
  | _ => rfl

theorem Answered.frames_of_ne (h : vm.Answered c vm') (hc : c.writes = false) :
    vm'.frames = vm.frames ∧ vm'.frameWrites = vm.frameWrites := by
  cases h with
  | still h => exact ⟨h.frames, h.written⟩
  | written => cases hc
  | _ => exact ⟨rfl, rfl⟩

/-! ### What is read -/

theorem run_stopped (thread : ThreadId) (vm : Vm) :
    (stopped thread).run.run vm =
      if thread ≠ mainThread then (.error (.vm ErrorCode.invalidThread), vm)
      else if vm.dead then (.error .connectionClosed, vm)
      else if vm.suspended then (.ok (), vm)
      else (.error (.vm ErrorCode.threadNotSuspended), vm) := by
  by_cases hthread : thread = mainThread
  · subst hthread
    show (alive >>= fun _ => (do
      if ¬(← get).suspended then refuse ErrorCode.threadNotSuspended :
        VmCommand Unit)).run.run vm = _
    rw [run_alive_bind, if_neg (not_not_intro rfl)]
    split
    · rfl
    · show (if ¬vm.suspended = true then (refuse ErrorCode.threadNotSuspended : VmCommand Unit)
        else pure ()).run.run vm = _
      cases vm.suspended <;> rfl
  · rw [if_pos hthread]
    unfold stopped
    rw [if_pos hthread]
    rfl

/-- What needs the thread to be stopped is done if it is. -/
theorem run_stopped_bind {α : Type} (thread : ThreadId) (f : Unit → VmCommand α) (vm : Vm) :
    (∃ e, (stopped thread >>= f).run.run vm = (.error e, vm)) ∨
      vm.suspended = true ∧ (stopped thread >>= f).run.run vm = (f ()).run.run vm := by
  have hbind : (stopped thread >>= f).run.run vm =
      (ExceptT.bindCont f ((stopped thread).run.run vm).1).run
        ((stopped thread).run.run vm).2 := rfl
  rw [hbind, run_stopped]
  split
  · exact .inl ⟨_, rfl⟩
  · split
    · exact .inl ⟨_, rfl⟩
    · split
      · exact .inr ⟨‹_›, rfl⟩
      · exact .inl ⟨_, rfl⟩

/-- The frames are counted only while the thread is stopped. -/
theorem answer_frameCount {thread : ThreadId} {n : Int}
    (h : (vm.answer (.frameCount thread)).1 = .ok n) :
    vm.suspended = true ∧ n = vm.frames.length := by
  rcases run_stopped_bind thread (fun _ => do return ((← get).frames.length : Int)) vm with
    ⟨e, he⟩ | ⟨hsuspended, hrun⟩
  · cases (congrArg Prod.fst he).symm.trans h
  · cases (congrArg Prod.fst hrun).symm.trans h
    exact ⟨hsuspended, rfl⟩

/-- So are they looked at. -/
theorem answer_frames {thread : ThreadId} {start length : Int} {frames : List FrameInfo}
    (h : (vm.answer (.frames thread start length)).1 = .ok frames) :
    vm.suspended = true ∧ frames = vm.framesFrom start length := by
  rcases run_stopped_bind thread (fun _ => do return (← get).framesFrom start length) vm with
    ⟨e, he⟩ | ⟨hsuspended, hrun⟩
  · cases (congrArg Prod.fst he).symm.trans h
  · cases (congrArg Prod.fst hrun).symm.trans h
    exact ⟨hsuspended, rfl⟩

/-! ## Actions -/

/-- The machine answers a command, or the command is kept from it and refused. Other actions do not
concern it. -/
inductive Performed (vm : Vm) : (a : Action) → a.Reply → Vm → Prop where
  | served (c : Command) : Performed vm (.command c) (vm.answer c).1 (vm.answer c).2
  | refused (c : Command) (e : JdwpError) : Performed vm (.command c) (.error e) vm
  | beside {a : Action} (r : a.Reply) (h : ∀ c, a ≠ .command c) : Performed vm a r vm

variable {a : Action} {r : a.Reply}

theorem Performed.inPlace (h : vm.Performed a r vm') : vm.InPlace vm' := by
  cases h with
  | served c => exact (answered vm c).inPlace
  | refused c e => exact .refl vm
  | beside r h => exact .refl vm

/-- Only what asks for events changes the requests. -/
theorem Performed.requests (h : vm.Performed a r vm') (ha : ∀ c, a = .command c → c.asks = false) :
    vm'.requests = vm.requests ∧ vm'.nextRequest = vm.nextRequest := by
  cases h with
  | served c => exact (answered vm c).asked_of_ne (ha c rfl)
  | refused c e => exact ⟨rfl, rfl⟩
  | beside r h => exact ⟨rfl, rfl⟩

theorem Performed.pins (h : vm.Performed a r vm')
    (ha : ∀ c, a = .command c → c.pins = false ∧ c.releases = false) : vm'.pins = vm.pins := by
  cases h with
  | served c => exact (answered vm c).pins_of_ne (ha c rfl).1 (ha c rfl).2
  | refused c e => rfl
  | beside r h => rfl

theorem Performed.frames (h : vm.Performed a r vm') (ha : ∀ c, a = .command c → c.writes = false) :
    vm'.frames = vm.frames ∧ vm'.frameWrites = vm.frameWrites := by
  cases h with
  | served c => exact (answered vm c).frames_of_ne (ha c rfl)
  | refused c e => exact ⟨rfl, rfl⟩
  | beside r h => exact ⟨rfl, rfl⟩

/-- The thread is resumed if the command to do so succeeds, and else not. -/
theorem Performed.suspended (h : vm.Performed a r vm') :
    vm'.suspended = if Moment.resumes (.did a r) then false else vm.suspended := by
  cases h with
  | refused c e => cases c <;> rfl
  | beside r h =>
      cases a with
      | command c => exact absurd rfl (h c)
      | _ => rfl
  | served c =>
      have hresume : ∀ vm' : Except JdwpError Unit × Vm,
          vm' = (if vm.dead then (.error .connectionClosed, vm)
            else (.ok (), { vm with suspended := false })) →
            vm'.2.suspended = if vm'.1.isOk then false else vm.suspended := by
        rintro vm' rfl
        split <;> rfl
      cases hc : c.resumes with
      | false =>
          rw [(answered vm c).suspended_of_ne hc, if_neg]
          cases c <;> simp [Moment.resumes, Command.resumes] at hc ⊢
      | true =>
          cases c with
          | resumeVm => exact hresume _ (answer_resumeVm vm)
          | resumeThread thread =>
              by_cases hthread : thread = mainThread
              · subst hthread
                exact hresume _ (answer_resumeThread vm)
              · have hrefused := answer_resumeThread_of_ne vm hthread
                show (vm.answer (.resumeThread thread)).2.suspended =
                  if (vm.answer (.resumeThread thread)).1.isOk then false else vm.suspended
                rw [hrefused]
                rfl
          | _ => cases hc

/-- What the frames were counted to be, they are. -/
theorem Performed.counted {t : ThreadId} {n : Int}
    (h : vm.Performed (.command (.frameCount t)) (.ok n : Except JdwpError Int) vm') :
    vm.suspended = true ∧ n = vm.frames.length := by
  generalize hr : (.ok n : Except JdwpError Int) = r at h
  cases h with
  | served => exact answer_frameCount hr.symm
  | refused => cases hr
  | beside r h => exact absurd rfl (h _)

theorem Performed.looked {t : ThreadId} {start length : Int} {frames : List FrameInfo}
    (h : vm.Performed (.command (.frames t start length))
      (.ok frames : Except JdwpError (List FrameInfo)) vm') :
    vm.suspended = true ∧ frames = vm.framesFrom start length := by
  generalize hr : (.ok frames : Except JdwpError (List FrameInfo)) = r at h
  cases h with
  | served => exact answer_frames hr.symm
  | refused => cases hr
  | beside r h => exact absurd rfl (h _)

/-- A request that is set gets the next number. -/
theorem Performed.set {kind policy : UInt8} {modifiers : List EventModifier} {id : RequestId}
    (h : vm.Performed (.command (.setRequest kind policy modifiers))
      (.ok id : Except JdwpError RequestId) vm') :
    id = vm.nextRequest ∧ vm'.nextRequest = vm.nextRequest + 1 ∧
      vm'.requests = vm.requests ++ [{ id, kind, modifiers, depth := vm.frames.length }] := by
  generalize hr : (.ok id : Except JdwpError RequestId) = r at h
  cases h with
  | refused => cases hr
  | beside r h => exact absurd rfl (h _)
  | served =>
      have hanswer := answer_setRequest vm kind policy modifiers
      rw [hanswer] at hr ⊢
      split at hr
      · cases hr
      · rename_i hdead
        obtain ⟨n, most, hvm⟩ := installRequest_state vm kind modifiers
        obtain rfl : id = vm.nextRequest := by
          rw [← installRequest_fst vm kind modifiers]
          exact Except.ok.inj hr
        rw [if_neg hdead, hvm]
        exact ⟨rfl, rfl, rfl⟩

/-- A request that is refused is not set. -/
theorem Performed.unset {kind policy : UInt8} {modifiers : List EventModifier} {e : JdwpError}
    (h : vm.Performed (.command (.setRequest kind policy modifiers))
      (.error e : Except JdwpError RequestId) vm') : vm' = vm := by
  generalize hr : (.error e : Except JdwpError RequestId) = r at h
  cases h with
  | refused => rfl
  | beside r h => exact absurd rfl (h _)
  | served =>
      have hanswer := answer_setRequest vm kind policy modifiers
      rw [hanswer] at hr ⊢
      split at hr
      · rw [if_pos ‹_›]
      · cases hr

/-- A request that is to be cleared is gone, or the command was refused. -/
theorem Performed.clear {kind : UInt8} {id : RequestId} {r : Except JdwpError Unit}
    (h : vm.Performed (.command (.clearRequest kind id)) r vm') :
    vm'.nextRequest = vm.nextRequest ∧
      vm'.requests = if r.isOk then vm.requests.filter fun r => !(r.kind == kind && r.id == id)
        else vm.requests := by
  generalize hr : r = r' at h
  cases h with
  | refused e =>
      subst hr
      exact ⟨rfl, rfl⟩
  | beside r h => exact absurd rfl (h _)
  | served =>
      have hanswer := answer_clearRequest vm kind id
      rw [hanswer] at hr ⊢
      subst hr
      split <;> exact ⟨rfl, rfl⟩

end Vm

end StreamTrace
