import Mathlib.Algebra.Group.Nat.Defs
import StreamTrace.Debugger.Bridge
import StreamTrace.Proofs.Debugger.Target
import StreamTrace.Proofs.Machine.ElementValues

/-!
# Routines that succeed

What the bridge does on a stopped machine that is equipped. `Bridge.Achieves` says of a routine
that it does not fail, that it only extends the machine, and what comes of it; the bridge is ready
for more then, since all that it has learnt about classes is still true.
-/

namespace StreamTrace

/-- The machine as it is: a command gets the machine's own answer. -/
def Target.machine : Target Vm where
  asks _ a :=
    match a with
    | .command c => c.touchesThread = false
    | _ => False
  answers vm a r vm' :=
    match a, r with
    | .command c, r => (r, vm') = vm.answer c
    | _, _ => False

/-- The name of a class in Java source, or its signature when it has none. -/
def ClassDef.typeName (c : ClassDef) : String := (signatureToTypeName? c.signature).getD c.signature

theorem ClassDef.Stays.typeName {c c' : ClassDef} (h : c.Stays c') : c'.typeName = c.typeName := by
  unfold ClassDef.typeName
  rw [h.signature]

/-- The bridge is open, and what it has learnt about classes is true. -/
structure BridgeState.Fits (s : BridgeState) (vm : Vm) : Prop where
  unlocked : s.storage.released = false
  loader : ∀ l, s.loader = some l → l = vm.appLoader
  types : ∀ name type, s.types.get? name = some type →
    ∃ c ∈ vm.classes, c.id = type ∧ c.signature = typeNameToSignature name
  typeNames : ∀ type name, s.typeNames.get? type = some name →
    ∃ c ∈ vm.classes, c.id = type ∧ name = c.typeName
  methods : ∀ type infos, s.methods.get? type = some infos →
    ∃ c ∈ vm.classes, c.id = type ∧ infos = c.methodInfos

/-- A bridge that has learnt nothing yet. -/
theorem BridgeState.fits_empty (vm : Vm) : ({} : BridgeState).Fits vm where
  unlocked := rfl
  loader := nofun
  types := nofun
  typeNames := nofun
  methods := nofun

theorem BridgeState.Fits.extended {s : BridgeState} {vm vm' : Vm} (h : s.Fits vm)
    (ht : vm.Extended vm') : s.Fits vm' where
  unlocked := h.unlocked
  loader l hl := (h.loader l hl).trans ht.appLoader.symm
  types name type hname := by
    obtain ⟨c, hc, hid, hsignature⟩ := h.types name type hname
    obtain ⟨c', hc', hstays⟩ := ht.classes c hc
    exact ⟨c', hc', hstays.id.trans hid, hstays.signature.trans hsignature⟩
  typeNames type name hname := by
    obtain ⟨c, hc, hid, hshown⟩ := h.typeNames type name hname
    obtain ⟨c', hc', hstays⟩ := ht.classes c hc
    exact ⟨c', hc', hstays.id.trans hid, hshown.trans hstays.typeName.symm⟩
  methods type infos hinfos := by
    obtain ⟨c, hc, hid, hlisted⟩ := h.methods type infos hinfos
    obtain ⟨c', hc', hstays⟩ := ht.classes c hc
    exact ⟨c', hc', hstays.id.trans hid, hlisted.trans hstays.methodInfos.symm⟩

namespace Bridge

variable {α β : Type} {b : Bridge} {s s' : BridgeState} {vm vm' : Vm}

/-- The bridge can work in the machine: it starts from a class of the program, and it has the
class files of the helpers. -/
structure Ready (b : Bridge) (s : BridgeState) (vm : Vm) : Prop where
  equipped : vm.Equipped
  halted : vm.Halted
  unwatched : vm.Unwatched
  fits : s.Fits vm
  thread : b.thread = mainThread
  frame : ∃ c ∈ vm.classes, c.id = b.frameClass ∧ c.loader = vm.appLoader
  files : ∀ h : HelperClass, ∃ bytes, b.classFiles h.name = .ok (some bytes) ∧
    Vm.classFileMagic.isPrefixOf (bytes.map fun v => Value.byte v.toInt8) = true ∧
    bytes.length < 2 ^ 31

theorem Ready.extended (h : b.Ready s vm) (ht : vm.Extended vm') : b.Ready s vm' where
  equipped := ht.equipped
  halted := ⟨ht.dead.trans h.halted.alive, ht.suspended.trans h.halted.suspended⟩
  unwatched := h.unwatched.kept fun _ hr => ht.requests ▸ hr
  fits := h.fits.extended ht
  thread := h.thread
  frame := by
    obtain ⟨c, hc, hid, hloader⟩ := h.frame
    obtain ⟨c', hc', hstays⟩ := ht.classes c hc
    exact ⟨c', hc', hstays.id.trans hid,
      hstays.loader.trans (hloader.trans ht.appLoader.symm)⟩
  files := h.files

/-- What is ready stays so when the bridge has learnt more. -/
theorem Ready.learn (h : b.Ready s vm) (hfits : s'.Fits vm) : b.Ready s' vm :=
  { h with fits := hfits }

theorem Ready.of_heap (h : b.Ready s vm) {heap : Table ObjectId TypedObject}
    (hequipped : { vm with heap : Vm }.Equipped) : b.Ready s { vm with heap } where
  equipped := hequipped
  halted := ⟨h.halted.alive, h.halted.suspended⟩
  unwatched := h.unwatched
  fits := ⟨h.fits.unlocked, h.fits.loader, h.fits.types, h.fits.typeNames, h.fits.methods⟩
  thread := h.thread
  frame := h.frame
  files := h.files

/-- The same bridge with the class files of the helpers. What does not define classes is not told
apart from it. -/
def stocked (b : Bridge) : Bridge := { b with classFiles := HelperClass.files }

theorem files_fit (h : HelperClass) : ∃ bytes, HelperClass.files h.name = .ok (some bytes) ∧
    Vm.classFileMagic.isPrefixOf (bytes.map fun v => Value.byte v.toInt8) = true ∧
    bytes.length < 2 ^ 31 :=
  ⟨[0xca, 0xfe, 0xba, 0xbe, 0, 0, 0, 52], by cases h <;> rfl, by decide, by decide⟩

theorem Ready.stocked (h : b.Ready s vm) : b.stocked.Ready s vm :=
  { h with thread := h.thread, frame := h.frame, files := files_fit }

theorem Ready.of_stocked (h : b.stocked.Ready s' vm') (hb : b.Ready s vm) : b.Ready s' vm' :=
  { h with thread := hb.thread, frame := h.frame, files := hb.files }

/-- The routine does not fail, the bridge is ready afterwards, and what comes of the routine
satisfies `post`. -/
def Yields (b : Bridge) (t : BridgeRoutine α) (s : BridgeState) (vm : Vm)
    (post : α → Vm → Prop) : Prop :=
  t.Meets .machine (fun a s' vm' => b.Ready s' vm' ∧ post a vm') (fun _ _ _ => False) s vm

/-- The same of a routine that only extends the machine. -/
def Achieves (b : Bridge) (t : BridgeRoutine α) (s : BridgeState) (vm : Vm)
    (post : α → Vm → Prop) : Prop :=
  b.Yields t s vm fun a vm' => vm.Extended vm' ∧ post a vm'

variable {post : α → Vm → Prop}

/-- What a bridge achieves that could get the class files of the helpers, it achieves with those
that it can get. -/
theorem Achieves.of_stocked {t : BridgeRoutine α} (h : b.stocked.Achieves t s vm post)
    (hready : b.Ready s vm) : b.Achieves t s vm post :=
  Routine.Meets.mono h (fun _ _ _ h => ⟨h.1.of_stocked hready, h.2⟩) fun _ _ _ h => h

theorem Yields.mono {t : BridgeRoutine α} {post' : α → Vm → Prop} (h : b.Yields t s vm post)
    (hpost : ∀ a vm', post a vm' → post' a vm') : b.Yields t s vm post' :=
  Routine.Meets.mono h (fun a _ vm' h => ⟨h.1, hpost a vm' h.2⟩) fun _ _ _ h => h

/-- A routine that goes on from one that does not fail may fail itself. -/
theorem Yields.meets_bind {t : BridgeRoutine α} {f : α → BridgeRoutine β}
    {ok : β → BridgeState → Vm → Prop} {err : TraceError → BridgeState → Vm → Prop}
    (h : b.Yields t s vm post)
    (hnext : ∀ a s' vm', b.Ready s' vm' → post a vm' → (f a).Meets .machine ok err s' vm') :
    (t >>= f).Meets .machine ok err s vm :=
  Routine.meets_bind.mpr (Routine.Meets.mono h (fun a s' vm' h => hnext a s' vm' h.1 h.2)
    fun _ _ _ h => h.elim)

theorem Yields.bind {t : BridgeRoutine α} {f : α → BridgeRoutine β} {post' : β → Vm → Prop}
    (h : b.Yields t s vm post)
    (hnext : ∀ a s' vm', b.Ready s' vm' → post a vm' → b.Yields (f a) s' vm' post') :
    b.Yields (t >>= f) s vm post' := Yields.meets_bind h hnext

theorem yields_command {c : Command} {post : c.Reply → Vm → Prop}
    (htouch : c.touchesThread = false)
    (hdoes : (Vm.respond c).Does vm fun r vm' => b.Ready s vm' ∧ post r vm') :
    b.Yields (Routine.command c) s vm post := by
  obtain ⟨r, vm', hrun, hready, hpost⟩ := hdoes
  have hanswer : vm.answer c = (.ok r, vm') := hrun
  unfold Yields
  rw [Routine.meets_command]
  refine ⟨htouch, fun r' vm'' h => ?_, fun e vm'' h => ?_⟩
  · have heq : ((.ok r' : c.Answer), vm'') = (.ok r, vm') := Eq.trans h hanswer
    cases heq
    exact ⟨hready, hpost⟩
  · have heq : ((.error e : c.Answer), vm'') = (.ok r, vm') := Eq.trans h hanswer
    cases heq

theorem yields_commandOr {c : Command} {wrap : JdwpError → TraceError}
    {post : c.Reply → Vm → Prop} (htouch : c.touchesThread = false)
    (hdoes : (Vm.respond c).Does vm fun r vm' => b.Ready s vm' ∧ post r vm') :
    b.Yields (Routine.commandOr c wrap) s vm post := by
  obtain ⟨r, vm', hrun, hready, hpost⟩ := hdoes
  have hanswer : vm.answer c = (.ok r, vm') := hrun
  unfold Yields
  rw [Routine.meets_commandOr]
  refine ⟨htouch, fun r' vm'' h => ?_, fun e vm'' h => ?_⟩
  · have heq : ((.ok r' : c.Answer), vm'') = (.ok r, vm') := Eq.trans h hanswer
    cases heq
    exact ⟨hready, hpost⟩
  · have heq : ((.error e : c.Answer), vm'') = (.ok r, vm') := Eq.trans h hanswer
    cases heq

/-- A command that is refused. -/
theorem meets_refused {c : Command} {code : UInt16} {ok : c.Reply → BridgeState → Vm → Prop}
    {err : TraceError → BridgeState → Vm → Prop} (htouch : c.touchesThread = false)
    (hrefuses : (Vm.respond c).Refuses vm code) (herr : err (.jdwp (.vm code)) s vm) :
    (Routine.command c).Meets .machine ok err s vm := by
  have hanswer : vm.answer c = (.error (.vm code), vm) := hrefuses
  rw [Routine.meets_command]
  refine ⟨htouch, fun r' vm'' h => ?_, fun e vm'' h => ?_⟩
  · have heq : ((.ok r' : c.Answer), vm'') = (.error (.vm code), vm) := Eq.trans h hanswer
    cases heq
  · have heq : ((.error e : c.Answer), vm'') = (.error (.vm code), vm) := Eq.trans h hanswer
    cases heq
    exact herr

/-! ## Routines that look after the machine -/

theorem Achieves.mono {t : BridgeRoutine α} {post' : α → Vm → Prop} (h : b.Achieves t s vm post)
    (hpost : ∀ a vm', vm.Extended vm' → post a vm' → post' a vm') : b.Achieves t s vm post' :=
  Yields.mono h fun a vm' h => ⟨h.1, hpost a vm' h.1 h.2⟩

theorem Achieves.bind {t : BridgeRoutine α} {f : α → BridgeRoutine β} {post' : β → Vm → Prop}
    (h : b.Achieves t s vm post)
    (hnext : ∀ a s' vm', b.Ready s' vm' → vm.Extended vm' → post a vm' →
      b.Achieves (f a) s' vm' post') :
    b.Achieves (t >>= f) s vm post' := by
  refine Yields.bind h fun a s' vm' hready hpost => ?_
  refine Yields.mono (hnext a s' vm' hready hpost.1 hpost.2) fun a' vm'' hpost' => ?_
  exact ⟨hpost.1.trans hpost'.1, hpost'.2⟩

/-- A routine that extends the machine at the end of one that began at `vm`. -/
theorem Achieves.behind {t : BridgeRoutine α} (h : b.Achieves t s vm' post)
    (hextended : vm.Extended vm') : b.Yields t s vm' fun a vm'' => vm.Extended vm'' ∧ post a vm'' :=
  Yields.mono h fun _ _ hpost => ⟨hextended.trans hpost.1, hpost.2⟩

theorem achieves_pure {a : α} (h : b.Ready s vm) (hpost : post a vm) :
    b.Achieves (pure a) s vm post :=
  Routine.meets_pure.mpr ⟨h, .refl h.equipped, hpost⟩

theorem achieves_pure_bind {a : α} {f : α → BridgeRoutine β} {post : β → Vm → Prop}
    (h : b.Achieves (f a) s vm post) : b.Achieves (pure a >>= f) s vm post :=
  Routine.meets_bind.mpr (Routine.meets_pure.mpr h)

theorem achieves_get_bind {f : BridgeState → BridgeRoutine α} (h : b.Achieves (f s) s vm post) :
    b.Achieves (get >>= f) s vm post :=
  Routine.meets_bind.mpr (Routine.meets_get.mpr h)

theorem achieves_modify_bind {g : BridgeState → BridgeState} {f : PUnit → BridgeRoutine α}
    (h : b.Achieves (f ⟨⟩) (g s) vm post) : b.Achieves (modify g >>= f) s vm post :=
  Routine.meets_bind.mpr (Routine.meets_modify.mpr h)

theorem achieves_modify {g : BridgeState → BridgeState} {post : PUnit → Vm → Prop}
    (h : b.Ready (g s) vm) (hpost : post ⟨⟩ vm) : b.Achieves (modify g) s vm post :=
  Routine.meets_modify.mpr ⟨h, .refl h.equipped, hpost⟩

theorem achieves_ite_pos {c : Prop} [Decidable c] {t e : BridgeRoutine α} (hc : c)
    (h : b.Achieves t s vm post) : b.Achieves (if c then t else e) s vm post := by
  rw [if_pos hc]
  exact h

theorem achieves_ite_neg {c : Prop} [Decidable c] {t e : BridgeRoutine α} (hc : ¬c)
    (h : b.Achieves e s vm post) : b.Achieves (if c then t else e) s vm post := by
  rw [if_neg hc]
  exact h

section

variable (hready : b.Ready s vm) {c : Command} {post : c.Reply → Vm → Prop}
  (htouch : c.touchesThread = false)
  (hdoes : (Vm.respond c).Does vm fun r vm' => vm.Extended vm' ∧ post r vm')

include hready htouch hdoes

theorem achieves_command : b.Achieves (Routine.command c) s vm post :=
  yields_command htouch (hdoes.mono fun _ _ h => ⟨hready.extended h.1, h⟩)

theorem achieves_commandOr {wrap : JdwpError → TraceError} :
    b.Achieves (Routine.commandOr c wrap) s vm post :=
  yields_commandOr htouch (hdoes.mono fun _ _ h => ⟨hready.extended h.1, h⟩)

end

/-! ## Questions -/

/-- The routine finds that out, and changes nothing in the machine. -/
def Learns (b : Bridge) (t : BridgeRoutine α) (s : BridgeState) (vm : Vm) (a : α) : Prop :=
  b.Achieves t s vm fun r vm' => r = a ∧ vm' = vm

theorem learns_command (hready : b.Ready s vm) {c : Command} {a : c.Reply}
    (htouch : c.touchesThread = false)
    (hdoes : (Vm.respond c).Does vm fun r vm' => r = a ∧ vm' = vm) :
    b.Learns (Routine.command c) s vm a := by
  refine achieves_command hready htouch (hdoes.mono ?_)
  rintro r vm' ⟨rfl, rfl⟩
  exact ⟨.refl hready.equipped, rfl, rfl⟩

/-- A command whose answer is handed on as it is. -/
theorem learns_answer (hready : b.Ready s vm) {c : Command} {a : c.Reply}
    (htouch : c.touchesThread = false)
    (hdoes : (Vm.respond c).Does vm fun r vm' => r = a ∧ vm' = vm) :
    b.Learns (Routine.answer c) s vm (.ok a) := by
  obtain ⟨r, vm', hrun, rfl, rfl⟩ := hdoes
  have hanswer : vm'.answer c = (.ok r, vm') := hrun
  unfold Learns Achieves Yields
  rw [Routine.meets_answer]
  refine ⟨htouch, fun r' vm'' h => ?_⟩
  have heq : (r', vm'') = (.ok r, vm') := Eq.trans h hanswer
  cases heq
  exact ⟨hready, .refl hready.equipped, rfl, rfl⟩

theorem learns_pure (hready : b.Ready s vm) (a : α) : b.Learns (pure a) s vm a :=
  achieves_pure hready ⟨rfl, rfl⟩

/-- What comes of a routine that goes on from an answer. -/
theorem Learns.bind {t : BridgeRoutine α} {a : α} {f : α → BridgeRoutine β}
    {post : β → Vm → Prop} (h : b.Learns t s vm a)
    (hnext : ∀ s', b.Ready s' vm → b.Achieves (f a) s' vm post) :
    b.Achieves (t >>= f) s vm post := by
  refine Achieves.bind h ?_
  rintro _ s' vm' hready' - ⟨rfl, rfl⟩
  exact hnext s' hready'

theorem Learns.meets_bind {t : BridgeRoutine α} {a : α} {f : α → BridgeRoutine β}
    {ok : β → BridgeState → Vm → Prop} {err : TraceError → BridgeState → Vm → Prop}
    (h : b.Learns t s vm a) (hnext : ∀ s', b.Ready s' vm → (f a).Meets .machine ok err s' vm) :
    (t >>= f).Meets .machine ok err s vm := by
  refine Yields.meets_bind h ?_
  rintro _ s' _ hready ⟨-, rfl, rfl⟩
  exact hnext s' hready

/-- How a failure would be told does not matter. -/
theorem Learns.mapError {t : BridgeRoutine α} {a : α} (h : b.Learns t s vm a)
    (f : TraceError → TraceError) : b.Learns (Routine.mapError f t) s vm a :=
  Routine.meets_mapError.mpr h

end Bridge

end StreamTrace
