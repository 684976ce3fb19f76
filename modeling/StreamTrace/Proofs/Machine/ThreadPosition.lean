import StreamTrace.Proofs.Machine.RunContinuity

/-!
# Where the thread stands

What of a machine only the thread changes, and what the thread leaves as it is. A debugger that does
chores changes no frame, no request and no pin, and loses no object: `Still` says so of two states.
The thread pushes and pops frames above those it found: `Ran` says so, and that what is pushed is
never the method of the statement.
-/

namespace StreamTrace

namespace Vm

/-! ## Frames -/

/-- The frames without their slots, the one on top first. -/
def places (vm : Vm) : List (FrameId × Location) := vm.frames.map fun f => (f.id, f.location)

theorem length_places (vm : Vm) : vm.places.length = vm.frames.length := List.length_map _

theorem ids_of_places {vm vm' : Vm} (h : vm'.places = vm.places) :
    vm'.frames.map (·.id) = vm.frames.map (·.id) := by
  have hids : ∀ vm : Vm, vm.places.map Prod.fst = vm.frames.map (·.id) := fun vm => by
    simp [places]
  rw [← hids, ← hids, h]

theorem locations_of_places {vm vm' : Vm} (h : vm'.places = vm.places) :
    vm'.frames.map (·.location) = vm.frames.map (·.location) := by
  have hlocations : ∀ vm : Vm, vm.places.map Prod.snd = vm.frames.map (·.location) := fun vm => by
    simp [places]
  rw [← hlocations, ← hlocations, h]

theorem length_of_places {vm vm' : Vm} (h : vm'.places = vm.places) :
    vm'.frames.length = vm.frames.length := by
  rw [← length_places, h, length_places]

/-- The frames at the bottom, the lowest first. -/
def bottom (vm : Vm) (n : Nat) : List Frame := vm.frames.reverse.take n

theorem bottom_of_le {vm vm' : Vm} {m n : Nat} (h : vm'.bottom n = vm.bottom n) (hm : m ≤ n) :
    vm'.bottom m = vm.bottom m := by
  have htake : ∀ vm : Vm, (vm.bottom n).take m = vm.bottom m := fun vm => by
    rw [bottom, bottom, List.take_take, Nat.min_eq_left hm]
  rw [← htake, ← htake, h]

theorem le_length_of_bottom {vm vm' : Vm} {n : Nat} (h : vm'.bottom n = vm.bottom n)
    (hn : n ≤ vm.frames.length) : n ≤ vm'.frames.length := by
  have hlength := congrArg List.length h
  simp only [bottom, List.length_take, List.length_reverse] at hlength
  omega

theorem bottom_push (vm : Vm) (f : Frame) {n : Nat} (hn : n ≤ vm.frames.length) :
    bottom { vm with frames := f :: vm.frames } n = vm.bottom n := by
  simp only [bottom, List.reverse_cons]
  rw [List.take_append_of_le_length (by simpa using hn)]

theorem bottom_pop (vm : Vm) {n : Nat} (hn : vm.frames.length = n + 1) :
    bottom { vm with frames := vm.frames.tail } n = vm.bottom n := by
  cases hframes : vm.frames with
  | nil => simp [hframes] at hn
  | cons f rest =>
      have hrest : rest.length = n := by simpa [hframes] using hn
      simp only [bottom, hframes, List.tail_cons, List.reverse_cons]
      rw [List.take_append_of_le_length (by simp [hrest])]

/-! ## The method of the statement -/

end Vm

/-- The method of the statement, with its variable. -/
structure Home where
  main : TypeId
  run : MethodId
  info : VariableInfo

namespace Home

/-- The method is another one than the statement's. -/
def IsElsewhere (home : Home) (type : TypeId) (method : MethodId) : Prop :=
  type = home.main → method ≠ home.run

end Home

namespace Vm

/-- The only variables that are known are those of the statement's method: `this` and one more. -/
structure HasHome (vm : Vm) (home : Home) : Prop where
  old : home.main ≤ vm.nextId
  known : ∀ c ∈ vm.classes, ∀ method infos, c.locals.get? method = some infos →
    c.id = home.main ∧ method = home.run ∧ infos = [StreamProgram.thisVariable, home.info]
  named : ∀ c ∈ vm.classes, c.id = home.main → ∀ m ∈ c.methods, m.id = home.run → m.name = "run"
  other : ∀ c ∈ vm.classes, c.id = home.main → ∀ m, c.methods.head? = some m → m.id ≠ home.run

/-- The thread stands somewhere in the statement: its frames can be told apart, and none but the
second from the bottom is of the statement's method. -/
structure Stands (vm : Vm) (home : Home) : Prop extends vm.HasHome home where
  ids : (vm.frames.map (·.id)).Nodup
  given : ∀ f ∈ vm.frames, f.id ≤ vm.nextId
  once : ∀ k f, vm.frames.reverse[k]? = some f → k ≠ 1 →
    home.IsElsewhere f.location.typeId f.location.methodId

variable {home : Home}

theorem HasHome.of_eq {vm vm' : Vm} (h : vm.HasHome home) (hnext : vm.nextId ≤ vm'.nextId)
    (hclasses : vm'.classes = vm.classes) : vm'.HasHome home := by
  obtain ⟨hold, hknown, hnamed, hother⟩ := h
  rw [← hclasses] at hknown hnamed hother
  exact ⟨Nat.le_trans hold hnext, hknown, hnamed, hother⟩

theorem HasHome.load {vm : Vm} (h : vm.HasHome home) {n : Nat} {c : ClassDef} (hc : vm.Loads n c) :
    HasHome { vm with nextId := n, classes := vm.classes ++ [c] } home := by
  have hne : c.id ≠ home.main := fun heq =>
    Nat.lt_irrefl _ (Nat.lt_of_lt_of_le hc.fresh (heq ▸ h.old))
  refine ⟨Nat.le_trans h.old hc.next, fun c' hc' method infos hinfos => ?_,
    fun c' hc' hid => ?_, fun c' hc' hid => ?_⟩
  · rcases List.mem_append.mp hc' with hc' | hc'
    · exact h.known c' hc' method infos hinfos
    · rw [List.mem_singleton.mp hc', hc.locals] at hinfos
      cases hinfos
  · rcases List.mem_append.mp hc' with hc' | hc'
    · exact h.named c' hc' hid
    · exact absurd (List.mem_singleton.mp hc' ▸ hid) hne
  · rcases List.mem_append.mp hc' with hc' | hc'
    · exact h.other c' hc' hid
    · exact absurd (List.mem_singleton.mp hc' ▸ hid) hne

theorem HasHome.stand {vm : Vm} (h : vm.HasHome home) (type : TypeId) (id : ObjectId) :
    HasHome { vm with
      classes := vm.classes.update type fun c => { c with classObject := some id } } home := by
  -- Each class is as it was, except for the object that stands for it.
  have hback : ∀ c' ∈ vm.classes.update type fun c => { c with classObject := some id },
      ∃ c ∈ vm.classes, c'.id = c.id ∧ c'.methods = c.methods ∧ c'.locals = c.locals := by
    intro c' hc'
    obtain ⟨c, hc, rfl⟩ := List.mem_map.mp hc'
    refine ⟨c, hc, ?_⟩
    split
    · exact ⟨rfl, rfl, rfl⟩
    · exact ⟨rfl, rfl, rfl⟩
  refine ⟨h.old, fun c' hc' method infos hinfos => ?_, fun c' hc' hid m hm => ?_,
    fun c' hc' hid m hm => ?_⟩
  · obtain ⟨c, hc, hid, -, hlocals⟩ := hback c' hc'
    rw [hlocals] at hinfos
    rw [hid]
    exact h.known c hc method infos hinfos
  · obtain ⟨c, hc, hid', hmethods, -⟩ := hback c' hc'
    rw [hmethods] at hm
    exact h.named c hc (hid' ▸ hid) m hm
  · obtain ⟨c, hc, hid', hmethods, -⟩ := hback c' hc'
    rw [hmethods] at hm
    exact h.other c hc (hid' ▸ hid) m hm

/-- The thread stands where it stood. -/
theorem Stands.of_frames {vm vm' : Vm} (h : vm.Stands home) (hframes : vm'.frames = vm.frames)
    (hnext : vm.nextId ≤ vm'.nextId) (hhome : vm'.HasHome home) : vm'.Stands home := by
  obtain ⟨-, hids, hgiven, honce⟩ := h
  rw [← hframes] at hids hgiven honce
  exact ⟨hhome, hids, fun f hf => Nat.le_trans (hgiven f hf) hnext, honce⟩

/-- The method of a frame that is pushed is another one. -/
theorem Stands.push {vm : Vm} (h : vm.Stands home) {l : Location}
    (hl : home.IsElsewhere l.typeId l.methodId) (slots : Table Nat Value) :
    Stands { vm with
      nextId := vm.nextId + 1
      frames := { id := vm.nextId + 1, location := l, slots } :: vm.frames } home := by
  refine ⟨h.toHasHome.of_eq (Nat.le_succ _) rfl, List.nodup_cons.mpr ⟨fun hmem => ?_, h.ids⟩,
    fun f hf => ?_, fun k f hf hk => ?_⟩
  · obtain ⟨f, hf, hid⟩ := List.mem_map.mp hmem
    exact Nat.not_succ_le_self _ (hid ▸ h.given f hf)
  · rcases List.mem_cons.mp hf with rfl | hf
    · exact Nat.le_refl _
    · exact Nat.le_succ_of_le (h.given f hf)
  · rw [List.reverse_cons] at hf
    rcases Nat.lt_or_ge k vm.frames.reverse.length with hlt | hge
    · rw [List.getElem?_append_left hlt] at hf
      exact h.once k f hf hk
    · rw [List.getElem?_append_right hge] at hf
      rw [List.mem_singleton.mp (List.mem_of_getElem? hf)]
      exact hl

theorem Stands.pop {vm : Vm} (h : vm.Stands home) :
    Stands { vm with frames := vm.frames.tail } home := by
  have hsublist := List.tail_sublist vm.frames
  refine ⟨h.toHasHome.of_eq (Nat.le_refl _) rfl, (hsublist.map _).nodup h.ids,
    fun f hf => h.given f (hsublist.subset hf), fun k f hf => h.once k f ?_⟩
  cases hframes : vm.frames with
  | nil =>
      rw [hframes] at hf
      cases hf
  | cons top rest =>
      rw [hframes, List.tail_cons] at hf
      obtain ⟨hlt, -⟩ := List.getElem?_eq_some_iff.mp hf
      rw [List.reverse_cons, List.getElem?_append_left hlt]
      exact hf

/-- What an invocation on an object runs goes by the name that was asked for. -/
theorem dispatchFrom_name {cs : ClassTable} {name descriptor : String} {fuel : Nat}
    {seen queue interfaces : List TypeId} {type : TypeId} {method : MethodId}
    (h : cs.dispatchFrom name descriptor fuel seen queue interfaces = some (type, method)) :
    ∃ c ∈ cs, c.id = type ∧ ∃ m ∈ c.methods, m.id = method ∧ m.name = name := by
  induction fuel generalizing seen queue interfaces with
  | zero => cases h
  | succ fuel ih =>
      unfold ClassTable.dispatchFrom at h
      split at h
      · cases h
      · split at h
        · exact ih h
        · rename_i c hc
          split at h
          · rename_i m hm
            cases h
            have hmethod := List.find?_some (Option.filter_eq_some_iff.mp hm).1
            simp only [Bool.and_eq_true, beq_iff_eq] at hmethod
            refine ⟨c, List.mem_of_find?_eq_some hc, ?_, m,
              List.mem_of_find?_eq_some (Option.filter_eq_some_iff.mp hm).1, rfl, hmethod.1⟩
            simpa using List.find?_some hc
          · exact ih h

/-- A call by another name does not run the method of the statement. -/
theorem HasHome.elsewhere_of_dispatch {vm : Vm} (h : vm.HasHome home) {from' type : TypeId}
    {method : MethodId} {name descriptor : String}
    (hcode : vm.classes.dispatch from' name descriptor = some (type, method))
    (hname : name ≠ "run") : home.IsElsewhere type method := by
  rintro rfl rfl
  obtain ⟨c, hc, hid, m, hm, hmethod, hn⟩ := dispatchFrom_name hcode
  exact hname (hn ▸ h.named c hc hid m hm hmethod)

/-- Neither does a lambda. -/
theorem HasHome.elsewhere_of_lambda {vm : Vm} (h : vm.HasHome home) {function : ObjectId}
    {type : TypeId} {m : MethodDef} (hcode : vm.lambdaMethod? function = some (type, m)) :
    home.IsElsewhere type m.id := by
  rintro rfl
  simp only [lambdaMethod?, Option.bind_eq_bind, Option.bind_eq_some_iff, Option.pure_def,
    Option.some.injEq, Prod.mk.injEq] at hcode
  obtain ⟨e, -, c, hc, m', hm', htype, rfl⟩ := hcode
  have hid : c.id = e.type := by simpa using List.find?_some hc
  exact h.other c (List.mem_of_find?_eq_some hc) (hid.trans htype) m' hm'

/-! ## Chores -/

/-- Nothing but the heap, the classes and the notes has changed, and no object is lost. -/
structure Still (vm vm' : Vm) : Prop where
  next : vm.nextId ≤ vm'.nextId
  objects : ∀ id, (vm.lookup? id).isSome → (vm'.lookup? id).isSome
  home : ∀ home, vm.HasHome home → vm'.HasHome home
  frames : vm'.frames = vm.frames
  written : vm'.frameWrites = vm.frameWrites
  asked : vm'.requests = vm.requests
  numbers : vm'.nextRequest = vm.nextRequest
  pins : vm'.pins = vm.pins
  suspended : vm'.suspended = vm.suspended
  alive : vm'.dead = vm.dead
  outbox : vm'.outbox = vm.outbox

theorem Still.refl (vm : Vm) : vm.Still vm :=
  ⟨Nat.le_refl _, fun _ h => h, fun _ h => h, rfl, rfl, rfl, rfl, rfl, rfl, rfl, rfl⟩

theorem Still.trans {vm vm' vm'' : Vm} (h : vm.Still vm') (h' : vm'.Still vm'') : vm.Still vm'' :=
  ⟨Nat.le_trans h.next h'.next, fun id hid => h'.objects id (h.objects id hid),
    fun home hhome => h'.home home (h.home home hhome),
    h'.frames.trans h.frames, h'.written.trans h.written, h'.asked.trans h.asked,
    h'.numbers.trans h.numbers, h'.pins.trans h.pins, h'.suspended.trans h.suspended,
    h'.alive.trans h.alive, h'.outbox.trans h.outbox⟩

theorem Still.stands {vm vm' : Vm} (h : vm.Still vm') (hs : vm.Stands home) : vm'.Stands home :=
  hs.of_frames h.frames h.next (h.home home hs.toHasHome)

theorem isSome_lookup?_set {vm : Vm} {id id' : ObjectId} {e : TypedObject}
    (h : (vm.lookup? id').isSome) : ((vm.heap.set id e).get? id').isSome := by
  rw [Table.get?_set]
  split
  · rfl
  · exact h

instance : Chores Still where
  refl := .refl
  trans := .trans
  quiet := False
  alloc _ _ := ⟨Nat.le_succ _, fun _ h => isSome_lookup?_set h,
    fun _ h => h.of_eq (Nat.le_succ _) rfl, rfl, rfl, rfl, rfl, rfl, rfl, rfl, rfl⟩
  change _ _ _ _ := ⟨Nat.le_refl _, fun _ h => isSome_lookup?_set h,
    fun _ h => h.of_eq (Nat.le_refl _) rfl, rfl, rfl, rfl, rfl, rfl, rfl, rfl, rfl⟩
  load _ _ _ hc := ⟨hc.next, fun _ h => h, fun _ h => h.load hc, rfl, rfl, rfl, rfl, rfl, rfl, rfl,
    rfl⟩
  stand _ type id := ⟨Nat.le_refl _, fun _ h => h, fun _ h => h.stand type id, rfl, rfl, rfl, rfl,
    rfl, rfl, rfl, rfl⟩
  note _ _ _ := ⟨Nat.le_refl _, fun _ h => h, fun _ h => h.of_eq (Nat.le_refl _) rfl, rfl, rfl, rfl,
    rfl, rfl, rfl, rfl, rfl⟩
  stall _ _ _ := ⟨Nat.le_refl _, fun _ h => h, fun _ h => h.of_eq (Nat.le_refl _) rfl, rfl, rfl,
    rfl, rfl, rfl, rfl, rfl, rfl⟩
  calm h := h.elim

/-- A chore leaves everything as it is but the heap, the classes and the notes. -/
theorem answer_still (vm : Vm) {c : Command} (hc : c.isChore = true) : vm.Still (vm.answer c).2 :=
  (chore_yields hc fun h => False.elim h).1

/-! ## While the thread goes on -/

/-- The thread has gone on without raising an event, and has changed no frame but those above the
lowest `n`. -/
structure Ran (n : Nat) (vm vm' : Vm) : Prop where
  next : vm.nextId ≤ vm'.nextId
  objects : ∀ id, (vm.lookup? id).isSome → (vm'.lookup? id).isSome
  bottom : vm'.bottom n = vm.bottom n
  written : vm'.frameWrites = vm.frameWrites
  asked : vm'.requests = vm.requests
  numbers : vm'.nextRequest = vm.nextRequest
  pins : vm'.pins = vm.pins
  dead : vm.dead = true → vm'.dead = true
  outbox : vm'.dead = false → vm'.outbox = vm.outbox

theorem Ran.refl (n : Nat) (vm : Vm) : vm.Ran n vm :=
  ⟨Nat.le_refl _, fun _ h => h, rfl, rfl, rfl, rfl, rfl, id, fun _ => rfl⟩

theorem Ran.alive {n : Nat} {vm vm' : Vm} (h : vm.Ran n vm') (hdead : vm'.dead = false) :
    vm.dead = false := by
  by_contra hd
  rw [h.dead (by simpa using hd)] at hdead
  cases hdead

theorem Ran.trans {n : Nat} {vm vm' vm'' : Vm} (h : vm.Ran n vm') (h' : vm'.Ran n vm'') :
    vm.Ran n vm'' :=
  ⟨Nat.le_trans h.next h'.next, fun id hid => h'.objects id (h.objects id hid),
    h'.bottom.trans h.bottom, h'.written.trans h.written, h'.asked.trans h.asked,
    h'.numbers.trans h.numbers, h'.pins.trans h.pins, fun hd => h'.dead (h.dead hd),
    fun hd => (h'.outbox hd).trans (h.outbox (h'.alive hd))⟩

theorem Ran.of_le {m n : Nat} {vm vm' : Vm} (h : vm.Ran n vm') (hm : m ≤ n) : vm.Ran m vm' :=
  { h with bottom := bottom_of_le h.bottom hm }

theorem Still.ran {vm vm' : Vm} (h : vm.Still vm') (n : Nat) : vm.Ran n vm' where
  next := h.next
  objects := h.objects
  bottom := by
    unfold Vm.bottom
    rw [h.frames]
  written := h.written
  asked := h.asked
  numbers := h.numbers
  pins := h.pins
  dead hd := h.alive.trans hd
  outbox _ := h.outbox

theorem ran_push {vm : Vm} {n : Nat} (hn : n ≤ vm.frames.length) (f : Frame) :
    vm.Ran n { vm with nextId := vm.nextId + 1, frames := f :: vm.frames } :=
  ⟨Nat.le_succ _, fun _ h => h, bottom_push vm f hn, rfl, rfl, rfl, rfl, id, fun _ => rfl⟩

theorem ran_pop {vm : Vm} {n : Nat} (hn : vm.frames.length = n + 1) :
    vm.Ran n { vm with frames := vm.frames.tail } :=
  ⟨Nat.le_refl _, fun _ h => h, bottom_pop vm hn, rfl, rfl, rfl, rfl, id, fun _ => rfl⟩

theorem ran_kill (vm : Vm) (n : Nat) : vm.Ran n vm.kill := by
  unfold kill
  split
  · exact .refl n vm
  · exact ⟨Nat.le_refl _, fun _ h => h, rfl, rfl, rfl, rfl, rfl, fun _ => rfl, nofun⟩

theorem Stands.kill {vm : Vm} (h : vm.Stands home) : vm.kill.Stands home := by
  unfold Vm.kill
  split
  · exact h
  · exact h.of_frames rfl (Nat.le_refl _) (h.toHasHome.of_eq (Nat.le_refl _) rfl)

end Vm

/-! ## Stops -/

namespace Event

/-- An exception that nothing catches. -/
def isUncaught : Event → Bool
  | exception _ _ _ _ none => true
  | _ => false

def isStep : Event → Bool
  | singleStep _ _ _ => true
  | _ => false

def isEntry : Event → Bool
  | methodEntry _ _ _ => true
  | _ => false

def isExit : Event → Bool
  | methodExitWithValue _ _ _ _ => true
  | _ => false

/-- From there the thread goes back to the statement: the next method that returns is one that the
statement has called, and a step ends behind it. -/
def isHomeward (e : Event) : Bool := e.isExit || e.isUncaught

theorem isHomeward_of_isStep {e : Event} (h : e.isStep = true) : e.isHomeward = false := by
  cases e <;> first | rfl | cases h

theorem isHomeward_of_isEntry {e : Event} (h : e.isEntry = true) : e.isHomeward = false := by
  cases e <;> first | rfl | cases h

end Event

namespace Vm

/-- A step is requested that ends in the statement. -/
def Armed (vm : Vm) : Prop := ∃ r ∈ vm.requests, r.acceptsStep .returned 2 = true

/-- The thread can meet that event where it stands: the calls of the chain have frames of their
own, and an exception that is caught is caught in the method on top. -/
def IsAt (vm : Vm) : Event → Prop
  | .methodEntry _ _ _ => 3 ≤ vm.places.length
  | .methodExitWithValue _ _ _ _ => 3 ≤ vm.places.length
  | .exception _ _ _ _ (some place) => ∃ p, vm.places.head? = some p ∧ p.2.sameMethod place = true
  | _ => True

/-- The event is one of the thread that the request asks for. -/
inductive RaisedBy (r : InstalledRequest) : Event → Prop where
  | entry (l : Location) (h : r.kind = EventKind.methodEntry) :
      RaisedBy r (.methodEntry r.id mainThread l)
  | exit (l : Location) (v : Value) (h : r.kind = EventKind.methodExitWithReturnValue) :
      RaisedBy r (.methodExitWithValue r.id mainThread l v)
  | step (l : Location) (h : r.kind = EventKind.singleStep) :
      RaisedBy r (.singleStep r.id mainThread l)
  | exception (l : Location) (exception : ObjectId) (caught : Option Location)
      (h : r.kind = EventKind.exception) :
      RaisedBy r (.exception r.id mainThread l exception caught)

/-- The thread has stopped at an event, or for no reason. If it is `bound` to go back, then it does
not stop but at an exception that nothing catches, or at the end of a step in the statement. -/
structure Stops (bound : Prop) (event : Option Event) (vm vm' : Vm) : Prop where
  state : ∃ requests, vm' =
    { vm with requests, suspended := true, outbox := vm.outbox ++ event.toList }
  used : ∀ r ∈ vm'.requests, r ∈ vm.requests
  spared : ∀ e, event = some e → e.isUncaught = true →
    ∀ r ∈ vm.requests, r.kind = EventKind.singleStep → r ∈ vm'.requests
  place : ∀ e, event = some e → vm.IsAt e
  raised : ∀ e, event = some e → ∃ r ∈ vm.requests, RaisedBy r e
  homeward : bound → ∃ e, event = some e ∧
    (e.isUncaught = true ∨ e.isStep = true ∧ vm.frames.length = 2)

theorem Stops.stands {bound : Prop} {event : Option Event} {vm vm' : Vm} {home : Home}
    (h : Stops bound event vm vm') (hs : vm.Stands home) : vm'.Stands home := by
  obtain ⟨requests, rfl⟩ := h.state
  exact hs.of_frames rfl (Nat.le_refl _) (hs.toHasHome.of_eq (Nat.le_refl _) rfl)

/-! ## Events that are due -/

/-- The code finds out whether an event is due, and uses up a request if one is. Such an event is
as `P` says. -/
def Raises (P : Event → Prop) (due : StateM Vm (Option Event)) : Prop :=
  ∀ vm : Vm, due.run vm = (none, vm) ∨ ∃ e requests, due.run vm = (some e, { vm with requests }) ∧
    (∃ r ∈ vm.requests, RaisedBy r e) ∧ (∀ r ∈ requests, r ∈ vm.requests) ∧
      (e.isUncaught = true → ∀ r ∈ vm.requests, r.kind = EventKind.singleStep → r ∈ requests) ∧ P e

theorem Raises.mono {P P' : Event → Prop} {due : StateM Vm (Option Event)} (h : Raises P due)
    (hP : ∀ e, P e → P' e) : Raises P' due := by
  intro vm
  rcases h vm with hnone | ⟨e, requests, hrun, hasked, hused, hspared, he⟩
  · exact .inl hnone
  · exact .inr ⟨e, requests, hrun, hasked, hused, hspared, hP e he⟩

/-- The oldest request that accepts raises the event. -/
theorem eventFor_run (accepts : Vm → Location → InstalledRequest → Bool)
    (make : RequestId → Location → Event) (vm : Vm) :
    ((eventFor accepts make).run vm = (none, vm) ∧
        ∀ l, vm.topLocation? = some l → ∀ r ∈ vm.requests, accepts vm l r = false) ∨
      ∃ l r requests, (eventFor accepts make).run vm = (some (make r.id l), { vm with requests }) ∧
        r ∈ vm.requests ∧ accepts vm l r = true ∧ (∀ r ∈ requests, r ∈ vm.requests) ∧
          ∀ r ∈ vm.requests, accepts vm l r = false → r ∈ requests := by
  unfold eventFor
  rw [run_get_bind]
  cases hl : vm.topLocation? with
  | none => exact .inl ⟨rfl, nofun⟩
  | some l =>
      rw [run_bind]
      cases hfind : vm.requests.find? (accepts vm l) with
      | none =>
          have htake : (takeRequest (accepts vm l)).run vm = (none, vm) := by
            unfold takeRequest
            rw [run_modifyGet, hfind]
          rw [htake]
          refine .inl ⟨rfl, ?_⟩
          rintro l' ⟨⟩
          simpa using List.find?_eq_none.mp hfind
      | some r =>
          have hmem := List.mem_of_find?_eq_some hfind
          have haccepts := List.find?_some hfind
          by_cases hcounted : r.isCounted = true
          · have htake : (takeRequest (accepts vm l)).run vm =
                (some r.id, { vm with requests := vm.requests.eraseP (accepts vm l) }) := by
              unfold takeRequest
              rw [run_modifyGet, hfind]
              exact if_pos hcounted
            rw [htake]
            refine .inr ⟨l, r, _, rfl, hmem, haccepts, fun _ h => List.mem_of_mem_eraseP h,
              fun r' h ha => ?_⟩
            exact (List.mem_eraseP_of_neg (by simp [ha])).mpr h
          · have htake : (takeRequest (accepts vm l)).run vm = (some r.id, vm) := by
              unfold takeRequest
              rw [run_modifyGet, hfind]
              exact if_neg hcounted
            rw [htake]
            exact .inr ⟨l, r, vm.requests, rfl, hmem, haccepts, fun _ h => h, fun _ h _ => h⟩

/-- What is made of a request and a place is as `P` says, and the request that accepts asks for it.
No such event is that of an exception which nothing catches unless only exceptions raise it. -/
theorem eventFor_raises {P : Event → Prop} {accepts : Vm → Location → InstalledRequest → Bool}
    {make : RequestId → Location → Event} (hmake : ∀ request l, P (make request l))
    (hraised : ∀ vm l r, accepts vm l r = true → RaisedBy r (make r.id l))
    (hspare : ∀ request l, (make request l).isUncaught = true → ∀ (vm : Vm) l r,
      r.kind = EventKind.singleStep → accepts vm l r = false) :
    Raises P (eventFor accepts make) := by
  intro vm
  rcases eventFor_run accepts make vm with ⟨hrun, -⟩ |
    ⟨l, r, requests, hrun, hmem, haccepts, hused, hleft⟩
  · exact .inl hrun
  · exact .inr ⟨_, requests, hrun, ⟨r, hmem, hraised _ _ _ haccepts⟩, hused,
      fun he r hr hkind => hleft r hr (hspare _ _ he _ _ _ hkind), hmake _ _⟩

theorem stepEvent_raises (point : StepEnd) :
    Raises (fun e => e.isStep = true) (stepEvent point) := by
  refine eventFor_raises (fun _ _ => rfl) (fun _ l r h => .step l ?_) fun _ _ he => by cases he
  simp only [InstalledRequest.acceptsStep, Bool.and_eq_true, beq_iff_eq] at h
  exact h.1

theorem exitEvent_raises (v : Value) : Raises (fun e => e.isExit = true) (exitEvent v) := by
  refine eventFor_raises (fun _ _ => rfl) (fun _ l r h => .exit l v ?_) fun _ _ he => by cases he
  simp only [Bool.and_eq_true, beq_iff_eq] at h
  exact h.1

theorem exceptionEvent_raises (exception : ObjectId) (caught : Option Location) :
    Raises (fun e => ∃ request t l, e = .exception request t l exception caught)
      (exceptionEvent exception caught) := by
  refine eventFor_raises (fun _ _ => ⟨_, _, _, rfl⟩)
    (fun _ l r h => .exception l exception caught ?_) fun _ _ _ _ _ r hkind => ?_
  · simp only [InstalledRequest.acceptsException, Bool.and_eq_true, beq_iff_eq] at h
    exact h.1
  rw [InstalledRequest.acceptsException, hkind]
  rfl

theorem enteredEvent_raises :
    Raises (fun e => e.isEntry = true ∨ e.isStep = true) enteredEvent := by
  intro vm
  have hentry : Raises (fun e => e.isEntry = true) entryEvent := by
    refine eventFor_raises (fun _ _ => rfl) (fun _ l r h => .entry l ?_) fun _ _ he => by cases he
    simp only [Bool.and_eq_true, beq_iff_eq] at h
    exact h.1
  unfold enteredEvent
  rw [run_bind]
  rcases hentry vm with hnone | ⟨e, requests, hrun, hasked, hused, hspared, he⟩
  · rw [hnone]
    exact (stepEvent_raises .entered).mono (fun _ h => .inr h) vm
  · rw [hrun]
    exact .inr ⟨e, requests, rfl, hasked, hused, hspared, .inl he⟩

/-- A step that ends in the statement does not go unnoticed. -/
theorem Armed.due {vm : Vm} (h : vm.Armed) (hframes : vm.frames.length = 2) :
    (stepEvent .returned).run vm ≠ (none, vm) := by
  intro hnone
  obtain ⟨r, hr, haccepts⟩ := h
  rcases eventFor_run (fun vm _ r => r.acceptsStep .returned vm.frames.length)
    (fun request l => .singleStep request mainThread l) vm with
    ⟨-, hall⟩ | ⟨l, r, requests, hrun, -⟩
  · cases htop : vm.frames with
    | nil => simp [htop] at hframes
    | cons f rest =>
        have hrefused := hall f.location (by simp [topLocation?, htop]) r hr
        rw [hframes, haccepts] at hrefused
        cases hrefused
  · have hsome := hrun.symm.trans hnone
    cases hsome

end Vm

end StreamTrace
