import StreamTrace.Proofs.Debugger.BridgeValues
import StreamTrace.Proofs.Debugger.DebuggeeTalk
import StreamTrace.Proofs.Debugger.WorldResults
import StreamTrace.Proofs.Machine.IntactMachine

/-!
# Arrays of any values

An array holds references, or values of one primitive type. The bridge makes one of any such list,
in whatever state it finds the machine, and what is read back is what was put in. Of any other list
it makes nothing, and the machine does not hear of it.
-/

namespace StreamTrace

open Routine Vm

/-- The elements are references, or there are some and all are of that primitive type. -/
inductive OfOneType (values : List Value) : String → Prop
  | references (hall : ∀ v ∈ values, v.isReference = true) : OfOneType values ClassName.object
  | primitives {name : String} (hsome : values ≠ [])
    (hall : ∀ v ∈ values, v.primitiveName? = some name) : OfOneType values name

namespace Bridge

variable {b : Bridge} {s : BridgeState} {vm : Vm} {values : List Value} {component : String}

/-- The element type of an array is told by its values, if they are of one type. -/
theorem componentOf?_eq_some_iff : componentOf? values = some component ↔
    OfOneType values component := by
  constructor
  · intro h
    unfold componentOf? at h
    split at h
    · rename_i hall
      cases h
      exact .references (List.all_eq_true.mp hall)
    · split at h
      · rename_i name hhead
        split at h
        · rename_i hall
          cases h
          refine .primitives ?_ fun v hv => eq_of_beq (List.all_eq_true.mp hall v hv)
          rintro rfl
          cases hhead
        · cases h
      · cases h
  · intro h
    cases h with
    | references hall => exact componentOf?_references hall
    | primitives hsome hall =>
        obtain ⟨v, rest, rfl⟩ := List.exists_cons_of_ne_nil hsome
        have hfirst := hall v List.mem_cons_self
        have hvalue : v.isReference = false := by
          cases v with
          | reference _ _ => cases hfirst
          | _ => rfl
        have hmixed : ¬(v :: rest).all Value.isReference = true := by simp [hvalue]
        have hhead : (v :: rest).head?.bind Value.primitiveName? = some component := hfirst
        have hsame : (v :: rest).all (·.primitiveName? == some component) = true :=
          List.all_eq_true.mpr fun v' hv' => beq_iff_eq.mpr (hall v' hv')
        unfold componentOf?
        rw [if_neg hmixed, hhead]
        exact if_pos hsame

/-- Of values of different types no array is made, and no command is sent. -/
theorem array_mixed (answer : Answering Vm) (hmixed : ∀ component, ¬OfOneType values component) :
    (b.array values).talk answer s vm =
      ((.error (.tracing "array values must be all references or share one primitive type"), s),
        { debuggee := vm }) := by
  have hnone : componentOf? values = none := by
    cases hcomponent : componentOf? values with
    | none => rfl
    | some component => exact absurd (componentOf?_eq_some_iff.mp hcomponent) (hmixed component)
  unfold array
  rw [hnone]
  rfl

/-- An array that was made holds the values, and they are what is read from it then. -/
theorem array_reads_back (hready : b.stocked.Ready s vm) (h : OfOneType values component)
    (hlength : values.length < 2 ^ 31) :
    ∃ v s' w, (b.array values).talk Vm.answer s vm = ((.ok v, s'), w) ∧
      w.debuggee.HasArray component v values ∧
        ∃ s'' w', (readArray v).talk Vm.answer s' w.debuggee = ((.ok values, s''), w') := by
  have hmakes := array_makes hready (componentOf?_eq_some_iff.mpr h) hlength
  obtain ⟨v, s', w, htalk, hready', -, harray⟩ :=
    (Routine.Meets.of_machine (w := { debuggee := vm }) hmakes).talk_ok
  refine ⟨v, s', w, htalk, harray, ?_⟩
  obtain ⟨_, s'', w', htalk', -, -, rfl, -⟩ := (Routine.Meets.of_machine
    (w := { debuggee := w.debuggee }) (readArray_learns hready' harray)).talk_ok
  exact ⟨s'', w', htalk'⟩

end Bridge

/-- On a stopped machine in which no request is armed, a bridge that works from a class of the
program makes an array of values exactly if they are all references or all of one primitive type.
The array is one of objects or of that type, and the values are read back from it as they are. Of
other values the bridge says so without asking the machine anything. -/
theorem StreamProgram.Reachable.array_read_back {p : StreamProgram} {r : Run Unit}
    (h : p.Reachable r)
    (hhalted : r.vm.Halted) (hrequests : r.vm.requests = []) {b : Bridge}
    (hthread : b.thread = mainThread)
    (hframe : ∃ c ∈ r.vm.classes, c.id = b.frameClass ∧ c.loader = r.vm.appLoader)
    {s : BridgeState} (hfits : s.Fits r.vm) {values : List Value}
    (hlength : values.length < 2 ^ 31) :
    (∀ component, OfOneType values component →
      ∃ v s' w, (b.array values).talk Vm.answer s r.vm = ((.ok v, s'), w) ∧
        w.debuggee.HasArray component v values ∧
          ∃ s'' w', (Bridge.readArray v).talk Vm.answer s' w.debuggee = ((.ok values, s''), w')) ∧
    ((∀ component, ¬OfOneType values component) →
      (b.array values).talk Vm.answer s r.vm = ((.error (.tracing
        "array values must be all references or share one primitive type"), s),
          { debuggee := r.vm })) := by
  have hunwatched : r.vm.Unwatched := by
    intro q hq
    rw [hrequests] at hq
    cases hq
  have hready : b.stocked.Ready s r.vm :=
    { equipped := h.intact.toEquipped, halted := hhalted, unwatched := hunwatched, fits := hfits
      thread := hthread, frame := hframe, files := Bridge.files_fit }
  exact ⟨fun component hall => Bridge.array_reads_back hready hall hlength,
    Bridge.array_mixed Vm.answer⟩

/-- A bridge that starts from the program's class and can get no class file. -/
def bareBridge (vm : Vm) : Bridge :=
  { thread := mainThread, frameClass := vm.appClass "Main", classFiles := fun _ => .ok none
    singleThreaded := true }

theorem StreamProgram.Reachable.array_read_back_of_shorts : ∃ (r : Run Unit) (v : Value)
    (s' : BridgeState) (w : Talk Vm), (StreamProgram.objects [.int 5]).Reachable r ∧ r.vm.Halted ∧
      r.vm.requests = [] ∧ OfOneType [.short 3, .short (-1)] "short" ∧
      ((bareBridge r.vm).array [.short 3, .short (-1)]).talk Vm.answer {} r.vm =
        ((.ok v, s'), w) ∧
      w.debuggee.HasArray "short" v [.short 3, .short (-1)] ∧
      ∃ s'' w', (Bridge.readArray v).talk Vm.answer s' w.debuggee =
        ((.ok [.short 3, .short (-1)], s''), w') := by
  have hbegins := (StreamProgram.objects [.int 5]).launch_atStatement.1
  have hreach : (StreamProgram.objects [.int 5]).Reachable
    (StreamProgram.objects [.int 5]).launch :=
    .launch
  generalize (StreamProgram.objects [.int 5]).launch = r at hbegins hreach
  have hhalted : r.vm.Halted := ⟨hbegins.alive, hbegins.suspended⟩
  have hunwatched : r.vm.Unwatched := by
    intro q hq
    rw [hbegins.requests] at hq
    cases hq
  have hready := Bridge.ready_of_equipped (b := (bareBridge r.vm).stocked) hreach.intact.toEquipped
    hhalted hunwatched rfl rfl rfl
  have hshorts : OfOneType [.short 3, .short (-1)] "short" := .primitives (by simp) (by decide)
  obtain ⟨v, s', w, hmade, hholds, hread⟩ :=
    (StreamProgram.Reachable.array_read_back hreach hhalted hbegins.requests (b := bareBridge r.vm)
      rfl hready.frame (BridgeState.fits_empty _) (by decide)).1 "short" hshorts
  exact ⟨r, v, s', w, hreach, hhalted, hbegins.requests, hshorts, hmade, hholds, hread⟩

end StreamTrace
