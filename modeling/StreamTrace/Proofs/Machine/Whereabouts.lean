import StreamTrace.Proofs.Machine.Chronicles
import StreamTrace.Proofs.Machine.LaunchedMachine

/-!
# Where the thread is during a trace

A trace sets its last step while the thread stands at the exit of a method or at an exception that
leaves the chain. From there the thread enters no method and leaves none by a value before the step
ends, in the statement; so no exit of a method is reported while a step is awaited.
-/

namespace StreamTrace

open History (Admits MayStep MayResume Arrived Deep)

variable {home : Home} {stop : Option Event} {threaded : Prop} {inbox : List Event} {h : History}
  {vm vm' : Vm} {chain : StreamChain} {a : Action} {r : a.Reply}

/-! ## How a trace begins -/

namespace History

/-- The frame on top was looked at first, and then the frames were counted. -/
def Begun (h : History) : Prop :=
  ∃ t f fs base post, h = .sent (.frames t 0 1) (.ok (f :: fs : List FrameInfo)) ::
    .sent (.frameCount t) (.ok (base : Int)) :: post

theorem Begun.snoc (hb : h.Begun) (m : Moment) : Begun (h ++ [m]) := by
  obtain ⟨t, f, fs, base, post, rfl⟩ := hb
  exact ⟨t, f, fs, base, post ++ [m], rfl⟩

/-- A trace writes and asks for events only when it has begun. -/
def Starts (h : History) (a : Action) : Prop :=
  (∃ c, a = .command c ∧ (c.writes = true ∨ c.asks = true)) → h.Begun

theorem starts_of_ne (h : History) {a : Action}
    (ha : ∀ c, a = .command c → c.writes = false ∧ c.asks = false) : h.Starts a := by
  rintro ⟨c, hc, hkind⟩
  obtain ⟨hwrites, hasks⟩ := ha c hc
  simp [hwrites, hasks] at hkind

theorem Begun.meets {α : Type} (hb : h.Begun) (p : Program α) :
    p.Meets (.recording Starts) (fun _ h => h.Begun) h := by
  induction p generalizing h with
  | done a => exact hb
  | act a next ih =>
      refine Program.meets_act.mpr ⟨fun _ => hb, ?_⟩
      rintro r h' rfl
      exact ih r (hb.snoc _)

end History

theorem begin_starts (options : TraceOptions) (chain : StreamChain) (thread : ThreadId) :
    (TracePlan.begin options chain thread : Routine TraceError Unit TracePlan).Meets
      (.recording History.Starts) (fun _ _ h => h.Begun) (fun _ _ _ => True) () [] := by
  unfold TracePlan.begin frameOnTop
  refine Routine.meets_bind.mpr <| Routine.meets_bind.mpr <| Routine.meets_command.mpr
    ⟨History.starts_of_ne _ fun c hc => (by cases hc; exact ⟨rfl, rfl⟩), ?_, fun _ _ _ => trivial⟩
  rintro (frames : List FrameInfo) h₁ rfl
  split
  · rename_i f hframe
    obtain ⟨rest, rfl⟩ := List.head?_eq_some_iff.mp hframe
    refine Routine.meets_pure.mpr <| Routine.meets_bind.mpr <| Routine.meets_command.mpr
      ⟨History.starts_of_ne _ fun c hc => (by cases hc; exact ⟨rfl, rfl⟩), ?_, fun _ _ _ => trivial⟩
    rintro (n : Int) h₂ rfl
    exact Routine.meets_pure.mpr ⟨thread, f, rest, n, [], rfl⟩
  · exact Routine.meets_throw.mpr trivial

theorem TraceRun.starts {options : TraceOptions} {request : TraceRequest}
    {next : a.Reply → Program Continuation} (run : TraceRun options request h (.act a next)) :
    h.Starts a := by
  have hstart : (ActiveTrace.start options request).Meets (.recording History.Starts)
      (fun k h => ∀ t, k = .listen t → h.Begun) [] := by
    unfold ActiveTrace.start
    refine (Program.meets_bind _ _ _ _).mpr <| Routine.Meets.program
      (begin_starts options request.chain request.thread) (fun p _ h hb => ?_) fun e _ h _ => ?_
    · exact (hb.meets _).mono fun _ h hb _ _ => hb
    · refine (Program.meets_bind _ _ _ _).mpr ⟨History.starts_of_ne _ nofun, fun _ h₁ _ =>
        ⟨History.starts_of_ne _ nofun, fun _ h₂ _ => ?_⟩⟩
      exact fun t ht => by cases ht
  have hasks := @TraceRun.induction options request _ _ (fun _ => True) _ _ hstart
    (fun t h e hl _ => (((hl t rfl).snoc _).meets _).mono fun _ h hb _ _ => hb)
    (fun t h failure hl _ => ((hl t rfl).meets _).mono fun _ h hb _ _ => hb)
    trivial (fun _ _ _ _ _ => trivial) (fun _ _ _ _ _ => trivial) run
  exact hasks.2.1

/-! ## Steps that end in the statement -/

namespace Vm

/-- The step with that number is requested, and it ends in the statement. -/
def ArmedBy (vm : Vm) (step : RequestId) : Prop :=
  ∃ r ∈ vm.requests, r.id = step ∧ r.kind = EventKind.singleStep ∧ r.acceptsStep .returned 2 = true

theorem ArmedBy.armed {step : RequestId} (h : vm.ArmedBy step) : vm.Armed := by
  obtain ⟨r, hr, -, -, haccepts⟩ := h
  exact ⟨r, hr, haccepts⟩

/-- A request stays set as long as it is not cleared. -/
theorem Performed.kept (hp : vm.Performed a r vm') {request : InstalledRequest}
    (hr : request ∈ vm.requests)
    (hclear : Moment.cleared? (.did a r) ≠ some (request.kind, request.id)) :
    request ∈ vm'.requests := by
  cases a with
  | command c =>
      cases c with
      | setRequest kind policy modifiers =>
          cases (r : Except JdwpError RequestId) with
          | error e =>
              rw [hp.unset]
              exact hr
          | ok id =>
              rw [hp.set.2.2]
              exact List.mem_append_left _ hr
      | clearRequest kind id =>
          rw [hp.clear.2]
          split
          · refine List.mem_filter.mpr ⟨hr, ?_⟩
            have hne : ¬(kind = request.kind ∧ id = request.id) := fun h => by
              obtain ⟨rfl, rfl⟩ := h
              exact hclear rfl
            simp only [Bool.not_eq_true', Bool.and_eq_false_imp, beq_iff_eq, beq_eq_false_iff_ne]
            exact fun hk hid => hne ⟨hk.symm, hid.symm⟩
          · exact hr
      | _ =>
          rw [(hp.requests fun c hc => by cases hc; rfl).1]
          exact hr
  | _ =>
      rw [(hp.requests nofun).1]
      exact hr

theorem Performed.armedBy (hp : vm.Performed a r vm') {step : RequestId} (h : vm.ArmedBy step)
    (hclear : Moment.cleared? (.did a r) ≠ some (EventKind.singleStep, step)) :
    vm'.ArmedBy step := by
  obtain ⟨request, hr, rfl, hkind, haccepts⟩ := h
  exact ⟨request, hp.kept hr (hkind ▸ hclear), rfl, hkind, haccepts⟩

/-- The thread stands at an event from which the step leads it back to the statement, or at the end
of a step in the statement. -/
def LedBack (vm : Vm) (step : RequestId) (e : Event) : Prop :=
  vm.ArmedBy step ∧ e.isHomeward = true ∨ e.isStep = true ∧ vm.frames.length = 2

theorem LedBack.performed {step : RequestId} {e : Event} (h : vm.LedBack step e)
    (hp : vm.Performed a r vm')
    (hclear : Moment.cleared? (.did a r) ≠ some (EventKind.singleStep, step)) :
    vm'.LedBack step e := by
  rcases h with ⟨harmed, he⟩ | ⟨he, hlength⟩
  · exact .inl ⟨hp.armedBy harmed hclear, he⟩
  · exact .inr ⟨he, hp.inPlace.length.trans hlength⟩

end Vm

/-! ## What was seen -/

/-- What a trace has seen of the frames is true, and there were at least two when it began. -/
structure Vm.SeenBy (vm : Vm) (h : History) : Prop where
  counted : ∀ t (n : Int), .sent (.frameCount t) (.ok n) ∈ h.still →
    vm.suspended = true ∧ n = vm.frames.length
  looked : ∀ t start length (frames : List FrameInfo),
    .sent (.frames t start length) (.ok frames) ∈ h.still →
      vm.suspended = true ∧ frames = vm.framesFrom start length
  base : ∀ base, h.base? = some base → 2 ≤ base

namespace Vm

theorem seenBy_nil (vm : Vm) : vm.SeenBy [] :=
  ⟨fun _ _ hm => absurd hm List.not_mem_nil, fun _ _ _ _ hm => absurd hm List.not_mem_nil,
    fun _ hb => by cases hb⟩

/-- A thread that runs was not looked at since it was resumed. -/
theorem SeenBy.runs (hs : vm.SeenBy h) (hruns : vm.suspended = false) (vm' : Vm) :
    vm'.SeenBy h where
  counted t n hm := by
    have hrests := (hs.counted t n hm).1
    rw [hruns] at hrests
    cases hrests
  looked t start length frames hm := by
    have hrests := (hs.looked t start length frames hm).1
    rw [hruns] at hrests
    cases hrests
  base := hs.base

theorem SeenBy.hear (hs : vm.SeenBy h) (e : Event) : vm.SeenBy (h ++ [.heard e]) := by
  have hstill : ∀ m, m ∈ History.still (h ++ [.heard e]) → m = .heard e ∨ m ∈ h.still := by
    intro m hm
    rw [History.still_snoc] at hm
    rcases List.mem_append.mp hm with hm | hm
    · exact .inr hm
    · exact .inl (List.mem_singleton.mp hm)
  refine ⟨fun t n hm => ?_, fun t start length frames hm => ?_, fun base hb => ?_⟩
  · rcases hstill _ hm with hm | hm
    · cases hm
    · exact hs.counted t n hm
  · rcases hstill _ hm with hm | hm
    · cases hm
    · exact hs.looked t start length frames hm
  · rw [History.base?_snoc] at hb
    cases hbase : h.base? with
    | none =>
        rw [hbase] at hb
        cases hb
    | some base' =>
        rw [hbase] at hb
        cases hb
        exact hs.base _ hbase

theorem SeenBy.performed (hs : vm.SeenBy h) (hp : vm.Performed a r vm')
    (hdepth : 2 ≤ vm.frames.length) :
    vm'.SeenBy (h ++ [.did a r]) := by
  have hrests := hp.suspended
  have hstill := History.still_snoc h (.did a r)
  refine ⟨fun t n hm => ?_, fun t start length frames hm => ?_, fun base hb => ?_⟩
  · rw [hstill] at hm
    split at hm
    · cases hm
    · rename_i hresumes
      rw [if_neg hresumes] at hrests
      rw [hrests, hp.inPlace.length]
      rcases List.mem_append.mp hm with hm | hm
      · exact hs.counted t n hm
      · cases List.mem_singleton.mp hm
        exact hp.counted
  · rw [hstill] at hm
    split at hm
    · cases hm
    · rename_i hresumes
      rw [if_neg hresumes] at hrests
      rw [hrests, hp.inPlace.framesFrom]
      rcases List.mem_append.mp hm with hm | hm
      · exact hs.looked t start length frames hm
      · cases List.mem_singleton.mp hm
        exact hp.looked
  · rw [History.base?_snoc] at hb
    cases hbase : h.base? with
    | some base' =>
        rw [hbase] at hb
        cases hb
        exact hs.base _ hbase
    | none =>
        rw [hbase, Option.none_or] at hb
        have hcounted : ∀ t, a = .command (.frameCount t) → 2 ≤ base := by
          rintro t rfl
          cases (r : Except JdwpError Int) with
          | error e => cases hb
          | ok n =>
              obtain rfl : n = base := Option.some.inj hb
              obtain ⟨-, rfl⟩ := hp.counted
              exact_mod_cast hdepth
        cases a with
        | command c =>
            cases c with
            | frameCount t => exact hcounted t rfl
            | _ => cases hb
        | _ => cases hb

/-- The thread is not deep inside the chain when it stands in the statement. -/
theorem SeenBy.not_deep (hs : vm.SeenBy h) (hlength : vm.frames.length = 2) (base : Int) :
    ¬h.Deep base := by
  rintro ⟨hbase, t, n, hm, hlt⟩
  have hle := hs.base base hbase
  have hn := (hs.counted t n hm).2
  omega

/-- The exception that the thread stands at leaves the frame on top, if it leaves the chain at a
place deep inside. -/
theorem SeenBy.not_escaped (hs : vm.SeenBy h) {base : Int} (hdeep : h.Deep base)
    {place : Location} {p : FrameId × Location} (htop : vm.places.head? = some p)
    (hplace : p.2.sameMethod place = true) : ¬h.Escaped base place := by
  obtain ⟨-, t, n, hm, hlt⟩ := hdeep
  have hn := (hs.counted t n hm).2
  rintro (⟨t', n', hm', hle⟩ | ⟨t', length, frames, hm', hpos, hnone⟩)
  · have hn' := (hs.counted t' n' hm').2
    omega
  · have hframes := (hs.looked t' 0 length frames hm').2
    have hmem : ({ frameId := p.1, location := p.2 } : FrameInfo) ∈ frames := by
      rw [hframes]
      cases hvm : vm.frames with
      | nil => simp [places, hvm] at htop
      | cons f rest =>
          simp only [places, hvm, List.map_cons, List.head?_cons, Option.some.injEq] at htop
          subst htop
          obtain ⟨k, hk⟩ : ∃ k, length.toNat = k + 1 := ⟨length.toNat - 1, by omega⟩
          have hneg : ¬length < 0 := by omega
          simp [framesFrom, hvm, hneg, hk]
    rw [hnone _ hmem] at hplace
    cases hplace

/-- A trace that may set a step stands at an event from which the step leads back. -/
theorem SeenBy.homeward (hs : vm.SeenBy h) {modifiers : List EventModifier}
    (hm : h.MayStep modifiers) {e : Event} (he : h.event? = some e) (hat : vm.IsAt e)
    (harrived : ∀ id t l, e = .singleStep id t l → h.Arrived id → vm.frames.length = 2) :
    e.isHomeward = true ∧ ∀ id, InstalledRequest.acceptsStep
      { id, kind := EventKind.singleStep, modifiers, depth := vm.frames.length }
      .returned 2 = true := by
  cases hm with
  | out thread event =>
      rw [he] at event
      cases event
      have hdepth : 2 < vm.frames.length := by
        rw [← length_places]
        exact hat
      exact ⟨rfl, fun id => by simp [InstalledRequest.acceptsStep, hdepth]⟩
  | into thread deep event =>
      refine ⟨?_, fun id => by simp [InstalledRequest.acceptsStep]⟩
      rcases event with ⟨request, t, l, hevent, harr⟩ |
        ⟨request, t, l, exception, caught, hevent, hesc⟩
      · rw [he] at hevent
        cases hevent
        exact absurd deep (hs.not_deep (harrived _ _ _ rfl harr) _)
      · rw [he] at hevent
        cases hevent
        cases caught with
        | none => rfl
        | some place =>
            obtain ⟨p, htop, hplace⟩ := hat
            exact absurd (hesc place rfl) (hs.not_escaped deep htop hplace)

end Vm

/-! ## Where the thread is -/

/-- What the thread of a trace with that history is about, when it stopped last at `stop` and the
events in `inbox` were not heard yet. If a step is awaited, it leads the thread back. -/
inductive Whereabouts (threaded : Prop) (stop : Option Event) (inbox : List Event) (h : History)
    (vm : Vm) : Prop where
  /-- It was not resumed yet. -/
  | early (still : h.still = h) (unheard : ∀ e, .heard e ∉ h) (unasked : h.awaited? = none)
      (quiet : inbox = []) (rests : threaded → vm.suspended = true ∨ vm.requests = [])
  /-- It runs. -/
  | runs (moved : h.still ≠ h) (unheard : h.event? = none) (quiet : inbox = [])
      (free : vm.suspended = false)
      (bound : ∀ step, h.awaited? = some step →
        vm.ArmedBy step ∧ ∃ e, stop = some e ∧ e.isHomeward = true)
  /-- It has stopped at an event. -/
  | came (e : Event) (here : stop = some e) (moved : h.still ≠ h) (unheard : h.event? = none)
      (queued : inbox = [e]) (rests : vm.suspended = true)
      (bound : ∀ step, h.awaited? = some step → e.isExit = false ∧ vm.LedBack step e)
  /-- It stands at an event that was heard. -/
  | stands (e : Event) (here : stop = some e) (heard : h.event? = some e) (quiet : inbox = [])
      (rests : vm.suspended = true) (bound : ∀ step, h.awaited? = some step → vm.LedBack step e)
      (arrived : ∀ id t l, e = .singleStep id t l → h.Arrived id → vm.frames.length = 2)
  /-- It has ended, or stopped for no reason. -/
  | lost (moved : h.still ≠ h) (unheard : h.event? = none) (quiet : inbox = [])
      (rests : threaded → vm.suspended = true)

/-! ### Moments -/

namespace Moment

theorem stand_of_resumes {event : Option Event} {m : Moment} (hm : m.resumes = true) :
    m.stand event = none := by
  unfold resumes at hm
  split at hm
  · exact if_pos hm
  · exact if_pos hm
  · cases hm

theorem stand_of_did (hm : Moment.resumes (.did a r) = false) (event : Option Event) :
    Moment.stand event (.did a r) = event := by
  cases a with
  | command c =>
      cases c with
      | resumeVm => exact if_neg (by simpa [Moment.resumes] using hm)
      | resumeThread t => exact if_neg (by simpa [Moment.resumes] using hm)
      | _ => rfl
  | _ => rfl

theorem await_of_resumes {awaited : Option RequestId} {m : Moment} (hm : m.resumes = true) :
    m.await awaited = awaited := by
  unfold resumes at hm
  split at hm
  · rfl
  · rfl
  · cases hm

theorem cleared?_of_resumes {m : Moment} (hm : m.resumes = true) : m.cleared? = none := by
  unfold resumes at hm
  split at hm
  · rfl
  · rfl
  · cases hm

/-- What is awaited was awaited, and not cleared, or it was just set. -/
theorem await_did {awaited : Option RequestId} {step : RequestId}
    (h : Moment.await awaited (.did a r) = some step) :
    awaited = some step ∧ Moment.cleared? (.did a r) ≠ some (EventKind.singleStep, step) ∨
      ∃ policy modifiers, a = .command (.setRequest EventKind.singleStep policy modifiers) ∧
        Moment.opened? (.did a r) = some (EventKind.singleStep, step) := by
  cases a with
  | command c =>
      cases c with
      | setRequest kind policy modifiers =>
          rcases Moment.await_eq_some h with hold | hnew
          · exact .inl ⟨hold, nofun⟩
          · have hkind : kind = EventKind.singleStep := by
              cases (r : Except JdwpError RequestId) with
              | error e => cases hnew
              | ok id => exact congrArg Prod.fst (Option.some.inj hnew)
            subst hkind
            exact .inr ⟨policy, modifiers, rfl, hnew⟩
      | clearRequest kind id =>
          rcases Moment.await_eq_some h with hold | hnew
          · refine .inl ⟨hold, fun hclear => ?_⟩
            obtain ⟨rfl, rfl⟩ := Prod.mk.inj (Option.some.inj hclear)
            rw [hold] at h
            have hnone := (if_pos ⟨rfl, rfl⟩ : (if EventKind.singleStep = EventKind.singleStep ∧
              some id = some id then none else some id) = none)
            cases hnone.symm.trans h
          · cases hnew
      | _ => exact .inl ⟨h, nofun⟩
  | _ => exact .inl ⟨h, nofun⟩

end Moment

/-- A step that is set is set on the machine, and it is as the rules say. -/
theorem Vm.Performed.step {policy : UInt8} {modifiers : List EventModifier} {id : RequestId}
    {r : (Action.command (.setRequest EventKind.singleStep policy modifiers)).Reply}
    (hp : vm.Performed (.command (.setRequest EventKind.singleStep policy modifiers)) r vm')
    (hid : Moment.opened? (.did _ r) = some (EventKind.singleStep, id))
    (haccepts : InstalledRequest.acceptsStep
      { id, kind := EventKind.singleStep, modifiers, depth := vm.frames.length }
      .returned 2 = true) :
    vm'.ArmedBy id := by
  cases (r : Except JdwpError RequestId) with
  | error e => cases hid
  | ok id' =>
      obtain rfl : id' = id := congrArg Prod.snd (Option.some.inj hid)
      refine ⟨_, ?_, rfl, rfl, haccepts⟩
      rw [hp.set.2.2]
      exact List.mem_append_right _ (List.mem_singleton.mpr rfl)

/-- An event is at its end only if it was the last. -/
theorem History.Arrived.did {id : RequestId} (h' : History.Arrived (h ++ [.did a r]) id) :
    h.Arrived id := by
  obtain ⟨pre, t, l, post, heq, hawaited, hpost⟩ := h'
  induction post using List.reverseRecOn with
  | nil =>
      have hlast := (List.append_singleton_inj.mp heq).2
      cases hlast
  | append_singleton post m _ =>
      have hsplit : h ++ [.did a r] = (pre ++ .heard (.singleStep id t l) :: post) ++ [m] := by
        rw [heq, List.append_assoc]
        rfl
      obtain ⟨rfl, -⟩ := List.append_singleton_inj.mp hsplit
      exact ⟨pre, t, l, post, rfl, hawaited, fun m' hm' =>
        hpost m' (List.mem_append_left _ hm')⟩

theorem History.Arrived.heard {id : RequestId} {e : Event}
    (h' : History.Arrived (h ++ [.heard e]) id) : h.awaited? = some id := by
  obtain ⟨pre, t, l, post, heq, hawaited, hpost⟩ := h'
  induction post using List.reverseRecOn with
  | nil =>
      obtain ⟨rfl, -⟩ := List.append_singleton_inj.mp heq
      exact hawaited
  | append_singleton post m _ =>
      have hsplit : h ++ [.heard e] = (pre ++ .heard (.singleStep id t l) :: post) ++ [m] := by
        rw [heq, List.append_assoc]
        rfl
      obtain ⟨-, hm⟩ := List.append_singleton_inj.mp hsplit
      have hevent := (hpost m (List.mem_append_right _ (List.mem_singleton.mpr rfl))).1
      rw [← hm] at hevent
      cases hevent

/-! ### Steps -/

namespace Whereabouts

/-- Moments in which the thread is not resumed keep it moved. -/
theorem moved_snoc (hmoved : h.still ≠ h) (m : Moment) : History.still (h ++ [m]) ≠ h ++ [m] := by
  rw [History.still_snoc]
  split
  · exact (List.append_ne_nil_of_right_ne_nil h (List.cons_ne_nil m [])).symm
  · exact fun heq => hmoved (List.append_singleton_inj.mp heq).1

theorem event_of_mayStep {modifiers : List EventModifier} (hm : h.MayStep modifiers) :
    ∃ e, h.event? = some e := by
  cases hm with
  | out thread event => exact ⟨_, event⟩
  | into thread deep event =>
      rcases event with ⟨_, _, _, hevent, -⟩ | ⟨_, _, _, _, _, hevent, -⟩
      · exact ⟨_, hevent⟩
      · exact ⟨_, hevent⟩

theorem mayResume (ha : h.Admits chain a) (hr : Moment.resumes (.did a r) = true) :
    h.MayResume := by
  cases a with
  | command c =>
      cases c with
      | resumeVm => exact ha.resume _ rfl rfl
      | resumeThread t => exact ha.resume _ rfl rfl
      | _ => cases hr
  | _ => cases hr

/-- At no event the thread is not resumed, once it was. -/
theorem not_mayResume (hmoved : h.still ≠ h) (hevent : h.event? = none) : ¬h.MayResume := by
  rintro (⟨hstill, -⟩ | ⟨e, he, -⟩)
  · exact hmoved hstill
  · rw [hevent] at he
    cases he

/-- At no event no step is set. -/
theorem unset (ha : h.Admits chain a) (hevent : h.event? = none) {step : RequestId}
    (hstep : History.awaited? (h ++ [.did a r]) = some step) :
    h.awaited? = some step ∧ Moment.cleared? (.did a r) ≠ some (EventKind.singleStep, step) := by
  rw [History.awaited?_snoc] at hstep
  rcases Moment.await_did hstep with hold | ⟨policy, modifiers, rfl, -⟩
  · exact hold
  · obtain ⟨e, he⟩ := event_of_mayStep (ha.step policy modifiers rfl).2
    rw [hevent] at he
    cases he

/-- The thread is resumed. -/
theorem resume (hw : Whereabouts threaded stop inbox h vm) (hs : vm.SeenBy h)
    (ha : h.Admits chain a) (hp : vm.Performed a r vm') (hr : Moment.resumes (.did a r) = true) :
    Whereabouts threaded stop inbox (h ++ [.did a r]) vm' := by
  have hfree : vm'.suspended = false := by rw [hp.suspended, if_pos hr]
  have hmoved : History.still (h ++ [.did a r]) ≠ h ++ [.did a r] := by
    rw [History.still_snoc, if_pos hr]
    exact (List.append_ne_nil_of_right_ne_nil h (List.cons_ne_nil _ [])).symm
  have hevent : History.event? (h ++ [.did a r]) = none := by
    rw [History.event?_snoc, Moment.stand_of_resumes hr]
  have hawaited : History.awaited? (h ++ [.did a r]) = h.awaited? := by
    rw [History.awaited?_snoc, Moment.await_of_resumes hr]
  have hmay := mayResume ha hr
  -- A thread that runs, or that has an event nobody heard, is not resumed.
  cases hw with
  | early still unheard unasked quiet rests =>
      refine .runs hmoved hevent quiet hfree fun step hstep => ?_
      rw [hawaited, unasked] at hstep
      cases hstep
  | runs moved unheard => exact absurd hmay (not_mayResume moved unheard)
  | came e here moved unheard => exact absurd hmay (not_mayResume moved unheard)
  | lost moved unheard => exact absurd hmay (not_mayResume moved unheard)
  | stands e here heard quiet rests bound arrived =>
      refine .runs hmoved hevent quiet hfree fun step hstep => ?_
      rw [hawaited] at hstep
      rcases bound step hstep with ⟨harmed, he⟩ | ⟨he, hlength⟩
      · refine ⟨hp.armedBy harmed ?_, e, here, he⟩
        rw [Moment.cleared?_of_resumes hr]
        nofun
      · -- From the end of a step the thread is resumed only deep inside the chain.
        rcases hmay with ⟨-, hunheard⟩ | ⟨e', he', hstep'⟩
        · exact absurd (History.mem_of_event heard) (hunheard e)
        · rw [heard] at he'
          cases he'
          cases e with
          | singleStep id t l =>
              obtain ⟨-, base, hdeep⟩ := hstep' id t l rfl
              exact absurd hdeep (hs.not_deep hlength base)
          | _ => cases he

/-- The trace does something else. -/
theorem rest (hw : Whereabouts threaded stop inbox h vm) (hs : vm.SeenBy h)
    (hplace : ∀ e, stop = some e → vm.IsAt e) (ha : h.Admits chain a) (hstarts : h.Starts a)
    (hp : vm.Performed a r vm') (hr : Moment.resumes (.did a r) = false) :
    Whereabouts threaded stop inbox (h ++ [.did a r]) vm' := by
  have hsuspended : vm'.suspended = vm.suspended := by rw [hp.suspended, hr]; rfl
  have hevent : History.event? (h ++ [.did a r]) = h.event? := by
    rw [History.event?_snoc, Moment.stand_of_did hr]
  -- The thread does not move, so every case stays itself. What may change is what is requested.
  cases hw with
  | early still unheard unasked quiet rests =>
      have hnone : h.event? = none := by
        by_contra hsome
        obtain ⟨e, he⟩ := Option.ne_none_iff_exists'.mp hsome
        exact unheard e (History.mem_of_event he)
      refine .early ?_ (fun e he => ?_) ?_ quiet fun hthread => ?_
      · rw [History.still_snoc, hr, still]
        rfl
      · rcases List.mem_append.mp he with he | he
        · exact unheard e he
        · cases List.mem_singleton.mp he
      · by_contra hsome
        obtain ⟨step, hstep⟩ := Option.ne_none_iff_exists'.mp hsome
        have hold := (unset ha hnone hstep).1
        rw [unasked] at hold
        cases hold
      · rw [hsuspended]
        by_cases hasks : ∃ c, a = .command c ∧ c.asks = true
        · -- Events are asked for only after the thread was looked at, so it is stopped.
          obtain ⟨c, hc, hasks⟩ := hasks
          obtain ⟨t, f, fs, base, post, hbegun⟩ := hstarts ⟨c, hc, .inr hasks⟩
          have hlook : .sent (.frames t 0 1) (.ok (f :: fs)) ∈ h.still := by
            rw [still, hbegun]
            exact List.mem_cons_self
          exact .inl (hs.looked _ _ _ _ hlook).1
        · rw [(hp.requests fun c hc => Bool.eq_false_iff.mpr fun h => hasks ⟨c, hc, h⟩).1]
          exact rests hthread
  | runs moved unheard quiet free bound =>
      refine .runs (moved_snoc moved _) (hevent.trans unheard) quiet (hsuspended.trans free)
        fun step hstep => ?_
      obtain ⟨hold, hclear⟩ := unset ha unheard hstep
      obtain ⟨harmed, hhome⟩ := bound step hold
      exact ⟨hp.armedBy harmed hclear, hhome⟩
  | came e here moved unheard queued rests bound =>
      refine .came e here (moved_snoc moved _) (hevent.trans unheard) queued
        (hsuspended.trans rests) fun step hstep => ?_
      obtain ⟨hold, hclear⟩ := unset ha unheard hstep
      obtain ⟨hexit, hback⟩ := bound step hold
      exact ⟨hexit, hback.performed hp hclear⟩
  | lost moved unheard quiet rests =>
      exact .lost (moved_snoc moved _) (hevent.trans unheard) quiet fun hthread =>
        hsuspended.trans (rests hthread)
  | stands e here heard quiet rests bound arrived =>
      refine .stands e here (hevent.trans heard) quiet (hsuspended.trans rests)
        (fun step hstep => ?_) fun id t l he harr => ?_
      · rw [History.awaited?_snoc] at hstep
        rcases Moment.await_did hstep with ⟨hold, hclear⟩ | ⟨policy, modifiers, rfl, hset⟩
        · exact (bound step hold).performed hp hclear
        · obtain ⟨hhome, haccepts⟩ :=
            hs.homeward (ha.step policy modifiers rfl).2 heard (hplace e here) arrived
          exact .inl ⟨hp.step hset (haccepts step), hhome⟩
      · exact hp.inPlace.length.trans (arrived id t l he harr.did)

theorem act (hw : Whereabouts threaded stop inbox h vm) (hs : vm.SeenBy h)
    (hplace : ∀ e, stop = some e → vm.IsAt e) (ha : h.Admits chain a) (hstarts : h.Starts a)
    (hp : vm.Performed a r vm') :
    Whereabouts threaded stop inbox (h ++ [.did a r]) vm' := by
  cases hr : Moment.resumes (.did a r) with
  | true => exact hw.resume hs ha hp hr
  | false => exact hw.rest hs hplace ha hstarts hp hr

/-- The trace hears of the event at which the thread stands, and of no exit while a step is
awaited. -/
theorem hear {e : Event} {rest : List Event}
    (hw : Whereabouts threaded stop (e :: rest) h vm) :
    Whereabouts threaded stop rest (h ++ [.heard e]) vm ∧
      (e.isExit = true → h.awaited? = none) := by
  cases hw with
  | came e' here moved unheard queued rests bound =>
      cases queued
      refine ⟨.stands e here ?_ rfl rests (fun step hstep => ?_) fun id t l he harr => ?_,
        fun hexit => ?_⟩
      · rw [History.event?_snoc]
        rfl
      · rw [History.awaited?_snoc] at hstep
        exact (bound step hstep).2
      · subst he
        rcases (bound id harr.heard).2 with ⟨-, hhome⟩ | ⟨-, hlength⟩
        · cases hhome
        · exact hlength
      · by_contra hsome
        obtain ⟨step, hstep⟩ := Option.ne_none_iff_exists'.mp hsome
        rw [(bound step hstep).1] at hexit
        cases hexit
  | early still unheard unasked quiet rests => cases quiet
  | runs moved unheard quiet free bound => cases quiet
  | stands e here heard quiet rests bound arrived => cases quiet
  | lost moved unheard quiet rests => cases quiet

/-- The event that was heard last is the one at which the thread stands. -/
theorem eq_stop (hwhere : Whereabouts threaded stop inbox h vm)
    {e : Event} (he : h.event? = some e) : stop = some e := by
  have hnone : h.event? ≠ none := by simp [he]
  cases hwhere with
  | early still unheard unasked quiet rests => exact absurd (History.mem_of_event he) (unheard e)
  | runs moved unheard quiet free bound => exact absurd unheard hnone
  | came e' here moved unheard queued rests bound => exact absurd unheard hnone
  | stands e' here heard quiet rests bound arrived => exact here.trans (heard.symm.trans he)
  | lost moved unheard quiet rests => exact absurd unheard hnone

end Whereabouts

/-! ### A thread that runs -/

/-- What a trace knows of a thread that runs: the trace has resumed it, or had begun while it ran
and no event was asked for. -/
structure History.Runs (h : History) (inbox : List Event) (unasked : Prop)
    (led : RequestId → Prop) :
    Prop where
  quiet : inbox = []
  unheard : h.event? = none
  unmoved : h.still = h → (∀ e, .heard e ∉ h) ∧ h.awaited? = none ∧ unasked
  led : ∀ step, h.awaited? = some step → led step

theorem Whereabouts.running (hw : Whereabouts threaded stop inbox h vm) (hthreaded : threaded)
    (hfree : vm.suspended = false) : h.Runs inbox (vm.requests = []) fun step =>
      vm.ArmedBy step ∧ ∃ e, stop = some e ∧ e.isHomeward = true := by
  cases hw with
  | early still unheard unasked quiet rests =>
      refine ⟨quiet, ?_, fun _ => ⟨unheard, unasked, (rests hthreaded).resolve_left ?_⟩, ?_⟩
      · by_contra hsome
        obtain ⟨e, he⟩ := Option.ne_none_iff_exists'.mp hsome
        exact unheard e (History.mem_of_event he)
      · simp [hfree]
      · simp [unasked]
  | runs moved unheard quiet free bound =>
      exact ⟨quiet, unheard, fun hstill => absurd hstill moved, bound⟩
  | came e here moved unheard queued rests bound =>
      rw [hfree] at rests
      cases rests
  | stands e here heard quiet rests bound arrived =>
      rw [hfree] at rests
      cases rests
  | lost moved unheard quiet rests =>
      have hrests := rests hthreaded
      rw [hfree] at hrests
      cases hrests

/-- The thread ends, or stops for no reason. -/
theorem History.Runs.lost {unasked : Prop} {led : RequestId → Prop} {w : World}
    (hr : h.Runs inbox unasked led) (hnone : unasked → w.thread = none) (hrests : w.IsAtRest) :
    Whereabouts (w.thread.isSome = true) none inbox h w.vm := by
  by_cases hstill : h.still = h
  · obtain ⟨hunheard, hawaited, hunasked⟩ := hr.unmoved hstill
    refine .early hstill hunheard hawaited hr.quiet fun hthreaded => ?_
    rw [hnone hunasked] at hthreaded
    cases hthreaded
  · refine .lost hstill hr.unheard hr.quiet fun hthreaded => ?_
    rcases hrests with hnone | hsuspended
    · rw [hnone] at hthreaded
      cases hthreaded
    · exact hsuspended

end StreamTrace
