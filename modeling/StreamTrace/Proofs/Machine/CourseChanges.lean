import StreamTrace.Proofs.Machine.Whereabouts

/-!
# What changes in a course

Along every course on a living machine the thread is where the history of the trace in flight says.
So each step of a course is one of a few changes of the machine: a trace does something, it hears of
the event at which the thread stands, or the thread goes on.
-/

namespace StreamTrace

variable {home : Home} {options : TraceOptions} {stop : Option Event} {bound : Prop}

/-! ## The thread goes on -/

namespace World

variable {w w' : World}

/-- The thread has stopped at `stop`, where it goes on as it should whatever a debugger has done in
the meantime. -/
structure Parked (home : Home) (stop : Option Event) (w : World) : Prop where
  stands : w.vm.Stands home
  depth : 2 ≤ w.vm.frames.length
  place : ∀ e, stop = some e → w.vm.IsAt e
  homeward : ∀ resume, w.thread = some resume → ∀ (bound : Prop) (vm : Vm), vm.Stands home →
    vm.places = w.vm.places → (bound → vm.Armed ∧ ∃ e, stop = some e ∧ e.isHomeward = true) →
      (resume vm).Homeward home 2 (fun _ _ => True) True bound vm

theorem Parked.inPlace (h : w.Parked home stop) (hvm : w.vm.InPlace w'.vm)
    (hthread : w'.thread = w.thread) : w'.Parked home stop := by
  refine ⟨hvm.stands h.stands, hvm.length.symm ▸ h.depth,
    fun e he => (h.place e he).of_places hvm.places, ?_⟩
  rw [hthread, hvm.places]
  exact h.homeward

/-- A thread that goes on changes nothing of what a debugger keeps on the machine, and comes to its
end or to another stop. If it was bound to go back, that is an exception that nothing catches, or
the end of a step in the statement. -/
structure ThreadProgress (bound : Prop) (stop : Option Event) (w w' : World) : Prop where
  objects : ∀ id, (w.vm.lookup? id).isSome → (w'.vm.lookup? id).isSome
  bottom : w'.vm.bottom 2 = w.vm.bottom 2
  written : w'.vm.frameWrites = w.vm.frameWrites
  used : ∀ r ∈ w'.vm.requests, r ∈ w.vm.requests
  raised : ∀ e, stop = some e → ∃ r ∈ w.vm.requests, Vm.RaisedBy r e
  numbers : w'.vm.nextRequest = w.vm.nextRequest
  pins : w'.vm.pins = w.vm.pins
  quiet : w'.vm.outbox = []
  rests : w'.IsAtRest
  intercept : w'.intercept = w.intercept
  manager : w'.manager = w.manager.map fun m => stop.elim m m.notify
  spared : ∀ e, stop = some e → e.isUncaught = true →
    ∀ r ∈ w.vm.requests, r.kind = EventKind.singleStep → r ∈ w'.vm.requests
  stopped : ∀ e, stop = some e → w'.vm.suspended = true
  unstopped : w.vm.requests = [] → w.vm.suspended = false → w'.thread = none ∧ stop = none
  homeward : bound → w'.thread = none ∧ stop = none ∨
    ∃ e, stop = some e ∧ (e.isUncaught = true ∨ e.isStep = true ∧ w'.vm.frames.length = 2)

theorem Parked.go {resume : Vm → Run Unit} (hp : w.Parked home stop)
    (hthread : w.thread = some resume)
    (hbound : bound → w.vm.Armed ∧ ∃ e, stop = some e ∧ e.isHomeward = true)
    (hquiet : w.vm.outbox = []) (halive : (w.arrive (resume w.vm)).vm.dead = false) :
    ∃ stop', (resume w.vm).vm.outbox = stop'.toList ∧
      (w.arrive (resume w.vm)).Parked home stop' ∧
        w.ThreadProgress bound stop' (w.arrive (resume w.vm)) := by
  have htravels := hp.homeward resume hthread bound w.vm hp.stands rfl hbound
  have hkeeps := htravels.keeps
  generalize resume w.vm = run at htravels hkeeps halive ⊢
  -- The thread runs to the end of the program or to its next stop.
  cases run with
  | ended u vm =>
      obtain ⟨-, hend⟩ := htravels
      obtain ⟨hran, hstands, hdepth, -⟩ := hend trivial
      let ended : World := { w with vm, thread := none }
      have hdead : vm.dead = false := (congrArg Vm.dead (collect_vm ended)).symm.trans halive
      have houtbox : vm.outbox = [] := (hran.outbox hdead).trans hquiet
      have harrive : w.arrive (.ended u vm) = ended := collect_of_quiet houtbox
      rw [harrive]
      refine ⟨none, houtbox, ⟨hstands, Nat.le_of_eq hdepth.symm, nofun, nofun⟩, hran.objects,
        hran.bottom, hran.written, fun r hr => hran.asked ▸ hr, nofun, hran.numbers, hran.pins,
        houtbox, .inl rfl, rfl, ?_, nofun, nofun, fun _ _ => ⟨rfl, rfl⟩,
        fun _ => .inl ⟨rfl, rfl⟩⟩
      exact (Option.map_id' ..).symm
  | waiting vm resume' =>
      obtain ⟨-, -, event, hstop, hresume⟩ := htravels
      obtain ⟨⟨vm₀, hran, hstops⟩, hstands⟩ := hstop trivial
      let came : World := { w with vm, thread := some resume' }
      have hvm : came.collect.vm = { vm with outbox := [] } := collect_vm came
      obtain ⟨requests, hstate⟩ := hstops.state
      -- Nothing was left in the outbox, and a run puts nothing there but what it stops with.
      have houtbox : vm.outbox = event.toList := by
        have hdead : vm.dead = false := (congrArg Vm.dead hvm).symm.trans halive
        rw [hstate]
        show vm₀.outbox ++ event.toList = _
        rw [hran.outbox ((congrArg Vm.dead hstate).symm.trans hdead), hquiet, List.nil_append]
      obtain ⟨hthread', hintercept, hmanager⟩ := collect_news (w := came) houtbox
      show ∃ stop', vm.outbox = stop'.toList ∧ came.collect.Parked home stop' ∧
        w.ThreadProgress bound stop' came.collect
      generalize came.collect = w' at hvm hthread' hintercept hmanager ⊢
      have hframes : w'.vm.frames = vm₀.frames := by rw [hvm, hstate]
      have hplaces : w'.vm.places = vm.places := by rw [hvm]; rfl
      have hplaces₀ : w'.vm.places = vm₀.places := by rw [hplaces, hstate]; rfl
      have hrequests : w'.vm.requests = vm.requests := by rw [hvm]
      have hsuspended : w'.vm.suspended = true := by rw [hvm, hstate]
      refine ⟨event, houtbox, ⟨?_, ?_, fun e he => (hstops.place e he).of_places hplaces₀,
        fun resume hr bound vm₁ hs hsame hb => ?_⟩, fun id hid => ?_, ?_, ?_, fun r hr => ?_,
        fun e he => ?_, ?_, ?_, by rw [hvm], .inr hsuspended, hintercept, hmanager,
        fun e he hcaught r hr hkind => ?_,
        fun e he => hsuspended, fun hnone hfree => ?_, fun hb => .inr ?_⟩
      · rw [hvm]
        exact hstands.of_frames rfl (Nat.le_refl _) (hstands.toHasHome.of_eq (Nat.le_refl _) rfl)
      · rw [hframes]
        exact Vm.le_length_of_bottom hran.bottom hp.depth
      · obtain rfl := Option.some.inj (hthread'.symm.trans hr)
        have hnext := hresume bound vm₁
        rwa [eq_true (⟨trivial, hs, hsame.trans hplaces, hb⟩ : True ∧ _ ∧ _ ∧ _)] at hnext
      · rw [hvm, hstate]
        exact hran.objects id hid
      · rw [← hran.bottom, Vm.bottom, Vm.bottom, hframes]
      · rw [hvm, hstate]
        exact hran.written
      · rw [← hran.asked]
        exact hstops.used r (hrequests ▸ hr)
      · rw [← hran.asked]
        exact hstops.raised e he
      · rw [hvm, hstate]
        exact hran.numbers
      · rw [hvm, hstate]
        exact hran.pins
      · rw [hrequests]
        exact hstops.spared e he hcaught r (hran.asked.symm ▸ hr) hkind
      · have hawake := hkeeps.1.awake hnone hfree
        rw [hkeeps.2.1] at hawake
        cases hawake
      · rw [hframes]
        exact hstops.homeward hb

/-- A launched program stands in front of its statement. -/
theorem launch_parked (p : StreamProgram) (intercept : Interception) :
    (World.launch p intercept).Parked p.home none := by
  obtain ⟨hbegins, htravels⟩ := p.launch_atStatement
  unfold World.launch
  cases hrun : p.launch with
  | ended u vm =>
      rw [hrun] at hbegins
      exact ⟨hbegins.toStands, Nat.le_of_eq hbegins.depth.symm, nofun, nofun⟩
  | waiting vm resume =>
      rw [hrun] at hbegins htravels
      obtain ⟨-, -, event, hstop, hresume⟩ := htravels
      obtain ⟨⟨vm₀, -, hstops⟩, -⟩ := hstop trivial
      have hnone : event = none := by
        obtain ⟨requests, hstate⟩ := hstops.state
        have houtbox : vm₀.outbox ++ event.toList = [] :=
          (congrArg Vm.outbox hstate).symm.trans hbegins.outbox
        cases event with
        | none => rfl
        | some e => simp at houtbox
      subst hnone
      refine ⟨hbegins.toStands, Nat.le_of_eq hbegins.depth.symm, nofun,
        fun resume' hr bound vm₁ hs hplaces hb => ?_⟩
      obtain rfl := Option.some.inj hr
      have hnext := hresume bound vm₁
      rwa [eq_true (⟨trivial, hs, hplaces, hb⟩ : True ∧ _ ∧ _ ∧ _)] at hnext

end World

/-! ## Courses -/

/-- The trace in flight, whose history is `h`, knows the thread to be where it is. -/
structure World.TracksThread (stop : Option Event) (inbox : List Event) (h : History) (w : World) :
    Prop where
  orderly : h.Orderly
  seen : w.vm.SeenBy h
  whereabouts : Whereabouts (w.thread.isSome = true) stop inbox h w.vm

namespace Told

variable {calm : Prop} {s s' : Told}

/-- What holds all along a course. -/
structure Invariant (calm : Prop) (home : Home) (options : TraceOptions) (s : Told) : Prop extends
    s.Sound options where
  parked : ∃ stop, s.world.Parked home stop ∧ (calm → ∀ e m, s.chronicle.current = some e →
    s.world.manager = some m → s.world.TracksThread stop m.inbox e.history)
  orderly : calm → ∀ e ∈ s.chronicle.done, e.history.Orderly
  alive : s.world.vm.dead = false

/-- What a step of a course changes on the machine and in the chronicle. -/
inductive Change (options : TraceOptions) (s s' : Told) : Prop where
  | acts (e : Episode) (a : Action) (next : a.Reply → Program Continuation)
      (current : s.chronicle.current = some e) (leaves : e.Remaining options (.act a next))
      (performs : s.world.vm.Performed a (s.world.perform a).1 s'.world.vm)
      (told : s'.chronicle = s.chronicle.tell (some (.goesOn (.did a (s.world.perform a).1))))
  | hears (e : Episode) (event : Event) (current : s.chronicle.current = some e)
      (same : s'.world.vm = s.world.vm)
      (told : s'.chronicle = s.chronicle.tell (some (.goesOn (.heard event))))
  | begins (r : TraceRequest) (current : s.chronicle.current = none)
      (same : s'.world.vm = s.world.vm) (told : s'.chronicle = s.chronicle.tell (some (.begins r)))
  | ends (e : Episode) (current : s.chronicle.current = some e)
      (leaves : e.Remaining options (.done .finished)) (same : s'.world.vm = s.world.vm)
      (told : s'.chronicle = s.chronicle.tell (some .ends))
  | goes (bound : Prop) (stop : Option Event) (goes : s.world.ThreadProgress bound stop s'.world)
      (told : s'.chronicle = s.chronicle)
  | rests (same : ∃ suspended, s'.world.vm = { s.world.vm with suspended })
      (told : s'.chronicle = s.chronicle)

/-- No trace that is over is forgotten. -/
theorem Change.done_prefix (hc : s.Change options s') : s.chronicle.done <+: s'.chronicle.done := by
  cases hc with
  | acts e a next current leaves performs told => exact told ▸ Chronicle.done_prefix _ _
  | hears e event current same told => exact told ▸ Chronicle.done_prefix _ _
  | begins r current same told => exact told ▸ Chronicle.done_prefix _ _
  | ends e current leaves same told => exact told ▸ Chronicle.done_prefix _ _
  | goes bound stop goes told => exact told ▸ List.prefix_rfl
  | rests same told => exact told ▸ List.prefix_rfl

theorem Change.done_length (hc : s.Change options s') :
    s.chronicle.done.length ≤ s'.chronicle.done.length :=
  hc.done_prefix.length_le

/-- Nothing has changed that matters here. -/
theorem Invariant.of_same (hw : s.Invariant calm home options) (hworld : s'.world.vm = s.world.vm)
    (hthread : s'.world.thread = s.world.thread)
    (hintercept : s'.world.intercept = s.world.intercept)
    (htold : s'.chronicle = s.chronicle)
    (hmanager : ∀ m, s.world.manager = some m → ∃ m', s'.world.manager = some m' ∧
      m'.options = m.options ∧ m'.inbox = m.inbox ∧
        (m.InFlight options s.chronicle.current → m'.InFlight options s.chronicle.current)) :
    s'.Invariant calm home options := by
  obtain ⟨m, hm, hoptions, hflight⟩ := hw.manager
  obtain ⟨m', hm', hoptions', hinbox, hkeeps⟩ := hmanager m hm
  obtain ⟨stop, hparked, hescorts⟩ := hw.parked
  refine ⟨⟨hintercept ▸ hw.refuses, hworld ▸ hw.quiet, ⟨m', hm', hoptions'.trans hoptions, ?_⟩,
    htold ▸ hw.done⟩, ⟨stop, ?_, fun hcalm e m₁ he hm₁ => ?_⟩, htold ▸ hw.orderly,
    hworld ▸ hw.alive⟩
  · rw [htold]
    exact hkeeps hflight
  · exact ⟨hworld ▸ hparked.stands, hworld ▸ hparked.depth, hworld ▸ hparked.place,
      by rw [hthread, hworld]; exact hparked.homeward⟩
  · obtain rfl := Option.some.inj (hm'.symm.trans hm₁)
    rw [htold] at he
    have hold := hescorts hcalm e m he hm
    rw [hinbox]
    exact ⟨hold.orderly, hworld ▸ hold.seen, by rw [hthread, hworld]; exact hold.whereabouts⟩

/-! ### Choices -/

theorem Invariant.choose (hw : s.Invariant calm home options) {m m' : Manager} {d : Option Deed}
    (hm : s.world.manager = some m) (hc : m.Outcome d m')
    (hquiet : calm → ∀ r, d = some (.begins r) → s.world.IsQuiet) :
    let s' : Told := ⟨{ s.world with manager := some m' }, s.chronicle.tell d⟩
    s'.Invariant calm home options ∧ s.Change options s' := by
  intro s'
  obtain ⟨m₁, hm₁, hoptions, hflight⟩ := hw.manager
  obtain rfl := Option.some.inj (hm₁.symm.trans hm)
  obtain ⟨stop, hparked, hescorts⟩ := hw.parked
  have hparked' : s'.world.Parked home stop :=
    ⟨hparked.stands, hparked.depth, hparked.place, hparked.homeward⟩
  have hsound : ∀ current, s'.chronicle.current = current → m'.options = m₁.options →
      m'.InFlight options current →
        (∀ e ∈ s'.chronicle.done, e.Remaining options (.done .finished)) →
        s'.Sound options := fun current hcurrent hsame hf hdone =>
    ⟨hw.refuses, hw.quiet, ⟨m', rfl, hsame.trans hoptions, hcurrent ▸ hf⟩, hdone⟩
  -- A choice that does nothing of its own leaves machine and chronicle alone, so only the program
  -- of the trace in flight is to be looked at.
  have hsilent : d = none → m'.inbox = m₁.inbox → m'.options = m₁.options →
      (m₁.InFlight options s.chronicle.current → m'.InFlight options s.chronicle.current) →
        s'.Invariant calm home options ∧ s.Change options s' := by
    rintro rfl hinbox hsame hkeeps
    refine ⟨hw.of_same rfl rfl rfl rfl fun m hm' => ?_, .rests ⟨s.world.vm.suspended, rfl⟩ rfl⟩
    obtain rfl := Option.some.inj (hm'.symm.trans hm)
    exact ⟨m', rfl, hsame, hinbox, hkeeps⟩
  cases hc with
  | begins r phase works empty same =>
      have hnone : s.chronicle.current = none := by
        unfold Manager.InFlight at hflight
        rwa [phase] at hflight
      have hf : m'.InFlight options (some ⟨r, []⟩) := by
        refine Manager.inFlight_of_working works ?_
        rw [hoptions]
        exact .start
      refine ⟨⟨hsound _ rfl same hf hw.done, ⟨stop, hparked', fun hcalm e m he hm' => ?_⟩,
        hw.orderly, hw.alive⟩, .begins r hnone rfl rfl⟩
      cases he
      cases hm'
      -- The inbox is empty at the beginning: no event from before counts as one of this trace.
      rw [empty]
      refine ⟨?_, Vm.seenBy_nil _, .early rfl (fun _ => List.not_mem_nil) rfl rfl fun hthread => ?_⟩
      · rintro pre id t l v hpre
        simp at hpre
      · rcases hquiet hcalm r rfl with (hnone | hsuspended) | hunasked
        · have hthread' : s.world.thread.isSome = true := hthread
          rw [hnone] at hthread'
          cases hthread'
        · exact .inl hsuspended
        · exact .inr hunasked
  | hears t e rest phase inbox works left same =>
      obtain ⟨episode, hcurrent, hleaves⟩ := hflight.listening phase
      have htold : s'.chronicle.current = some (episode.snoc (.heard e)) := by
        show s.chronicle.current.map _ = _
        rw [hcurrent]
        rfl
      have hf := Manager.inFlight_of_working (e := episode.snoc (.heard e)) works
        (TraceRun.event e hleaves)
      refine ⟨⟨hsound _ htold same hf hw.done, ⟨stop, hparked', fun hcalm e' m he hm' => ?_⟩,
        hw.orderly, hw.alive⟩, .hears episode e hcurrent rfl rfl⟩
      obtain rfl := Option.some.inj (htold.symm.trans he)
      cases hm'
      have hold := hescorts hcalm episode m₁ hcurrent hm₁
      have hwhere := hold.whereabouts
      rw [inbox] at hwhere
      -- The event leaves the inbox for the history, and what was known of it goes along.
      obtain ⟨hheard, hexit⟩ := hwhere.hear
      rw [left]
      refine ⟨(History.orderly_snoc _ _).mpr ⟨hold.orderly, ?_⟩, hold.seen.hear e, hheard⟩
      rintro id t l v hevent
      cases hevent
      exact hexit rfl
  | ends phase settled same =>
      obtain ⟨episode, hcurrent, hleaves⟩ := hflight.working phase
      have hdone : s'.chronicle.done = s.chronicle.done ++ [episode] := by
        show s.chronicle.done ++ s.chronicle.current.toList = _
        rw [hcurrent]
        rfl
      have hf : m'.InFlight options none := by
        unfold Manager.InFlight
        rcases settled with hphase | hphase <;> rw [hphase]
      refine ⟨⟨hsound none rfl same hf ?_, ⟨stop, hparked', fun _ e m he => by cases he⟩, ?_,
        hw.alive⟩, .ends episode hcurrent hleaves rfl rfl⟩
      · rw [hdone]
        intro e he
        rcases List.mem_append.mp he with he | he
        · exact hw.done e he
        · exact List.mem_singleton.mp he ▸ hleaves
      · rw [hdone]
        intro hcalm e he
        rcases List.mem_append.mp he with he | he
        · exact hw.orderly hcalm e he
        · exact List.mem_singleton.mp he ▸ (hescorts hcalm episode m₁ hcurrent hm₁).orderly
  | listens t phase listening inbox same =>
      refine hsilent rfl inbox same fun hf => ?_
      obtain ⟨episode, hcurrent, hleaves⟩ := hf.working phase
      rw [hcurrent]
      unfold Manager.InFlight
      rw [listening]
      exact ⟨episode, rfl, hleaves⟩
  | givesUp t failure phase works inbox same =>
      refine hsilent rfl inbox same fun hf => ?_
      obtain ⟨episode, hcurrent, hleaves⟩ := hf.listening phase
      rw [hcurrent]
      exact Manager.inFlight_of_working works (TraceRun.cancel failure hleaves)
  | waits phase inbox same =>
      refine hsilent rfl inbox same fun hf => ?_
      unfold Manager.InFlight at hf ⊢
      rcases phase with hphase | ⟨hidle, hstopped⟩
      · rwa [hphase]
      · rw [hidle] at hf
        rwa [hstopped]

/-! ### Actions -/

theorem Invariant.act (hw : s.Invariant calm home options) {m : Manager} {a : Action}
    {next : a.Reply → Program Continuation} (hm : s.world.manager = some m)
    (hphase : m.phase = .working (.act a next)) :
    let r := (s.world.perform a).1
    let s' : Told :=
      ⟨(s.world.perform a).2.goOn (next r), s.chronicle.tell (some (.goesOn (.did a r)))⟩
    s'.Invariant calm home options ∧ s.Change options s' := by
  intro r s'
  obtain ⟨m₁, hm₁, hoptions, hflight⟩ := hw.manager
  obtain rfl := Option.some.inj (hm₁.symm.trans hm)
  obtain ⟨stop, hparked, hescorts⟩ := hw.parked
  obtain ⟨e, hcurrent, hleaves⟩ := hflight.working hphase
  obtain ⟨hp, hsame⟩ := s.world.perform_spec a hw.refuses hw.quiet
  have htold : s'.chronicle.current = some (e.snoc (.did a r)) := by
    show s.chronicle.current.map _ = _
    rw [hcurrent]
    rfl
  have hmanager : s'.world.manager = some { m₁ with phase := .working (next r) } := by
    show (s.world.perform a).2.manager.map _ = _
    rw [hsame.manager, hm]
    rfl
  have hvm : s'.world.vm = (s.world.perform a).2.vm := rfl
  have hthread : s'.world.thread = s.world.thread := hsame.thread
  refine ⟨⟨⟨hsame.intercept.symm ▸ hw.refuses, hp.inPlace.outbox.trans hw.quiet,
    ⟨_, hmanager, hoptions, htold ▸ Manager.inFlight_of_working rfl (TraceRun.act r hleaves)⟩,
    hw.done⟩, ⟨stop, hparked.inPlace hp.inPlace hthread, fun hcalm e' m he hm' => ?_⟩,
    hw.orderly, hp.inPlace.alive.trans hw.alive⟩, .acts e a next hcurrent hleaves hp rfl⟩
  obtain rfl := Option.some.inj (htold.symm.trans he)
  obtain rfl := Option.some.inj (hmanager.symm.trans hm')
  have hescort := hescorts hcalm e m₁ hcurrent hm₁
  have hadmits := (TraceRun.lawful hleaves).2.1
  refine ⟨?_, hescort.seen.performed hp hparked.depth, ?_⟩
  · exact (History.orderly_snoc _ _).mpr ⟨hescort.orderly, fun _ _ _ _ hm => by cases hm⟩
  · rw [hthread]
    exact hescort.whereabouts.act hescort.seen hparked.place hadmits (TraceRun.starts hleaves) hp

/-! ### The thread -/

theorem notify_of_inFlight {m : Manager} {e : Episode} (hf : m.InFlight options (some e))
    (event : Event) :
    m.notify event = { m with inbox := m.inbox ++ [event] } := by
  unfold Manager.InFlight at hf
  unfold Manager.notify
  split at hf
  · cases hf
  · cases hf
  · rename_i hphase
    rw [hphase]
  · rename_i hphase
    rw [hphase]

theorem stop_elim_notify (m : Manager) (stop : Option Event) :
    (stop.elim m m.notify).phase = m.phase ∧ (stop.elim m m.notify).options = m.options := by
  cases stop with
  | none => exact ⟨rfl, rfl⟩
  | some e =>
      obtain ⟨inbox, hnotify⟩ := Manager.notify_eq m e
      show (m.notify e).phase = _ ∧ (m.notify e).options = _
      rw [hnotify]
      exact ⟨rfl, rfl⟩

theorem Invariant.go (hw : s.Invariant calm home options) {resume : Vm → Run Unit}
    (hthread : s.world.thread = some resume) (hreleased : s.world.released = true)
    (halive' : (s.world.arrive (resume s.world.vm)).vm.dead = false) :
    let s' : Told := ⟨s.world.arrive (resume s.world.vm), s.chronicle⟩
    s'.Invariant calm home options ∧ s.Change options s' := by
  intro s'
  obtain ⟨m, hm, hoptions, hflight⟩ := hw.manager
  obtain ⟨stop, hparked, hescorts⟩ := hw.parked
  have hfree : s.world.vm.suspended = false := by
    unfold World.released at hreleased
    rw [hw.alive] at hreleased
    simpa using hreleased
  have hthreaded : s.world.thread.isSome = true := by rw [hthread]; rfl
  have hruns : calm → ∀ e, s.chronicle.current = some e →
      e.history.Runs m.inbox (s.world.vm.requests = []) fun step =>
        s.world.vm.ArmedBy step ∧ ∃ e, stop = some e ∧ e.isHomeward = true :=
    fun hcalm e he => (hescorts hcalm e m he hm).whereabouts.running hthreaded hfree
  -- The way home is bound only while a step is awaited and nobody else wakes the thread.
  let bound : Prop :=
    calm ∧ ∃ e step, s.chronicle.current = some e ∧ e.history.awaited? = some step
  have hbound : bound → s.world.vm.Armed ∧ ∃ e, stop = some e ∧ e.isHomeward = true := by
    rintro ⟨hcalm, e, step, he, hstep⟩
    obtain ⟨harmed, hhome⟩ := (hruns hcalm e he).led step hstep
    exact ⟨harmed.armed, hhome⟩
  obtain ⟨stop', -, hparked', hgoes⟩ := hparked.go hthread hbound hw.quiet halive'
  obtain ⟨hphase, hoptions'⟩ := stop_elim_notify m stop'
  have hm' : s'.world.manager = some (stop'.elim m m.notify) := by
    rw [hgoes.manager, hm]
    rfl
  refine ⟨⟨⟨hgoes.intercept ▸ hw.refuses, hgoes.quiet, ⟨_, hm', hoptions'.trans hoptions, ?_⟩,
    hw.done⟩, ⟨stop', hparked', fun hcalm e m₁ he hm₁ => ?_⟩, hw.orderly, halive'⟩,
    .goes bound stop' hgoes rfl⟩
  · unfold Manager.InFlight
    rw [hphase]
    exact hflight
  · obtain rfl := Option.some.inj (hm'.symm.trans hm₁)
    have hrun := hruns hcalm e he
    have hold := hescorts hcalm e m he hm
    refine ⟨hold.orderly, hold.seen.runs hfree _, ?_⟩
    rw [he] at hflight
    cases stop' with
    | none => exact hrun.lost (fun hnone => (hgoes.unstopped hnone hfree).1) hgoes.rests
    | some event =>
        have hinbox : (m.notify event).inbox = [event] := by
          rw [notify_of_inFlight hflight, hrun.quiet]
          rfl
        -- An event was asked for by someone, so the trace has done more than look around.
        have hmoved : e.history.still ≠ e.history := fun hstill => by
          cases (hgoes.unstopped (hrun.unmoved hstill).2.2 hfree).2
        refine .came event rfl hmoved hrun.unheard hinbox (hgoes.stopped event rfl)
          fun step hstep => ?_
        -- An uncaught exception spares the step that is requested; the step itself comes home.
        rcases hgoes.homeward ⟨hcalm, e, step, he, hstep⟩ with
          ⟨-, hnone⟩ | ⟨event', hevent, huncaught | ⟨hs, hl⟩⟩
        · cases hnone
        · cases hevent
          obtain ⟨request, hr, hid, hkind, haccepts⟩ := (hrun.led step hstep).1
          have hkept := hgoes.spared event rfl huncaught request hr hkind
          refine ⟨?_, .inl ⟨⟨request, hkept, hid, hkind, haccepts⟩, ?_⟩⟩
          · cases event <;> first | rfl | cases huncaught
          · rw [Event.isHomeward, huncaught, Bool.or_true]
        · cases hevent
          refine ⟨?_, .inr ⟨hs, hl⟩⟩
          cases event <;> first | rfl | cases hs

/-- Someone else wakes the thread. -/
theorem Invariant.wake (hw : s.Invariant calm home options)
    (hidle : calm → ∀ m, s.world.manager = some m → m.phase = .idle ∨ m.phase = .stopped) :
    let s' : Told :=
      ⟨{ s.world with vm := { s.world.vm with suspended := false } }, s.chronicle⟩
    s'.Invariant calm home options ∧ s.Change options s' := by
  intro s'
  obtain ⟨m, hm, hoptions, hflight⟩ := hw.manager
  obtain ⟨stop, hparked, -⟩ := hw.parked
  have hstands : s'.world.vm.Stands home := hparked.stands.of_frames rfl (Nat.le_refl _)
    (hparked.stands.toHasHome.of_eq (Nat.le_refl _) rfl)
  have hparked' : s'.world.Parked home stop :=
    ⟨hstands, hparked.depth, fun e he => (hparked.place e he).of_places rfl, hparked.homeward⟩
  refine ⟨⟨⟨hw.refuses, hw.quiet, ⟨m, hm, hoptions, hflight⟩, hw.done⟩,
    ⟨stop, hparked', fun hcalm e m' he hm' => ?_⟩, hw.orderly, hw.alive⟩, .rests ⟨false, rfl⟩ rfl⟩
  -- No trace is in flight.
  have hcurrent : s.chronicle.current = some e := he
  unfold Manager.InFlight at hflight
  rcases hidle hcalm m hm with hphase | hphase <;> rw [hphase, hcurrent] at hflight <;>
    cases hflight

/-! ### Every step -/

theorem Invariant.request (hw : s.Invariant calm home options) {r : TraceRequest} {w' : World}
    (hr : s.world.request r = .ok w') :
    Invariant calm home options ⟨w', s.chronicle⟩ ∧ s.Change options ⟨w', s.chronicle⟩ := by
  obtain ⟨m, hm, -, -⟩ := hw.manager
  obtain rfl : w' = { s.world with manager := some { m with channel := m.channel ++ [r] } } := by
    simp only [World.request, hm, Manager.request] at hr
    split at hr
    · cases hr
    · exact (Except.ok.inj hr).symm
  refine ⟨hw.of_same rfl rfl rfl rfl fun m' hm' => ?_, .rests ⟨s.world.vm.suspended, rfl⟩ rfl⟩
  obtain rfl := Option.some.inj (hm.symm.trans hm')
  exact ⟨_, rfl, rfl, rfl, id⟩

/-- Every step of a course keeps the invariant. -/
theorem Invariant.courseStep (hw : s.Invariant calm home options) (hn : s.CourseStep calm s') :
    s'.Invariant calm home options ∧ s.Change options s' := by
  obtain ⟨w', ch'⟩ := s'
  obtain ⟨⟨d, hstep, htold⟩, halive'⟩ := hn
  dsimp only at hstep htold halive'
  subst htold
  generalize hworld : s.world = w at hstep
  cases hstep with
  | choose c manager chosen quiet =>
      subst hworld
      exact hw.choose manager (Manager.chosen_of_choose chosen).outcome quiet
  | act manager phase =>
      subst hworld
      exact hw.act manager phase
  | go thread released =>
      subst hworld
      exact hw.go thread released halive'
  | request r queued =>
      subst hworld
      exact hw.request queued
  | shutdown =>
      subst hworld
      refine ⟨hw.of_same rfl rfl rfl rfl fun m hm => ⟨m.requestShutdown, ?_, rfl, rfl, id⟩,
        .rests ⟨s.world.vm.suspended, rfl⟩ rfl⟩
      show s.world.manager.map _ = _
      rw [hm]
      rfl
  | wake idle =>
      subst hworld
      exact hw.wake idle
  | pass now =>
      subst hworld
      exact ⟨hw.of_same rfl rfl rfl rfl fun m hm => ⟨m, hm, rfl, rfl, id⟩,
        .rests ⟨s.world.vm.suspended, rfl⟩ rfl⟩

theorem launch_world (p : StreamProgram) (intercept : Interception) (options : TraceOptions) :
    (launch p intercept options).world.vm = p.launch.vm ∧
      (launch p intercept options).world.intercept = intercept := by
  unfold launch World.startManager World.launch
  cases p.launch <;> exact ⟨rfl, rfl⟩

/-- A launched program is where it should be. -/
theorem invariant_launch (p : StreamProgram) (options : TraceOptions) {intercept : Interception}
    (hrefuses : intercept.Refuses) :
    (launch p intercept options).Invariant calm p.home options := by
  obtain ⟨hbegins, -⟩ := p.launch_atStatement
  obtain ⟨hvm, hintercept⟩ := launch_world p intercept options
  have hparked : (launch p intercept options).world.Parked p.home none :=
    (World.launch_parked p intercept).inPlace (.refl _) rfl
  refine ⟨⟨by rw [hintercept]; exact hrefuses, hvm ▸ hbegins.outbox, ⟨{ options }, rfl, rfl, rfl⟩,
    fun e he => absurd he List.not_mem_nil⟩, ⟨none, hparked, fun _ e m he => by cases he⟩,
    fun _ e he => absurd he List.not_mem_nil, hvm ▸ hbegins.alive⟩

/-- A manager begins with the trace that it was asked for. -/
theorem later_begun (p : StreamProgram) (intercept : Interception) (options : TraceOptions)
    (r : TraceRequest) :
    (launch p intercept options).Later calm (begun p intercept options r) := by
  obtain ⟨hbegins, -⟩ := p.launch_atStatement
  let asked : Told := ⟨{ (launch p intercept options).world with
    manager := some { options, channel := [r] } }, {}⟩
  have hlaunched : asked.world.vm = p.launch.vm := (launch_world p intercept options).1
  have halive : asked.world.vm.dead = false := by rw [hlaunched, hbegins.alive]
  have hask : (launch p intercept options).CourseStep calm asked := by
    refine ⟨⟨_, .request r ?_, rfl⟩, halive⟩
    unfold launch World.startManager World.request
    rfl
  refine (Relation.ReflTransGen.single hask).tail
    ⟨⟨_, .choose (m := { options, channel := [r] }) .receive rfl rfl
      fun _ _ _ => .inl (.inr ?_), rfl⟩, halive⟩
  rw [hlaunched, hbegins.suspended]

/-- What holds at first, and is kept by every change, holds all along a course. -/
theorem Later.induction {P : Told → Prop} (hs : s.Later calm s')
    (hw : s.Invariant calm home options) (h : P s)
    (change : ∀ s s', s.Invariant calm home options → s'.Invariant calm home options →
      s.Change options s' →
      s'.world.intercept = s.world.intercept → P s → P s') :
    s'.Invariant calm home options ∧ P s' := by
  induction hs with
  | refl => exact ⟨hw, h⟩
  | tail _ hn ih =>
      obtain ⟨hw', h'⟩ := ih
      obtain ⟨hw'', hchange⟩ := hw'.courseStep hn
      obtain ⟨⟨d, hstep, -⟩, -⟩ := hn
      exact ⟨hw'', change _ _ hw' hw'' hchange hstep.intercept h'⟩

/-- The history of a trace in flight only grows, and it is kept when the trace is over. -/
theorem Later.extends (hw : s.Invariant calm home options) {done : List Episode} {r : TraceRequest}
    {h : History} (hnow : s.chronicle = ⟨done, some ⟨r, h⟩⟩) (hlater : s.Later calm s') :
    ∃ h', h <+: h' ∧ (s'.chronicle = ⟨done, some ⟨r, h'⟩⟩ ∨
      done ++ [⟨r, h'⟩] <+: s'.chronicle.done) := by
  refine (hlater.induction (P := fun s' => ∃ h', h <+: h' ∧
    (s'.chronicle = ⟨done, some ⟨r, h'⟩⟩ ∨ done ++ [⟨r, h'⟩] <+: s'.chronicle.done)) hw
    ⟨h, List.prefix_rfl, .inl hnow⟩ fun s s' _ _ hc _ hs => ?_).2
  obtain ⟨h', hgrown, hflight | hover⟩ := hs
  · have hsnoc : ∀ m, h <+: h' ++ [m] := fun m => hgrown.trans (List.prefix_append h' [m])
    cases hc with
    | acts e a next current leaves performs told =>
        refine ⟨_, hsnoc (.did a (s.world.perform a).1), .inl ?_⟩
        rw [told, hflight]
        rfl
    | hears e event current same told =>
        refine ⟨_, hsnoc (.heard event), .inl ?_⟩
        rw [told, hflight]
        rfl
    | begins r' current same told =>
        rw [hflight] at current
        cases current
    | ends e current leaves same told =>
        refine ⟨h', hgrown, .inr ?_⟩
        rw [told, hflight]
        exact List.prefix_rfl
    | goes bound stop goes told => exact ⟨h', hgrown, .inl (told.trans hflight)⟩
    | rests same told => exact ⟨h', hgrown, .inl (told.trans hflight)⟩
  · exact ⟨h', hgrown, .inr (hover.trans hc.done_prefix)⟩

end Told

end StreamTrace
