import StreamTrace.Proofs.Debugger.AnsweredAttachments
import StreamTrace.Proofs.Debugger.Choices
import StreamTrace.Proofs.Debugger.TraceDiscipline
import StreamTrace.Proofs.Jdwp.Framing

/-!
# Attachments that lost their line

A manager that drives a connection hears of the connection's end only from events. Once the reader
of the connection has stopped, no event comes any more; and the manager, which holds the connection
itself, is never told that none can come. So a trace that waits for an event by then waits for ever,
unless the manager is shut down.
-/

namespace StreamTrace

/-! ## The manager's view -/

theorem Manager.notify_eventsOpen (m : Manager) (e : Event) :
    (m.notify e).eventsOpen = m.eventsOpen := by
  unfold notify
  split <;> rfl

theorem Manager.notify_all_eventsOpen (m : Manager) (events : List Event) :
    (events.foldl notify m).eventsOpen = m.eventsOpen := by
  induction events generalizing m with
  | nil => rfl
  | cons e events ih => exact (ih (m.notify e)).trans (m.notify_eventsOpen e)

theorem Manager.Chosen.eventsOpen {m m' : Manager} {c : Choice} (h : m.Chosen c m') :
    m'.eventsOpen = m.eventsOpen := by
  cases h <;> rfl

theorem Manager.request_eventsOpen {m m' : Manager} {r : TraceRequest}
    (h : (m.request r).toOption = some m') : m'.eventsOpen = m.eventsOpen := by
  unfold request at h
  split at h <;> cases h
  rfl

namespace Attachment

variable {a a' : Attachment} {m : Move} {moves later : List Move} {t : ActiveTrace}

/-- No move tells the manager that no event can come any more. -/
theorem eventsOpen_step (h : a.move? m = some a') :
    a'.manager.eventsOpen = a.manager.eventsOpen := by
  cases m with
  | connection m =>
      obtain ⟨c, -, h⟩ := Option.bind_eq_some_iff.mp h
      cases h
      exact Manager.notify_all_eventsOpen _ _
  | manager c =>
      obtain ⟨m', hm, h⟩ := Option.bind_eq_some_iff.mp h
      cases h
      exact (Manager.chosen_of_choose hm).eventsOpen
  | send =>
      simp only [move?] at h
      split at h <;> cases h
      rfl
  | hear =>
      simp only [move?] at h
      split at h
      next =>
        obtain ⟨r, -, h⟩ := Option.bind_eq_some_iff.mp h
        cases h
        rfl
      next => cases h
  | tell =>
      simp only [move?] at h
      split at h <;> cases h <;> rfl
  | clock now =>
      simp only [move?] at h
      split at h <;> cases h
      rfl
  | request r =>
      obtain ⟨m', hm, h⟩ := Option.bind_eq_some_iff.mp h
      cases h
      exact Manager.request_eventsOpen hm
  | shutDown | closeChannel =>
      cases h
      rfl

theorem eventsOpen_run (h : run moves a = some a') :
    a'.manager.eventsOpen = a.manager.eventsOpen := by
  induction moves generalizing a with
  | nil =>
      cases h
      rfl
  | cons m moves ih =>
      obtain ⟨next, hmove, hrun⟩ := Option.bind_eq_some_iff.mp h
      exact (ih hrun).trans (eventsOpen_step hmove)

theorem manager_of_attach {agent : Agent} {settings : TraceSettings} {classFiles : ClassFiles}
    (h : Link.attach agent settings classFiles = .ok a) :
    a.manager = { options := { settings, classFiles } } := by
  unfold Link.attach at h
  cases hconnect : (Link.connect agent).mapError TraceError.jdwp with
  | error e =>
      rw [hconnect] at h
      cases h
  | ok l =>
      rw [hconnect] at h
      cases hcapabilities : l.capabilities.1.mapError TraceError.jdwp with
      | error e =>
          simp only [bind, Except.bind, hcapabilities] at h
          cases h
      | ok capabilities =>
          simp only [bind, Except.bind, hcapabilities] at h
          split at h <;> cases h
          rfl

/-! ## A trace that waits on a lost line -/

/-- The trace `t` waits, all events are handled, and the reader has stopped. -/
structure Waits (t : ActiveTrace) (a : Attachment) : Prop where
  phase : a.manager.phase = .listening t
  handled : a.manager.inbox = []
  running : a.manager.shutdown = false
  eventsOpen : a.manager.eventsOpen = true
  stopped : a.connection.reader ≠ .reading

theorem Waits.nextAction? (h : a.Waits t) : a.nextAction? = none := by
  simp only [Attachment.nextAction?, h.phase]

/-- The manager's choices are to look at the requests that wait, and nothing else. -/
theorem Waits.choose {m : Manager} {c : Manager.Choice} (h : a.Waits t)
    (hm : a.manager.choose c = some m) :
    m.phase = .listening t ∧ m.inbox = [] ∧ m.shutdown = false := by
  cases Manager.chosen_of_choose hm with
  | queue | close => exact ⟨h.phase, h.handled, h.running⟩
  | resume r rest phase | receive r rest phase | stop phase | finish phase | listen t phase =>
      cases h.phase.symm.trans phase
  | event t e rest phase inbox => cases h.handled.symm.trans inbox
  | cancel t phase asked => cases h.running.symm.trans asked
  | lose t phase inbox lost => cases h.eventsOpen.symm.trans lost

/-- Whatever happens short of a shutdown, the trace goes on waiting and nothing is reported. -/
theorem Waits.step (h : a.Waits t) (hmove : a.move? m = some a') (hm : m ≠ .shutDown) :
    a'.Waits t ∧ a'.reports = a.reports ∧ a'.published = a.published := by
  have hopen := (eventsOpen_step hmove).trans h.eventsOpen
  -- No action is left to perform and no event to hear, so only requests and the line can move.
  cases m with
  | connection m =>
      obtain ⟨c, hc, hmove⟩ := Option.bind_eq_some_iff.mp hmove
      cases hmove
      obtain ⟨hstopped, hevents⟩ := Connection.stopped_step hc h.stopped
      have hnone : c.events.drop a.connection.events.length = [] := by
        rw [hevents, List.drop_length]
      have hmanager : (a.withConnection c).manager = a.manager := by
        simp only [withConnection, hnone, List.foldl_nil]
      exact ⟨⟨hmanager ▸ h.phase, hmanager ▸ h.handled, hmanager ▸ h.running, hopen, hstopped⟩,
        rfl, rfl⟩
  | manager c =>
      obtain ⟨m, hchoose, hmove⟩ := Option.bind_eq_some_iff.mp hmove
      cases hmove
      obtain ⟨hphase, hhandled, hrunning⟩ := h.choose hchoose
      exact ⟨⟨hphase, hhandled, hrunning, hopen, h.stopped⟩, rfl, rfl⟩
  | send | hear =>
      simp only [move?, h.nextAction?] at hmove
      split at hmove
      next heq => cases heq
      next => cases hmove
  | tell | clock now =>
      simp only [move?, h.nextAction?] at hmove
      cases hmove
  | request r =>
      obtain ⟨m, hrequest, hmove⟩ := Option.bind_eq_some_iff.mp hmove
      cases hmove
      simp only [Manager.request, h.phase, Except.toOption] at hrequest
      cases hrequest
      exact ⟨⟨rfl, h.handled, h.running, hopen, h.stopped⟩, rfl, rfl⟩
  | shutDown => exact (hm rfl).elim
  | closeChannel =>
      cases hmove
      exact ⟨⟨h.phase, h.handled, h.running, hopen, h.stopped⟩, rfl, rfl⟩

theorem Waits.run (h : a.Waits t) (hrun : Attachment.run later a = some a')
    (hlater : .shutDown ∉ later) :
    a'.Waits t ∧ a'.reports = a.reports ∧ a'.published = a.published := by
  induction later generalizing a with
  | nil =>
      cases hrun
      exact ⟨h, rfl, rfl⟩
  | cons m later ih =>
      obtain ⟨next, hmove, hrun⟩ := Option.bind_eq_some_iff.mp hrun
      obtain ⟨hnext, hreports, hpublished⟩ :=
        h.step hmove fun hm => hlater (hm ▸ List.mem_cons_self)
      obtain ⟨hwaits, hreports', hpublished'⟩ :=
        ih hnext hrun fun hm => hlater (List.mem_cons_of_mem _ hm)
      exact ⟨hwaits, hreports'.trans hreports, hpublished'.trans hpublished⟩

/-- Once the reader has returned while a trace waits and all events were handled, no history without
a shutdown ends the trace: it goes on waiting, its failure is neither published nor reported. -/
theorem waits_for_ever {agent : Agent} {settings : TraceSettings} {classFiles : ClassFiles}
    {attached : Attachment} (hattach : Link.attach agent settings classFiles = .ok attached)
    (hrun : run moves attached = some a) (hfinished : a.connection.reader = .finished)
    (hphase : a.manager.phase = .listening t) (hhandled : a.manager.inbox = [])
    (hrunning : a.manager.shutdown = false) (hlater : run later a = some a')
    (hquiet : .shutDown ∉ later) :
    a'.manager.phase = .listening t ∧ a'.reports = a.reports ∧ a'.published = a.published := by
  have hwaits : a.Waits t :=
    { phase := hphase
      handled := hhandled
      running := hrunning
      eventsOpen := by rw [eventsOpen_run hrun, manager_of_attach hattach]
      stopped := by rw [hfinished]; exact nofun }
  obtain ⟨hwaits', hreports, hpublished⟩ := hwaits.run hlater hquiet
  exact ⟨hwaits'.phase, hreports, hpublished⟩

/-! ## A line that ends under a trace -/

/-- A chain that only counts. -/
def countElements : TraceRequest :=
  { thread := 1
    chain :=
      { text := "numbers().count()", qualifier := .call "numbers()" countSignature
        intermediate := []
        terminal :=
          { name := "count", arguments := [], declaringType := "java.util.stream.Stream"
            typeBefore := some .object, typeAfter := none, resultType := "long" } } }

/-- The packets of a debuggee with one class, which goes by every name. -/
def obligingAnswer : Command → UInt16 × Bytes
  | .frames _ _ _ =>
    (0, Command.encodeReply {} (.frames 1 0 1) [{ frameId := 1, location := ⟨1, 2, 3, 0⟩ }])
  | .frameCount _ => (0, Encode.i32 2)
  | .classesBySignature _ =>
    (0, Command.encodeReply {} (.classesBySignature "LNumbers;")
      [{ typeTag := TypeTag.classType, typeId := 2, signature := "LNumbers;", status := 7 }])
  | .typeMethods _ =>
    (0, Command.encodeReply {} (.typeMethods 2)
      [{ methodId := 4, name := "count", signature := "()J", modifiers := 1 },
        { methodId := 5, name := "<init>", signature := "()V", modifiers := 1 }])
  | .newInstance _ _ _ _ _ =>
    (0, Command.encodeReply {} (.newInstance 2 1 5 [] 0)
      { value := .object 6, exception := none })
  | .setRequest kind _ _ => (0, Encode.i32 kind.toNat)
  | .disableCollection _ | .resumeVm | .resumeThread _ | .clearRequest _ _ => (0, [])
  | _ => (ErrorCode.notImplemented, [])

theorem obligingAnswer_fitsLine (c : Command) (id : UInt32) :
    (Packet.reply id (obligingAnswer c).1 (obligingAnswer c).2).FitsLine := by
  have hshort : (obligingAnswer c).2.length ≤ 100 := by
    unfold obligingAnswer
    split
    case h_6 kind _ _ => exact Nat.le_trans (Nat.le_of_eq (Bytes.length_ofInt 4 _)) (by decide)
    all_goals decide +kernel
  show 11 + (obligingAnswer c).2.length < 4294967296
  omega

/-- Whether a trace waits for an event next. -/
def isListening : Continuation → Bool
  | .listen _ => true
  | .finished => false

theorem isListening_count :
    isListening ((ActiveTrace.start {} countElements).transcript
      (repliesOf {} obligingAnswer)).2 = true := by
  decide +kernel

/-- Whether nobody uses the connection, whose identifiers have the widest widths. -/
def isFresh (a : Attachment) : Bool :=
  a.call.isNone && decide (a.connection.pending = {}) && a.connection.unread.isEmpty
    && !a.connection.ended && decide (a.connection.reader = .reading)
    && decide (a.connection.sizes = {})

theorem ready_of_isFresh (h : a.isFresh = true) : a.Ready ∧ a.connection.sizes = {} := by
  simp only [isFresh, Bool.and_eq_true, decide_eq_true_eq, Option.isNone_iff_eq_none,
    List.isEmpty_iff, Bool.not_eq_true'] at h
  obtain ⟨⟨⟨⟨⟨hcall, hpending⟩, hunread⟩, hended⟩, hreader⟩, hsizes⟩ := h
  exact ⟨⟨hcall, ⟨hpending, hunread, hended, hreader⟩⟩, hsizes⟩

theorem exists_fresh : ∃ a, Link.attach {} {} .none = .ok a ∧ a.isFresh = true := by
  have hfresh : (Link.attach {} {} .none).toOption.any isFresh = true := by decide +kernel
  cases hattach : Link.attach {} {} .none with
  | error e =>
      rw [hattach] at hfresh
      cases hfresh
  | ok a =>
      rw [hattach] at hfresh
      exact ⟨a, rfl, hfresh⟩

/-- A line that ends while the manager begins to wait for an event. -/
theorem run_lost (h : a.Ready) (hphase : a.manager.phase = .working (.done (.listen t))) :
    ∃ lost, run [.manager .conclude, .connection .close, .connection .read, .connection .drain] a
        = some lost ∧ lost.connection.reader = .finished ∧
      lost.manager = { a.manager with phase := .listening t } := by
  obtain ⟨-, hpending, hunread, -, hreader⟩ := h
  let waiting : Attachment := { a with manager := { a.manager with phase := .listening t } }
  let ended : Connection := { a.connection with ended := true }
  have hconclude : a.move? (.manager .conclude) = some waiting := by
    simp only [move?, Manager.choose, hphase]
    rfl
  have hclose : waiting.move? (.connection .close) = some { waiting with connection := ended } :=
    move_connection rfl rfl
  have hread : ended.move? .read = some ended.fail := by
    simp only [Connection.move?, ended, hreader, hunread, Packet.split, ↓reduceIte]
  have hdrain : ended.fail.move? .drain = some ended.fail.drain := by
    simp only [Connection.move?, Connection.fail, ↓reduceIte]
  obtain ⟨calls, hdrained, -⟩ := ended.fail.drain_eq
  have hevents : ended.fail.drain.events = ended.events := by rw [hdrained]; rfl
  refine ⟨{ waiting with connection := ended.fail.drain },
    run_cons hconclude <| run_cons hclose <|
      run_cons (move_connection hread rfl) <| run_cons (move_connection hdrain hevents) rfl,
    by rw [hdrained], rfl⟩

/-- A manager is attached, traces a chain and waits for the first event when the line ends. Nothing
that may happen then, short of a shutdown, lets the trace fail. -/
theorem waits_for_ever_of_lost :
    ∃ attached moves a t, Link.attach {} {} .none = .ok attached ∧ run moves attached = some a ∧
      a.connection.reader = .finished ∧ a.manager.phase = .listening t ∧
      ∀ later a', .shutDown ∉ later → run later a = some a' →
        a'.manager.phase = .listening t ∧ a'.reports = a.reports ∧ a'.published = a.published := by
  obtain ⟨attached, hattach, hfresh⟩ := exists_fresh
  obtain ⟨hready, hsizes⟩ := ready_of_isFresh hfresh
  have hmanager := manager_of_attach hattach
  let begun : Attachment := { attached with
    manager := { options := {}, phase := .working (ActiveTrace.start {} countElements) } }
  have hbegun : run [.request countElements, .manager .receive] attached = some begun := by
    have hrequest : attached.move? (.request countElements) = some { attached with
        manager := { options := {}, channel := [countElements] } } := by
      simp only [move?, hmanager]
      rfl
    exact run_cons hrequest (run_cons rfl rfl)
  obtain ⟨moves, set, hset, hready, hmanager⟩ := run_program obligingAnswer_fitsLine
    (show begun.Ready from ⟨hready.call, hready.quiet⟩) (ActiveTrace.start {} countElements) rfl
  have hlisten := isListening_count
  rw [show begun.connection.sizes = {} from hsizes] at hmanager
  cases hend :
    ((ActiveTrace.start {} countElements).transcript (repliesOf {} obligingAnswer)).2 with
  | finished =>
      rw [hend] at hlisten
      cases hlisten
  | listen t =>
      rw [hend] at hmanager
      obtain ⟨lost, hlost, hfinished, hwaiting⟩ := run_lost hready (congrArg Manager.phase hmanager)
      rw [hmanager] at hwaiting
      have hrun : run ([.request countElements, .manager .receive] ++ moves ++
          [.manager .conclude, .connection .close, .connection .read, .connection .drain]) attached
          = some lost := by
        rw [run_append, run_append, hbegun, Option.bind_some, hset, Option.bind_some, hlost]
      refine ⟨attached, _, lost, t, hattach, hrun, hfinished, congrArg Manager.phase hwaiting, ?_⟩
      intro later a' hquiet hlater
      exact waits_for_ever hattach hrun hfinished (congrArg Manager.phase hwaiting)
        (congrArg Manager.inbox hwaiting) (congrArg Manager.shutdown hwaiting) hlater hquiet

end Attachment

end StreamTrace
