import Mathlib.Data.List.Nodup
import StreamTrace.Proofs.Machine.CourseChanges

/-!
# Requests are cleared

A trace names every request that it has set in one command to clear it, before it delivers its
final report, whichever of its commands are refused. So what is still set on the machine then is
set because the command to clear it was refused.
-/

namespace StreamTrace

variable {options : TraceOptions} {home : Home} {intercept : Interception}

/-! ## What the chronicle tells of -/

namespace Chronicle

variable {ch : Chronicle} {e : Episode}

theorem history_goesOn (h : ch.current = some e) (m : Moment) :
    (ch.tell (some (.goesOn m))).history = ch.history ++ [m] := by
  simp [history, tell, h, Episode.snoc]

theorem history_begins (h : ch.current = none) (r : TraceRequest) :
    (ch.tell (some (.begins r))).history = ch.history := by
  simp [history, tell, h]

theorem history_ends (ch : Chronicle) : (ch.tell (some .ends)).history = ch.history := by
  simp [history, tell]

theorem mem_history {m : Moment} :
    m ∈ ch.history ↔ ∃ e ∈ ch.done ++ ch.current.toList, m ∈ e.history := List.mem_flatMap

end Chronicle

/-! ## Cleared requests were set -/

theorem Program.refusing_opened {α : Type} (p : Program α) :
    History.opened (p.transcript refusing).1 = [] := by
  refine List.filterMap_eq_nil_iff.mpr fun m hm => ?_
  obtain ⟨a, rfl⟩ := Program.mem_transcript hm
  cases a with
  | command c => cases c <;> rfl
  | _ => rfl

namespace History

variable {h h' : History}

theorem opened_append (h h' : History) : opened (h ++ h') = h.opened ++ h'.opened :=
  List.filterMap_append

theorem cleared_append (h h' : History) : cleared (h ++ h') = h.cleared ++ h'.cleared :=
  List.filterMap_append

theorem mem_cleared {x : UInt8 × RequestId} :
    x ∈ h.cleared ↔ ∃ r : (Command.clearRequest x.1 x.2).Answer,
      .sent (.clearRequest x.1 x.2) r ∈ h := by
  constructor
  · intro hx
    obtain ⟨m, hm, hcleared⟩ := List.mem_filterMap.mp hx
    unfold Moment.cleared? at hcleared
    split at hcleared
    · cases hcleared
      exact ⟨_, hm⟩
    · cases hcleared
  · rintro ⟨r, hr⟩
    exact List.mem_filterMap.mpr ⟨_, hr, rfl⟩

theorem Orderly.append_quiet (ho : h.Orderly) (hquiet : ∀ e, .heard e ∉ h') :
    (h ++ h').Orderly := by
  induction h' using List.reverseRecOn with
  | nil => rwa [List.append_nil]
  | append_singleton h' m ih =>
      rw [← List.append_assoc]
      refine (orderly_snoc _ _).mpr ⟨ih fun e he => hquiet e (by simp [he]), ?_⟩
      rintro id t l v rfl
      exact absurd (by simp) (hquiet (.methodExitWithValue id t l v))

theorem Releasing.opened (hr : h.Releasing) : h.opened = [] := by
  refine List.filterMap_eq_nil_iff.mpr fun m hm => ?_
  obtain ⟨id, r, rfl⟩ := hr m hm
  rfl

theorem Releasing.cleared (hr : h.Releasing) : h.cleared = [] := by
  refine List.filterMap_eq_nil_iff.mpr fun m hm => ?_
  obtain ⟨id, r, rfl⟩ := hr m hm
  rfl

/-- What was set up to the final report was cleared, and nothing is set or cleared after it. -/
theorem Ends.balanced {before after : History} {r : Report} (he : before.Ends r after)
    (ho : (before ++ .did (.deliver r) () :: after).Orderly) :
    (before ++ .did (.deliver r) () :: after).opened.Perm
      (before ++ .did (.deliver r) () :: after).cleared := by
  have hopened : History.opened (.did (.deliver r) () :: after) = after.opened := rfl
  have hcleared : History.cleared (.did (.deliver r) () :: after) = after.cleared := rfl
  rw [opened_append, cleared_append, hopened, hcleared, he.releasing.opened,
    he.releasing.cleared, List.append_nil, List.append_nil]
  exact he.settled.requests fun pre id t l v hpre =>
    ho pre id t l v (hpre.trans (List.prefix_append _ _))

end History

/-- A trace clears only what it has set: if nothing more could be set, its books would be balanced
in the end. -/
theorem TraceRun.cleared_subset {request : TraceRequest} {h : History} {q : Program Continuation}
    (run : TraceRun options request h q) (ho : h.Orderly) : h.cleared ⊆ h.opened := by
  have hrun := run.transcript refusing
  have hquiet : ∀ e, .heard e ∉ (q.transcript refusing).1 := fun e he => by
    obtain ⟨a, ha⟩ := Program.mem_transcript he
    cases ha
  have ho' := ho.append_quiet hquiet
  have hopened : (h ++ (q.transcript refusing).1).opened = h.opened := by
    rw [History.opened_append, q.refusing_opened, List.append_nil]
  have hsubset : (h ++ (q.transcript refusing).1).cleared ⊆
      (h ++ (q.transcript refusing).1).opened := by
    generalize h ++ (q.transcript refusing).1 = h' at hrun ho'
    cases hk : (q.transcript refusing).2 with
    | finished =>
        rw [hk] at hrun
        obtain ⟨before, r, after, rfl, he, -⟩ := hrun.ends
        exact (he.balanced ho').symm.subset
    | listen t =>
        rw [hk] at hrun
        have hl := (Program.meets_done.mp hrun.lawful.2).2
        exact fun x hx => (hl.requests.balance ho').symm.subset (List.mem_append_left _ hx)
  rw [hopened, History.cleared_append] at hsubset
  exact fun x hx => hsubset (List.mem_append_left _ hx)

/-- So do all the traces of a course. -/
theorem Told.Invariant.cleared_subset {s : Told} (hw : s.Invariant True home options) :
    s.chronicle.history.cleared ⊆ s.chronicle.history.opened := by
  intro x hx
  obtain ⟨r, hm⟩ := History.mem_cleared.mp hx
  obtain ⟨e, he, hm⟩ := Chronicle.mem_history.mp hm
  have hleaves : (∃ q, e.Remaining options q) ∧ e.history.Orderly := by
    rcases List.mem_append.mp he with he | he
    · exact ⟨⟨_, hw.done e he⟩, hw.orderly trivial e he⟩
    · obtain ⟨m, hm, -, hflight⟩ := hw.manager
      obtain ⟨stop, -, hescorts⟩ := hw.parked
      have hcurrent := Option.mem_toList.mp he
      exact ⟨(hcurrent ▸ hflight).remaining, (hescorts trivial e m hcurrent hm).orderly⟩
  obtain ⟨⟨q, hleaves⟩, horderly⟩ := hleaves
  have hopened := hleaves.cleared_subset horderly (History.mem_cleared.mpr ⟨r, hm⟩)
  obtain ⟨m, hm, hx⟩ := List.mem_filterMap.mp hopened
  exact List.mem_filterMap.mpr ⟨m, Chronicle.mem_history.mpr ⟨e, he, hm⟩, hx⟩

/-! ## Numbers -/

namespace Told

variable {calm : Prop} {s s' : Told}

/-- Requests go by different numbers; the machine knows only such as the traces have set, and were
not cleared. A command to clear one fails only if it is kept from the machine. -/
structure Numbered (intercept : Interception) (s : Told) : Prop where
  same : s.world.intercept = intercept
  fresh : ∀ x ∈ s.chronicle.history.opened, x.2 < s.world.vm.nextRequest
  distinct : s.chronicle.history.opened.Nodup
  asked : ∀ q ∈ s.world.vm.requests, (q.kind, q.id) ∈ s.chronicle.history.opened ∧
    .sent (.clearRequest q.kind q.id) (.ok ()) ∉ s.chronicle.history
  refused : ∀ kind id e, .sent (.clearRequest kind id) (.error e) ∈ s.chronicle.history →
    ∃ n, intercept (.clearRequest kind id) n = some (.error e)

/-- What asks for nothing keeps the numbers. -/
theorem Numbered.of_quiet (hn : s.Numbered intercept)
    (hintercept : s'.world.intercept = s.world.intercept)
    (hused : ∀ q ∈ s'.world.vm.requests, q ∈ s.world.vm.requests)
    (hnumbers : s'.world.vm.nextRequest = s.world.vm.nextRequest) (new : History)
    (hhistory : s'.chronicle.history = s.chronicle.history ++ new)
    (hopened : new.opened = []) (hcleared : new.cleared = []) : s'.Numbered intercept := by
  have hopened' : s'.chronicle.history.opened = s.chronicle.history.opened := by
    rw [hhistory, History.opened_append, hopened, List.append_nil]
  have hclears : ∀ {kind id} {r : (Command.clearRequest kind id).Answer},
      .sent (.clearRequest kind id) r ∈ s'.chronicle.history →
        .sent (.clearRequest kind id) r ∈ s.chronicle.history := by
    intro kind id r hm
    rw [hhistory] at hm
    refine (List.mem_append.mp hm).resolve_right fun hm => ?_
    have hmem : (kind, id) ∈ new.cleared := History.mem_cleared.mpr ⟨r, hm⟩
    rw [hcleared] at hmem
    exact List.not_mem_nil hmem
  refine ⟨hintercept.trans hn.same, ?_, hopened' ▸ hn.distinct, fun q hq => ?_,
    fun kind id e hm => hn.refused kind id e (hclears hm)⟩
  · rw [hopened', hnumbers]
    exact hn.fresh
  · rw [hopened']
    obtain ⟨hmem, hnot⟩ := hn.asked q (hused q hq)
    exact ⟨hmem, fun hm => hnot (hclears hm)⟩

/-- Setting a request. -/
theorem Numbered.set {kind policy : UInt8} {modifiers : List EventModifier}
    {r : Except JdwpError RequestId} (hw : s.Invariant True home options)
    (hn : s.Numbered intercept)
    (hintercept : s'.world.intercept = s.world.intercept)
    (hp : s.world.vm.Performed (.command (.setRequest kind policy modifiers)) r s'.world.vm)
    (hhistory : s'.chronicle.history =
      s.chronicle.history ++ [.sent (.setRequest kind policy modifiers) r]) :
    s'.Numbered intercept := by
  cases r with
  | error e =>
      have hvm := hp.unset
      exact hn.of_quiet hintercept (fun q hq => hvm ▸ hq) (by rw [hvm]) _ hhistory rfl rfl
  | ok id =>
      obtain ⟨rfl, hnext, hrequests⟩ := hp.set
      have hopened : s'.chronicle.history.opened =
          s.chronicle.history.opened ++ [(kind, s.world.vm.nextRequest)] := by
        rw [hhistory, History.opened_append]
        rfl
      have hnew : ∀ k, (k, s.world.vm.nextRequest) ∉ s.chronicle.history.opened :=
        fun k hk => Int.lt_irrefl _ (hn.fresh _ hk)
      have hclears : ∀ {k i} {r : (Command.clearRequest k i).Answer},
          .sent (.clearRequest k i) r ∈ s'.chronicle.history →
            .sent (.clearRequest k i) r ∈ s.chronicle.history := by
        intro k i r hm
        rw [hhistory] at hm
        refine (List.mem_append.mp hm).resolve_right fun hm => ?_
        cases List.mem_singleton.mp hm
      refine ⟨hintercept.trans hn.same, ?_, ?_, ?_,
        fun k i e hm => hn.refused k i e (hclears hm)⟩
      · rw [hopened, hnext]
        intro x hx
        rcases List.mem_append.mp hx with hx | hx
        · exact Int.lt_add_one_of_le (Int.le_of_lt (hn.fresh x hx))
        · rw [List.mem_singleton.mp hx]
          exact Int.lt_succ _
      · rw [hopened]
        refine List.nodup_append.mpr ⟨hn.distinct, List.nodup_singleton _, fun x hx y hy => ?_⟩
        rintro rfl
        exact hnew kind (List.mem_singleton.mp hy ▸ hx)
      · rw [hopened, hrequests]
        intro q hq
        rcases List.mem_append.mp hq with hq | hq
        · obtain ⟨hmem, hnot⟩ := hn.asked q hq
          exact ⟨List.mem_append_left _ hmem, fun hm => hnot (hclears hm)⟩
        · rw [List.mem_singleton.mp hq]
          refine ⟨List.mem_append_right _ (List.mem_singleton.mpr rfl), fun hm => ?_⟩
          exact hnew _ (hw.cleared_subset (History.mem_cleared.mpr ⟨_, hclears hm⟩))

/-- Clearing a request. -/
theorem Numbered.clear {kind : UInt8} {id : RequestId} (hw : s.Invariant True home options)
    (hn : s.Numbered intercept) (hintercept : s'.world.intercept = s.world.intercept)
    (hp : s.world.vm.Performed (.command (.clearRequest kind id))
      (s.world.command (.clearRequest kind id)).1 s'.world.vm)
    (hhistory : s'.chronicle.history = s.chronicle.history ++
      [.sent (.clearRequest kind id) (s.world.command (.clearRequest kind id)).1]) :
    s'.Numbered intercept := by
  obtain ⟨hnext, hrequests⟩ := hp.clear
  have hopened : s'.chronicle.history.opened = s.chronicle.history.opened := by
    rw [hhistory, History.opened_append]
    exact List.append_nil _
  refine ⟨hintercept.trans hn.same, ?_, hopened ▸ hn.distinct, fun q hq => ?_,
    fun k i e hm => ?_⟩
  · rw [hopened, hnext]
    exact hn.fresh
  · rw [hrequests] at hq
    have hq' : q ∈ s.world.vm.requests := by
      split at hq
      · exact List.mem_of_mem_filter hq
      · exact hq
    obtain ⟨hmem, hnot⟩ := hn.asked q hq'
    rw [hopened, hhistory]
    refine ⟨hmem, fun hm => ?_⟩
    rcases List.mem_append.mp hm with hm | hm
    · exact hnot hm
    · have heq := List.mem_singleton.mp hm
      generalize (s.world.command (.clearRequest kind id)).1 = r at heq hq
      cases heq
      have hkept := (List.mem_filter.mp hq).2
      simp at hkept
  · rw [hhistory] at hm
    rcases List.mem_append.mp hm with hm | hm
    · exact hn.refused k i e hm
    · have heq := List.mem_singleton.mp hm
      obtain ⟨-, ⟨hanswer, -⟩ | ⟨n, e', hi, hanswer, -⟩⟩ :=
        s.world.command_spec (.clearRequest kind id) hw.refuses hw.quiet
      · rw [hanswer, Vm.answer_clearRequest, if_neg (by simp [hw.alive])] at heq
        cases heq
      · rw [hanswer] at heq
        cases heq
        exact ⟨n, hn.same ▸ hi⟩

/-- Every step of a course keeps the numbers. -/
theorem Numbered.change (hw : s.Invariant True home options) (hn : s.Numbered intercept)
    (hc : s.Change options s') (hintercept : s'.world.intercept = s.world.intercept) :
    s'.Numbered intercept := by
  have hrests : ∀ new : History, s'.world.vm.requests = s.world.vm.requests →
      s'.world.vm.nextRequest = s.world.vm.nextRequest →
      s'.chronicle.history = s.chronicle.history ++ new → new.opened = [] → new.cleared = [] →
        s'.Numbered intercept := fun new hrequests =>
    fun hnumbers => hn.of_quiet hintercept (fun q hq => hrequests ▸ hq) hnumbers new
  cases hc with
  | acts e a next current leaves performs told =>
      have hhistory := Chronicle.history_goesOn current (.did a (s.world.perform a).1)
      rw [← told] at hhistory
      have hquiet : (∀ c, a = .command c → c.asks = false) →
          (∀ r : a.Reply, Moment.opened? (.did a r) = none ∧ Moment.cleared? (.did a r) = none) →
            s'.Numbered intercept := fun hasks hmoment => by
        obtain ⟨hrequests, hnumbers⟩ := performs.requests hasks
        obtain ⟨hopened, hcleared⟩ := hmoment (s.world.perform a).1
        refine hrests _ hrequests hnumbers hhistory ?_ ?_
        · simp [History.opened, hopened]
        · simp [History.cleared, hcleared]
      cases a with
      | command c =>
          cases c with
          | setRequest kind policy modifiers => exact hn.set hw hintercept performs hhistory
          | clearRequest kind id => exact hn.clear hw hintercept performs hhistory
          | _ => exact hquiet (fun c hc => by cases hc; rfl) fun r => ⟨rfl, rfl⟩
      | _ => exact hquiet nofun fun r => ⟨rfl, rfl⟩
  | hears e event current same told =>
      refine hrests [.heard event] (by rw [same]) (by rw [same]) ?_ rfl rfl
      rw [told, Chronicle.history_goesOn current]
  | begins r current same told =>
      refine hrests [] (by rw [same]) (by rw [same]) ?_ rfl rfl
      rw [told, Chronicle.history_begins current, List.append_nil]
  | ends e current leaves same told =>
      refine hrests [] (by rw [same]) (by rw [same]) ?_ rfl rfl
      rw [told, Chronicle.history_ends, List.append_nil]
  | goes bound stop goes told =>
      exact hn.of_quiet hintercept goes.used goes.numbers [] (by rw [told, List.append_nil]) rfl rfl
  | rests same told =>
      obtain ⟨suspended, hvm⟩ := same
      exact hrests [] (by rw [hvm]) (by rw [hvm]) (by rw [told, List.append_nil]) rfl rfl

theorem numbered_launch (p : StreamProgram) (intercept : Interception) (options : TraceOptions) :
    (launch p intercept options).Numbered intercept := by
  obtain ⟨hvm, hintercept⟩ := launch_world p intercept options
  refine ⟨hintercept, fun x hx => absurd hx List.not_mem_nil, .nil, fun q hq => ?_,
    fun kind id e hm => absurd hm List.not_mem_nil⟩
  rw [hvm, p.launch_atStatement.1.requests] at hq
  exact absurd hq List.not_mem_nil

/-! ## Reports -/

/-- What every course comes to: its traces know where the thread is, and which requests are set. -/
theorem Course.numbered {p : StreamProgram} (h : s.Course True p options) :
    s.Invariant True p.home options ∧ s.Numbered s.world.intercept := by
  obtain ⟨intercept, hrefuses, hlater⟩ := h
  obtain ⟨hw, hn⟩ :=
    hlater.induction (P := Numbered intercept) (invariant_launch p options hrefuses)
    (numbered_launch p intercept options) fun s s' hw _ hc hi hn => hn.change hw hc hi
  exact ⟨hw, hn.same ▸ hn⟩

theorem Course.later {p : StreamProgram} (h : s.Course calm p options) (hl : s.Later calm s') :
    s'.Course calm p options := by
  obtain ⟨intercept, hrefuses, hlater⟩ := h
  exact ⟨intercept, hrefuses, hlater.trans hl⟩

/-- What a trace has set it has cleared when it is over. -/
theorem Invariant.balanced (hw : s.Invariant True home options) {e : Episode}
    (he : e ∈ s.chronicle.done) :
    e.history.opened.Perm e.history.cleared := by
  have hleaves : TraceRun options e.request e.history (.done .finished) := hw.done e he
  have horderly := hw.orderly trivial e he
  obtain ⟨before, r, after, hhistory, hends, -⟩ := hleaves.ends
  rw [hhistory] at horderly ⊢
  exact hends.balanced horderly

/-- So it has when it delivers its final report. -/
theorem Invariant.settled (hw : s.Invariant True home options) {request : TraceRequest}
    {before : History}
    {r : Report} (hnow : s.chronicle.current = some ⟨request, before ++ [.did (.deliver r) ()]⟩)
    (hfinal : r.isFinal = true) : before.opened.Perm before.cleared := by
  obtain ⟨m, hm, -, hflight⟩ := hw.manager
  obtain ⟨stop, -, hescorts⟩ := hw.parked
  rw [hnow] at hflight
  obtain ⟨q, hleaves⟩ := hflight.remaining
  have hleaves : TraceRun options request (before ++ [.did (.deliver r) ()]) q := hleaves
  obtain ⟨state, hstate⟩ := r.isFinal_iff.mp hfinal
  have hadmits := hleaves.lawful.1.admitted before (.deliver r) () ⟨[], List.append_nil _⟩
  have horderly := (hescorts trivial _ m hnow hm).orderly
  exact (hadmits.final r state rfl hstate).2.requests ((History.orderly_snoc _ _).mp horderly).1

/-- When a trace delivers its final report, it has named every request that it has set in one
command to clear it. A request that the machine still knows is there because such a command, of this
trace or an earlier one, was kept from it. -/
theorem Course.requests_cleared {p : StreamProgram} (h : s.Course True p options)
    {request : TraceRequest} {before : History} {r : Report}
    (hnow : s.chronicle.current = some ⟨request, before ++ [.did (.deliver r) ()]⟩)
    (hfinal : r.isFinal = true) :
    (∀ x ∈ before.opened, before.opened.count x = 1 ∧ before.cleared.count x = 1) ∧
      ∀ q ∈ s.world.vm.requests, ∃ n e,
        s.world.intercept (.clearRequest q.kind q.id) n = some (.error e) ∧
          .sent (.clearRequest q.kind q.id) (.error e) ∈ s.chronicle.history := by
  obtain ⟨hw, hn⟩ := h.numbered
  have hsettled := hw.settled hnow hfinal
  have hhistory : s.chronicle.history =
      s.chronicle.done.flatMap Episode.history ++ (before ++ [.did (.deliver r) ()]) := by
    simp [Chronicle.history, hnow]
  refine ⟨fun x hx => ?_, fun q hq => ?_⟩
  · have hnodup : before.opened.Nodup := by
      have hall := hn.distinct
      rw [hhistory, History.opened_append, History.opened_append] at hall
      exact (List.nodup_append.mp (List.nodup_append.mp hall).2.1).1
    have hone := List.count_eq_one_of_mem hnodup hx
    exact ⟨hone, (hsettled.count_eq x).symm.trans hone⟩
  · obtain ⟨hopened, hkept⟩ := hn.asked q hq
    have hcleared : (q.kind, q.id) ∈ s.chronicle.history.cleared := by
      obtain ⟨m, hm, hmoment⟩ := List.mem_filterMap.mp hopened
      rw [hhistory, History.cleared_append, History.cleared_append]
      rw [hhistory] at hm
      rcases List.mem_append.mp hm with hm | hm
      · obtain ⟨e, he, hm⟩ := List.mem_flatMap.mp hm
        have hx := (hw.balanced he).subset (List.mem_filterMap.mpr ⟨m, hm, hmoment⟩)
        obtain ⟨m', hm', hmoment'⟩ := List.mem_filterMap.mp hx
        exact List.mem_append_left _
          (List.mem_filterMap.mpr ⟨m', List.mem_flatMap.mpr ⟨e, he, hm'⟩, hmoment'⟩)
      · rcases List.mem_append.mp hm with hm | hm
        · exact List.mem_append_right _ <| List.mem_append_left _ <|
            hsettled.subset (List.mem_filterMap.mpr ⟨m, hm, hmoment⟩)
        · rw [List.mem_singleton.mp hm] at hmoment
          cases hmoment
    obtain ⟨answer, hm⟩ := History.mem_cleared.mp hcleared
    cases answer with
    | ok u => exact absurd hm hkept
    | error e =>
        obtain ⟨n, hi⟩ := hn.refused q.kind q.id e hm
        exact ⟨n, e, hi, hm⟩

end Told

/-! ### A thread that cannot be resumed -/

/-- No thread is resumed. -/
def holding : Interception
  | .resumeVm, _ => some (.error .timeout)
  | _, _ => none

theorem holding_refuses : holding.Refuses := by
  intro c n r hr
  cases c <;> first
    | exact ⟨_, (Option.some.inj hr).symm⟩
    | cases hr

def heldProgram : StreamProgram := .ints [1, 2]

def heldOptions : TraceOptions := { classFiles := HelperClass.files }

def heldRequest : TraceRequest := { chain := heldProgram.chain, thread := mainThread }

namespace Told

variable {calm : Prop}

def heldStart : Told := begun heldProgram holding heldOptions heldRequest

/-- The manager has performed all actions of a trace. -/
def isOver (s : Told) : Bool :=
  match s.world.manager.map Manager.phase with
  | some (.working (.done .finished)) => !s.world.vm.dead
  | _ => false

/-- The last moment is the report of a failure. -/
def endsInFailure (h : History) : Bool :=
  match h.getLast? with
  | some (.did (.deliver (.failed _ _)) _) => true
  | _ => false

theorem endsInFailure_iff {h : History} : endsInFailure h = true ↔
    ∃ before expression failure,
      h = before ++ [.did (.deliver (.failed expression failure)) ()] := by
  unfold endsInFailure
  constructor
  · intro hends
    split at hends
    · rename_i expression failure u hlast
      obtain ⟨before, rfl⟩ := List.getLast?_eq_some_iff.mp hlast
      exact ⟨before, expression, failure, rfl⟩
    · cases hends
  · rintro ⟨before, expression, failure, rfl⟩
    rw [List.getLast?_concat]

/-- The trace keeps objects, sets two requests, fails when it resumes the machine, and puts the
source back before its report. -/
theorem heldStart_acts : ((heldStart.acts 102).any fun s =>
    (s.chronicle.current.any fun e =>
      endsInFailure e.history && !e.history.pinned.isEmpty &&
        e.history.opened == [(EventKind.exception, 1), (EventKind.methodEntry, 2)] &&
          History.counting (e.history.dropLast.take 99) &&
            (e.history.dropLast[99]?.bind Moment.wrote?).isSome) &&
      (s.acts 15).any isOver) = true := by
  decide +kernel

theorem heldStart_reports : ∃ (s : Told) (before : History) (expression : String)
    (failure : TraceFailure), heldStart.Later calm s ∧
      s.chronicle = ⟨[], some ⟨heldRequest,
        before ++ [.did (.deliver (.failed expression failure)) ()]⟩⟩ ∧
      before.pinned ≠ [] ∧
      before.opened = [(EventKind.exception, 1), (EventKind.methodEntry, 2)] ∧
      before.PutBack ∧ ∃ s' e, s.Later calm s' ∧ s'.chronicle = ⟨[e], none⟩ := by
  obtain ⟨s, hacts, hs⟩ := (Option.any_eq_true _ _).mp heldStart_acts
  obtain ⟨h, hchronicle⟩ := chronicle_of_acts hacts rfl
  rw [Bool.and_eq_true, hchronicle] at hs
  obtain ⟨hreport, hover⟩ := hs
  obtain ⟨s', hacts', hover⟩ := (Option.any_eq_true _ _).mp hover
  simp only [Option.any_some, Bool.and_eq_true, beq_iff_eq] at hreport
  obtain ⟨⟨⟨⟨hlast, hpinned⟩, hopened⟩, hcounting⟩, hwrote⟩ := hreport
  obtain ⟨before, expression, failure, rfl⟩ := endsInFailure_iff.mp hlast
  rw [List.dropLast_concat] at hcounting hwrote
  refine ⟨s, before, expression, failure, later_of_acts hacts, hchronicle, ?_, ?_, ?_, ?_⟩
  · intro hnone
    rw [History.pinned_append, hnone] at hpinned
    cases hpinned
  · rwa [History.opened_snoc, show Moment.opened? (.did (.deliver _) ()) = none from rfl,
      Option.toList_none, List.append_nil] at hopened
  · obtain ⟨w, hw⟩ := Option.isSome_iff_exists.mp hwrote
    obtain ⟨m, hm, hw⟩ := Option.bind_eq_some_iff.mp hw
    refine ⟨before.take 99, m, ?_, hcounting, by simp [hw]⟩
    have htake : before.take 100 = before.take 99 ++ [m] :=
      List.take_add_one.trans (by rw [hm, Option.toList_some])
    exact htake ▸ List.take_prefix 100 before
  · obtain ⟨h', hchronicle'⟩ := chronicle_of_acts hacts' hchronicle
    unfold isOver at hover
    split at hover
    · rename_i hphase
      obtain ⟨s'', hlater, -, -, hend⟩ := later_over (by simpa using hover) hphase
      refine ⟨s'', ⟨heldRequest, h'⟩, (later_of_acts hacts').trans hlater, ?_⟩
      rw [hend, hchronicle']
      rfl
    · cases hover

theorem heldStart_course : heldStart.Course calm heldProgram heldOptions :=
  ⟨holding, holding_refuses, later_begun _ _ _ _⟩

theorem requests_cleared_of_held : ∃ (s : Told) (before : History) (r : Report),
    s.Course True heldProgram heldOptions ∧ r.isFinal = true ∧
      before.opened = [(EventKind.exception, 1), (EventKind.methodEntry, 2)] ∧
      (∀ x ∈ before.opened, before.opened.count x = 1 ∧ before.cleared.count x = 1) ∧
      ∀ q ∈ s.world.vm.requests, ∃ n e,
        s.world.intercept (.clearRequest q.kind q.id) n = some (.error e) ∧
          .sent (.clearRequest q.kind q.id) (.error e) ∈ s.chronicle.history := by
  obtain ⟨s, before, expression, failure, hlater, hnow, -, hopened, -⟩ := heldStart_reports
  have hcourse := heldStart_course.later hlater
  exact ⟨s, before, .failed expression failure, hcourse, rfl, hopened,
    Course.requests_cleared hcourse (congrArg Chronicle.current hnow) rfl⟩

end Told

end StreamTrace
