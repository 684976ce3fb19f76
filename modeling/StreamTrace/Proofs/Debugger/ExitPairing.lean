import StreamTrace.Proofs.Debugger.ReportedEvents

/-!
# Entries and exits of one invocation

The traced thread calls methods and comes back from them, by returning or because of an exception,
and every entry and every return that an installed request asks for is reported to the trace. Which
exit the trace accepts for a stage, and of which invocation: the first return from the method of
the stage after the entry that it accepted. That is the invocation it saw entering, unless this one
called the method once more or was left by an exception before it returned.
-/

namespace StreamTrace

/-! ## The thread -/

/-- One invocation of a method by the traced thread. -/
structure Invocation where
  number : Nat
  place : Location
  deriving Repr, DecidableEq

/-- What happened to an invocation, and what the trace made of it. -/
inductive Mark where
  | called (i : Invocation)
  | returned (i : Invocation) (v : Value)
  /-- An exception left it. -/
  | unwound (i : Invocation)
  /-- The trace accepted its entry, or its exit with that value, for a stage. -/
  | accepted (edge : MethodEdge) (k : Nat) (i : Invocation) (v : Value)

/-- The turn of the breakpoint that an event was accepted for. -/
def Mark.turn? : Mark → Option Nat
  | accepted edge k _ _ => some (edge.turn k)
  | _ => none

/-- A traced thread between two steps. The innermost invocation is on top of the stack. -/
structure TracedThread where
  history : History
  left : Continuation
  stack : List Invocation
  calls : Nat
  marks : List Mark

/-- What an entry or an exit leads to. Nothing happens if no request asks for it. Otherwise the
trace gets the event and handles it to the end, and may accept it for a stage. -/
inductive Debuggee.Delivers (w : Debuggee) (thread : ThreadId) (edge : MethodEdge) (i : Invocation)
    (l : Location) (v : Value) :
    History → Continuation → History → Continuation → List Mark → Prop where
  | unheard {h : History} {c : Continuation} (silent : ∀ id, ¬w.Requested thread h edge l id) :
      Delivers w thread edge i l v h c h c []
  | accepted {h during : History} {t : ActiveTrace} {c : Continuation} {id : RequestId} {k : Nat}
      (reports : w.Requested thread h edge l id)
      (plays : (t.onEvent (edge.event id thread l v)).HasTranscript during c)
      (describes : w.Agrees during)
      (accepts : t.plan.Accepts t.state edge id l v k during) :
      Delivers w thread edge i l v h (.listen t) (h ++ .heard (edge.event id thread l v) :: during)
        c [.accepted edge k i v]
  | passed {h during : History} {t : ActiveTrace} {c : Continuation} {id : RequestId}
      (reports : w.Requested thread h edge l id)
      (plays : (t.onEvent (edge.event id thread l v)).HasTranscript during c)
      (describes : w.Agrees during)
      (refuses : ∀ k, ¬t.plan.Accepts t.state edge id l v k during) :
      Delivers w thread edge i l v h (.listen t) (h ++ .heard (edge.event id thread l v) :: during)
        c []

namespace TracedThread

/-- One step of the thread. It calls a method, comes back from the innermost invocation with a
value or without, or something else happens that the trace is told of. -/
inductive Step (w : Debuggee) (thread : ThreadId) : TracedThread → TracedThread → Prop where
  | call {s : TracedThread} {l : Location} {h : History} {c : Continuation} {marks : List Mark}
      (delivers : w.Delivers thread .entry ⟨s.calls, l⟩ l .void s.history s.left h c marks) :
      Step w thread s
        { history := h, left := c, stack := ⟨s.calls, l⟩ :: s.stack, calls := s.calls + 1
          marks := s.marks ++ .called ⟨s.calls, l⟩ :: marks }
  | back {s : TracedThread} {i : Invocation} {rest : List Invocation} {l : Location} {v : Value}
      {h : History} {c : Continuation} {marks : List Mark} (top : s.stack = i :: rest)
      (inside : l.sameMethod i.place = true)
      (delivers : w.Delivers thread .exit i l v s.history s.left h c marks) :
      Step w thread s
        { history := h, left := c, stack := rest, calls := s.calls
          marks := s.marks ++ .returned i v :: marks }
  | unwind {s : TracedThread} {i : Invocation} {rest : List Invocation}
      (top : s.stack = i :: rest) :
      Step w thread s { s with stack := rest, marks := s.marks ++ [.unwound i] }
  | other {s : TracedThread} {t : ActiveTrace} {e : Event} {during : History} {c : Continuation}
      (listens : s.left = .listen t)
      (foreign : ∀ edge id thread l, e.methodEdge? = some (edge, id, thread, l) →
        (edge.number, id) ∉ s.history.installedMethods)
      (plays : (t.onEvent e).HasTranscript during c) (describes : w.Agrees during) :
      Step w thread s { s with history := s.history ++ .heard e :: during, left := c }

/-- The runs of a thread from the moment at which its trace was set up. -/
inductive Run (w : Debuggee) (options : TraceOptions) (request : TraceRequest) :
    TracedThread → Prop where
  | begin {h : History} {c : Continuation} {stack : List Invocation} {calls : Nat}
      (plays : (ActiveTrace.start options request).HasTranscript h c) (describes : w.Agrees h)
      (older : ∀ i ∈ stack, i.number < calls) (distinct : (stack.map (·.number)).Nodup) :
      Run w options request { history := h, left := c, stack, calls, marks := [] }
  | step {s s' : TracedThread} (run : Run w options request s) (next : Step w request.thread s s') :
      Run w options request s'

end TracedThread

/-- In that history the trace accepted an event with that value for the stage, and went on with the
stage. -/
def History.Took (options : TraceOptions) (request : TraceRequest) (h : History) (edge : MethodEdge)
    (k : Nat) (v : Value) : Prop :=
  ∃ before t id l during, TraceRun options request before (.done (.listen t)) ∧
    t.plan.Accepts t.state edge id l v k during ∧
    before ++ .heard (edge.event id request.thread l v) :: during <+: h

theorem History.Took.later {options : TraceOptions} {request : TraceRequest} {h h' : History}
    {edge : MethodEdge} {k : Nat} {v : Value} (ht : h.Took options request edge k v)
    (hpre : h <+: h') : h'.Took options request edge k v := by
  obtain ⟨before, t, id, l, during, hrun, ha, hextends⟩ := ht
  exact ⟨before, t, id, l, during, hrun, ha, hextends.trans hpre⟩

/-! ## What is delivered -/

section

variable {w : Debuggee} {options : TraceOptions} {request : TraceRequest} {edge : MethodEdge}
  {i : Invocation} {l : Location} {v : Value} {h h' : History} {c c' : Continuation}
  {marks : List Mark} {k : Nat} {sig : MethodSignature}

namespace Debuggee.Delivers

theorem run (hd : w.Delivers request.thread edge i l v h c h' c' marks)
    (hrun : TraceRun options request h (.done c)) : TraceRun options request h' (.done c') := by
  cases hd with
  | unheard => exact hrun
  | accepted _ plays => exact hrun.handled plays
  | passed _ plays => exact hrun.handled plays

theorem listened (hd : w.Delivers request.thread edge i l v h c h' c' marks)
    (hc : c' ≠ .finished) : c ≠ .finished := by
  cases hd with
  | unheard => exact hc
  | _ => nofun

theorem agrees (hd : w.Delivers request.thread edge i l v h c h' c' marks)
    (hw : w.Agrees h) : w.Agrees h' := by
  cases hd with
  | unheard => exact hw
  | accepted _ _ describes => exact (hw.append describes).heard
  | passed _ _ describes => exact (hw.append describes).heard

theorem grows (hd : w.Delivers request.thread edge i l v h c h' c' marks) : h <+: h' := by
  cases hd with
  | unheard => exact List.prefix_rfl
  | _ => exact List.prefix_append _ _

/-- What is accepted is taken with the value that is delivered. -/
theorem took (hd : w.Delivers request.thread edge i l v h c h' c' marks)
    (hrun : TraceRun options request h (.done c)) {edge' : MethodEdge} {i' : Invocation}
    {v' : Value} (hm : .accepted edge' k i' v' ∈ marks) : h'.Took options request edge' k v' := by
  cases hd with
  | unheard => cases hm
  | passed => cases hm
  | accepted _ plays _ accepts =>
      cases List.mem_singleton.mp hm
      exact ⟨_, _, _, _, _, hrun, accepts, List.prefix_rfl⟩

theorem past_mono (hd : w.Delivers request.thread edge i l v h c h' c' marks)
    (hrun : TraceRun options request h (.done c)) {n : Nat} (hp : h.Past c n) : h'.Past c' n := by
  cases hd with
  | unheard => exact hp
  | accepted _ plays => exact hrun.past_mono plays hp
  | passed _ plays => exact hrun.past_mono plays hp

/-- An event that is accepted comes at the turn of its breakpoint, which is over then, and is of an
invocation of the method of the stage. -/
theorem accepted_or (hd : w.Delivers request.thread edge i l v h c h' c' marks)
    (hrun : TraceRun options request h (.done c)) (hw : w.Agrees h) :
    marks = [] ∨ ∃ k sig, marks = [.accepted edge k i v] ∧ h'.Past c' (edge.turn k) ∧
      h.methodSets.length = edge.turn k + 1 ∧ (∀ n, h.Past c n → n < edge.turn k) ∧
      (options.stageMethods request.chain)[k]? = some sig ∧ w.has sig l = true := by
  cases hd with
  | unheard => exact .inl rfl
  | passed => exact .inl rfl
  | accepted reports plays describes accepts =>
      right
      have hdescribes := hw.append describes
      obtain ⟨hone, hn, -⟩ := hrun.of_stageOf? accepts.own
      obtain ⟨sig, hsig, hshows⟩ := hrun.shows_of_accepts hdescribes accepts
      have hcovers := (Debuggee.requested_iff_covers hrun.disciplined.1 hw reports.mem hn hsig).mp
        reports
      refine ⟨_, sig, rfl, hrun.past_of_accepts plays hdescribes accepts, hn, ?_, hsig, ?_⟩
      · rintro n (hf | hnone | hlt)
        · cases hf
        · simp [hone] at hnone
        · omega
      · simp [Debuggee.has, hcovers, hshows]

theorem turn?_of_mem (hd : w.Delivers request.thread edge i l v h c h' c' marks)
    (hrun : TraceRun options request h (.done c)) (hw : w.Agrees h) :
    ∀ m ∈ marks, m.turn? ≠ none := by
  obtain rfl | ⟨k, sig, rfl, -⟩ := hd.accepted_or hrun hw <;> simp [Mark.turn?]

theorem length_marks (hd : w.Delivers request.thread edge i l v h c h' c' marks)
    (hrun : TraceRun options request h (.done c)) (hw : w.Agrees h) : marks.length ≤ 1 := by
  obtain rfl | ⟨k, sig, rfl, -⟩ := hd.accepted_or hrun hw <;> simp

/-- What is entered or left at the turn of its breakpoint is not missed. -/
theorem past_of_has (hd : w.Delivers request.thread edge i l v h c h' c' marks)
    (hrun : TraceRun options request h (.done c)) (hw : w.Agrees h)
    (hsig : (options.stageMethods request.chain)[k]? = some sig) (hhas : w.has sig l = true)
    (hn : h.methodSets.length = edge.turn k + 1) : h'.Past c' (edge.turn k) := by
  by_cases hp : h.Past c (edge.turn k)
  · exact hd.past_mono hrun hp
  obtain ⟨hcovers, hshows⟩ : w.covers sig l = true ∧ w.shows sig l = true := by
    simpa [Debuggee.has] using hhas
  have hinstalled : h.installedMethods ≠ [] := fun hnone => hp (.inr (.inl hnone))
  have hcase : ∀ {t : ActiveTrace} {id : RequestId} {during : History},
      TraceRun options request h (.done (.listen t)) → w.Requested request.thread h edge l id →
      (t.onEvent (edge.event id request.thread l v)).HasTranscript during c' → w.Agrees during →
      History.Past (h ++ .heard (edge.event id request.thread l v) :: during) c'
        (edge.turn k) := by
    intro t id during hrun reports plays describes
    obtain ⟨k', hk⟩ := hrun.stageOf?_of_mem reports.mem
    obtain ⟨-, rfl⟩ : edge = edge ∧ k' = k :=
      MethodEdge.turn_inj (by have := (hrun.of_stageOf? hk).2.1; omega)
    rcases hrun.accepts_of_shows plays (hw.append describes) hk hsig hshows with hf | ⟨-, hp⟩
    · exact .inl hf
    · exact hp
  cases hd with
  | accepted reports plays describes => exact hcase hrun reports plays describes
  | passed reports plays describes => exact hcase hrun reports plays describes
  | unheard silent =>
      cases c with
      | finished => exact absurd (.inl rfl) hp
      | listen t =>
          obtain ⟨-, hr⟩ : t.Listens _ _ h := hrun.disciplined.2
          obtain ⟨x, hx⟩ := List.exists_mem_of_ne_nil _ hinstalled
          obtain ⟨edge', k', b, hb, hid⟩ := hr.consistent.own x hx
          obtain ⟨hone, hn'⟩ := (hr.consistent.request edge' k' b hb x.2).mp hid
          obtain ⟨rfl, rfl⟩ : edge' = edge ∧ k' = k := MethodEdge.turn_inj (by omega)
          have hmem : (edge'.number, x.2) ∈ h.installedMethods := by simp [hone]
          exact absurd ((Debuggee.requested_iff_covers hrun.disciplined.1 hw hmem hn hsig).mpr
            hcovers) (silent x.2)

/-- The next method request is set because the event was accepted. -/
theorem accepts_of_sets (hd : w.Delivers request.thread edge i l v h c h' c' marks)
    (hrun : TraceRun options request h (.done c)) (hw : w.Agrees h) (hc : c' ≠ .finished) :
    h'.methodSets.length = h.methodSets.length ∨
      h'.methodSets.length = h.methodSets.length + 1 ∧
        ∃ k, h.methodSets.length = edge.turn k + 1 ∧ .accepted edge k i v ∈ marks := by
  have hcase : ∀ {t : ActiveTrace} {id : RequestId} {during : History},
      TraceRun options request h (.done (.listen t)) →
      (t.onEvent (edge.event id request.thread l v)).HasTranscript during c' → w.Agrees during →
      (History.methodSets (h ++ .heard (edge.event id request.thread l v) :: during)).length =
          h.methodSets.length ∨
        (History.methodSets (h ++ .heard (edge.event id request.thread l v) :: during)).length =
            h.methodSets.length + 1 ∧
          ∃ k, h.methodSets.length = edge.turn k + 1 ∧
            t.plan.Accepts t.state edge id l v k during := by
    intro t id during hrun plays describes
    refine (hrun.accepts_of_sets plays (hw.append describes) hc).imp_right ?_
    rintro ⟨hsets, edge', k, id', l', he, -, hn, haccepts⟩
    rw [MethodEdge.methodEdge?_event] at he
    cases he
    exact ⟨hsets, k, hn, haccepts v rfl⟩
  cases hd with
  | unheard => exact .inl rfl
  | accepted _ plays describes accepts =>
      refine (hcase hrun plays describes).imp_right ?_
      rintro ⟨hsets, k, hn, ha⟩
      obtain rfl := Option.some.inj (ha.own.symm.trans accepts.own)
      exact ⟨hsets, k, hn, List.mem_singleton.mpr rfl⟩
  | passed _ plays describes refuses =>
      refine (hcase hrun plays describes).imp_right ?_
      rintro ⟨-, k, -, ha⟩
      exact absurd ha (refuses k)

end Debuggee.Delivers

end

/-! ## Runs of the thread -/

section

variable {w : Debuggee} {options : TraceOptions} {request : TraceRequest} {edge : MethodEdge}
  {i : Invocation} {l : Location} {v : Value} {h h' : History} {c c' : Continuation}
  {marks more : List Mark} {k : Nat} {sig : MethodSignature}

/-- The breakpoints answer in turn, each once, and the marks tell for which. -/
structure InTurn (w : Debuggee) (options : TraceOptions) (request : TraceRequest) (h : History)
    (c : Continuation) (marks : List Mark) : Prop where
  run : TraceRun options request h (.done c)
  agrees : w.Agrees h
  past : ∀ edge k i v, .accepted edge k i v ∈ marks → h.Past c (edge.turn k) ∧
    ∃ sig, (options.stageMethods request.chain)[k]? = some sig ∧ w.has sig i.place = true
  took : ∀ edge k i v, .accepted edge k i v ∈ marks → h.Took options request edge k v
  once : (marks.filterMap Mark.turn?).Pairwise (· < ·)
  entered : c ≠ .finished → ∀ k, 2 * k + 2 ≤ h.methodSets.length →
    ∃ i v, .accepted .entry k i v ∈ marks

namespace InTurn

theorem quiet (ho : InTurn w options request h c marks) (more : List Mark)
    (hmore : more.filterMap Mark.turn? = []) :
    InTurn w options request h c (marks ++ more) where
  run := ho.run
  agrees := ho.agrees
  past edge k i v hm := by
    rcases List.mem_append.mp hm with hm | hm
    · exact ho.past edge k i v hm
    · cases List.filterMap_eq_nil_iff.mp hmore _ hm
  took edge k i v hm := by
    rcases List.mem_append.mp hm with hm | hm
    · exact ho.took edge k i v hm
    · cases List.filterMap_eq_nil_iff.mp hmore _ hm
  once := by simpa [hmore] using ho.once
  entered hc k hk := by
    obtain ⟨i, v, hm⟩ := ho.entered hc k hk
    exact ⟨i, v, List.mem_append_left _ hm⟩

/-- What is delivered keeps the order. -/
theorem deliver (ho : InTurn w options request h c marks)
    (hd : w.Delivers request.thread edge i l v h c h' c' more)
    (hplace : ∀ sig, w.has sig l = w.has sig i.place) :
    InTurn w options request h' c' (marks ++ more) where
  run := hd.run ho.run
  agrees := hd.agrees ho.agrees
  past edge' k i' v' hm := by
    rcases List.mem_append.mp hm with hm | hm
    · exact (ho.past edge' k i' v' hm).imp_left (hd.past_mono ho.run)
    · obtain rfl | ⟨k, sig, rfl, hpast, -, -, hsig, hhas⟩ := hd.accepted_or ho.run ho.agrees
      · cases hm
      · cases List.mem_singleton.mp hm
        exact ⟨hpast, sig, hsig, hplace sig ▸ hhas⟩
  took edge' k i' v' hm := by
    rcases List.mem_append.mp hm with hm | hm
    · exact (ho.took edge' k i' v' hm).later hd.grows
    · exact hd.took ho.run hm
  once := by
    obtain rfl | ⟨k', sig, rfl, -, -, hlater, -⟩ := hd.accepted_or ho.run ho.agrees
    · simpa using ho.once
    rw [List.filterMap_append, List.pairwise_append]
    refine ⟨ho.once, List.pairwise_singleton _ _, fun n hn n' hn' => ?_⟩
    obtain rfl := List.mem_singleton.mp hn'
    obtain ⟨m, hm, hturn⟩ := List.mem_filterMap.mp hn
    cases m with
    | accepted edge₀ k₀ i₀ v₀ =>
        obtain rfl := Option.some.inj hturn
        exact hlater _ (ho.past edge₀ k₀ i₀ v₀ hm).1
    | _ => cases hturn
  entered hc k hk := by
    have hbefore (hk : 2 * k + 2 ≤ h.methodSets.length) :
        ∃ i v, .accepted .entry k i v ∈ marks ++ more := by
      obtain ⟨i, v, hm⟩ := ho.entered (hd.listened hc) k hk
      exact ⟨i, v, List.mem_append_left _ hm⟩
    rcases hd.accepts_of_sets ho.run ho.agrees hc with hsets | ⟨hsets, k', hn, hm⟩
    · exact hbefore (by omega)
    · by_cases hk' : 2 * k + 2 ≤ h.methodSets.length
      · exact hbefore hk'
      · obtain ⟨rfl, rfl⟩ : edge = .entry ∧ k' = k := by
          refine MethodEdge.turn_inj ?_
          have : MethodEdge.entry.turn k = 2 * k := rfl
          omega
        exact ⟨i, v, List.mem_append_right _ hm⟩

/-- Neither does anything else that the trace is told of. -/
theorem other {t : ActiveTrace} {e : Event} {during : History}
    (ho : InTurn w options request h (.listen t) marks)
    (hforeign : ∀ edge id thread l, e.methodEdge? = some (edge, id, thread, l) →
      (edge.number, id) ∉ h.installedMethods)
    (hplay : (t.onEvent e).HasTranscript during c) (hw : w.Agrees during) :
    InTurn w options request (h ++ .heard e :: during) c marks where
  run := ho.run.handled hplay
  agrees := (ho.agrees.append hw).heard
  past edge k i v hm := (ho.past edge k i v hm).imp_left (ho.run.past_mono hplay)
  took edge k i v hm := (ho.took edge k i v hm).later (List.prefix_append _ _)
  once := ho.once
  entered hc k hk := by
    rcases ho.run.accepts_of_sets hplay (ho.agrees.append hw) hc with hsets |
      ⟨-, edge, k', id, l, he, hmem, -⟩
    · exact ho.entered nofun k (by omega)
    · exact absurd hmem (hforeign edge id _ l he)

end InTurn

/-- What holds since the entry of an invocation was accepted, until its stage's exit is. -/
structure Awaited (w : Debuggee) (sig : MethodSignature) (i : Invocation) (stack : List Invocation)
    (since : List Mark) : Prop where
  running : .unwound i ∈ since ∨
    ∃ above below, stack = above ++ i :: below ∧ ∀ j ∈ above, .called j ∈ since
  first : ∀ j u, .returned j u ∈ since → w.has sig j.place = false

/-- The exit that was accepted for a stage, with what happened since its entry was. -/
def Paired (w : Debuggee) (sigs : List MethodSignature) (before : List Mark) (k : Nat)
    (j : Invocation) (v : Value) : Prop :=
  ∃ sig i u opened since, sigs[k]? = some sig ∧
    before = opened ++ .accepted .entry k i u :: since ++ [.returned j v] ∧
    w.has sig i.place = true ∧ w.has sig j.place = true ∧
    (∀ x y, .returned x y ∈ since → w.has sig x.place = false) ∧
    (j = i ∨ .called j ∈ since ∨ .unwound i ∈ since)

namespace Awaited

variable {j : Invocation} {stack rest : List Invocation} {since : List Mark}

theorem begins : Awaited w sig i (i :: stack) [] where
  running := .inr ⟨[], stack, rfl, by simp⟩
  first _ _ hm := nomatch hm

theorem call (ha : Awaited w sig i stack since) (hmore : ∀ m ∈ more, m.turn? ≠ none) :
    Awaited w sig i (j :: stack) (since ++ .called j :: more) where
  running := by
    rcases ha.running with hleft | ⟨above, below, rfl, hcalled⟩
    · exact .inl (List.mem_append_left _ hleft)
    · refine .inr ⟨j :: above, below, rfl, fun x hx => ?_⟩
      rcases List.mem_cons.mp hx with rfl | hx
      · simp
      · exact List.mem_append_left _ (hcalled x hx)
  first x u hm := by
    rcases List.mem_append.mp hm with hm | hm
    · exact ha.first x u hm
    · rcases List.mem_cons.mp hm with hm | hm
      · cases hm
      · exact absurd rfl (hmore _ hm)

/-- The return from another method changes nothing. -/
theorem back (ha : Awaited w sig i (j :: rest) since) (hi : w.has sig i.place = true)
    (hj : w.has sig j.place = false) (hmore : ∀ m ∈ more, m.turn? ≠ none) :
    Awaited w sig i rest (since ++ .returned j v :: more) where
  running := by
    rcases ha.running with hleft | ⟨above, below, hstack, hcalled⟩
    · exact .inl (List.mem_append_left _ hleft)
    · cases above with
      | nil =>
          obtain ⟨rfl, -⟩ := List.cons.inj hstack
          rw [hi] at hj
          cases hj
      | cons x above =>
          obtain ⟨-, rfl⟩ := List.cons.inj hstack
          exact .inr ⟨above, below, rfl, fun x hx =>
            List.mem_append_left _ (hcalled x (List.mem_cons_of_mem _ hx))⟩
  first x u hm := by
    rcases List.mem_append.mp hm with hm | hm
    · exact ha.first x u hm
    · rcases List.mem_cons.mp hm with hm | hm
      · cases hm
        exact hj
      · exact absurd rfl (hmore _ hm)

theorem unwind (ha : Awaited w sig i (j :: rest) since) :
    Awaited w sig i rest (since ++ [.unwound j]) where
  running := by
    rcases ha.running with hleft | ⟨above, below, hstack, hcalled⟩
    · exact .inl (List.mem_append_left _ hleft)
    · cases above with
      | nil =>
          obtain ⟨rfl, -⟩ := List.cons.inj hstack
          exact .inl (by simp)
      | cons x above =>
          obtain ⟨-, rfl⟩ := List.cons.inj hstack
          exact .inr ⟨above, below, rfl, fun x hx =>
            List.mem_append_left _ (hcalled x (List.mem_cons_of_mem _ hx))⟩
  first x u hm := by
    rcases List.mem_append.mp hm with hm | hm
    · exact ha.first x u hm
    · cases List.mem_singleton.mp hm

end Awaited

/-- A mark of a longer list was there before, or came with the rest. -/
theorem Mark.split {opened since : List Mark} {m : Mark}
    (heq : marks ++ more = opened ++ m :: since) :
    (∃ since₀, marks = opened ++ m :: since₀ ∧ since = since₀ ++ more) ∨
      ∃ opened₀, opened = marks ++ opened₀ ∧ more = opened₀ ++ m :: since := by
  rcases List.append_eq_append_iff.mp heq with ⟨opened₀, hopened, hmore⟩ |
      ⟨_ | ⟨m', since₀⟩, hmarks, hrest⟩
  · exact .inr ⟨opened₀, hopened, hmore⟩
  · exact .inr ⟨[], by simpa using hmarks.symm, by simpa using hrest.symm⟩
  · obtain ⟨rfl, rfl⟩ := List.cons.inj hrest
    exact .inl ⟨since₀, hmarks, rfl⟩

/-- At most one mark comes with a call or a return. -/
theorem Mark.last {opened since tail : List Mark} {x m : Mark}
    (heq : x :: tail = opened ++ m :: since) (hne : m ≠ x) (htail : tail.length ≤ 1) :
    opened = [x] ∧ tail = [m] ∧ since = [] := by
  cases opened with
  | nil => exact absurd (List.cons.inj heq).1.symm hne
  | cons y opened =>
      rw [List.cons_append] at heq
      obtain ⟨rfl, htails⟩ := List.cons.inj heq
      rw [htails, List.length_append, List.length_cons] at htail
      obtain rfl := List.length_eq_zero_iff.mp (show opened.length = 0 by omega)
      obtain rfl := List.length_eq_zero_iff.mp (show since.length = 0 by omega)
      exact ⟨rfl, htails, rfl⟩

namespace TracedThread

variable {s : TracedThread}

structure Sound (w : Debuggee) (options : TraceOptions) (request : TraceRequest)
    (s : TracedThread) : Prop extends InTurn w options request s.history s.left s.marks where
  awaits : ∀ k i u opened since sig, s.marks = opened ++ .accepted .entry k i u :: since →
    (options.stageMethods request.chain)[k]? = some sig →
      s.history.Past s.left (MethodEdge.exit.turn k) ∨ Awaited w sig i s.stack since
  paired : ∀ before k j v after, s.marks = before ++ .accepted .exit k j v :: after →
    Paired w (options.stageMethods request.chain) before k j v

theorem Sound.call (hs : s.Sound w options request)
    (hd : w.Delivers request.thread .entry ⟨s.calls, l⟩ l .void s.history s.left h c more) :
    Sound w options request
      { history := h, left := c, stack := ⟨s.calls, l⟩ :: s.stack, calls := s.calls + 1
        marks := s.marks ++ .called ⟨s.calls, l⟩ :: more } where
  toInTurn := by
    have ho := (hs.toInTurn.quiet [.called ⟨s.calls, l⟩] rfl).deliver hd fun _ => rfl
    simpa using ho
  awaits k i u opened since sig heq hsig := by
    rcases Mark.split heq with ⟨since, hold, rfl⟩ | ⟨opened, rfl, hnew⟩
    · exact (hs.awaits k i u opened since sig hold hsig).imp (hd.past_mono hs.run) fun ha =>
        ha.call (hd.turn?_of_mem hs.run hs.agrees)
    · obtain ⟨-, rfl, rfl⟩ := Mark.last hnew nofun (hd.length_marks hs.run hs.agrees)
      obtain hnone | ⟨k', sig', hmark, -⟩ := hd.accepted_or hs.run hs.agrees
      · cases hnone
      · obtain ⟨-, -, rfl, -⟩ := Mark.accepted.inj (List.singleton_inj.mp hmark)
        exact .inr .begins
  paired before k j v after heq := by
    rcases Mark.split heq with ⟨since, hold, rfl⟩ | ⟨opened, rfl, hnew⟩
    · exact hs.paired before k j v since hold
    · obtain ⟨-, rfl, -⟩ := Mark.last hnew nofun (hd.length_marks hs.run hs.agrees)
      obtain hnone | ⟨k', sig', hmark, -⟩ := hd.accepted_or hs.run hs.agrees
      · cases hnone
      · cases List.singleton_inj.mp hmark

/-- The return of an invocation whose entry was accepted, or of another of the same method, is
noticed. -/
theorem Sound.past_of_back {j i : Invocation} {u : Value} (hs : s.Sound w options request)
    (hm : .accepted .entry k i u ∈ s.marks) (hl : l.sameMethod j.place = true)
    (hsig : (options.stageMethods request.chain)[k]? = some sig) (hj : w.has sig j.place = true)
    (hd : w.Delivers request.thread .exit j l v s.history s.left h c more) :
    h.Past c (MethodEdge.exit.turn k) := by
  by_cases hp : s.history.Past s.left (MethodEdge.exit.turn k)
  · exact hd.past_mono hs.run hp
  refine hd.past_of_has hs.run hs.agrees hsig ((Debuggee.has_of_sameMethod hl).trans hj) ?_
  rcases (hs.past .entry k i u hm).1 with hf | hnone | hlt
  · exact absurd (.inl hf) hp
  · exact absurd (.inr (.inl hnone)) hp
  · have hnext : ¬MethodEdge.exit.turn k + 1 < s.history.methodSets.length := fun hlt =>
      hp (.inr (.inr hlt))
    have hturns : MethodEdge.exit.turn k = MethodEdge.entry.turn k + 1 := rfl
    omega

theorem Sound.back {j : Invocation} {rest : List Invocation} (hs : s.Sound w options request)
    (hstack : s.stack = j :: rest) (hl : l.sameMethod j.place = true)
    (hd : w.Delivers request.thread .exit j l v s.history s.left h c more) :
    Sound w options request
      { history := h, left := c, stack := rest, calls := s.calls
        marks := s.marks ++ .returned j v :: more } where
  toInTurn := by
    have ho := (hs.toInTurn.quiet [.returned j v] rfl).deliver hd fun _ =>
      Debuggee.has_of_sameMethod hl
    simpa using ho
  awaits k i u opened since sig heq hsig := by
    rcases Mark.split heq with ⟨since, hold, rfl⟩ | ⟨opened, rfl, hnew⟩
    · have hm : .accepted .entry k i u ∈ s.marks := by simp [hold]
      obtain ⟨-, sig', hsig', hi⟩ := hs.past .entry k i u hm
      obtain rfl := Option.some.inj (hsig.symm.trans hsig')
      -- The return of an invocation of the stage's own method is taken. Behind the return of any
      -- other, the one that is awaited still runs.
      cases hj : w.has sig j.place with
      | true => exact .inl (hs.past_of_back hm hl hsig hj hd)
      | false =>
          refine (hs.awaits k i u opened since sig hold hsig).imp (hd.past_mono hs.run) fun ha => ?_
          rw [hstack] at ha
          exact ha.back hi hj (hd.turn?_of_mem hs.run hs.agrees)
    · obtain ⟨-, rfl, -⟩ := Mark.last hnew nofun (hd.length_marks hs.run hs.agrees)
      obtain hnone | ⟨k', sig', hmark, -⟩ := hd.accepted_or hs.run hs.agrees
      · cases hnone
      · cases List.singleton_inj.mp hmark
  paired before k j' v' after heq := by
    rcases Mark.split heq with ⟨since, hold, rfl⟩ | ⟨opened, rfl, hnew⟩
    · exact hs.paired before k j' v' since hold
    · obtain ⟨rfl, rfl, rfl⟩ := Mark.last hnew nofun (hd.length_marks hs.run hs.agrees)
      obtain hnone | ⟨k', sig, hmark, -, hn, hlater, hsig, hhas⟩ :=
        hd.accepted_or hs.run hs.agrees
      · cases hnone
      obtain ⟨-, rfl, rfl, rfl⟩ := Mark.accepted.inj (List.singleton_inj.mp hmark)
      have hnot : ¬s.history.Past s.left (MethodEdge.exit.turn k) := fun hp =>
        Nat.lt_irrefl _ (hlater _ hp)
      have hturn : MethodEdge.exit.turn k = 2 * k + 1 := rfl
      obtain ⟨i, u, hm⟩ := hs.entered (fun hf => hnot (.inl hf)) k (by omega)
      obtain ⟨sig', hsig', hi⟩ := (hs.past .entry k i u hm).2
      obtain rfl := Option.some.inj (hsig.symm.trans hsig')
      obtain ⟨opened, since, hmarks⟩ := List.append_of_mem hm
      have ha := (hs.awaits k i u opened since sig hmarks hsig).resolve_left hnot
      refine ⟨sig, i, u, opened, since, hsig, by simp [hmarks], hi,
        (Debuggee.has_of_sameMethod hl).symm.trans hhas, ha.first, ?_⟩
      rcases ha.running with hleft | ⟨above, below, hsplit, hcalled⟩
      · exact .inr (.inr hleft)
      · rw [hstack] at hsplit
        cases above with
        | nil => exact .inl (List.cons.inj hsplit).1
        | cons x above =>
            obtain ⟨rfl, -⟩ := List.cons.inj hsplit
            exact .inr (.inl (hcalled _ List.mem_cons_self))

theorem Sound.unwind {j : Invocation} {rest : List Invocation} (hs : s.Sound w options request)
    (hstack : s.stack = j :: rest) :
    Sound w options request { s with stack := rest, marks := s.marks ++ [.unwound j] } where
  toInTurn := hs.toInTurn.quiet _ rfl
  awaits k i u opened since sig heq hsig := by
    rcases Mark.split heq with ⟨since, hold, rfl⟩ | ⟨opened, rfl, hnew⟩
    · refine (hs.awaits k i u opened since sig hold hsig).imp_right fun ha => ?_
      rw [hstack] at ha
      exact ha.unwind
    · cases (Mark.last hnew nofun (Nat.zero_le 1)).2.1
  paired before k j v after heq := by
    rcases Mark.split heq with ⟨since, hold, rfl⟩ | ⟨opened, rfl, hnew⟩
    · exact hs.paired before k j v since hold
    · cases (Mark.last hnew nofun (Nat.zero_le 1)).2.1

theorem Sound.other {t : ActiveTrace} {e : Event} {during : History}
    (hs : s.Sound w options request) (hleft : s.left = .listen t)
    (hforeign : ∀ edge id thread l, e.methodEdge? = some (edge, id, thread, l) →
      (edge.number, id) ∉ s.history.installedMethods)
    (hplay : (t.onEvent e).HasTranscript during c) (hw : w.Agrees during) :
    Sound w options request
      { s with history := s.history ++ .heard e :: during, left := c } where
  toInTurn := (hleft ▸ hs.toInTurn).other hforeign hplay hw
  awaits k i u opened since sig heq hsig :=
    (hs.awaits k i u opened since sig heq hsig).imp_left fun hp =>
      (hleft ▸ hs.run).past_mono hplay (hleft ▸ hp)
  paired := hs.paired

theorem Run.sound (run : s.Run w options request) : s.Sound w options request := by
  induction run with
  | begin plays describes =>
      have hrun := TraceRun.start.hasTranscript plays
      refine ⟨⟨by simpa using hrun, describes, nofun, nofun, .nil, fun _ k hk => ?_⟩,
        fun k i u opened since sig heq => ?_, fun before k j v after heq => ?_⟩
      · have hsets := hrun.disciplined.1.length_sets_of_start (by simpa using plays.event?)
        exact absurd (Nat.le_trans hk hsets) (by omega)
      · simp at heq
      · simp at heq
  | step _ next ih =>
      cases next with
      | call delivers => exact ih.call delivers
      | back top inside delivers => exact ih.back top inside delivers
      | unwind top => exact ih.unwind top
      | other listens foreign plays describes => exact ih.other listens foreign plays describes

/-- The events that a trace accepts for its stages come in turn, each at most once. The exit that it
accepts for a stage is the first return from the method of the stage since it accepted the entry,
and the stage gets the value that is returned there. That is the exit of the invocation whose entry
was accepted, unless this one has called the method once more, and the inner call returns first,
or was left by an exception. -/
theorem Run.exits_paired (run : s.Run w options request) :
    (s.marks.filterMap Mark.turn?).Pairwise (· < ·) ∧
    ∀ before k j v after, s.marks = before ++ .accepted .exit k j v :: after →
      s.history.Took options request .exit k v ∧
      ∃ sig i u opened since, (options.stageMethods request.chain)[k]? = some sig ∧
        before = opened ++ .accepted .entry k i u :: since ++ [.returned j v] ∧
        w.has sig i.place = true ∧ w.has sig j.place = true ∧
        (∀ x y, .returned x y ∈ since → w.has sig x.place = false) ∧
        (j = i ∨ .called j ∈ since ∨ .unwound i ∈ since) := by
  have hs := run.sound
  refine ⟨hs.once, fun before k j v after hmarks => ⟨?_, hs.paired before k j v after hmarks⟩⟩
  exact hs.took .exit k j v (by simp [hmarks])

end TracedThread

end

/-! ## A method that calls itself -/

/-- What a continuation makes of an event, if every action has a fixed reply. -/
def Continuation.handling (reply : (a : Action) → a.Reply) (c : Continuation) (e : Event) :
    History × Continuation :=
  match c with
  | .finished => ([], .finished)
  | .listen t =>
    let (during, c) := (t.onEvent e).transcript reply
    (.heard e :: during, c)

section

variable {w : Debuggee} {options : TraceOptions} {request : TraceRequest} {edge : MethodEdge}
  {i : Invocation} {l : Location} {v : Value} {h : History} {c : Continuation} {k : Nat}
  {id : RequestId} {sig : MethodSignature} {reply : (a : Action) → a.Reply}

theorem Debuggee.agrees_transcript {α : Type} (hreply : ∀ a, w.ReplyAgrees (.did a (reply a)))
    (p : Program α) : w.Agrees (p.transcript reply).1 := by
  intro m hm
  obtain ⟨a, rfl⟩ := Program.mem_transcript hm
  exact hreply a

theorem Continuation.listens_of_request? (hrequest : c.request? edge k = some id) :
    c ≠ .finished := by
  rintro rfl
  cases hrequest

theorem TraceRun.installedMethods_of_request? (run : TraceRun options request h (.done c))
    (hrequest : c.request? edge k = some id) :
    h.installedMethods = [(edge.number, id)] ∧ h.methodSets.length = edge.turn k + 1 := by
  cases c with
  | finished => cases hrequest
  | listen t =>
      obtain ⟨b, hb, hid⟩ := Option.bind_eq_some_iff.mp hrequest
      obtain ⟨-, hr⟩ : t.Listens _ _ h := run.disciplined.2
      exact (hr.consistent.request edge k b hb id).mp hid

/-- The event of the request of a breakpoint at its method is accepted, if the trace goes on. -/
theorem Debuggee.Delivers.of_handling (run : TraceRun options request h (.done c))
    (hw : w.Agrees h) (hreply : ∀ a, w.ReplyAgrees (.did a (reply a)))
    (hrequest : c.request? edge k = some id)
    (hsig : (options.stageMethods request.chain)[k]? = some sig) (hhas : w.has sig l = true)
    (hnext : (c.handling reply (edge.event id request.thread l v)).2 ≠ .finished) :
    w.Delivers request.thread edge i l v h c
      (h ++ (c.handling reply (edge.event id request.thread l v)).1)
      (c.handling reply (edge.event id request.thread l v)).2 [.accepted edge k i v] := by
  cases c with
  | finished => cases hrequest
  | listen t =>
      obtain ⟨hone, hn⟩ := run.installedMethods_of_request? hrequest
      have hmem : (edge.number, id) ∈ h.installedMethods := by simp [hone]
      obtain ⟨hcovers, hshows⟩ : w.covers sig l = true ∧ w.shows sig l = true := by
        simpa [Debuggee.has] using hhas
      obtain ⟨k', hk⟩ := run.stageOf?_of_mem hmem
      obtain ⟨-, rfl⟩ : edge = edge ∧ k = k' :=
        MethodEdge.turn_inj (by have := (run.of_stageOf? hk).2.1; omega)
      have plays := Program.hasTranscript_transcript reply
        (t.onEvent (edge.event id request.thread l v))
      have hdescribes := w.agrees_transcript hreply
        (t.onEvent (edge.event id request.thread l v))
      refine .accepted
        ((Debuggee.requested_iff_covers run.disciplined.1 hw hmem hn hsig).mpr hcovers)
        plays hdescribes ?_
      exact ((run.accepts_of_shows plays (hw.append hdescribes) hk hsig hshows).resolve_left
        hnext).1

end

/-- The class of the method `count`, which is its only one. -/
def countClasses : Debuggee where
  methods _ := [{ methodId := 4, name := "count", signature := "()J", modifiers := 1 },
    { methodId := 5, name := "<init>", signature := "()V", modifiers := 1 }]
  classNamed _ := 2
  isSubtype type super := type == super

theorem countClasses_replyAgrees (a : Action) : countClasses.ReplyAgrees (.did a (obliging a)) := by
  cases a with
  | command c =>
      cases c with
      | classesBySignature signature =>
          rintro classes hc c hhead
          cases hc
          cases hhead
          rfl
      | typeMethods type =>
          rintro methods hm
          cases hm
          rfl
      | _ => trivial
  | _ => trivial

def countPlace : Location :=
  { typeTag := TypeTag.classType, typeId := 2, methodId := 4, index := 0 }

/-- The trace of that chain after the first entry of its method. -/
def countInside : History × Continuation :=
  countStarted.2.handling obliging (MethodEdge.entry.event 40 1 countPlace .void)

/-- The same after the first exit. -/
def countLeft : History × Continuation :=
  countInside.2.handling obliging (MethodEdge.exit.event 42 1 countPlace (.long 7))

namespace TracedThread

/-- The method is called and its entry accepted. -/
def countCalled : TracedThread :=
  { history := countStarted.1 ++ countInside.1, left := countInside.2
    stack := [⟨0, countPlace⟩], calls := 1
    marks := [.called ⟨0, countPlace⟩, .accepted .entry 0 ⟨0, countPlace⟩ .void] }

theorem countInside_request : countInside.2.request? .exit 0 = some 42 := by decide

theorem countLeft_request : countLeft.2.request? .entry 1 = some 40 := by decide

theorem run_countCalled : Run countClasses countOptions countRequest countCalled := by
  have hbegin : Run countClasses countOptions countRequest
      { history := countStarted.1, left := countStarted.2, stack := [], calls := 0, marks := [] } :=
    .begin (Program.hasTranscript_transcript obliging _)
      (Debuggee.agrees_transcript countClasses_replyAgrees _) nofun .nil
  have hs := hbegin.sound
  exact hbegin.step (.call (.of_handling hs.run hs.agrees countClasses_replyAgrees
    (by decide : countStarted.2.request? .entry 0 = some 40)
    (by decide : _ = some countSignature) (by decide)
    (Continuation.listens_of_request? countInside_request)))

/-- Whoever returns next from the method, the exit is accepted. -/
theorem delivers_countLeft (i : Invocation) :
    countClasses.Delivers 1 .exit i countPlace (.long 7) countCalled.history countCalled.left
      (countCalled.history ++ countLeft.1) countLeft.2 [.accepted .exit 0 i (.long 7)] := by
  have hs := run_countCalled.sound
  exact .of_handling hs.run hs.agrees countClasses_replyAgrees countInside_request
    (by decide : _ = some countSignature) (by decide)
    (Continuation.listens_of_request? countLeft_request)

/-- The method calls itself, and the inner call returns first. -/
theorem run_countNested : Run countClasses countOptions countRequest
    { history := countCalled.history ++ countLeft.1, left := countLeft.2
      stack := [⟨0, countPlace⟩], calls := 2
      marks := countCalled.marks ++ [.called ⟨1, countPlace⟩] ++
        [.returned ⟨1, countPlace⟩ (.long 7),
          .accepted .exit 0 ⟨1, countPlace⟩ (.long 7)] } := by
  have hs := run_countCalled.sound
  have hsilent : ∀ id, ¬countClasses.Requested 1 countCalled.history .entry countPlace id := by
    intro id hreports
    have hmem := hreports.mem
    rw [(hs.run.installedMethods_of_request? countInside_request).1] at hmem
    have hkind : MethodEdge.entry.number = MethodEdge.exit.number :=
      congrArg Prod.fst (List.mem_singleton.mp hmem)
    cases MethodEdge.number_inj.mp hkind
  have hcall : Run countClasses countOptions countRequest
      { countCalled with
        stack := [⟨1, countPlace⟩, ⟨0, countPlace⟩], calls := 2
        marks := countCalled.marks ++ [.called ⟨1, countPlace⟩] } :=
    run_countCalled.step (.call (.unheard hsilent))
  exact hcall.step (.back rfl rfl (delivers_countLeft _))

/-- It is not always the exit of the invocation whose entry was accepted. The method of the stage
calls itself, and the result of the inner call passes for that of the outer one. -/
theorem Run.exit_of_inner_call :
    ¬∀ (w : Debuggee) (options : TraceOptions) (request : TraceRequest) (s : TracedThread),
      Run w options request s → ∀ k i j u v, .accepted .entry k i u ∈ s.marks →
        .accepted .exit k j v ∈ s.marks → i = j := by
  intro hall
  have heq := hall _ _ _ _ run_countNested 0 ⟨0, countPlace⟩ ⟨1, countPlace⟩ .void (.long 7)
    (by simp [countCalled]) (by simp)
  cases heq

/-- Left alone, the method is seen to return with its own value. -/
theorem Run.exits_paired_of_count :
    ∃ s before after, Run countClasses countOptions countRequest s ∧
      s.marks = before ++ .accepted .exit 0 ⟨0, countPlace⟩ (.long 7) :: after ∧
      s.history.Took countOptions countRequest .exit 0 (.long 7) := by
  have hrun := run_countCalled.step (.back rfl rfl (delivers_countLeft ⟨0, countPlace⟩))
  have hmarks := List.append_cons countCalled.marks (.returned ⟨0, countPlace⟩ (.long 7))
    [.accepted .exit 0 ⟨0, countPlace⟩ (.long 7)]
  exact ⟨_, _, _, hrun, hmarks, (hrun.exits_paired.2 _ _ _ _ _ hmarks).1⟩

end TracedThread

end StreamTrace
