import Mathlib.Data.List.Induction
import StreamTrace.Proofs.Debugger.HandledEvents

/-!
# Entries and exits that are reported

A debuggee with fixed classes reports an entry or an exit of a method if an installed request asks
for it. At most one request of a trace does, and what the trace makes of the event depends only on
whether the place is in the method of the request's stage. Each breakpoint is passed once.
-/

namespace StreamTrace

open History (target)
open SessionState

/-! ## Requests with their filters -/

/-- A request as it was set. -/
structure ArmedRequest where
  kind : UInt8
  modifiers : List EventModifier
  id : RequestId
  deriving DecidableEq

/-- The requests that are installed after one more moment, with their filters. -/
def Moment.arm (armed : List ArmedRequest) : Moment → List ArmedRequest
  | did (.command (.setRequest kind _ modifiers)) r =>
    match (r : Except JdwpError RequestId) with
    | .ok (id : RequestId) => armed ++ [{ kind, modifiers, id }]
    | .error _ => armed
  | did (.command (.clearRequest kind id)) r =>
    match (r : Except JdwpError Unit) with
    | .ok () => armed.filter fun x => (x.kind, x.id) ≠ (kind, id)
    | .error _ => armed
  | _ => armed

namespace History

def armed (h : History) : List ArmedRequest := h.foldl Moment.arm []

@[simp] theorem armed_append_singleton (h : History) (m : Moment) :
    History.armed (h ++ [m]) = m.arm h.armed := by
  simp [History.armed]

theorem installed_eq_map_armed (h : History) :
    h.installed = h.armed.map fun x => (x.kind, x.id) := by
  induction h using List.reverseRecOn with
  | nil => rfl
  | append_singleton h m ih =>
      rw [installed_append_singleton, armed_append_singleton, ih]
      cases m with
      | heard e => rfl
      | did a r =>
          cases a with
          | command c =>
              cases c with
              | setRequest kind policy modifiers =>
                  cases r with
                  | error e => rfl
                  | ok id => simp [Moment.install, Moment.arm]
              | clearRequest kind id =>
                  cases r with
                  | error e => rfl
                  | ok u =>
                      cases u
                      simp [Moment.install, Moment.arm, List.filter_map, Function.comp_def]
              | _ => rfl
          | _ => rfl

theorem mem_installedMethods {h : History} {x : UInt8 × RequestId} :
    x ∈ h.installedMethods ↔
      isMethodKind x.1 = true ∧ ∃ r ∈ h.armed, r.kind = x.1 ∧ r.id = x.2 := by
  unfold History.installedMethods
  rw [List.mem_filter, installed_eq_map_armed, List.mem_map, and_comm]
  simp only [Prod.ext_iff]

variable {thread : ThreadId} {sigs : List MethodSignature} {h : History}

/-- Method requests are set only while none is installed. -/
def SetsAlone (h : History) : Prop :=
  ∀ (before : History) c r after, h = before ++ .sent c r :: after → c.setsMethod = true →
    before.installedMethods = []

theorem Disciplined.setsAlone (hd : h.Disciplined thread sigs) : h.SetsAlone :=
  fun before c r after heq hc => ((hd.permitted before c r after heq).setting hc).1

/-- A method request that is installed was set last. -/
theorem SetsAlone.latest (hh : h.SetsAlone) {x : ArmedRequest} (hx : x ∈ h.armed)
    (hkind : isMethodKind x.kind = true) :
    ∃ policy, h.methodSets.getLast? = some (.setRequest x.kind policy x.modifiers, .ok x.id) := by
  induction h using List.reverseRecOn with
  | nil => cases hx
  | append_singleton h m ih =>
      have hbefore : SetsAlone h := fun before c r after heq =>
        hh before c r (after ++ [m]) (by simp [heq])
      rw [armed_append_singleton] at hx
      rw [methodSets_append_singleton]
      -- What neither sets a method request nor brings one keeps the last one.
      have hkeep (hset : m.methodSet? = none) (hx : x ∈ History.armed h) :
          ∃ policy, (History.methodSets h ++ m.methodSet?.toList).getLast? =
            some (.setRequest x.kind policy x.modifiers, .ok x.id) := by
        simpa [hset] using ih hbefore hx
      cases m with
      | heard e => exact hkeep rfl hx
      | did a r =>
          cases a with
          | command c =>
              cases c with
              | setRequest kind policy modifiers =>
                  have halone (hmethod : isMethodKind kind = true) : x ∉ History.armed h := by
                    intro hx
                    have hnone := hh h (.setRequest kind policy modifiers) r [] rfl hmethod
                    have hmem : (x.kind, x.id) ∈ History.installedMethods h :=
                      mem_installedMethods.mpr ⟨hkind, x, hx, rfl, rfl⟩
                    rw [hnone] at hmem
                    cases hmem
                  have hother (hold : x ∈ History.armed h) := hkeep (by
                    have hmethod : isMethodKind kind = false :=
                      Bool.eq_false_iff.mpr fun hm => halone hm hold
                    simp [Moment.methodSet?, hmethod]) hold
                  cases r with
                  | error e => exact hother hx
                  | ok id =>
                      rcases List.mem_append.mp hx with hx | hx
                      · exact hother hx
                      · rw [List.mem_singleton.mp hx] at hkind ⊢
                        refine ⟨policy, ?_⟩
                        have hset : Moment.methodSet? (.sent (.setRequest kind policy modifiers)
                            (.ok id)) = some (.setRequest kind policy modifiers, .ok id) :=
                          if_pos hkind
                        exact (congrArg (fun set? => (History.methodSets h ++ set?.toList).getLast?)
                          hset).trans List.getLast?_concat
              | clearRequest kind id =>
                  cases r with
                  | error e => exact hkeep rfl hx
                  | ok u => exact hkeep rfl (List.mem_filter.mp hx).1
              | _ => exact hkeep rfl hx
          | _ => exact hkeep rfl hx

/-- A method request that is installed is that of a breakpoint, on the class that the debuggee
named. -/
theorem Disciplined.armed (hd : h.Disciplined thread sigs) {x : ArmedRequest} (hx : x ∈ h.armed)
    (hkind : isMethodKind x.kind = true) :
    ∃ edge k sig type, x.kind = MethodEdge.number edge ∧ h.methodSets.length = edge.turn k + 1 ∧
      sigs[k]? = some sig ∧ h.Located sig type ∧
      x.modifiers = [.threadOnly thread, .classOnly type] := by
  obtain ⟨policy, hlast⟩ := hd.setsAlone.latest hx hkind
  have hpos : 0 < h.methodSets.length := by
    cases hs : h.methodSets with
    | nil => simp [hs] at hlast
    | cons s ss => exact Nat.succ_pos _
  rw [List.getLast?_eq_getElem?] at hlast
  obtain ⟨edge, k, sig, type, hturn, hsig, hloc, hset⟩ := hd.order _ _ hlast
  obtain ⟨hkind, -, hmodifiers⟩ := Command.setRequest.inj hset
  exact ⟨edge, k, sig, type, hkind, by omega, hsig, hloc, hmodifiers⟩

end History

/-! ## Debuggees -/

/-- A debuggee whose classes stay as they are. -/
structure Debuggee where
  methods : TypeId → List MethodInfo
  /-- The class that it names for a signature. -/
  classNamed : String → TypeId
  isSubtype : TypeId → TypeId → Bool

namespace Debuggee

variable (w : Debuggee)

/-- What is replied agrees with the classes. -/
def ReplyAgrees : Moment → Prop
  | .did (.command (.typeMethods type)) r =>
    ∀ methods, (r : Except JdwpError (List MethodInfo)) = .ok methods → methods = w.methods type
  | .did (.command (.classesBySignature signature)) r =>
    ∀ classes, (r : Except JdwpError (List ClassInfo)) = .ok classes →
      ∀ c, classes.head? = some c → c.typeId = w.classNamed signature
  | _ => True

def Agrees (h : History) : Prop := ∀ m ∈ h, w.ReplyAgrees m

/-- Whether the place is in a class that the class filter for the method lets pass. -/
def covers (sig : MethodSignature) (l : Location) : Bool :=
  w.isSubtype l.typeId (w.classNamed (typeNameToSignature sig.containingClass))

/-- Whether the place is in a method with that name and descriptor. -/
def shows (sig : MethodSignature) (l : Location) : Bool :=
  ((w.methods l.typeId).find? (·.methodId == l.methodId)).any fun m =>
    sig.Matches m.name m.signature

/-- Whether the place is in the method with that signature, in its class or in a subtype. -/
def has (sig : MethodSignature) (l : Location) : Bool := w.covers sig l && w.shows sig l

/-- Whether an occurrence on the thread passes the filter. -/
def passes (thread : ThreadId) (l : Location) : EventModifier → Bool
  | .threadOnly t => t == thread
  | .classOnly c => w.isSubtype l.typeId c
  | .locationOnly only => only == l
  | _ => true

/-- An installed request asks for the entry or the exit at that place. -/
def Requested (thread : ThreadId) (h : History) (edge : MethodEdge) (l : Location)
    (id : RequestId) : Prop :=
  ∃ x ∈ h.armed, x.kind = edge.number ∧ x.id = id ∧ x.modifiers.all (w.passes thread l) = true

variable {w} {thread : ThreadId} {sigs : List MethodSignature} {h : History} {edge : MethodEdge}
  {k : Nat} {id : RequestId} {sig : MethodSignature} {l : Location} {v : Value}

theorem has_of_sameMethod {l' : Location} (hl : l.sameMethod l' = true) :
    w.has sig l = w.has sig l' := by
  simp only [Location.sameMethod, Bool.and_eq_true, beq_iff_eq] at hl
  simp only [has, covers, shows, hl]

theorem Agrees.append {h' : History} (hw : w.Agrees h) (hw' : w.Agrees h') :
    w.Agrees (h ++ h') := fun m hm => (List.mem_append.mp hm).elim (hw m) (hw' m)

theorem Agrees.heard {during : History} {e : Event} (hw : w.Agrees (h ++ during)) :
    w.Agrees (h ++ .heard e :: during) := by
  intro m hm
  rcases List.mem_append.mp hm with hm | hm
  · exact hw m (List.mem_append_left _ hm)
  · rcases List.mem_cons.mp hm with rfl | hm
    · trivial
    · exact hw m (List.mem_append_right _ hm)

theorem Agrees.located {type : TypeId} (hw : w.Agrees h) (hl : h.Located sig type) :
    type = w.classNamed (typeNameToSignature sig.containingClass) := by
  obtain ⟨classes, hmem, hhead⟩ := hl
  obtain ⟨c, hc, rfl⟩ := Option.map_eq_some_iff.mp hhead
  exact hw _ hmem classes rfl c hc

theorem Agrees.listed {type : TypeId} {methods : List MethodInfo} (hw : w.Agrees h)
    (hl : h.Listed type methods) : methods = w.methods type :=
  hw _ hl methods rfl

theorem Requested.mem (hr : w.Requested thread h edge l id) :
    (edge.number, id) ∈ h.installedMethods := by
  obtain ⟨x, hx, hkind, hid, -⟩ := hr
  exact History.mem_installedMethods.mpr ⟨edge.isMethodKind_number, x, hx, hkind, hid⟩

/-- The request of a breakpoint asks for the places in the class of its method. -/
theorem requested_iff_covers (hd : h.Disciplined thread sigs) (hw : w.Agrees h)
    (hmem : (edge.number, id) ∈ h.installedMethods)
    (hn : h.methodSets.length = edge.turn k + 1) (hsig : sigs[k]? = some sig) :
    w.Requested thread h edge l id ↔ w.covers sig l = true := by
  have hfilter : ∀ x ∈ h.armed, x.kind = edge.number →
      x.modifiers.all (w.passes thread l) = w.covers sig l := by
    intro x hx hkind
    obtain ⟨edge', k', sig', type, hkind', hn', hsig', hloc, hmod⟩ :=
      hd.armed hx (by rw [hkind, MethodEdge.isMethodKind_number])
    obtain ⟨-, rfl⟩ : edge = edge' ∧ k = k' := MethodEdge.turn_inj (by omega)
    obtain rfl : sig = sig' := Option.some.inj (hsig.symm.trans hsig')
    simp [hmod, passes, covers, hw.located hloc]
  constructor
  · rintro ⟨x, hx, hkind, -, hall⟩
    rwa [hfilter x hx hkind] at hall
  · intro hcovers
    obtain ⟨-, x, hx, hkind, hid⟩ := History.mem_installedMethods.mp hmem
    exact ⟨x, hx, hkind, hid, (hfilter x hx hkind).trans hcovers⟩

end Debuggee

/-! ## Events of a listening trace -/

section

variable {options : TraceOptions} {request : TraceRequest} {h during : History} {t : ActiveTrace}
  {edge : MethodEdge} {k : Nat} {id : RequestId} {l : Location} {v : Value} {c : Continuation}
  {w : Debuggee}

/-- While a trace listens, the stage whose breakpoint has the only request is known by it. -/
theorem TraceRun.of_stageOf? (run : TraceRun options request h (.done (.listen t)))
    (hk : t.state.stageOf? edge id = some k) :
    h.installedMethods = [(edge.number, id)] ∧ h.methodSets.length = edge.turn k + 1 ∧
      ∃ stage, t.state.stages[k]? = some stage ∧ (stage.point edge).kind = edge ∧
        (options.stageMethods request.chain)[k]? = some (stage.point edge).signature := by
  obtain ⟨-, hr⟩ : t.Listens _ _ h := run.disciplined.2
  obtain ⟨b, hb, hid⟩ := point?_of_stageOf? hk
  obtain ⟨hone, hn⟩ := (hr.consistent.request edge k b hb id).mp hid
  have hplaced := hr.consistent.placed edge k b hb
  obtain ⟨stage, hstage, rfl⟩ := Option.map_eq_some_iff.mp hb
  exact ⟨hone, hn, stage, hstage, hplaced.kind, hplaced.signature⟩

theorem TraceRun.stageOf?_of_mem (run : TraceRun options request h (.done (.listen t)))
    (hmem : (edge.number, id) ∈ h.installedMethods) : ∃ k, t.state.stageOf? edge id = some k := by
  obtain ⟨-, hr⟩ : t.Listens _ _ h := run.disciplined.2
  obtain ⟨edge', k, b, hb, hid⟩ := hr.consistent.own _ hmem
  obtain ⟨hone, -⟩ := (hr.consistent.request edge' k b hb id).mp hid
  rw [hone, List.mem_singleton] at hmem
  obtain rfl : edge = edge' := MethodEdge.number_inj.mp (congrArg Prod.fst hmem)
  obtain ⟨stage, hstage, rfl⟩ := Option.map_eq_some_iff.mp hb
  cases hfind : t.state.stageOf? edge id with
  | some k => exact ⟨k, rfl⟩
  | none =>
      have hno := List.findIdx?_eq_none_iff.mp hfind stage (List.mem_of_getElem? hstage)
      cases edge <;> exact absurd (beq_iff_eq.mpr hid) (by simpa [Stage.point] using hno)

/-- What the breakpoint's session says about a place is what the debuggee's methods say. -/
theorem TraceRun.judges (run : TraceRun options request h (.done (.listen t)))
    (hw : w.Agrees (h ++ during)) {b : Breakpoint} {isAt : Bool}
    (hj : b.Judges l t.state.methods during isAt) : w.shows b.signature l = isAt := by
  obtain ⟨-, hr⟩ : t.Listens _ _ h := run.disciplined.2
  obtain ⟨methods, htold, hanswer⟩ := hj
  obtain rfl : methods = w.methods l.typeId := by
    rcases htold with hknown | htold
    · exact hw.listed (List.mem_append_left _ (hr.consistent.told _ _ hknown))
    · exact hw.listed (List.mem_append_right _ htold)
  exact hanswer

/-- Of an accepted event the place is in the method of the stage. -/
theorem TraceRun.shows_of_accepts (run : TraceRun options request h (.done (.listen t)))
    (hw : w.Agrees (h ++ during))
    (ha : t.plan.Accepts t.state edge id l v k during) :
    ∃ sig, (options.stageMethods request.chain)[k]? = some sig ∧ w.shows sig l = true := by
  obtain ⟨-, -, stage, hstage, -, hsig⟩ := run.of_stageOf? ha.own
  obtain ⟨stage', check, known, acted, outcome, hstage', hcheck, -, hpre⟩ := ha.passes
  obtain rfl : stage = stage' := Option.some.inj (hstage.symm.trans hstage')
  have hjudged : (stage.point edge).Judges l t.state.methods ([] ++ check) true :=
    hcheck.meets_ok isAt_judges
  exact ⟨_, hsig, run.judges hw (hjudged.later ((List.prefix_append _ _).trans hpre))⟩

/-- Nothing will answer for that breakpoint any more. -/
def History.Past (h : History) (c : Continuation) (turn : Nat) : Prop :=
  c = .finished ∨ h.installedMethods = [] ∨ turn + 1 < h.methodSets.length

/-- The run after an event was handled. -/
theorem TraceRun.handled {e : Event} (run : TraceRun options request h (.done (.listen t)))
    (hplay : (t.onEvent e).HasTranscript during c) :
    TraceRun options request (h ++ .heard e :: during) (.done c) := by
  simpa using (run.event e).hasTranscript hplay

theorem TraceRun.past_mono {e : Event} {n : Nat}
    (run : TraceRun options request h (.done (.listen t)))
    (hplay : (t.onEvent e).HasTranscript during c) (hp : h.Past (.listen t) n) :
    History.Past (h ++ .heard e :: during) c n := by
  rcases hp with hf | hfree | hlt
  · cases hf
  · exact .inr (.inl ((run.handled hplay).disciplined.1.free_of_event hplay.event? hfree))
  · rw [History.Past, History.methodSets_append, List.length_append]
    omega

/-- An event of a breakpoint's request at a place of its method is accepted, and the breakpoint is
past then, unless the trace ends. -/
theorem TraceRun.accepts_of_shows {sig : MethodSignature}
    (run : TraceRun options request h (.done (.listen t)))
    (hplay : (t.onEvent (edge.event id request.thread l v)).HasTranscript during c)
    (hw : w.Agrees (h ++ during)) (hk : t.state.stageOf? edge id = some k)
    (hsig : (options.stageMethods request.chain)[k]? = some sig) (hshows : w.shows sig l = true) :
    c = .finished ∨ t.plan.Accepts t.state edge id l v k during ∧
      History.Past (h ++ .heard (edge.event id request.thread l v) :: during) c (edge.turn k) := by
  obtain ⟨hthread, -⟩ : t.Listens _ _ h := run.disciplined.2
  obtain ⟨hone, hn, stage, hstage, hkind, hsig'⟩ := run.of_stageOf? hk
  obtain rfl := Option.some.inj (hsig.symm.trans hsig')
  have hd := (run.handled hplay).disciplined.1
  rw [← hthread] at hplay
  have hsettled := hplay.meets (ActiveTrace.onEvent_settles hk hstage hkind)
  rw [List.nil_append] at hsettled
  rcases hsettled with hf | ⟨hclear, ha⟩ | hj
  · exact .inl hf
  · refine .inr ⟨ha, .inr <| (hd.passed_of_clears hplay.event? hone hclear).imp_right ?_⟩
    omega
  · rw [run.judges hw hj] at hshows
    cases hshows

theorem TraceRun.past_of_accepts
    (run : TraceRun options request h (.done (.listen t)))
    (hplay : (t.onEvent (edge.event id request.thread l v)).HasTranscript during c)
    (hw : w.Agrees (h ++ during)) (ha : t.plan.Accepts t.state edge id l v k during) :
    History.Past (h ++ .heard (edge.event id request.thread l v) :: during) c (edge.turn k) := by
  obtain ⟨sig, hsig, hshows⟩ := run.shows_of_accepts hw ha
  rcases run.accepts_of_shows hplay hw ha.own hsig hshows with hf | ⟨-, hp⟩
  · exact .inl hf
  · exact hp

/-- A method request is set only when an event was accepted. -/
theorem TraceRun.accepts_of_sets {e : Event}
    (run : TraceRun options request h (.done (.listen t)))
    (hplay : (t.onEvent e).HasTranscript during c) (hw : w.Agrees (h ++ during))
    (hc : c ≠ .finished) :
    (History.methodSets (h ++ .heard e :: during)).length = h.methodSets.length ∨
      (History.methodSets (h ++ .heard e :: during)).length = h.methodSets.length + 1 ∧
        ∃ edge k id l, e.methodEdge? = some (edge, id, request.thread, l) ∧
          (edge.number, id) ∈ h.installedMethods ∧
          h.methodSets.length = edge.turn k + 1 ∧
          ∀ v, e = edge.event id request.thread l v →
            t.plan.Accepts t.state edge id l v k during := by
  have hd := (run.handled hplay).disciplined.1
  rcases hd.sets_of_event hplay.event? with hnone | ⟨⟨set, hset⟩, haccepted⟩
  · left
    rw [History.methodSets_append, List.filterMap_cons]
    simp [Moment.methodSet?, List.filterMap_eq_nil_iff.mpr hnone]
  · obtain ⟨edge, k, id, l, sig, he, hi, hn, -, hsig, hshows⟩ := haccepted
    have hmem : (edge.number, id) ∈ h.installedMethods := by simp [hi]
    obtain ⟨k', hk⟩ := run.stageOf?_of_mem hmem
    obtain ⟨-, rfl⟩ : edge = edge ∧ k = k' :=
      MethodEdge.turn_inj (by have := (run.of_stageOf? hk).2.1; omega)
    refine .inr ⟨?_, edge, k, id, l, he, hmem, hn, ?_⟩
    · rw [History.methodSets_append, List.filterMap_cons]
      simp [Moment.methodSet?, hset]
    · rintro v rfl
      have hwshows : w.shows sig l = true := by
        obtain ⟨methods, m, hlisted, hfind, hmatch⟩ := hshows
        have htold : Moment.sent (.typeMethods l.typeId) (.ok methods) ∈ h ++ during := by
          simpa [History.Listed, Moment.sent] using hlisted
        rw [hw.listed htold] at hfind
        simp [Debuggee.shows, hfind, hmatch]
      exact ((run.accepts_of_shows hplay hw hk hsig hwshows).resolve_left hc).1

end

end StreamTrace
