import StreamTrace.Debugger.Session
import StreamTrace.Proofs.Debugger.BridgeCommands
import StreamTrace.Proofs.Debugger.DebuggeeTalk

/-!
# The source variable

Which entry of a method's variable table is taken for the variable that holds the stream. A range
of the table starts at a 64-bit index and has a 32-bit length. The first entry of the name is taken
whose range contains the index of the frame, unless the range reaches the end of the indices: the
end of such a range is too large for 64 bits and wraps around, so that the range seems empty.
-/

namespace StreamTrace

namespace VariableInfo

/-- The index lies in the entry's range, which may be longer than the indices are. -/
def covers (v : VariableInfo) (index : UInt64) : Bool :=
  v.codeIndex ≤ index && index.toNat < v.codeIndex.toNat + v.length.toNat

/-- The end of the entry's range is a 64-bit number. -/
def ends (v : VariableInfo) : Bool := v.codeIndex.toNat + v.length.toNat < 2 ^ 64

/-- A range that ends shows the variable where it covers the index, and any other shows it
nowhere. -/
theorem isVisibleAt_eq (v : VariableInfo) (index : UInt64) :
    v.isVisibleAt index = (v.covers index && v.ends) := by
  have hlength := v.length.toNat_lt
  have hstart := v.codeIndex.toNat_lt
  have hindex := index.toNat_lt
  have hend : (v.codeIndex + v.length.toUInt64).toNat =
      (v.codeIndex.toNat + v.length.toNat) % 2 ^ 64 := by
    rw [UInt64.toNat_add, UInt32.toNat_toUInt64]
  rw [Bool.eq_iff_iff]
  simp only [isVisibleAt, covers, ends, Bool.and_eq_true, decide_eq_true_eq,
    UInt64.le_iff_toNat_le, UInt64.lt_iff_toNat_lt, hend]
  omega

end VariableInfo

/-- The first entry of that name whose range covers the index and ends. -/
def entryAt? (locals : List VariableInfo) (name : String) (index : UInt64) :
    Option VariableInfo :=
  locals.find? fun v => v.name == name && (v.covers index && v.ends)

theorem visibleVariable?_eq (locals : List VariableInfo) (name : String) (index : UInt64) :
    TracePlan.visibleVariable? locals name index = entryAt? locals name index := by
  simp only [TracePlan.visibleVariable?, entryAt?, VariableInfo.isVisibleAt_eq]

/-! ## What is sent -/

section

variable {τ : Type} {answer : Answering τ} {asked : List Command} {w : Talk τ}

/-- Since `asked` was sent, only the bridge has sent commands. -/
def Talk.ServedSince (asked : List Command) (w : Talk τ) : Prop :=
  ∃ later, w.sent = asked ++ later ∧ ∀ c ∈ later, c.servesBridge = true

theorem sent_of_answers {w' : Talk τ} {c : Command} {r : c.Answer}
    (h : (Target.talk answer).answers w (.command c) r w') : w'.sent = w.sent ++ [c] := by
  have hw' : w' = (w.perform answer (.command c)).2 := congrArg Prod.snd h
  rw [hw']
  rfl

theorem hosts_talk : (Target.talk answer).Hosts (BridgeRoutine.BridgeCommand true)
    (fun _ w => w.ServedSince asked) (fun _ w => w.ServedSince asked) := by
  have hsent : ∀ {w w' : Talk τ} {c : Command} {r : c.Answer}, w.ServedSince asked →
      BridgeRoutine.BridgeCommand true c → (Target.talk answer).answers w (.command c) r w' →
        w'.ServedSince asked := by
    rintro w w' c r ⟨later, hlater, hserves⟩ hc hr
    refine ⟨later ++ [c], ?_, fun c' hc' => ?_⟩
    · rw [sent_of_answers hr, hlater, List.append_assoc]
    · rcases List.mem_append.mp hc' with hc' | hc'
      · exact hserves c' hc'
      · rw [List.mem_singleton.mp hc']
        exact hc.1
  exact {
    asks := fun _ _ _ => trivial
    answers := fun hw hc _ hr => hsent hw hc hr
    lists := fun hw hr => hsent hw ⟨rfl, .inl rfl⟩ hr
    admits := fun _ _ _ => trivial
    pins := fun _ hw hc _ hr => hsent hw hc hr
    refuses := fun hw hc _ hr => hsent hw hc hr
    fails := id
    others := fun _ _ hw => hw }

end

namespace TracePlan

open Routine

variable {τ : Type} {answer : Answering τ} {p : TracePlan} {s : SessionState} {g g₁ g₂ : τ}
  {text name : String} {frame : FrameInfo} {rest : List FrameInfo} {n : Nat}
  {locals : List VariableInfo}

/-- The commands by which the variables of the frame on top are looked up. -/
def lookup (p : TracePlan) (frame : FrameInfo) : List Command :=
  [.frames p.thread 0 1, .variableTable frame.location.typeId frame.location.methodId]

/-- Behind the lookup the slot of `v` was read, and no other slot was written or is put back. -/
def SourceTaken (p : TracePlan) (frame : FrameInfo) (v : VariableInfo) (s : SessionState)
    (w : Talk τ) : Prop :=
  (∃ later, w.sent = p.lookup frame ++
      .slotValues p.thread frame.frameId [(v.slot, v.signature)] :: later ∧
    ∀ c ∈ later, c.servesBridge = true ∨
      ∃ stream, c = .setSlots p.thread frame.frameId [(v.slot, stream)]) ∧
  ∀ substitution, s.substitution = some substitution → substitution.slot = v.slot

/-- Nothing was replaced, and only the bridge was at work since `asked` was sent. -/
def SourceUntaken (asked : List Command) (s : SessionState) (w : Talk τ) : Prop :=
  s.substitution = none ∧ w.ServedSince asked

theorem SourceUntaken.sourceTaken {v : VariableInfo} {w : Talk τ}
    (h : SourceUntaken (p.lookup frame ++
      [.slotValues p.thread frame.frameId [(v.slot, v.signature)]]) s w) :
    p.SourceTaken frame v s w := by
  obtain ⟨hnone, later, hlater, hserves⟩ := h
  refine ⟨⟨later, ?_, fun c hc => .inl (hserves c hc)⟩, fun substitution hsome => ?_⟩
  · rw [hlater, List.append_assoc, List.singleton_append]
  · rw [hnone] at hsome
    cases hsome

variable {asked : List Command} {w : Talk τ} {α : Type}

/-- The bridge replaces nothing. -/
theorem inBridge_sourceUntaken {t : BridgeRoutine α} {post : α → BridgeState → Prop}
    (ht : t.Sends (BridgeRoutine.BridgeCommand true) s.bridge post) (h : SourceUntaken asked s w) :
    (inBridge t).Meets (.talk answer) (fun _ s' w' => SourceUntaken asked s' w')
      (fun _ s' w' => SourceUntaken asked s' w') s w := by
  rw [inBridge, meets_within]
  exact (ht.meets hosts_talk h.2).mono (fun _ _ _ h' => ⟨h.1, h'.2⟩) fun _ _ _ h' => ⟨h.1, h'.2⟩

theorem onHandler_sourceUntaken {k : Nat}
    {step : StageHandler → Probe → BridgeRoutine (StageHandler × α)}
    (hstep : ∀ handler probe bridge, ∃ post,
      (step handler probe).Sends (BridgeRoutine.BridgeCommand true) bridge post)
        (h : SourceUntaken asked s w) :
    (p.onHandler k step).Meets (.talk answer) (fun _ s' w' => SourceUntaken asked s' w')
      (fun _ s' w' => SourceUntaken asked s' w') s w := by
  unfold onHandler stageAt
  refine meets_bind.mpr (meets_bind.mpr (meets_get.mpr ?_))
  split
  · rename_i stage _
    obtain ⟨_, hsends⟩ := hstep stage.handler (p.probe s) s.bridge
    refine meets_pure.mpr (meets_bind.mpr (meets_get.mpr (meets_bind.mpr ?_)))
    refine (inBridge_sourceUntaken hsends h).mono (fun r s' w' h' => ?_) fun _ _ _ h' => h'
    rw [meets_bind, meets_modify, meets_pure]
    exact h'
  · exact meets_throw.mpr h

/-- The slot of the variable is written, and noted if the write is not refused. -/
theorem write_sourceTaken {v : VariableInfo} {stream held : Value}
    (h : SourceUntaken (p.lookup frame ++
      [.slotValues p.thread frame.frameId [(v.slot, v.signature)]]) s w) :
    Meets (.talk answer) (do
      commandOr (.setSlots p.thread frame.frameId [(v.slot, stream)]) TraceError.ofWrite
      modify fun s => { s with substitution := some { slot := v.slot, held } } :
        SessionRoutine Unit)
      (fun _ s' w' => p.SourceTaken frame v s' w')
      (fun _ s' w' => p.SourceTaken frame v s' w') s w := by
  obtain ⟨hnone, later, hlater, hserves⟩ := h
  have hsent : ∀ {r : (Command.setSlots p.thread frame.frameId [(v.slot, stream)]).Answer} {w'},
      (Target.talk answer).answers w (.command _) r w' → ∃ later, w'.sent = p.lookup frame ++
        .slotValues p.thread frame.frameId [(v.slot, v.signature)] :: later ∧
          ∀ c ∈ later, c.servesBridge = true ∨
            ∃ stream, c = .setSlots p.thread frame.frameId [(v.slot, stream)] := by
    intro r w' hr
    refine ⟨later ++ [.setSlots p.thread frame.frameId [(v.slot, stream)]], ?_, fun c hc => ?_⟩
    · rw [sent_of_answers hr, hlater]
      simp
    · rcases List.mem_append.mp hc with hc | hc
      · exact .inl (hserves c hc)
      · exact .inr ⟨stream, List.mem_singleton.mp hc⟩
  refine meets_bind.mpr (meets_commandOr.mpr ⟨trivial, fun _ w' hr => meets_modify.mpr ?_,
    fun e w' hr => ⟨hsent hr, fun substitution hsome => ?_⟩⟩)
  · refine ⟨hsent hr, fun substitution hsome => ?_⟩
    cases hsome
    rfl
  · rw [hnone] at hsome
    cases hsome

/-- Which entry of the variable table the source variable is. -/
theorem substituteSource_meets (hvar : p.chain.qualifier = .var text name)
    (hfresh : s.substitution = none)
    (hframe : answer g (.frames p.thread 0 1) = (.ok (frame :: rest), g₁))
    (htable : answer g₁ (.variableTable frame.location.typeId frame.location.methodId) =
      (.ok (n, locals), g₂)) :
    p.substituteSource.Meets (.talk answer)
      (fun _ s' w => ∃ v, entryAt? locals name frame.location.index = some v ∧
        p.SourceTaken frame v s' w)
      (fun e s' w =>
        match entryAt? locals name frame.location.index with
        | none => e = .valueInterception s!"variable `{name}` is not visible in the current frame" ∧
            s' = s ∧ w.sent = p.lookup frame
        | some v => p.SourceTaken frame v s' w) s { debuggee := g } := by
  unfold substituteSource
  rw [hvar]
  dsimp only
  rw [meets_bind, meets_get, hfresh, if_neg (by simp)]
  refine meets_bind.mpr (meets_bind.mpr (meets_talk_command hframe (meets_pure.mpr ?_)))
  refine meets_bind.mpr (meets_talk_command htable ?_)
  dsimp only
  rw [visibleVariable?_eq]
  cases entryAt? locals name frame.location.index with
  | none =>
      rw [meets_throw]
      exact ⟨rfl, rfl, rfl⟩
  | some v =>
      dsimp only
      -- Whatever is answered to the next command, nothing was replaced yet.
      have hread : ∀ {r : (Command.slotValues p.thread frame.frameId
          [(v.slot, v.signature)]).Answer} {w'},
          (Target.talk answer).answers { debuggee := g₂, sent := p.lookup frame } (.command _) r
            w' → SourceUntaken (p.lookup frame ++
              [.slotValues p.thread frame.frameId [(v.slot, v.signature)]]) s w' := fun hr =>
        ⟨hfresh, [], by rw [sent_of_answers hr, List.append_nil], nofun⟩
      refine Meets.mono (?_ : Meets (.talk answer) _ (fun _ s' w => p.SourceTaken frame v s' w)
        (fun _ s' w => p.SourceTaken frame v s' w) s _) (fun _ _ _ h => ⟨v, rfl, h⟩) fun _ _ _ h =>
          h
      refine meets_bind.mpr (meets_commandOr.mpr ⟨trivial, fun values w' hr => ?_,
        fun e w' hr => (hread hr).sourceTaken⟩)
      split
      · exact meets_throw.mpr (hread hr).sourceTaken
      rename_i held _
      have hready : ∀ (handler : StageHandler) bridge, handler.CanStep true bridge :=
        fun _ _ => ⟨⟨.inl rfl, .inl rfl⟩, fun _ _ => .inl rfl⟩
      refine meets_bind.mpr (meets_get.mpr (meets_bind.mpr ?_))
      refine (inBridge_sourceUntaken (StageHandler.afterCall_sends _ _ (hready _ _) _)
        (hread hr)).mono
        (fun r s₁ w₁ h₁ => ?_) fun _ _ _ h => h.sourceTaken
      obtain ⟨_, stream⟩ := r
      refine meets_bind.mpr (meets_get.mpr (meets_ite (fun _ => ?_) fun _ => ?_))
      · exact meets_bind.mpr (meets_pure.mpr (write_sourceTaken h₁))
      · have hstep : ∀ (handler : StageHandler) probe bridge, ∃ post,
            (handler.beforeCall probe stream).Sends
              (BridgeRoutine.BridgeCommand true) bridge post :=
          fun handler probe bridge => ⟨_, handler.beforeCall_sends probe (hready _ _) stream⟩
        exact meets_bind.mpr ((onHandler_sourceUntaken hstep h₁).mono
          (fun _ _ _ h => write_sourceTaken h) fun _ _ _ h => h.sourceTaken)

/-- Where the frame on top and its variable table are answered, the first entry of the variable's
name is taken that is in scope; without one the lookup fails, and nothing more is sent. -/
theorem substituteSource_takes (hvar : p.chain.qualifier = .var text name)
    (hfresh : s.substitution = none)
    (hframe : answer g (.frames p.thread 0 1) = (.ok (frame :: rest), g₁))
    (htable : answer g₁ (.variableTable frame.location.typeId frame.location.methodId) =
      (.ok (n, locals), g₂)) :
    let run := p.substituteSource.talk answer s g
    (entryAt? locals name frame.location.index = none →
      run.1 = (.error (.valueInterception
        s!"variable `{name}` is not visible in the current frame"), s) ∧
      run.2.sent = p.lookup frame) ∧
    ∀ v, entryAt? locals name frame.location.index = some v →
    p.SourceTaken frame v run.1.2 run.2 := by
  have hmeets := substituteSource_meets hvar hfresh hframe htable
  rcases hmeets.talk with ⟨_, s', w, hrun, v, hv, htakes⟩ | ⟨e, s', w, hrun, herr⟩
  · rw [hrun, hv]
    refine ⟨nofun, fun v' hv' => ?_⟩
    cases hv'
    exact htakes
  · rw [hrun]
    cases hentry : entryAt? locals name frame.location.index with
    | none =>
        rw [hentry] at herr
        obtain ⟨rfl, rfl, hsent⟩ := herr
        exact ⟨fun _ => ⟨rfl, hsent⟩, nofun⟩
    | some v =>
        rw [hentry] at herr
        refine ⟨nofun, fun v' hv' => ?_⟩
        cases hv'
        exact herr

/-- A range of ten indices that starts six below the last covers the index of the frame, but it
does not end: the variable is not found. -/
theorem substituteSource_takes_wrapped :
    let v : VariableInfo :=
      { codeIndex := 0xFFFFFFFFFFFFFFFA, name := "xs", signature := "I", length := 10, slot := 1 }
    let frame : FrameInfo :=
      { frameId := 2, location := ⟨TypeTag.classType, 3, 4, 0xFFFFFFFFFFFFFFFC⟩ }
    let p : TracePlan :=
      { options := {}, thread := 1, invoking := frame.location, baseDepth := 1
        chain :=
          { text := "xs.count()", qualifier := .var "xs" "xs", intermediate := []
            terminal := ⟨⟨"count", [], "java.util.stream.Stream", none, none, {}⟩, "long"⟩ } }
    let answer : Answering Unit := fun _ c =>
      match c with
      | .frames _ _ _ => (.ok [frame], ())
      | .variableTable _ _ => (.ok (1, [v]), ())
      | _ => (.error .timeout, ())
    v.covers frame.location.index = true ∧
      (p.substituteSource.talk answer {} ()).1.1 = .error (.valueInterception
        "variable `xs` is not visible in the current frame") := by
  intro v frame p answer
  have hnone : entryAt? [v] "xs" frame.location.index = none := by decide
  have hrun : (p.substituteSource.talk answer {} ()).1 = (.error (.valueInterception
      "variable `xs` is not visible in the current frame"), {}) :=
    ((substituteSource_takes (n := 1) rfl rfl rfl rfl).1 hnone).1
  exact ⟨by decide, congrArg Prod.fst hrun⟩

end TracePlan

end StreamTrace
