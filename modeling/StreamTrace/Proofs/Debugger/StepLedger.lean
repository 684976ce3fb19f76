import StreamTrace.Proofs.Debugger.BridgeCommands
import StreamTrace.Proofs.Debugger.Ledger

/-!
# The steps of a trace

Which requests for a step are installed at a moment, how many were set, and what a trace may do
next as far as steps are concerned. Every step is asked for once, so the event that ends it uses its
request up, whoever hears of it.

The exit of the last stage asks for a step whether or not one is requested already. So two of them
can be installed, but no more, and only if an exit came in while a step was requested.

The steps into what is ahead are counted in 32 bits. The count passes every limit but the greatest,
which it cannot exceed; so the greatest limits nothing.
-/

namespace StreamTrace

/-- The depth of the step that the modifiers ask for. -/
def EventModifier.stepDepth? : EventModifier → Option UInt32
  | step _ _ depth => some depth
  | _ => none

namespace Command

/-- The depth of the step that is requested. -/
def stepDepth? : Command → Option UInt32
  | setRequest kind _ modifiers =>
    if kind = EventKind.singleStep then modifiers.findSome? EventModifier.stepDepth? else none
  | _ => none

/-- Whether the command neither sets nor clears a request for a step. -/
def isLevel : Command → Bool
  | setRequest kind _ _ => kind != EventKind.singleStep
  | clearRequest kind _ => kind != EventKind.singleStep
  | _ => true

theorem isLevel_of_servesBridge {c : Command} (h : c.servesBridge = true) : c.isLevel = true := by
  cases c <;> first | rfl | cases h

/-- Whether the command sets a request for a step. -/
def SetsStep (c : Command) : Prop :=
  ∃ policy modifiers, c = .setRequest EventKind.singleStep policy modifiers

theorem stepDepth?_of_not_setsStep {c : Command} (h : ¬c.SetsStep) : c.stepDepth? = none := by
  cases c with
  | setRequest kind policy modifiers =>
      refine if_neg fun hkind => h ?_
      subst hkind
      exact ⟨policy, modifiers, rfl⟩
  | _ => rfl

theorem not_setsStep_of_isLevel {c : Command} (h : c.isLevel = true) : ¬c.SetsStep := by
  rintro ⟨policy, modifiers, rfl⟩
  simp [isLevel] at h

end Command

namespace Moment

/-- The steps that are requested after one more moment. -/
def pace (steps : List RequestId) : Moment → List RequestId
  | did (.command (.setRequest kind _ _)) r =>
    match (r : Except JdwpError RequestId) with
    | .ok (id : RequestId) => if kind = EventKind.singleStep then steps ++ [id] else steps
    | .error _ => steps
  | did (.command (.clearRequest kind id)) r =>
    match (r : Except JdwpError Unit) with
    | .ok () => if kind = EventKind.singleStep then steps.filter (· ≠ id) else steps
    | .error _ => steps
  | heard (.singleStep id _ _) => steps.filter (· ≠ id)
  | _ => steps

/-- The depth of the step that was asked for, whether or not the request was refused. -/
def stepDepth? : Moment → Option UInt32
  | did (.command c) _ => c.stepDepth?
  | _ => none

/-- No step is requested, ended or given up, and no event comes. -/
structure Level (m : Moment) : Prop where
  pace : ∀ steps, m.pace steps = steps
  depth : m.stepDepth? = none
  event : m.event? = none

theorem level_sent {c : Command} (hc : c.isLevel = true) (r : c.Answer) : (sent c r).Level := by
  refine ⟨fun steps => ?_, Command.stepDepth?_of_not_setsStep (Command.not_setsStep_of_isLevel hc),
    rfl⟩
  cases c with
  | setRequest kind policy modifiers =>
      have hkind : kind ≠ EventKind.singleStep := by simpa [Command.isLevel] using hc
      cases r with
      | error e => rfl
      | ok id => exact if_neg hkind
  | clearRequest kind id =>
      have hkind : kind ≠ EventKind.singleStep := by simpa [Command.isLevel] using hc
      cases r with
      | error e => rfl
      | ok u => exact if_neg hkind
  | _ => rfl

theorem level_did {a : Action} (ha : ∀ c, a = .command c → c.isLevel = true) (r : a.Reply) :
    (did a r).Level := by
  cases a with
  | command c => exact level_sent (ha c rfl) r
  | _ => exact ⟨fun _ => rfl, rfl, rfl⟩

theorem pace_set (steps : List RequestId) (policy : UInt8) (modifiers : List EventModifier)
    (id : RequestId) :
    (sent (.setRequest EventKind.singleStep policy modifiers) (.ok id)).pace steps =
      steps ++ [id] := by
  show (if EventKind.singleStep = EventKind.singleStep then steps ++ [id] else steps) = _
  rw [if_pos rfl]

theorem pace_clear_sublist (steps : List RequestId) (kind : UInt8) (id : RequestId)
    (r : (Command.clearRequest kind id).Answer) :
    ((sent (.clearRequest kind id) r).pace steps).Sublist steps := by
  cases r with
  | error e => exact .refl _
  | ok u =>
      show (if kind = EventKind.singleStep then steps.filter (· ≠ id) else steps).Sublist steps
      split
      · exact List.filter_sublist
      · exact .refl _

/-- Whether the moment is one at which a step is requested. -/
def SetsStep (m : Moment) : Prop := ∃ c r, m = .sent c r ∧ c.SetsStep

/-- Only requesting one makes the requested steps more. -/
theorem pace_sublist {m : Moment} (hm : ¬m.SetsStep) (steps : List RequestId) :
    (m.pace steps).Sublist steps := by
  cases m with
  | heard e =>
      cases e with
      | singleStep id t l => exact List.filter_sublist
      | _ => exact .refl _
  | did a r =>
      cases a with
      | command c =>
          cases c with
          | setRequest kind policy modifiers =>
              have hkind : kind ≠ EventKind.singleStep := by
                rintro rfl
                exact hm ⟨_, r, rfl, policy, modifiers, rfl⟩
              have hlevel : (sent (.setRequest kind policy modifiers) r).Level :=
                level_sent (by simpa [Command.isLevel] using hkind) r
              have hpace := hlevel.pace steps
              unfold sent at hpace
              simp only [hpace]
              exact .refl _
          | clearRequest kind id => exact pace_clear_sublist steps kind id r
          | _ => exact .refl _
      | _ => exact .refl _

theorem stepDepth?_of_not_setsStep {m : Moment} (hm : ¬m.SetsStep) : m.stepDepth? = none := by
  cases m with
  | heard e => rfl
  | did a r =>
      cases a with
      | command c => exact Command.stepDepth?_of_not_setsStep fun hc => hm ⟨c, r, rfl, hc⟩
      | _ => rfl

end Moment

namespace History

/-- The steps that are requested, oldest first. -/
def steps (h : History) : List RequestId := h.foldl Moment.pace []

/-- How many steps of that depth were asked for. -/
def stepsTo (depth : UInt32) (h : History) : Nat := (h.filterMap Moment.stepDepth?).count depth

/-- No exit of a method was reported while a step was requested. -/
def Undisturbed (h : History) : Prop :=
  ∀ (pre : History) id t l v, pre ++ [.heard (.methodExitWithValue id t l v)] <+: h →
    pre.steps = []

variable (h : History) (m : Moment)

@[simp] theorem steps_nil : steps [] = [] := rfl

@[simp] theorem steps_snoc : steps (h ++ [m]) = m.pace h.steps := by
  simp [steps]

@[simp] theorem stepsTo_nil (depth : UInt32) : stepsTo depth [] = 0 := rfl

theorem stepsTo_snoc (depth : UInt32) :
    stepsTo depth (h ++ [m]) = h.stepsTo depth + m.stepDepth?.toList.count depth := by
  rw [stepsTo, filterMap_snoc, List.count_append]
  rfl

theorem undisturbed_snoc :
    Undisturbed (h ++ [m]) ↔ h.Undisturbed ∧
      ∀ id t l v, m = .heard (.methodExitWithValue id t l v) → h.steps = [] := by
  unfold Undisturbed
  simp only [List.prefix_concat_iff, List.append_singleton_inj]
  constructor
  · intro hu
    exact ⟨fun pre id t l v hpre => hu pre id t l v (.inr hpre),
      fun id t l v hm => hu h id t l v (.inl ⟨rfl, hm.symm⟩)⟩
  · rintro ⟨hu, hlast⟩ pre id t l v (⟨rfl, hm⟩ | hpre)
    · exact hlast id t l v hm.symm
    · exact hu pre id t l v hpre

variable {h} {h' : History}

theorem ContinuedBy.steps (hg : h.ContinuedBy Moment.Level h') : h'.steps = h.steps :=
  hg.keeps History.steps fun h m hm => by simp [hm.pace]

theorem ContinuedBy.stepsTo (hg : h.ContinuedBy Moment.Level h') (depth : UInt32) :
    h'.stepsTo depth = h.stepsTo depth :=
  hg.keeps (History.stepsTo depth) fun h m hm => by simp [stepsTo_snoc, hm.depth]

theorem ContinuedBy.undisturbed (hg : h.ContinuedBy Moment.Level h') : h'.Undisturbed ↔
    h.Undisturbed := by
  induction hg with
  | refl => rfl
  | snoc _ kind ih =>
      rw [undisturbed_snoc, ih]
      refine and_iff_left fun id t l v hm => ?_
      have hevent := kind.event
      rw [hm] at hevent
      cases hevent

/-! ## What a trace may do -/

/-- The trace may do that next, if it makes at most `limit` steps into what is ahead, the greatest
limit apart. Where a step is requested at most one other is, and none unless an exit came too
early. -/
def MaySetStep (limit : UInt32) (h : History) (a : Action) : Prop :=
  ∀ policy modifiers, a = .command (.setRequest EventKind.singleStep policy modifiers) →
    h.steps.length ≤ 1 ∧ (h.Undisturbed → h.steps = []) ∧
      (modifiers.findSome? EventModifier.stepDepth? = some StepDepth.into →
        limit.toNat + 1 < UInt32.size → h.stepsTo StepDepth.into < limit.toNat)

theorem maySetStep_of_not_setsStep {limit : UInt32} {a : Action}
    (ha : ∀ c, a = .command c → ¬c.SetsStep) : h.MaySetStep limit a := by
  rintro policy modifiers rfl
  exact absurd ⟨policy, modifiers, rfl⟩ (ha _ rfl)

theorem maySetStep_clear {limit : UInt32} (kind : UInt8) (id : RequestId) :
    h.MaySetStep limit (.command (.clearRequest kind id)) := by
  rintro policy modifiers hc
  cases hc

/-- At most two steps are requested, and two only if an exit came too early. -/
structure StepBounds (limit : UInt32) (h : History) : Prop where
  two : h.steps.length ≤ 2
  one : h.Undisturbed → h.steps.length ≤ 1
  limited : limit.toNat + 1 < UInt32.size → h.stepsTo StepDepth.into ≤ limit.toNat

namespace StepBounds

variable {limit : UInt32}

theorem nil : StepBounds limit [] := ⟨Nat.zero_le 2, fun _ => Nat.zero_le 1, fun _ => Nat.zero_le _⟩

/-- A moment at which no step is requested keeps the bounds. -/
theorem snoc (hs : h.StepBounds limit) {m : Moment} (hm : ¬m.SetsStep) :
    StepBounds limit (h ++ [m]) := by
  have hlength : (History.steps (h ++ [m])).length ≤ h.steps.length := by
    rw [steps_snoc]
    exact (Moment.pace_sublist hm _).length_le
  refine ⟨hlength.trans hs.two, fun hu => ?_, ?_⟩
  · exact hlength.trans (hs.one ((undisturbed_snoc h m).mp hu).1)
  · rw [stepsTo_snoc, Moment.stepDepth?_of_not_setsStep hm]
    exact hs.limited

/-- A step is requested where that is allowed. -/
theorem set (hs : h.StepBounds limit) {policy : UInt8} {modifiers : List EventModifier}
    (r : (Command.setRequest EventKind.singleStep policy modifiers).Answer)
    (hmay : h.steps.length ≤ 1 ∧ (h.Undisturbed → h.steps = []) ∧
      (modifiers.findSome? EventModifier.stepDepth? = some StepDepth.into →
        limit.toNat + 1 < UInt32.size → h.stepsTo StepDepth.into < limit.toNat)) :
    StepBounds limit (h ++ [.sent (.setRequest EventKind.singleStep policy modifiers) r]) := by
  obtain ⟨htwo, hone, hinto⟩ := hmay
  have hlength : (History.steps (h ++ [.sent (.setRequest EventKind.singleStep policy modifiers)
      r])).length ≤ h.steps.length + 1 := by
    rw [steps_snoc]
    cases r with
    | error e => exact Nat.le_succ _
    | ok id =>
        have hpace := congrArg List.length (Moment.pace_set h.steps policy modifiers id)
        rw [List.length_append] at hpace
        exact hpace.le
  refine ⟨by omega, fun hu => ?_, ?_⟩
  · have hnil := hone ((undisturbed_snoc h _).mp hu).1
    rw [hnil] at hlength
    exact hlength
  · have hdepth : (Moment.sent (.setRequest EventKind.singleStep policy modifiers) r).stepDepth? =
        modifiers.findSome? EventModifier.stepDepth? := by
      simp [Moment.sent, Moment.stepDepth?, Command.stepDepth?]
    rw [stepsTo_snoc, hdepth]
    by_cases hd : modifiers.findSome? EventModifier.stepDepth? = some StepDepth.into
    · rw [hd]
      exact hinto hd
    · have hcount : (modifiers.findSome? EventModifier.stepDepth?).toList.count
          StepDepth.into = 0 := List.count_eq_zero.mpr fun hmem => hd (by simpa using hmem)
      rw [hcount]
      exact hs.limited

theorem did (hs : h.StepBounds limit) {a : Action} (r : a.Reply) (ha : h.MaySetStep limit a) :
    StepBounds limit (h ++ [.did a r]) := by
  by_cases hm : (Moment.did a r).SetsStep
  · obtain ⟨c, r, heq, policy, modifiers, rfl⟩ := hm
    cases heq
    exact hs.set r (ha policy modifiers rfl)
  · exact hs.snoc hm

theorem heard (hs : h.StepBounds limit) (e : Event) : StepBounds limit (h ++ [.heard e]) := by
  refine hs.snoc ?_
  rintro ⟨c, r, heq, -⟩
  cases heq

end StepBounds

end History

end StreamTrace
