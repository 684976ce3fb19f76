import StreamTrace.Proofs.Debugger.BridgeSpecs

/-!
# Talking to a debuggee

A routine is run against a debuggee that answers every command by itself. What comes of it is the
routine's result, what has become of the debuggee, and the commands that were sent. What holds of a
routine on the machine holds of such a run.
-/

namespace StreamTrace

/-- A debuggee, and the commands that it was sent, oldest first. -/
structure Talk (τ : Type) where
  debuggee : τ
  sent : List Command := []

/-- How debuggees of a kind answer, and what becomes of them. -/
abbrev Answering (τ : Type) := τ → (c : Command) → c.Answer × τ

variable {ε σ τ α : Type}

namespace Talk

/-- Only commands are for the debuggee. -/
def perform (answer : Answering τ) (w : Talk τ) : (a : Action) → a.Reply × Talk τ
  | .command c =>
    ((answer w.debuggee c).1, { debuggee := (answer w.debuggee c).2, sent := w.sent ++ [c] })
  | .publish _ => ((), w)
  | .deliver _ => ((), w)
  | .clock => ((0 : Nat), w)

end Talk

/-- Runs a routine from the state `s` against the debuggee `g`. -/
def Routine.talk (answer : Answering τ) (t : Routine ε σ α) (s : σ) (g : τ) :
    (Except ε α × σ) × Talk τ :=
  Program.run (Talk.perform answer) (t s) { debuggee := g }

/-- The debuggee that answers so. -/
def Target.talk (answer : Answering τ) : Target (Talk τ) where
  asks _ _ := True
  answers w a r w' := (r, w') = w.perform answer a

variable {answer : Answering τ}

theorem Program.meets_talk {p : Program α} {post : α → Talk τ → Prop} {w : Talk τ} :
    p.Meets (.talk answer) post w ↔
      post (Program.run (Talk.perform answer) p w).1 (Program.run (Talk.perform answer) p w).2 := by
  induction p generalizing w with
  | done a => rfl
  | act a next ih =>
      rw [Program.meets_act]
      constructor
      · intro h
        exact (ih _).mp (h.2 _ _ rfl)
      · intro h
        refine ⟨trivial, fun r w' hr => (ih _).mpr ?_⟩
        obtain ⟨rfl, rfl⟩ := Prod.mk.inj (show (r, w') = _ from hr)
        exact h

/-- What holds of a program on the machine holds of its talk with the machine. -/
theorem Program.Meets.of_machine {p : Program α} {post : α → Vm → Prop} {w : Talk Vm}
    (h : p.Meets .machine post w.debuggee) :
    p.Meets (.talk Vm.answer) (fun a w' => post a w'.debuggee) w := by
  induction p generalizing w with
  | done a => exact h
  | act a next ih =>
      obtain ⟨hasks, hnext⟩ := Program.meets_act.mp h
      cases a with
      | command c =>
          refine ⟨trivial, fun r w' hr => ih r (hnext r w'.debuggee ?_)⟩
          obtain ⟨rfl, rfl⟩ := Prod.mk.inj (show (r, w') = _ from hr)
          rfl
      | publish _ => exact hasks.elim
      | deliver _ => exact hasks.elim
      | clock => exact hasks.elim

theorem Routine.Meets.of_machine {t : Routine ε σ α} {s : σ} {ok : α → σ → Vm → Prop}
    {err : ε → σ → Vm → Prop} {w : Talk Vm} (h : t.Meets .machine ok err s w.debuggee) :
    t.Meets (.talk Vm.answer) (fun a s' w' => ok a s' w'.debuggee)
      (fun e s' w' => err e s' w'.debuggee) s w := by
  unfold Routine.Meets at h ⊢
  refine (Program.Meets.of_machine h).mono ?_
  rintro ⟨r, s'⟩ w' h'
  cases r with
  | ok a => exact h'
  | error e => exact h'

namespace Routine

variable {t : Routine ε σ α} {s : σ} {g : τ} {ok : α → σ → Talk τ → Prop}
  {err : ε → σ → Talk τ → Prop}

/-- A run ends in a value or in a failure, and what is said of that holds. -/
theorem Meets.talk (h : t.Meets (.talk answer) ok err s { debuggee := g }) :
    (∃ a s' w, t.talk answer s g = ((.ok a, s'), w) ∧ ok a s' w) ∨
      ∃ e s' w, t.talk answer s g = ((.error e, s'), w) ∧ err e s' w := by
  unfold Routine.Meets at h
  have hrun := Program.meets_talk.mp h
  have htalk : t.talk answer s g =
      Program.run (Talk.perform answer) (t s) { debuggee := g } := rfl
  rw [← htalk] at hrun
  revert hrun
  generalize t.talk answer s g = run
  obtain ⟨⟨r, s'⟩, w⟩ := run
  cases r with
  | ok a => exact fun hok => .inl ⟨a, s', w, rfl, hok⟩
  | error e => exact fun herr => .inr ⟨e, s', w, rfl, herr⟩

theorem Meets.talk_ok (h : t.Meets (.talk answer) ok (fun _ _ _ => False) s { debuggee := g }) :
    ∃ a s' w, t.talk answer s g = ((.ok a, s'), w) ∧ ok a s' w := by
  rcases h.talk with hok | ⟨_, _, _, -, hno⟩
  · exact hok
  · exact hno.elim

section

variable {σ : Type} {s : σ} {c : Command} {g' : τ}

theorem meets_talk_command {wrap : JdwpError → TraceError} {r : c.Reply} {w : Talk τ}
    {ok : c.Reply → σ → Talk τ → Prop} {err : TraceError → σ → Talk τ → Prop}
    (h : answer w.debuggee c = (.ok r, g'))
    (hok : ok r s { debuggee := g', sent := w.sent ++ [c] }) :
    (commandOr c wrap : Routine TraceError σ c.Reply).Meets (.talk answer) ok err s w := by
  have hperform : w.perform answer (.command c) =
      (.ok r, { debuggee := g', sent := w.sent ++ [c] }) := by
    show ((answer w.debuggee c).1, _) = _
    rw [h]
    rfl
  rw [meets_commandOr]
  refine ⟨trivial, fun r' w' hr => ?_, fun e w' hr => ?_⟩
  · have heq := Eq.trans (show ((.ok r' : c.Answer), w') = _ from hr) hperform
    cases heq
    exact hok
  · have heq := Eq.trans (show ((.error e : c.Answer), w') = _ from hr) hperform
    cases heq

theorem meets_talk_refused {wrap : JdwpError → TraceError} {e : JdwpError} {w : Talk τ}
    {ok : c.Reply → σ → Talk τ → Prop} {err : TraceError → σ → Talk τ → Prop}
    (h : answer w.debuggee c = (.error e, g'))
    (herr : err (wrap e) s { debuggee := g', sent := w.sent ++ [c] }) :
    (commandOr c wrap : Routine TraceError σ c.Reply).Meets (.talk answer) ok err s w := by
  have hperform : w.perform answer (.command c) =
      (.error e, { debuggee := g', sent := w.sent ++ [c] }) := by
    show ((answer w.debuggee c).1, _) = _
    rw [h]
    rfl
  rw [meets_commandOr]
  refine ⟨trivial, fun r w' hr => ?_, fun e' w' hr => ?_⟩
  · have heq := Eq.trans (show ((.ok r : c.Answer), w') = _ from hr) hperform
    cases heq
  · have heq := Eq.trans (show ((.error e' : c.Answer), w') = _ from hr) hperform
    cases heq
    exact herr

/-- A command that is answered. -/
theorem talk_commandOr {wrap : JdwpError → TraceError} {r : c.Reply}
    (h : answer g c = (.ok r, g')) :
    (commandOr c wrap : Routine TraceError σ c.Reply).talk answer s g =
      ((.ok r, s), { debuggee := g', sent := [c] }) := by
  have hmeets : (commandOr c wrap : Routine TraceError σ c.Reply).Meets (.talk answer)
      (fun a s' w => a = r ∧ s' = s ∧ w = { debuggee := g', sent := [c] }) (fun _ _ _ => False)
      s { debuggee := g } := meets_talk_command h ⟨rfl, rfl, rfl⟩
  obtain ⟨a, s', w, hrun, rfl, rfl, rfl⟩ := hmeets.talk_ok
  exact hrun

end

end Routine

end StreamTrace
