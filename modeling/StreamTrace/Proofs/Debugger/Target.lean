import StreamTrace.Debugger.Program

/-!
# Programs on a debug target

What can be said about a program whatever its target replies. A `Target` names the replies that an
action may get, and what is asked of a program before it performs the action. `Program.Meets` is
the weakest precondition of a program on such a target: everything that is asked holds when it is
asked, and the postcondition holds at the end. Programs always end, so nothing is lost by that.

The equations below push `Routine.Meets` through routines, one for each way to build one.
-/

namespace StreamTrace

/-- A debug target with a record of type `τ`, which changes with every action. -/
structure Target (τ : Type) where
  /-- What has to hold of the record when the action is performed. -/
  asks : τ → Action → Prop
  /-- Which replies an action may get, and the record afterwards. -/
  answers : τ → (a : Action) → a.Reply → τ → Prop

namespace Program

variable {α β τ : Type} {T : Target τ}

def Meets (T : Target τ) : Program α → (α → τ → Prop) → τ → Prop
  | done a, post, g => post a g
  | act a next, post, g =>
    T.asks g a ∧ ∀ r g', T.answers g a r g' → Meets T (next r) post g'

@[simp] theorem meets_done {a : α} {post : α → τ → Prop} {g : τ} :
    (done a).Meets T post g ↔ post a g := Iff.rfl

theorem meets_act {a : Action} {next : a.Reply → Program α} {post : α → τ → Prop} {g : τ} :
    (act a next).Meets T post g ↔
      T.asks g a ∧ ∀ r g', T.answers g a r g' → (next r).Meets T post g' := Iff.rfl

theorem meets_perform {a : Action} {post : a.Reply → τ → Prop} {g : τ} :
    (perform a).Meets T post g ↔ T.asks g a ∧ ∀ r g', T.answers g a r g' → post r g' := Iff.rfl

theorem meets_bind (p : Program α) (f : α → Program β) (post : β → τ → Prop) (g : τ) :
    (p >>= f).Meets T post g ↔ p.Meets T (fun a g => (f a).Meets T post g) g := by
  induction p generalizing g with
  | done a => rfl
  | act a next ih => simp only [act_bind, meets_act, ih]

theorem Meets.mono {p : Program α} {post post' : α → τ → Prop} {g : τ}
    (h : p.Meets T post g) (hpost : ∀ a g, post a g → post' a g) : p.Meets T post' g := by
  induction p generalizing g with
  | done a => exact hpost a g h
  | act a next ih => exact ⟨h.1, fun r g' hr => ih r (h.2 r g' hr)⟩

end Program

namespace Routine

variable {ε ε' σ ρ τ α β : Type} {T : Target τ}

/-- Started with state `s` and record `g`, the routine ends in `ok`, or fails in `err`. -/
def Meets (T : Target τ) (t : Routine ε σ α) (ok : α → σ → τ → Prop) (err : ε → σ → τ → Prop)
    (s : σ) (g : τ) : Prop :=
  Program.Meets T (t s)
    (fun r g =>
      match r.1 with
      | .ok a => ok a r.2 g
      | .error e => err e r.2 g) g

variable {ok : α → σ → τ → Prop} {err : ε → σ → τ → Prop} {s : σ} {g : τ}

@[simp] theorem meets_pure {a : α} :
    (pure a : Routine ε σ α).Meets T ok err s g ↔ ok a s g := Iff.rfl

@[simp] theorem meets_throw {e : ε} :
    (throw e : Routine ε σ α).Meets T ok err s g ↔ err e s g := Iff.rfl

@[simp] theorem meets_get {ok : σ → σ → τ → Prop} :
    (get : Routine ε σ σ).Meets T ok err s g ↔ ok s s g := Iff.rfl

@[simp] theorem meets_set {s' : σ} {ok : PUnit → σ → τ → Prop} :
    (set s' : Routine ε σ PUnit).Meets T ok err s g ↔ ok ⟨⟩ s' g := Iff.rfl

@[simp] theorem meets_modify {f : σ → σ} {ok : PUnit → σ → τ → Prop} :
    (modify f : Routine ε σ PUnit).Meets T ok err s g ↔ ok ⟨⟩ (f s) g := Iff.rfl

@[simp] theorem meets_bind {t : Routine ε σ α} {f : α → Routine ε σ β}
    {ok : β → σ → τ → Prop} :
    (t >>= f).Meets T ok err s g ↔
      t.Meets T (fun a s g => (f a).Meets T ok err s g) err s g := by
  show Program.Meets T (t s >>= _) _ g ↔ _
  rw [Program.meets_bind]
  unfold Routine.Meets
  constructor
  · intro h
    refine h.mono ?_
    rintro ⟨r, s'⟩ g' h'
    cases r with
    | ok a => exact h'
    | error e => exact h'
  · intro h
    refine h.mono ?_
    rintro ⟨r, s'⟩ g' h'
    cases r with
    | ok a => exact h'
    | error e => exact h'

theorem Meets.mono {t : Routine ε σ α} {ok ok' : α → σ → τ → Prop} {err err' : ε → σ → τ → Prop}
    (h : t.Meets T ok err s g) (hok : ∀ a s g, ok a s g → ok' a s g)
    (herr : ∀ e s g, err e s g → err' e s g) : t.Meets T ok' err' s g := by
  refine Program.Meets.mono h ?_
  rintro ⟨r, s'⟩ g' h'
  cases r with
  | ok a => exact hok a s' g' h'
  | error e => exact herr e s' g' h'

/-! ## Actions and commands -/

@[simp] theorem meets_perform {a : Action} {ok : a.Reply → σ → τ → Prop} :
    (perform a : Routine ε σ a.Reply).Meets T ok err s g ↔
      T.asks g a ∧ ∀ r g', T.answers g a r g' → ok r s g' := Iff.rfl

@[simp] theorem meets_answer {c : Command} {ok : c.Answer → σ → τ → Prop} :
    (answer c : Routine ε σ c.Answer).Meets T ok err s g ↔
      T.asks g (.command c) ∧ ∀ (r : c.Answer) g', T.answers g (.command c) r g' → ok r s g' :=
  Iff.rfl

@[simp] theorem meets_commandOr {c : Command} {wrap : JdwpError → TraceError}
    {ok : c.Reply → σ → τ → Prop} {err : TraceError → σ → τ → Prop} :
    (commandOr c wrap).Meets T ok err s g ↔
      T.asks g (.command c) ∧
        (∀ r g', T.answers g (.command c) (.ok r : c.Answer) g' → ok r s g') ∧
        ∀ e g', T.answers g (.command c) (.error e : c.Answer) g' → err (wrap e) s g' := by
  unfold commandOr
  rw [meets_bind, meets_answer]
  refine and_congr_right fun _ => ⟨?_, ?_⟩
  · intro h
    exact ⟨fun r g' hr => h _ g' hr, fun e g' hr => h _ g' hr⟩
  · rintro ⟨hok, herr⟩ (e | r) g' hr
    · exact herr e g' hr
    · exact hok r g' hr

@[simp] theorem meets_command {c : Command}
    {ok : c.Reply → σ → τ → Prop} {err : TraceError → σ → τ → Prop} :
    (command c).Meets T ok err s g ↔
      T.asks g (.command c) ∧
        (∀ r g', T.answers g (.command c) (.ok r : c.Answer) g' → ok r s g') ∧
        ∀ e g', T.answers g (.command c) (.error e : c.Answer) g' → err (.jdwp e) s g' :=
  meets_commandOr

@[simp] theorem meets_commandAnyway {c : Command} {ok : Unit → σ → τ → Prop} :
    (commandAnyway c : Routine ε σ Unit).Meets T ok err s g ↔
      T.asks g (.command c) ∧
        ∀ (r : c.Answer) g', T.answers g (.command c) r g' → ok () s g' := by
  unfold commandAnyway
  rw [meets_bind, meets_answer]
  rfl

/-! ## Combinators -/

@[simp] theorem meets_attempt {t : Routine ε σ α} {ok : Except ε α → σ → τ → Prop}
    {err : ε' → σ → τ → Prop} :
    (attempt t : Routine ε' σ (Except ε α)).Meets T ok err s g ↔
      t.Meets T (fun a => ok (.ok a)) (fun e => ok (.error e)) s g := by
  show Program.Meets T (t s >>= _) _ g ↔ _
  rw [Program.meets_bind]
  unfold Routine.Meets
  constructor <;> intro h <;> refine h.mono ?_ <;> rintro ⟨r, s'⟩ g' h' <;> cases r <;> exact h'

@[simp] theorem meets_mapError {t : Routine ε σ α} {f : ε → ε'} {err : ε' → σ → τ → Prop} :
    (mapError f t).Meets T ok err s g ↔ t.Meets T ok (fun e => err (f e)) s g := by
  show Program.Meets T (t s >>= _) _ g ↔ _
  rw [Program.meets_bind]
  unfold Routine.Meets
  constructor <;> intro h <;> refine h.mono ?_ <;> rintro ⟨r, s'⟩ g' h' <;> cases r <;> exact h'

@[simp] theorem meets_within {part : σ → ρ} {replace : ρ → σ → σ} {t : Routine ε ρ α} :
    (within part replace t).Meets T ok err s g ↔
      t.Meets T (fun a p => ok a (replace p s)) (fun e p => err e (replace p s)) (part s) g := by
  show Program.Meets T (t (part s) >>= _) _ g ↔ _
  rw [Program.meets_bind]
  unfold Routine.Meets
  constructor <;> intro h <;> refine h.mono ?_ <;> rintro ⟨r, s'⟩ g' h' <;> cases r <;> exact h'

@[simp] theorem meets_ofExcept {r : Except ε α} :
    (ofExcept r : Routine ε σ α).Meets T ok err s g ↔
      (∀ a, r = .ok a → ok a s g) ∧ ∀ e, r = .error e → err e s g := by
  cases r with
  | ok a => simp [ofExcept]
  | error e => simp [ofExcept]

theorem meets_ite {P : Prop} [Decidable P] {t e : Routine ε σ α} (ht : P → t.Meets T ok err s g)
    (he : ¬P → e.Meets T ok err s g) : (if P then t else e).Meets T ok err s g := by
  split
  · exact ht ‹_›
  · exact he ‹_›

/-- A routine as the program that it is, started in a state. -/
theorem Meets.program {t : Routine ε σ α} {post : Except ε α × σ → τ → Prop}
    (h : t.Meets T ok err s g) (hok : ∀ a s g, ok a s g → post (.ok a, s) g)
    (herr : ∀ e s g, err e s g → post (.error e, s) g) : Program.Meets T (t s) post g := by
  refine Program.Meets.mono h ?_
  rintro ⟨r, s'⟩ g' h'
  cases r with
  | ok a => exact hok a s' g' h'
  | error e => exact herr e s' g' h'

-- Unfolding `Meets` runs the routine. The equations above say all there is to it.
attribute [irreducible] Meets

end Routine

end StreamTrace
