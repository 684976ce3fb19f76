import StreamTrace.Jdwp.Command
import StreamTrace.Trace.Report

/-!
# Debugger programs

What a debugger does, apart from the debuggee it does it to. A program performs one action after
another, where the next one may depend on the replies so far; what the replies are is up to
whatever runs it. `Program.run` runs a program against a machine that answers every action.

A `Routine` is a program with a state and with failures; the state at a failure is kept.
-/

namespace StreamTrace

/-- What a debugger does to the world outside itself. -/
inductive Action where
  | command (c : Command)
  | publish (s : TraceState)
  | deliver (r : Report)
  /-- The time in milliseconds. -/
  | clock

namespace Action

def Reply : Action → Type
  | command c => c.Answer
  | publish _ => Unit
  | deliver _ => Unit
  | clock => Nat

end Action

inductive Program (α : Type) where
  | done (a : α)
  | act (a : Action) (next : a.Reply → Program α)

namespace Program

variable {α β γ : Type}

def bind : Program α → (α → Program β) → Program β
  | done a, f => f a
  | act a next, f => act a fun r => bind (next r) f

instance : Monad Program where
  pure := done
  bind := bind

def perform (a : Action) : Program a.Reply := act a done

@[simp] theorem pure_eq (a : α) : (pure a : Program α) = done a := rfl

@[simp] theorem done_bind (a : α) (f : α → Program β) : done a >>= f = f a := rfl

@[simp] theorem act_bind (a : Action) (next : a.Reply → Program α) (f : α → Program β) :
    act a next >>= f = act a fun r => next r >>= f := rfl

theorem bind_done (p : Program α) : p >>= done = p := by
  induction p with
  | done a => rfl
  | act a next ih => simp only [act_bind, ih]

theorem bind_assoc (p : Program α) (f : α → Program β) (g : β → Program γ) :
    p >>= f >>= g = p >>= fun a => f a >>= g := by
  induction p with
  | done a => rfl
  | act a next ih => simp only [act_bind, ih]

instance : LawfulMonad Program := LawfulMonad.mk' Program bind_done (fun _ _ => rfl) bind_assoc

/-- Runs a program against a machine that answers each action and moves on. -/
def run {σ : Type} (answer : σ → (a : Action) → a.Reply × σ) : Program α → σ → α × σ
  | done a, s => (a, s)
  | act a next, s =>
    let (r, s) := answer s a
    run answer (next r) s

end Program

/-- A program with a state and with failures. -/
abbrev Routine (ε σ : Type) := ExceptT ε (StateT σ Program)

namespace Routine

variable {ε ε' σ τ α : Type}

def perform (a : Action) : Routine ε σ a.Reply := monadLift (Program.perform a)

/-- Sends a command and hands on what comes back, an error included. -/
def answer (c : Command) : Routine ε σ c.Answer := perform (.command c)

/-- Sends a command; its error is a failure. -/
def command (c : Command) : Routine TraceError σ c.Reply := do
  match ← answer c with
  | .ok reply => return reply
  | .error e => throw (.jdwp e)

/-- Sends a command whose error is told in another way. -/
def commandOr (c : Command) (wrap : JdwpError → TraceError) : Routine TraceError σ c.Reply := do
  match ← answer c with
  | .ok reply => return reply
  | .error e => throw (wrap e)

/-- Sends a command and ignores what comes back. -/
def commandAnyway (c : Command) : Routine ε σ Unit := do
  let _ : c.Answer ← answer c

/-- A routine that cannot fail: its failure is a value. -/
def attempt (t : Routine ε σ α) : Routine ε' σ (Except ε α) := fun s => do
  let (r, s) ← t s
  return (.ok r, s)

def mapError (f : ε → ε') (t : Routine ε σ α) : Routine ε' σ α := fun s => do
  let (r, s) ← t s
  return (r.mapError f, s)

/-- A routine on a part of the state. -/
def within (part : σ → τ) (replace : τ → σ → σ) (t : Routine ε τ α) : Routine ε σ α :=
  fun s => do
    let (r, p) ← t (part s)
    return (r, replace p s)

def ofExcept (r : Except ε α) : Routine ε σ α :=
  match r with
  | .ok a => pure a
  | .error e => throw e

end Routine

end StreamTrace
