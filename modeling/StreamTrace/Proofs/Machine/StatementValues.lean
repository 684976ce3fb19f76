import StreamTrace.Proofs.Machine.HandOver

/-!
# What the program computes

The statement apart from the machine that evaluates it: what a stage makes of an element, and what
the terminal call makes of the elements that reach it.
-/

namespace StreamTrace

/-! ## Values of the program -/

/-- A value apart from where its object lies. Lists and optionals are told by their content. -/
inductive Shown where
  | plain (v : Value)
  | list (items : List Element)
  | optional (content : Option Element)
  deriving Repr, DecidableEq

namespace Vm

def shown (vm : Vm) (v : Value) : Shown :=
  match v.objectId?.bind vm.object? with
  | some (.list items) => .list items
  | some (.optional content) => .optional content
  | _ => .plain v

variable {vm vm' : Vm}

/-- The value is no object, or it is a list or an optional with that content. -/
inductive Shows (vm : Vm) : Shown → Value → Prop where
  | plain {v : Value} (h : v.objectId? = none) : Shows vm (.plain v) v
  | list {v : Value} {id : ObjectId} {type : TypeId} {items : List Element}
      (h : v.objectId? = some id) (he : vm.lookup? id = some { type, object := .list items }) :
      Shows vm (.list items) v
  | optional {v : Value} {id : ObjectId} {type : TypeId} {content : Option Element}
      (h : v.objectId? = some id)
      (he : vm.lookup? id = some { type, object := .optional content }) :
      Shows vm (.optional content) v

theorem Shows.grows {s : Shown} {v : Value} (h : vm.Shows s v) (hg : vm.Grows vm') :
    vm'.Shows s v := by
  cases h with
  | plain h => exact .plain h
  | list h he => exact .list h (hg.objects he rfl)
  | optional h he => exact .optional h (hg.objects he rfl)

theorem Shows.shown_eq {s : Shown} {v : Value} (h : vm.Shows s v) : vm.shown v = s := by
  cases h with
  | plain h => simp [shown, h]
  | list h he => simp [shown, h, object?, he]
  | optional h he => simp [shown, h, object?, he]

theorem Shows.settled {s : Shown} {v : Value} (h : vm.Shows s v) : vm.Settled v := by
  cases h with
  | plain h => exact .plain h
  | list h he => exact .other h he rfl fun _ _ hobject => nomatch hobject
  | optional h he => exact .other h he rfl fun _ _ hobject => nomatch hobject

theorem StreamMeans.lookup {id : ObjectId} {m : StreamMeaning} (h : vm.StreamMeans id m) :
    ∃ element op, vm.lookup? id = some { type := m.type, object := .stream element op } := by
  cases h with
  | source h => exact ⟨_, _, h⟩
  | step h _ _ _ => exact ⟨_, _, h⟩

/-- What is shown is no stream. -/
theorem Shows.not_carries {s : Shown} {v : Value} (h : vm.Shows s v) {m : StreamMeaning} :
    ¬vm.Carries v m := by
  rintro ⟨id, hid, hs⟩
  obtain ⟨element, op, hlookup⟩ := hs.lookup
  cases h with
  | plain h =>
      rw [hid] at h
      cases h
  | list h he =>
      obtain rfl := Option.some.inj (hid.symm.trans h)
      cases Option.some.inj (hlookup.symm.trans he)
  | optional h he =>
      obtain rfl := Option.some.inj (hid.symm.trans h)
      cases Option.some.inj (hlookup.symm.trans he)

end Vm

/-! ## The statement -/

/-- The stream behind one more operation. -/
def StreamMeaning.behind (m : StreamMeaning) (k : Passage) : StreamMeaning :=
  { m with run := m.run.andThen k }

/-- What a stage makes of an element. Without its function the stage cannot be made. -/
def ProgramStage.passage : ProgramStage → Fate Passage
  | filter f => .ok (.keepIf f.run)
  | map f => .ok (.mapBy f.run)
  | mapNull => .error .thrown
  | peek f => .ok (.peekBy f.run)
  | parallel => .ok .all

namespace ProgramTerminal

/-- What the call comes to when it has seen all elements: `taken` of them, of which it has kept
`kept`. -/
def finish (taken : Nat) (kept : List Element) : ProgramTerminal → Shown
  | count => .plain (.long (Int64.ofNat taken))
  | anyMatch _ => .plain (.boolean false)
  | findFirst => .optional none
  | toList => .list kept
  | forEach _ => .plain .void

/-- What the call makes of the elements of a source that pass through `k`. -/
def drain (t : ProgramTerminal) (k : Passage) :
    (taken : Nat) → (kept : List Element) → List Element → Fate Shown
  | taken, kept, [] => .ok (t.finish taken kept)
  | taken, kept, e :: rest => do
    match ← k e with
    | none => drain t k taken kept rest
    | some e =>
      match t with
      | count => drain t k (taken + 1) kept rest
      | anyMatch f =>
        let result ← f.run e
        if result.isTrue then return .plain (.boolean true) else drain t k taken kept rest
      | findFirst => return .optional (some e)
      | toList => drain t k taken (kept ++ [e]) rest
      | forEach f =>
        let _ ← f.run e
        drain t k taken kept rest

end ProgramTerminal

namespace StreamProgram

/-- What the stages make of a stream. A call fails if its method is not `found`. -/
def through (found : String → Bool) : List ProgramStage → StreamMeaning → Fate StreamMeaning
  | [], m => .ok m
  | s :: rest, m => do
    let k ← if found s.name then s.passage else .error .thrown
    through found rest (m.behind k)

/-- What the statement comes to on that source. -/
def value (p : StreamProgram) (found : String → Bool) (source : Fate StreamMeaning) :
    Fate Shown := do
  let m ← source
  let m ← through found p.stages m
  if found p.terminal.name then p.terminal.drain m.run 0 [] m.items else .error .thrown

end StreamProgram

end StreamTrace
