import StreamTrace.Proofs.Machine.StreamMeanings

/-!
# What is handed over at a stop

Where its thread stops, the machine is handed to the debugger, and comes back changed. `Handed`
says how far: the machine has grown, a stream in a variable of the statement may have been replaced
by one with the same meaning, a predicate in the frame on top by a matcher around it, and where a
method exits the debugger may have put a stream with the same meaning in place of its value.

`Run.Correct` follows code of the program across its stops, and assumes no more of the debugger than
that.
-/

namespace StreamTrace

/-! ## Values -/

namespace Vm

variable {vm vm' : Vm}

/-- The value is a stream that stands for `m`. -/
def Carries (vm : Vm) (v : Value) (m : StreamMeaning) : Prop :=
  ∃ id, v.objectId? = some id ∧ vm.StreamMeans id m

theorem Carries.grows {v : Value} {m : StreamMeaning} (h : vm.Carries v m) (hg : vm.Grows vm') :
    vm'.Carries v m := by
  obtain ⟨id, hid, hs⟩ := h
  exact ⟨id, hid, hs.grows hg⟩

theorem Carries.unique {v : Value} {m m' : StreamMeaning} (h : vm.Carries v m)
    (h' : vm.Carries v m') : m = m' := by
  obtain ⟨id, hid, hs⟩ := h
  obtain ⟨id', hid', hs'⟩ := h'
  obtain rfl := Option.some.inj (hid.symm.trans hid')
  exact hs.unique hs'

/-- The value is a matcher around another one. -/
def Wrapped (vm : Vm) (v v' : Value) : Prop :=
  ∃ id type before after time predicate, v'.objectId? = some id ∧
    vm.lookup? id = some { type, object := .matcher before after time predicate } ∧
    v.objectId? = some predicate

theorem Wrapped.grows {v v' : Value} (h : vm.Wrapped v v') (hg : vm.Grows vm') :
    vm'.Wrapped v v' := by
  obtain ⟨id, type, before, after, time, predicate, hid, he, hp⟩ := h
  exact ⟨id, type, before, after, time, predicate, hid, hg.objects he rfl, hp⟩

/-- The value will not change; if it is a stream, it stands for something. -/
inductive Settled (vm : Vm) (v : Value) : Prop where
  | plain (h : v.objectId? = none)
  | stream {m : StreamMeaning} (h : vm.Carries v m)
  | other {id : ObjectId} {e : TypedObject} (h : v.objectId? = some id)
      (he : vm.lookup? id = some e) (hfixed : e.object.isMutable = false)
      (hother : ∀ element op, e.object ≠ .stream element op)

theorem Settled.grows {v : Value} (h : vm.Settled v) (hg : vm.Grows vm') : vm'.Settled v := by
  cases h with
  | plain h => exact .plain h
  | stream h => exact .stream (h.grows hg)
  | other h he hfixed hother => exact .other h (hg.objects he hfixed) hfixed hother

/-- A settled value that is a stream stands for something. -/
theorem Settled.carries {v : Value} (h : vm.Settled v) {id : ObjectId} (hid : v.objectId? = some id)
    {type : TypeId} {element : ElementType} {op : StreamOp}
    (he : vm.lookup? id = some { type, object := .stream element op }) :
    ∃ m, vm.Carries v m := by
  cases h with
  | plain h =>
      rw [hid] at h
      cases h
  | stream h => exact ⟨_, h⟩
  | other h he' _ hother =>
      obtain rfl := Option.some.inj (hid.symm.trans h)
      obtain rfl := Option.some.inj (he.symm.trans he')
      exact absurd rfl (hother element op)

/-- Two contents of a variable are the same, or streams that stand for the same. -/
def Alike (vm : Vm) (o o' : Option Value) : Prop :=
  o' = o ∨ ∃ v v' m, o = some v ∧ o' = some v' ∧ vm.Carries v m ∧ vm.Carries v' m

theorem Alike.refl (vm : Vm) (o : Option Value) : vm.Alike o o := .inl rfl

theorem Alike.grows {o o' : Option Value} (h : vm.Alike o o') (hg : vm.Grows vm') :
    vm'.Alike o o' := by
  rcases h with h | ⟨v, v', m, h, h', hv, hv'⟩
  · exact .inl h
  · exact .inr ⟨v, v', m, h, h', hv.grows hg, hv'.grows hg⟩

theorem Alike.trans {o o' o'' : Option Value} (h : vm.Alike o o') (h' : vm.Alike o' o'') :
    vm.Alike o o'' := by
  rcases h with rfl | ⟨v, v', m, h, hv', hm, hm'⟩
  · exact h'
  · rcases h' with rfl | ⟨w, w', n, hw, hw', hn, hn'⟩
    · exact .inr ⟨v, v', m, h, hv', hm, hm'⟩
    · obtain rfl := Option.some.inj (hv'.symm.trans hw)
      obtain rfl := hm'.unique hn
      exact .inr ⟨v, w', m, h, hw', hm, hn'⟩

/-- What is alike a stream stands for the same. -/
theorem Alike.carries {v : Value} {o : Option Value} {m : StreamMeaning}
    (h : vm.Alike (some v) o) (hm : vm.Carries v m) : ∃ v', o = some v' ∧ vm.Carries v' m := by
  rcases h with rfl | ⟨w, w', n, hw, rfl, hn, hn'⟩
  · exact ⟨v, rfl, hm⟩
  · obtain rfl := Option.some.inj hw
    rw [hm.unique hn]
    exact ⟨w', rfl, hn'⟩

/-- What the machine has come to while its thread ran on. -/
structure Unstopped (vm vm' : Vm) : Prop where
  grows : vm.Grows vm'
  suspended : vm'.suspended = vm.suspended

theorem Unstopped.refl (vm : Vm) : vm.Unstopped vm := ⟨.refl vm, rfl⟩

theorem Unstopped.trans {vm'' : Vm} (h : vm.Unstopped vm') (h' : vm'.Unstopped vm'') :
    vm.Unstopped vm'' :=
  ⟨h.grows.trans h'.grows, h'.suspended.trans h.suspended⟩

theorem Evolved.unstopped (h : vm.Evolved vm') : vm.Unstopped vm' := ⟨h.grows, h.suspended⟩

/-- The debugger finds no variables in the method there. -/
def Hides (vm : Vm) (l : Location) : Prop :=
  ∃ c, vm.classes.byId? l.typeId = some c ∧ c.locals.get? l.methodId = none

theorem Hides.grows {l : Location} (h : vm.Hides l) (hg : vm.Grows vm') : vm'.Hides l := by
  obtain ⟨c, hc, hnone⟩ := h
  obtain ⟨c', hc', hsame⟩ := hg.classes hc
  exact ⟨c', hc', hsame.locals ▸ hnone⟩

end Vm

/-! ## Frames -/

/-- The statement whose evaluation is followed: its frame, the machine that stood in front of it,
and what holds of the machine from then on. -/
structure Scene where
  frame : FrameId
  base : Vm
  fresh : frame ≤ base.nextId
  notes : Vm → Prop
  stable : ∀ {vm vm' : Vm}, vm.Grows vm' → vm'.evaluations = vm.evaluations →
    vm'.programResult = vm.programResult → notes vm → notes vm'

namespace Scene

variable {S : Scene} {vm vm' vm'' : Vm}

/-- One frame after something was done to it. In the statement's frame only streams change. -/
structure FrameKept (S : Scene) (vm : Vm) (f f' : Frame) : Prop where
  id : f'.id = f.id
  location : f'.location = f.location
  slots : f.id = S.frame → ∀ slot, vm.Alike (f.slots.get? slot) (f'.slots.get? slot)

theorem FrameKept.refl (vm : Vm) (f : Frame) : S.FrameKept vm f f :=
  ⟨rfl, rfl, fun _ _ => .refl vm _⟩

theorem FrameKept.grows {f f' : Frame} (h : S.FrameKept vm f f') (hg : vm.Grows vm') :
    S.FrameKept vm' f f' :=
  ⟨h.id, h.location, fun hf slot => (h.slots hf slot).grows hg⟩

theorem FrameKept.trans {f f' f'' : Frame} (h : S.FrameKept vm f f') (h' : S.FrameKept vm f' f'') :
    S.FrameKept vm f f'' :=
  ⟨h'.id.trans h.id, h'.location.trans h.location,
    fun hf slot => (h.slots hf slot).trans (h'.slots (h.id.trans hf) slot)⟩

def FramesKept (S : Scene) (vm : Vm) (frames frames' : List Frame) : Prop :=
  List.Forall₂ (S.FrameKept vm) frames frames'

theorem FramesKept.refl (vm : Vm) (frames : List Frame) : S.FramesKept vm frames frames :=
  List.forall₂_same.mpr fun f _ => .refl vm f

theorem FramesKept.grows {frames frames' : List Frame} (h : S.FramesKept vm frames frames')
    (hg : vm.Grows vm') : S.FramesKept vm' frames frames' :=
  List.Forall₂.imp (fun _ _ hf => hf.grows hg) h

theorem FramesKept.trans {frames frames' frames'' : List Frame}
    (h : S.FramesKept vm frames frames') (h' : S.FramesKept vm frames' frames'') :
    S.FramesKept vm frames frames'' :=
  Vm.forall₂_trans (fun _ _ _ hf hf' => hf.trans hf') h h'

theorem FramesKept.head {frames frames' : List Frame} (h : S.FramesKept vm frames frames')
    {f : Frame} (hf : frames.head? = some f) :
    ∃ f', frames'.head? = some f' ∧ S.FrameKept vm f f' := by
  cases h with
  | nil => cases hf
  | @cons f₀ f' _ _ hkept _ =>
      obtain rfl := Option.some.inj hf
      exact ⟨f', rfl, hkept⟩

theorem FramesKept.tail {frames frames' : List Frame} (h : S.FramesKept vm frames frames') :
    S.FramesKept vm frames.tail frames'.tail := by
  cases h with
  | nil => exact .nil
  | cons _ hrest => exact hrest

/-- What the machine has come to while code ran. -/
structure Progress (S : Scene) (vm vm' : Vm) : Prop where
  grows : vm.Grows vm'
  frames : S.FramesKept vm' vm.frames vm'.frames
  programResult : vm'.programResult = vm.programResult
  evaluations : vm'.evaluations = vm.evaluations

theorem Progress.refl (vm : Vm) : S.Progress vm vm := ⟨.refl vm, .refl vm _, rfl, rfl⟩

theorem Progress.trans (h : S.Progress vm vm') (h' : S.Progress vm' vm'') : S.Progress vm vm'' :=
  ⟨h.grows.trans h'.grows, (h.frames.grows h'.grows).trans h'.frames,
    h'.programResult.trans h.programResult, h'.evaluations.trans h.evaluations⟩

theorem progress_of_evolved (h : vm.Evolved vm') : S.Progress vm vm' :=
  ⟨h.grows, h.frames ▸ .refl vm' _, h.programResult, h.evaluations⟩

/-- What holds of a machine on which the statement is evaluated. -/
structure Steady (S : Scene) (vm : Vm) : Prop where
  tidy : vm.Tidy
  grown : S.base.Grows vm
  settled : ∀ f ∈ vm.frames, f.id = S.frame → ∀ slot v, f.slots.get? slot = some v → vm.Settled v
  hidden : ∀ f ∈ vm.frames, f.id ≠ S.frame → vm.Hides f.location
  notes : S.notes vm

theorem Steady.progress (h : S.Steady vm) (hgoes : S.Progress vm vm') (htidy : vm'.Tidy) :
    S.Steady vm' := by
  have hback : ∀ f' ∈ vm'.frames, ∃ f ∈ vm.frames, S.FrameKept vm' f f' := by
    have hframes := hgoes.frames
    unfold FramesKept at hframes
    revert hframes
    generalize vm.frames = frames
    generalize vm'.frames = frames'
    intro hframes f' hf'
    induction hframes with
    | nil => cases hf'
    | cons hf _ ih =>
        rcases List.mem_cons.mp hf' with rfl | hf'
        · exact ⟨_, List.mem_cons_self, hf⟩
        · obtain ⟨f, hmem, hkept⟩ := ih hf'
          exact ⟨f, List.mem_cons_of_mem _ hmem, hkept⟩
  refine ⟨htidy, h.grown.trans hgoes.grows, ?_, ?_,
    S.stable hgoes.grows hgoes.evaluations hgoes.programResult h.notes⟩
  · intro f' hf' hid slot v hv
    obtain ⟨f, hf, hkept⟩ := hback f' hf'
    have hf_id := hkept.id.symm.trans hid
    rcases hkept.slots hf_id slot with hsame | ⟨_, v', m, _, hv', _, hm⟩
    · exact (h.settled f hf hf_id slot v (hsame ▸ hv)).grows hgoes.grows
    · obtain rfl := Option.some.inj (hv.symm.trans hv')
      exact .stream hm
  · intro f' hf' hid
    obtain ⟨f, hf, hkept⟩ := hback f' hf'
    rw [hkept.location]
    exact (h.hidden f hf fun hf_id => hid (hkept.id.trans hf_id)).grows hgoes.grows

/-- The machine while its thread runs. -/
structure Running (S : Scene) (vm : Vm) : Prop extends S.Steady vm where
  forced : vm.forcedReturn = none
  dead : vm.dead = false
  outbox : vm.outbox = []

theorem Running.evolved (h : S.Running vm) (hevolves : vm.Evolves vm') :
    S.Running vm' ∧ S.Progress vm vm' ∧ vm.Unstopped vm' := by
  obtain ⟨htidy, hevolved⟩ := hevolves h.tidy
  have hgoes := progress_of_evolved (S := S) hevolved
  exact ⟨⟨h.toSteady.progress hgoes htidy, hevolved.forcedReturn.trans h.forced,
    hevolved.dead.trans h.dead, hevolved.outbox.trans h.outbox⟩, hgoes, hevolved.unstopped⟩

/-! ## Stops -/

/-- The machine where its thread has stopped. -/
structure Stopped (S : Scene) (vm : Vm) : Prop extends S.Steady vm where
  forced : vm.forcedReturn = none
  alive : vm.dead = false
  exits : ∀ request thread l v, Event.methodExitWithValue request thread l v ∈ vm.outbox →
    vm.Settled v
  entries : ∀ request thread l, Event.methodEntry request thread l ∈ vm.outbox →
    ∀ f, vm.frames.head? = some f → f.id ≠ S.frame

/-- The frame on top after the debugger was there: a predicate may have been wrapped. -/
def TopKept (S : Scene) (vm : Vm) (frames frames' : List Frame) : Prop :=
  ∀ f f', frames.head? = some f → frames'.head? = some f' → f.id ≠ S.frame → ∀ slot,
    f'.slots.get? slot = f.slots.get? slot ∨
      ∃ v v', f.slots.get? slot = some v ∧ f'.slots.get? slot = some v' ∧ vm.Wrapped v v'

/-- What may have become of the machine when its thread goes on. -/
structure Handed (S : Scene) (vm vm' : Vm) : Prop extends S.Progress vm vm' where
  tidy : vm'.Tidy
  top : S.TopKept vm' vm.frames vm'.frames
  forced : ∀ v', vm'.forcedReturn = some v' → ∃ request thread l v,
    Event.methodExitWithValue request thread l v ∈ vm.outbox ∧ vm'.Alike (some v) (some v')
  dead : vm'.dead = vm.dead
  outbox : vm'.outbox = []

end Scene

/-- At every stop the machine is as it should be, and however it is handed back, the code ends as
it should. `since` is the machine when the code was resumed last. -/
def Run.Correct {α : Type} (S : Scene) (post : α → Vm → Prop) : Run α → (since : Vm) → Prop
  | .ended a vm, since => since.Unstopped vm ∧ post a vm
  | .waiting vm resume, since => (since.Grows vm ∧ vm.outbox ≠ [] ∧ S.Stopped vm) ∧
      ∀ vm', S.Handed vm vm' → (resume vm').Correct S post vm'

theorem Run.Correct.since {α : Type} {S : Scene} {post : α → Vm → Prop} {r : Run α} {vm vm' : Vm}
    (h : r.Correct S post vm') (hsince : vm.Unstopped vm') : r.Correct S post vm := by
  cases r with
  | ended a vm'' => exact ⟨hsince.trans h.1, h.2⟩
  | waiting vm'' resume => exact ⟨⟨hsince.grows.trans h.1.1, h.1.2⟩, h.2⟩

theorem Run.Correct.mono {α : Type} {S : Scene} {post post' : α → Vm → Prop} {r : Run α}
    {since : Vm}
    (h : r.Correct S post since) (hpost : ∀ a vm, post a vm → post' a vm) :
    r.Correct S post' since := by
  induction r generalizing since with
  | ended a vm => exact ⟨h.1, hpost a vm h.2⟩
  | waiting vm resume ih => exact ⟨h.1, fun vm' hvm => ih vm' (h.2 vm' hvm)⟩

theorem Run.Correct.bind {α β : Type} {S : Scene} {post : α → Vm → Prop} {post' : β → Vm → Prop}
    {r : Run α} {f : α → Vm → Run β} {since : Vm} (h : r.Correct S post since)
    (hf : ∀ a vm, post a vm → (f a vm).Correct S post' vm) : (r.bind f).Correct S post' since := by
  induction r generalizing since with
  | ended a vm => exact (hf a vm h.2).since h.1
  | waiting vm resume ih => exact ⟨h.1, fun vm' hvm => ih vm' (h.2 vm' hvm)⟩

/-! ## Code -/

namespace Code

open Scene

variable {S : Scene} {α β γ δ : Type} {vm : Vm}

/-- How code has ended agrees with what it was to come to. -/
def Ends (S : Scene) (rel : Vm → β → α → Prop) : Fate β → Except Interruption α → Vm → Prop
  | .ok b, .ok a, vm => S.Running vm ∧ rel vm b a
  | .error .thrown, .error .thrown, vm => S.Running vm
  | .error .exited, .error .exited, vm => S.Steady vm ∧ vm.forcedReturn = none ∧ vm.dead = true
  | _, _, _ => False

/-- Started on `vm`, the code comes to `x`, as far as `rel` tells values apart. -/
def Correct (S : Scene) (c : Code α) (x : Fate β) (rel : Vm → β → α → Prop) (vm : Vm) : Prop :=
  Run.Correct S (fun r vm' => S.Progress vm vm' ∧ Ends S rel x r vm') (c.run vm) vm

variable {x : Fate β} {rel : Vm → β → α → Prop}

theorem Correct.after {c : Code α} {vm' : Vm} (hgoes : S.Progress vm vm')
    (h : c.Correct S x rel vm') :
    Run.Correct S (fun r vm'' => S.Progress vm vm'' ∧ Ends S rel x r vm'') (c.run vm') vm' :=
  Run.Correct.mono h fun _ _ hend => ⟨hgoes.trans hend.1, hend.2⟩

theorem correct_pure {a : α} {b : β} (h : S.Running vm) (hrel : rel vm b a) :
    (pure a : Code α).Correct S (.ok b) rel vm := ⟨.refl vm, .refl vm, h, hrel⟩

theorem correct_thrown (h : S.Running vm) :
    (throw .thrown : Code α).Correct S (.error .thrown) rel vm := ⟨.refl vm, .refl vm, h⟩

theorem Correct.bind {c : Code α} {f : α → Code γ} {y : β → Fate δ} {rel' : Vm → δ → γ → Prop}
    (h : c.Correct S x rel vm)
    (hf : ∀ b a vm', x = .ok b → S.Progress vm vm' → S.Running vm' → rel vm' b a →
      (f a).Correct S (y b) rel' vm') :
    (c >>= f).Correct S (x >>= y) rel' vm := by
  refine Run.Correct.bind h ?_
  rintro r vm' ⟨hgoes, hend⟩
  cases x with
  | ok b =>
      cases r with
      | ok a => exact (hf b a vm' rfl hgoes hend.1 hend.2).after hgoes
      | error i => exact hend.elim
  | error i =>
      cases r with
      | ok a => cases i <;> exact hend.elim
      | error j =>
          cases i <;> cases j <;> first
            | exact hend.elim
            | exact ⟨.refl vm', hgoes, hend⟩

/-- Code in front that comes to a value of no interest. -/
theorem Correct.andThen {c : Code α} {f : α → Code γ} {y : Fate δ} {b : β}
    {rel' : Vm → δ → γ → Prop} (h : c.Correct S (.ok b) rel vm)
    (hf : ∀ a vm', S.Progress vm vm' → S.Running vm' → rel vm' b a → (f a).Correct S y rel' vm') :
    (c >>= f).Correct S y rel' vm :=
  Correct.bind (y := fun _ => y) h fun b' a vm' hb hgoes hruns hrel => by
    obtain rfl := Except.ok.inj hb
    exact hf a vm' hgoes hruns hrel

theorem correct_read_bind {f : Vm → α} {g : α → Code γ} {y : Fate δ} {rel' : Vm → δ → γ → Prop}
    (hg : (g (f vm)).Correct S y rel' vm) : (read f >>= g).Correct S y rel' vm := hg

theorem correct_use {m : StateM Vm α} {b : β} (h : S.Running vm) (hm : Vm.Keeps Vm.Evolves m)
    (hrel : rel (m.run vm).2 b (m.run vm).1) : (use m).Correct S (.ok b) rel vm := by
  obtain ⟨hruns, hgoes, hsince⟩ := h.evolved (hm vm)
  exact ⟨hsince, hgoes, hruns, hrel⟩

theorem correct_use_bind {m : StateM Vm α} {g : α → Code γ} {y : Fate δ}
    {rel' : Vm → δ → γ → Prop} (h : S.Running vm) (hm : Vm.Keeps Vm.Evolves m)
    (hg : ∀ vm', vm' = (m.run vm).2 → S.Progress vm vm' → S.Running vm' →
      (g (m.run vm).1).Correct S y rel' vm') :
    (use m >>= g).Correct S y rel' vm := by
  obtain ⟨hruns, hgoes, hsince⟩ := h.evolved (hm vm)
  show Run.Correct S _ ((g (m.run vm).1).run (m.run vm).2) vm
  exact ((hg _ rfl hgoes hruns).after hgoes).since hsince

theorem correct_ite {c : Prop} [Decidable c] {t e : Code α} (ht : c → t.Correct S x rel vm)
    (he : ¬c → e.Correct S x rel vm) : (if c then t else e).Correct S x rel vm := by
  split
  · exact ht ‹_›
  · exact he ‹_›

end Code

end StreamTrace
