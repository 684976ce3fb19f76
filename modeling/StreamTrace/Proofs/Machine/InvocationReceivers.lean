import Mathlib.Data.List.Nodup
import StreamTrace.Proofs.Jvm.TypeSweep
import StreamTrace.Proofs.Machine.AnsweredCommands
import StreamTrace.Proofs.Machine.CommandEffects

/-!
# Receivers of invocations

An object may receive an invocation of a method that a type above its class declares. The machine
follows superclasses and interfaces in an order of its own, but it misses no type, so it does not
refuse such a method.
-/

namespace StreamTrace

/-! ## Subtypes -/

namespace ClassTable

variable {cs : ClassTable} {start goal type : TypeId} {seen queue : List TypeId}

/-- What lies directly above a type. -/
def up (cs : ClassTable) (type : TypeId) : List TypeId :=
  match cs.byId? type with
  | some c => c.superclass.toList ++ c.interfaces
  | none => []

theorem Closed.up (h : cs.Closed) (habove : goal ∈ cs.up type) : goal ∈ cs.map (·.id) := by
  unfold ClassTable.up at habove
  split at habove
  · rename_i c hc
    obtain ⟨c', hc', hid⟩ := h c (List.mem_of_find?_eq_some hc) goal habove
    exact List.mem_map.mpr ⟨c', hc', hid⟩
  · cases habove

/-- In the middle of a search for a type above `start`: what was seen is no goal, and whatever lies
above it was seen or waits in the queue. -/
structure Climbing (cs : ClassTable) (start goal : TypeId) (seen queue : List TypeId) : Prop where
  begun : start ∈ seen ∨ start ∈ queue
  closed : ∀ t ∈ seen, ∀ u ∈ cs.up t, u ∈ seen ∨ u ∈ queue
  missed : goal ∉ seen
  nodup : seen.Nodup
  known : ∀ t, t ∈ seen ∨ t ∈ queue → t ∈ cs.map (·.id)

/-- Once the queue is used up, everything above `start` was seen. -/
theorem Climbing.notReached (h : Climbing cs start goal seen queue)
    (hqueue : unseen seen queue = []) {n : Nat} : ¬Reached cs.up start n goal := by
  have hseen : ∀ t, t ∈ seen ∨ t ∈ queue → t ∈ seen := by
    rintro t (ht | ht)
    · exact ht
    · simpa using List.filter_eq_nil_iff.mp hqueue t ht
  have hall : ∀ {k t}, Reached cs.up start k t → t ∈ seen := by
    intro k t ht
    induction ht with
    | start => exact hseen _ h.begun
    | step _ next ih => exact hseen _ (h.closed _ ih _ next)
  exact fun hgoal => h.missed (hall hgoal)

theorem Climbing.pass (h : Climbing cs start goal seen queue) (hcs : cs.Closed) {rest : List TypeId}
    (hqueue : unseen seen queue = type :: rest) (hgoal : type ≠ goal) :
    Climbing cs start goal (type :: seen) (rest ++ cs.up type) := by
  have hnew : type ∈ queue ∧ type ∉ seen := by
    have hmem : type ∈ unseen seen queue := hqueue ▸ List.mem_cons_self
    simpa [unseen] using hmem
  have hleft : ∀ t, t ∈ seen ∨ t ∈ queue → t ∈ type :: seen ∨ t ∈ rest ++ cs.up type := by
    intro t ht
    by_cases hseen : t ∈ seen
    · exact .inl (List.mem_cons_of_mem _ hseen)
    · have hmem : t ∈ unseen seen queue := by simpa [unseen, hseen] using ht
      rw [hqueue] at hmem
      rcases List.mem_cons.mp hmem with rfl | hrest
      · exact .inl List.mem_cons_self
      · exact .inr (List.mem_append_left _ hrest)
  refine ⟨hleft _ h.begun, fun t ht u hu => ?_, ?_, List.nodup_cons.mpr ⟨hnew.2, h.nodup⟩,
    fun t ht => ?_⟩
  · rcases List.mem_cons.mp ht with rfl | hseen
    · exact .inr (List.mem_append_right _ hu)
    · exact hleft u (h.closed t hseen u hu)
  · rintro (_ | ⟨_, hmem⟩)
    · exact hgoal rfl
    · exact h.missed hmem
  · rcases ht with ht | ht
    · rcases List.mem_cons.mp ht with rfl | hseen
      · exact h.known _ (.inr hnew.1)
      · exact h.known t (.inl hseen)
    · rcases List.mem_append.mp ht with hrest | habove
      · have hmem : t ∈ unseen seen queue := hqueue ▸ List.mem_cons_of_mem _ hrest
        exact h.known t (.inr (List.mem_filter.mp hmem).1)
      · exact hcs.up habove

/-- A search that may see all types of the table reaches whatever lies above `start`. -/
theorem Climbing.reaches {fuel : Nat} (h : Climbing cs start goal seen queue) (hcs : cs.Closed)
    (hfuel : cs.length < fuel + seen.length) {n : Nat} (hgoal : Reached cs.up start n goal) :
    cs.reaches goal fuel seen queue = true := by
  induction fuel generalizing seen queue with
  | zero =>
      have hsub : seen ⊆ cs.map (·.id) := fun t ht => h.known t (.inl ht)
      have hlength := (h.nodup.subperm hsub).length_le
      rw [List.length_map] at hlength
      omega
  | succ fuel ih =>
      rw [ClassTable.reaches]
      cases hqueue : unseen seen queue with
      | nil => exact absurd hgoal (h.notReached hqueue)
      | cons type rest =>
          dsimp only
          split
          · rfl
          · rename_i hother
            have hpass := h.pass hcs hqueue hother
            have hfuel' : cs.length < fuel + (type :: seen).length := by
              rw [List.length_cons]
              omega
            have hnext := ih hpass hfuel'
            unfold ClassTable.up at hnext
            cases hc : cs.byId? type with
            | none =>
                rw [hc] at hnext
                simpa using hnext
            | some c =>
                rw [hc] at hnext
                simpa using hnext

/-- What is reached through superclasses and interfaces is a supertype. -/
theorem Closed.isSubtype (hcs : cs.Closed) (hstart : start ∈ cs.map (·.id)) {n : Nat}
    (hgoal : Reached cs.up start n goal) : cs.isSubtype start goal = true := by
  have hinit : Climbing cs start goal [] [start] := by
    refine ⟨.inr List.mem_cons_self, nofun, nofun, .nil, ?_⟩
    rintro t (ht | ht)
    · cases ht
    · rwa [List.mem_singleton.mp ht]
  exact hinit.reaches hcs (by simp) hgoal

end ClassTable

/-! ## Refusals -/

namespace VmCommand

variable {α β : Type} {vm : Vm} {code : UInt16}

/-- The command is not refused with that code. -/
def Spares (m : VmCommand α) (code : UInt16) (vm : Vm) : Prop :=
  (m.run.run vm).1 ≠ .error (.vm code)

theorem spares_pure (a : α) : (pure a : VmCommand α).Spares code vm := nofun

theorem spares_throw {e : JdwpError} (h : e ≠ .vm code) :
    (throw e : VmCommand α).Spares code vm := fun heq => h (Except.error.inj heq)

theorem spares_refuse {other : UInt16} (h : other ≠ code) :
    (refuse other : VmCommand α).Spares code vm :=
  spares_throw fun heq => h (JdwpError.vm.inj heq)

theorem spares_lift {m : StateM Vm α} : (liftM m : VmCommand α).Spares code vm := nofun

theorem spares_get : (get : VmCommand Vm).Spares code vm := nofun

theorem spares_modify {f : Vm → Vm} : (modify f : VmCommand PUnit).Spares code vm := nofun

theorem Spares.andThen {m : VmCommand α} {f : α → VmCommand β} (h : m.Spares code vm)
    (hf : ∀ a vm', m.run.run vm = (.ok a, vm') → (f a).Spares code vm') :
    (m >>= f).Spares code vm := by
  unfold Spares at h
  show ((ExceptT.bindCont f (m.run.run vm).1).run (m.run.run vm).2).1 ≠ _
  cases hrun : m.run.run vm with
  | mk r vm' =>
      rw [hrun] at h
      cases r with
      | ok a => exact hf a vm' hrun
      | error e => exact fun heq => h (congrArg Except.error (Except.error.inj heq))

theorem Spares.bind {m : VmCommand α} {f : α → VmCommand β} (h : m.Spares code vm)
    (hf : ∀ a vm', (f a).Spares code vm') : (m >>= f).Spares code vm :=
  h.andThen fun a vm' _ => hf a vm'

/-- What was found out first makes no difference to the machine. -/
theorem Spares.behind {m : VmCommand α} {f : α → VmCommand β} {a : α}
    (h : m.Does vm fun r vm' => r = a ∧ vm' = vm) (hf : (f a).Spares code vm) :
    (m >>= f).Spares code vm := by
  obtain ⟨_, _, hrun, rfl, rfl⟩ := h
  unfold Spares
  show ((ExceptT.bindCont f (m.run.run _).1).run (m.run.run _).2).1 ≠ _
  rw [hrun]
  exact hf

theorem spares_ite {c : Prop} [Decidable c] {m m' : VmCommand α} (h : m.Spares code vm)
    (h' : m'.Spares code vm) : (if c then m else m').Spares code vm := by
  split
  · exact h
  · exact h'

end VmCommand

namespace Vm

open VmCommand

variable {vm : Vm}

/-! ### What an invocation runs -/

theorem getEntry_spares (id : ObjectId) : (getEntry id).Spares ErrorCode.invalidMethod vm := by
  refine spares_get.bind fun vm' vm'' => ?_
  split
  · exact spares_pure _
  · exact spares_refuse (by decide)

theorem getClass_spares (type : TypeId) : (getClass type).Spares ErrorCode.invalidMethod vm := by
  refine spares_get.bind fun vm' vm'' => ?_
  split
  · exact spares_pure _
  · exact spares_refuse (by decide)

theorem argumentId_spares (v : Value) : (argumentId v).Spares ErrorCode.invalidMethod vm := by
  unfold argumentId
  split
  · exact spares_pure _
  · exact spares_refuse (by decide)

theorem thrown_spares (className : String) :
    (thrown className).Spares ErrorCode.invalidMethod vm :=
  spares_lift.bind fun _ _ => spares_pure _

theorem classValue_spares (type : TypeId) :
    (classValue type).Spares ErrorCode.invalidMethod vm := by
  have hobject : (classObject type).Spares ErrorCode.invalidMethod vm := by
    refine (getClass_spares type).bind fun c vm' => ?_
    split
    · exact spares_pure _
    · exact spares_get.bind fun _ _ => spares_lift.bind fun _ _ => spares_modify.bind
        fun _ _ => spares_pure _
  exact hobject.bind fun _ _ => spares_pure _

theorem loadHelper_spares (loader : ObjectId) (args : List Value) :
    (loadHelper loader args).Spares ErrorCode.invalidMethod vm := by
  have htext : ∀ vm, (textArgument args).Spares ErrorCode.invalidMethod vm := fun vm => by
    refine spares_get.bind fun vm' vm'' => ?_
    split
    · exact spares_pure _
    · exact spares_refuse (by decide)
  refine (htext vm).bind fun name vm₁ => spares_get.bind fun vm₂ vm₃ => ?_
  extract_lets jp
  have hload : ∀ bytes vm, (jp bytes).Spares ErrorCode.invalidMethod vm := fun bytes vm => by
    refine spares_ite (thrown_spares _) (spares_get.bind fun vm₄ vm₅ => ?_)
    refine spares_ite (thrown_spares _) ?_
    split
    · exact thrown_spares _
    · exact spares_lift.bind fun type _ => spares_modify.bind fun _ _ => classValue_spares type
  split
  · exact hload _ _
  · exact (spares_refuse (by decide)).bind fun _ _ => hload _ _

theorem runMethod_spares (receiver : ObjectId) (name descriptor : String) (args : List Value) :
    (runMethod receiver name descriptor args).Spares ErrorCode.invalidMethod vm := by
  have hlifted : ∀ {m : StateM Vm Value} {vm : Vm}, (do
      return returned (← m) : VmCommand InvokeOutcome).Spares ErrorCode.invalidMethod vm :=
    spares_lift.bind fun _ _ => spares_pure _
  refine (getEntry_spares receiver).bind fun e vm' => ?_
  split
  · exact spares_pure _
  · exact spares_pure _
  · exact spares_pure _
  · exact spares_pure _
  · exact spares_lift.bind fun _ _ => spares_pure _
  · exact spares_pure _
  · split
    · exact spares_pure _
    · exact spares_ite (spares_pure _) hlifted
  · exact (argumentId_spares _).bind fun _ _ => hlifted
  · exact hlifted
  · exact hlifted
  · exact spares_refuse (by decide)

theorem invocation_spares {what : String} {entered : Location} {body : VmCommand InvokeOutcome}
    (hbody : ∀ vm, body.Spares ErrorCode.invalidMethod vm) :
    (invocation what entered body).Spares ErrorCode.invalidMethod vm := by
  have hstall : ∀ what vm, (stall what).Spares ErrorCode.invalidMethod vm := fun _ _ =>
    spares_modify.bind fun _ _ => spares_throw nofun
  refine spares_get.bind fun vm₁ vm₂ => spares_ite (hstall _ _) ((hbody _).bind fun o vm₃ => ?_)
  refine spares_get.bind fun vm₄ vm₅ => spares_ite (hstall _ _) (spares_ite (hstall _ _) ?_)
  exact spares_modify.bind fun _ _ => spares_pure _

/-! ### Methods of types above the receiver's -/

/-- A method that is not static, of a type above the receiver's, is no invalid one. -/
theorem invoke_spares {id : ObjectId} {e : TypedObject} (he : vm.lookup? id = some e)
    {type : TypeId} {c : ClassDef} (hc : vm.classes.byId? type = some c) {method : MethodId}
    {m : MethodDef} (hm : c.methods.find? (·.id == method) = some m) (hstatic : m.isStatic = false)
    (hsubtype : vm.classes.isSubtype e.type type = true) (args : List Value) :
    (invoke (some id) type method args).Spares ErrorCode.invalidMethod vm := by
  have hmethod : (getMethod c method).Does vm fun r vm' => r = m ∧ vm' = vm := by
    unfold getMethod
    rw [hm]
    exact does_pure ⟨rfl, rfl⟩
  have hfits : (requireFitting m.descriptor args).Spares ErrorCode.invalidMethod vm :=
    spares_ite (spares_pure _) (spares_refuse (by decide))
  have hreceived : m.isStatic = (some id).isNone := hstatic
  unfold invoke
  refine Spares.behind (getClass_does hc) (Spares.behind hmethod ?_)
  extract_lets what jp
  rw [if_neg (not_not.mpr hreceived)]
  refine hfits.andThen fun _ vm' hrun => ?_
  obtain rfl : vm = vm' := by
    unfold requireFitting at hrun
    split at hrun <;> cases hrun
    rfl
  refine Spares.behind (getEntry_does he) ?_
  extract_lets runtime
  refine Spares.behind (a := vm) ⟨vm, vm, rfl, rfl, rfl⟩ ?_
  rw [if_neg (not_not.mpr hsubtype)]
  exact invocation_spares fun vm' => spares_ite (loadHelper_spares id args)
    (runMethod_spares id m.name m.descriptor args)

theorem stopped_spares (thread : ThreadId) :
    (stopped thread).Spares ErrorCode.invalidMethod vm := by
  unfold Spares
  rw [run_stopped]
  split
  · exact fun heq => absurd (JdwpError.vm.inj (Except.error.inj heq)) (by decide)
  · split
    · nofun
    · split
      · nofun
      · exact fun heq => absurd (JdwpError.vm.inj (Except.error.inj heq)) (by decide)

theorem stopped_ok {thread : ThreadId} {a : Unit} {vm' : Vm}
    (h : (stopped thread).run.run vm = (.ok a, vm')) : vm = vm' ∧ vm.dead = false := by
  rw [run_stopped] at h
  split at h
  · cases h
  · split at h
    · cases h
    · rename_i halive
      split at h <;> cases h
      exact ⟨rfl, by simpa using halive⟩

theorem invokeVirtual_spares {id : ObjectId} {e : TypedObject} (he : vm.lookup? id = some e)
    {type : TypeId} {c : ClassDef} (hc : vm.classes.byId? type = some c) {method : MethodId}
    {m : MethodDef} (hm : c.methods.find? (·.id == method) = some m) (hstatic : m.isStatic = false)
    (hsubtype : vm.classes.isSubtype e.type type = true) (thread : ThreadId) (args : List Value)
    (options : UInt32) :
    (respond (.invokeVirtual id thread type method args options)).Spares ErrorCode.invalidMethod
      vm := by
  refine (stopped_spares thread).andThen fun _ vm' hrun => ?_
  obtain ⟨rfl, -⟩ := stopped_ok hrun
  exact invoke_spares he hc hm hstatic hsubtype args

/-- A dead machine calls nothing invalid. -/
theorem invokeVirtual_dead (hdead : vm.dead = true) (id : ObjectId) (thread : ThreadId)
    (type : TypeId) (method : MethodId) (args : List Value) (options : UInt32) :
    (respond (.invokeVirtual id thread type method args options)).Spares ErrorCode.invalidMethod
      vm := by
  refine (stopped_spares thread).andThen fun _ vm' hrun => ?_
  have halive := (stopped_ok hrun).2
  rw [hdead] at halive
  cases halive

end Vm

end StreamTrace
