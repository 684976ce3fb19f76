import Mathlib.Data.List.Induction
import StreamTrace.Debugger.SharedStorage

/-!
# Pins of a shared storage

What all calls on one storage do together, in whatever order their steps are taken. Every object
whose collection was disabled is enabled once, or was recorded in vain: it was pinned already, or
the pins had been handed out (`run_accounted`). The first can happen when two calls keep the same
object at a time, the second when a call disposes of the pins while another keeps an object, and
nothing else lets an object go astray.

`store_eq` and `dispose_eq` say that the calls are the bridge's own, cut where they give way.
-/

namespace StreamTrace

/-! ## The calls of the bridge -/

namespace Bridge

open PinCall

/-- What follows once a call that keeps an object has begun: the command and the record. -/
def finishKeep (b : BridgeState) :
    PinCall → Program (Except TraceError Unit × BridgeState)
  | asking className id =>
    .act (.command (.disableCollection id)) fun r =>
      .done ((b.storage.record className id r).1,
        { b with storage := (b.storage.record className id r).2 })
  | kept outcome => .done (outcome, b)
  | _ => .done (.ok (), b)

/-- What follows once a call that disposes of the pins has begun: the commands. -/
def finishDispose (b : BridgeState) :
    PinCall × Storage → Program (Except TraceError Bool × BridgeState)
  | (enabling ids, storage) =>
    (do enableAll ids; return true : BridgeRoutine Bool) { b with storage }
  | _ => .done (.ok false, b)

theorem store_eq (className : String) (v : Value) (b : BridgeState) :
    (store className v : BridgeRoutine Unit) b = finishKeep b (ofKeep b.storage className v) := by
  have hget (f : BridgeState → BridgeRoutine Unit) : (get >>= f) b = f b b := rfl
  unfold store ofKeep
  cases v.objectId? with
  | none => rfl
  | some id =>
      -- The routine reads the storage first, so its next step is told by the admission.
      refine (hget _).trans ?_
      dsimp only
      cases b.storage.admission id with
      | refused => rfl
      | present => rfl
      | absent =>
          refine congrArg (Program.act (.command (.disableCollection id))) (funext fun r => ?_)
          rcases (r : Except JdwpError Unit) with e | _ <;> rfl

theorem dispose_eq (b : BridgeState) :
    (dispose : BridgeRoutine Bool) b = finishDispose b (ofDispose b.storage) := by
  have hget (f : BridgeState → BridgeRoutine Bool) : (get >>= f) b = f b b := rfl
  unfold dispose ofDispose
  refine (hget _).trans ?_
  cases b.storage.release with
  | none => rfl
  | some released => rfl

end Bridge

/-! ## What calls have in hand -/

namespace PinCall

/-- Times that the call has disabled the collection of the object without recording it yet. -/
def unrecorded (id : ObjectId) : PinCall → Nat
  | answered _ id' (.ok _) => if id' = id then 1 else 0
  | _ => 0

/-- Times that the call has still to enable the collection of the object. -/
def toEnable (id : ObjectId) : PinCall → Nat
  | enabling left => left.count id
  | _ => 0

theorem toEnable_cons (id id' : ObjectId) (left : List ObjectId) :
    toEnable id (.enabling (id' :: left)) = left.count id + if id' = id then 1 else 0 := by
  show (id' :: left).count id = _
  rw [List.count_cons]
  simp only [beq_iff_eq]

/-- Whether the call was handed the pins. -/
def releases : PinCall → Nat
  | enabling _ => 1
  | disposed true => 1
  | _ => 0

/-- Whether the call came too late for the pins. -/
def late : PinCall → Nat
  | disposed false => 1
  | _ => 0

/-- Whether the call is busy keeping the object. -/
def keeps (id : ObjectId) : PinCall → Nat
  | asking _ id' => if id' = id then 1 else 0
  | answered _ id' _ => if id' = id then 1 else 0
  | _ => 0

/-- Whether the call disposes of the pins, however far it has come. -/
def disposes : PinCall → Nat
  | dispose => 1
  | enabling _ => 1
  | disposed _ => 1
  | _ => 0

def disposedNow : PinCall → Bool
  | disposed now => now
  | _ => false

/-- How a call that keeps an object begins, case by case. -/
theorem ofKeep_cases (s : Storage) (className : String) (v : Value) :
    (∃ outcome, ofKeep s className v = .kept outcome) ∨
      ∃ id, v.objectId? = some id ∧ s.released = false ∧ id ∉ s.pinned ∧
        ofKeep s className v = .asking className id := by
  unfold ofKeep
  cases v.objectId? with
  | none => exact Or.inl ⟨_, rfl⟩
  | some id =>
      dsimp only
      unfold Storage.admission
      by_cases hreleased : s.released = true
      · rw [if_pos hreleased]
        exact Or.inl ⟨_, rfl⟩
      · rw [if_neg hreleased]
        by_cases hpinned : id ∈ s.pinned
        · rw [if_pos hpinned]
          exact Or.inl ⟨_, rfl⟩
        · rw [if_neg hpinned]
          exact Or.inr ⟨id, rfl, Bool.eq_false_iff.2 hreleased, hpinned, rfl⟩

end PinCall

namespace SharedStorage

variable {s s' : SharedStorage} {i : Nat} {r : Except JdwpError Unit} {c c' : PinCall}
  {id : ObjectId} {schedule : Schedule} {order : Arrangement} {calls : List PinCall}

/-- The sum of something over all calls. -/
def total (f : PinCall → Nat) : List PinCall → Nat
  | [] => 0
  | c :: rest => f c + total f rest

theorem total_set (f : PinCall → Nat) (c' : PinCall) :
    ∀ {calls : List PinCall} {i : Nat} {c : PinCall}, calls[i]? = some c →
      total f (calls.set i c') + f c = total f calls + f c'
  | [], _, _, h => nomatch h
  | d :: rest, 0, c, h => by
      obtain rfl : d = c := Option.some.inj h
      show f c' + total f rest + f d = f d + total f rest + f c'
      omega
  | d :: rest, i + 1, c, h => by
      have ih : total f (rest.set i c') + f c = total f rest + f c' := total_set f c' h
      show f d + total f (rest.set i c') + f c = f d + total f rest + f c'
      omega

theorem total_eq_zero {f : PinCall → Nat} (h : ∀ c ∈ calls, f c = 0) : total f calls = 0 := by
  induction calls with
  | nil => rfl
  | cons c rest ih =>
      have hrest := ih fun d hd => h d (List.mem_cons_of_mem c hd)
      show f c + total f rest = 0
      rw [h c List.mem_cons_self, hrest]

theorem le_total (f : PinCall → Nat) (h : c ∈ calls) : f c ≤ total f calls := by
  induction calls with
  | nil => cases h
  | cons d rest ih =>
      show f c ≤ f d + total f rest
      rcases List.mem_cons.1 h with rfl | hrest
      · omega
      · have hle := ih hrest
        omega

/-! ## Steps -/

/-- One step of call `i`, where the debuggee answers `r` if it is asked. -/
inductive Step (s : SharedStorage) (i : Nat) (r : Except JdwpError Unit) : SharedStorage → Prop
  | declines (className : String) (v : Value) (outcome : Except TraceError Unit)
      (call : s.calls[i]? = some (.keep className v)) : Step s i r (s.setCall i (.kept outcome))
  | asks (className : String) (v : Value) (id : ObjectId)
      (call : s.calls[i]? = some (.keep className v)) (object : v.objectId? = some id)
      (unreleased : s.storage.released = false) (absent : id ∉ s.storage.pinned) :
      Step s i r (s.setCall i (.asking className id))
  | disables (className : String) (id : ObjectId) (ok : r = .ok ())
      (call : s.calls[i]? = some (.asking className id)) :
      Step s i r ⟨s.storage, s.calls.set i (.answered className id (.ok ())),
        s.disabled ++ [id], s.enabled, s.unmatched⟩
  | denied (className : String) (id : ObjectId) (e : JdwpError)
      (call : s.calls[i]? = some (.asking className id)) :
      Step s i r (s.setCall i (.answered className id (.error e)))
  | records (className : String) (id : ObjectId) (unreleased : s.storage.released = false)
      (absent : id ∉ s.storage.pinned)
      (call : s.calls[i]? = some (.answered className id (.ok ()))) :
      Step s i r ⟨s.storage.pin className id, s.calls.set i (.kept (.ok ())), s.disabled,
        s.enabled, s.unmatched⟩
  | strays (className : String) (id : ObjectId)
      (vain : s.storage.released = true ∨ id ∈ s.storage.pinned)
      (call : s.calls[i]? = some (.answered className id (.ok ()))) :
      Step s i r ⟨s.storage.pin className id, s.calls.set i (.kept (.ok ())), s.disabled,
        s.enabled, s.unmatched ++ [id]⟩
  | fails (className : String) (id : ObjectId) (e : JdwpError)
      (call : s.calls[i]? = some (.answered className id (.error e))) :
      Step s i r (s.setCall i (.kept (.error (.jdwp e))))
  | releases (unreleased : s.storage.released = false) (call : s.calls[i]? = some .dispose) :
      Step s i r ⟨{ s.storage with byClass := {}, pinned := [], released := true },
        s.calls.set i (.enabling s.storage.arranged), s.disabled, s.enabled,
        s.unmatched⟩
  | late (released : s.storage.released = true) (call : s.calls[i]? = some .dispose) :
      Step s i r (s.setCall i (.disposed false))
  | enables (id : ObjectId) (left : List ObjectId)
      (call : s.calls[i]? = some (.enabling (id :: left))) :
      Step s i r ⟨s.storage, s.calls.set i (.enabling left), s.disabled, s.enabled ++ [id],
        s.unmatched⟩
  | ends (call : s.calls[i]? = some (.enabling [])) : Step s i r (s.setCall i (.disposed true))

theorem step_of_answered {className : String} {outcome : Except JdwpError Unit}
    (call : s.calls[i]? = some (.answered className id outcome)) (h : s.step? i r = some s') :
    s.Step i r s' := by
  simp only [step?, call] at h
  cases outcome with
  | error e =>
      obtain rfl := Option.some.inj h
      exact .fails className id e call
  | ok _ =>
      by_cases hvain : s.storage.released = true ∨ id ∈ s.storage.pinned
      · have hcond : (Except.isOk (.ok () : Except JdwpError Unit) &&
            (s.storage.released || s.storage.pinned.contains id)) = true := by
          rcases hvain with h | h <;> simp [Except.isOk, Except.toBool, h]
        rw [if_pos hcond] at h
        obtain rfl := Option.some.inj h
        exact .strays className id hvain call
      · obtain ⟨hreleased, hpinned⟩ := not_or.1 hvain
        have hcond : ¬(Except.isOk (.ok () : Except JdwpError Unit) &&
            (s.storage.released || s.storage.pinned.contains id)) = true := by
          simp [Except.isOk, Except.toBool, hreleased, hpinned]
        rw [if_neg hcond] at h
        obtain rfl := Option.some.inj h
        exact .records className id (Bool.eq_false_iff.2 hreleased) hpinned call

theorem step_of_dispose (call : s.calls[i]? = some .dispose) (h : s.step? i r = some s') :
    s.Step i r s' := by
  simp only [step?, call, PinCall.ofDispose, Storage.release] at h
  by_cases hreleased : s.storage.released = true
  · rw [if_pos hreleased] at h
    obtain rfl := Option.some.inj h
    exact .late hreleased call
  · rw [if_neg hreleased] at h
    obtain rfl := Option.some.inj h
    exact .releases (Bool.eq_false_iff.2 hreleased) call

theorem step_of_step? (h : s.step? i r = some s') : s.Step i r s' := by
  cases call : s.calls[i]? with
  | none => simp only [step?, call] at h; cases h
  | some c =>
      cases c with
      | keep className v =>
          simp only [step?, call] at h
          obtain rfl := Option.some.inj h
          rcases PinCall.ofKeep_cases s.storage className v with
            ⟨outcome, heq⟩ | ⟨id, hid, hreleased, hpinned, heq⟩
          · rw [heq]
            exact .declines className v outcome call
          · rw [heq]
            exact .asks className v id call hid hreleased hpinned
      | asking className id =>
          simp only [step?, call] at h
          cases r with
          | ok _ => obtain rfl := Option.some.inj h; exact .disables className id rfl call
          | error e => obtain rfl := Option.some.inj h; exact .denied className id e call
      | answered className id outcome => exact step_of_answered call h
      | kept outcome => simp only [step?, call] at h; cases h
      | dispose => exact step_of_dispose call h
      | enabling left =>
          cases left with
          | nil =>
              simp only [step?, call] at h
              obtain rfl := Option.some.inj h
              exact .ends call
          | cons id left =>
              simp only [step?, call] at h
              obtain rfl := Option.some.inj h
              exact .enables id left call
      | disposed now => simp only [step?, call] at h; cases h

/-! ## The account -/

/-- Times that the storage holds the object and can still hand it out. -/
def held (t : Storage) (id : ObjectId) : Nat := if t.released then 0 else t.pinned.count id

theorem held_released {t : Storage} (h : t.released = true) (id : ObjectId) : held t id = 0 :=
  if_pos h

theorem held_unreleased {t : Storage} (h : t.released = false) (id : ObjectId) :
    held t id = t.pinned.count id :=
  if_neg (Bool.eq_false_iff.1 h)

theorem count_snoc (l : List ObjectId) (id id' : ObjectId) :
    (l ++ [id]).count id' = l.count id' + if id = id' then 1 else 0 := by
  rw [List.count_append, List.count_singleton]
  simp only [beq_iff_eq]

theorem held_pin {t : Storage} (h : t.released = false) {className : String}
    (absent : id ∉ t.pinned) (id' : ObjectId) :
    held (t.pin className id) id' = held t id' + if id = id' then 1 else 0 := by
  rw [held_unreleased h, held_unreleased (t := t.pin className id) h]
  show (if id ∈ t.pinned then t.pinned else t.pinned ++ [id]).count id' = _
  rw [if_neg absent, count_snoc]

/-- An object that was pinned already, or comes behind the release, is not held once more. -/
theorem held_pin_vain {t : Storage} (h : t.released = true ∨ id ∈ t.pinned) (className : String)
    (id' : ObjectId) : held (t.pin className id) id' = held t id' := by
  by_cases hreleased : t.released = true
  · rw [held_released hreleased, held_released (t := t.pin className id) hreleased]
  · have hpinned : id ∈ t.pinned := h.resolve_left hreleased
    have hopen := Bool.eq_false_iff.2 hreleased
    rw [held_unreleased hopen, held_unreleased (t := t.pin className id) hopen]
    show (if id ∈ t.pinned then t.pinned else t.pinned ++ [id]).count id' = _
    rw [if_pos hpinned]

open PinCall

/-- Where every object is whose collection was disabled. -/
structure Accounted (s : SharedStorage) : Prop where
  counts : ∀ id, s.disabled.count id = total (unrecorded id) s.calls + held s.storage id +
    total (toEnable id) s.calls + s.enabled.count id + s.unmatched.count id
  once : ∀ id, held s.storage id + total (toEnable id) s.calls + s.enabled.count id ≤ 1
  unreleased : s.storage.released = false → total PinCall.releases s.calls = 0 ∧
    total PinCall.late s.calls = 0 ∧
      ∀ id, total (toEnable id) s.calls = 0 ∧ s.enabled.count id = 0
  released : s.storage.released = true → total PinCall.releases s.calls = 1

/-- A step of a call that has no pins in hand: it is enough that the object moves from one place to
another, and that the storage does not come to hold it twice. -/
theorem Accounted.moved (h : s.Accounted) (call : s.calls[i]? = some c)
    (hcalls : s'.calls = s.calls.set i c') (henabled : s'.enabled = s.enabled)
    (hstorage : s'.storage.released = s.storage.released)
    (htoEnable : ∀ id, toEnable id c' = toEnable id c)
    (hreleases : PinCall.releases c' = PinCall.releases c)
    (hlate : s.storage.released = false → PinCall.late c' = PinCall.late c)
    (hplaces : ∀ id, s'.disabled.count id + unrecorded id c + held s.storage id +
      s.unmatched.count id =
        s.disabled.count id + unrecorded id c' + held s'.storage id + s'.unmatched.count id)
    (honce : ∀ id, held s'.storage id = held s.storage id ∨
      s.storage.released = false ∧ held s'.storage id ≤ 1) : s'.Accounted := by
  have htotal (f : PinCall → Nat) (hf : f c' = f c) : total f s'.calls = total f s.calls := by
    have hset := total_set f c' call
    rw [hcalls]
    omega
  refine ⟨fun id => ?_, fun id => ?_, fun hopen => ?_, fun hclosed => ?_⟩
  · have hset := total_set (unrecorded id) c' call
    have hcounts := h.counts id
    have hmoved := hplaces id
    rw [htotal _ (htoEnable id), henabled, hcalls]
    omega
  · have hbefore := h.once id
    rw [htotal _ (htoEnable id), henabled]
    rcases honce id with hsame | ⟨hopen, hone⟩
    · omega
    · -- Before the release nothing is to be enabled, so what the storage holds is all there is.
      obtain ⟨hleft, hnone⟩ := (h.unreleased hopen).2.2 id
      omega
  · have hbefore := hstorage ▸ hopen
    obtain ⟨hnone, hearly, hleft⟩ := h.unreleased hbefore
    refine ⟨(htotal _ hreleases).trans hnone, (htotal _ (hlate hbefore)).trans hearly,
      fun id => ?_⟩
    rw [htotal _ (htoEnable id), henabled]
    exact hleft id
  · rw [htotal _ hreleases]
    exact h.released (hstorage ▸ hclosed)

/-- A call that changes its state without a trace elsewhere leaves the account as it is. -/
theorem Accounted.setCall (h : s.Accounted) (call : s.calls[i]? = some c)
    (hunrecorded : ∀ id, unrecorded id c' = unrecorded id c)
    (htoEnable : ∀ id, toEnable id c' = toEnable id c)
    (hreleases : PinCall.releases c' = PinCall.releases c)
    (hlate : s.storage.released = false → PinCall.late c' = PinCall.late c) :
    (s.setCall i c').Accounted := by
  refine h.moved call rfl rfl rfl htoEnable hreleases hlate (fun id => ?_) fun _ => .inl rfl
  rw [hunrecorded id]
  rfl

theorem accounted_start (h : ∀ c ∈ calls, c.IsFresh) :
    (start order calls).Accounted := by
  have hzero (f : PinCall → Nat) (hkeep : ∀ className v, f (.keep className v) = 0)
      (hdispose : f .dispose = 0) : total f calls = 0 := by
    refine total_eq_zero fun c hc => ?_
    cases c with
    | keep className v => exact hkeep className v
    | dispose => exact hdispose
    | _ => exact absurd (h _ hc) id
  have hunrecorded (id : ObjectId) := hzero (unrecorded id) (fun _ _ => rfl) rfl
  have htoEnable (id : ObjectId) := hzero (toEnable id) (fun _ _ => rfl) rfl
  refine ⟨fun id => ?_, fun id => ?_, fun _ => ?_, fun hclosed => ?_⟩
  · rw [show (start order calls).calls = calls from rfl, hunrecorded, htoEnable]
    rfl
  · rw [show (start order calls).calls = calls from rfl, htoEnable]
    exact Nat.zero_le 1
  · exact ⟨hzero _ (fun _ _ => rfl) rfl, hzero _ (fun _ _ => rfl) rfl,
      fun id => ⟨htoEnable id, rfl⟩⟩
  · cases hclosed

theorem Accounted.step (h : s.Accounted) (hstep : s.Step i r s') : s'.Accounted := by
  cases hstep with
  | declines className v outcome call =>
      exact h.setCall call (fun _ => rfl) (fun _ => rfl) rfl fun _ => rfl
  | asks className v id call _ _ _ =>
      exact h.setCall call (fun _ => rfl) (fun _ => rfl) rfl fun _ => rfl
  | denied className id e call =>
      exact h.setCall call (fun _ => rfl) (fun _ => rfl) rfl fun _ => rfl
  | fails className id e call =>
      exact h.setCall call (fun _ => rfl) (fun _ => rfl) rfl fun _ => rfl
  | ends call => exact h.setCall call (fun _ => rfl) (fun _ => rfl) rfl fun _ => rfl
  | late released call =>
      exact h.setCall call (fun _ => rfl) (fun _ => rfl) rfl fun hopen =>
        absurd (released.symm.trans hopen) (by decide)
  | disables className id _ call =>
      refine h.moved call rfl rfl rfl (fun _ => rfl) rfl (fun _ => rfl) (fun id' => ?_)
        fun _ => .inl rfl
      simp only [unrecorded, count_snoc]
      omega
  | records className id unreleased absent call =>
      refine h.moved call rfl rfl rfl (fun _ => rfl) rfl (fun _ => rfl) (fun id' => ?_)
        fun id' => .inr ⟨unreleased, ?_⟩
      · simp only [unrecorded, held_pin unreleased absent]
        omega
      · rw [held_pin unreleased absent]
        by_cases hid : id = id'
        · have habsent : held s.storage id' = 0 := by
            rw [held_unreleased unreleased]
            exact List.count_eq_zero.2 (hid ▸ absent)
          rw [if_pos hid]
          omega
        · have honce := h.once id'
          rw [if_neg hid]
          omega
  | strays className id vain call =>
      refine h.moved call rfl rfl rfl (fun _ => rfl) rfl (fun _ => rfl) (fun id' => ?_)
        fun id' => .inl (held_pin_vain vain className id')
      simp only [unrecorded, held_pin_vain vain, count_snoc]
      omega
  | releases unreleased call =>
      have hset (f : PinCall → Nat) := total_set f (.enabling s.storage.arranged) call
      obtain ⟨hreleases, hlate, hnone⟩ := h.unreleased unreleased
      refine ⟨fun id' => ?_, fun id' => ?_, fun hopen => ?_, fun _ => ?_⟩
      · have hu := hset (unrecorded id')
        have he := hset (toEnable id')
        have hcounts := h.counts id'
        rw [held_unreleased unreleased] at hcounts
        rw [held_released rfl]
        simp only [unrecorded, toEnable, s.storage.arranged_perm.count_eq] at hu he ⊢
        omega
      · have he := hset (toEnable id')
        have honce := h.once id'
        rw [held_unreleased unreleased] at honce
        rw [held_released rfl]
        simp only [toEnable, s.storage.arranged_perm.count_eq] at he ⊢
        omega
      · cases hopen
      · have hone := hset PinCall.releases
        simp only [PinCall.releases] at hone ⊢
        omega
  | enables id left call =>
      have hset (f : PinCall → Nat) := total_set f (.enabling left) call
      have hclosed : s.storage.released = true := by
        by_contra hopen
        obtain ⟨hreleases, -, -⟩ := h.unreleased (Bool.eq_false_iff.2 hopen)
        have hle := le_total PinCall.releases (List.mem_of_getElem? call)
        rw [hreleases] at hle
        exact absurd hle (Nat.not_succ_le_zero 0)
      refine ⟨fun id' => ?_, fun id' => ?_, fun hopen => ?_, fun _ => ?_⟩
      · have hu := hset (unrecorded id')
        have he := hset (toEnable id')
        have hcounts := h.counts id'
        rw [toEnable_cons] at he
        simp only [unrecorded, toEnable, count_snoc] at hu he ⊢
        omega
      · have he := hset (toEnable id')
        have honce := h.once id'
        rw [toEnable_cons] at he
        simp only [toEnable, count_snoc] at he ⊢
        omega
      · exact absurd (hclosed.symm.trans hopen) (by decide)
      · have hone := hset PinCall.releases
        have hbefore := h.released hclosed
        simp only [PinCall.releases] at hone ⊢
        omega

/-! ## Runs -/

variable {s₀ : SharedStorage}

theorem run_concat (schedule : Schedule) (m : Nat × Except JdwpError Unit) (s : SharedStorage) :
    run (schedule ++ [m]) s = (run schedule s).bind fun s => s.step? m.1 m.2 := by
  rw [run, List.foldlM_append]
  refine congrArg (Option.bind (run schedule s)) (funext fun t => ?_)
  exact bind_pure (t.step? m.1 m.2)

/-- What one step keeps, a whole run keeps. -/
theorem run_keeps {P : Schedule → SharedStorage → Prop} (hstart : P [] s₀)
    (hstep : ∀ schedule s i r s', run schedule s₀ = some s → P schedule s → s.Step i r s' →
      P (schedule ++ [(i, r)]) s') :
    ∀ {schedule s}, run schedule s₀ = some s → P schedule s := by
  intro schedule
  induction schedule using List.reverseRecOn with
  | nil =>
      intro s h
      obtain rfl : s₀ = s := Option.some.inj h
      exact hstart
  | append_singleton schedule m ih =>
      intro s h
      rw [run_concat, Option.bind_eq_some_iff] at h
      obtain ⟨t, ht, hm⟩ := h
      exact hstep schedule t m.1 m.2 s ht (ih ht) (step_of_step? hm)

theorem accounted_run (hfresh : ∀ c ∈ calls, c.IsFresh)
    (h : run schedule (start order calls) = some s) :
    s.Accounted :=
  run_keeps (P := fun _ s => s.Accounted) (accounted_start hfresh)
    (fun _ _ _ _ _ _ h hstep => h.step hstep) h

/-- No call turns into one of the other kind. -/
theorem Step.disposes (h : s.Step i r s') :
    total PinCall.disposes s'.calls = total PinCall.disposes s.calls := by
  have hset {c c' : PinCall} (call : s.calls[i]? = some c)
      (heq : PinCall.disposes c' = PinCall.disposes c) :
      total PinCall.disposes (s.calls.set i c') = total PinCall.disposes s.calls := by
    have hset := total_set PinCall.disposes c' call
    omega
  cases h with
  | declines _ _ _ call => exact hset call rfl
  | asks _ _ _ call _ _ _ => exact hset call rfl
  | disables _ _ _ call => exact hset call rfl
  | denied _ _ _ call => exact hset call rfl
  | records _ _ _ _ call => exact hset call rfl
  | strays _ _ _ call => exact hset call rfl
  | fails _ _ _ call => exact hset call rfl
  | releases _ call => exact hset call rfl
  | late _ call => exact hset call rfl
  | enables _ _ call => exact hset call rfl
  | ends call => exact hset call rfl

theorem disposes_run (h : run schedule s₀ = some s) :
    total PinCall.disposes s.calls = total PinCall.disposes s₀.calls :=
  run_keeps (P := fun _ s => total PinCall.disposes s.calls = total PinCall.disposes s₀.calls) rfl
    (fun _ _ _ _ _ _ h hstep => hstep.disposes.trans h) h

theorem exists_of_total_pos {f : PinCall → Nat} (h : 0 < total f calls) :
    ∃ c ∈ calls, 0 < f c := by
  by_contra hnone
  have hzero : total f calls = 0 := by
    refine total_eq_zero fun c hc => ?_
    by_contra hne
    exact hnone ⟨c, hc, Nat.pos_of_ne_zero hne⟩
  omega

/-- Once a call that disposes of the pins has returned, they have been handed out. -/
theorem released_of_returned (h : s.Accounted) (hreturned : ∀ c ∈ s.calls, c.HasReturned)
    (hdisposes : 0 < total PinCall.disposes s.calls) : s.storage.released = true := by
  obtain ⟨c, hc, hpos⟩ := exists_of_total_pos hdisposes
  by_contra hopen
  obtain ⟨hreleases, hlate, -⟩ := h.unreleased (Bool.eq_false_iff.2 hopen)
  have hone := le_total PinCall.releases hc
  have htwo := le_total PinCall.late hc
  have hend := hreturned c hc
  cases c with
  | disposed now =>
      cases now with
      | true => rw [hreleases] at hone; exact Nat.not_succ_le_zero 0 hone
      | false => rw [hlate] at htwo; exact Nat.not_succ_le_zero 0 htwo
  | kept _ => exact absurd hpos (Nat.lt_irrefl 0)
  | _ => exact hend

theorem countP_disposedNow (hreturned : ∀ c ∈ calls, c.HasReturned) :
    calls.countP disposedNow = total PinCall.releases calls := by
  induction calls with
  | nil => rfl
  | cons c rest ih =>
      have hc : (if disposedNow c then 1 else 0) = PinCall.releases c := by
        have hend := hreturned c List.mem_cons_self
        cases c with
        | kept _ => rfl
        | disposed now => cases now <;> rfl
        | _ => exact absurd hend id
      rw [List.countP_cons, ih fun d hd => hreturned d (List.mem_cons_of_mem c hd), hc]
      exact Nat.add_comm _ _

/-! ## Only pinned objects are let go -/

/-- The storage held the object at some time of the run. -/
def WasPinned (schedule : Schedule) (s₀ : SharedStorage) (id : ObjectId) : Prop :=
  ∃ before after s, schedule = before ++ after ∧ run before s₀ = some s ∧ id ∈ s.storage.pinned

theorem WasPinned.snoc (h : WasPinned schedule s₀ id) (m : Nat × Except JdwpError Unit) :
    WasPinned (schedule ++ [m]) s₀ id := by
  obtain ⟨before, after, s, rfl, hrun, hpinned⟩ := h
  exact ⟨before, after ++ [m], s, List.append_assoc _ _ _, hrun, hpinned⟩

/-- What a call is to let go after a step, it was to let go before, or it is pinned. -/
theorem Step.enabled_cases (h : s.Step i r s')
    (hid : 0 < total (toEnable id) s'.calls ∨ id ∈ s'.enabled) :
    (0 < total (toEnable id) s.calls ∨ id ∈ s.enabled) ∨ id ∈ s.storage.pinned := by
  have hset {c c' : PinCall} (call : s.calls[i]? = some c) (hc : toEnable id c' = 0)
      (hpos : 0 < total (toEnable id) (s.calls.set i c')) : 0 < total (toEnable id) s.calls := by
    have hset := total_set (toEnable id) c' call
    omega
  cases h with
  | declines _ _ _ call => exact Or.inl (hid.imp_left (hset call rfl))
  | asks _ _ _ call _ _ _ => exact Or.inl (hid.imp_left (hset call rfl))
  | disables _ _ _ call => exact Or.inl (hid.imp_left (hset call rfl))
  | denied _ _ _ call => exact Or.inl (hid.imp_left (hset call rfl))
  | records _ _ _ _ call => exact Or.inl (hid.imp_left (hset call rfl))
  | strays _ _ _ call => exact Or.inl (hid.imp_left (hset call rfl))
  | fails _ _ _ call => exact Or.inl (hid.imp_left (hset call rfl))
  | late _ call => exact Or.inl (hid.imp_left (hset call rfl))
  | ends call => exact Or.inl (hid.imp_left (hset call rfl))
  | releases _ call =>
      rcases hid with hpos | henabled
      · by_cases hpinned : id ∈ s.storage.pinned
        · exact Or.inr hpinned
        · have hnone : toEnable id (.enabling s.storage.arranged) = 0 :=
            List.count_eq_zero.2 fun hmem => hpinned (s.storage.arranged_perm.mem_iff.1 hmem)
          exact Or.inl (Or.inl (hset call hnone hpos))
      · exact Or.inl (Or.inr henabled)
  | enables id' left call =>
      have hset := total_set (toEnable id) (.enabling left) call
      rw [toEnable_cons] at hset
      simp only [toEnable] at hset hid
      refine Or.inl ?_
      rcases hid with hpos | henabled
      · exact Or.inl (by omega)
      · rcases List.mem_append.1 henabled with hold | hnew
        · exact Or.inr hold
        · rw [if_pos (List.mem_singleton.1 hnew).symm] at hset
          exact Or.inl (by omega)

theorem wasPinned_run (hfresh : ∀ c ∈ calls, c.IsFresh)
    (h : run schedule (start order calls) = some s) :
    ∀ id, 0 < total (toEnable id) s.calls ∨ id ∈ s.enabled →
      WasPinned schedule (start order calls) id := by
  refine run_keeps (P := fun schedule s => ∀ id, 0 < total (toEnable id) s.calls ∨ id ∈ s.enabled →
    WasPinned schedule (start order calls) id) ?_ ?_ h
  · intro id hid
    obtain ⟨hleft, -⟩ := ((accounted_start hfresh).unreleased rfl).2.2 id
    rcases hid with hpos | henabled
    · exact absurd hpos (hleft ▸ Nat.lt_irrefl 0)
    · cases henabled
  · intro schedule t i r t' hrun ih hstep id hid
    rcases hstep.enabled_cases hid with hbefore | hpinned
    · exact (ih id hbefore).snoc (i, r)
    · exact ⟨schedule, [(i, r)], t, rfl, hrun, hpinned⟩

/-! ## Calls that keep out of each other's way -/

/-- The next step of call `i` begins to keep an object while another call is busy keeping it, or
hands the pins out while an object is being kept. -/
def Disturbs (s : SharedStorage) (i : Nat) : Prop :=
  (∃ className v id, s.calls[i]? = some (.keep className v) ∧ v.objectId? = some id ∧
    0 < total (keeps id) s.calls) ∨
  s.calls[i]? = some .dispose ∧ ∃ id, 0 < total (keeps id) s.calls

/-- No step of the schedule disturbs a call. -/
def Apart (schedule : Schedule) (s₀ : SharedStorage) : Prop :=
  ∀ before i r after s, schedule = before ++ (i, r) :: after → run before s₀ = some s →
    ¬s.Disturbs i

theorem Apart.of_concat {m : Nat × Except JdwpError Unit} (h : Apart (schedule ++ [m]) s₀) :
    Apart schedule s₀ := by
  intro before i r after s heq
  refine h before i r (after ++ [m]) s ?_
  rw [heq, List.append_assoc]
  rfl

/-- Each object that is being kept is kept by one call only, and is not pinned yet. -/
structure Undisturbed (s : SharedStorage) : Prop where
  alone : ∀ id, 0 < total (keeps id) s.calls → total (keeps id) s.calls = 1 ∧
    s.storage.released = false ∧ id ∉ s.storage.pinned
  matched : s.unmatched = []

theorem Undisturbed.of_le (h : s.Undisturbed) (hstorage : s'.storage = s.storage)
    (hunmatched : s'.unmatched = s.unmatched)
    (hle : ∀ id, total (keeps id) s'.calls ≤ total (keeps id) s.calls) : s'.Undisturbed := by
  refine ⟨fun id hpos => ?_, hunmatched.trans h.matched⟩
  have hid := hle id
  obtain ⟨hone, hopen, habsent⟩ := h.alone id (by omega)
  rw [hstorage]
  exact ⟨by omega, hopen, habsent⟩

theorem Undisturbed.step (h : s.Undisturbed) (hapart : ¬s.Disturbs i) (hstep : s.Step i r s') :
    s'.Undisturbed := by
  have hset {c c' : PinCall} (call : s.calls[i]? = some c)
      (hc : ∀ id, keeps id c' ≤ keeps id c) (id : ObjectId) :
      total (keeps id) (s.calls.set i c') ≤ total (keeps id) s.calls := by
    have hset := total_set (keeps id) c' call
    have hid := hc id
    omega
  cases hstep with
  | declines _ _ _ call => exact h.of_le rfl rfl (hset call fun _ => Nat.le_refl 0)
  | disables _ _ _ call => exact h.of_le rfl rfl (hset call fun _ => Nat.le_refl _)
  | denied _ _ _ call => exact h.of_le rfl rfl (hset call fun _ => Nat.le_refl _)
  | fails _ _ _ call => exact h.of_le rfl rfl (hset call fun _ => Nat.zero_le _)
  | late _ call => exact h.of_le rfl rfl (hset call fun _ => Nat.le_refl 0)
  | enables _ _ call => exact h.of_le rfl rfl (hset call fun _ => Nat.le_refl 0)
  | ends call => exact h.of_le rfl rfl (hset call fun _ => Nat.le_refl 0)
  | asks className v id call object unreleased absent =>
      refine ⟨fun id' hpos => ?_, h.matched⟩
      have hid := total_set (keeps id') (.asking className id) call
      simp only [keeps] at hid
      change 0 < total (keeps id') (s.calls.set i _) at hpos
      change total (keeps id') (s.calls.set i _) = 1 ∧ s.storage.released = false ∧
        id' ∉ s.storage.pinned
      -- The call that asks disturbs nobody, so it is the only one at its object.
      by_cases heq : id = id'
      · obtain rfl := heq
        have hnone : total (keeps id) s.calls = 0 := by
          by_contra hbusy
          exact hapart (Or.inl ⟨className, v, id, call, object, Nat.pos_of_ne_zero hbusy⟩)
        rw [if_pos rfl] at hid
        exact ⟨by omega, unreleased, absent⟩
      · rw [if_neg heq] at hid
        obtain ⟨hone, hopen, habsent⟩ := h.alone id' (by omega)
        exact ⟨by omega, hopen, habsent⟩
  | records className id unreleased absent call =>
      refine ⟨fun id' hpos => ?_, h.matched⟩
      have hid := total_set (keeps id') (.kept (.ok ())) call
      simp only [keeps] at hid hpos ⊢
      by_cases heq : id = id'
      · rw [if_pos heq] at hid
        obtain ⟨hone, -, -⟩ := h.alone id' (by omega)
        omega
      · rw [if_neg heq] at hid
        obtain ⟨hone, hopen, habsent⟩ := h.alone id' (by omega)
        refine ⟨by omega, hopen, ?_⟩
        show id' ∉ if id ∈ s.storage.pinned then s.storage.pinned else s.storage.pinned ++ [id]
        rw [if_neg absent, List.mem_append, List.mem_singleton]
        exact not_or.2 ⟨habsent, fun hid' => heq hid'.symm⟩
  | strays className id vain call =>
      -- It keeps the object alone, so it cannot have come in vain.
      have hpos : 0 < total (keeps id) s.calls := by
        have hle := le_total (keeps id) (List.mem_of_getElem? call)
        simp only [keeps] at hle
        exact hle
      obtain ⟨-, hopen, habsent⟩ := h.alone id hpos
      rcases vain with hreleased | hpinned
      · exact absurd (hreleased.symm.trans hopen) (by decide)
      · exact absurd hpinned habsent
  | releases unreleased call =>
      refine ⟨fun id hpos => ?_, h.matched⟩
      have hid : total (keeps id) (s.calls.set i (.enabling s.storage.arranged)) ≤
          total (keeps id) s.calls := hset call (fun _ => Nat.zero_le _) id
      exact absurd (Or.inr ⟨call, id, Nat.lt_of_lt_of_le hpos hid⟩) hapart

theorem undisturbed_run (hfresh : ∀ c ∈ calls, c.IsFresh)
    (h : run schedule (start order calls) = some s) :
    Apart schedule (start order calls) → s.Undisturbed := by
  refine run_keeps (P := fun schedule s => Apart schedule (start order calls) → s.Undisturbed)
    ?_ ?_ h
  · intro _
    refine ⟨fun id hpos => ?_, rfl⟩
    have hzero : total (keeps id) calls = 0 := by
      refine total_eq_zero fun c hc => ?_
      have hc := hfresh c hc
      cases c with
      | keep _ _ => rfl
      | dispose => rfl
      | _ => exact absurd hc (fun h => h)
    exact absurd hpos (hzero ▸ Nat.lt_irrefl 0)
  · intro schedule t i r t' hrun ih hstep hapart
    exact (ih hapart.of_concat).step (hapart schedule i r [] t rfl hrun) hstep

end SharedStorage

open SharedStorage PinCall in
/-- Calls on a shared storage, all returned, at least one of which disposed of the pins: exactly
one of them did so, only objects that had been pinned were let go, each once, and whatever was
disabled was enabled as often, apart from what was recorded in vain. Nothing is recorded in vain
while no two calls keep the same object at a time and none hands the pins out while an object is
being kept. -/
theorem run_accounted {order : Arrangement} {calls : List PinCall} {schedule : Schedule}
    {s : SharedStorage} (hfresh : ∀ c ∈ calls, c.IsFresh)
    (hrun : run schedule (start order calls) = some s)
    (hreturned : ∀ c ∈ s.calls, c.HasReturned) (hdispose : PinCall.dispose ∈ calls) :
    s.calls.countP disposedNow = 1 ∧
    (∀ id, s.disabled.count id = s.enabled.count id + s.unmatched.count id) ∧
    (∀ id, s.enabled.count id ≤ 1) ∧
    (∀ id ∈ s.enabled, WasPinned schedule (start order calls) id) ∧
    (Apart schedule (start order calls) → s.unmatched = []) := by
  have haccounted := accounted_run hfresh hrun
  have hdisposes : 0 < total disposes s.calls := by
    rw [disposes_run hrun]
    exact Nat.lt_of_lt_of_le Nat.zero_lt_one (le_total disposes hdispose)
  have hreleased := released_of_returned haccounted hreturned hdisposes
  have hnothing {f : PinCall → Nat} (hkept : ∀ outcome, f (.kept outcome) = 0)
      (hdisposed : ∀ now, f (.disposed now) = 0) : total f s.calls = 0 := by
    refine total_eq_zero fun c hc => ?_
    have hend := hreturned c hc
    cases c with
    | kept outcome => exact hkept outcome
    | disposed now => exact hdisposed now
    | _ => exact absurd hend fun h => h
  refine ⟨?_, fun id => ?_, fun id => ?_, fun id hid => ?_, fun hapart => ?_⟩
  · rw [countP_disposedNow hreturned]
    exact haccounted.released hreleased
  · have hcounts := haccounted.counts id
    rw [hnothing (fun _ => rfl) fun _ => rfl, hnothing (fun _ => rfl) fun _ => rfl,
      held_released hreleased] at hcounts
    omega
  · have honce := haccounted.once id
    omega
  · exact wasPinned_run hfresh hrun id (Or.inr hid)
  · exact (undisturbed_run hfresh hrun hapart).matched

/-! ## Calls in each other's way -/

/-- Two calls that keep one object and one that disposes of the pins. -/
def twoKeepers : List PinCall :=
  [.keep "java.lang.Object" (.object 7), .keep "java.lang.Object" (.object 7), .dispose]

theorem twoKeepers_fresh : ∀ c ∈ twoKeepers, c.IsFresh := by
  simp [twoKeepers, PinCall.IsFresh]

/-- Both look at the storage before either has recorded the object. -/
def bothAtOnce : SharedStorage.Schedule := [0, 1, 0, 1, 0, 1, 2, 2, 2].map fun i => (i, .ok ())

/-- The second call has not recorded the object when the pins are handed out. -/
def oneBehind : SharedStorage.Schedule := [0, 0, 0, 2, 2, 2, 1].map fun i => (i, .ok ())

/-- The first call has its answer when the pins are handed out, and records the object after. -/
def recordedLate : SharedStorage.Schedule := [0, 0, 2, 2, 0, 1].map fun i => (i, .ok ())

open SharedStorage PinCall in
theorem run_accounted_of_oneBehind :
    ∃ s, run oneBehind (start .reversed twoKeepers) = some s ∧ (∀ c ∈ s.calls, c.HasReturned) ∧
      PinCall.dispose ∈ twoKeepers ∧ s.disabled = [7] ∧ s.calls.countP disposedNow = 1 ∧
      (∀ id, s.disabled.count id = s.enabled.count id + s.unmatched.count id) ∧
      ∀ id ∈ s.enabled, WasPinned oneBehind (start .reversed twoKeepers) id := by
  have hdispose : PinCall.dispose ∈ twoKeepers := by simp [twoKeepers]
  obtain ⟨s, hrun, hcalls, hdisabled⟩ :
      ∃ s, run oneBehind (start .reversed twoKeepers) = some s ∧
        s.calls = [.kept (.ok ()), .kept (.error .storageReleased), .disposed true] ∧
        s.disabled = [7] := ⟨_, rfl, rfl, rfl⟩
  have hreturned : ∀ c ∈ s.calls, c.HasReturned := by simp [hcalls, HasReturned]
  obtain ⟨hone, hcounts, -, hpinned, -⟩ :=
    run_accounted twoKeepers_fresh hrun hreturned hdispose
  exact ⟨s, hrun, hreturned, hdispose, hdisabled, hone, hcounts, hpinned⟩

open SharedStorage PinCall in
/-- A pin is left when two calls keep an object at once, and when an object is recorded behind the
release: its collection was disabled more often than it was enabled. -/
theorem pin_left_of_overlap :
    (∃ s, run bothAtOnce (start .reversed twoKeepers) = some s ∧ (∀ c ∈ s.calls, c.HasReturned) ∧
      s.disabled.count 7 = 2 ∧ s.enabled.count 7 = 1) ∧
    ∃ s, run recordedLate (start .reversed twoKeepers) = some s ∧ (∀ c ∈ s.calls, c.HasReturned) ∧
      s.disabled.count 7 = 1 ∧ s.enabled.count 7 = 0 := by
  have hboth : ∃ s, run bothAtOnce (start .reversed twoKeepers) = some s ∧
      s.calls = [.kept (.ok ()), .kept (.ok ()), .disposed true] ∧
      s.disabled = [7, 7] ∧ s.enabled = [7] := ⟨_, rfl, rfl, rfl, rfl⟩
  have hlate : ∃ s, run recordedLate (start .reversed twoKeepers) = some s ∧
      s.calls = [.kept (.ok ()), .kept (.error .storageReleased), .disposed true] ∧
      s.disabled = [7] ∧ s.enabled = [] := ⟨_, rfl, rfl, rfl, rfl⟩
  obtain ⟨s, hrun, hcalls, hdisabled, henabled⟩ := hboth
  obtain ⟨s', hrun', hcalls', hdisabled', henabled'⟩ := hlate
  refine ⟨⟨s, hrun, by simp [hcalls, HasReturned], ?_, ?_⟩,
    ⟨s', hrun', by simp [hcalls', HasReturned], ?_, ?_⟩⟩
  · rw [hdisabled]; rfl
  · rw [henabled]; rfl
  · rw [hdisabled']; rfl
  · rw [henabled']; rfl

end StreamTrace
