import StreamTrace.Jdwp.Connection
import Mathlib.Data.List.Basic
import Mathlib.Data.List.Induction

/-!
# Calls kept apart

What the callers of a connection may rely on, in whatever order callers, reader, clock and the other
side move. A call returns a payload only when a reply to this call brought it after the call was
entered into the table; a reply reaches one call at most, and no call that has returned; what goes
out is one piece for each call, its packet or the part of it that the line took before it refused
the rest; and the table holds only calls that are still under way.

`Step` says all that a move does, and what else is known about a move is read off it. `Effect` is
what it does to the calls, the table and the bytes sent. The invariants of a history follow from it,
one step each: `Numbered`, `Placed`, `Asked`, `Heard` and `Pieced`.
-/

namespace StreamTrace

/-! ## Stages -/

namespace CallStage

/-- The call is under way: a reply may still reach it. -/
def IsOpen : CallStage → Prop
  | registered | waiting => True
  | begun | returned _ => False

/-- The packet of the call went out. -/
def IsWritten : CallStage → Prop
  | waiting => True
  | returned r => r ≠ .error .transport
  | begun | registered => False

theorem eq_begun {s : CallStage} (h : s.isBegun = true) : s = .begun := by
  cases s with
  | begun => rfl
  | _ => cases h

theorem eq_registered {s : CallStage} (h : s.isRegistered = true) : s = .registered := by
  cases s with
  | registered => rfl
  | _ => cases h

theorem eq_waiting {s : CallStage} (h : s.isWaiting = true) : s = .waiting := by
  cases s with
  | waiting => rfl
  | _ => cases h

end CallStage

theorem Delivery.result_ne_transport (d : Delivery) : d.result ≠ .error .transport := by
  cases d with
  | closed => simp [result]
  | reply code payload =>
      simp only [result]
      split <;> simp

/-- What a call asks for. -/
def Call.command (call : Call) : (UInt8 × UInt8) × Bytes := (call.number, call.payload)

namespace Connection

variable {c c' : Connection} {m : Move} {moves : List Move} {j k : Nat} {call : Call}

/-! ## One call among the others -/

theorem callAt?_eq_some {fits : CallStage → Bool} :
    c.callAt? k fits = some call ↔ c.calls[k]? = some call ∧ fits call.stage = true := by
  unfold callAt?
  cases c.calls[k]? with
  | none => simp
  | some call' =>
      by_cases hfits : fits call'.stage = true
      · simp only [hfits, ↓reduceIte, Option.some.injEq]
        exact ⟨fun h => ⟨h, h ▸ hfits⟩, And.left⟩
      · simp only [hfits, Bool.false_eq_true, ↓reduceIte, reduceCtorEq, Option.some.injEq,
          false_iff]
        exact fun h => hfits (h.1 ▸ h.2)

theorem getElem?_setCall {old : Call} (h : c.calls[k]? = some old) :
    (c.setCall k call).calls[j]? = if k = j then some call else c.calls[j]? := by
  obtain ⟨hk, -⟩ := List.getElem?_eq_some_iff.mp h
  simp only [setCall, List.getElem?_set, hk, ↓reduceIte]

theorem getElem?_deliver {d : Delivery} :
    (c.deliver k d).calls[j]?
      = (c.calls[j]?).map fun call => if k = j then { call with delivery := some d } else call := by
  simp only [deliver, List.getElem?_modify]
  split <;> simp

/-- Leaving the same for several calls changes nothing but what was left for them. -/
theorem calls_foldl_deliver {d : Delivery} {ks : List Nat}
    (h : (ks.foldl (fun c k => c.deliver k d) c).calls[j]? = some call) :
    ∃ old, c.calls[j]? = some old ∧
      (call = old ∨ j ∈ ks ∧ call = { old with delivery := some d }) := by
  induction ks generalizing c with
  | nil => exact ⟨call, h, .inl rfl⟩
  | cons k ks ih =>
      obtain ⟨mid, hmid, hcall⟩ := ih h
      rw [getElem?_deliver] at hmid
      obtain ⟨old, hold, rfl⟩ := Option.map_eq_some_iff.mp hmid
      refine ⟨old, hold, ?_⟩
      by_cases hk : k = j
      · rw [if_pos hk] at hcall
        exact .inr ⟨hk ▸ List.mem_cons_self, hcall.elim id And.right⟩
      · rw [if_neg hk] at hcall
        exact hcall.imp id fun hcall => ⟨List.mem_cons_of_mem _ hcall.1, hcall.2⟩

theorem getElem?_deliver_of_ne {d : Delivery} (h : k ≠ j) :
    (c.deliver k d).calls[j]? = c.calls[j]? := by
  simp [getElem?_deliver, h]

/-- What call asks for is what it began with. -/
theorem commands_setCall (hcall : c.calls[k]? = some call) {new : Call}
    (hnew : new.command = call.command) :
    (c.setCall k new).calls.map Call.command = c.calls.map Call.command := by
  refine List.ext_getElem? fun j => ?_
  rw [List.getElem?_map, List.getElem?_map, getElem?_setCall hcall]
  split
  next hk => rw [← hk, hcall, Option.map_some, Option.map_some, hnew]
  next => rfl

theorem commands_deliver (k : Nat) (d : Delivery) (c : Connection) :
    (c.deliver k d).calls.map Call.command = c.calls.map Call.command := by
  refine List.ext_getElem? fun j => ?_
  rw [List.getElem?_map, List.getElem?_map, getElem?_deliver, Option.map_map]
  refine congrArg (Option.map · _) (funext fun call => ?_)
  simp only [Function.comp_apply]
  split <;> rfl

/-- Only the calls change when something is left for them, and none asks for anything else. -/
theorem foldl_deliver (ks : List Nat) (d : Delivery) (c : Connection) :
    ∃ calls, ks.foldl (fun c k => c.deliver k d) c = { c with calls } ∧
      calls.map Call.command = c.calls.map Call.command := by
  induction ks generalizing c with
  | nil => exact ⟨c.calls, rfl, rfl⟩
  | cons k ks ih =>
      obtain ⟨calls, heq, hcommands⟩ := ih (c.deliver k d)
      exact ⟨calls, heq, hcommands.trans (commands_deliver k d c)⟩

theorem drain_eq (c : Connection) :
    ∃ calls, c.drain = { c with calls, pending := {}, reader := .finished } ∧
      calls.map Call.command = c.calls.map Call.command :=
  foldl_deliver c.pending.values .closed { c with pending := {}, reader := .finished }

/-! ## What a move does -/

/-- The packet that the reader takes next. -/
def next? (c : Connection) : Option Packet :=
  match c.reader, Packet.split c.unread with
  | .reading, .packet p _ => some p
  | _, _ => none

theorem read_next {p : Packet} (h : c.next? = some p) :
    ∃ rest, c.move? .read = some ({ c with unread := rest }.accept p) := by
  unfold next? at h
  split at h
  next rest hreader hsplit =>
    cases h
    exact ⟨rest, by simp only [move?, hreader, hsplit]⟩
  next => cases h

/-- All that a move does to a connection, and when it is open. -/
inductive Step (c : Connection) : Move → Connection → Prop
  | begin (number : UInt8 × UInt8) (payload : Bytes) :
    Step c (.begin number payload)
      { c with calls := c.calls ++ [{ id := c.nextId, number, payload }] }
  | register {k : Nat} {call : Call} (hcall : c.calls[k]? = some call)
      (hstage : call.stage = .begun) : Step c (.register k) (c.register k call)
  | write {k : Nat} {call : Call} (hcall : c.calls[k]? = some call)
      (hstage : call.stage = .registered) :
    Step c (.write k) ({ c with sent := c.sent ++ call.packet.encode }.setCall k
      { call with stage := .waiting })
  | refuse {k n : Nat} {call : Call} (hcall : c.calls[k]? = some call)
      (hstage : call.stage = .registered) (hshort : n < call.packet.encode.length) :
    Step c (.refuse k n)
      ({ c with sent := c.sent ++ call.packet.encode.take n }.giveUp k call .transport)
  | collect {k : Nat} {call : Call} {d : Delivery} (hcall : c.calls[k]? = some call)
      (hstage : call.stage = .waiting) (hdelivery : call.delivery = some d) :
    Step c (.collect k) (c.setCall k { call with stage := .returned d.result })
  | timeOut {k : Nat} {call : Call} (hcall : c.calls[k]? = some call)
      (hstage : call.stage = .waiting) (hdelivery : call.delivery = none) :
    Step c (.timeOut k) (c.giveUp k call .timeout)
  | cancel {k : Nat} {call : Call} (hcall : c.calls[k]? = some call)
      (hstage : call.stage = .waiting) (hshutdown : c.shutdown = true) :
    Step c (.cancel k) (c.giveUp k call .cancelled)
  | adopt (sizes : IdSizes) : Step c (.adopt sizes) { c with sizes }
  | arrive (bytes : Bytes) (hended : c.ended = false) :
    Step c (.arrive bytes) { c with unread := c.unread ++ bytes }
  | close : Step c .close { c with ended := true }
  | take {p : Packet} {rest : Bytes} (hreader : c.reader = .reading)
      (hsplit : Packet.split c.unread = .packet p rest) :
    Step c .read ({ c with unread := rest }.accept p)
  | halt (hreader : c.reader = .reading)
      (hsplit : Packet.split c.unread = .malformed ∨
        Packet.split c.unread = .incomplete ∧ c.ended = true) : Step c .read c.fail
  | drain (hreader : c.reader = .failing) : Step c .drain c.drain
  | stop (hreader : c.reader = .reading) (hshutdown : c.shutdown = true) :
    Step c .stop { c with reader := .finished }
  | shutDown : Step c .shutDown { c with shutdown := true }

theorem step_of_read (h : c.move? .read = some c') : Step c .read c' := by
  simp only [move?] at h
  split at h
  next hreader hsplit =>
    cases h
    exact .take hreader hsplit
  next hreader hsplit =>
    cases h
    exact .halt hreader (.inl hsplit)
  next hreader hsplit =>
    split at h
    next hended =>
      cases h
      exact .halt hreader (.inr ⟨hsplit, hended⟩)
    next => cases h
  next => cases h

/-- A move that is made is one of the steps. -/
theorem step_of_move (h : c.move? m = some c') : Step c m c' := by
  -- Every move has a guard. Where it holds the step is read off, and elsewhere there is no move.
  cases m with
  | begin number payload =>
      cases h
      exact .begin number payload
  | register k =>
      obtain ⟨call, hat, h⟩ := Option.bind_eq_some_iff.mp h
      obtain ⟨hcall, hstage⟩ := callAt?_eq_some.mp hat
      cases h
      exact .register hcall (CallStage.eq_begun hstage)
  | write k =>
      obtain ⟨call, hat, h⟩ := Option.bind_eq_some_iff.mp h
      obtain ⟨hcall, hstage⟩ := callAt?_eq_some.mp hat
      cases h
      exact .write hcall (CallStage.eq_registered hstage)
  | refuse k n =>
      obtain ⟨call, hat, h⟩ := Option.bind_eq_some_iff.mp h
      obtain ⟨hcall, hstage⟩ := callAt?_eq_some.mp hat
      dsimp only at h
      split at h
      next hshort =>
        cases h
        exact .refuse hcall (CallStage.eq_registered hstage) hshort
      next => cases h
  | collect k =>
      obtain ⟨call, hat, h⟩ := Option.bind_eq_some_iff.mp h
      obtain ⟨hcall, hstage⟩ := callAt?_eq_some.mp hat
      obtain ⟨d, hdelivery, h⟩ := Option.bind_eq_some_iff.mp h
      cases h
      exact .collect hcall (CallStage.eq_waiting hstage) hdelivery
  | timeOut k =>
      obtain ⟨call, hat, h⟩ := Option.bind_eq_some_iff.mp h
      obtain ⟨hcall, hstage⟩ := callAt?_eq_some.mp hat
      split at h
      next hdelivery =>
        cases h
        exact .timeOut hcall (CallStage.eq_waiting hstage) (Option.isNone_iff_eq_none.mp hdelivery)
      next => cases h
  | cancel k =>
      obtain ⟨call, hat, h⟩ := Option.bind_eq_some_iff.mp h
      obtain ⟨hcall, hstage⟩ := callAt?_eq_some.mp hat
      split at h
      next hshutdown =>
        cases h
        exact .cancel hcall (CallStage.eq_waiting hstage) hshutdown
      next => cases h
  | adopt sizes =>
      cases h
      exact .adopt sizes
  | arrive bytes =>
      simp only [move?] at h
      split at h
      next => cases h
      next hended =>
        cases h
        exact .arrive bytes (by simpa using hended)
  | close =>
      cases h
      exact .close
  | read => exact step_of_read h
  | drain =>
      simp only [move?] at h
      split at h
      next hreader =>
        cases h
        exact .drain hreader
      next => cases h
  | stop =>
      simp only [move?] at h
      split at h
      next hstop =>
        cases h
        exact .stop hstop.1 hstop.2
      next => cases h
  | shutDown =>
      cases h
      exact .shutDown

/-- The move begins a call, or it is a caller's at the line. -/
def Move.isSending : Move → Bool
  | begin _ _ => true
  | write _ => true
  | refuse _ _ => true
  | _ => false

/-- What a move does to the calls, the table and the bytes sent. -/
inductive Effect (c : Connection) : Move → Connection → Prop
  | begin (number : UInt8 × UInt8) (payload : Bytes) :
    Effect c (.begin number payload)
      { c with calls := c.calls ++ [{ id := c.nextId, number, payload }] }
  | register {k : Nat} {call : Call} (hcall : c.calls[k]? = some call)
      (hstage : call.stage = .begun) : Effect c (.register k) (c.register k call)
  | write {k : Nat} {call : Call} (hcall : c.calls[k]? = some call)
      (hstage : call.stage = .registered) :
    Effect c (.write k) ({ c with sent := c.sent ++ call.packet.encode }.setCall k
      { call with stage := .waiting })
  | refuse {k n : Nat} {call : Call} (hcall : c.calls[k]? = some call)
      (hstage : call.stage = .registered) (hshort : n < call.packet.encode.length) :
    Effect c (.refuse k n)
      ({ c with sent := c.sent ++ call.packet.encode.take n }.giveUp k call .transport)
  | giveUp {m : Move} {k : Nat} {call : Call} {e : JdwpError} (hmove : m.isSending = false)
      (hcall : c.calls[k]? = some call) (hstage : call.stage = .waiting) (he : e ≠ .transport) :
    Effect c m (c.giveUp k call e)
  | collect {k : Nat} {call : Call} {d : Delivery} (hcall : c.calls[k]? = some call)
      (hstage : call.stage = .waiting) (hdelivery : call.delivery = some d) :
    Effect c (.collect k) (c.setCall k { call with stage := .returned d.result })
  | hand {p : Packet} {k : Nat} (rest : Bytes) (hnext : c.next? = some p)
      (hreply : p.isReply = true) (hpending : c.pending.get? p.id = some k) :
    Effect c .read ({ c with unread := rest, pending := c.pending.erase p.id }.deliver k
      (.reply p.errorCode p.payload))
  | drain : Effect c .drain c.drain
  | quiet {m : Move} {c' : Connection} (hmove : m.isSending = false)
      (hcalls : c'.calls = c.calls) (hpending : c'.pending = c.pending)
      (hsent : c'.sent = c.sent) : Effect c m c'

/-- What an accepted packet does to the calls and the table. -/
theorem effect_take {p : Packet} {rest : Bytes} (hreader : c.reader = .reading)
    (hsplit : Packet.split c.unread = .packet p rest) :
    Effect c .read ({ c with unread := rest }.accept p) := by
  have hnext : c.next? = some p := by simp only [next?, hreader, hsplit]
  by_cases hreply : p.isReply = true
  · cases hpending : c.pending.get? p.id with
    | none => refine .quiet rfl ?_ ?_ ?_ <;> simp only [accept, hreply, hpending, ↓reduceIte]
    | some k =>
        simp only [accept, hreply, hpending, ↓reduceIte]
        exact .hand rest hnext hreply hpending
  · refine .quiet rfl ?_ ?_ ?_ <;>
      · simp only [accept, hreply, Bool.false_eq_true, ↓reduceIte]
        split
        · split <;> rfl
        · rfl

theorem effect_of_move (h : c.move? m = some c') : Effect c m c' := by
  cases step_of_move h with
  | begin number payload => exact .begin number payload
  | register hcall hstage => exact .register hcall hstage
  | write hcall hstage => exact .write hcall hstage
  | refuse hcall hstage hshort => exact .refuse hcall hstage hshort
  | collect hcall hstage hdelivery => exact .collect hcall hstage hdelivery
  | timeOut hcall hstage => exact .giveUp rfl hcall hstage (by simp)
  | cancel hcall hstage => exact .giveUp rfl hcall hstage (by simp)
  | take hreader hsplit => exact effect_take hreader hsplit
  | drain => exact .drain
  | halt | adopt | arrive | close | stop | shutDown => exact .quiet rfl rfl rfl rfl

/-! ## What a move does to one call -/

/-- What a move does to call `j`. -/
inductive Turn (c : Connection) (m : Move) (j : Nat) (call : Call) : Call → Prop
  | still : Turn c m j call call
  | register (hmove : m = .register j) (hstage : call.stage = .begun) :
    Turn c m j call { call with stage := .registered }
  | write (hmove : m = .write j) (hstage : call.stage = .registered) :
    Turn c m j call { call with stage := .waiting }
  | refuse {n : Nat} (hmove : m = .refuse j n) (hstage : call.stage = .registered) :
    Turn c m j call { call with stage := .returned (.error .transport) }
  | giveUp {e : JdwpError} (hstage : call.stage = .waiting) (he : e ≠ .transport) :
    Turn c m j call { call with stage := .returned (.error e) }
  | collect {d : Delivery} (hstage : call.stage = .waiting) (hdelivery : call.delivery = some d) :
    Turn c m j call { call with stage := .returned d.result }
  | hand {p : Packet} (hmove : m = .read) (hnext : c.next? = some p) (hreply : p.isReply = true)
      (hpending : (p.id, j) ∈ c.pending.entries) :
    Turn c m j call { call with delivery := some (.reply p.errorCode p.payload) }
  | close {id : UInt32} (hpending : (id, j) ∈ c.pending.entries) :
    Turn c m j call { call with delivery := some .closed }

theorem Turn.id_eq {call' : Call} (h : Turn c m j call call') : call'.id = call.id := by
  cases h <;> rfl

theorem turn_setCall {new : Call} (hcall : c.calls[k]? = some call) (hturn : Turn c m k call new)
    {call' : Call} (h : (c.setCall k new).calls[j]? = some call') :
    ∃ old, c.calls[j]? = some old ∧ Turn c m j old call' := by
  rw [getElem?_setCall hcall] at h
  split at h
  next hk =>
    subst hk
    cases h
    exact ⟨call, hcall, hturn⟩
  next => exact ⟨call', h, .still⟩

theorem turn_deliver {d : Delivery}
    (hturn : ∀ call, Turn c m k call { call with delivery := some d }) {call' : Call}
    (h : (c.deliver k d).calls[j]? = some call') :
    ∃ old, c.calls[j]? = some old ∧ Turn c m j old call' := by
  rw [getElem?_deliver] at h
  obtain ⟨old, hold, rfl⟩ := Option.map_eq_some_iff.mp h
  refine ⟨old, hold, ?_⟩
  split
  next hk => exact hk ▸ hturn old
  next => exact .still

theorem mem_values {t : Table UInt32 Nat} (h : k ∈ t.values) : ∃ id, (id, k) ∈ t.entries := by
  obtain ⟨⟨id, k⟩, he, rfl⟩ := List.mem_map.mp h
  exact ⟨id, he⟩

/-- A call after a move is one from before, with what became of it, or it has just begun. -/
theorem turn_of_effect (h : Effect c m c') {call' : Call} (hcall' : c'.calls[j]? = some call') :
    (∃ call, c.calls[j]? = some call ∧ Turn c m j call call') ∨
      j = c.calls.length ∧
        ∃ number payload, call' = { id := c.nextId, number, payload } := by
  cases h with
  | begin number payload =>
      rw [List.getElem?_append] at hcall'
      split at hcall'
      next => exact .inl ⟨call', hcall', .still⟩
      next hj =>
        obtain ⟨hlength, rfl⟩ := List.getElem?_eq_some_iff.mp hcall'
        simp only [List.length_singleton] at hlength
        refine .inr ⟨by omega, number, payload, ?_⟩
        simp only [List.getElem_singleton]
  | @register k call hcall hstage =>
      -- A call that has the identifier already is closed before this one takes its place.
      refine .inl ?_
      unfold Connection.register at hcall'
      dsimp only at hcall'
      split at hcall'
      next old hold =>
        obtain ⟨was, hwas⟩ : ∃ was, (c.deliver old .closed).calls[k]? = some was := by
          rw [getElem?_deliver, hcall]
          exact ⟨_, rfl⟩
        rw [getElem?_setCall (by exact hwas)] at hcall'
        split at hcall'
        next hk =>
          cases hcall'
          subst hk
          exact ⟨call, hcall, .register rfl hstage⟩
        next =>
          exact turn_deliver (fun _ => .close (Table.mem_entries_of_get? hold)) hcall'
      next =>
        exact turn_setCall (c := { c with pending := _ }) hcall (.register rfl hstage) hcall'
  | write hcall hstage => exact .inl (turn_setCall hcall (.write rfl hstage) hcall')
  | refuse hcall hstage => exact .inl (turn_setCall hcall (.refuse rfl hstage) hcall')
  | giveUp _ hcall hstage he => exact .inl (turn_setCall hcall (.giveUp hstage he) hcall')
  | collect hcall hstage hdelivery =>
      exact .inl (turn_setCall hcall (.collect hstage hdelivery) hcall')
  | hand rest hnext hreply hpending =>
      exact .inl (turn_deliver
        (fun _ => .hand rfl hnext hreply (Table.mem_entries_of_get? hpending)) hcall')
  | drain =>
      obtain ⟨old, hold, heq⟩ := calls_foldl_deliver hcall'
      refine .inl ⟨old, hold, ?_⟩
      rcases heq with rfl | ⟨hj, rfl⟩
      · exact .still
      · obtain ⟨id, hid⟩ := mem_values hj
        exact .close hid
  | quiet _ hcalls => exact .inl ⟨call', hcalls ▸ hcall', .still⟩

/-- What a move begins. -/
def Move.command? : Move → Option ((UInt8 × UInt8) × Bytes)
  | begin number payload => some (number, payload)
  | _ => none

theorem Move.command?_of_not_isSending (h : m.isSending = false) : m.command? = none := by
  cases m with
  | begin => cases h
  | _ => rfl

theorem commands_register (hcall : c.calls[k]? = some call) :
    (c.register k call).calls.map Call.command = c.calls.map Call.command := by
  unfold Connection.register
  dsimp only
  split
  next old hold =>
    obtain ⟨was, hwas, hsame⟩ : ∃ was, (c.deliver old .closed).calls[k]? = some was ∧
        { call with stage := .registered }.command = was.command := by
      rw [getElem?_deliver, hcall]
      refine ⟨_, rfl, ?_⟩
      split <;> rfl
    exact (commands_setCall hwas hsame).trans (commands_deliver old .closed c)
  next => exact commands_setCall hcall rfl

/-- No call is ever lost, and each asks for what it began with. -/
theorem commands_of_effect (h : Effect c m c') :
    c'.calls.map Call.command = c.calls.map Call.command ++ m.command?.toList := by
  have hkept : ∀ {m : Move} {c' : Connection}, m.command? = none →
      c'.calls.map Call.command = c.calls.map Call.command →
      c'.calls.map Call.command = c.calls.map Call.command ++ m.command?.toList := by
    intro m c' hnone hsame
    rw [hnone, hsame, Option.toList_none, List.append_nil]
  cases h with
  | begin number payload => simp [Move.command?, Call.command]
  | register hcall => exact hkept rfl (commands_register hcall)
  | write hcall => exact hkept rfl (commands_setCall hcall rfl)
  | refuse hcall => exact hkept rfl (commands_setCall hcall rfl)
  | collect hcall => exact hkept rfl (commands_setCall hcall rfl)
  | giveUp hmove hcall =>
      exact hkept (Move.command?_of_not_isSending hmove) (commands_setCall hcall rfl)
  | hand => exact hkept rfl (commands_deliver _ _ _)
  | drain =>
      obtain ⟨calls, heq, hcommands⟩ := c.drain_eq
      refine hkept rfl ?_
      rw [heq]
      exact hcommands
  | quiet hmove hcalls =>
      exact hkept (Move.command?_of_not_isSending hmove) (congrArg (List.map Call.command) hcalls)

theorem length_le_of_effect (h : Effect c m c') : c.calls.length ≤ c'.calls.length := by
  have hlength := congrArg List.length (commands_of_effect h)
  rw [List.length_map, List.length_append, List.length_map] at hlength
  omega

theorem turn_of_call (h : Effect c m c') (hcall : c.calls[j]? = some call) :
    ∃ call', c'.calls[j]? = some call' ∧ Turn c m j call call' := by
  obtain ⟨hj, -⟩ := List.getElem?_eq_some_iff.mp hcall
  obtain ⟨call', hcall'⟩ : ∃ call', c'.calls[j]? = some call' :=
    ⟨_, List.getElem?_eq_getElem (Nat.lt_of_lt_of_le hj (length_le_of_effect h))⟩
  refine ⟨call', hcall', ?_⟩
  rcases turn_of_effect h hcall' with ⟨old, hold, hturn⟩ | ⟨rfl, -⟩
  · rw [hcall] at hold
    cases hold
    exact hturn
  · exact (Nat.lt_irrefl _ hj).elim

/-! ## Identifiers -/

/-- Each call has the identifier of its turn. -/
def Numbered (c : Connection) : Prop :=
  ∀ k call, c.calls[k]? = some call → call.id = UInt32.ofNat (k + 1)

theorem numbered_step (h : Effect c m c') (hn : c.Numbered) : c'.Numbered := by
  intro k call' hcall'
  rcases turn_of_effect h hcall' with ⟨call, hcall, hturn⟩ | ⟨rfl, number, payload, rfl⟩
  · rw [hturn.id_eq, hn k call hcall]
  · rfl

/-- As long as the identifiers do not wrap around, no two calls share one. -/
theorem Numbered.eq_of_id (hn : c.Numbered) (hcount : c.calls.length < UInt32.size)
    {a b : Call} (ha : c.calls[j]? = some a) (hb : c.calls[k]? = some b) (hid : a.id = b.id) :
    j = k := by
  obtain ⟨hj, -⟩ := List.getElem?_eq_some_iff.mp ha
  obtain ⟨hk, -⟩ := List.getElem?_eq_some_iff.mp hb
  rw [hn j a ha, hn k b hb] at hid
  have hnat := congrArg UInt32.toNat hid
  simp only [UInt32.toNat_ofNat'] at hnat
  rw [Nat.mod_eq_of_lt (show j + 1 < 2 ^ 32 from Nat.lt_of_le_of_lt hj hcount),
    Nat.mod_eq_of_lt (show k + 1 < 2 ^ 32 from Nat.lt_of_le_of_lt hk hcount)] at hnat
  omega

/-! ## The table -/

/-- The table holds calls that are under way and for which nothing was left yet; nothing is left for
a call in front of its time either. -/
structure Placed (c : Connection) : Prop where
  fresh : ∀ (k : Nat) (call : Call), c.calls[k]? = some call → call.stage = .begun →
    call.delivery = none
  entry : ∀ (id : UInt32) (k : Nat), (id, k) ∈ c.pending.entries →
    ∃ call, c.calls[k]? = some call ∧ call.id = id ∧ call.stage.IsOpen ∧ call.delivery = none

theorem Placed.isOpen (hp : c.Placed) {id : UInt32} (hentry : (id, k) ∈ c.pending.entries)
    (hcall : c.calls[k]? = some call) : call.id = id ∧ call.stage.IsOpen := by
  obtain ⟨call', hcall', hid, hopen, -⟩ := hp.entry id k hentry
  rw [hcall] at hcall'
  cases hcall'
  exact ⟨hid, hopen⟩

/-- A call that is not under way has no place in the table. -/
theorem Placed.absent (hn : c.Numbered) (hp : c.Placed) (hcount : c.calls.length < UInt32.size)
    (hcall : c.calls[k]? = some call) (hclosed : ¬ call.stage.IsOpen) (j : Nat) :
    (call.id, j) ∉ c.pending.entries := by
  intro hentry
  obtain ⟨call', hcall', hid, hopen, -⟩ := hp.entry _ j hentry
  obtain rfl := hn.eq_of_id hcount hcall' hcall hid
  rw [hcall] at hcall'
  cases hcall'
  exact hclosed hopen

theorem fresh_step (h : Effect c m c') (hp : c.Placed) {call' : Call}
    (hcall' : c'.calls[k]? = some call') (hstage : call'.stage = .begun) :
    call'.delivery = none := by
  rcases turn_of_effect h hcall' with ⟨old, hcall, hturn⟩ | ⟨rfl, number, payload, rfl⟩
  · cases hturn with
    | still => exact hp.fresh k _ hcall hstage
    | hand _ _ _ hpending =>
        have hopen := (hp.isOpen hpending hcall).2
        rw [show old.stage = .begun from hstage] at hopen
        exact hopen.elim
    | close hpending =>
        have hopen := (hp.isOpen hpending hcall).2
        rw [show old.stage = .begun from hstage] at hopen
        exact hopen.elim
    | register | write | refuse | giveUp | collect => cases hstage
  · rfl

theorem get?_eq_none_of_absent {id : UInt32} (h : ∀ j, (id, j) ∉ c.pending.entries) :
    c.pending.get? id = none := by
  cases hget : c.pending.get? id with
  | none => rfl
  | some j => exact (h j (Table.mem_entries_of_get? hget)).elim

theorem pending_register (c : Connection) (k : Nat) (call : Call) :
    (c.register k call).pending = c.pending.set call.id k := by
  unfold Connection.register
  dsimp only
  split <;> rfl

theorem getElem?_register_self (hcall : c.calls[k]? = some call) :
    (c.register k call).calls[k]? = some { call with stage := .registered } := by
  unfold Connection.register
  dsimp only
  split
  next old hold =>
    obtain ⟨was, hwas⟩ : ∃ was, (c.deliver old .closed).calls[k]? = some was := by
      rw [getElem?_deliver, hcall]
      exact ⟨_, rfl⟩
    rw [getElem?_setCall (by exact hwas), if_pos rfl]
  next => rw [getElem?_setCall (by exact hcall), if_pos rfl]

/-- Entering a call changes no call of another identifier. -/
theorem getElem?_register_of_ne (hp : c.Placed) (hcall : c.calls[k]? = some call) {other : Call}
    (hother : c.calls[j]? = some other) (hid : other.id ≠ call.id) :
    (c.register k call).calls[j]? = some other := by
  have hne : k ≠ j := by
    rintro rfl
    rw [hcall] at hother
    cases hother
    exact hid rfl
  unfold Connection.register
  dsimp only
  split
  next old hold =>
    obtain ⟨was, hwas⟩ : ∃ was, (c.deliver old .closed).calls[k]? = some was := by
      rw [getElem?_deliver, hcall]
      exact ⟨_, rfl⟩
    have hold' : old ≠ j := by
      rintro rfl
      exact hid (hp.isOpen (Table.mem_entries_of_get? hold) hother).1
    rw [getElem?_setCall (by exact hwas), if_neg hne]
    exact (getElem?_deliver_of_ne hold').trans hother
  next =>
    rw [getElem?_setCall (by exact hcall), if_neg hne]
    exact hother

/-- The table has one place for each identifier. -/
theorem distinct_step (h : Effect c m c') (hd : c.pending.keys.Nodup) : c'.pending.keys.Nodup := by
  cases h with
  | @register k call hcall hstage =>
      rw [pending_register]
      exact Table.nodup_keys_set hd call.id k
  | refuse => exact Table.nodup_keys_erase hd _
  | giveUp => exact Table.nodup_keys_erase hd _
  | hand => exact Table.nodup_keys_erase hd _
  | drain =>
      obtain ⟨calls, heq, -⟩ := c.drain_eq
      rw [heq]
      exact List.nodup_nil
  | begin | write | collect => exact hd
  | quiet _ _ hpending => exact hpending ▸ hd

/-- A call that gives up its place leaves the other places as they are. -/
theorem Placed.giveUp (hp : c.Placed) (hcall : c.calls[k]? = some call) {e : JdwpError}
    {id : UInt32} (hentry : (id, j) ∈ (c.giveUp k call e).pending.entries) :
    ∃ call', (c.giveUp k call e).calls[j]? = some call' ∧ call'.id = id ∧ call'.stage.IsOpen ∧
      call'.delivery = none := by
  obtain ⟨hentry, hne⟩ := Table.mem_entries_erase.mp hentry
  obtain ⟨call', hcall', hid, hopen, hdelivery⟩ := hp.entry id j hentry
  refine ⟨call', ?_, hid, hopen, hdelivery⟩
  rw [Connection.giveUp, getElem?_setCall (by exact hcall), if_neg ?_]
  · exact hcall'
  · rintro rfl
    rw [hcall] at hcall'
    cases hcall'
    exact hne hid.symm

theorem placed_step (h : Effect c m c') (hd : c.pending.keys.Nodup) (hp : c.Placed) :
    c'.Placed := by
  refine ⟨fun k call' => fresh_step h hp, fun id j hentry => ?_⟩
  cases h with
  | begin number payload =>
      obtain ⟨call, hcall, hrest⟩ := hp.entry id j hentry
      obtain ⟨hj, -⟩ := List.getElem?_eq_some_iff.mp hcall
      exact ⟨call, (List.getElem?_append_left hj).trans hcall, hrest⟩
  | @register k call hcall hstage =>
      rw [pending_register] at hentry
      rcases Table.mem_entries_of_set_of_nodup hd hentry with heq | ⟨hentry, hid⟩
      · cases heq
        exact ⟨_, getElem?_register_self hcall, rfl, trivial, hp.fresh _ call hcall hstage⟩
      · obtain ⟨other, hother, rfl, hopen, hdelivery⟩ := hp.entry id j hentry
        exact ⟨other, getElem?_register_of_ne hp hcall hother hid, rfl, hopen, hdelivery⟩
  | @write k call hcall hstage =>
      obtain ⟨call', hcall', hid, hopen, hdelivery⟩ := hp.entry id j hentry
      rw [getElem?_setCall (by exact hcall)]
      split
      next hk =>
        subst hk
        rw [hcall] at hcall'
        cases hcall'
        exact ⟨_, rfl, hid, trivial, hdelivery⟩
      next => exact ⟨call', hcall', hid, hopen, hdelivery⟩
  | refuse hcall => exact hp.giveUp hcall hentry
  | giveUp _ hcall => exact hp.giveUp hcall hentry
  | @collect k call d hcall hstage hd =>
      -- A call with something to collect has no entry, so no entry is that call's.
      obtain ⟨call', hcall', hid, hopen, hdelivery⟩ := hp.entry id j hentry
      refine ⟨call', ?_, hid, hopen, hdelivery⟩
      rw [getElem?_setCall hcall, if_neg ?_]
      · exact hcall'
      · rintro rfl
        rw [hcall] at hcall'
        cases hcall'
        rw [hd] at hdelivery
        cases hdelivery
  | @hand p k rest hnext hreply hpending =>
      obtain ⟨hentry, hne⟩ := Table.mem_entries_erase.mp hentry
      obtain ⟨call', hcall', hid, hopen, hdelivery⟩ := hp.entry id j hentry
      refine ⟨call', ?_, hid, hopen, hdelivery⟩
      rw [getElem?_deliver_of_ne ?_]
      · exact hcall'
      · rintro rfl
        exact hne (hid.symm.trans (hp.isOpen (Table.mem_entries_of_get? hpending) hcall').1)
  | drain =>
      obtain ⟨calls, heq, -⟩ := c.drain_eq
      rw [heq] at hentry
      cases hentry
  | quiet _ hcalls hpending =>
      rw [hpending] at hentry
      rw [hcalls]
      exact hp.entry id j hentry

/-! ## What the callers hear -/

/-- After call `k` was entered into the table, the reader took packet `p`. -/
def TakesAfter (moves : List Move) (k : Nat) (p : Packet) : Prop :=
  ∃ before between after c, moves = before ++ .register k :: between ++ .read :: after ∧
    run (before ++ .register k :: between) {} = some c ∧ c.next? = some p

/-- After call `k` was entered into the table, the reader took a reply to `id`. -/
def Answers (moves : List Move) (k : Nat) (id : UInt32) (code : UInt16) (payload : Bytes) : Prop :=
  ∃ p, TakesAfter moves k p ∧ p.isReply = true ∧ p.id = id ∧ p.errorCode = code ∧
    p.payload = payload

theorem Answers.later {id : UInt32} {code : UInt16} {payload : Bytes}
    (h : Answers moves k id code payload) (m : Move) :
    Answers (moves ++ [m]) k id code payload := by
  obtain ⟨p, ⟨before, between, after, c, rfl, hrun, hnext⟩, hreply⟩ := h
  exact ⟨p, ⟨before, between, after ++ [m], c, by simp, hrun, hnext⟩, hreply⟩

/-- What was left for a call was a reply to it, and so is the payload that the call returned. -/
structure Heard (moves : List Move) (k : Nat) (call : Call) : Prop where
  entered : call.stage ≠ .begun → .register k ∈ moves
  left : ∀ code payload, call.delivery = some (.reply code payload) →
    Answers moves k call.id code payload
  returned : ∀ payload, call.stage = .returned (.ok payload) → Answers moves k call.id 0 payload

theorem Heard.later (h : Heard moves k call) (m : Move) : Heard (moves ++ [m]) k call where
  entered hstage := List.mem_append_left _ (h.entered hstage)
  left code payload hd := (h.left code payload hd).later m
  returned payload hstage := (h.returned payload hstage).later m

theorem heard_turn (hrun : run moves {} = some c) (hp : c.Placed)
    (hcall : c.calls[j]? = some call) (h : Heard moves j call) {call' : Call}
    (hturn : Turn c m j call call') : Heard (moves ++ [m]) j call' := by
  have later := h.later m
  cases hturn with
  | still => exact later
  | register hmove hstage =>
      exact ⟨fun _ => by simp [hmove], later.left, nofun⟩
  | write hmove hstage =>
      exact ⟨fun _ => later.entered (by simp [hstage]), later.left, nofun⟩
  | refuse _ hstage => exact ⟨fun _ => later.entered (by simp [hstage]), later.left, nofun⟩
  | giveUp hstage => exact ⟨fun _ => later.entered (by simp [hstage]), later.left, nofun⟩
  | @collect d hstage hd =>
      refine ⟨fun _ => later.entered (by simp [hstage]), later.left, fun payload hreturned => ?_⟩
      have hresult : d.result = .ok payload := CallStage.returned.inj hreturned
      cases d with
      | closed => cases hresult
      | reply code payload' =>
          simp only [Delivery.result] at hresult
          split at hresult
          next hcode =>
            cases hresult
            exact later.left 0 payload (hcode ▸ hd)
          next => cases hresult
  | @hand p hmove hnext hreply hentry =>
      obtain ⟨hid, hopen⟩ := hp.isOpen hentry hcall
      have hentered : .register j ∈ moves := h.entered fun hbegun => by
        rw [hbegun] at hopen
        exact hopen
      obtain ⟨before, between, rfl⟩ := List.append_of_mem hentered
      refine ⟨later.entered, fun code payload hd => ?_, later.returned⟩
      cases hd
      exact ⟨p, ⟨before, between, [], c, by rw [hmove], hrun, hnext⟩, hreply, hid.symm, rfl, rfl⟩
  | close => exact ⟨later.entered, nofun, later.returned⟩

/-! ## What goes out -/

/-- What the calls of a history ask for, in the order in which they began. -/
def commands (moves : List Move) : List ((UInt8 × UInt8) × Bytes) :=
  moves.filterMap Move.command?

/-- The packet in which call `k` of a history asks for its command. -/
def asked? (moves : List Move) (k : Nat) : Option Packet :=
  (commands moves)[k]?.map fun (number, payload) =>
    { id := UInt32.ofNat (k + 1), flags := 0, first := number.1, second := number.2, payload }

/-- The packet of call `k` went out. -/
def Wrote (c : Connection) (k : Nat) : Prop :=
  ∃ call, c.calls[k]? = some call ∧ call.stage.IsWritten

/-- The line refused the packet of call `k`. -/
def Refused (c : Connection) (k : Nat) : Prop :=
  ∃ call, c.calls[k]? = some call ∧ call.stage = .returned (.error .transport)

/-- What call `k` put on the line: its packet, or less than that when the line refused the rest. -/
def Piece (moves : List Move) (c : Connection) (k : Nat) (bytes : Bytes) : Prop :=
  ∃ p, asked? moves k = some p ∧
    (c.Wrote k ∧ bytes = p.encode ∨
      c.Refused k ∧ ∃ n, .refuse k n ∈ moves ∧ n < p.encode.length ∧ bytes = p.encode.take n)

/-- The bytes sent are put together from pieces, one for each call that was at the line. -/
def Pieced (moves : List Move) (c : Connection) : Prop :=
  ∃ pieces : List (Nat × Bytes), (pieces.map Prod.fst).Nodup ∧
    (∀ k bytes, (k, bytes) ∈ pieces → Piece moves c k bytes) ∧
    (∀ k, c.Wrote k ∨ c.Refused k → k ∈ pieces.map Prod.fst) ∧
    c.sent = pieces.flatMap Prod.snd

/-- Each call asks for the command that it began with. -/
def Asked (moves : List Move) (c : Connection) : Prop :=
  c.calls.map Call.command = commands moves

theorem asked_step (h : Effect c m c') (ha : Asked moves c) : Asked (moves ++ [m]) c' := by
  unfold Asked commands
  rw [commands_of_effect h, ha, commands, List.filterMap_append]
  cases hm : m.command? with
  | none => simp [hm]
  | some command => simp [hm]

theorem Asked.asked? (ha : Asked moves c) (hn : c.Numbered) (hcall : c.calls[k]? = some call) :
    asked? moves k = some call.packet := by
  have hcommand : (commands moves)[k]? = some call.command := by
    rw [← ha, List.getElem?_map, hcall, Option.map_some]
  rw [Connection.asked?, hcommand, Call.packet, hn k call hcall]
  rfl

theorem asked?_concat {p : Packet} (h : asked? moves k = some p) (m : Move) :
    asked? (moves ++ [m]) k = some p := by
  obtain ⟨command, hcommand, rfl⟩ := Option.map_eq_some_iff.mp h
  obtain ⟨hk, -⟩ := List.getElem?_eq_some_iff.mp hcommand
  have hmore : (commands (moves ++ [m]))[k]? = some command := by
    rw [commands, List.filterMap_append]
    exact (List.getElem?_append_left hk).trans hcommand
  rw [asked?, hmore]
  rfl

/-- A property of a call's stage that its move does not change, and that no new call has. -/
theorem stage_iff {P : CallStage → Prop} (h : Effect c m c') (hbegun : ¬P .begun)
    (hturn : ∀ call call', Turn c m j call call' → (P call'.stage ↔ P call.stage)) :
    (∃ call, c'.calls[j]? = some call ∧ P call.stage) ↔
      ∃ call, c.calls[j]? = some call ∧ P call.stage := by
  constructor
  · rintro ⟨call', hcall', hP⟩
    rcases turn_of_effect h hcall' with ⟨call, hcall, hcase⟩ | ⟨-, number, payload, rfl⟩
    · exact ⟨call, hcall, (hturn call call' hcase).mp hP⟩
    · exact (hbegun hP).elim
  · rintro ⟨call, hcall, hP⟩
    obtain ⟨call', hcall', hcase⟩ := turn_of_call h hcall
    exact ⟨call', hcall', (hturn call call' hcase).mpr hP⟩

/-- Only its own move to the line brings a call there. -/
theorem line_iff (h : Effect c m c') (hwrite : m ≠ .write j) (hrefuse : ∀ n, m ≠ .refuse j n) :
    (c'.Wrote j ↔ c.Wrote j) ∧ (c'.Refused j ↔ c.Refused j) := by
  constructor
  · refine stage_iff h (by simp [CallStage.IsWritten]) fun call call' hturn => ?_
    cases hturn with
    | still | hand | close => exact Iff.rfl
    | register _ hstage => simp [CallStage.IsWritten, hstage]
    | write hmove => exact (hwrite hmove).elim
    | refuse hmove => exact (hrefuse _ hmove).elim
    | giveUp hstage he => simp [CallStage.IsWritten, hstage, he]
    | @collect d hstage => simp [CallStage.IsWritten, hstage, d.result_ne_transport]
  · refine stage_iff (P := (· = .returned (.error .transport))) h nofun fun call call' hturn => ?_
    cases hturn with
    | still | hand | close => exact Iff.rfl
    | register _ hstage => simp [hstage]
    | write hmove => exact (hwrite hmove).elim
    | refuse hmove => exact (hrefuse _ hmove).elim
    | giveUp hstage he => simp [hstage, he]
    | @collect d hstage => simp [hstage, d.result_ne_transport]

/-- A piece stays what it is when another call moves. -/
theorem Piece.later {bytes : Bytes} (hs : Piece moves c k bytes) (h : Effect c m c')
    (hwrite : m ≠ .write k) (hrefuse : ∀ n, m ≠ .refuse k n) :
    Piece (moves ++ [m]) c' k bytes := by
  obtain ⟨hwrote, hrefused⟩ := line_iff h hwrite hrefuse
  obtain ⟨p, hp, ⟨hw, hbytes⟩ | ⟨hr, n, hn, hshort, hbytes⟩⟩ := hs
  · exact ⟨p, asked?_concat hp m, .inl ⟨hwrote.mpr hw, hbytes⟩⟩
  · refine ⟨p, asked?_concat hp m, .inr ⟨hrefused.mpr hr, n, ?_, hshort, hbytes⟩⟩
    exact List.mem_append_left _ hn

/-- A move that is none to the line sends nothing. -/
theorem sent_of_effect (h : Effect c m c') (hwrite : ∀ k, m ≠ .write k)
    (hrefuse : ∀ k n, m ≠ .refuse k n) : c'.sent = c.sent := by
  cases h with
  | @write k => exact (hwrite k rfl).elim
  | @refuse k n => exact (hrefuse k n rfl).elim
  | register =>
      unfold Connection.register
      dsimp only
      split <;> rfl
  | drain =>
      obtain ⟨calls, heq, -⟩ := c.drain_eq
      rw [heq]
  | quiet _ _ _ hsent => exact hsent
  | begin | giveUp | collect | hand => rfl

/-- A call that comes to the line adds its piece to those of the others. -/
theorem Pieced.snoc (hp : Pieced moves c) (h : Effect c m c') {bytes : Bytes}
    (hcall : c.calls[k]? = some call) (hstage : call.stage = .registered)
    (hothers : ∀ j, j ≠ k → m ≠ .write j ∧ ∀ n, m ≠ .refuse j n)
    (hnew : Piece (moves ++ [m]) c' k bytes) (hsent : c'.sent = c.sent ++ bytes) :
    Pieced (moves ++ [m]) c' := by
  obtain ⟨pieces, hnodup, hpieces, hall, heq⟩ := hp
  -- It has not been at the line before, so none of the pieces is its own.
  have hpast : ¬(c.Wrote k ∨ c.Refused k) := by
    rintro (⟨call', hcall', hstage'⟩ | ⟨call', hcall', hstage'⟩) <;>
      · rw [hcall] at hcall'
        cases hcall'
        simp [hstage, CallStage.IsWritten] at hstage'
  have hfresh : k ∉ pieces.map Prod.fst := by
    intro hmem
    obtain ⟨⟨_, bytes'⟩, hpiece, rfl⟩ := List.mem_map.mp hmem
    obtain ⟨p, -, ⟨hw, -⟩ | ⟨hr, -⟩⟩ := hpieces _ _ hpiece
    · exact hpast (.inl hw)
    · exact hpast (.inr hr)
  refine ⟨pieces ++ [(k, bytes)], ?_, fun j bytes' hmem => ?_, fun j hj => ?_, ?_⟩
  · rw [List.map_append, List.nodup_append]
    refine ⟨hnodup, by simp, fun a ha b hb hab => hfresh ?_⟩
    rw [List.map_singleton, List.mem_singleton] at hb
    have hkey : a = k := hab.trans hb
    rw [← hkey]
    exact ha
  · rcases List.mem_append.mp hmem with hold | hlast
    · have hne : j ≠ k := by
        rintro rfl
        exact hfresh (List.mem_map_of_mem hold)
      exact (hpieces j bytes' hold).later h (hothers j hne).1 (hothers j hne).2
    · cases List.mem_singleton.mp hlast
      exact hnew
  · rw [List.map_append, List.mem_append]
    by_cases hjk : j = k
    · exact .inr (List.mem_singleton.mpr hjk)
    · obtain ⟨hwrote, hrefused⟩ := line_iff h (hothers j hjk).1 (hothers j hjk).2
      exact .inl (hall j (hj.imp hwrote.mp hrefused.mp))
  · rw [hsent, heq, List.flatMap_append, List.flatMap_singleton]

theorem pieced_step (h : Effect c m c') (hn : c.Numbered) (ha : Asked moves c)
    (hp : Pieced moves c) : Pieced (moves ++ [m]) c' := by
  -- A move that is none to the line leaves every call where it is, and all the pieces with it.
  have haway : (∀ k, m ≠ .write k) → (∀ k n, m ≠ .refuse k n) → Pieced (moves ++ [m]) c' := by
    intro hwrite hrefuse
    obtain ⟨pieces, hnodup, hpieces, hall, hsent⟩ := hp
    refine ⟨pieces, hnodup, fun k bytes hmem => ?_, fun k hk => ?_, ?_⟩
    · exact (hpieces k bytes hmem).later h (hwrite k) (hrefuse k)
    · obtain ⟨hwrote, hrefused⟩ := line_iff h (hwrite k) (hrefuse k)
      exact hall k (hk.imp hwrote.mp hrefused.mp)
    · rw [sent_of_effect h hwrite hrefuse, hsent]
  cases h with
  | @write k call hcall hstage =>
      have h := Effect.write hcall hstage
      have hpacket := asked?_concat (ha.asked? hn hcall) (.write k)
      refine hp.snoc h hcall hstage (fun j hj => ⟨?_, nofun⟩) ⟨_, hpacket, .inl ⟨?_, rfl⟩⟩ rfl
      · rintro ⟨⟩
        exact hj rfl
      · exact ⟨_, (getElem?_setCall (by exact hcall)).trans (if_pos rfl), trivial⟩
  | @refuse k n call hcall hstage hshort =>
      have h := Effect.refuse hcall hstage hshort
      have hpacket := asked?_concat (ha.asked? hn hcall) (.refuse k n)
      refine hp.snoc h hcall hstage (fun j hj => ⟨nofun, ?_⟩)
        ⟨_, hpacket, .inr ⟨?_, n, by simp, hshort, rfl⟩⟩ rfl
      · rintro n' ⟨⟩
        exact hj rfl
      · exact ⟨_, (getElem?_setCall (by exact hcall)).trans (if_pos rfl), rfl⟩
  | giveUp hmove =>
      refine haway ?_ ?_
      · rintro k rfl
        cases hmove
      · rintro k n rfl
        cases hmove
  | quiet hmove =>
      refine haway ?_ ?_
      · rintro k rfl
        cases hmove
      · rintro k n rfl
        cases hmove
  | begin | register | collect | hand | drain => exact haway nofun nofun

/-! ## Histories -/

/-- What holds of a connection after the moves `moves`. -/
structure Kept (moves : List Move) (c : Connection) : Prop where
  numbered : c.Numbered
  distinct : c.pending.keys.Nodup
  placed : c.Placed
  asked : Asked moves c
  pieced : Pieced moves c
  heard : ∀ (k : Nat) (call : Call), c.calls[k]? = some call → Heard moves k call

theorem kept_empty : Kept [] {} where
  numbered := nofun
  distinct := List.nodup_nil
  placed := ⟨nofun, nofun⟩
  asked := rfl
  pieced := ⟨[], List.nodup_nil, nofun, fun k => by simp [Wrote, Refused], rfl⟩
  heard := nofun

theorem run_concat (moves : List Move) (m : Move) (c : Connection) :
    run (moves ++ [m]) c = (run moves c).bind fun c => c.move? m := by
  simp [run, List.foldlM_append]

theorem kept_step (hrun : run moves {} = some c) (hkept : Kept moves c)
    (h : Effect c m c') : Kept (moves ++ [m]) c' where
  numbered := numbered_step h hkept.numbered
  distinct := distinct_step h hkept.distinct
  placed := placed_step h hkept.distinct hkept.placed
  asked := asked_step h hkept.asked
  pieced := pieced_step h hkept.numbered hkept.asked hkept.pieced
  heard k call' hcall' := by
    rcases turn_of_effect h hcall' with ⟨call, hcall, hturn⟩ | ⟨-, number, payload, rfl⟩
    · exact heard_turn hrun hkept.placed hcall (hkept.heard k call hcall) hturn
    · exact ⟨fun hstage => (hstage rfl).elim, nofun, nofun⟩

theorem kept_of_run (h : run moves {} = some c) : Kept moves c := by
  induction moves using List.reverseRecOn generalizing c with
  | nil =>
      cases h
      exact kept_empty
  | append_singleton moves m ih =>
      rw [run_concat] at h
      obtain ⟨before, hbefore, hmove⟩ := Option.bind_eq_some_iff.mp h
      exact kept_step hbefore (ih hbefore) (effect_of_move hmove)

theorem result?_eq_some {r : Except JdwpError Bytes} :
    c.result? k = some r ↔ ∃ call, c.calls[k]? = some call ∧ call.stage = .returned r := by
  unfold result?
  cases c.calls[k]? with
  | none => simp
  | some call =>
      cases hstage : call.stage with
      | returned r' => simp [hstage]
      | _ => simp [hstage]

/-- A reply that the reader takes next reaches the one call of its identifier, if any. -/
theorem calls_read {p : Packet} (hp : c.Placed) (hnext : c.next? = some p)
    (hreply : p.isReply = true) (h : c.move? .read = some c')
    (hother : c'.calls[k]? ≠ c.calls[k]?) :
    ∃ call, c.calls[k]? = some call ∧ call.id = p.id := by
  obtain ⟨rest, hread⟩ := read_next hnext
  rw [h] at hread
  obtain rfl := Option.some.inj hread
  cases hpending : c.pending.get? p.id with
  | none => simp [accept, hreply, hpending] at hother
  | some j =>
      obtain ⟨call, hcall, hid, -⟩ := hp.entry _ j (Table.mem_entries_of_get? hpending)
      by_cases hj : j = k
      · exact ⟨call, hj ▸ hcall, hid⟩
      · refine (hother ?_).elim
        simp only [accept, hreply, hpending, ↓reduceIte]
        rw [getElem?_deliver_of_ne hj]

theorem read_unheard {p : Packet} (hkept : Kept moves c) (hcount : c.calls.length < UInt32.size)
    (hnext : c.next? = some p) (hreply : p.isReply = true) (hcall : c.calls[k]? = some call)
    (hid : p.id = call.id) (hreturned : c.result? k ≠ none) :
    ∃ rest, c.move? .read = some { c with unread := rest } := by
  obtain ⟨r, hresult⟩ := Option.ne_none_iff_exists'.mp hreturned
  obtain ⟨call', hcall', hstage⟩ := result?_eq_some.mp hresult
  rw [hcall] at hcall'
  cases hcall'
  have habsent := hkept.placed.absent hkept.numbered hcount hcall (by rw [hstage]; exact fun h => h)
  obtain ⟨rest, hread⟩ := read_next hnext
  refine ⟨rest, hread.trans ?_⟩
  simp [accept, hreply, hid, get?_eq_none_of_absent habsent]

/-- Where no refused packet has left anything on the line, what is there is whole packets, one for
each call that wrote. -/
theorem Pieced.whole (hp : Pieced moves c) (hclean : ∀ k n, .refuse k n ∈ moves → n = 0) :
    ∃ order : List Nat, order.Nodup ∧ (∀ k, k ∈ order ↔ c.Wrote k) ∧
      c.sent = (order.filterMap (asked? moves)).flatMap Packet.encode := by
  obtain ⟨pieces, hnodup, hpieces, hall, hsent⟩ := hp
  refine ⟨(pieces.filter fun piece => !piece.2.isEmpty).map Prod.fst, ?_, fun k => ?_, ?_⟩
  · exact (List.filter_sublist.map Prod.fst).nodup hnodup
  · constructor
    · intro hk
      obtain ⟨⟨k, bytes⟩, hmem, rfl⟩ := List.mem_map.mp hk
      obtain ⟨hmem, hsome⟩ := List.mem_filter.mp hmem
      obtain ⟨p, -, ⟨hw, -⟩ | ⟨-, n, hn, -, rfl⟩⟩ := hpieces k bytes hmem
      · exact hw
      · rw [hclean k n hn] at hsome
        cases hsome
    · intro hw
      obtain ⟨⟨k, bytes⟩, hmem, rfl⟩ := List.mem_map.mp (hall k (.inl hw))
      refine List.mem_map.mpr ⟨(k, bytes), List.mem_filter.mpr ⟨hmem, ?_⟩, rfl⟩
      obtain ⟨p, -, ⟨-, rfl⟩ | ⟨hr, -⟩⟩ := hpieces k bytes hmem
      · simp [Packet.encode]
      · obtain ⟨call, hcall, hwritten⟩ := hw
        obtain ⟨call', hcall', hstage⟩ := hr
        rw [hcall] at hcall'
        cases hcall'
        rw [hstage] at hwritten
        exact (hwritten rfl).elim
  · rw [hsent]
    -- Piece by piece: one of a refused call is empty, and another is the packet of its call.
    have heach : ∀ piece ∈ pieces, piece.2 = [] ∨
        ∃ p, asked? moves piece.1 = some p ∧ piece.2 = p.encode := by
      rintro ⟨k, bytes⟩ hmem
      obtain ⟨p, hp, ⟨-, rfl⟩ | ⟨-, n, hn, -, rfl⟩⟩ := hpieces k bytes hmem
      · exact .inr ⟨p, hp, rfl⟩
      · exact .inl (by rw [hclean k n hn]; rfl)
    clear hnodup hpieces hall hsent
    induction pieces with
    | nil => rfl
    | cons piece pieces ih =>
        have hrest := ih fun q hq => heach q (List.mem_cons_of_mem piece hq)
        rw [List.flatMap_cons, hrest]
        rcases heach piece List.mem_cons_self with hnil | ⟨p, hp, hbytes⟩
        · simp [hnil]
        · have hne : piece.2.isEmpty = false := by simp [hbytes, Packet.encode]
          rw [List.filter_cons_of_pos (by simp [hne]), List.map_cons, List.filterMap_cons_some hp,
            List.flatMap_cons, hbytes]

/-- Whatever callers, reader, clock and the other side do, in any order, as long as the identifiers
do not wrap around: no two calls share an identifier; a call that returns a payload returns the one
of a reply to its own identifier, without an error code, that the reader took after the call was
entered; a reply changes one call at most; a reply to a call that has returned is passed over and
changes nothing; what went out is put together from pieces, one for each call that wrote its packet
or had it refused, namely the packet of the command that the call began with, or the part of it that
the line took before it refused the rest; so it is whole packets, one for each call that wrote, if
no refused packet has left anything on the line; and the identifiers in the table are those of calls
that have not returned. -/
theorem calls_apart (h : run moves {} = some c) (hcount : c.calls.length < UInt32.size) :
    (∀ (j k : Nat) (a b : Call), c.calls[j]? = some a → c.calls[k]? = some b → a.id = b.id →
      j = k) ∧
    (∀ k payload, c.result? k = some (.ok payload) → ∃ call p, c.calls[k]? = some call ∧
      TakesAfter moves k p ∧ p.isReply = true ∧ p.id = call.id ∧ p.errorCode = 0 ∧
      p.payload = payload) ∧
    (∀ p c', c.next? = some p → p.isReply = true → c.move? .read = some c' → ∀ j k : Nat,
      c'.calls[j]? ≠ c.calls[j]? → c'.calls[k]? ≠ c.calls[k]? → j = k) ∧
    (∀ (p : Packet) (k : Nat) (call : Call), c.next? = some p → p.isReply = true →
      c.calls[k]? = some call → p.id = call.id → c.result? k ≠ none →
      ∃ rest, c.move? .read = some { c with unread := rest }) ∧
    (∃ pieces : List (Nat × Bytes), (pieces.map Prod.fst).Nodup ∧
      (∀ k bytes, (k, bytes) ∈ pieces → Piece moves c k bytes) ∧
      (∀ k, c.Wrote k ∨ c.Refused k → k ∈ pieces.map Prod.fst) ∧
      c.sent = pieces.flatMap Prod.snd) ∧
    ((∀ k n, .refuse k n ∈ moves → n = 0) → ∃ order : List Nat, order.Nodup ∧
      (∀ k, k ∈ order ↔ c.Wrote k) ∧
      c.sent = (order.filterMap (asked? moves)).flatMap Packet.encode) ∧
    ∀ id ∈ c.pending.keys, ∃ k call, c.calls[k]? = some call ∧ call.id = id ∧
      c.result? k = none := by
  have hkept := kept_of_run h
  refine ⟨fun j k a b ha hb hid => hkept.numbered.eq_of_id hcount ha hb hid, ?_, ?_, ?_,
    hkept.pieced, hkept.pieced.whole, ?_⟩
  · intro k payload hresult
    obtain ⟨call, hcall, hstage⟩ := result?_eq_some.mp hresult
    obtain ⟨p, htakes, hreply⟩ := (hkept.heard k call hcall).returned payload hstage
    exact ⟨call, p, hcall, htakes, hreply⟩
  · intro p c' hnext hreply hread j k hj hk
    obtain ⟨a, ha, haid⟩ := calls_read hkept.placed hnext hreply hread hj
    obtain ⟨b, hb, hbid⟩ := calls_read hkept.placed hnext hreply hread hk
    exact hkept.numbered.eq_of_id hcount ha hb (haid.trans hbid.symm)
  · intro p k call hnext hreply hcall hid hreturned
    exact read_unheard hkept hcount hnext hreply hcall hid hreturned
  · intro id hid
    obtain ⟨⟨id, k⟩, hentry, rfl⟩ := List.mem_map.mp hid
    obtain ⟨call, hcall, hid, hopen, -⟩ := hkept.placed.entry id k hentry
    refine ⟨k, call, hcall, hid, ?_⟩
    cases hresult : c.result? k with
    | none => rfl
    | some r =>
        obtain ⟨call', hcall', hstage⟩ := result?_eq_some.mp hresult
        rw [hcall] at hcall'
        cases hcall'
        rw [hstage] at hopen
        exact hopen.elim

/-- Two calls at once: the first gives up before its reply comes, the second is answered. -/
def lateReply : List Move :=
  [.begin (1, 1) [], .begin (1, 7) [5], .register 1, .register 0, .write 0, .write 1, .timeOut 0,
    .arrive ((Packet.reply 1 0 [9]).encode ++ (Packet.reply 2 0 [8]).encode), .read, .read,
    .collect 1]

/-- The second call returns the payload of the second reply and not that of the first. -/
theorem calls_apart_of_lateReply :
    ∃ c, run lateReply {} = some c ∧ c.calls.length < UInt32.size ∧
      c.result? 0 = some (.error .timeout) ∧ c.result? 1 = some (.ok [8]) ∧
      ∃ call p, c.calls[1]? = some call ∧ TakesAfter lateReply 1 p ∧ p.isReply = true ∧
        p.id = call.id ∧ p.errorCode = 0 ∧ p.payload = [8] := by
  obtain ⟨c, hrun⟩ : ∃ c, run lateReply {} = some c := ⟨_, rfl⟩
  have hlength : c.calls.length < UInt32.size := by
    cases hrun
    decide
  have hfirst : c.result? 0 = some (.error .timeout) := by
    cases hrun
    rfl
  have hsecond : c.result? 1 = some (.ok [8]) := by
    cases hrun
    rfl
  exact ⟨c, hrun, hlength, hfirst, hsecond, (calls_apart hrun hlength).2.1 1 [8] hsecond⟩

/-- The line refuses the first packet after five bytes of it, and takes all of the second. -/
def tornWrite : List Move :=
  [.begin (1, 9) [], .begin (1, 7) [], .register 0, .register 1, .refuse 0 5, .write 1]

/-- Then what was sent is no sequence of whole packets. -/
theorem sent_of_tornWrite :
    ∃ c, run tornWrite {} = some c ∧ c.calls.length < UInt32.size ∧
      c.sent = [0, 0, 0, 11, 0] ++ [0, 0, 0, 11, 0, 0, 0, 2, 0, 1, 7] ∧
      ∀ ps : List Packet, c.sent ≠ ps.flatMap Packet.encode := by
  obtain ⟨c, hrun⟩ : ∃ c, run tornWrite {} = some c := ⟨_, rfl⟩
  have hsent : c.sent = [0, 0, 0, 11, 0] ++ [0, 0, 0, 11, 0, 0, 0, 2, 0, 1, 7] := by
    cases hrun
    decide
  have hlength : c.calls.length < UInt32.size := by
    cases hrun
    decide
  refine ⟨c, hrun, hlength, hsent, fun ps heq => ?_⟩
  rw [hsent] at heq
  -- Whole packets would begin with one of eleven bytes, and five bytes are none.
  have hsize := congrArg List.length heq
  cases ps with
  | nil => cases heq
  | cons p rest =>
      have hfits : Packet.headerLength + p.payload.length < UInt32.size := by
        rw [List.flatMap_cons, @List.length_append _ p.encode, Packet.length_encode] at hsize
        exact Nat.lt_of_le_of_lt (Nat.le.intro hsize.symm) (by decide)
      have hsplit := Packet.split_encode p (rest.flatMap Packet.encode) hfits
      -- The other side finds a packet of eleven bytes, and five bytes behind it.
      have hread : Packet.split ([0, 0, 0, 11, 0] ++ [0, 0, 0, 11, 0, 0, 0, 2, 0, 1, 7])
          = .packet ⟨0, 11, 0, 0, []⟩ [0, 2, 0, 1, 7] := by decide
      rw [← List.flatMap_cons, ← heq, hread] at hsplit
      obtain ⟨-, hrest⟩ := Packet.Split.packet.inj hsplit
      cases rest with
      | nil => cases hrest
      | cons q rest =>
          have hfive := congrArg List.length hrest
          rw [List.flatMap_cons, List.length_append, Packet.length_encode] at hfive
          simp [Packet.headerLength] at hfive
          omega

end Connection

end StreamTrace
