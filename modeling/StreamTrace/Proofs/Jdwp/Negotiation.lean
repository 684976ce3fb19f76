import StreamTrace.Proofs.Jdwp.Framing

/-!
# Events before the widths are known

A client asks for the widths of identifiers by its first call, and its reader takes what arrives
meanwhile. Whatever it takes before the answer was adopted is read with the widest identifiers. So a
report of events in front of the answer, which an agent sends with the widths of its own, can end
the connection before it is made. That is all that can go wrong: if nobody gives up, a connection on
which every report could be read answers each call as the agent does.
-/

namespace StreamTrace

/-- The widths that are assumed until others are known. -/
def IdSizes.widest : IdSizes := {}

/-- The widths are read back from the reply that announces them. -/
theorem IdSizes.decode_encode {sizes : IdSizes} (hs : sizes.Allowed) :
    IdSizes.read.decode sizes.encode = .ok sizes := by
  have hcount : ∀ {n : Nat}, 1 ≤ n ∧ n ≤ 8 → Decoder.Reads Decoder.count (Encode.count n) n :=
    fun hn => Decoder.reads_count (Nat.lt_of_le_of_lt hn.2 (by decide))
  have hreads : Decoder.Reads IdSizes.read sizes.encode sizes := by
    unfold IdSizes.read IdSizes.encode
    simp only [List.flatMap_cons, List.flatMap_nil]
    refine (hcount hs.field).bind ((hcount hs.method).bind ((hcount hs.object).bind
      ((hcount hs.referenceType).bind ((hcount hs.frame).bind ?_))))
    exact Decoder.reads_pure sizes
  have hwhole := hreads.whole 0 []
  rw [List.append_nil] at hwhole
  exact congrArg Prod.fst hwhole

namespace Connection

variable {c c' d : Connection} {m : Move} {moves : List Move} {k : Nat} {call : Call}
  {p : Packet} {sizes : IdSizes} {line : List Packet}

/-! ## Clients that wait -/

/-- Whether the move leaves the connection to itself: the line holds, and nobody gives up. -/
def Move.isPatient : Move → Bool
  | timeOut _ => false
  | refuse _ _ => false
  | close => false
  | shutDown => false
  | _ => true

/-- Only who closes the line ends it, and only who adopts widths changes them. -/
theorem ended_sizes_step (h : c.move? m = some c') :
    (m ≠ .close → c'.ended = c.ended) ∧ ((∀ widths, m ≠ .adopt widths) → c'.sizes = c.sizes) := by
  have haccept : ∀ (c : Connection) (p : Packet),
      (c.accept p).ended = c.ended ∧ (c.accept p).sizes = c.sizes := by
    intro c p
    have hprocessed := accept_processed p c
    generalize c.accept p = c' at hprocessed ⊢
    cases hprocessed <;> exact ⟨rfl, rfl⟩
  cases step_of_move h with
  | adopt widths => exact ⟨fun _ => rfl, fun hw => (hw widths rfl).elim⟩
  | close => exact ⟨fun hc => (hc rfl).elim, fun _ => rfl⟩
  | @take p rest =>
      obtain ⟨hended, hsizes⟩ := haccept { c with unread := rest } p
      exact ⟨fun _ => hended, fun _ => hsizes⟩
  | register =>
      unfold register
      dsimp only
      split <;> exact ⟨fun _ => rfl, fun _ => rfl⟩
  | drain =>
      obtain ⟨calls, heq, -⟩ := c.drain_eq
      rw [heq]
      exact ⟨fun _ => rfl, fun _ => rfl⟩
  | begin | write | refuse | collect | timeOut | cancel | arrive | halt | stop | shutDown =>
      exact ⟨fun _ => rfl, fun _ => rfl⟩

/-! ### What patient callers return -/

/-- What was left for a call and what it returned: nothing but a reply, unless the connection was
called off. -/
structure Waited (c : Connection) (call : Call) : Prop where
  left : call.delivery = some .closed → c.shutdown = true
  returned : ∀ r, call.stage = .returned r → c.shutdown = true ∧ r = .error .cancelled ∨
    ∃ d, call.delivery = some d ∧ d.result = r

/-- All calls do. -/
def AllWaited (c : Connection) : Prop :=
  ∀ (j : Nat) (call : Call), c.calls[j]? = some call → c.Waited call

theorem Waited.of_open (hleft : call.delivery = some .closed → c.shutdown = true)
    (hopen : ∀ r, call.stage ≠ .returned r) : c.Waited call where
  left := hleft
  returned r hr := (hopen r hr).elim

theorem Waited.of_shutdown (hw : c.Waited call) (h : c.shutdown = true → c'.shutdown = true) :
    c'.Waited call where
  left hd := h (hw.left hd)
  returned r hr := (hw.returned r hr).imp (And.imp_left h) id

theorem AllWaited.of_calls (hw : c.AllWaited) (hcalls : c'.calls = c.calls)
    (h : c.shutdown = true → c'.shutdown = true) : c'.AllWaited :=
  fun j call hcall => (hw j call (hcalls ▸ hcall)).of_shutdown h

theorem AllWaited.setCall {new : Call} (hw : c.AllWaited) (hcall : c.calls[k]? = some call)
    (hnew : c.Waited new) (hcalls : c'.calls = (c.setCall k new).calls)
    (h : c'.shutdown = c.shutdown) : c'.AllWaited := by
  intro j call' hcall'
  rw [hcalls, getElem?_setCall hcall] at hcall'
  refine Waited.of_shutdown ?_ fun hshutdown => h.trans hshutdown
  split at hcall'
  next =>
    cases hcall'
    exact hnew
  next => exact hw j call' hcall'

/-- A packet is dealt with. -/
theorem AllWaited.accept (hw : c.AllWaited) (hp : c.Placed) (h : Processed p c c') :
    c'.AllWaited := by
  cases h with
  | @completes k hreply hpending =>
      intro j call' hcall'
      rw [getElem?_deliver] at hcall'
      obtain ⟨old, hold, rfl⟩ := Option.map_eq_some_iff.mp hcall'
      have hold : c.calls[j]? = some old := hold
      split
      next heq =>
        subst heq
        have hopen := (hp.isOpen (Table.mem_entries_of_get? hpending) hold).2
        refine ⟨nofun, fun r hr => ?_⟩
        rw [show old.stage = .returned r from hr] at hopen
        exact hopen.elim
      next => exact ⟨(hw j old hold).left, (hw j old hold).returned⟩
  | ignored => exact hw
  | reported => exact hw.of_calls rfl id
  | undecodable => exact hw.of_calls rfl fun _ => rfl
  | skipped => exact hw

/-- A call that enters the table takes no other call's place, while the identifiers differ. -/
theorem register_eq (hn : c.Numbered) (hp : c.Placed) (hcount : c.calls.length < UInt32.size)
    (hcall : c.calls[k]? = some call) (hstage : call.stage = .begun) :
    c.register k call =
      { c with pending := c.pending.set call.id k }.setCall k
        { call with stage := .registered } := by
  have habsent := hp.absent hn hcount hcall (by rw [hstage]; exact id)
  unfold register
  rw [get?_eq_none_of_absent habsent]

theorem AllWaited.step (hw : c.AllWaited) (hkept : Kept moves c) (hf : Framed moves c)
    (hcount : c.calls.length < UInt32.size) (hm : m.isPatient = true)
    (h : c.move? m = some c') : c'.AllWaited := by
  cases step_of_move h with
  | begin number payload =>
      intro j call hcall
      rw [List.getElem?_append] at hcall
      split at hcall
      next =>
        have hold := hw j call hcall
        exact ⟨hold.left, hold.returned⟩
      next =>
        obtain ⟨-, rfl⟩ := List.getElem?_eq_some_iff.mp hcall
        simp only [List.getElem_singleton]
        exact .of_open (fun h => by cases h) fun _ h => by cases h
  | @register k call hcall hstage =>
      rw [register_eq hkept.numbered hkept.placed hcount hcall hstage]
      have hnew : c.Waited { call with stage := .registered } :=
        .of_open (hw k call hcall).left fun _ h => by cases h
      exact hw.setCall hcall hnew rfl rfl
  | @write k call hcall =>
      have hnew : c.Waited { call with stage := .waiting } :=
        .of_open (hw k call hcall).left fun _ h => by cases h
      exact hw.setCall hcall hnew rfl rfl
  | @collect k call d hcall _ hdelivery =>
      have hnew : c.Waited { call with stage := .returned d.result } := by
        refine ⟨(hw k call hcall).left, fun r hr => ?_⟩
        cases hr
        exact .inr ⟨d, hdelivery, rfl⟩
      exact hw.setCall hcall hnew rfl rfl
  | @cancel k call hcall _ hshutdown =>
      have hnew : c.Waited { call with stage := .returned (.error .cancelled) } := by
        refine ⟨(hw k call hcall).left, fun r hr => ?_⟩
        cases hr
        exact .inl ⟨hshutdown, rfl⟩
      exact hw.setCall hcall hnew rfl rfl
  | @take p rest =>
      have hw' : AllWaited { c with unread := rest } := hw.of_calls rfl id
      have hp' : Placed { c with unread := rest } := ⟨hkept.placed.fresh, hkept.placed.entry⟩
      exact hw'.accept hp' (accept_processed _ _)
  | halt => exact hw.of_calls rfl fun _ => rfl
  | drain hfailing =>
      -- A reader that drains the table has called the connection off before.
      have hshutdown : c.shutdown = true := (hf.stopped (by rw [hfailing]; decide)).1
      have hshutdown' : c.drain.shutdown = true := by
        obtain ⟨calls, heq, -⟩ := c.drain_eq
        rw [heq]
        exact hshutdown
      intro j call hcall
      obtain ⟨old, hold, hcases⟩ := calls_foldl_deliver hcall
      refine ⟨fun _ => hshutdown', fun r hr => ?_⟩
      rcases hcases with rfl | ⟨hj, rfl⟩
      · exact ((hw j call hold).returned r hr).imp (fun h => ⟨hshutdown', h.2⟩) id
      · obtain ⟨id, hentry⟩ := mem_values hj
        have hopen := (hkept.placed.isOpen hentry hold).2
        rw [show old.stage = .returned r from hr] at hopen
        exact hopen.elim
  | adopt | arrive | stop => exact hw.of_calls rfl id
  | refuse | timeOut | close | shutDown => cases hm

theorem allWaited_of_run (hrun : run moves {} = some c) (hcount : c.calls.length < UInt32.size)
    (hpatient : ∀ m ∈ moves, m.isPatient = true) : c.AllWaited ∧ c.ended = false := by
  induction moves using List.reverseRecOn generalizing c with
  | nil =>
      cases hrun
      exact ⟨nofun, rfl⟩
  | append_singleton moves m ih =>
      rw [run_concat] at hrun
      obtain ⟨before, hbefore, hmove⟩ := Option.bind_eq_some_iff.mp hrun
      have hcount' := Nat.lt_of_le_of_lt (length_le_of_effect (effect_of_move hmove)) hcount
      have hm : m.isPatient = true := hpatient m (List.mem_append_right _ List.mem_cons_self)
      obtain ⟨hw, hended⟩ := ih hbefore hcount' fun m hm => hpatient m (List.mem_append_left _ hm)
      refine ⟨hw.step (kept_of_run hbefore) (framed_of_run hbefore) hcount' hm hmove, ?_⟩
      rw [(ended_sizes_step hmove).1 (by rintro rfl; cases hm), hended]

/-! ### Replies reach their calls -/

/-- What was left for a call stays. -/
theorem Turn.delivery {call' : Call} (h : Turn c m k call call') (hleft : call.delivery ≠ none) :
    call'.delivery ≠ none := by
  cases h with
  | hand => nofun
  | close => nofun
  | still | register | write | refuse | giveUp | collect => exact hleft

/-- A call that has returned does nothing any more. -/
theorem Turn.returned {call' : Call} {r : Except JdwpError Bytes} (h : Turn c m k call call')
    (hr : call.stage = .returned r) : call'.stage = .returned r := by
  cases h with
  | still | hand | close => exact hr
  | register _ hstage => rw [hr] at hstage; cases hstage
  | write _ hstage => rw [hr] at hstage; cases hstage
  | collect hstage => rw [hr] at hstage; cases hstage
  | refuse _ hstage => rw [hr] at hstage; cases hstage
  | giveUp hstage => rw [hr] at hstage; cases hstage

/-- Every call that waits for a reply stands in the table. -/
def Listed (c : Connection) : Prop :=
  ∀ (k : Nat) (call : Call), c.calls[k]? = some call → call.stage.IsOpen → call.delivery = none →
    c.pending.get? call.id = some k

/-- A call that gives up its place takes none from another. -/
theorem Listed.giveUp (hl : c.Listed) (hn : c.Numbered) (hcount : c.calls.length < UInt32.size)
    (hcall : c.calls[k]? = some call) {e : JdwpError} {j : Nat} {other : Call}
    (hother : (c.giveUp k call e).calls[j]? = some other) (hopen : other.stage.IsOpen)
    (hnone : other.delivery = none) : (c.giveUp k call e).pending.get? other.id = some j := by
  rw [Connection.giveUp, getElem?_setCall (by exact hcall)] at hother
  split at hother
  next =>
    cases hother
    exact hopen.elim
  next hj =>
    have hother : c.calls[j]? = some other := hother
    have hid : call.id ≠ other.id := fun hid => hj (hn.eq_of_id hcount hcall hother hid)
    show (c.pending.erase call.id).get? other.id = some j
    rw [Table.get?_erase_of_ne _ hid]
    exact hl j other hother hopen hnone

theorem Listed.step (hl : c.Listed) (hn : c.Numbered) (hp : c.Placed)
    (hcount : c.calls.length < UInt32.size) (hm : m ≠ .drain) (h : Effect c m c') :
    c'.Listed := by
  intro j other hother hopen hnone
  cases h with
  | begin number payload =>
      rw [List.getElem?_append] at hother
      split at hother
      next => exact hl j other hother hopen hnone
      next =>
        obtain ⟨hlength, rfl⟩ := List.getElem?_eq_some_iff.mp hother
        simp [CallStage.IsOpen] at hopen
  | @register k call hcall hstage =>
      rw [register_eq hn hp hcount hcall hstage] at hother ⊢
      rw [getElem?_setCall (by exact hcall)] at hother
      show (c.pending.set call.id k).get? other.id = some j
      rw [Table.get?_set]
      split at hother
      next hj =>
        cases hother
        rw [if_pos rfl, hj]
      next hj =>
        have hother : c.calls[j]? = some other := hother
        rw [if_neg fun hid => hj (hn.eq_of_id hcount hcall hother hid)]
        exact hl j other hother hopen hnone
  | @write k call hcall hstage =>
      rw [getElem?_setCall (by exact hcall)] at hother
      split at hother
      next hj =>
        cases hother
        have hold : call.stage.IsOpen := by
          rw [hstage]
          trivial
        exact hj ▸ hl k call hcall hold hnone
      next => exact hl j other hother hopen hnone
  | refuse hcall => exact hl.giveUp hn hcount hcall hother hopen hnone
  | giveUp _ hcall => exact hl.giveUp hn hcount hcall hother hopen hnone
  | @collect k call d hcall =>
      rw [getElem?_setCall hcall] at hother
      split at hother
      next =>
        cases hother
        exact hopen.elim
      next => exact hl j other hother hopen hnone
  | @hand p k rest hnext hreply hpending =>
      rw [getElem?_deliver] at hother
      obtain ⟨old, hold, rfl⟩ := Option.map_eq_some_iff.mp hother
      have hold : c.calls[j]? = some old := hold
      split at hopen
      next hj =>
        rw [if_pos hj] at hnone
        cases hnone
      next hj =>
        rw [if_neg hj] at hnone
        have hget := hl j old hold hopen hnone
        -- The table has one entry for an identifier, and the reply has just used it up.
        have hid : p.id ≠ old.id := by
          intro hid
          rw [hid, hget] at hpending
          exact hj (Option.some.inj hpending).symm
        show (c.pending.erase p.id).get? (if k = j then _ else old).id = some j
        rw [if_neg hj, Table.get?_erase_of_ne _ hid]
        exact hget
  | drain => exact (hm rfl).elim
  | quiet _ hcalls hpending =>
      rw [hpending]
      exact hl j other (hcalls ▸ hother) hopen hnone

theorem reading_of_move (h : c.move? m = some c') (hreading : c'.reader = .reading) :
    c.reader = .reading := by
  by_contra hstopped
  exact (stopped_step h hstopped).1 hreading

theorem listed_of_run (hrun : run moves {} = some c) (hcount : c.calls.length < UInt32.size)
    (hreading : c.reader = .reading) : c.Listed := by
  induction moves using List.reverseRecOn generalizing c with
  | nil =>
      cases hrun
      exact nofun
  | append_singleton moves m ih =>
      rw [run_concat] at hrun
      obtain ⟨before, hbefore, hmove⟩ := Option.bind_eq_some_iff.mp hrun
      have heffect := effect_of_move hmove
      have hcount' := Nat.lt_of_le_of_lt (length_le_of_effect heffect) hcount
      have hreading' := reading_of_move hmove hreading
      have hkept := kept_of_run hbefore
      refine (ih hbefore hcount' hreading').step hkept.numbered hkept.placed hcount' ?_ heffect
      rintro rfl
      simp [move?, hreading'] at hmove

/-- A call that has entered the table once does not begin again. -/
theorem entered_of_run (before between : List Move)
    (hrun : run (before ++ .register k :: between) {} = some c) :
    ∃ call, c.calls[k]? = some call ∧ call.stage ≠ .begun := by
  induction between using List.reverseRecOn generalizing c with
  | nil =>
      rw [run_concat] at hrun
      obtain ⟨d, -, hmove⟩ := Option.bind_eq_some_iff.mp hrun
      obtain ⟨call, hat, h⟩ := Option.bind_eq_some_iff.mp hmove
      obtain ⟨hcall, -⟩ := callAt?_eq_some.mp hat
      cases h
      exact ⟨_, getElem?_register_self hcall, nofun⟩
  | append_singleton between m ih =>
      rw [← List.cons_append, ← List.append_assoc, run_concat] at hrun
      obtain ⟨d, hd, hmove⟩ := Option.bind_eq_some_iff.mp hrun
      obtain ⟨call, hcall, hstage⟩ := ih hd
      obtain ⟨call', hcall', hturn⟩ := turn_of_call (effect_of_move hmove) hcall
      refine ⟨call', hcall', ?_⟩
      cases hturn with
      | still => exact hstage
      | hand => exact hstage
      | close => exact hstage
      | register => nofun
      | write => nofun
      | refuse => nofun
      | giveUp => nofun
      | collect => nofun

/-- When the reader takes a reply to a call that has entered the table, something is left for the
call, unless it has returned. -/
theorem reached_of_run (hrun : run moves {} = some c) (hcount : c.calls.length < UInt32.size)
    (hcall : c.calls[k]? = some call) (htakes : TakesAfter moves k p) (hreply : p.isReply = true)
    (hid : p.id = call.id) : call.delivery ≠ none ∨ ∃ r, call.stage = .returned r := by
  obtain ⟨before, between, after, d, rfl, hd, hnext⟩ := htakes
  -- By the moves behind the reply: what it left stays, and a call that has returned stays so.
  induction after using List.reverseRecOn generalizing c call with
  | nil =>
      rw [run_concat, hd] at hrun
      have hmove : d.move? .read = some c := hrun
      have heffect := effect_of_move hmove
      have hcount' := Nat.lt_of_le_of_lt (length_le_of_effect heffect) hcount
      have hkept := kept_of_run hd
      obtain ⟨old, hold, hstage⟩ := entered_of_run _ _ hd
      obtain ⟨call', hcall', hturn⟩ := turn_of_call heffect hold
      obtain rfl := Option.some.inj (hcall'.symm.trans hcall)
      rw [hturn.id_eq] at hid
      by_cases hreturned : ∃ r, old.stage = .returned r
      · obtain ⟨r, hr⟩ := hreturned
        exact .inr ⟨r, hturn.returned hr⟩
      have hopen : old.stage.IsOpen := by
        cases hs : old.stage with
        | begun => exact (hstage hs).elim
        | registered => trivial
        | waiting => trivial
        | returned r => exact (hreturned ⟨r, hs⟩).elim
      cases hdelivery : old.delivery with
      | some delivery =>
          have hleft : old.delivery ≠ none := hdelivery ▸ Option.some_ne_none delivery
          exact .inl (hturn.delivery hleft)
      | none =>
          have hreading : d.reader = .reading := by
            unfold next? at hnext
            split at hnext
            next hr _ => exact hr
            next => cases hnext
          have hget := listed_of_run hd hcount' hreading k old hold hopen hdelivery
          obtain ⟨rest, hread⟩ := read_next hnext
          obtain rfl := Option.some.inj (hread.symm.trans hmove)
          rw [accept, if_pos hreply, hid] at hcall
          simp only [hget] at hcall
          rw [getElem?_deliver] at hcall
          obtain ⟨was, -, rfl⟩ := Option.map_eq_some_iff.mp hcall
          rw [if_pos rfl]
          exact .inl (Option.some_ne_none _)
  | append_singleton after m ih =>
      rw [← List.cons_append, ← List.append_assoc, run_concat] at hrun
      obtain ⟨before', hbefore, hmove⟩ := Option.bind_eq_some_iff.mp hrun
      have heffect := effect_of_move hmove
      have hcount' := Nat.lt_of_le_of_lt (length_le_of_effect heffect) hcount
      obtain ⟨old, hold, -⟩ : ∃ old, before'.calls[k]? = some old ∧ old.stage ≠ .begun := by
        refine entered_of_run before (between ++ .read :: after) ?_
        rw [← hbefore]
        simp
      obtain ⟨call', hcall', hturn⟩ := turn_of_call heffect hold
      obtain rfl := Option.some.inj (hcall'.symm.trans hcall)
      rcases ih hcount' hold (hid.trans hturn.id_eq) hbefore with hleft | ⟨r, hr⟩
      · exact .inl (hturn.delivery hleft)
      · exact .inr ⟨r, hturn.returned hr⟩

/-! ## The line -/

/-- What an agent sends whose identifiers have these widths: reports of its events, and replies. To
the first call it replies with the widths. -/
structure Sends (sizes : IdSizes) (line : List Packet) : Prop where
  fits : ∀ p ∈ line, p.FitsLine
  events : ∀ p ∈ line, p.isReply = false → ∃ (id : UInt32) (policy : UInt8) (events : List Event),
    p = Packet.command id (64, 100) (Event.encodePacket sizes policy events) ∧
      ∀ e ∈ events, e.Fits sizes
  widths : ∀ p ∈ line, p.isReply = true → p.id = 1 → p.errorCode = 0 ∧ p.payload = sizes.encode

/-- A patient client on such a line. It adopts the widths that its first call returned. -/
structure Negotiates (line : List Packet) (moves : List Move) : Prop where
  patient : ∀ m ∈ moves, m.isPatient = true
  stream : arrived moves <+: line.flatMap Packet.encode
  adopts : ∀ before widths, before ++ [.adopt widths] <+: moves → ∃ d payload,
    run before {} = some d ∧ d.result? 0 = some (.ok payload) ∧
      IdSizes.read.decode payload = .ok widths

theorem Negotiates.of_prefix {before : List Move} (hn : Negotiates line moves)
    (hpre : before <+: moves) : Negotiates line before where
  patient m hm := hn.patient m (hpre.subset hm)
  stream := by
    obtain ⟨after, rfl⟩ := hpre
    refine List.IsPrefix.trans ?_ hn.stream
    rw [arrived, arrived, List.flatMap_append]
    exact List.prefix_append _ _
  adopts pre widths hadopt := hn.adopts pre widths (hadopt.trans hpre)

/-- What the reader took begins the line, and what it has not read begins the rest. -/
theorem taken_prefix (hrun : run moves {} = some c) (hfits : ∀ p ∈ line, p.FitsLine)
    (hstream : arrived moves <+: line.flatMap Packet.encode) :
    ∃ left, line = (taken moves {}).map Intake.packet ++ left ∧
      c.unread <+: left.flatMap Packet.encode := by
  have hf := framed_of_run hrun
  obtain ⟨rest, hrest⟩ := hstream
  have htaken : (taken moves {}).flatMap (fun i => i.packet.encode) =
      ((taken moves {}).map Intake.packet).flatMap Packet.encode := by
    rw [List.flatMap_map]
  have hline : ((taken moves {}).map Intake.packet).flatMap Packet.encode ++ (c.unread ++ rest) =
      line.flatMap Packet.encode := by
    rw [← hrest, hf.stream, htaken, List.append_assoc]
  have htakenFits : ∀ p ∈ (taken moves {}).map Intake.packet, p.FitsLine := by
    intro p hp
    obtain ⟨i, hi, rfl⟩ := List.mem_map.mp hp
    exact hf.fits i hi
  have hwhole := Packet.whole_append htakenFits (c.unread ++ rest)
  rw [hline, Packet.whole_flatMap hfits] at hwhole
  refine ⟨_, hwhole, rest, ?_⟩
  have hsame := hline
  rw [hwhole, List.flatMap_append] at hsame
  exact List.append_cancel_left hsame

theorem exists_taken (htakes : TakesAfter moves k p) :
    ∃ i ∈ taken moves {}, i.packet = p := by
  obtain ⟨before, between, after, d, rfl, hd, hnext⟩ := htakes
  refine ⟨⟨d.sizes, p⟩, ?_, rfl⟩
  rw [taken_append hd, taken]
  refine List.mem_append_right _ (List.mem_append_left _ ?_)
  simp [intake, hnext]

/-- A move takes one packet at most, with the widths that are known. -/
theorem intake_cases (c : Connection) (m : Move) :
    c.intake m = [] ∨ ∃ p, c.intake m = [⟨c.sizes, p⟩] ∧ m = .read := by
  cases m with
  | read =>
      cases hnext : c.next? with
      | none => exact .inl (intake_read_of_none hnext)
      | some p => exact .inr ⟨p, by simp [intake, hnext], rfl⟩
  | _ => exact .inl rfl

/-! ### Which widths are known -/

/-- A reply to the first call is among what was taken. -/
def Answered (intakes : List Intake) : Prop :=
  ∃ i ∈ intakes, i.packet.isReply = true ∧ i.packet.id = 1

theorem Answered.append {intakes : List Intake} (h : Answered intakes) (more : List Intake) :
    Answered (intakes ++ more) := by
  obtain ⟨i, hi, hfirst⟩ := h
  exact ⟨i, List.mem_append_left _ hi, hfirst⟩

theorem id_first (hkept : Kept moves c) (hcall : c.calls[0]? = some call) : call.id = 1 :=
  hkept.numbered 0 call hcall

/-- A reply that was left for the first call announces the widths. -/
theorem answered_of_answers (hline : Sends sizes line) (hn : Negotiates line moves)
    (hrun : run moves {} = some c) {code : UInt16} {payload : Bytes}
    (h : Answers moves 0 1 code payload) :
    Answered (taken moves {}) ∧ code = 0 ∧ payload = sizes.encode := by
  obtain ⟨p, htakes, hreply, hid, rfl, rfl⟩ := h
  obtain ⟨i, hi, rfl⟩ := exists_taken htakes
  obtain ⟨left, hleft, -⟩ := taken_prefix hrun hline.fits hn.stream
  have hmem : i.packet ∈ line := by
    rw [hleft]
    exact List.mem_append_left _ (List.mem_map.mpr ⟨i, hi, rfl⟩)
  exact ⟨⟨i, hi, hreply, hid⟩, hline.widths _ hmem hreply hid⟩

theorem answered_of_result (hline : Sends sizes line) (hn : Negotiates line moves)
    (hrun : run moves {} = some c) {payload : Bytes} (h : c.result? 0 = some (.ok payload)) :
    Answered (taken moves {}) ∧ payload = sizes.encode := by
  have hkept := kept_of_run hrun
  obtain ⟨call, hcall, hstage⟩ := result?_eq_some.mp h
  have hanswers := (hkept.heard 0 call hcall).returned payload hstage
  rw [id_first hkept hcall] at hanswers
  obtain ⟨hanswered, -, hpayload⟩ := answered_of_answers hline hn hrun hanswers
  exact ⟨hanswered, hpayload⟩

/-- Until a reply to the first call was taken, the widest identifiers are assumed; the widths of the
agent are the only others. -/
structure WidthsKnown (sizes : IdSizes) (moves : List Move) (c : Connection) : Prop where
  now : c.sizes = .widest ∨ c.sizes = sizes ∧ Answered (taken moves {})
  earlier : ∀ before i after, taken moves {} = before ++ i :: after →
    i.sizes = .widest ∨ i.sizes = sizes ∧ Answered before

theorem widthsKnown_of_run (hs : sizes.Allowed) (hline : Sends sizes line)
    (hn : Negotiates line moves)
    (hrun : run moves {} = some c) : WidthsKnown sizes moves c := by
  induction moves using List.reverseRecOn generalizing c with
  | nil =>
      cases hrun
      exact ⟨.inl rfl, fun before i after h => by simp [taken] at h⟩
  | append_singleton moves m ih =>
      have hrun' := hrun
      rw [run_concat] at hrun'
      obtain ⟨d, hd, hmove⟩ := Option.bind_eq_some_iff.mp hrun'
      have hbefore := hn.of_prefix (List.prefix_append moves [m])
      have hknows := ih hbefore hd
      have htaken := taken_concat hd m
      constructor
      · -- Only the first call's answer is adopted, and that answer was taken before.
        by_cases hadopt : ∃ widths, m = .adopt widths
        · obtain ⟨widths, rfl⟩ := hadopt
          obtain ⟨d', payload, hd', hresult, hdecode⟩ := hn.adopts moves widths List.prefix_rfl
          obtain rfl := Option.some.inj (hd.symm.trans hd')
          obtain ⟨hanswered, rfl⟩ := answered_of_result hline hbefore hd hresult
          rw [IdSizes.decode_encode hs] at hdecode
          cases hdecode
          cases hmove
          rw [htaken]
          exact .inr ⟨rfl, hanswered.append _⟩
        · rw [(ended_sizes_step hmove).2 fun widths hm => hadopt ⟨widths, hm⟩, htaken]
          exact hknows.now.imp id (And.imp_right fun h => h.append _)
      · intro before i after hsplit
        rw [htaken] at hsplit
        rcases intake_cases d m with hnone | ⟨p, hone, -⟩
        · rw [hnone, List.append_nil] at hsplit
          exact hknows.earlier before i after hsplit
        · rw [hone] at hsplit
          rcases List.eq_nil_or_concat after with rfl | ⟨after, j, rfl⟩
          · obtain ⟨rfl, hlast⟩ := List.append_inj' hsplit rfl
            cases hlast
            exact hknows.now
          · rw [List.concat_eq_append, ← List.cons_append, ← List.append_assoc] at hsplit
            exact hknows.earlier before i after (List.append_inj' hsplit rfl).1

theorem WidthsKnown.eq_or (h : WidthsKnown sizes moves c) {i : Intake} (hi : i ∈ taken moves {}) :
    i.sizes = .widest ∨ i.sizes = sizes := by
  obtain ⟨before, after, hsplit⟩ := List.append_of_mem hi
  exact (h.earlier before i after hsplit).imp id And.left

/-- A report that is read with the widths of the agent can be decoded. -/
theorem Sends.sound (hs : sizes.Allowed) (hline : Sends sizes line) (hp : p ∈ line) :
    Intake.Sound ⟨sizes, p⟩ := by
  intro hevents
  obtain ⟨id, policy, events, rfl, hfit⟩ := hline.events p hp (isReply_of_isEvents hevents)
  exact congrArg Prod.snd (decodePacket_encodePacket hs hfit (hline.fits _ hp))

/-! ### What can go wrong -/

/-- The reader of a patient client stops at nothing but a report that it cannot decode. -/
theorem reading_of_sound (hline : Sends sizes line) (hn : Negotiates line moves)
    (hrun : run moves {} = some c) (hcount : c.calls.length < UInt32.size)
    (hsound : ∀ i ∈ taken moves {}, i.Sound) : c.reader = .reading ∧ c.shutdown = false := by
  have hf := framed_of_run hrun
  have hnobody : .shutDown ∉ moves := fun hm => by
    have hpatient := hn.patient _ hm
    cases hpatient
  have hreading : c.reader = .reading := by
    by_contra hstopped
    obtain ⟨left, hleft, rest, hrest⟩ := taken_prefix hrun hline.fits hn.stream
    cases (hf.stopped hstopped).2 with
    | badLength _ hsplit =>
        have hmalformed := Packet.split_malformed_append hsplit rest
        rw [hrest] at hmalformed
        cases left with
        | nil => cases hmalformed
        | cons p left =>
            have hmem : p ∈ line := hleft ▸ List.mem_append_right _ List.mem_cons_self
            have hp := hline.fits p hmem
            rw [List.flatMap_cons, Packet.split_encode p _ hp] at hmalformed
            cases hmalformed
    | endOfLine _ _ hended =>
        rw [(allWaited_of_run hrun hcount hn.patient).2] at hended
        cases hended
    | calledOff _ hown => exact hnobody hown
    | undecodable before last htaken _ hlast =>
        exact hlast (hsound last (htaken ▸ List.mem_append_right _ List.mem_cons_self))
  refine ⟨hreading, Bool.eq_false_iff.mpr fun hshutdown => hnobody (hf.owned hreading hshutdown)⟩

/-- A report that cannot be decoded is the last packet that is taken. -/
theorem last_of_unsound (hrun : run moves {} = some c) {before after : List Intake} {i : Intake}
    (hsplit : taken moves {} = before ++ i :: after) (hi : ¬i.Sound) :
    c.shutdown = true ∧ after = [] := by
  have hf := framed_of_run hrun
  have hmem : i ∈ taken moves {} := hsplit ▸ List.mem_append_right _ List.mem_cons_self
  have hstopped : c.reader ≠ .reading := fun hreading => hi (hf.sound hreading i hmem)
  obtain ⟨hshutdown, hhalted⟩ := hf.stopped hstopped
  refine ⟨hshutdown, ?_⟩
  cases hhalted with
  | badLength hsound => exact (hi (hsound i hmem)).elim
  | endOfLine hsound => exact (hi (hsound i hmem)).elim
  | calledOff hsound => exact (hi (hsound i hmem)).elim
  | undecodable before' last htaken hsound hlast =>
      rcases List.eq_nil_or_concat after with rfl | ⟨after, j, rfl⟩
      · rfl
      · rw [hsplit, List.concat_eq_append, ← List.cons_append, ← List.append_assoc] at htaken
        have hinit := (List.append_inj' htaken rfl).1
        exact (hi (hsound i (hinit ▸ List.mem_append_right _ List.mem_cons_self))).elim

/-- What the first call of a patient client returns: the widths of the agent, or an error because
the connection was called off. -/
theorem first_result (hline : Sends sizes line) (hn : Negotiates line moves)
    (hrun : run moves {} = some c) (hcount : c.calls.length < UInt32.size)
    {r : Except JdwpError Bytes} (h : c.result? 0 = some r) :
    r = .ok sizes.encode ∧ Answered (taken moves {}) ∨
      c.shutdown = true ∧ (r = .error .cancelled ∨ r = .error .connectionClosed) := by
  have hkept := kept_of_run hrun
  obtain ⟨call, hcall, hstage⟩ := result?_eq_some.mp h
  obtain ⟨hleft, hreturned⟩ := (allWaited_of_run hrun hcount hn.patient).1 0 call hcall
  rcases hreturned r hstage with ⟨hshutdown, rfl⟩ | ⟨d, hd, rfl⟩
  · exact .inr ⟨hshutdown, .inl rfl⟩
  · cases d with
    | closed => exact .inr ⟨hleft hd, .inr rfl⟩
    | reply code payload =>
        have hanswers := (hkept.heard 0 call hcall).left code payload hd
        rw [id_first hkept hcall] at hanswers
        obtain ⟨hanswered, rfl, rfl⟩ := answered_of_answers hline hn hrun hanswers
        exact .inl ⟨rfl, hanswered⟩

/-- A report of events that stands in front of every reply to the first call is read before the
widths are known. -/
theorem taken_early (hs : sizes.Allowed) (hline : Sends sizes line) (hn : Negotiates line moves)
    (hrun : run moves {} = some c) {early late : List Packet} (hsplit : line = early ++ p :: late)
    (hearly : ∀ q ∈ early, q.isReply = true → q.id ≠ 1)
    (hbeyond : early.length < (taken moves {}).length) :
    ∃ before after, taken moves {} = before ++ ⟨.widest, p⟩ :: after ∧ ¬Answered before := by
  obtain ⟨left, hleft, -⟩ := taken_prefix hrun hline.fits hn.stream
  have hsame := List.take_append_drop early.length (taken moves {})
  cases hrest : (taken moves {}).drop early.length with
  | nil => exact (Nat.not_le_of_lt hbeyond (List.drop_eq_nil_iff.mp hrest)).elim
  | cons i after =>
      rw [hrest] at hsame
      generalize hbefore : (taken moves {}).take early.length = before at hsame
      have hlength : (before.map Intake.packet).length = early.length := by
        rw [List.length_map, ← hbefore, List.length_take_of_le (Nat.le_of_lt hbeyond)]
      have hwhole : before.map Intake.packet ++ i.packet :: (after.map Intake.packet ++ left) =
          early ++ p :: late := by
        rw [← hsplit, hleft, ← hsame]
        simp
      obtain ⟨hmap, hcons⟩ := List.append_inj hwhole hlength
      have hunanswered : ¬Answered before := by
        rintro ⟨j, hj, hreply, hid⟩
        exact hearly j.packet (hmap ▸ List.mem_map.mpr ⟨j, hj, rfl⟩) hreply hid
      have hwidths := (widthsKnown_of_run hs hline hn hrun).earlier before i after hsame.symm
      have hwidest := hwidths.resolve_right fun h => hunanswered h.2
      refine ⟨before, after, ?_, hunanswered⟩
      rw [← hsame, ← (List.cons.inj hcons).1, ← hwidest]

/-- Such a report, if it cannot be read that way, is the last packet that is taken, and no reply to
the first call is. -/
theorem unanswered_of_early (hs : sizes.Allowed) (hline : Sends sizes line)
    (hn : Negotiates line moves) (hrun : run moves {} = some c) {early late : List Packet}
    (hsplit : line = early ++ p :: late) (hp : p.isReply = false)
    (hearly : ∀ q ∈ early, q.isReply = true → q.id ≠ 1) (hunsound : ¬Intake.Sound ⟨.widest, p⟩) :
    ¬Answered (taken moves {}) ∧ (early.length < (taken moves {}).length → c.shutdown = true) := by
  by_cases hbeyond : early.length < (taken moves {}).length
  · obtain ⟨before, after, htaken, hunanswered⟩ :=
      taken_early hs hline hn hrun hsplit hearly hbeyond
    obtain ⟨hshutdown, rfl⟩ := last_of_unsound hrun htaken hunsound
    refine ⟨?_, fun _ => hshutdown⟩
    rintro ⟨i, hi, hreply, hid⟩
    rcases List.mem_append.mp (htaken ▸ hi) with hi | hi
    · exact hunanswered ⟨i, hi, hreply, hid⟩
    · rw [List.mem_singleton.mp hi, hp] at hreply
      cases hreply
  · refine ⟨?_, fun h => (hbeyond h).elim⟩
    rintro ⟨i, hi, hreply, hid⟩
    obtain ⟨left, hleft, -⟩ := taken_prefix hrun hline.fits hn.stream
    have hpre : (taken moves {}).map Intake.packet <+: early := by
      refine List.prefix_of_prefix_length_le ⟨left, hleft.symm⟩ ⟨p :: late, hsplit.symm⟩ ?_
      rw [List.length_map]
      exact Nat.le_of_not_lt hbeyond
    exact hearly i.packet (hpre.subset (List.mem_map.mpr ⟨i, hi, rfl⟩)) hreply hid

/-! ## The first call and those after it -/

/-- What the call `k` returns was said by a reply to it. -/
def Replied (moves : List Move) (k : Nat) (call : Call) (r : Except JdwpError Bytes) : Prop :=
  ∃ code payload, Answers moves k call.id code payload ∧ r = (Delivery.reply code payload).result

/-- While the connection is not called off, every call that has returned was replied to. -/
theorem replied_of_result (hn : Negotiates line moves) (hrun : run moves {} = some c)
    (hcount : c.calls.length < UInt32.size) (hshutdown : c.shutdown = false)
    (hcall : c.calls[k]? = some call) {r : Except JdwpError Bytes}
    (h : c.result? k = some r) : Replied moves k call r := by
  obtain ⟨call', hcall', hstage⟩ := result?_eq_some.mp h
  obtain rfl := Option.some.inj (hcall'.symm.trans hcall)
  obtain ⟨hleft, hreturned⟩ := (allWaited_of_run hrun hcount hn.patient).1 k call' hcall
  have hcalled : c.shutdown ≠ true := by rw [hshutdown]; nofun
  rcases hreturned r hstage with ⟨hoff, -⟩ | ⟨d, hd, rfl⟩
  · exact (hcalled hoff).elim
  · cases d with
    | closed => exact (hcalled (hleft hd)).elim
    | reply code payload =>
        exact ⟨code, payload, ((kept_of_run hrun).heard k call' hcall).left code payload hd, rfl⟩

/-- A call that something was left for needs nobody else to return it. -/
theorem collects_alone {left : Delivery} (hcall : c.calls[k]? = some call)
    (hstage : call.stage = .registered ∨ call.stage = .waiting)
    (hleft : call.delivery = some left) :
    ∃ own d, own ⊆ [.write k, .collect k] ∧ run own c = some d ∧
      d.result? k = some left.result := by
  have hcollect : ∀ {c : Connection} {call : Call}, c.calls[k]? = some call →
      call.stage = .waiting → call.delivery = some left →
      ∃ d, c.move? (.collect k) = some d ∧ d.result? k = some left.result := by
    intro c call hcall hstage hleft
    have hat : c.callAt? k CallStage.isWaiting = some call :=
      callAt?_eq_some.mpr ⟨hcall, by rw [hstage]; rfl⟩
    let new : Call := { call with stage := .returned left.result }
    refine ⟨c.setCall k new, by simp [move?, hat, hleft, new], result?_eq_some.mpr ⟨new, ?_, rfl⟩⟩
    rw [getElem?_setCall hcall, if_pos rfl]
  rcases hstage with hstage | hstage
  · have hat : c.callAt? k CallStage.isRegistered = some call :=
      callAt?_eq_some.mpr ⟨hcall, by rw [hstage]; rfl⟩
    obtain ⟨next, hmove, hnext⟩ : ∃ next, c.move? (.write k) = some next ∧
        next.calls[k]? = some { call with stage := .waiting } := by
      refine ⟨_, by simp only [move?, hat]; rfl, ?_⟩
      rw [getElem?_setCall (by exact hcall), if_pos rfl]
    obtain ⟨d, hd, hresult⟩ := hcollect hnext rfl hleft
    have hrun : run [.write k, .collect k] c = some d := by
      rw [run_cons, hmove, Option.bind_some, run_cons, hd]
      rfl
    exact ⟨_, d, List.Subset.refl _, hrun, hresult⟩
  · obtain ⟨d, hd, hresult⟩ := hcollect hcall hstage hleft
    exact ⟨[.collect k], d, by simp, by rw [run_cons, hd]; rfl, hresult⟩

/-- A call whose reply was taken after it had entered the table has returned it, or needs nobody
else to return it. -/
theorem replied_alone (hn : Negotiates line moves) (hrun : run moves {} = some c)
    (hcount : c.calls.length < UInt32.size) (hshutdown : c.shutdown = false)
    (hcall : c.calls[k]? = some call) (htakes : TakesAfter moves k p) (hreply : p.isReply = true)
    (hid : p.id = call.id) : ∃ own d r, own ⊆ [.write k, .collect k] ∧ run own c = some d ∧
      d.result? k = some r ∧ Replied moves k call r := by
  by_cases hreturned : ∃ r, call.stage = .returned r
  · obtain ⟨r, hr⟩ := hreturned
    have hresult := result?_eq_some.mpr ⟨call, hcall, hr⟩
    exact ⟨[], c, r, by simp, rfl, hresult,
      replied_of_result hn hrun hcount hshutdown hcall hresult⟩
  have hheard := (kept_of_run hrun).heard k call hcall
  obtain ⟨left, hleft⟩ := Option.ne_none_iff_exists'.mp
    ((reached_of_run hrun hcount hcall htakes hreply hid).resolve_right hreturned)
  have hstage : call.stage = .registered ∨ call.stage = .waiting := by
    obtain ⟨before, between, after, d, rfl, -, -⟩ := htakes
    obtain ⟨call', hcall', hentered⟩ :
        ∃ call', c.calls[k]? = some call' ∧ call'.stage ≠ .begun := by
      refine entered_of_run before (between ++ .read :: after) ?_
      rw [← hrun]
      simp
    obtain rfl := Option.some.inj (hcall'.symm.trans hcall)
    cases hs : call'.stage with
    | begun => exact (hentered hs).elim
    | registered => exact .inl rfl
    | waiting => exact .inr rfl
    | returned r => exact (hreturned ⟨r, hs⟩).elim
  cases left with
  | closed =>
      have hoff := ((allWaited_of_run hrun hcount hn.patient).1 k call hcall).left hleft
      rw [hshutdown] at hoff
      cases hoff
  | reply code payload =>
      obtain ⟨own, d, hown, hd, hresult⟩ := collects_alone hcall hstage hleft
      exact ⟨own, d, _, hown, hd, hresult, code, payload, hheard.left code payload hleft, rfl⟩

/-- An agent whose identifiers have the widths `sizes` sends reports of its events and replies, in
any order and in any pieces, to a client that gives nothing up:

* what the reader takes begins what the agent sent, and each packet is read with the widest
  identifiers or with those of the agent, which decode every report;
* while all that was taken could be decoded, the reader reads; the first call returns nothing but
  the widths; each call returns what a reply to it said, and once its reply was taken after it had
  entered the table, it needs nobody else for that;
* a report in front of every reply to the first call that the widest identifiers do not decode
  loses the connection: the first call never returns the widths, and once the report was taken the
  reader has stopped and the call can do nothing but fail. -/
theorem widths_negotiated (hs : sizes.Allowed) (hline : Sends sizes line)
    (hn : Negotiates line moves) (hrun : run moves {} = some c)
    (hcount : c.calls.length < UInt32.size) :
    ((taken moves {}).map Intake.packet <+: line ∧
      ∀ i ∈ taken moves {}, i.sizes = .widest ∨ i.sizes = sizes ∧ i.Sound) ∧
    ((∀ i ∈ taken moves {}, i.Sound) →
      c.reader = .reading ∧ c.shutdown = false ∧
      (∀ r, c.result? 0 = some r → r = .ok sizes.encode) ∧
      ∀ k call, c.calls[k]? = some call →
        (∀ r, c.result? k = some r → Replied moves k call r) ∧
        ∀ p, TakesAfter moves k p → p.isReply = true → p.id = call.id →
          ∃ own d r, own ⊆ [.write k, .collect k] ∧ run own c = some d ∧ d.result? k = some r ∧
            Replied moves k call r) ∧
    ∀ early p late, line = early ++ p :: late → p.isReply = false →
      (∀ q ∈ early, q.isReply = true → q.id ≠ 1) →
      (Event.decodePacket .widest p.payload).2 ≠ none →
      (∀ r, c.result? 0 = some r → r = .error .cancelled ∨ r = .error .connectionClosed) ∧
      (early.length < (taken moves {}).length → c.reader ≠ .reading ∧
        (0 < c.calls.length → c.result? 0 = none → c.FailsAlone 0)) := by
  obtain ⟨left, hleft, -⟩ := taken_prefix hrun hline.fits hn.stream
  refine ⟨⟨⟨left, hleft.symm⟩, fun i hi => ?_⟩, fun hsound => ?_,
    fun early p late hsplit hp hearly hfault => ?_⟩
  · refine ((widthsKnown_of_run hs hline hn hrun).eq_or hi).imp id fun hsizes => ⟨hsizes, ?_⟩
    have hmem : i.packet ∈ line := by
      rw [hleft]
      exact List.mem_append_left _ (List.mem_map.mpr ⟨i, hi, rfl⟩)
    rw [show i = ⟨sizes, i.packet⟩ by rw [← hsizes]]
    exact hline.sound hs hmem
  · obtain ⟨hreading, hshutdown⟩ := reading_of_sound hline hn hrun hcount hsound
    refine ⟨hreading, hshutdown, fun r hr => ?_, fun k call hcall => ⟨fun r hr => ?_, ?_⟩⟩
    · rcases first_result hline hn hrun hcount hr with ⟨rfl, -⟩ | ⟨hoff, -⟩
      · rfl
      · rw [hshutdown] at hoff
        cases hoff
    · exact replied_of_result hn hrun hcount hshutdown hcall hr
    · intro p htakes hreply hid
      exact replied_alone hn hrun hcount hshutdown hcall htakes hreply hid
  · have hmem : p ∈ line := hsplit ▸ List.mem_append_right _ List.mem_cons_self
    have hevents : p.isEvents = true := by
      obtain ⟨id, policy, events, rfl, -⟩ := hline.events p hmem hp
      rw [Packet.isEvents, hp]
      rfl
    obtain ⟨hunanswered, hlost⟩ := unanswered_of_early hs hline hn hrun hsplit hp hearly
      fun hsound => hfault (hsound hevents)
    refine ⟨fun r hr => ?_, fun hbeyond => ?_⟩
    · rcases first_result hline hn hrun hcount hr with ⟨-, hanswered⟩ | ⟨-, herror⟩
      · exact (hunanswered hanswered).elim
      · exact herror
    · obtain ⟨before, after, htaken, -⟩ := taken_early hs hline hn hrun hsplit hearly hbeyond
      have hstopped : c.reader ≠ .reading := by
        intro hreading
        refine hfault ((framed_of_run hrun).sound hreading ⟨.widest, p⟩ ?_ hevents)
        rw [htaken]
        exact List.mem_append_right _ List.mem_cons_self
      refine ⟨hstopped, fun hlength hnone => ?_⟩
      exact failsAlone (hlost hbeyond) (List.getElem?_eq_getElem hlength) hnone

/-! ### A machine that reports its start -/

/-- A report that the virtual machine has started, with narrow identifiers. -/
def startReport : Packet :=
  Packet.command 256 (64, 100) (Event.encodePacket mixedSizes 0 [.vmStart 0 1])

/-- The reply to the first call, which announces them. -/
def widthsReply : Packet := Packet.reply 1 0 mixedSizes.encode

theorem startReport_sends : Sends mixedSizes [startReport, widthsReply] where
  fits p hp := by
    rcases List.mem_pair.mp hp with rfl | rfl <;> decide
  events p hp hreply := by
    rcases List.mem_pair.mp hp with rfl | rfl
    · refine ⟨256, 0, [.vmStart 0 1], rfl, fun e he => ?_⟩
      rw [List.mem_singleton.mp he]
      refine ⟨?_, ?_, trivial⟩
      · rintro r ⟨⟩
        decide
      · rintro t ⟨⟩
        decide
    · cases hreply
  widths p hp hreply hid := by
    rcases List.mem_pair.mp hp with rfl | rfl
    · cases hreply
    · exact ⟨rfl, rfl⟩

/-- A client that asks for the widths, when the machine has just reported its start. -/
def earlyStart : List Move :=
  [.begin (1, 7) [], .register 0, .write 0,
    .arrive (startReport.encode ++ widthsReply.encode), .read]

theorem earlyStart_negotiates : Negotiates [startReport, widthsReply] earlyStart where
  patient := by decide
  stream := by decide
  adopts before widths hadopt := by
    have hmem : Move.adopt widths ∈ earlyStart :=
      hadopt.subset (List.mem_append_right _ List.mem_cons_self)
    simp [earlyStart] at hmem

/-- With the right widths the report can be read, but its client is not to be connected. -/
theorem widths_negotiated_earlyStart :
    (Event.decodePacket mixedSizes startReport.payload).2 = none ∧
    ∃ c, run earlyStart {} = some c ∧ c.result? 0 = none ∧ c.reader ≠ .reading ∧
      c.FailsAlone 0 := by
  obtain ⟨c, hrun⟩ : ∃ c, run earlyStart {} = some c := Option.isSome_iff_exists.mp (by decide)
  have hlength : (run earlyStart {}).map (fun c => c.calls.length) = some 1 := by decide
  have hresult : (run earlyStart {}).map (fun c => (c.result? 0).isNone) = some true := by decide
  rw [hrun] at hlength hresult
  replace hlength : c.calls.length = 1 := Option.some.inj hlength
  have hnone : c.result? 0 = none := Option.isNone_iff_eq_none.mp (Option.some.inj hresult)
  have hcount : c.calls.length < UInt32.size := by
    rw [hlength]
    decide
  obtain ⟨-, -, hearly⟩ := widths_negotiated mixedSizes_allowed startReport_sends
    earlyStart_negotiates hrun hcount
  obtain ⟨-, hlost⟩ := hearly [] startReport [widthsReply] rfl rfl nofun (by decide)
  obtain ⟨hstopped, hfails⟩ := hlost (by decide)
  exact ⟨by decide, c, hrun, hnone, hstopped, hfails (by rw [hlength]; decide) hnone⟩

end Connection
end StreamTrace
