import StreamTrace.Debugger.Attachment
import StreamTrace.Proofs.Debugger.History
import StreamTrace.Proofs.Jdwp.EventPackets

/-!
# Attachments whose commands are answered

A manager that drives a connection gets through its programs when the other side answers every
command with a reply packet. So what a program does with given replies, an attachment does with the
packets that carry them.
-/

namespace StreamTrace

/-! ## One call, answered -/

namespace Connection

/-- Nobody waits, and nothing was left unread. -/
structure Quiet (c : Connection) : Prop where
  pending : c.pending = {}
  unread : c.unread = []
  ended : c.ended = false
  reader : c.reader = .reading

variable {c : Connection} {call : Call} {pending : Table UInt32 Nat} {sent : Bytes}

/-- The connection while its last call is under way. -/
def during (c : Connection) (call : Call) (pending : Table UInt32 Nat) (sent : Bytes)
    (unread : Bytes) : Connection :=
  { c with calls := c.calls ++ [call], pending, sent, unread }

theorem callAt?_during {fits : CallStage → Bool} (h : fits call.stage = true) (unread : Bytes) :
    (c.during call pending sent unread).callAt? c.calls.length fits = some call := by
  simp only [callAt?, during, List.getElem?_concat_length, h, ↓reduceIte]

theorem setCall_during (call' : Call) (unread : Bytes) :
    (c.during call pending sent unread).setCall c.calls.length call'
      = c.during call' pending sent unread := by
  simp only [setCall, during, List.set_append_right _ _ (Nat.le_refl _), Nat.sub_self,
    List.set_cons_zero]

theorem deliver_during (d : Delivery) (unread : Bytes) :
    (c.during call pending sent unread).deliver c.calls.length d
      = c.during { call with delivery := some d } pending sent unread := by
  have hlast : ∀ calls : List Call,
      (calls ++ [call]).modify calls.length (fun call => { call with delivery := some d })
        = calls ++ [{ call with delivery := some d }] := by
    intro calls
    induction calls with
    | nil => rfl
    | cons _ calls ih => exact congrArg _ ih
  simp only [deliver, during, hlast]

theorem register_during (h : call.stage = .begun) :
    (c.during call {} sent []).move? (.register c.calls.length)
      = some (c.during { call with stage := .registered }
          (({} : Table UInt32 Nat).set call.id c.calls.length) sent []) := by
  have hat : (c.during call {} sent []).callAt? c.calls.length CallStage.isBegun = some call :=
    callAt?_during (by rw [h]; rfl) []
  simp only [move?, hat, Option.bind_eq_bind, Option.bind_some, Option.pure_def]
  exact congrArg some (@setCall_during c call _ sent { call with stage := .registered } [])

theorem write_during (h : call.stage = .registered) :
    (c.during call pending sent []).move? (.write c.calls.length) = some
      (c.during { call with stage := .waiting } pending (sent ++ call.packet.encode) []) := by
  have hat : (c.during call pending sent []).callAt? c.calls.length CallStage.isRegistered
      = some call := callAt?_during (by rw [h]; rfl) []
  simp only [move?, hat, Option.bind_eq_bind, Option.bind_some, Option.pure_def]
  exact congrArg some (@setCall_during c call pending (sent ++ call.packet.encode)
    { call with stage := .waiting } [])

theorem arrive_during (h : c.ended = false) (bytes : Bytes) :
    (c.during call pending sent []).move? (.arrive bytes)
      = some (c.during call pending sent bytes) := by
  simp only [move?, during, h, Bool.false_eq_true, ↓reduceIte, List.nil_append]

theorem isReply_reply (id : UInt32) (code : UInt16) (payload : Bytes) :
    (Packet.reply id code payload).isReply = true := by
  simp +decide only [Packet.isReply, Packet.reply]

theorem errorCode_reply (id : UInt32) (code : UInt16) (payload : Bytes) :
    (Packet.reply id code payload).errorCode = code := by
  have hcode := code.toNat_lt
  apply UInt16.toNat_inj.mp
  simp only [Packet.errorCode, Packet.reply, UInt8.toNat_ofNat', UInt16.toNat_ofNat']
  omega

theorem read_during (h : c.reader = .reading) {code : UInt16} {payload : Bytes}
    (hline : (Packet.reply call.id code payload).FitsLine) :
    (c.during call (({} : Table UInt32 Nat).set call.id c.calls.length) sent
        (Packet.reply call.id code payload).encode).move? .read
      = some (c.during { call with delivery := some (.reply code payload) } {} sent []) := by
  have hread := @read_packet (c.during call (({} : Table UInt32 Nat).set call.id c.calls.length)
    sent (Packet.reply call.id code payload).encode) (Packet.reply call.id code payload) [] h
    (List.append_nil _).symm hline
  refine hread.trans (congrArg some ?_)
  simp only [accept, isReply_reply, errorCode_reply, ↓reduceIte]
  have hget : (({} : Table UInt32 Nat).set call.id c.calls.length).get? call.id
      = some c.calls.length := Table.get?_set_self _ _ _
  have herase : (({} : Table UInt32 Nat).set call.id c.calls.length).erase call.id = {} := by
    simp [Table.set, Table.erase, Table.replace]
  simp only [during, Packet.reply, hget, herase]
  exact deliver_during (.reply code payload) []

theorem collect_during (h : call.stage = .waiting) {d : Delivery} (hd : call.delivery = some d) :
    (c.during call pending sent []).move? (.collect c.calls.length)
      = some (c.during { call with stage := .returned d.result } pending sent []) := by
  have hat : (c.during call pending sent []).callAt? c.calls.length CallStage.isWaiting
      = some call := callAt?_during (by rw [h]; rfl) []
  simp only [move?, hat, Option.bind_eq_bind, Option.bind_some, hd, Option.pure_def,
    setCall_during]

end Connection

/-! ## A command, answered -/

namespace Attachment

variable {a : Attachment} {moves more : List Move}

theorem run_append (moves more : List Move) (a : Attachment) :
    run (moves ++ more) a = (run moves a).bind (run more) := by
  simp only [run, List.foldlM_append]
  rfl

theorem run_cons {m : Move} {b z : Attachment} (hmove : a.move? m = some b)
    (hmore : run more b = some z) : run (m :: more) a = some z := by
  show (a.move? m).bind (run more) = some z
  rw [hmove]
  exact hmore

/-- A move of the connection that reports nothing leaves the manager as it is. -/
theorem move_connection {m : Connection.Move} {c : Connection}
    (h : a.connection.move? m = some c) (hevents : c.events = a.connection.events) :
    a.move? (.connection m) = some { a with connection := c } := by
  simp only [move?, h, Option.bind_eq_bind, Option.bind_some, Option.pure_def, withConnection,
    hevents, List.drop_length, List.foldl_nil]

/-- The manager's program waits for nothing, nor does anybody else on its connection. -/
structure Ready (a : Attachment) : Prop where
  call : a.call = none
  quiet : a.connection.Quiet

/-- The moves by which the next command goes out and is answered. -/
def answered (a : Attachment) (code : UInt16) (payload : Bytes) : List Move :=
  let k := a.connection.calls.length
  [.send, .connection (.register k), .connection (.write k),
    .connection (.arrive (Packet.reply a.connection.nextId code payload).encode),
    .connection .read, .connection (.collect k), .hear]

theorem run_answered (h : a.Ready) {c : Command} {next : c.Answer → Program Continuation}
    (hphase : a.manager.phase = .working (.act (.command c) next)) {code : UInt16}
    {payload : Bytes} (hline : (Packet.reply a.connection.nextId code payload).FitsLine) :
    ∃ a', run (a.answered code payload) a = some a' ∧ a'.Ready ∧
      a'.connection.sizes = a.connection.sizes ∧ a'.manager = { a.manager with
        phase := .working
          (next (c.interpret a.connection.sizes (Delivery.reply code payload).result)) } := by
  obtain ⟨hpending, hunread, hended, hreader⟩ := h.quiet
  let call : Call :=
    { id := a.connection.nextId, number := c.number, payload := c.payload a.connection.sizes }
  let called : Call :=
    { call with
      stage := .returned (Delivery.reply code payload).result
      delivery := some (.reply code payload) }
  let sent := a.connection.sent ++ call.packet.encode
  -- The attachment while the call is under way.
  let on (c : Connection) : Attachment :=
    { a with connection := c, call := some (a.connection.calls.length, a.connection.sizes) }
  have hon {c₀ c₁ : Connection} {m : Connection.Move} (hm : c₀.move? m = some c₁)
      (hevents : c₁.events = c₀.events) :
      (on c₀).move? (.connection m) = some (on c₁) := move_connection hm hevents
  have haction : a.nextAction? = some ⟨.command c, next⟩ := by
    simp only [nextAction?, hphase]
  have hsend : a.move? .send
      = some (on (a.connection.during call {} a.connection.sent [])) := by
    have hbegun : a.connection.after (a.connection.beginCommand c)
        = a.connection.during call {} a.connection.sent [] := by
      rw [← hpending, ← hunread]
      rfl
    simp only [move?, h.call, haction, hbegun, on]
  have hregister := @Connection.register_during a.connection call a.connection.sent rfl
  have hwrite := @Connection.write_during a.connection { call with stage := .registered }
    (({} : Table UInt32 Nat).set call.id a.connection.calls.length) a.connection.sent rfl
  have harrive := @Connection.arrive_during a.connection { call with stage := .waiting }
    (({} : Table UInt32 Nat).set call.id a.connection.calls.length) sent hended
    (Packet.reply call.id code payload).encode
  have hread := @Connection.read_during a.connection { call with stage := .waiting } sent
    hreader code payload hline
  have hcollect := @Connection.collect_during a.connection
    { call with stage := .waiting, delivery := some (.reply code payload) } {} sent rfl
    (.reply code payload) rfl
  have hresult : (a.connection.during called {} sent []).result? a.connection.calls.length
      = some (Delivery.reply code payload).result := by
    simp only [Connection.result?, Connection.during, List.getElem?_concat_length, Option.map_some,
      called]
  have hheard : (on (a.connection.during called {} sent [])).move? .hear
      = some ({ a with connection := a.connection.during called {} sent [] }.proceed
          (next (c.interpret a.connection.sizes (Delivery.reply code payload).result))) := by
    have haction' : (on (a.connection.during called {} sent [])).nextAction?
        = some ⟨.command c, next⟩ := haction
    simp only [move?, haction', on, hresult, Option.bind_eq_bind, Option.bind_some,
      Option.pure_def, ← h.call]
  refine ⟨{ a with connection := a.connection.during called {} sent [] }.proceed
      (next (c.interpret a.connection.sizes (Delivery.reply code payload).result)), ?_,
    ⟨h.call, ⟨rfl, rfl, hended, hreader⟩⟩, rfl, rfl⟩
  exact run_cons hsend <| run_cons (hon hregister rfl) <| run_cons (hon hwrite rfl) <|
    run_cons (hon harrive rfl) <| run_cons (hon hread rfl) <| run_cons (hon hcollect rfl) <|
    run_cons hheard rfl

/-! ## A program, answered -/

/-- The replies of the packets that answer commands, with these widths of identifiers. -/
def repliesOf (sizes : IdSizes) (answer : Command → UInt16 × Bytes) : (x : Action) → x.Reply
  | .command c => c.interpret sizes (Delivery.reply (answer c).1 (answer c).2).result
  | .publish _ => ()
  | .deliver _ => ()
  | .clock => (0 : Nat)

/-- What the manager's program does when its commands are answered, an attachment can do. -/
theorem run_program {answer : Command → UInt16 × Bytes}
    (hline : ∀ c id, (Packet.reply id (answer c).1 (answer c).2).FitsLine) (h : a.Ready)
    (p : Program Continuation) (hphase : a.manager.phase = .working p) :
    ∃ moves a', run moves a = some a' ∧ a'.Ready ∧ a'.manager = { a.manager with
      phase := .working (.done (p.transcript (repliesOf a.connection.sizes answer)).2) } := by
  induction p generalizing a with
  | done k => exact ⟨[], a, rfl, h, by simp only [Program.transcript, ← hphase]⟩
  | act x next ih =>
      obtain ⟨m, a₁, hrun, hready, hsizes, hmanager⟩ : ∃ m a₁, run m a = some a₁ ∧ a₁.Ready ∧
          a₁.connection.sizes = a.connection.sizes ∧ a₁.manager = { a.manager with
            phase := .working (next (repliesOf a.connection.sizes answer x)) } := by
        cases x with
        | command c =>
            exact ⟨_, run_answered h hphase (hline c _)⟩
        | publish s =>
            refine ⟨[.tell], { a with published := s }.proceed (next ()), ?_, ⟨h.call, h.quiet⟩,
              rfl, rfl⟩
            exact run_cons (by simp only [move?, nextAction?, hphase]) rfl
        | deliver r =>
            refine ⟨[.tell], { a with reports := a.reports ++ [r] }.proceed (next ()), ?_,
              ⟨h.call, h.quiet⟩, rfl, rfl⟩
            exact run_cons (by simp only [move?, nextAction?, hphase]) rfl
        | clock =>
            refine ⟨[.clock 0], a.proceed (next (0 : Nat)), ?_, ⟨h.call, h.quiet⟩, rfl, rfl⟩
            exact run_cons (by simp only [move?, nextAction?, hphase]) rfl
      obtain ⟨moves, a', hrun', hready', hmanager'⟩ := ih _ hready (by rw [hmanager])
      refine ⟨m ++ moves, a', ?_, hready', ?_⟩
      · rw [run_append, hrun]
        exact hrun'
      · rw [hmanager', hmanager, hsizes]
        rfl

end Attachment

end StreamTrace
