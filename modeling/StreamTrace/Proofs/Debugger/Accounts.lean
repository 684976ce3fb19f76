import StreamTrace.Proofs.Debugger.SessionLedger

/-!
# Accounts of a session

What a session owes: every request that it set and did not clear is one that it holds, and once it
has replaced the source it knows what the variable held. `Accounts` says so of any session, also of
one that failed; a session that `Listens` for the next event has pinned nothing that it does not
know of, awaits the step that it holds, and has not put the source back.
-/

namespace StreamTrace

open History (ContinuedBy KeepsPins)
open Moment (Minor Idle Calm Stays)
open Routine SessionRoutine

variable {p : TracePlan} {h h' h'' : History} {α β : Type}

/-! ## Requests -/

namespace History

/-- What was set was cleared, or it is still owed. A request can only be lost where a step is asked
for while another is awaited, which takes an exit reported meanwhile. -/
def Owed (h : History) (held : List (UInt8 × RequestId)) : Prop :=
  ∃ lost, (h.Orderly → lost = []) ∧ h.opened.Perm (h.cleared ++ (held ++ lost))

variable {held held' : List (UInt8 × RequestId)} {kind : UInt8} {id : RequestId}

theorem Owed.balance (hh : h.Owed held) (ho : h.Orderly) :
    h.opened.Perm (h.cleared ++ held) := by
  obtain ⟨lost, hlost, hperm⟩ := hh
  rwa [hlost ho, List.append_nil] at hperm

theorem Owed.keeps (hh : h.Owed held) (hopened : h'.opened = h.opened)
    (hcleared : h'.cleared = h.cleared) (ho : h'.Orderly → h.Orderly) : h'.Owed held := by
  obtain ⟨lost, hlost, hperm⟩ := hh
  exact ⟨lost, hlost ∘ ho, by rwa [hopened, hcleared]⟩

theorem Owed.snoc (hh : h.Owed held) {m : Moment} (hopened : m.opened? = none)
    (hcleared : m.cleared? = none) : Owed (h ++ [m]) held :=
  hh.keeps (by simp [hopened]) (by simp [hcleared]) fun ho => ((orderly_snoc h m).mp ho).1

theorem Owed.perm (hh : h.Owed held) (hheld : held'.Perm held) : h.Owed held' := by
  obtain ⟨lost, hlost, hperm⟩ := hh
  exact ⟨lost, hlost, hperm.trans ((hheld.symm.append_right _).append_left _)⟩

/-- A request that is cleared is not owed any more, whatever the debuggee answers. -/
theorem Owed.clear (hh : h.Owed held) (hheld : held.Perm ((kind, id) :: held'))
    (r : (Command.clearRequest kind id).Answer) :
    Owed (h ++ [.sent (.clearRequest kind id) r]) held' := by
  obtain ⟨lost, hlost, hperm⟩ := hh
  refine ⟨lost, fun ho => hlost ((orderly_snoc _ _).mp ho).1, ?_⟩
  rw [opened_snoc, cleared_snoc]
  show (h.opened ++ []).Perm (h.cleared ++ [(kind, id)] ++ (held' ++ lost))
  rw [List.append_nil, List.append_assoc]
  exact hperm.trans ((hheld.append_right _).append_left _)

/-- A request that is set is owed; what is owed no longer is lost. -/
theorem Owed.set (hh : h.Owed held) {policy : UInt8} {modifiers : List EventModifier}
    {gone : List (UInt8 × RequestId)} (hgone : h.Orderly → gone = [])
    (hheld : (held' ++ gone).Perm ((kind, id) :: held)) :
    Owed (h ++ [.sent (.setRequest kind policy modifiers) (.ok id)]) held' := by
  obtain ⟨lost, hlost, hperm⟩ := hh
  refine ⟨gone ++ lost, fun ho => ?_, ?_⟩
  · have horderly := ((orderly_snoc _ _).mp ho).1
    rw [hgone horderly, hlost horderly, List.append_nil]
  · rw [opened_snoc, cleared_snoc]
    show (h.opened ++ [(kind, id)]).Perm (h.cleared ++ [] ++ (held' ++ (gone ++ lost)))
    rw [List.append_nil, ← List.append_assoc held']
    refine (List.perm_append_comm.trans (hperm.cons _)).trans ?_
    exact List.perm_middle.symm.trans ((hheld.symm.append_right _).append_left _)

/-- What is owed was set more often than it was to be cleared. -/
theorem Owed.count_lt (hh : h.Owed held) {x : UInt8 × RequestId} (hx : x ∈ held) :
    h.cleared.count x < h.opened.count x := by
  obtain ⟨lost, -, hperm⟩ := hh
  rw [hperm.count_eq, List.count_append, List.count_append]
  have hpos := List.count_pos_iff.mpr hx
  omega

end History

/-! ## The source variable -/

namespace History

/-- The slot of the source variable was given another value before any event came, after it was
read. -/
def Swapped (h : History) (sub : Substitution) : Prop :=
  ∃ frame stream t signature others, h.writes.head? = some (frame, [(sub.slot, stream)]) ∧
    (∀ e, .heard e ∉ h.unwritten) ∧
      .sent (.slotValues t frame [(sub.slot, signature)]) (.ok (sub.held :: others)) ∈ h.unwritten

/-- What a session knows about the source variable is so. -/
def Sourced (h : History) : Option Substitution → Prop
  | none => (h.writes = [] ∨ ∃ e, .heard e ∈ h.unwritten) ∧ ¬h.PutBack
  | some sub => h.Swapped sub ∧ if sub.restored then h.PutBack ∨ h.NotPutBack else ¬h.PutBack

variable {sub : Substitution} {m : Moment}

theorem Swapped.snoc (hs : h.Swapped sub) (m : Moment) : Swapped (h ++ [m]) sub := by
  obtain ⟨frame, stream, t, signature, others, hmade, hearly, hread⟩ := hs
  have hne : h.writes ≠ [] := by
    intro hnil
    rw [hnil] at hmade
    cases hmade
  refine ⟨frame, stream, t, signature, others, ?_, ?_, ?_⟩
  · rw [writes_snoc, List.head?_append, hmade]
    rfl
  · rw [unwritten_snoc_of_ne h m hne]
    exact hearly
  · exact mem_unwritten_snoc hread

/-- Nothing is written while the frames were just counted, and they are not counted once the source
was put back. -/
theorem Sourced.snoc {source : Option Substitution} (hs : h.Sourced source)
    (hwrote : m.wrote? = none ∨ h.counting = false ∧ ∃ e, .heard e ∈ h)
    (hcounts : m.counts = false ∨ ∀ sub, source = some sub → sub.restored = false) :
    Sourced (h ++ [m]) source := by
  have hput : PutBack (h ++ [m]) ↔ h.PutBack := by
    rw [putBack_snoc]
    refine or_iff_left ?_
    rintro ⟨hcounting, hwritten⟩
    rcases hwrote with hnone | ⟨hcalm, -⟩
    · exact hwritten hnone
    · rw [hcalm] at hcounting
      cases hcounting
  cases source with
  | none =>
      obtain ⟨hsource, hnot⟩ := hs
      refine ⟨?_, hput.not.mpr hnot⟩
      rcases hsource with hnil | ⟨e, he⟩
      · rcases hwrote with hnone | ⟨-, e, he⟩
        · exact .inl (by simp [hnil, hnone])
        · exact .inr ⟨e, mem_unwritten_snoc (by rwa [unwritten_of_writes h hnil])⟩
      · exact .inr ⟨e, mem_unwritten_snoc he⟩
  | some sub =>
      obtain ⟨hswapped, hstate⟩ := hs
      refine ⟨hswapped.snoc m, ?_⟩
      split at hstate
      · rename_i hrestored
        rw [if_pos hrestored, hput]
        refine hstate.imp_right fun htried => htried.snoc ?_
        rcases hcounts with hcounts | hopen
        · exact hcounts
        · rw [hopen sub rfl] at hrestored
          cases hrestored
      · rename_i hopen
        rw [if_neg hopen, hput]
        exact hstate

theorem Sourced.continuedBy {source : Option Substitution} (hs : h.Sourced source)
    (hg : h.ContinuedBy Calm h') : h'.Sourced source := by
  induction hg with
  | refl => exact hs
  | snoc _ kind ih => exact ih.snoc (.inl kind.wrote) (.inl kind.counts)

end History

/-! ## Accounts -/

namespace SessionState

variable {s s' s'' : SessionState} {m : Moment}

structure Accounts (p : TracePlan) (s : SessionState) (h : History) : Prop where
  pins : s.bridge.Pins h
  requests : h.Owed s.held
  base : h.base? = some p.baseDepth
  invoking : h.invoking? = some p.invoking
  source : h.Sourced s.substitution

/-- A session that waits for an event, or handles one. -/
structure Listens (p : TracePlan) (s : SessionState) (h : History) : Prop extends
    s.Accounts p h where
  balanced : s.bridge.Balanced h
  step : s.step = h.awaited?
  unrestored : ∀ sub, s.substitution = some sub → sub.restored = false

theorem Accounts.onlyMinor (ha : s.Accounts p h) (hp : s.OnlyMinor h s' h') : s'.Accounts p h' where
  pins := hp.pins
  requests := by
    rw [hp.held]
    exact ha.requests.keeps hp.continuedBy.opened hp.continuedBy.cleared
      hp.continuedBy.calm.stays.orderly.mp
  base := hp.continuedBy.base? ha.base
  invoking := hp.continuedBy.invoking? ha.invoking
  source := by
    rw [hp.substitution]
    exact ha.source.continuedBy hp.continuedBy.calm

theorem Listens.onlyMinor (hl : s.Listens p h) (hp : s.OnlyMinor h s' h')
    (hb : s'.bridge.Balanced h') : s'.Listens p h' where
  toAccounts := hl.toAccounts.onlyMinor hp
  balanced := hb
  step := by rw [hp.step, hp.continuedBy.awaited?, hl.step]
  unrestored := by
    rw [hp.substitution]
    exact hl.unrestored

theorem Listens.idle (hl : s.Listens p h) (hg : h.ContinuedBy Idle h') : s.Listens p h' :=
  hl.onlyMinor (onlyMinor_of_idle hl.pins hg) (hl.balanced.idle hg)

/-- One more moment, of which the session has made an entry. -/
theorem Accounts.next (ha : s.Accounts p h) (hbridge : s'.bridge = s.bridge)
    (hk : h.KeepsPins (h ++ [m])) (hrequests : History.Owed (h ++ [m]) s'.held)
    (hsource : History.Sourced (h ++ [m]) s'.substitution) : s'.Accounts p (h ++ [m]) where
  pins := ha.pins.keeps (by rw [hbridge]) hk
  requests := hrequests
  base := by rw [History.base?_snoc, ha.base]; rfl
  invoking := by rw [History.invoking?_snoc, ha.invoking]; rfl
  source := hsource

theorem Listens.next (hl : s.Listens p h) (ha : s'.Accounts p (h ++ [m]))
    (hbridge : s'.bridge = s.bridge) (hk : h.KeepsPins (h ++ [m]))
    (hstep : s'.step = m.await h.awaited?)
    (hsub : ∀ sub, s'.substitution = some sub → sub.restored = false) :
    s'.Listens p (h ++ [m]) where
  toAccounts := ha
  balanced := hl.balanced.keeps (by rw [hbridge]) hk
  step := by rw [History.awaited?_snoc, hstep]
  unrestored := hsub

/-! ### Changes of requests -/

/-- Requests were set or cleared. -/
structure RequestsMoved (s : SessionState) (h : History) (s' : SessionState) (h' : History) :
    Prop where
  continuedBy : h.ContinuedBy Calm h'
  pins : h.KeepsPins h'
  bridge : s'.bridge = s.bridge
  substitution : s'.substitution = s.substitution

theorem RequestsMoved.refl (s : SessionState) (h : History) : s.RequestsMoved h s h :=
  ⟨.refl, .refl h, rfl, rfl⟩

theorem RequestsMoved.trans (h₁ : s.RequestsMoved h s' h') (h₂ : s'.RequestsMoved h' s'' h'') :
    s.RequestsMoved h s'' h'' :=
  ⟨h₁.continuedBy.trans h₂.continuedBy, h₁.pins.trans h₂.pins, h₂.bridge.trans h₁.bridge,
    h₂.substitution.trans h₁.substitution⟩

theorem RequestsMoved.balanced (hm : s.RequestsMoved h s' h') (hb : s.bridge.Balanced h) :
    s'.bridge.Balanced h' :=
  hb.keeps (by rw [hm.bridge]) hm.pins

/-- The same requests are held, in another order. -/
theorem Accounts.same (ha : s.Accounts p h) (hheld : s'.held.Perm s.held)
    (hbridge : s'.bridge = s.bridge) (hsub : s'.substitution = s.substitution) :
    s'.Accounts p h where
  pins := by rw [hbridge]; exact ha.pins
  requests := ha.requests.perm hheld
  base := ha.base
  invoking := ha.invoking
  source := by rw [hsub]; exact ha.source

theorem requestsMoved_cleared (kind : UInt8) (id : RequestId)
    (r : (Command.clearRequest kind id).Answer)
    (hbridge : s'.bridge = s.bridge) (hsub : s'.substitution = s.substitution) :
    s.RequestsMoved h s' (h ++ [.sent (.clearRequest kind id) r]) :=
  ⟨.one (Moment.calm_cleared kind id r), History.keepsPins_snoc h rfl rfl rfl, hbridge, hsub⟩

theorem requestsMoved_set (kind policy : UInt8) (modifiers : List EventModifier)
    (r : (Command.setRequest kind policy modifiers).Answer)
    (hbridge : s'.bridge = s.bridge) (hsub : s'.substitution = s.substitution) :
    s.RequestsMoved h s' (h ++ [.sent (.setRequest kind policy modifiers) r]) :=
  ⟨.one (Moment.calm_set kind policy modifiers r), History.keepsPins_snoc h rfl rfl rfl, hbridge,
    hsub⟩

theorem Accounts.clear (ha : s.Accounts p h) {kind : UInt8} {id : RequestId}
    {rest : List (UInt8 × RequestId)} (hheld : s.held.Perm ((kind, id) :: rest))
    (hheld' : s'.held.Perm rest) {r : (Command.clearRequest kind id).Answer}
    (hm : s.RequestsMoved h s' (h ++ [.sent (.clearRequest kind id) r])) :
    s'.Accounts p (h ++ [.sent (.clearRequest kind id) r]) := by
  refine ha.next hm.bridge hm.pins ((ha.requests.clear hheld r).perm hheld') ?_
  rw [hm.substitution]
  exact ha.source.continuedBy hm.continuedBy

theorem Accounts.set (ha : s.Accounts p h) {kind policy : UInt8} {modifiers : List EventModifier}
    {id : RequestId} {gone : List (UInt8 × RequestId)} (hgone : h.Orderly → gone = [])
    (hheld : (s'.held ++ gone).Perm ((kind, id) :: s.held))
    (hm : s.RequestsMoved h s' (h ++ [.sent (.setRequest kind policy modifiers) (.ok id)])) :
    s'.Accounts p (h ++ [.sent (.setRequest kind policy modifiers) (.ok id)]) := by
  refine ha.next hm.bridge hm.pins (ha.requests.set hgone hheld) ?_
  rw [hm.substitution]
  exact ha.source.continuedBy hm.continuedBy

/-- Only the requests of methods have changed. -/
theorem Listens.requestsMoved (hl : s.Listens p h) (ha : s'.Accounts p h')
    (hm : s.RequestsMoved h s' h')
    (hstep : s'.step = s.step) (hawaited : h'.awaited? = h.awaited?) : s'.Listens p h' where
  toAccounts := ha
  balanced := hm.balanced hl.balanced
  step := by rw [hstep, hawaited, hl.step]
  unrestored := by rw [hm.substitution]; exact hl.unrestored

/-! ### Guard and step -/

theorem held_guard {id : RequestId} (hnone : s.guard = none) :
    (held { s with guard := some id }).Perm ((EventKind.exception, id) :: s.held) := by
  unfold held
  rw [hnone]
  exact List.perm_middle

theorem held_of_guard {id : RequestId} (hsome : s.guard = some id) :
    s.held.Perm ((EventKind.exception, id) :: held { s with guard := none }) := by
  unfold held
  rw [hsome]
  exact List.perm_middle

/-- A step takes the place of the one that was awaited, if any. -/
theorem held_step {id : RequestId} :
    (held { s with step := some id } ++ s.step.toList.map (EventKind.singleStep, ·)).Perm
      ((EventKind.singleStep, id) :: s.held) := by
  unfold held
  rw [Option.toList_some, List.map_singleton, ← List.append_assoc, List.append_assoc _ [_],
    List.singleton_append]
  exact List.perm_middle.trans (by simp)

theorem held_of_step {id : RequestId} (hsome : s.step = some id) :
    s.held.Perm ((EventKind.singleStep, id) :: held { s with step := none }) := by
  unfold held
  rw [hsome, ← List.append_assoc, ← List.append_assoc]
  exact (List.perm_append_singleton _ _).trans (by simp)

end SessionState

/-! ## Breakpoints -/

theorem MethodEdge.number_ne_singleStep (edge : MethodEdge) :
    edge.number ≠ EventKind.singleStep := by
  cases edge <;> decide

namespace SessionRoutine

open SessionState

variable {ε : Type} {s : SessionState} {edge : MethodEdge} {k : Nat}

/-- The routine keeps to the rules and ends in `ok`; if it fails, the accounts are right. -/
def AccountSafe (p : TracePlan) (t : Routine ε SessionState α) (s : SessionState) (h : History)
    (ok : α → SessionState → History → Prop) : Prop :=
  t.Meets p.keeper ok (fun _ s' h' => s'.Accounts p h') s h

theorem Quiet.accountSafe {t : Routine ε SessionState α}
    {post ok : α → SessionState → History → Prop}
    (ht : Quiet p t s h post) (ha : s.Accounts p h)
    (hok : ∀ a s' h', s.OnlyMinor h s' h' → s'.bridge.Balanced h' → post a s' h' → ok a s' h') :
    AccountSafe p t s h ok :=
  Meets.mono ht (fun a s' h' hq => hok a s' h' hq.1.1 hq.1.2 hq.2) fun _ _ _ hp => ha.onlyMinor hp

theorem AccountSafe.mono {t : Routine ε SessionState α} {ok ok' : α → SessionState → History → Prop}
    (ht : AccountSafe p t s h ok) (hok : ∀ a s' h', ok a s' h' → ok' a s' h') :
    AccountSafe p t s h ok' :=
  Meets.mono ht hok fun _ _ _ ha => ha

theorem AccountSafe.bind {t : Routine ε SessionState α} {f : α → Routine ε SessionState β}
    {ok : α → SessionState → History → Prop} {ok' : β → SessionState → History → Prop}
    (ht : AccountSafe p t s h ok) (hf : ∀ a s' h', ok a s' h' → AccountSafe p (f a) s' h' ok') :
    AccountSafe p (t >>= f) s h ok' :=
  meets_bind.mpr <| Meets.mono ht hf fun _ _ _ ha => ha

theorem accountSafe_pure {a : α} {ok : α → SessionState → History → Prop} (ha : ok a s h) :
    AccountSafe p (pure a : Routine ε SessionState α) s h ok := meets_pure.mpr ha

theorem accountSafe_throw {e : ε} {ok : α → SessionState → History → Prop} (ha : s.Accounts p h) :
    AccountSafe p (throw e : Routine ε SessionState α) s h ok := meets_throw.mpr ha

theorem accountSafe_get_bind {f : SessionState → Routine ε SessionState β}
    {ok : β → SessionState → History → Prop} (hf : AccountSafe p (f s) s h ok) :
    AccountSafe p (get >>= f) s h ok := meets_bind.mpr <| meets_get.mpr hf

theorem accountSafe_modify_bind {f : SessionState → SessionState}
    {t : PUnit → Routine ε SessionState β} {ok : β → SessionState → History → Prop}
    (hf : AccountSafe p (t ⟨⟩) (f s) h ok) : AccountSafe p (modify f >>= t) s h ok :=
  meets_bind.mpr <| meets_modify.mpr hf

theorem accountSafe_ite {P : Prop} [Decidable P] {t e : Routine ε SessionState α}
    {ok : α → SessionState → History → Prop} (ht : P → AccountSafe p t s h ok)
    (he : ¬P → AccountSafe p e s h ok) : AccountSafe p (if P then t else e) s h ok := by
  split
  · exact ht ‹_›
  · exact he ‹_›

theorem accountSafe_failRunning {t : SessionRoutine α} {ok : α → SessionState → History → Prop}
    (ht : AccountSafe p t s h ok) : AccountSafe p (TracePlan.failRunning t) s h ok :=
  meets_mapError.mpr ht

theorem accountSafe_failAs {key : FailureKey} {t : SessionRoutine α}
    {ok : α → SessionState → History → Prop} (ht : AccountSafe p t s h ok) :
    AccountSafe p (TracePlan.failAs key t) s h ok :=
  meets_mapError.mpr ht

/-- A quiet routine in front of one that may not be. -/
theorem Quiet.andThen {t : Routine ε SessionState α} {f : α → Routine ε SessionState β}
    {post : α → SessionState → History → Prop} {ok : β → SessionState → History → Prop}
    (ht : Quiet p t s h post) (ha : s.Accounts p h)
    (hf : ∀ a s' h', s.OnlyMinor h s' h' → s'.bridge.Balanced h' → post a s' h' →
      AccountSafe p (f a) s' h' ok) :
    AccountSafe p (t >>= f) s h ok :=
  (ht.accountSafe ha hf).bind fun _ _ _ hf => hf

/-- Clearing the request of a breakpoint. -/
theorem accounts_clearPoint {b b' : Breakpoint} {id : RequestId} (ha : s.Accounts p h)
    (hb : s.point? edge k = some b) (hid : b.request = some id) (hreq : b'.request = none)
    (r : (Command.clearRequest b.kind.number id).Answer) :
    (s.setPoint edge k b').Accounts p (h ++ [.sent (.clearRequest b.kind.number id) r]) := by
  obtain ⟨rest, hold, hnew⟩ := held_setPoint hb
  have hheld := hnew b'
  rw [Breakpoint.held_of_none hreq] at hheld
  rw [Breakpoint.held_of_some hid] at hold
  exact ha.clear hold hheld (requestsMoved_cleared _ _ _ rfl rfl)

/-- Nothing is cleared where nothing was set. -/
theorem accounts_setPoint {b b' : Breakpoint} (ha : s.Accounts p h)
    (hb : s.point? edge k = some b) (hheld : b'.held = b.held) :
    (s.setPoint edge k b').Accounts p h := by
  obtain ⟨rest, hold, hnew⟩ := held_setPoint hb
  refine ha.same ?_ rfl rfl
  have hheld' := hnew b'
  rw [hheld] at hheld'
  exact hheld'.trans hold.symm

theorem consume_accountSafe (edge : MethodEdge) (k : Nat) (hl : s.Listens p h) :
    AccountSafe p (TracePlan.onPoint edge k Breakpoint.consume) s h fun _ s' h' =>
      s'.Listens p h' ∧ s'.step = s.step ∧ h.ContinuedBy Calm h' := by
  refine onPoint_meets (fun b hb => ?_) fun _ _ => hl.toAccounts
  have hkind := b.kind.number_ne_singleStep
  refine consume_meets (fun id => .clear hl.pins.finals _ id) (fun hnone => ?_) (fun id hid => ?_)
    fun id e hid => accounts_clearPoint hl.toAccounts hb hid rfl _
  · have ha : (s.setPoint edge k { b with consumed := true }).Accounts p h :=
      accounts_setPoint hl.toAccounts hb rfl
    exact ⟨hl.requestsMoved ha ⟨.refl, .refl h, rfl, rfl⟩ rfl rfl, rfl, .refl⟩
  · have hm : s.RequestsMoved h (s.setPoint edge k { b with consumed := true, request := none })
        (h ++ [.sent (.clearRequest b.kind.number id) (.ok ())]) :=
          requestsMoved_cleared _ _ _ rfl rfl
    refine ⟨hl.requestsMoved (accounts_clearPoint hl.toAccounts hb hid rfl _) hm rfl ?_, rfl,
      hm.continuedBy⟩
    rw [History.awaited?_snoc, Moment.await_clear_of_ne _ hkind]

theorem enable_accountSafe (edge : MethodEdge) (k : Nat) (hl : s.Listens p h) :
    AccountSafe p (TracePlan.onPoint edge k (Breakpoint.enable p.thread)) s h fun _ s' h' =>
      s'.Listens p h' ∧ s'.step = s.step ∧ h.ContinuedBy Calm h' := by
  refine onPoint_meets (fun b hb => ?_) fun _ _ => hl.toAccounts
  have hkind := b.kind.number_ne_singleStep
  refine enable_meets ?_ (.set hl.pins.finals hkind _ _) (fun id hnone => ?_) fun e => ?_
  · have ha := accounts_setPoint hl.toAccounts hb rfl
    exact ⟨hl.requestsMoved ha ⟨.refl, .refl h, rfl, rfl⟩ rfl rfl, rfl, .refl⟩
  · obtain ⟨rest, hold, hnew⟩ := held_setPoint hb
    have hm : s.RequestsMoved h (s.setPoint edge k { b with request := some id })
        (h ++ [.sent (History.methodRequest p.thread b.kind b.declaringType) (.ok id)]) :=
      requestsMoved_set _ _ _ _ rfl rfl
    have ha := hl.toAccounts.set (fun _ => rfl) ?_ hm
    · refine ⟨hl.requestsMoved ha hm rfl ?_, rfl, hm.continuedBy⟩
      exact (History.awaited?_snoc _ _).trans (Moment.await_set_of_ne _ hkind _ _ _)
    · rw [Breakpoint.held_of_none hnone] at hold
      rw [List.append_nil]
      exact (hnew _).trans (hold.symm.cons _)
  · have ha := accounts_setPoint hl.toAccounts hb rfl
    exact ha.onlyMinor (onlyMinor_of_idle ha.pins (.one (Moment.idle_refused _ _ _ e)))

end SessionRoutine

end StreamTrace
