import Mathlib.Data.List.Nodup
import StreamTrace.Proofs.Machine.CommandEffects
import StreamTrace.Proofs.Machine.StatementValues

/-!
# What is put between the calls

Where the thread has stopped, the bridge makes maps, collectors and matchers, and puts collectors
behind streams. Whatever it is told, the machine may still be handed back. A collector that it has
made gives every element back, a stream behind which it has put something stands for what it stood
for, and a matcher is around the predicate that it was made for.
-/

namespace StreamTrace

open Scene

variable {S : Scene} {vm₀ vm vm' vm'' : Vm}

/-! ## Debugging within bounds -/

/-- What the machine itself replies to an action, and what becomes of it. -/
inductive Vm.Responds (vm : Vm) : (a : Action) → a.Reply → Vm → Prop where
  | command (c : Command) : Responds vm (.command c) (vm.answer c).1 (vm.answer c).2
  | beside {a : Action} (r : a.Reply) (h : ∀ c, a ≠ .command c) : Responds vm a r vm

theorem Vm.Responds.performed {a : Action} {r : a.Reply} (h : vm.Responds a r vm') :
    vm.Performed a r vm' := by
  cases h with
  | command c => exact .served c
  | beside r h => exact .beside r h

theorem Vm.Responds.answer {c : Command} {r : c.Answer} (h : vm.Responds (.command c) r vm') :
    vm.answer c = (r, vm') := by
  cases h with
  | command => rfl
  | beside _ h => exact absurd rfl (h c)

/-- The machine whose thread has stopped on `vm₀`. Whatever is done to it, it may be handed back. -/
def Target.handed (S : Scene) (vm₀ : Vm) : Target Vm where
  asks vm a := ∀ c, a = .command c → S.Handed vm₀ (vm.answer c).2
  answers vm a r vm' := vm.Responds a r vm'

namespace Scene

/-- The machine goes on being handed over while nothing is forced, and nothing but the variables of
the statement changes. -/
theorem Handed.next (h : S.Handed vm₀ vm) (hgoes : S.Progress vm vm') (htidy : vm'.Tidy)
    (hslots : ∀ f f', vm.frames.head? = some f → vm'.frames.head? = some f' → f.id ≠ S.frame →
      ∀ slot, f'.slots.get? slot = f.slots.get? slot)
    (hforced : vm'.forcedReturn = vm.forcedReturn) (hdead : vm'.dead = vm.dead)
    (houtbox : vm'.outbox = vm.outbox) : S.Handed vm₀ vm' := by
  refine ⟨h.toProgress.trans hgoes, htidy, fun f f'' hf hf'' hne slot => ?_, fun v' hv' => ?_,
    hdead.trans h.dead, houtbox.trans h.outbox⟩
  · obtain ⟨f', hf', hkept⟩ := h.frames.head hf
    rw [hslots f' f'' hf' hf'' (fun hid => hne (hkept.id.symm.trans hid)) slot]
    rcases h.top f f' hf hf' hne slot with hsame | ⟨v, v', hv, hv', hwrapped⟩
    · exact .inl hsame
    · exact .inr ⟨v, v', hv, hv', hwrapped.grows hgoes.grows⟩
  · obtain ⟨request, thread, l, v, hmem, halike⟩ := h.forced v' (hforced ▸ hv')
    exact ⟨request, thread, l, v, hmem, halike.grows hgoes.grows⟩

theorem Handed.evolved_to (h : S.Handed vm₀ vm) (hevolved : vm.Evolved vm') (htidy : vm'.Tidy) :
    S.Handed vm₀ vm' := by
  refine h.next (progress_of_evolved hevolved) htidy (fun f f' hf hf' _ slot => ?_)
    hevolved.forcedReturn hevolved.dead hevolved.outbox
  rw [hevolved.frames, hf] at hf'
  rw [Option.some.inj hf']

/-- What leaves the thread alone may be done at any stop. -/
theorem Handed.evolves (h : S.Handed vm₀ vm) (hevolves : vm.Evolves vm') : S.Handed vm₀ vm' :=
  h.evolved_to (hevolves h.tidy).2 (hevolves h.tidy).1

theorem Handed.answer (h : S.Handed vm₀ vm) {c : Command} (htouch : c.touchesThread = false) :
    S.Handed vm₀ (vm.answer c).2 := h.evolves (vm.answer_evolves htouch)

theorem Handed.evolved (h : S.Handed vm₀ vm) {c : Command} (htouch : c.touchesThread = false) :
    vm.Evolved (vm.answer c).2 := (vm.answer_evolves htouch h.tidy).2

end Scene

namespace Routine

variable {ε σ α : Type} {s : σ}

theorem meets_handed {c : Command} {wrap : JdwpError → TraceError} {ok : c.Reply → σ → Vm → Prop}
    {err : TraceError → σ → Vm → Prop} (hasks : S.Handed vm₀ (vm.answer c).2)
    (hok : ∀ r vm', vm.answer c = (.ok r, vm') → ok r s vm')
    (herr : ∀ e vm', vm.answer c = (.error e, vm') → err (wrap e) s vm') :
    (commandOr c wrap).Meets (.handed S vm₀) ok err s vm := by
  refine meets_commandOr.mpr ⟨fun c' hc => ?_, fun r vm' hr => hok r vm' hr.answer,
    fun e vm' he => herr e vm' he.answer⟩
  cases hc
  exact hasks

end Routine

/-! ## What the bridge knows -/

/-- The lists of methods that the bridge has noted are those of the classes. -/
def BridgeState.Lists (s : BridgeState) (vm : Vm) : Prop :=
  ∀ type infos, s.methods.get? type = some infos →
    ∃ c, vm.classes.byId? type = some c ∧ infos = c.methodInfos

theorem BridgeState.lists_empty (vm : Vm) : ({} : BridgeState).Lists vm := nofun

theorem BridgeState.Lists.grows {s : BridgeState} (h : s.Lists vm) (hg : vm.Grows vm') :
    s.Lists vm' := by
  intro type infos hinfos
  obtain ⟨c, hc, rfl⟩ := h type infos hinfos
  obtain ⟨c', hc', hsame⟩ := hg.classes hc
  exact ⟨c', hc', by rw [ClassDef.methodInfos, ClassDef.methodInfos, hsame.methods]⟩

/-- A method that was found is the one with its identifier. -/
theorem BridgeState.Lists.finds {s : BridgeState} (h : s.Lists vm) (htidy : vm.Tidy)
    {name descriptor : String} {found : TypeId × MethodInfo}
    (hfinds : Bridge.Finds name descriptor found s) {c : ClassDef} {m : MethodDef}
    (hc : vm.classes.byId? found.1 = some c)
    (hm : c.methods.find? (·.id == found.2.methodId) = some m) : m.name = name := by
  obtain ⟨infos, hinfos, hmem, hname, -⟩ := hfinds
  obtain ⟨c', hc', rfl⟩ := h found.1 infos hinfos
  obtain rfl := Option.some.inj (hc.symm.trans hc')
  obtain ⟨m', hm', heq⟩ := List.mem_map.mp hmem
  have hid : m'.id = m.id := by
    have hfound := List.find?_some hm
    rw [← heq] at hfound
    exact (beq_iff_eq.mp hfound).symm
  have hids := (htidy.fits c (List.mem_of_find?_eq_some hc)).ids
  obtain rfl := List.inj_on_of_nodup_map hids hm' (List.mem_of_find?_eq_some hm) hid
  rw [← hname, ← heq]

theorem answer_typeMethods {type : TypeId} {methods : List MethodInfo}
    (h : vm.answer (.typeMethods type) = (.ok methods, vm')) :
    vm' = vm ∧ ∃ c, vm.classes.byId? type = some c ∧ methods = c.methodInfos := by
  have hread : VmCommand.Yields Vm.Still (Vm.respond (.typeMethods type)) vm
      fun (methods : List MethodInfo) vm' =>
        vm' = vm ∧ ∃ c, vm.classes.byId? type = some c ∧ methods = c.methodInfos := by
    refine Vm.alive_then fun _ => VmCommand.Yields.bind ((Vm.getClass_yields type).mono ?_)
    rintro c vm' - ⟨rfl, hc⟩
    exact VmCommand.yields_pure ⟨rfl, c, hc, rfl⟩
  have hpost := hread.2 methods (congrArg Prod.fst h)
  rwa [show ((Vm.respond (.typeMethods type)).run.run vm).2 = vm' from congrArg Prod.snd h] at hpost

/-! ## What the bridge leaves alone -/

namespace BridgeRoutine

open Routine

variable {α β : Type} {s s' : BridgeState}

/-- The bridge has worked on a machine that may still be handed back, and what it has noted of the
classes is true. -/
structure StillHanded (S : Scene) (vm₀ vm : Vm) (s' : BridgeState) (vm' : Vm) : Prop where
  handed : S.Handed vm₀ vm'
  lists : s'.Lists vm'
  evolved : vm.Evolved vm'
  requests : vm'.requests = vm.requests

theorem StillHanded.begin (h : S.Handed vm₀ vm) (hl : s.Lists vm) : StillHanded S vm₀ vm s vm :=
  ⟨h, hl, .refl vm, rfl⟩

theorem StillHanded.trans (h : StillHanded S vm₀ vm s vm') (h' : StillHanded S vm₀ vm' s' vm'') :
    StillHanded S vm₀ vm s' vm'' :=
  ⟨h'.handed, h'.lists, h.evolved.trans h'.evolved, h'.requests.trans h.requests⟩

theorem StillHanded.answer (h : StillHanded S vm₀ vm s vm') {c : Command}
    (htouch : c.touchesThread = false)
    (hasks : c.asks = false) : StillHanded S vm₀ vm s (vm'.answer c).2 :=
  have hevolved := h.handed.evolved htouch
  ⟨h.handed.answer htouch, h.lists.grows hevolved.grows, h.evolved.trans hevolved,
    ((Vm.answered vm' c).asked_of_ne hasks).1.trans h.requests⟩

/-- The bridge does its work on the machine, and what comes of it satisfies `post`. -/
def HandBackSafe (S : Scene) (vm₀ : Vm) (t : BridgeRoutine α) (s : BridgeState) (vm : Vm)
    (post : α → BridgeState → Vm → Prop) : Prop :=
  t.Meets (.handed S vm₀) (fun a s' vm' => StillHanded S vm₀ vm s' vm' ∧ post a s' vm')
    (fun _ s' vm' => StillHanded S vm₀ vm s' vm') s vm

variable {post : α → BridgeState → Vm → Prop}

theorem HandBackSafe.mono {t : BridgeRoutine α} {post' : α → BridgeState → Vm → Prop}
    (h : t.HandBackSafe S vm₀ s vm post)
    (hpost : ∀ a s' vm', StillHanded S vm₀ vm s' vm' → post a s' vm' → post' a s' vm') :
    t.HandBackSafe S vm₀ s vm post' :=
  Meets.mono h (fun a s' vm' h => ⟨h.1, hpost a s' vm' h.1 h.2⟩) fun _ _ _ h => h

theorem HandBackSafe.bind {t : BridgeRoutine α} {f : α → BridgeRoutine β}
    {post' : β → BridgeState → Vm → Prop} (h : t.HandBackSafe S vm₀ s vm post)
    (hf : ∀ a s' vm', StillHanded S vm₀ vm s' vm' → post a s' vm' →
      (f a).HandBackSafe S vm₀ s' vm' post') :
    HandBackSafe S vm₀ (t >>= f) s vm post' := by
  refine meets_bind.mpr (Meets.mono h ?_ fun _ _ _ h => h)
  rintro a s' vm' ⟨hworked, hpost⟩
  exact Meets.mono (hf a s' vm' hworked hpost) (fun _ _ _ h => ⟨hworked.trans h.1, h.2⟩)
    fun _ _ _ h => hworked.trans h

theorem handBackSafe_pure {a : α} (h : S.Handed vm₀ vm) (hl : s.Lists vm) (hpost : post a s vm) :
    HandBackSafe S vm₀ (pure a) s vm post := meets_pure.mpr ⟨.begin h hl, hpost⟩

theorem handBackSafe_commandOr {c : Command} {wrap : JdwpError → TraceError}
    {post : c.Reply → Vm → Prop} (h : S.Handed vm₀ vm) (hl : s.Lists vm)
    (htouch : c.touchesThread = false) (hasks : c.asks = false)
    (hpost : ∀ r vm', vm.answer c = (.ok r, vm') → vm.Evolved vm' → post r vm') :
    HandBackSafe S vm₀ (commandOr c wrap) s vm fun r _ vm' => post r vm' := by
  have hworked := (StillHanded.begin h hl).answer htouch hasks
  refine meets_handed (h.answer htouch) (fun r vm' hr => ?_) fun e vm' he => ?_
  · rw [hr] at hworked
    exact ⟨hworked, hpost r vm' hr hworked.evolved⟩
  · rwa [he] at hworked

/-- What serves the bridge keeps the machine one that may be handed back. -/
theorem hosts_handed : (Target.handed S vm₀).Hosts (BridgeCommand true) (StillHanded S vm₀ vm)
    (StillHanded S vm₀ vm) := by
  have htouch : ∀ {c : Command}, c.servesBridge = true →
      c.touchesThread = false ∧ c.asks = false := by
    intro c hc
    cases c <;> first | exact ⟨rfl, rfl⟩ | cases hc
  have hasks : ∀ {s : BridgeState} {g c}, StillHanded S vm₀ vm s g → BridgeCommand true c →
      (Target.handed S vm₀).asks g (.command c) := by
    intro s g c hw hc c' heq
    cases heq
    exact hw.handed.answer (htouch hc.1).1
  have hanswers : ∀ {s : BridgeState} {g : Vm} {c : Command} {r : c.Answer} {g' : Vm},
      StillHanded S vm₀ vm s g → BridgeCommand true c → g.Responds (.command c) r g' →
        StillHanded S vm₀ vm s g' := by
    intro s g c r g' hw hc hr
    have hworked := hw.answer (htouch hc.1).1 (htouch hc.1).2
    rwa [hr.answer] at hworked
  refine ⟨fun hw hc _ => hasks hw hc, fun hw hc _ hr => hanswers hw hc hr, fun hw hr => ?_,
    fun hw hc _ => hasks hw hc, fun className hw hc _ hr => ?_, fun hw hc _ hr => hanswers hw hc hr,
    id, fun hmethods _ hw => ?_⟩
  · obtain ⟨rfl, c, hc, rfl⟩ := answer_typeMethods hr.answer
    refine ⟨hw.handed, fun type' infos hinfos => ?_, hw.evolved, hw.requests⟩
    rw [Table.get?_set] at hinfos
    split at hinfos
    · rename_i htype
      cases hinfos
      exact ⟨c, htype ▸ hc, rfl⟩
    · exact hw.lists type' infos hinfos
  · exact ⟨(hanswers hw hc hr).handed, (hanswers hw hc hr).lists, (hanswers hw hc hr).evolved,
      (hanswers hw hc hr).requests⟩
  · refine ⟨hw.handed, fun type infos hinfos => hw.lists type infos ?_, hw.evolved, hw.requests⟩
    rw [← hmethods]
    exact hinfos

theorem handBackSafe_of_sends {t : BridgeRoutine α} {post : α → BridgeState → Prop}
    (ht : t.Sends (BridgeCommand true) s post) (h : S.Handed vm₀ vm) (hl : s.Lists vm) :
    t.HandBackSafe S vm₀ s vm fun a s' _ => post a s' :=
  Meets.mono (ht.meets hosts_handed (StillHanded.begin h hl)) (fun _ _ _ h => ⟨h.2, h.1.2⟩)
    fun _ _ _ h => h.2

/-- What only sends commands fails in the end. -/
theorem handBackSafe_of_throw {t : BridgeRoutine α}
    (ht : t.Sends (BridgeCommand true) s fun _ _ => False)
    (h : S.Handed vm₀ vm) (hl : s.Lists vm) : t.HandBackSafe S vm₀ s vm post :=
  (handBackSafe_of_sends ht h hl).mono fun _ _ _ _ h => h.elim

end BridgeRoutine

/-! ## What the bridge makes -/

namespace Vm

/-- What a constructor with so many arguments makes: one with three a collector, and one with four
a matcher around the last of them. -/
def Constructs (vm : Vm) (args : List Value) (v : Value) : Prop :=
  (args.length = 3 → ∃ id, v.objectId? = some id ∧ vm.Computes id .ok) ∧
    (args.length = 4 → vm.Wrapped (arg args 3) v)

theorem Constructs.grows {args : List Value} {v : Value} (h : vm.Constructs args v)
    (hg : vm.Grows vm') :
    vm'.Constructs args v := by
  refine ⟨fun hlength => ?_, fun hlength => (h.2 hlength).grows hg⟩
  obtain ⟨id, hid, hcomputes⟩ := h.1 hlength
  exact ⟨id, hid, hcomputes.grows hg⟩

theorem answer_newInstance {type : TypeId} {thread : ThreadId} {method : MethodId}
    {args : List Value} {options : UInt32} {o : InvokeOutcome} (htidy : vm.Tidy)
    (h : vm.answer (.newInstance type thread method args options) = (.ok o, vm')) :
    o.exception = none ∧ vm'.Constructs args o.value := by
  have hmakes : VmCommand.Yields Evolves
      (respond (.newInstance type thread method args options)) vm
      fun (o : InvokeOutcome) vm' => o.exception = none ∧ vm'.Constructs args o.value := by
    refine stopped_then fun _ => (newInstance_yields fun h => False.elim h).mono ?_
    rintro o vm' - ⟨className, object, hmade, hhelper, hfits⟩
    obtain ⟨hthree, hfour⟩ := hfits htidy.fits
    refine ⟨hmade.exception, fun hlength => ?_, fun hlength => ?_⟩
    · obtain ⟨map, time, tick, rfl⟩ := hhelper.collects (hthree hlength)
      exact ⟨_, hmade.value, .collector hmade.object⟩
    · obtain ⟨before, after, time, predicate, rfl, hpredicate⟩ := hhelper.wraps (hfour hlength)
      exact ⟨_, type, before, after, time, predicate, hmade.value, hmade.object, hpredicate⟩
  have hpost := hmakes.2 o (congrArg Prod.fst h)
  rwa [show ((respond (.newInstance type thread method args options)).run.run vm).2 = vm' from
    congrArg Prod.snd h] at hpost

theorem answer_invokeVirtual {object : ObjectId} {thread : ThreadId} {type : TypeId}
    {method : MethodId} {args : List Value} {options : UInt32} {o : InvokeOutcome}
    (h : vm.answer (.invokeVirtual object thread type method args options) = (.ok o, vm')) :
    InvokesStream vm (some object) type method args o vm' := by
  have hinvokes : VmCommand.Yields Evolves
      (respond (.invokeVirtual object thread type method args options)) vm
      fun (o : InvokeOutcome) vm' => InvokesStream vm (some object) type method args o vm' :=
    stopped_then fun _ => invoke_yields (fun h => False.elim h) (fun h => False.elim h)
      (fun h => False.elim h) fun h => False.elim h
  have hpost := hinvokes.2 o (congrArg Prod.fst h)
  rwa [show ((respond (.invokeVirtual object thread type method args options)).run.run vm).2 = vm'
    from congrArg Prod.snd h] at hpost

/-- What is put behind a stream stands for the same if it lets every element through. -/
theorem WrapsStream.alike {receiver : Value} {id : ObjectId} {name : String} {args : List Value}
    {o : InvokeOutcome} (h : WrapsStream vm id name args o vm')
    (hname : name = "peek" ∨ name = "sequential") (hid : receiver.objectId? = some id)
    (hsettled : vm.Settled receiver) (htidy : vm.Tidy) (hg : vm.Grows vm')
    (hargs : name = "peek" → ∃ id, (arg args 0).objectId? = some id ∧ vm.Computes id .ok) :
    o.exception = none ∧ vm'.Alike (some receiver) (some o.value) := by
  obtain ⟨type, element, op, op', he, hwraps, hmade⟩ := h hname
  obtain ⟨m, hm⟩ := hsettled.carries hid he
  obtain ⟨id', hid', hstream⟩ := hm
  obtain rfl := Option.some.inj (hid.symm.trans hid')
  obtain ⟨element', op'', he'⟩ := hstream.lookup
  obtain ⟨rfl, -⟩ := TypedObject.mk.inj (Option.some.inj (he.symm.trans he'))
  have hadds : vm'.OperationMeans op' id .all := by
    cases hwraps with
    | sequential => exact .pass
    | peek hconsumer =>
        obtain ⟨consumer, hconsumer', hcomputes⟩ := hargs rfl
        obtain rfl := Option.some.inj (hconsumer.symm.trans hconsumer')
        exact .peek (hcomputes.grows hg)
  have hnew := StreamMeans.step hmade.object hadds (Nat.lt_succ_of_le (htidy.objects he))
    (hstream.grows hg)
  rw [Passage.andThen_all] at hnew
  exact ⟨hmade.exception, .inr ⟨receiver, o.value, m, rfl, rfl, ⟨id, hid, hstream.grows hg⟩,
    _, hmade.value, hnew⟩⟩

theorem Settled.alike {v v' : Value} (h : vm.Settled v) (halike : vm.Alike (some v) (some v')) :
    vm.Settled v' := by
  rcases halike with heq | ⟨_, w, m, _, heq, _, hm⟩
  · obtain rfl := Option.some.inj heq
    exact h
  · obtain rfl := Option.some.inj heq
    exact .stream hm

end Vm

namespace Bridge

open BridgeRoutine

variable {s : BridgeState}

theorem construct_handBackSafe (b : Bridge) {className : String}
    (hname : endsWithBrackets className = false) (constructor : String) (args : List Value)
    (h : S.Handed vm₀ vm) (hl : s.Lists vm) :
    (b.construct className constructor args).HandBackSafe S vm₀ s vm fun v _ vm' =>
    vm'.Constructs args v := by
  unfold construct
  dsimp only
  rw [if_neg (by simp [hname])]
  refine (handBackSafe_of_sends (resolveType_sends b (.inl rfl)) h hl).bind
    fun type s₁ vm₁ h₁ _ => ?_
  refine (handBackSafe_of_sends (method_sends type "<init>" constructor) h₁.handed h₁.lists).bind
    fun found s₂ vm₂ h₂ _ => ?_
  refine (handBackSafe_commandOr (c := .newInstance type b.thread found.2.methodId args b.options)
    h₂.handed h₂.lists rfl rfl fun o vm₃ ho _ =>
      Vm.answer_newInstance h₂.handed.tidy ho).bind fun o s₃ vm₃ h₃ ho => ?_
  obtain ⟨hexception, hcrafts⟩ := ho
  rw [hexception]
  refine (handBackSafe_of_sends (store_sends className o.value) h₃.handed h₃.lists).bind
    fun _ s₄ vm₄ h₄ _ => ?_
  exact handBackSafe_pure h₄.handed h₄.lists (hcrafts.grows h₄.evolved.grows)

theorem invoke_handBackSafe (b : Bridge) {receiver : Value} {name descriptor : String}
    {args : List Value} (hname : name = "peek" ∨ name = "sequential") (h : S.Handed vm₀ vm)
    (hl : s.Lists vm) (hsettled : vm.Settled receiver)
    (hargs : name = "peek" → ∃ id, (Vm.arg args 0).objectId? = some id ∧ vm.Computes id .ok) :
    (b.invoke receiver name descriptor args).HandBackSafe S vm₀ s vm
      fun v _ vm' => vm'.Alike (some receiver) (some v) := by
  unfold invoke
  split
  · exact handBackSafe_of_throw ((typeOf_sends _).bind fun _ _ _ _ => sends_throw) h hl
  · rename_i object hid
    refine (handBackSafe_of_sends
      (sends_command (c := .objectType object) ⟨rfl, .inr rfl⟩ rfl) h hl).bind
        fun type s₁ vm₁ h₁ _ => ?_
    refine (handBackSafe_of_sends (method_sends type name descriptor) h₁.handed h₁.lists).bind
      fun found s₂ vm₂ h₂ hfinds => ?_
    have hinvoke : ∀ (o : InvokeOutcome) vm₃, vm₂.answer (.invokeVirtual object b.thread found.1
        found.2.methodId args b.options) = (.ok o, vm₃) → vm₂.Evolved vm₃ →
          o.exception = none ∧ vm₃.Alike (some receiver) (some o.value) := by
      intro o vm₃ ho hevolved
      have hg := h₁.evolved.grows.trans h₂.evolved.grows
      obtain ⟨c, m, hc, hm, hwraps⟩ := Vm.answer_invokeVirtual ho object rfl
      rw [h₂.lists.finds h₂.handed.tidy hfinds hc hm] at hwraps
      refine hwraps.alike hname hid (hsettled.grows hg) h₂.handed.tidy hevolved.grows
        fun hpeek => ?_
      obtain ⟨id, hid, hcomputes⟩ := hargs hpeek
      exact ⟨id, hid, hcomputes.grows hg⟩
    refine (handBackSafe_commandOr
      (c := .invokeVirtual object b.thread found.1 found.2.methodId args
      b.options) h₂.handed h₂.lists rfl rfl hinvoke).bind fun o s₃ vm₃ h₃ ho => ?_
    obtain ⟨hexception, halike⟩ := ho
    unfold finishInvocation
    rw [hexception]
    refine (handBackSafe_of_sends (keep_sends o.value) h₃.handed h₃.lists).bind
      fun _ s₄ vm₄ h₄ _ => ?_
    exact handBackSafe_pure h₄.handed h₄.lists (halike.grows h₄.evolved.grows)

end Bridge

namespace Probe

open BridgeRoutine

variable {s : BridgeState} (p : Probe)

theorem newCollector_handBackSafe (map : Value) (tick : Bool) (h : S.Handed vm₀ vm)
    (hl : s.Lists vm) :
    (p.newCollector map tick).HandBackSafe S vm₀ s vm
      fun v _ vm' => ∃ id, v.objectId? = some id ∧ vm'.Computes id .ok :=
  (Bridge.construct_handBackSafe p.bridge (by decide) _ _ h hl).mono fun _ _ _ _ hcrafts =>
    hcrafts.1 rfl

theorem peek_handBackSafe {stream collector : Value} (element : ElementType) (h : S.Handed vm₀ vm)
    (hl : s.Lists vm) (hsettled : vm.Settled stream)
    (hcollector : ∃ id, collector.objectId? = some id ∧ vm.Computes id .ok) :
    (p.peek stream element collector).HandBackSafe S vm₀ s vm
      fun v _ vm' => vm'.Alike (some stream) (some v) :=
  Bridge.invoke_handBackSafe p.bridge (.inl rfl) h hl hsettled fun _ => hcollector

theorem sequential_handBackSafe {stream : Value} (h : S.Handed vm₀ vm) (hl : s.Lists vm)
    (hsettled : vm.Settled stream) :
    (p.sequential stream).HandBackSafe S vm₀ s vm fun v _ vm' => vm'.Alike (some stream) (some v) :=
  Bridge.invoke_handBackSafe p.bridge (.inr rfl) h hl hsettled fun hname => absurd hname (by decide)

theorem collect_handBackSafe (element : Option ElementType) {stream : Value} (tick : Bool)
    (h : S.Handed vm₀ vm) (hl : s.Lists vm) (hsettled : vm.Settled stream) :
    (p.collect element stream tick).HandBackSafe S vm₀ s vm
      fun r _ vm' => vm'.Alike (some stream) (some r.1) := by
  unfold collect
  split
  · refine (handBackSafe_of_sends (p.newMap_sends ⟨.inl rfl, .inl rfl⟩) h hl).bind
      fun map s₁ vm₁ h₁ _ => ?_
    refine (p.newCollector_handBackSafe map tick h₁.handed h₁.lists).bind
      fun collector s₂ vm₂ h₂ hcollector => ?_
    have hg := h₁.evolved.grows.trans h₂.evolved.grows
    refine (p.peek_handBackSafe _ h₂.handed h₂.lists (hsettled.grows hg) hcollector).bind
      fun peeked s₃ vm₃ h₃ halike => handBackSafe_pure h₃.handed h₃.lists halike
  · exact handBackSafe_pure h hl (.refl vm _)

end Probe

namespace Peek

open BridgeRoutine

variable {s : BridgeState} (k : Peek) (p : Probe)

theorem beforeCall_handBackSafe {stream : Value} (h : S.Handed vm₀ vm) (hl : s.Lists vm)
    (hsettled : vm.Settled stream) :
    (k.beforeCall p stream).HandBackSafe S vm₀ s vm
      fun r _ vm' => vm'.Alike (some stream) (some r.2) :=
  HandBackSafe.bind (p.collect_handBackSafe k.typeBefore false h hl hsettled) fun _ _ _ h₁ halike =>
    handBackSafe_pure h₁.handed h₁.lists halike

theorem afterCall_handBackSafe {stream : Value} (h : S.Handed vm₀ vm) (hl : s.Lists vm)
    (hsettled : vm.Settled stream) :
    (k.afterCall p stream).HandBackSafe S vm₀ s vm
      fun r _ vm' => vm'.Alike (some stream) (some r.2) :=
  HandBackSafe.bind (p.collect_handBackSafe k.typeAfter true h hl hsettled) fun _ _ _ h₁ halike =>
    handBackSafe_pure h₁.handed h₁.lists halike

end Peek

/-! ## What a handler puts into the chain -/

namespace StageHandler

open BridgeRoutine

variable {s : BridgeState} (handler : StageHandler) (p : Probe)

/-- The stream to call on stands for the same. -/
theorem beforeCall_handBackSafe {stream : Value} (h : S.Handed vm₀ vm) (hl : s.Lists vm)
    (hsettled : vm.Settled stream) :
    (handler.beforeCall p stream).HandBackSafe S vm₀ s vm
      fun r _ vm' => vm'.Alike (some stream) (some r.2) := by
  unfold beforeCall
  cases handler with
  | source => exact handBackSafe_pure h hl (.refl vm _)
  | matching => exact handBackSafe_pure h hl (.refl vm _)
  | _ =>
      exact HandBackSafe.bind (Peek.beforeCall_handBackSafe _ p h hl hsettled)
        fun _ _ _ h₁ halike => handBackSafe_pure h₁.handed h₁.lists halike

/-- So does what is returned instead of a value. -/
theorem afterCall_handBackSafe {returned : Value} (h : S.Handed vm₀ vm) (hl : s.Lists vm)
    (hsettled : vm.Settled returned) :
    (handler.afterCall p returned).HandBackSafe S vm₀ s vm
      fun r _ vm' => vm'.Alike (some returned) (some r.2) := by
  unfold afterCall
  cases handler with
  | source element sequential =>
      dsimp only
      split
      · exact handBackSafe_pure h hl (.refl vm _)
      · have hwatch : ∀ stream s₁ vm₁, StillHanded S vm₀ vm s₁ vm₁ →
            vm₁.Alike (some returned) (some stream) →
              HandBackSafe S vm₀ (do
                let ticker ← p.newCollector .null true
                let stream ← p.peek stream (element.getD .object) ticker
                return (StageHandler.source element sequential, stream)) s₁ vm₁
                  fun r _ vm' => vm'.Alike (some returned) (some r.2) := by
          intro stream s₁ vm₁ h₁ halike₁
          refine (p.newCollector_handBackSafe .null true h₁.handed h₁.lists).bind
            fun ticker s₂ vm₂ h₂ hticker => ?_
          have hsettled₂ := ((hsettled.grows h₁.evolved.grows).alike halike₁).grows h₂.evolved.grows
          refine (p.peek_handBackSafe _ h₂.handed h₂.lists hsettled₂ hticker).bind
            fun stream' s₃ vm₃ h₃ halike₃ => handBackSafe_pure h₃.handed h₃.lists ?_
          exact (halike₁.grows (h₂.evolved.grows.trans h₃.evolved.grows)).trans halike₃
        split
        · exact (p.sequential_handBackSafe h hl hsettled).bind hwatch
        · exact hwatch returned s vm (.begin h hl) (.refl vm _)
  | intermediate k =>
      exact HandBackSafe.bind (k.afterCall_handBackSafe p h hl hsettled) fun _ _ _ h₁ halike =>
        handBackSafe_pure h₁.handed h₁.lists halike
  | parallel k =>
      have hwatch : ∀ stream s₁ vm₁, StillHanded S vm₀ vm s₁ vm₁ →
          vm₁.Alike (some returned) (some stream) →
            HandBackSafe S vm₀ (do
              let r ← k.afterCall p stream
              return (StageHandler.parallel r.1, r.2)) s₁ vm₁
                fun r _ vm' => vm'.Alike (some returned) (some r.2) := by
        intro stream s₁ vm₁ h₁ halike₁
        have hsettled₁ := (hsettled.grows h₁.evolved.grows).alike halike₁
        refine HandBackSafe.bind (k.afterCall_handBackSafe p h₁.handed h₁.lists hsettled₁)
          fun _ _ _ h₂ halike₂ => handBackSafe_pure h₂.handed h₂.lists ?_
        exact (halike₁.grows h₂.evolved.grows).trans halike₂
      dsimp only
      split
      · exact (p.sequential_handBackSafe h hl hsettled).bind hwatch
      · exact hwatch returned s vm (.begin h hl) (.refl vm _)
  | _ => exact handBackSafe_pure h hl (.refl vm _)

/-- The arguments to call with are those of the call, but for a predicate that may be wrapped. -/
theorem spliceArguments_handBackSafe (args : List Value) (h : S.Handed vm₀ vm) (hl : s.Lists vm) :
    (handler.spliceArguments p args).HandBackSafe S vm₀ s vm fun r _ vm' =>
      r.2 = args ∨ ∃ v v', args = [v] ∧ r.2 = [v'] ∧ vm'.Wrapped v v' := by
  cases handler with
  | matching element predicateType maps result =>
      unfold spliceArguments
      dsimp only
      split
      · rename_i predicate
        split
        · exact handBackSafe_of_throw sends_throw h hl
        · rename_i matcher constructor hmatcher
          have hplain : endsWithBrackets matcher.name = false := by
            cases matcher <;> decide
          refine (handBackSafe_of_sends (p.newMap_sends ⟨.inl rfl, .inl rfl⟩) h hl).bind
            fun before s₁ vm₁ h₁ _ => ?_
          refine (handBackSafe_of_sends (p.newMap_sends ⟨.inl rfl, .inl rfl⟩) h₁.handed
            h₁.lists).bind
            fun after s₂ vm₂ h₂ _ => ?_
          refine (Bridge.construct_handBackSafe p.bridge hplain constructor
            [before, after, p.clock, predicate] h₂.handed h₂.lists).bind
            fun wrapped s₃ vm₃ h₃ hcrafts => handBackSafe_pure h₃.handed h₃.lists ?_
          exact .inr ⟨predicate, wrapped, rfl, rfl, hcrafts.2 rfl⟩
      · exact handBackSafe_of_throw sends_throw h hl
  | _ => exact handBackSafe_pure h hl (.inl rfl)

end StageHandler

end StreamTrace
